import TapeSalvage.Proofs.Dispatch.Calls
import TapeSalvage.Proofs.Dispatch.Listeners
import TapeSalvage.Proofs.Dispatch.Waiting

/-!
Sessions whose listeners leave the registry alone. Such a session calls as if it kept one list of
listeners for each event: what a step calls follows from the steps before it, and of these only from
the ones that concern its event.
-/
namespace TapeSalvage.Dispatch

variable {δ : Type}

namespace Session

/-- Whether the scripts of a session do nothing, so that listeners leave the registry alone. -/
def IsQuiet (session : Session δ) : Prop := ∀ named ∈ session.scripts, named.2 = []

def opened (scripts : List (Listener × List (Step δ))) : Session δ := ⟨Registry.empty, scripts, []⟩

def transcript (session : Session δ) : List (Step δ) → List (Step δ × List (Listener × δ))
  | [] => []
  | step :: rest =>
    (step, (session.performNoting step).2) :: (session.performNoting step).1.transcript rest

/-- Whether nothing but some calls was noted between two sessions, of which the second one is
quiet. -/
structure Notes (made : List (Listener × δ)) (before after : Session δ) : Prop where
  registry_eq : after.registry = before.registry
  calls_eq : after.calls = made.reverse ++ before.calls
  isQuiet : after.IsQuiet

theorem runWithin_nil (depth : Nat) (session : Session δ) :
    runWithin depth session [] = session := by
  cases depth with
  | zero => rfl
  | succ depth => rfl

section Quiet

variable {session : Session δ} (hquiet : session.IsQuiet) (depth : Nat) (data : δ)
include hquiet

theorem notes_call (entry : Entry) :
    Notes [(entry.listener, data)] session (call (runWithin depth) data session entry) := by
  unfold call
  cases hscript : session.scripts.lookup entry.listener with
  | none => exact ⟨rfl, rfl, hquiet⟩
  | some script =>
    obtain ⟨front, back, hsplit, _⟩ := List.lookup_eq_some_iff.mp hscript
    obtain rfl : script = [] := hquiet (entry.listener, script) (by simp [hsplit])
    dsimp only
    rw [runWithin_nil]
    exact ⟨rfl, rfl, fun named hnamed => hquiet named (List.mem_filter.mp hnamed).1⟩

/-- The turns on a roster call its members, one after the other. -/
theorem notes_walk (number turns : Nat) :
    Notes (((session.registry.membersOf number).take turns).map fun entry => (entry.listener, data))
      session (walk registry (call (runWithin depth) data) number turns session) := by
  induction turns with
  | zero => exact ⟨rfl, rfl, hquiet⟩
  | succ turns ih =>
    -- The calls so far left the roster alone, so the turn finds the member that stood there at
    -- first.
    have hholder : holder registry (call (runWithin depth) data) number turns session =
        (session.registry.membersOf number)[turns]? := by
      rw [holder, ih.registry_eq]
    rw [List.take_add_one, ← hholder]
    cases hturn : holder registry (call (runWithin depth) data) number turns session with
    | none =>
      rw [walk_succ_of_none hturn, Option.toList_none, List.append_nil]
      exact ih
    | some entry =>
      rw [walk_succ_of_some hturn]
      have hcall := notes_call ih.isQuiet depth data entry
      constructor
      · rw [hcall.registry_eq, ih.registry_eq]
      · rw [hcall.calls_eq, ih.calls_eq]
        simp
      · exact hcall.isQuiet

theorem notes_emit (event : String) :
    Notes ((session.registry.listeners event).map fun listener => (listener, data)) session
      (emit registry (call (runWithin depth) data) event session) := by
  unfold emit Registry.listeners Registry.entries
  cases session.registry.number? event with
  | none => exact ⟨rfl, rfl, hquiet⟩
  | some number =>
    have hwalk := notes_walk hquiet depth data number (session.registry.membersOf number).length
    rw [List.take_length] at hwalk
    rw [List.map_map]
    exact hwalk

/-- A step of a quiet session calls who stands on the lists of the events, and changes these
lists. -/
theorem performNoting_of_isQuiet (step : Step δ) :
    (session.performNoting step).2 = step.reply session.registry.listeners ∧
      (session.performNoting step).1.registry.listeners = step.update session.registry.listeners ∧
      (session.performNoting step).1.IsQuiet := by
  cases step with
  | on name listener => exact ⟨rfl, funext fun event => listeners_add _ event name listener, hquiet⟩
  | off name listener =>
    exact ⟨rfl, funext fun event => listeners_remove _ event name listener, hquiet⟩
  | clear name => exact ⟨rfl, funext fun event => listeners_clear _ event name, hquiet⟩
  | emit name data =>
    have hcleared : IsQuiet { session with calls := [] } := hquiet
    have hemit := notes_emit hcleared session.scripts.length data name
    have hcalls := congrArg List.reverse hemit.calls_eq
    rw [List.append_nil, List.reverse_reverse] at hcalls
    exact ⟨hcalls, congrArg Registry.listeners hemit.registry_eq, hemit.isQuiet⟩

/-- Rosters stand for the lists of their events, whatever they have come through. -/
theorem transcript_eq_annotate (steps : List (Step δ)) :
    session.transcript steps = annotate session.registry.listeners steps := by
  induction steps generalizing session with
  | nil => rfl
  | cons step rest ih =>
    obtain ⟨hcalls, hlists, hafter⟩ := performNoting_of_isQuiet hquiet step
    rw [transcript, annotate, ih hafter, hcalls, hlists]

end Quiet

theorem transcript_opened {scripts : List (Listener × List (Step δ))}
    (hquiet : (opened scripts).IsQuiet) (steps : List (Step δ)) :
    (opened scripts).transcript steps = annotate (fun _ => []) steps := by
  have hempty : (opened scripts).registry.listeners = fun _ => [] := funext listeners_empty
  rw [transcript_eq_annotate hquiet, hempty]

end Session

/-- If listeners leave the registry alone, the calls of each step of a session follow from the steps
before it: those are called who wait for the event after them, in order. Each event is served by the
steps that concern it as if there were no others, and steps that name different events make the same
calls in either order, and so do all steps behind them. -/
theorem transcript_of_isQuiet {scripts : List (Listener × List (Step δ))}
    (hquiet : (Session.opened scripts).IsQuiet) (steps : List (Step δ)) :
    (Session.opened scripts).transcript steps = steps.mapIdx (fun place step =>
        (step, step.reply (waitingAfter (steps.take place)))) ∧
    (∀ event, ((Session.opened scripts).transcript steps).filter (·.1.concerns event) =
        (Session.opened scripts).transcript (steps.filter (·.concerns event))) ∧
    (∀ earlier first second later,
      steps = earlier ++ first :: second :: later → first.IsApart second →
      ∃ one other after, (Session.opened scripts).transcript steps =
          (Session.opened scripts).transcript earlier ++ (first, one) :: (second, other) :: after ∧
        (Session.opened scripts).transcript (earlier ++ second :: first :: later) =
          (Session.opened scripts).transcript earlier ++
            (second, other) :: (first, one) :: after) := by
  rw [Session.transcript_opened hquiet]
  refine ⟨annotate_eq_mapIdx _ steps, ?_, ?_⟩
  · intro event
    rw [Session.transcript_opened hquiet]
    exact filter_annotate rfl steps
  · rintro earlier first second later rfl hapart
    rw [Session.transcript_opened hquiet, Session.transcript_opened hquiet, annotate_append,
      annotate_append]
    obtain ⟨after, hforward, hbackward⟩ := annotate_swap hapart
      (fun event => earlier.foldl (Step.change event) []) later
    exact ⟨_, _, after, congrArg _ hforward, congrArg _ hbackward⟩

def lineAndPageSteps : List (Step Nat) :=
  [.on "line" "reader", .on "line" "writer", .on "line" "reader", .on "page" "reader",
    .on "" "writer", .emit "line" 1, .off "line" "reader", .clear "page", .emit "line" 2,
    .emit "page" 3, .emit "" 4, .on "page" "writer", .clear "", .emit "line" 5, .emit "page" 6,
    .emit "" 7]

def idleScripts : List (Listener × List (Step Nat)) := [("reader", [])]

theorem transcript_of_isQuiet_lineAndPage :
    (Session.opened idleScripts).IsQuiet ∧
    ((Session.opened idleScripts).transcript lineAndPageSteps).map (·.2) =
      [[], [], [], [], [], [("reader", 1), ("writer", 1), ("reader", 1)], [], [],
        [("writer", 2), ("reader", 2)], [], [("writer", 4)], [], [], [], [], []] ∧
    (Step.off "line" "reader" : Step Nat).IsApart (.clear "page") ∧
    ∃ one other after, (Session.opened idleScripts).transcript lineAndPageSteps =
        (Session.opened idleScripts).transcript (lineAndPageSteps.take 6) ++
          (.off "line" "reader", one) :: (.clear "page", other) :: after ∧
      (Session.opened idleScripts).transcript
          (lineAndPageSteps.take 6 ++
            .clear "page" :: .off "line" "reader" :: lineAndPageSteps.drop 8) =
        (Session.opened idleScripts).transcript (lineAndPageSteps.take 6) ++
          (.clear "page", other) :: (.off "line" "reader", one) :: after := by
  have hquiet : (Session.opened idleScripts).IsQuiet := by
    simp [Session.IsQuiet, Session.opened, idleScripts]
  have hapart : (Step.off "line" "reader" : Step Nat).IsApart (.clear "page") :=
    ⟨by decide, rfl, by decide⟩
  obtain ⟨hcalls, _, hswap⟩ := transcript_of_isQuiet hquiet lineAndPageSteps
  refine ⟨hquiet, ?_, hapart, hswap _ _ _ _ rfl hapart⟩
  rw [hcalls]
  decide +kernel

end TapeSalvage.Dispatch
