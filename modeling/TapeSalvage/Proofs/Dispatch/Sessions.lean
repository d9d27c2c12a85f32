import TapeSalvage.Proofs.Dispatch.Calls

/-!
What becomes of a session. Scripts only enter listeners, strike them off and retire rosters, however
deep they are nested, and calls are noted as they are made. The calls of one emission stand in the
notes in order, with those of the emissions that its listeners make in between.
-/
namespace TapeSalvage.Dispatch

/-- What holds between states before and after each call holds before and after an emission. -/
theorem emit_of_call {σ : Type} {view : σ → Registry} {call : σ → Entry → σ} {holds : σ → σ → Prop}
    (hrefl : ∀ state, holds state state)
    (htrans : ∀ {first second third}, holds first second → holds second third → holds first third)
    (hcall : ∀ state entry, holds state (call state entry)) (event : String) (state : σ) :
    holds state (emit view call event state) := by
  have hwalk : ∀ number turns, holds state (walk view call number turns state) := by
    intro number turns
    induction turns with
    | zero => exact hrefl state
    | succ turns ih =>
      cases hturn : holder view call number turns state with
      | none => rwa [walk_succ_of_none hturn]
      | some entry =>
        rw [walk_succ_of_some hturn]
        exact htrans ih (hcall _ entry)
  unfold emit
  split
  · exact hrefl state
  · exact hwalk _ _

variable {δ : Type}

/-- Whether a session can have come from another one: listeners have changed the rosters, and the
calls they got are noted. -/
structure Session.Continues (before after : Session δ) : Prop where
  leads : Leads before.registry after.registry
  calls : before.calls <:+ after.calls

namespace Session

theorem continues_refl (session : Session δ) : Continues session session :=
  ⟨Leads.refl, List.suffix_refl _⟩

theorem Continues.trans {before between after : Session δ} (hfirst : Continues before between)
    (hsecond : Continues between after) : Continues before after :=
  ⟨hfirst.leads.trans hsecond.leads, hfirst.calls.trans hsecond.calls⟩

section Scripts

variable {run : Session δ → List (Step δ) → Session δ}
  (hrun : ∀ session script, Continues session (run session script))
include hrun

/-- A call is noted before anything else comes of it. -/
theorem continues_noted (data : δ) (session : Session δ) (entry : Entry) :
    Continues { session with calls := (entry.listener, data) :: session.calls }
      (call run data session entry) := by
  unfold call
  cases session.scripts.lookup entry.listener with
  | none => exact continues_refl _
  | some script =>
    have hscript := hrun ⟨session.registry, session.scripts.filter (·.1 != entry.listener),
      (entry.listener, data) :: session.calls⟩ script
    exact ⟨hscript.leads, hscript.calls⟩

theorem continues_call (data : δ) (session : Session δ) (entry : Entry) :
    Continues session (call run data session entry) := by
  have hnoted := continues_noted hrun data session entry
  exact ⟨hnoted.leads, (List.suffix_cons _ _).trans hnoted.calls⟩

theorem continues_act (session : Session δ) (step : Step δ) :
    Continues session (session.act run step) := by
  cases step with
  | on event listener => exact ⟨Leads.refl.add event listener, List.suffix_refl _⟩
  | off event listener => exact ⟨Leads.refl.remove event listener, List.suffix_refl _⟩
  | emit event data =>
    exact emit_of_call continues_refl Continues.trans (continues_call hrun data) event session
  | clear event => exact ⟨Leads.refl.clear event, List.suffix_refl _⟩

/-- The notes have the last call first. -/
theorem calledIn_sublist_calls (data : δ) (number turns : Nat) (session : Session δ) :
    ((calledIn registry (call run data) number turns session).map
      fun entry => (entry.listener, data)).reverse.Sublist
        (walk registry (call run data) number turns session).calls := by
  induction turns with
  | zero => exact List.nil_sublist _
  | succ turns ih =>
    cases hturn : holder registry (call run data) number turns session with
    | none => rwa [walk_succ_of_none hturn, calledIn_succ_of_none hturn]
    | some entry =>
      rw [walk_succ_of_some hturn, calledIn_succ_of_some hturn, List.map_append,
        List.reverse_append]
      have hnoted := continues_noted hrun data
        (walk registry (call run data) number turns session) entry
      exact (ih.cons_cons (entry.listener, data)).trans hnoted.calls.sublist

theorem called_sublist_calls (data : δ) (event : String) (session : Session δ) :
    ((called registry (call run data) event session).map
      fun entry => (entry.listener, data)).reverse.Sublist
        (emit registry (call run data) event session).calls := by
  cases hnumber : session.registry.number? event with
  | none =>
    rw [called_of_number?_eq_none hnumber]
    exact List.nil_sublist _
  | some number =>
    rw [called_of_number? hnumber, emit, hnumber]
    exact calledIn_sublist_calls hrun data number _ session

end Scripts

theorem continues_runWithin (depth : Nat) (session : Session δ) (script : List (Step δ)) :
    Continues session (runWithin depth session script) := by
  induction depth generalizing session script with
  | zero => exact continues_refl session
  | succ depth ih =>
    rw [runWithin]
    induction script generalizing session with
    | nil => exact continues_refl session
    | cons step script ihscript =>
      rw [List.foldl_cons]
      exact (continues_act ih session step).trans (ihscript _)

/-- What comes of a call while a session emits an event. -/
def respond (session : Session δ) (data : δ) : Session δ → Entry → Session δ :=
  call (runWithin session.scripts.length) data

theorem leads_respond (session : Session δ) (data : δ) (other : Session δ) (entry : Entry) :
    Leads other.registry (session.respond data other entry).registry :=
  (continues_call (continues_runWithin _) data other entry).leads

/-- The calls of an emission are noted in the order in which it makes them. -/
theorem called_sublist_performNoting (session : Session δ) (event : String) (data : δ) :
    ((called registry (session.respond data) event { session with calls := [] }).map
      fun entry => (entry.listener, data)).Sublist
        (session.performNoting (.emit event data)).2 := by
  rw [← List.reverse_sublist, performNoting, List.reverse_reverse]
  exact called_sublist_calls (continues_runWithin _) data event _

end Session

end TapeSalvage.Dispatch
