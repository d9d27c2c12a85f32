import TapeSalvage.Dispatch.Emission

/-!
Steps told by lists: one list of listeners for each event, in the order in which they came. A step
changes the lists of the events that it concerns, and calls who stands on the list of an event that
it emits. Steps that name different events can trade places.
-/
namespace TapeSalvage.Dispatch

variable {δ : Type}

namespace Step

def event : Step δ → String
  | .on name _ => name
  | .off name _ => name
  | .emit name _ => name
  | .clear name => name

def isSweeping : Step δ → Bool
  | .clear name => name == ""
  | _ => false

def concerns (event : String) (step : Step δ) : Bool := step.isSweeping || step.event == event

def change (event : String) (waiting : List Listener) : Step δ → List Listener
  | .on name listener => if name = event then waiting ++ [listener] else waiting
  | .off name listener => if name = event then waiting.erase listener else waiting
  | .emit _ _ => waiting
  | .clear name => if name = "" ∨ name = event then [] else waiting

def update (waiting : String → List Listener) (step : Step δ) (event : String) : List Listener :=
  step.change event (waiting event)

/-- The calls that a step makes where these listeners wait for each event. -/
def reply (waiting : String → List Listener) : Step δ → List (Listener × δ)
  | .emit name data => (waiting name).map fun listener => (listener, data)
  | _ => []

theorem not_concerns_iff {event : String} {step : Step δ} :
    ¬ step.concerns event = true ↔ step.isSweeping = false ∧ step.event ≠ event := by
  simp [concerns]

/-- A step leaves the lists of the events alone that it does not concern. -/
theorem change_of_not_concerns {event : String} {step : Step δ} (h : ¬ step.concerns event = true)
    (waiting : List Listener) : step.change event waiting = waiting := by
  obtain ⟨hsweeping, hevent⟩ := not_concerns_iff.mp h
  cases step with
  | on name listener => exact if_neg hevent
  | off name listener => exact if_neg hevent
  | emit name data => rfl
  | clear name => exact if_neg (not_or_intro (ne_of_beq_false hsweeping) hevent)

theorem concerns_event (step : Step δ) : step.concerns step.event = true := by
  simp [concerns]

/-- The calls of a step come from the list of an event that it concerns. -/
theorem reply_congr {event : String} {step : Step δ} {first second : String → List Listener}
    (hstep : step.concerns event = true) (h : first event = second event) :
    step.reply first = step.reply second := by
  cases step with
  | emit name data =>
    obtain rfl : name = event := eq_of_beq hstep
    exact congrArg (List.map fun listener => (listener, data)) h
  | on name listener => rfl
  | off name listener => rfl
  | clear name => rfl

/-- Whether two steps name different events, and neither of them clears all events. -/
structure IsApart (first second : Step δ) : Prop where
  event_ne : first.event ≠ second.event
  first_eq_false : first.isSweeping = false
  second_eq_false : second.isSweeping = false

theorem IsApart.symm {first second : Step δ} (h : first.IsApart second) : second.IsApart first :=
  ⟨h.event_ne.symm, h.second_eq_false, h.first_eq_false⟩

theorem IsApart.not_concerns {first second : Step δ} (h : first.IsApart second) :
    ¬ first.concerns second.event = true :=
  not_concerns_iff.mpr ⟨h.first_eq_false, h.event_ne⟩

theorem IsApart.reply_eq {first second : Step δ} (h : first.IsApart second)
    (waiting : String → List Listener) :
    second.reply (first.update waiting) = second.reply waiting :=
  reply_congr second.concerns_event (change_of_not_concerns h.not_concerns _)

theorem IsApart.update_comm {first second : Step δ} (h : first.IsApart second)
    (waiting : String → List Listener) :
    second.update (first.update waiting) = first.update (second.update waiting) := by
  funext event
  unfold update
  by_cases hevent : first.event = event
  · have hother : ¬ second.concerns event = true := hevent ▸ h.symm.not_concerns
    rw [change_of_not_concerns hother, change_of_not_concerns hother]
  · have hother : ¬ first.concerns event = true := not_concerns_iff.mpr ⟨h.first_eq_false, hevent⟩
    rw [change_of_not_concerns hother, change_of_not_concerns hother]

end Step

section Lists

def waitingAfter (steps : List (Step δ)) (event : String) : List Listener :=
  steps.foldl (Step.change event) []

/-- Steps with the calls that they make where these listeners wait for each event at first. -/
def annotate (waiting : String → List Listener) :
    List (Step δ) → List (Step δ × List (Listener × δ))
  | [] => []
  | step :: rest =>
    (step, step.reply waiting) :: annotate (step.update waiting) rest

theorem annotate_eq_mapIdx (waiting : String → List Listener) (steps : List (Step δ)) :
    annotate waiting steps = steps.mapIdx fun place step =>
      (step, step.reply fun event =>
        (steps.take place).foldl (Step.change event) (waiting event)) := by
  induction steps generalizing waiting with
  | nil => rfl
  | cons step rest ih =>
    rw [annotate, List.mapIdx_cons, ih]
    rfl

theorem annotate_append (waiting : String → List Listener) (steps later : List (Step δ)) :
    annotate waiting (steps ++ later) = annotate waiting steps ++
      annotate (fun event => steps.foldl (Step.change event) (waiting event)) later := by
  induction steps generalizing waiting with
  | nil => rfl
  | cons step rest ih =>
    rw [List.cons_append, annotate, ih, annotate]
    rfl

/-- What is called for an event follows from its list and the steps that concern it. -/
theorem filter_annotate {event : String} {first second : String → List Listener}
    (h : first event = second event) (steps : List (Step δ)) :
    (annotate first steps).filter (·.1.concerns event) =
      annotate second (steps.filter (·.concerns event)) := by
  -- The lists of other events may come apart, but those of the event stay the same.
  induction steps generalizing first second with
  | nil => rfl
  | cons step rest ih =>
    by_cases hstep : step.concerns event = true
    · have hreply : step.reply first = step.reply second := Step.reply_congr hstep h
      have hlists : step.update first event = step.update second event :=
        congrArg (step.change event) h
      simp only [annotate, List.filter_cons, hstep, if_true, hreply, ih hlists]
    · have hlists : step.update first event = second event :=
        (Step.change_of_not_concerns hstep _).trans h
      simp only [annotate, List.filter_cons, hstep, Bool.false_eq_true, if_false, ih hlists]

/-- Steps that are apart make the same calls in either order, and so do the steps behind them. -/
theorem annotate_swap {first second : Step δ} (h : first.IsApart second)
    (waiting : String → List Listener) (later : List (Step δ)) :
    ∃ after, annotate waiting (first :: second :: later) =
        (first, first.reply waiting) :: (second, second.reply waiting) :: after ∧
      annotate waiting (second :: first :: later) =
        (second, second.reply waiting) :: (first, first.reply waiting) :: after := by
  refine ⟨annotate (second.update (first.update waiting)) later, ?_, ?_⟩
  · rw [annotate, annotate, h.reply_eq]
  · rw [annotate, annotate, h.symm.reply_eq, h.update_comm]

end Lists

end TapeSalvage.Dispatch
