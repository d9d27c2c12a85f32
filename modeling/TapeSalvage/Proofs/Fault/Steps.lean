import TapeSalvage.Fault

/-!
Steps that may fail. They come to a value exactly if each of them does, whatever it is that failures
are told by. Where they also work on a state, a failure keeps what was done to it.
-/
namespace TapeSalvage

variable {ε σ α β : Type}

theorem bind_eq_ok_iff (outcome : Except ε α) (next : α → Except ε β) (value : β) :
    (outcome >>= next) = .ok value ↔ ∃ first, outcome = .ok first ∧ next first = .ok value := by
  cases outcome with
  | error cause =>
    change Except.error cause = Except.ok value ↔ _
    simp
  | ok first =>
    change next first = .ok value ↔ _
    simp

theorem mapError_eq_ok_iff {ε' : Type} (tell : ε → ε') (outcome : Except ε α) (value : α) :
    outcome.mapError tell = .ok value ↔ outcome = .ok value := by
  cases outcome with
  | error cause =>
    change Except.error (tell cause) = Except.ok value ↔ _
    simp
  | ok first =>
    change Except.ok first = Except.ok value ↔ _
    simp

/-- Every step of a list comes to the value at its place. -/
theorem exists_of_mapM_eq_ok {step : α → Except ε β} {items : List α} {values : List β}
    (h : items.mapM step = .ok values) {index : Nat} {value : β}
    (hvalue : values[index]? = some value) :
    ∃ item, items[index]? = some item ∧ step item = .ok value := by
  induction items generalizing values index with
  | nil =>
    obtain rfl := Except.ok.inj h
    simp at hvalue
  | cons item rest ih =>
    rw [List.mapM_cons] at h
    obtain ⟨first, hfirst, h⟩ := (bind_eq_ok_iff _ _ _).mp h
    obtain ⟨others, hothers, h⟩ := (bind_eq_ok_iff _ _ _).mp h
    obtain rfl := Except.ok.inj h
    cases index with
    | zero =>
      obtain rfl := Option.some.inj hvalue
      exact ⟨item, rfl, hfirst⟩
    | succ index => exact ih hothers hvalue

/-- At the place of every item stands what the step comes to for it. -/
theorem exists_value_of_mapM_eq_ok {step : α → Except ε β} {items : List α} {values : List β}
    (h : items.mapM step = .ok values) {index : Nat} {item : α}
    (hitem : items[index]? = some item) :
    ∃ value, values[index]? = some value ∧ step item = .ok value := by
  induction items generalizing values index with
  | nil => simp at hitem
  | cons first rest ih =>
    rw [List.mapM_cons] at h
    obtain ⟨value, hvalue, h⟩ := (bind_eq_ok_iff _ _ _).mp h
    obtain ⟨others, hothers, h⟩ := (bind_eq_ok_iff _ _ _).mp h
    obtain rfl := Except.ok.inj h
    cases index with
    | zero =>
      obtain rfl := Option.some.inj hitem
      exact ⟨value, rfl, hvalue⟩
    | succ index => exact ih hothers hitem

theorem run_bind (step : ExceptT ε (StateM σ) α) (next : α → ExceptT ε (StateM σ) β) (state : σ) :
    (ExceptT.run (step >>= next)).run state =
      match (ExceptT.run step).run state with
      | (.ok value, later) => (ExceptT.run (next value)).run later
      | (.error cause, later) => (.error cause, later) := by
  change (ExceptT.run step >>= ExceptT.bindCont next).run state = _
  rw [StateT.run_bind]
  cases (ExceptT.run step).run state with
  | mk outcome later => cases outcome <;> rfl

theorem run_tryCatch (step : ExceptT ε (StateM σ) α) (handler : ε → ExceptT ε (StateM σ) α)
    (state : σ) :
    (ExceptT.run (tryCatch step handler)).run state =
      match (ExceptT.run step).run state with
      | (.ok value, later) => (.ok value, later)
      | (.error cause, later) => (ExceptT.run (handler cause)).run later := by
  rw [ExceptT.run_tryCatch, StateT.run_bind]
  cases (ExceptT.run step).run state with
  | mk outcome later => cases outcome <;> rfl

end TapeSalvage
