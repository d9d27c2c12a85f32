import TapeSalvage.Proofs.Dispatch.Changes

/-!
Whom an emission calls. The calls of an emission are noted, which changes nothing about it. Each
entry is called at most once, and all of them in the order in which they were made.
-/
namespace TapeSalvage.Dispatch

section Calls

variable {σ : Type} (view : σ → Registry) (call : σ → Entry → σ)

def noting (noted : σ × List Entry) (entry : Entry) : σ × List Entry :=
  (call noted.1 entry, noted.2 ++ [entry])

/-- Who stands at a position of a roster when its turn comes. -/
def holder (number position : Nat) (state : σ) : Option Entry :=
  ((view (walk view call number position state)).membersOf number)[position]?

def calledIn (number turns : Nat) (state : σ) : List Entry :=
  (walk (fun noted => view noted.1) (noting call) number turns (state, [])).2

def called (event : String) (state : σ) : List Entry :=
  (emit (fun noted => view noted.1) (noting call) event (state, [])).2

/-- Those of some entries that are to be called one after the other: each of them if it still waits
for the event when its turn comes. -/
def due (event : String) : List Entry → σ → List Entry
  | [], _ => []
  | entry :: rest, state =>
    if entry ∈ (view state).entries event then entry :: due event rest (call state entry)
    else due event rest state

variable {view call} in
/-- Those who do not wait for the event are passed over. -/
theorem due_append {event : String} {skipped : List Entry} {state : σ}
    (h : ∀ entry ∈ skipped, entry ∉ (view state).entries event) (rest : List Entry) :
    due view call event (skipped ++ rest) state = due view call event rest state := by
  induction skipped with
  | nil => rfl
  | cons entry skipped ih =>
    rw [List.cons_append, due, if_neg (h entry List.mem_cons_self)]
    apply ih
    intro other hother
    exact h other (List.mem_cons_of_mem entry hother)

variable {view call} in
theorem due_eq_nil {event : String} {entries : List Entry} {state : σ}
    (h : ∀ entry ∈ entries, entry ∉ (view state).entries event) :
    due view call event entries state = [] := by
  simpa [due] using due_append h []

theorem walk_succ (number turns : Nat) (state : σ) :
    walk view call number (turns + 1) state =
      turn view call number (walk view call number turns state) turns := by
  rw [walk, List.range_succ, List.foldl_append]
  rfl

theorem walk_noting (number turns : Nat) (state : σ) :
    walk (fun noted => view noted.1) (noting call) number turns (state, []) =
      (walk view call number turns state, calledIn view call number turns state) := by
  have hstate : (walk (fun noted => view noted.1) (noting call) number turns (state, [])).1 =
      walk view call number turns state := by
    induction turns with
    | zero => rfl
    | succ turns ih =>
      rw [walk_succ, walk_succ, turn, turn, ← ih]
      split <;> rfl
  exact Prod.ext hstate rfl

theorem calledIn_succ (number turns : Nat) (state : σ) :
    calledIn view call number (turns + 1) state =
      calledIn view call number turns state ++ (holder view call number turns state).toList := by
  rw [calledIn, walk_succ, walk_noting, turn, holder]
  dsimp only
  cases ((view (walk view call number turns state)).membersOf number)[turns]? with
  | none => exact (List.append_nil _).symm
  | some entry => rfl

variable {view call}

theorem walk_succ_of_none {number turns : Nat} {state : σ}
    (h : holder view call number turns state = none) :
    walk view call number (turns + 1) state = walk view call number turns state := by
  rw [holder] at h
  rw [walk_succ, turn, h]

theorem walk_succ_of_some {number turns : Nat} {state : σ} {entry : Entry}
    (h : holder view call number turns state = some entry) :
    walk view call number (turns + 1) state = call (walk view call number turns state) entry := by
  rw [holder] at h
  rw [walk_succ, turn, h]

theorem calledIn_succ_of_none {number turns : Nat} {state : σ}
    (h : holder view call number turns state = none) :
    calledIn view call number (turns + 1) state = calledIn view call number turns state := by
  rw [calledIn_succ, h, Option.toList_none, List.append_nil]

theorem calledIn_succ_of_some {number turns : Nat} {state : σ} {entry : Entry}
    (h : holder view call number turns state = some entry) :
    calledIn view call number (turns + 1) state =
      calledIn view call number turns state ++ [entry] := by
  rw [calledIn_succ, h, Option.toList_some]

theorem called_of_number?_eq_none {event : String} {state : σ}
    (h : (view state).number? event = none) :
    called view call event state = [] := by
  rw [called, emit]
  dsimp only
  rw [h]

theorem called_of_number? {event : String} {state : σ} {number : Nat}
    (h : (view state).number? event = some number) :
    called view call event state =
      calledIn view call number ((view state).membersOf number).length state := by
  rw [called, emit]
  dsimp only
  rw [h]
  rfl

theorem length_calledIn_le (number turns : Nat) (state : σ) :
    (calledIn view call number turns state).length ≤ turns := by
  induction turns with
  | zero => exact Nat.le_refl 0
  | succ turns ih =>
    cases hturn : holder view call number turns state with
    | none =>
      rw [calledIn_succ_of_none hturn]
      omega
    | some entry =>
      rw [calledIn_succ_of_some hturn, List.length_append, List.length_singleton]
      omega

end Calls

section Order

theorem isOrdered_membersOf (registry : Registry) (number : Nat) :
    IsOrdered registry.next (registry.membersOf number) := by
  rw [Registry.membersOf, membersAt]
  cases hroster : registry.rosters[number]? with
  | none => exact ⟨List.Pairwise.nil, by simp⟩
  | some roster => exact registry.isOrdered roster (List.mem_of_getElem? hroster)

theorem IsOrdered.nodup {next : Nat} {entries : List Entry} (h : IsOrdered next entries) :
    entries.Nodup := by
  apply h.pairwise.imp
  rintro entry other hlt rfl
  exact Nat.lt_irrefl _ hlt

/-- As many entries as stand in front of an entry have a lower number. -/
theorem IsOrdered.countP_eq {next : Nat} {entries : List Entry} (h : IsOrdered next entries)
    {position : Nat} {entry : Entry} (hentry : entries[position]? = some entry) :
    entries.countP (·.number ≤ entry.number) = position + 1 := by
  induction entries generalizing position with
  | nil => simp at hentry
  | cons first rest ih =>
    obtain ⟨hfirst, hrest⟩ := List.pairwise_cons.mp h.pairwise
    rw [List.countP_cons]
    cases position with
    | zero =>
      obtain rfl := Option.some.inj hentry
      have hnone : rest.countP (·.number ≤ first.number) = 0 := by
        rw [List.countP_eq_zero]
        intro other hother
        have := hfirst other hother
        simp only [decide_eq_true_eq]
        omega
      simp [hnone]
    | succ position =>
      have hlt := hfirst entry (List.mem_of_getElem? hentry)
      rw [ih (h.sublist (List.sublist_cons_self first rest)) hentry, if_pos]
      simp only [decide_eq_true_eq]
      omega

theorem IsOrdered.length_front {next : Nat} {entries : List Entry} (h : IsOrdered next entries)
    {position : Nat} {entry : Entry} (hentry : entries[position]? = some entry) :
    (entries.filter (·.number ≤ entry.number)).length = position + 1 := by
  rw [← List.countP_eq_length_filter]
  exact h.countP_eq hentry

/-- Changes bring no entry in front of one that is there. -/
theorem Follows.countP_le {event : String} {before after : Registry}
    (h : Follows event before after) (number : Nat) {bound : Nat} (hbound : bound < before.next) :
    (after.membersOf number).countP (·.number ≤ bound) ≤
      (before.membersOf number).countP (·.number ≤ bound) := by
  obtain ⟨added, hsublist, hadded⟩ := h.members number
  have hnone : added.countP (·.number ≤ bound) = 0 := by
    rw [List.countP_eq_zero]
    intro entry hentry
    have := hadded entry hentry
    simp only [decide_eq_true_eq]
    omega
  calc (after.membersOf number).countP (·.number ≤ bound)
      ≤ (before.membersOf number ++ added).countP (·.number ≤ bound) := hsublist.countP_le
    _ = (before.membersOf number).countP (·.number ≤ bound) := by
      rw [List.countP_append, hnone, Nat.add_zero]

variable {σ : Type} {view : σ → Registry} {call : σ → Entry → σ}

/-- When a turn comes, so many turns are over as entries are left that were made before one that has
been called. -/
theorem countP_of_mem_calledIn (hcall : ∀ state entry, Leads (view state) (view (call state entry)))
    (number turns : Nat) (state : σ) :
    ∀ entry ∈ calledIn view call number turns state,
      entry.number < (view (walk view call number turns state)).next ∧
      ((view (walk view call number turns state)).membersOf number).countP
        (·.number ≤ entry.number) ≤ turns := by
  induction turns with
  | zero => simp [calledIn, walk]
  | succ turns ih =>
    intro entry hentry
    cases hturn : holder view call number turns state with
    | none =>
      rw [calledIn_succ_of_none hturn] at hentry
      rw [walk_succ_of_none hturn]
      obtain ⟨hlt, hcount⟩ := ih entry hentry
      exact ⟨hlt, Nat.le_succ_of_le hcount⟩
    | some next =>
      rw [calledIn_succ_of_some hturn] at hentry
      rw [walk_succ_of_some hturn]
      have hfollows := (hcall (walk view call number turns state) next).follows ""
      have hold : entry.number < (view (walk view call number turns state)).next ∧
          ((view (walk view call number turns state)).membersOf number).countP
            (·.number ≤ entry.number) ≤ turns + 1 := by
        rcases List.mem_append.mp hentry with hcalled | hlast
        · obtain ⟨hlt, hcount⟩ := ih entry hcalled
          exact ⟨hlt, Nat.le_succ_of_le hcount⟩
        · obtain rfl := List.mem_singleton.mp hlast
          have hordered := isOrdered_membersOf (view (walk view call number turns state)) number
          exact ⟨hordered.lt entry (List.mem_of_getElem? hturn),
            Nat.le_of_eq (hordered.countP_eq hturn)⟩
      exact ⟨Nat.lt_of_lt_of_le hold.1 hfollows.next_le,
        Nat.le_trans (hfollows.countP_le number hold.1) hold.2⟩

/-- Entries are called in the order in which they were made. -/
theorem pairwise_calledIn (hcall : ∀ state entry, Leads (view state) (view (call state entry)))
    (number turns : Nat) (state : σ) :
    (calledIn view call number turns state).Pairwise (·.number < ·.number) := by
  induction turns with
  | zero => exact List.Pairwise.nil
  | succ turns ih =>
    cases hturn : holder view call number turns state with
    | none => rwa [calledIn_succ_of_none hturn]
    | some next =>
      rw [calledIn_succ_of_some hturn, List.pairwise_append]
      refine ⟨ih, List.pairwise_singleton _ _, ?_⟩
      intro entry hentry last hlast
      obtain rfl := List.mem_singleton.mp hlast
      obtain ⟨_, hcount⟩ := countP_of_mem_calledIn hcall number turns state entry hentry
      have hplace := (isOrdered_membersOf _ number).countP_eq hturn
      apply Nat.lt_of_not_le
      intro hle
      have hmono : ((view (walk view call number turns state)).membersOf number).countP
          (·.number ≤ last.number) ≤
            ((view (walk view call number turns state)).membersOf number).countP
              (·.number ≤ entry.number) := by
        apply List.countP_mono_left
        intro other _ hother
        simp only [decide_eq_true_eq] at hother ⊢
        omega
      omega

end Order

end TapeSalvage.Dispatch
