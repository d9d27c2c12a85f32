import Mathlib.Data.List.Perm.Subperm
import TapeSalvage.Proofs.Dispatch.Calls

/-!
Who is due, and whether a turn goes to them. An emission calls just those who are due, if nobody who
was called is struck off while another one is still due, and if nobody is left at a position to come
once nobody is due any more. Otherwise it passes somebody over, or calls somebody who is not due.
-/
namespace TapeSalvage.Dispatch

/-- Whether a turn goes to who is due, where some entries waited for the event at first and some of
them have been called since. While another one is still due, all who were called still wait for the
event; and once nobody is due, nobody stands at the position. -/
structure IsServed (registry : Registry) (event : String) (number : Nat)
    (initial called : List Entry) (position : Nat) : Prop where
  subset : ∀ entry ∈ initial, entry ∈ registry.entries event → entry ∉ called →
    called ⊆ registry.entries event
  length_le : (∀ entry ∈ initial, entry ∈ registry.entries event → entry ∈ called) →
    (registry.membersOf number).length ≤ position

instance (registry : Registry) (event : String) (number : Nat) (initial called : List Entry)
    (position : Nat) : Decidable (IsServed registry event number initial called position) :=
  decidable_of_iff
    ((∀ entry ∈ initial, entry ∈ registry.entries event → entry ∉ called →
        ∀ other ∈ called, other ∈ registry.entries event) ∧
      ((∀ entry ∈ initial, entry ∈ registry.entries event → entry ∈ called) →
        (registry.membersOf number).length ≤ position))
    ⟨fun h => ⟨h.1, h.2⟩, fun h => ⟨h.1, h.2⟩⟩

/-- Whether an entry waits for an event, and none of those in front of it does. -/
structure IsNext (registry : Registry) (event : String) (skipped : List Entry) (next : Entry) :
    Prop where
  mem : next ∈ registry.entries event
  notMem : ∀ entry ∈ skipped, entry ∉ registry.entries event

theorem exists_isNext (registry : Registry) (event : String) (entries : List Entry) :
    (∀ entry ∈ entries, entry ∉ registry.entries event) ∨
      ∃ skipped next later, entries = skipped ++ next :: later ∧
        IsNext registry event skipped next := by
  cases hfind : entries.find? (· ∈ registry.entries event) with
  | none =>
    left
    simpa using hfind
  | some next =>
    right
    obtain ⟨hnext, skipped, later, hentries, hskipped⟩ := List.find?_eq_some_iff_append.mp hfind
    refine ⟨skipped, next, later, hentries, ?_, ?_⟩
    · simpa using hnext
    · simpa using hskipped

section Serving

variable {event : String} {number : Nat} {before after : Registry}

theorem entries_of_number? {registry : Registry} (h : registry.number? event = some number) :
    registry.entries event = registry.membersOf number := by
  rw [Registry.entries, h]
  rfl

/-- An old entry waits for the event only as long as the roster is not retired. -/
theorem Follows.number?_of_lt (h : Follows event before after) {entry : Entry}
    (hentry : entry ∈ after.entries event) (hold : entry.number < before.next) :
    after.number? event = before.number? event := by
  refine h.number?_eq.resolve_right ?_
  intro hnew
  have := hnew entry hentry
  omega

theorem Follows.mem_entries_of_lt (h : Follows event before after) {entry : Entry}
    (hentry : entry ∈ after.entries event) (hold : entry.number < before.next) :
    entry ∈ before.entries event := by
  rcases h.mem_entries (h.number?_of_lt hentry hold) hentry with hmem | hnew
  · exact hmem
  · omega

/-- How far an emission has come that has called who was due: the entries before the rest have had
their turns, and while one of the rest is due, no turn was without a call. -/
structure IsServing (event : String) (before after : Registry) (called passed rest : List Entry)
    (position : Nat) : Prop where
  follows : Follows event before after
  entries_eq : before.entries event = passed ++ rest
  sublist : called.Sublist passed
  mem_called : ∀ entry ∈ passed, entry ∈ after.entries event → entry ∈ called
  length_eq : ∀ entry ∈ rest, entry ∈ after.entries event → called.length = position

theorem isServing_begin (event : String) (registry : Registry) :
    IsServing event registry registry [] [] (registry.entries event) 0 where
  follows := follows_refl event registry
  entries_eq := rfl
  sublist := List.Sublist.refl []
  mem_called := by simp
  length_eq := by simp

variable {called passed rest skipped later : List Entry} {next : Entry} {position : Nat}

theorem IsServing.isOrdered (h : IsServing event before after called passed rest position)
    (hnumber : before.number? event = some number) : IsOrdered before.next (passed ++ rest) := by
  rw [← h.entries_eq, entries_of_number? hnumber]
  exact isOrdered_membersOf before number

/-- An entry whose turn is still to come was not called. -/
theorem IsServing.notMem_called (h : IsServing event before after called passed rest position)
    (hnumber : before.number? event = some number) {entry : Entry} (hentry : entry ∈ rest) :
    entry ∉ called := by
  intro hcalled
  have hordered := (List.pairwise_append.mp (h.isOrdered hnumber).pairwise).2.2
  exact Nat.lt_irrefl _ (hordered entry (h.sublist.subset hcalled) entry hentry)

/-- Nobody is due but those whose turn is still to come. -/
theorem IsServing.mem_rest (h : IsServing event before after called passed rest position)
    {entry : Entry} (hinitial : entry ∈ before.entries event) (hentry : entry ∈ after.entries event)
    (hcalled : entry ∉ called) : entry ∈ rest := by
  rw [h.entries_eq] at hinitial
  rcases List.mem_append.mp hinitial with hpassed | hrest
  · exact absurd (h.mem_called entry hpassed hentry) hcalled
  · exact hrest

/-- If nobody is due, a turn without a call changes nothing. -/
theorem IsServing.pass (h : IsServing event before after called passed rest position)
    (hnone : ∀ entry ∈ rest, entry ∉ after.entries event) :
    IsServing event before after called passed rest (position + 1) where
  follows := h.follows
  entries_eq := h.entries_eq
  sublist := h.sublist
  mem_called := h.mem_called
  length_eq := by
    intro entry hentry hwaits
    exact absurd hwaits (hnone entry hentry)

section Next

variable (h : IsServing event before after called passed (skipped ++ next :: later) position)
  (hnumber : before.number? event = some number) (hnext : IsNext after event skipped next)
include h hnumber hnext

theorem IsServing.number?_of_isNext : after.number? event = some number := by
  have hold : next.number < before.next := (h.isOrdered hnumber).lt next (by simp)
  rw [h.follows.number?_of_lt hnext.mem hold, hnumber]

/-- When the first one that is due is called, its turn and those of who stood in front of it are
over. -/
theorem IsServing.call_next {further : Registry} (hfurther : Follows event after further) :
    IsServing event before further (called ++ [next]) (passed ++ (skipped ++ [next])) later
      (position + 1) := by
  have hlength : called.length = position := h.length_eq next (by simp) hnext.mem
  have hordered := h.isOrdered hnumber
  constructor
  · exact h.follows.trans hfurther
  · rw [h.entries_eq]
    simp
  · exact h.sublist.append (List.sublist_append_right skipped [next])
  · intro entry hentry hwaits
    have hold : entry.number < after.next := by
      have hmem : entry ∈ passed ++ (skipped ++ next :: later) := by
        simp only [List.mem_append, List.mem_cons, List.not_mem_nil, or_false] at hentry ⊢
        tauto
      exact Nat.lt_of_lt_of_le (hordered.lt entry hmem) h.follows.next_le
    have hwaited : entry ∈ after.entries event := hfurther.mem_entries_of_lt hwaits hold
    rcases List.mem_append.mp hentry with hpassed | hentry
    · exact List.mem_append_left _ (h.mem_called entry hpassed hwaited)
    · rcases List.mem_append.mp hentry with hskipped | hlast
      · exact absurd hwaited (hnext.notMem entry hskipped)
      · exact List.mem_append_right called hlast
  · intro entry _ _
    rw [List.length_append, List.length_singleton, hlength]

/-- Everybody who stands in front of the first one that is due was called. -/
theorem IsServing.mem_called_of_le {entry : Entry} (hentry : entry ∈ after.membersOf number)
    (hle : entry.number ≤ next.number) : entry ∈ called ++ [next] := by
  have hordered := h.isOrdered hnumber
  have hold : next.number < before.next := hordered.lt next (by simp)
  have hwaits : entry ∈ after.entries event := by
    rwa [entries_of_number? (h.number?_of_isNext hnumber hnext)]
  have hinitial : entry ∈ before.entries event :=
    h.follows.mem_entries_of_lt hwaits (Nat.lt_of_le_of_lt hle hold)
  by_cases hcalled : entry ∈ called
  · exact List.mem_append_left [next] hcalled
  · rcases List.mem_append.mp (h.mem_rest hinitial hwaits hcalled) with hskipped | hfrom
    · exact absurd hwaits (hnext.notMem entry hskipped)
    · rcases List.mem_cons.mp hfrom with rfl | hlater
      · exact List.mem_append_right called (List.mem_singleton_self _)
      · -- The entries behind the next one have higher numbers.
        have hrest := (List.pairwise_append.mp hordered.pairwise).2.1
        have hbehind := (List.pairwise_append.mp hrest).2.1
        have := List.rel_of_pairwise_cons hbehind hlater
        omega

theorem IsServing.subperm_front :
    ((after.membersOf number).filter (·.number ≤ next.number)).Subperm (called ++ [next]) := by
  apply List.subperm_of_subset ((isOrdered_membersOf after number).nodup.filter _)
  intro entry hentry
  obtain ⟨hmem, hle⟩ := List.mem_filter.mp hentry
  exact h.mem_called_of_le hnumber hnext hmem (of_decide_eq_true hle)

variable {place : Nat} (hplace : (after.membersOf number)[place]? = some next)
include hplace

/-- The first one that is due does not stand behind the position whose turn has come. -/
theorem IsServing.place_le : place ≤ position := by
  have hlength : called.length = position := h.length_eq next (by simp) hnext.mem
  have hle := (h.subperm_front hnumber hnext).length_le
  rw [(isOrdered_membersOf after number).length_front hplace, List.length_append,
    List.length_singleton] at hle
  omega

/-- If it stands at the position, as many as were called stand in front of it, so they are the ones
that were called. -/
theorem IsServing.subset_of_le (hle : position ≤ place) : called ⊆ after.entries event := by
  have hlength : called.length = position := h.length_eq next (by simp) hnext.mem
  have hperm := (h.subperm_front hnumber hnext).perm_of_length_le (by
    rw [(isOrdered_membersOf after number).length_front hplace, List.length_append,
      List.length_singleton]
    omega)
  intro entry hentry
  have hmem := hperm.mem_iff.mpr (List.mem_append_left [next] hentry)
  rw [entries_of_number? (h.number?_of_isNext hnumber hnext)]
  exact (List.mem_filter.mp hmem).1

/-- If all who were called still wait for the event, they stand in front of it. -/
theorem IsServing.le_of_subset (hwait : called ⊆ after.entries event) : position ≤ place := by
  have hlength : called.length = position := h.length_eq next (by simp) hnext.mem
  have hordered := h.isOrdered hnumber
  have hnodup : (called ++ [next]).Nodup := by
    have hsublist : (called ++ [next]).Sublist (passed ++ (skipped ++ next :: later)) :=
      h.sublist.append (by simp)
    exact (hordered.sublist hsublist).nodup
  have hfront : called ++ [next] ⊆ (after.membersOf number).filter (·.number ≤ next.number) := by
    intro entry hentry
    rw [List.mem_filter]
    rcases List.mem_append.mp hentry with hcalled | hlast
    · have hlt := (List.pairwise_append.mp hordered.pairwise).2.2 entry
        (h.sublist.subset hcalled) next (by simp)
      refine ⟨?_, decide_eq_true (Nat.le_of_lt hlt)⟩
      rw [← entries_of_number? (h.number?_of_isNext hnumber hnext)]
      exact hwait hcalled
    · obtain rfl := List.mem_singleton.mp hlast
      exact ⟨List.mem_of_getElem? hplace, decide_eq_true (Nat.le_refl _)⟩
  have hle := (List.subperm_of_subset hnodup hfront).length_le
  rw [(isOrdered_membersOf after number).length_front hplace, List.length_append,
    List.length_singleton] at hle
  omega

end Next

end Serving

end TapeSalvage.Dispatch
