import TapeSalvage.Proofs.Dispatch.Changes

/-!
A registry seen as one list of listeners for each event, in the order in which they came. An event
may have no roster yet, an empty one, or retired ones only; its list is empty in each of these
cases. What is done to the roster of an event is done to its list, and the lists of other events
stay as they are.
-/
namespace TapeSalvage.Dispatch

section Rosters

variable {event name : String} {rosters : List Roster}

def openMembers (event : String) (rosters : List Roster) : List Entry :=
  (rosters.find? (·.isOpenFor event)).elim [] (·.members)

/-- A roster is open for one event at most. -/
theorem isOpenFor_of_ne {roster : Roster} (h : roster.isOpenFor event = true)
    (hname : name ≠ event) :
    roster.isOpenFor name = false := by
  unfold Roster.isOpenFor at h ⊢
  obtain ⟨_, hevent⟩ := Bool.and_eq_true_iff.mp h
  rw [eq_of_beq hevent, beq_false_of_ne hname.symm, Bool.and_false]

theorem find?_changeOpen (change : List Entry → List Entry) :
    (changeOpen name change rosters).find? (·.isOpenFor event) =
      (rosters.find? (·.isOpenFor event)).map fun roster =>
        if roster.isOpenFor name then { roster with members := change roster.members }
        else roster := by
  rw [changeOpen, List.find?_map]
  congr 2
  funext roster
  exact isOpenFor_change event name change roster

/-- The members of an open roster are changed; those of an event without one are thought of as
none. -/
theorem openMembers_changeOpen_self {change : List Entry → List Entry}
    (h : change [] = [] ∨ rosters.any (·.isOpenFor event) = true) :
    openMembers event (changeOpen event change rosters) = change (openMembers event rosters) := by
  unfold openMembers
  rw [find?_changeOpen]
  cases hfind : rosters.find? (·.isOpenFor event) with
  | none =>
    rcases h with hempty | hany
    · exact hempty.symm
    · obtain ⟨roster, hroster, hopen⟩ := List.any_eq_true.mp hany
      exact absurd hopen (List.find?_eq_none.mp hfind roster hroster)
  | some roster =>
    dsimp only [Option.map_some, Option.elim_some]
    rw [if_pos (List.find?_some hfind)]

theorem openMembers_changeOpen_of_ne (hname : name ≠ event) (change : List Entry → List Entry) :
    openMembers event (changeOpen name change rosters) = openMembers event rosters := by
  unfold openMembers
  rw [find?_changeOpen]
  cases hfind : rosters.find? (·.isOpenFor event) with
  | none => rfl
  | some roster =>
    have hother : roster.isOpenFor name = false := isOpenFor_of_ne (List.find?_some hfind) hname
    simp [hother]

theorem any_withOpen (event : String) (rosters : List Roster) :
    (withOpen event rosters).any (·.isOpenFor event) = true := by
  unfold withOpen
  split
  · assumption
  · simp [Roster.isOpenFor]

/-- A new roster is empty. -/
theorem openMembers_withOpen (event name : String) (rosters : List Roster) :
    openMembers event (withOpen name rosters) = openMembers event rosters := by
  unfold openMembers withOpen
  split
  · rfl
  · rw [List.find?_append]
    cases rosters.find? (·.isOpenFor event) with
    | some roster => rfl
    | none =>
      rw [Option.none_or, List.find?_singleton]
      split <;> rfl

end Rosters

theorem entries_eq_openMembers (registry : Registry) (event : String) :
    registry.entries event = openMembers event registry.rosters := by
  rw [openMembers, List.find?_eq_bind_findIdx?_getElem?, Registry.entries, Registry.number?]
  cases registry.rosters.findIdx? (·.isOpenFor event) with
  | none => rfl
  | some number => rfl

def Registry.listeners (registry : Registry) (event : String) : List Listener :=
  (registry.entries event).map (·.listener)

theorem listeners_empty (event : String) : Registry.empty.listeners event = [] := rfl

variable (registry : Registry) (event name : String) (listener : Listener)

theorem listeners_add : (registry.add name listener).listeners event =
    if name = event then registry.listeners event ++ [listener] else registry.listeners event := by
  unfold Registry.listeners
  rw [entries_eq_openMembers, entries_eq_openMembers, rosters_add]
  by_cases hname : name = event
  · subst hname
    have hopen : (withOpen name registry.rosters).any (·.isOpenFor name) = true := any_withOpen _ _
    rw [if_pos rfl, openMembers_changeOpen_self (Or.inr hopen), openMembers_withOpen,
      List.map_append]
    rfl
  · rw [if_neg hname, openMembers_changeOpen_of_ne hname, openMembers_withOpen]

theorem rosters_remove : (registry.remove name listener).rosters =
    changeOpen name (·.eraseP (·.listener == listener)) registry.rosters := rfl

theorem listeners_remove : (registry.remove name listener).listeners event =
    if name = event then (registry.listeners event).erase listener
    else registry.listeners event := by
  unfold Registry.listeners
  rw [entries_eq_openMembers, entries_eq_openMembers, rosters_remove]
  by_cases hname : name = event
  · subst hname
    rw [if_pos rfl, openMembers_changeOpen_self (Or.inl rfl), List.erase_eq_eraseP',
      List.eraseP_map]
    rfl
  · rw [if_neg hname, openMembers_changeOpen_of_ne hname]

theorem listeners_clear : (registry.clear name).listeners event =
    if name = "" ∨ name = event then [] else registry.listeners event := by
  unfold Registry.listeners Registry.entries
  by_cases hname : name = "" ∨ name = event
  · rw [if_pos hname, number?_clear hname]
    rfl
  · obtain ⟨hnamed, hother⟩ := not_or.mp hname
    have hmembers : (registry.clear name).membersOf = registry.membersOf :=
      funext (membersOf_clear name registry)
    rw [if_neg hname, number?_clear_of_ne hnamed hother, hmembers]

end TapeSalvage.Dispatch
