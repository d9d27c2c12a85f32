import TapeSalvage.Dispatch.Emission

/-!
What becomes of the rosters while listeners change them. A roster keeps the order of its members:
some may be struck off, and new ones come behind them, with higher numbers. Its event stays with it
until it is retired, and then nobody who was on it waits for the event any more.
-/
namespace TapeSalvage.Dispatch

section Rosters

variable (event name : String) (rosters : List Roster)

theorem isOpenFor_change (change : List Entry → List Entry) (roster : Roster) :
    (if roster.isOpenFor name then { roster with members := change roster.members }
      else roster).isOpenFor event = roster.isOpenFor event := by
  split <;> rfl

theorem findIdx?_changeOpen (change : List Entry → List Entry) :
    (changeOpen name change rosters).findIdx? (·.isOpenFor event) =
      rosters.findIdx? (·.isOpenFor event) := by
  rw [changeOpen, List.findIdx?_map]
  congr 1
  funext roster
  exact isOpenFor_change event name change roster

/-- An event keeps its open roster; a new one stands behind all others. -/
theorem findIdx?_withOpen :
    (withOpen name rosters).findIdx? (·.isOpenFor event) = rosters.findIdx? (·.isOpenFor event) ∨
      ∃ number, (withOpen name rosters).findIdx? (·.isOpenFor event) = some number ∧
        rosters.length ≤ number := by
  unfold withOpen
  split
  · exact Or.inl rfl
  · rw [List.findIdx?_append]
    cases hold : rosters.findIdx? (·.isOpenFor event) with
    | some number => exact Or.inl rfl
    | none =>
      cases hnew : [(⟨name, [], true⟩ : Roster)].findIdx? (·.isOpenFor event) with
      | none => exact Or.inl rfl
      | some place => exact Or.inr ⟨place + rosters.length, rfl, Nat.le_add_left _ _⟩

theorem membersAt_withOpen (number : Nat) :
    membersAt (withOpen name rosters) number = membersAt rosters number := by
  unfold withOpen
  split
  · rfl
  · unfold membersAt
    rcases Nat.lt_or_ge number rosters.length with hlt | hge
    · rw [List.getElem?_append_left hlt]
    · rw [List.getElem?_append_right hge, List.getElem?_eq_none hge]
      cases number - rosters.length <;> rfl

theorem membersAt_changeOpen (change : List Entry → List Entry) (number : Nat) :
    membersAt (changeOpen name change rosters) number = membersAt rosters number ∨
      membersAt (changeOpen name change rosters) number = change (membersAt rosters number) := by
  unfold membersAt changeOpen
  rw [List.getElem?_map]
  cases rosters[number]? with
  | none => exact Or.inl rfl
  | some roster =>
    dsimp only [Option.map_some, Option.elim_some]
    split
    · exact Or.inr rfl
    · exact Or.inl rfl

end Rosters

/-- Whether a registry can have come from another one as far as an event is concerned: the rosters
lose members and gain such as are new, and the event keeps its roster or has only new entries. -/
structure Follows (event : String) (before after : Registry) : Prop where
  next_le : before.next ≤ after.next
  members : ∀ number, ∃ added, (after.membersOf number).Sublist (before.membersOf number ++ added) ∧
    ∀ entry ∈ added, before.next ≤ entry.number
  number?_eq : after.number? event = before.number? event ∨
    ∀ entry ∈ after.entries event, before.next ≤ entry.number

theorem follows_refl (event : String) (registry : Registry) : Follows event registry registry := by
  constructor
  · exact Nat.le_refl _
  · intro number
    exact ⟨[], by simp, by simp⟩
  · exact Or.inl rfl

/-- An entry that waits for an event whose roster was kept stood on it, or is new. -/
theorem Follows.mem_entries {event : String} {before after : Registry}
    (h : Follows event before after) (hnumber : after.number? event = before.number? event)
    {entry : Entry} (hentry : entry ∈ after.entries event) :
    entry ∈ before.entries event ∨ before.next ≤ entry.number := by
  unfold Registry.entries at hentry ⊢
  rw [hnumber] at hentry
  cases hopen : before.number? event with
  | none =>
    rw [hopen] at hentry
    contradiction
  | some number =>
    rw [hopen] at hentry
    obtain ⟨added, hsublist, hadded⟩ := h.members number
    rcases List.mem_append.mp (hsublist.subset hentry) with hold | hnew
    · exact Or.inl hold
    · exact Or.inr (hadded entry hnew)

theorem Follows.trans {event : String} {before between after : Registry}
    (hfirst : Follows event before between) (hsecond : Follows event between after) :
    Follows event before after := by
  constructor
  · exact Nat.le_trans hfirst.next_le hsecond.next_le
  · intro number
    obtain ⟨added, hadded, hnew⟩ := hfirst.members number
    obtain ⟨more, hmore, hnewer⟩ := hsecond.members number
    refine ⟨added ++ more, ?_, ?_⟩
    · rw [← List.append_assoc]
      exact hmore.trans (hadded.append_right more)
    · intro entry hentry
      rcases List.mem_append.mp hentry with hentry | hentry
      · exact hnew entry hentry
      · exact Nat.le_trans hfirst.next_le (hnewer entry hentry)
  · rcases hsecond.number?_eq with hnumber | hall
    · rcases hfirst.number?_eq with hsame | hfresh
      · exact Or.inl (hnumber.trans hsame)
      · right
        intro entry hentry
        rcases hsecond.mem_entries hnumber hentry with hold | hnew
        · exact hfresh entry hold
        · exact Nat.le_trans hfirst.next_le hnew
    · right
      intro entry hentry
      exact Nat.le_trans hfirst.next_le (hall entry hentry)

theorem rosters_add (registry : Registry) (name : String) (listener : Listener) :
    (registry.add name listener).rosters =
      changeOpen name (· ++ [⟨listener, registry.next⟩]) (withOpen name registry.rosters) := rfl

theorem follows_add (event name : String) (listener : Listener) (registry : Registry) :
    Follows event registry (registry.add name listener) := by
  have hmembers : ∀ number, ∃ added,
      ((registry.add name listener).membersOf number).Sublist (registry.membersOf number ++ added) ∧
        ∀ entry ∈ added, registry.next ≤ entry.number := by
    intro number
    rw [Registry.membersOf, Registry.membersOf, rosters_add]
    rcases membersAt_changeOpen name (withOpen name registry.rosters)
      (· ++ [⟨listener, registry.next⟩]) number with hsame | hlonger
    · refine ⟨[], ?_, by simp⟩
      simp [hsame, membersAt_withOpen]
    · refine ⟨[⟨listener, registry.next⟩], ?_, by simp⟩
      simp [hlonger, membersAt_withOpen]
  have hnumber : (registry.add name listener).number? event =
      (withOpen name registry.rosters).findIdx? (·.isOpenFor event) := by
    rw [Registry.number?, rosters_add, findIdx?_changeOpen]
  constructor
  · exact Nat.le_succ _
  · exact hmembers
  · rcases findIdx?_withOpen event name registry.rosters with hsame | ⟨number, hnew, hlength⟩
    · exact Or.inl (hnumber.trans hsame)
    · -- The roster was opened for the entry, so nothing else is on it.
      right
      intro entry hentry
      unfold Registry.entries at hentry
      rw [hnumber, hnew] at hentry
      obtain ⟨added, hsublist, hadded⟩ := hmembers number
      have hempty : registry.membersOf number = [] := by
        rw [Registry.membersOf, membersAt, List.getElem?_eq_none hlength]
        rfl
      rw [hempty, List.nil_append] at hsublist
      exact hadded entry (hsublist.subset hentry)

theorem follows_remove (event name : String) (listener : Listener) (registry : Registry) :
    Follows event registry (registry.remove name listener) := by
  constructor
  · exact Nat.le_refl _
  · intro number
    refine ⟨[], ?_, by simp⟩
    rw [List.append_nil]
    change (membersAt (changeOpen _ _ _) number).Sublist _
    rcases membersAt_changeOpen name registry.rosters (·.eraseP (·.listener == listener)) number
      with hsame | hshorter
    · rw [hsame]
      exact List.Sublist.refl _
    · rw [hshorter]
      exact List.eraseP_sublist
  · exact Or.inl (findIdx?_changeOpen event name _ _)

/-- Retiring rosters leaves their members where they are. -/
theorem membersOf_clear (name : String) (registry : Registry) (number : Nat) :
    (registry.clear name).membersOf number = registry.membersOf number := by
  unfold Registry.membersOf Registry.clear membersAt
  rw [List.getElem?_map]
  cases registry.rosters[number]? with
  | none => rfl
  | some roster =>
    dsimp only [Option.map_some, Option.elim_some]
    split <;> rfl

theorem number?_clear_of_ne {event name : String} (hname : name ≠ "") (h : name ≠ event)
    (registry : Registry) : (registry.clear name).number? event = registry.number? event := by
  unfold Registry.number? Registry.clear
  rw [List.findIdx?_map]
  congr 1
  funext roster
  rw [Function.comp_apply]
  by_cases hevent : roster.event = name
  · have hother : (roster.event == event) = false := by simpa [hevent] using h
    simp [Roster.isOpenFor, hname, hevent, h]
  · simp [hname, hevent]

theorem number?_clear {event name : String} (h : name = "" ∨ name = event) (registry : Registry) :
    (registry.clear name).number? event = none := by
  unfold Registry.number? Registry.clear
  rw [List.findIdx?_map, List.findIdx?_eq_none_iff]
  intro roster _
  rw [Function.comp_apply]
  rcases h with rfl | rfl
  · simp [Roster.isOpenFor]
  · by_cases hevent : roster.event = name
    · simp [Roster.isOpenFor, hevent]
    · by_cases hname : name = ""
      · simp [Roster.isOpenFor, hname]
      · simp [Roster.isOpenFor, hname, hevent]

theorem follows_clear (event name : String) (registry : Registry) :
    Follows event registry (registry.clear name) := by
  constructor
  · exact Nat.le_refl _
  · intro number
    refine ⟨[], ?_, by simp⟩
    simp [membersOf_clear]
  · by_cases hname : name = "" ∨ name = event
    · right
      intro entry hentry
      rw [Registry.entries, number?_clear hname] at hentry
      contradiction
    · obtain ⟨hnamed, hother⟩ := not_or.mp hname
      exact Or.inl (number?_clear_of_ne hnamed hother registry)

/-- What listeners can make of a registry: they enter listeners, strike them off, and retire
rosters, as often as they like and in any order. -/
inductive Leads (before : Registry) : Registry → Prop
  | refl : Leads before before
  | add {after : Registry} (event : String) (listener : Listener) :
      Leads before after → Leads before (after.add event listener)
  | remove {after : Registry} (event : String) (listener : Listener) :
      Leads before after → Leads before (after.remove event listener)
  | clear {after : Registry} (event : String) :
      Leads before after → Leads before (after.clear event)

theorem Leads.trans {before between after : Registry} (hfirst : Leads before between)
    (hsecond : Leads between after) : Leads before after := by
  induction hsecond with
  | refl => exact hfirst
  | add event listener _ ih => exact ih.add event listener
  | remove event listener _ ih => exact ih.remove event listener
  | clear event _ ih => exact ih.clear event

theorem Leads.follows {before after : Registry} (h : Leads before after) (event : String) :
    Follows event before after := by
  induction h with
  | refl => exact follows_refl event before
  | add name listener _ ih => exact ih.trans (follows_add event name listener _)
  | remove name listener _ ih => exact ih.trans (follows_remove event name listener _)
  | clear name _ ih => exact ih.trans (follows_clear event name _)

end TapeSalvage.Dispatch
