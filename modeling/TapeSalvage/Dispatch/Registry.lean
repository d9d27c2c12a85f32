/-!
Listeners and the events they wait for. The listeners of an event stand on a roster in the order
in which they came. Removing all listeners of an event retires its roster; the next listener opens
a new one. A retired roster never changes again, so that what goes through it at that time can
finish.
-/
namespace TapeSalvage.Dispatch

abbrev Listener := String

/-- An entry on a roster. Entries are numbered as they are made, so that those of a listener that
came twice are told apart. -/
structure Entry where
  listener : Listener
  number : Nat
  deriving DecidableEq

/-- Whether entries stand in the order in which they were made, all of them before a number. -/
structure IsOrdered (next : Nat) (entries : List Entry) : Prop where
  pairwise : entries.Pairwise (·.number < ·.number)
  lt : ∀ entry ∈ entries, entry.number < next

theorem IsOrdered.append_singleton {next : Nat} {entries : List Entry} (h : IsOrdered next entries)
    (listener : Listener) : IsOrdered (next + 1) (entries ++ [⟨listener, next⟩]) := by
  constructor
  · rw [List.pairwise_append]
    refine ⟨h.pairwise, List.pairwise_singleton _ _, ?_⟩
    intro entry hentry last hlast
    rw [List.mem_singleton.mp hlast]
    exact h.lt entry hentry
  · intro entry hentry
    rcases List.mem_append.mp hentry with hold | hlast
    · exact Nat.lt_succ_of_lt (h.lt entry hold)
    · rw [List.mem_singleton.mp hlast]
      exact Nat.lt_succ_self next

theorem IsOrdered.sublist {next : Nat} {entries kept : List Entry} (h : IsOrdered next entries)
    (hkept : kept.Sublist entries) : IsOrdered next kept :=
  ⟨h.pairwise.sublist hkept, fun entry hentry => h.lt entry (hkept.subset hentry)⟩

structure Roster where
  event : String
  members : List Entry
  isOpen : Bool

def Roster.isOpenFor (event : String) (roster : Roster) : Bool :=
  roster.isOpen && roster.event == event

def withOpen (event : String) (rosters : List Roster) : List Roster :=
  if rosters.any (·.isOpenFor event) then rosters else rosters ++ [⟨event, [], true⟩]

def changeOpen (event : String) (change : List Entry → List Entry) (rosters : List Roster) :
    List Roster :=
  rosters.map fun roster =>
    if roster.isOpenFor event then { roster with members := change roster.members } else roster

theorem isOrdered_withOpen {next : Nat} {rosters : List Roster}
    (h : ∀ roster ∈ rosters, IsOrdered next roster.members) (event : String) :
    ∀ roster ∈ withOpen event rosters, IsOrdered next roster.members := by
  intro roster hroster
  unfold withOpen at hroster
  split at hroster
  · exact h roster hroster
  · rcases List.mem_append.mp hroster with hold | hnew
    · exact h roster hold
    · rw [List.mem_singleton.mp hnew]
      exact ⟨List.Pairwise.nil, by simp⟩

theorem isOrdered_changeOpen {before after : Nat} {rosters : List Roster}
    {change : List Entry → List Entry} (h : ∀ roster ∈ rosters, IsOrdered before roster.members)
    (hle : before ≤ after)
    (hchange : ∀ entries, IsOrdered before entries → IsOrdered after (change entries))
    (event : String) :
    ∀ roster ∈ changeOpen event change rosters, IsOrdered after roster.members := by
  intro roster hroster
  obtain ⟨old, hold, rfl⟩ := List.mem_map.mp hroster
  have hordered := h old hold
  split
  · exact hchange old.members hordered
  · exact ⟨hordered.pairwise, fun entry hentry => Nat.lt_of_lt_of_le (hordered.lt entry hentry) hle⟩

def membersAt (rosters : List Roster) (number : Nat) : List Entry :=
  (rosters[number]?).elim [] (·.members)

/-- All rosters in the order of their opening, of which one at most is open for an event, and the
number of the next entry. -/
structure Registry where
  rosters : List Roster
  next : Nat
  isOrdered : ∀ roster ∈ rosters, IsOrdered next roster.members

namespace Registry

def empty : Registry := ⟨[], 0, by simp⟩

def number? (registry : Registry) (event : String) : Option Nat :=
  registry.rosters.findIdx? (·.isOpenFor event)

def membersOf (registry : Registry) (number : Nat) : List Entry :=
  membersAt registry.rosters number

def entries (registry : Registry) (event : String) : List Entry :=
  (registry.number? event).elim [] registry.membersOf

def add (registry : Registry) (event : String) (listener : Listener) : Registry where
  rosters :=
    changeOpen event (· ++ [⟨listener, registry.next⟩]) (withOpen event registry.rosters)
  next := registry.next + 1
  isOrdered := isOrdered_changeOpen (isOrdered_withOpen registry.isOrdered event)
    (Nat.le_succ _) (fun _ h => h.append_singleton listener) event

/-- Strikes the first entry of a listener off the roster of an event. -/
def remove (registry : Registry) (event : String) (listener : Listener) : Registry where
  rosters := changeOpen event (·.eraseP (·.listener == listener)) registry.rosters
  next := registry.next
  isOrdered := isOrdered_changeOpen registry.isOrdered (Nat.le_refl _)
    (fun _ h => h.sublist List.eraseP_sublist) event

/-- Retires the roster of an event, or all rosters if the event has no name. -/
def clear (registry : Registry) (event : String) : Registry where
  rosters := registry.rosters.map fun roster =>
    if event = "" || roster.event == event then { roster with isOpen := false } else roster
  next := registry.next
  isOrdered := by
    intro roster hroster
    obtain ⟨old, hold, rfl⟩ := List.mem_map.mp hroster
    split <;> exact registry.isOrdered old hold

end Registry

end TapeSalvage.Dispatch
