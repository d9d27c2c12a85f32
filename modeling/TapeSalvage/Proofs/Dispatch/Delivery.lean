import Mathlib.Data.Nat.Init
import TapeSalvage.Proofs.Dispatch.Sessions
import TapeSalvage.Proofs.Dispatch.Turns

/-!
Who gets an event. An emission calls those who are due, in order and once each, just when every turn
is served.
-/
namespace TapeSalvage.Dispatch

variable {σ : Type} {view : σ → Registry} {call : σ → Entry → σ}

section Turns

variable {event : String} {number : Nat} {state : σ}

theorem calledIn_prefix_of_le {turns later : Nat} (h : turns ≤ later) :
    calledIn view call number turns state <+: calledIn view call number later state := by
  induction later, h using Nat.le_induction with
  | base => exact List.prefix_refl _
  | succ later _ ih =>
    rw [calledIn_succ]
    exact ih.trans (List.prefix_append _ _)

/-- Nobody is called in some turns, or the first one who is called stood on the roster before
them. -/
theorem calledIn_cases {turns later : Nat} (h : turns ≤ later) :
    (walk view call number later state = walk view call number turns state ∧
      calledIn view call number later state = calledIn view call number turns state) ∨
    ∃ place entry, turns ≤ place ∧
      ((view (walk view call number turns state)).membersOf number)[place]? = some entry ∧
      calledIn view call number turns state ++ [entry] <+:
        calledIn view call number later state := by
  induction later, h using Nat.le_induction with
  | base => exact Or.inl ⟨rfl, rfl⟩
  | succ later hle ih =>
    rcases ih with ⟨hwalk, hcalled⟩ | ⟨place, entry, hplace, hentry, hcalls⟩
    · cases hturn : holder view call number later state with
      | none =>
        rw [walk_succ_of_none hturn, calledIn_succ_of_none hturn]
        exact Or.inl ⟨hwalk, hcalled⟩
      | some entry =>
        right
        rw [calledIn_succ_of_some hturn, hcalled]
        rw [holder, hwalk] at hturn
        exact ⟨later, entry, hle, hturn, List.prefix_refl _⟩
    · rw [calledIn_succ]
      exact Or.inr ⟨place, entry, hplace, hentry, hcalls.trans (List.prefix_append _ _)⟩

/-- How far an emission has come after some turns, and who is due in the rest of them. -/
structure IsServingAt (view : σ → Registry) (call : σ → Entry → σ) (event : String) (number : Nat)
    (state : σ) (turns : Nat) (passed rest : List Entry) : Prop where
  isServing : IsServing event (view state) (view (walk view call number turns state))
    (calledIn view call number turns state) passed rest turns
  due_eq : due view call event ((view state).entries event) state =
    calledIn view call number turns state ++
      due view call event rest (walk view call number turns state)

/-- A turn that is served calls nobody if nobody is due. -/
theorem IsServingAt.pass {turns : Nat} {passed rest : List Entry}
    (h : IsServingAt view call event number state turns passed rest)
    (hserved : IsServed (view (walk view call number turns state)) event number
      ((view state).entries event) (calledIn view call number turns state) turns)
    (hnone : ∀ entry ∈ rest, entry ∉ (view (walk view call number turns state)).entries event) :
    IsServingAt view call event number state (turns + 1) passed rest := by
  have hlength : ((view (walk view call number turns state)).membersOf number).length ≤ turns := by
    apply hserved.length_le
    intro entry hinitial hwaits
    by_contra hcalled
    exact hnone entry (h.isServing.mem_rest hinitial hwaits hcalled) hwaits
  have hturn : holder view call number turns state = none := List.getElem?_eq_none hlength
  constructor
  · rw [walk_succ_of_none hturn, calledIn_succ_of_none hturn]
    exact h.isServing.pass hnone
  · rw [walk_succ_of_none hturn, calledIn_succ_of_none hturn]
    exact h.due_eq

variable (hnumber : (view state).number? event = some number)
include hnumber

/-- If an emission calls who is due, each turn is served after turns that are. -/
theorem IsServingAt.isServed {turns later : Nat} (hle : turns < later) {passed rest : List Entry}
    (h : IsServingAt view call event number state turns passed rest)
    (hdue : calledIn view call number later state =
      due view call event ((view state).entries event) state) :
    IsServed (view (walk view call number turns state)) event number ((view state).entries event)
      (calledIn view call number turns state) turns := by
  have hlater : calledIn view call number later state =
      calledIn view call number turns state ++
        due view call event rest (walk view call number turns state) := hdue.trans h.due_eq
  constructor
  · intro waiting hinitial hwaits hcalled
    have hrest := h.isServing.mem_rest hinitial hwaits hcalled
    rcases exists_isNext (view (walk view call number turns state)) event rest with
      hnone | ⟨skipped, next, others, rfl, hnext⟩
    · exact absurd hwaits (hnone waiting hrest)
    · rw [due_append hnext.notMem, due, if_pos hnext.mem] at hlater
      rcases calledIn_cases (Nat.le_of_lt hle) with ⟨_, hsame⟩ |
        ⟨place, entry, hplace, hentry, hcalls⟩
      · rw [hsame] at hlater
        simp at hlater
      · -- The next call goes to the next one that is due, which then stands at a position to come.
        rw [hlater, List.prefix_append_right_inj] at hcalls
        obtain rfl : entry = next := by simpa using hcalls
        exact h.isServing.subset_of_le hnumber hnext hentry hplace
  · intro hall
    have hnone : ∀ entry ∈ rest,
        entry ∉ (view (walk view call number turns state)).entries event := by
      intro entry hentry hwaits
      apply h.isServing.notMem_called hnumber hentry
      apply hall entry _ hwaits
      rw [h.isServing.entries_eq]
      exact List.mem_append_right passed hentry
    rw [due_eq_nil hnone, List.append_nil] at hlater
    -- A call in this turn could not be undone.
    have hmore : calledIn view call number (turns + 1) state <+:
        calledIn view call number later state := calledIn_prefix_of_le hle
    apply Nat.le_of_not_lt
    intro hlt
    have hlength := hmore.length_le
    rw [hlater, calledIn_succ_of_some (List.getElem?_eq_getElem hlt), List.length_append,
      List.length_singleton] at hlength
    omega

variable (hcall : ∀ state entry, Leads (view state) (view (call state entry)))
include hcall

/-- A turn that is served calls the first one who is due. -/
theorem IsServingAt.call_next {turns : Nat} {passed skipped later : List Entry} {next : Entry}
    (h : IsServingAt view call event number state turns passed (skipped ++ next :: later))
    (hserved : IsServed (view (walk view call number turns state)) event number
      ((view state).entries event) (calledIn view call number turns state) turns)
    (hnext : IsNext (view (walk view call number turns state)) event skipped next) :
    IsServingAt view call event number state (turns + 1) (passed ++ (skipped ++ [next])) later := by
  have hmem : next ∈ skipped ++ next :: later := by simp
  have hinitial : next ∈ (view state).entries event := by
    rw [h.isServing.entries_eq]
    exact List.mem_append_right passed hmem
  have hwait := hserved.subset next hinitial hnext.mem (h.isServing.notMem_called hnumber hmem)
  have hplaced := hnext.mem
  rw [entries_of_number? (h.isServing.number?_of_isNext hnumber hnext)] at hplaced
  obtain ⟨place, hplace⟩ := List.mem_iff_getElem?.mp hplaced
  -- Everybody who was called stands in front of the next one, so its place is the turn's position.
  have hturn : place = turns := Nat.le_antisymm (h.isServing.place_le hnumber hnext hplace)
    (h.isServing.le_of_subset hnumber hnext hplace hwait)
  rw [hturn] at hplace
  have hdue : due view call event (skipped ++ next :: later) (walk view call number turns state) =
      next :: due view call event later (walk view call number (turns + 1) state) := by
    rw [due_append hnext.notMem, due, if_pos hnext.mem, walk_succ_of_some hplace]
  constructor
  · rw [calledIn_succ_of_some hplace, walk_succ_of_some hplace]
    exact h.isServing.call_next hnumber hnext ((hcall _ next).follows event)
  · rw [h.due_eq, hdue, calledIn_succ_of_some hplace, List.append_assoc]
    rfl

/-- Turns that are served take an emission past those who are due. -/
theorem exists_isServingAt {turns : Nat}
    (h : ∀ position < turns, IsServed (view (walk view call number position state)) event number
      ((view state).entries event) (calledIn view call number position state) position) :
    ∃ passed rest, IsServingAt view call event number state turns passed rest := by
  induction turns with
  | zero => exact ⟨[], (view state).entries event, isServing_begin event (view state), rfl⟩
  | succ turns ih =>
    obtain ⟨passed, rest, hserving⟩ := ih fun position hlt => h position (Nat.lt_succ_of_lt hlt)
    have hserved := h turns (Nat.lt_succ_self turns)
    rcases exists_isNext (view (walk view call number turns state)) event rest with
      hnone | ⟨skipped, next, later, rfl, hnext⟩
    · exact ⟨passed, rest, hserving.pass hserved hnone⟩
    · exact ⟨passed ++ (skipped ++ [next]), later,
        hserving.call_next hnumber hcall hserved hnext⟩

/-- When every turn is served, nobody is due in the end. -/
theorem calledIn_eq_due
    (h : ∀ position < ((view state).entries event).length,
      IsServed (view (walk view call number position state)) event number
        ((view state).entries event) (calledIn view call number position state) position) :
    calledIn view call number ((view state).entries event).length state =
      due view call event ((view state).entries event) state := by
  obtain ⟨passed, rest, hserving⟩ := exists_isServingAt hnumber hcall h
  have hnone : ∀ entry ∈ rest,
      entry ∉ (view (walk view call number ((view state).entries event).length state)).entries
        event := by
    intro entry hentry hwaits
    have hlength := hserving.isServing.length_eq entry hentry hwaits
    have hle := hserving.isServing.sublist.length_le
    have hall := congrArg List.length hserving.isServing.entries_eq
    have hpos := List.length_pos_of_mem hentry
    rw [List.length_append] at hall
    omega
  rw [hserving.due_eq, due_eq_nil hnone, List.append_nil]

theorem isServed_of_calledIn_eq_due {later : Nat}
    (hdue : calledIn view call number later state =
      due view call event ((view state).entries event) state) :
    ∀ position < later, IsServed (view (walk view call number position state)) event number
      ((view state).entries event) (calledIn view call number position state) position := by
  intro position
  induction position using Nat.strong_induction_on with
  | h position ih =>
    intro hlt
    obtain ⟨passed, rest, hserving⟩ := exists_isServingAt hnumber hcall
      fun earlier hearlier => ih earlier hearlier (Nat.lt_trans hearlier hlt)
    exact hserving.isServed hnumber hlt hdue

end Turns

/-- Whatever listeners do with the registry when they are called, an emission calls entries in the
order in which they were made, each of them once at most, and not more than waited for the event
when it began. It calls just those who are due if and only if every turn is served. -/
theorem called_eq_due_iff (hcall : ∀ state entry, Leads (view state) (view (call state entry)))
    (event : String) (state : σ) :
    (called view call event state).Pairwise (·.number < ·.number) ∧
    (called view call event state).length ≤ ((view state).entries event).length ∧
    (called view call event state = due view call event ((view state).entries event) state ↔
      ∀ number ∈ (view state).number? event, ∀ position < ((view state).entries event).length,
        IsServed (view (walk view call number position state)) event number
          ((view state).entries event) (calledIn view call number position state) position) := by
  cases hnumber : (view state).number? event with
  | none =>
    have hentries : (view state).entries event = [] := by
      rw [Registry.entries, hnumber]
      rfl
    rw [called_of_number?_eq_none hnumber, hentries]
    simp [due]
  | some number =>
    have hcalled : called view call event state =
        calledIn view call number ((view state).entries event).length state := by
      rw [called_of_number? hnumber, entries_of_number? hnumber]
    rw [hcalled]
    refine ⟨pairwise_calledIn hcall _ _ _, length_calledIn_le _ _ _, ?_⟩
    constructor
    · intro hdue other hother
      obtain rfl := Option.some.inj hother
      exact isServed_of_calledIn_eq_due hnumber hcall hdue
    · intro hserved
      exact calledIn_eq_due hnumber hcall (hserved number rfl)

def Session.waiting (event : String) (listeners : List Listener)
    (scripts : List (Listener × List (Step Unit))) : Session Unit where
  registry := listeners.foldl (·.add event ·) Registry.empty
  scripts := scripts
  calls := []

/-- A session in which a listener brings a guest and emits another event, whose listener strikes the
guest off again; another one strikes off one that was not called yet, and the last one retires the
roster. -/
def busySession : Session Unit :=
  let session := Session.waiting "line" ["reader", "writer", "spare", "closer"]
    [("reader", [.on "line" "guest", .emit "page" ()]), ("printer", [.off "line" "guest"]),
      ("writer", [.off "line" "spare"]), ("closer", [.clear "line"])]
  { session with registry := session.registry.add "page" "printer" }

theorem called_eq_due_iff_busySession :
    called Session.registry (busySession.respond ()) "line" busySession =
      due Session.registry (busySession.respond ()) "line"
        (busySession.registry.entries "line") busySession ∧
    called Session.registry (busySession.respond ()) "line" busySession =
      [⟨"reader", 0⟩, ⟨"writer", 1⟩, ⟨"closer", 3⟩] := by
  obtain ⟨_, _, hiff⟩ := called_eq_due_iff (busySession.leads_respond ()) "line" busySession
  refine ⟨hiff.mpr ?_, ?_⟩
  · decide +kernel
  · decide +kernel

/-- A listener that strikes itself off makes its emission pass over the one behind it. -/
def leavingSession : Session Unit :=
  Session.waiting "line" ["reader", "writer"] [("reader", [.off "line" "reader"])]

/-- Who stands on a roster that is retired in an emission is called though nobody waits any more. -/
def closingSession : Session Unit :=
  Session.waiting "line" ["reader", "writer"] [("reader", [.clear "line"])]

/-- Where somebody is struck off before a new listener comes, the new one is called. -/
def swappingSession : Session Unit :=
  Session.waiting "line" ["reader", "writer"]
    [("reader", [.off "line" "writer", .on "line" "guest"])]

theorem called_ne_due :
    (called Session.registry (leavingSession.respond ()) "line" leavingSession = [⟨"reader", 0⟩] ∧
      due Session.registry (leavingSession.respond ()) "line"
        (leavingSession.registry.entries "line") leavingSession =
          [⟨"reader", 0⟩, ⟨"writer", 1⟩]) ∧
    (called Session.registry (closingSession.respond ()) "line" closingSession =
        [⟨"reader", 0⟩, ⟨"writer", 1⟩] ∧
      due Session.registry (closingSession.respond ()) "line"
        (closingSession.registry.entries "line") closingSession = [⟨"reader", 0⟩]) ∧
    (called Session.registry (swappingSession.respond ()) "line" swappingSession =
        [⟨"reader", 0⟩, ⟨"guest", 2⟩] ∧
      due Session.registry (swappingSession.respond ()) "line"
        (swappingSession.registry.entries "line") swappingSession = [⟨"reader", 0⟩]) := by
  decide +kernel

end TapeSalvage.Dispatch
