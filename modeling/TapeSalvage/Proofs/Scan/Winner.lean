import TapeSalvage.Proofs.Scan.Shard

/-!
The winner of a search. A search finds something exactly if there is a candidate at some offset that
it tries, and what it finds is one of them. It outranks all the others, by its score or, of equal
scores, by its lower offset, unless the score of one that has rivals is undefined.
-/
namespace TapeSalvage.Scan

def searchEnd (rules : Rules) (data : Bytes) : Nat :=
  ((data.length : Int) - rules.tailReserve).toNat

theorem search?_eq_searchRange (rules : Rules) (data : Bytes) :
    search? rules data = searchRange rules data 0 (searchEnd rules data) := by
  rw [search?, searchRange, searchRange, Int.toNat_natCast]
  rfl

theorem search_eq_error_iff (rules : Rules) (data : Bytes) (fault : Fault) :
    search rules data = .error fault ↔ search? rules data = none ∧ fault = .programMissing := by
  unfold search
  cases search? rules data <;> simp [eq_comm]

theorem better_eq_none_iff (holder challenger : Option Candidate) :
    better holder challenger = none ↔ holder = none ∧ challenger = none := by
  constructor
  · intro h
    cases holder with
    | none => exact ⟨rfl, h⟩
    | some first =>
      rcases better_eq_or (some first) challenger with hfirst | hsecond
      · exact absurd (hfirst.symm.trans h) (Option.some_ne_none first)
      · obtain rfl : challenger = none := hsecond.symm.trans h
        exact absurd h (Option.some_ne_none first)
  · rintro ⟨rfl, rfl⟩
    rfl

/-- Nothing is the best only where there is nothing. -/
theorem bestOf_eq_none_iff (candidates : List (Option Candidate)) :
    bestOf candidates = none ↔ ∀ candidate ∈ candidates, candidate = none := by
  induction candidates using List.reverseRecOn with
  | nil => simp [bestOf]
  | append_singleton before last ih =>
    have hstep : bestOf (before ++ [last]) = better (bestOf before) last := by
      rw [bestOf, List.foldl_append]
      rfl
    rw [hstep, better_eq_none_iff, ih]
    simp only [List.mem_append, List.mem_singleton, or_imp, forall_and, forall_eq]

theorem search?_eq_none_iff (rules : Rules) (data : Bytes) :
    search? rules data = none ↔
      ∀ place : Nat, place < searchEnd rules data → candidateAt rules data place = none := by
  rw [search?_eq_searchRange, searchRange_eq_bestOf, bestOf_eq_none_iff]
  simp only [List.mem_map, List.mem_range'_1, Int.toNat_natCast, Int.toNat_zero, Nat.zero_add,
    Nat.sub_zero, Nat.zero_le, true_and, forall_exists_index, and_imp, forall_apply_eq_imp_iff₂]

theorem exists_candidateAt_of_search? {rules : Rules} {data : Bytes} {found : Candidate}
    (h : search? rules data = some found) :
    ∃ place : Nat, place < searchEnd rules data ∧ found.offset = place ∧
      candidateAt rules data place = some found := by
  rw [search?_eq_searchRange, searchRange_eq_bestOf] at h
  obtain ⟨place, hplace, hfound⟩ := List.mem_map.mp (mem_of_bestOf_eq_some h)
  rw [List.mem_range'_1] at hplace
  exact ⟨place, by omega, offset_of_candidateAt hfound, hfound⟩

/-- Whether one candidate ranks below another: by its score, or by its offset if they score the
same. -/
def RanksBelow (rival winner : Candidate) : Prop :=
  rival.score.lt winner.score = true ∨
    (rival.score.same winner.score = true ∧ winner.offset < rival.offset)

theorem not_ranksBelow_of_undefined {rival winner : Candidate}
    (h : rival.score = .undefined ∨ winner.score = .undefined) : ¬ RanksBelow rival winner := by
  rintro (hless | ⟨hsame, _⟩)
  · obtain ⟨hrival, hwinner⟩ := Amount.ne_undefined_of_lt hless
    exact h.elim hrival hwinner
  · obtain ⟨hrival, heq⟩ := Amount.same_iff.mp hsame
    exact h.elim hrival (heq ▸ hrival)

/-- Of two candidates with defined scores that stand apart one ranks below the other. -/
theorem ranksBelow_of_not_beats {rival winner : Candidate} (hrival : rival.score ≠ .undefined)
    (hwinner : winner.score ≠ .undefined) (hoffset : rival.offset ≠ winner.offset)
    (h : ¬ rival.beats winner) : RanksBelow rival winner := by
  have hbeats : winner.beats rival := by
    by_contra hnot
    exact hoffset (Candidate.offset_eq_of_not_beats hrival hwinner h hnot)
  rw [Candidate.beats_iff] at hbeats
  rcases hbeats with hscore | ⟨hscore, hbefore⟩
  · exact Or.inl hscore
  · obtain ⟨_, heq⟩ := Amount.same_iff.mp hscore
    exact Or.inr ⟨Amount.same_iff.mpr ⟨hrival, heq.symm⟩, hbefore⟩

/-- What is found outranks all others if no undefined score has a rival. -/
theorem ranksBelow_of_search? {rules : Rules} {data : Bytes} {found rival : Candidate} {other : Nat}
    (hspoilt : ¬ IsSpoilt rules data (searchEnd rules data)) (h : search? rules data = some found)
    (hother : other < searchEnd rules data) (hoffset : (other : Int) ≠ found.offset)
    (hrival : candidateAt rules data other = some rival) : RanksBelow rival found := by
  have hcomp := isComparable_inRange rules data (searchEnd rules data) hspoilt
  have hbest := isBest_searchRange rules data 0 (searchEnd rules data) hcomp
  rw [← search?_eq_searchRange, h] at hbest
  obtain ⟨hfound, hunbeaten⟩ := hbest
  have hrange : InRange rules data 0 (searchEnd rules data) rival :=
    ⟨other, by omega, by omega, hrival⟩
  have hplace := offset_of_candidateAt hrival
  refine ranksBelow_of_not_beats ?_ ?_ (by omega) (hunbeaten rival hrange)
  · intro hundefined
    obtain rfl := hcomp rival found hrange hfound hundefined
    exact hoffset hplace.symm
  · intro hundefined
    obtain rfl := hcomp found rival hfound hrange hundefined
    exact hoffset hplace.symm

/-- An undefined score that has a rival is found, or is not below what is found. -/
theorem exists_not_ranksBelow_of_isSpoilt {rules : Rules} {data : Bytes}
    (h : IsSpoilt rules data (searchEnd rules data)) :
    ∃ found, search? rules data = some found ∧ ∃ other : Nat, other < searchEnd rules data ∧
      (other : Int) ≠ found.offset ∧ ∃ rival, candidateAt rules data other = some rival ∧
        ¬ RanksBelow rival found := by
  obtain ⟨place, other, candidate, rival, hplace, hother, hne, hcandidate, hrival, hscore⟩ := h
  cases hsearch : search? rules data with
  | none =>
    have hnone := (search?_eq_none_iff rules data).mp hsearch place hplace
    rw [hcandidate] at hnone
    contradiction
  | some found =>
    obtain ⟨tried, _, hoffset, hfound⟩ := exists_candidateAt_of_search? hsearch
    refine ⟨found, rfl, ?_⟩
    by_cases hsame : tried = place
    · subst hsame
      obtain rfl : candidate = found := Option.some.inj (hcandidate.symm.trans hfound)
      exact ⟨other, hother, by omega, rival, hrival, not_ranksBelow_of_undefined (Or.inr hscore)⟩
    · exact ⟨place, hplace, by omega, candidate, hcandidate,
        not_ranksBelow_of_undefined (Or.inl hscore)⟩

/-- What a search finds is the candidate at an offset before its end. Every other candidate there
has a lower score, or the same score and a higher offset, exactly if no undefined score has a rival.
The search fails, as a scan that found nothing, exactly if there is no candidate. -/
theorem search_outranks (rules : Rules) (data : Bytes) :
    (∀ found, search rules data = .ok found →
      ∃ place : Nat, place < searchEnd rules data ∧ found.offset = place ∧
        candidateAt rules data place = some found) ∧
    ((∀ found, search rules data = .ok found →
      ∀ other : Nat, other < searchEnd rules data → (other : Int) ≠ found.offset →
        ∀ rival, candidateAt rules data other = some rival →
          rival.score.lt found.score = true ∨
            (rival.score.same found.score = true ∧ found.offset < other)) ↔
      ¬ IsSpoilt rules data (searchEnd rules data)) ∧
    ((∃ fault, search rules data = .error fault ∧ fault.kind = .exhaustion ∧
        fault.origin?.map (·.1) = some .scan) ↔
      ∀ place : Nat, place < searchEnd rules data → candidateAt rules data place = none) := by
  refine ⟨?_, ⟨?_, ?_⟩, ?_⟩
  · intro found hfound
    exact exists_candidateAt_of_search? ((search_eq_ok_iff rules data found).mp hfound)
  · intro hall hspoilt
    obtain ⟨found, hsearch, other, hother, hne, rival, hrival, hnot⟩ :=
      exists_not_ranksBelow_of_isSpoilt hspoilt
    have hfound := (search_eq_ok_iff rules data found).mpr hsearch
    have hbelow := hall found hfound other hother hne rival hrival
    rw [← offset_of_candidateAt hrival] at hbelow
    exact hnot hbelow
  · intro hspoilt found hfound other hother hne rival hrival
    have hsearch := (search_eq_ok_iff rules data found).mp hfound
    rw [← offset_of_candidateAt hrival]
    exact ranksBelow_of_search? hspoilt hsearch hother hne hrival
  · constructor
    · rintro ⟨fault, hfault, _⟩
      exact (search?_eq_none_iff rules data).mp ((search_eq_error_iff rules data fault).mp hfault).1
    · intro hnone
      have hsearch := (search?_eq_none_iff rules data).mpr hnone
      exact ⟨.programMissing, (search_eq_error_iff _ _ _).mpr ⟨hsearch, rfl⟩, rfl, rfl⟩

def shortAndLong : Bytes :=
  [0x01, 0x10, 0x07, 0x10, 10, 0, 0x80, 0, 0x0D, 0x10, 20, 0, 0x80, 0, 0x13, 0x10, 30, 0, 0x80, 0,
   0, 0, 0x01, 0x11, 0x07, 0x11, 10, 0, 0x80, 0, 0x0D, 0x11, 20, 0, 0x80, 0, 0x13, 0x11, 30, 0,
   0x80, 0, 0x19, 0x11, 40, 0, 0x80, 0, 0, 0, 0xFF, 0xFF, 0xFF]

theorem search_outranks_shortAndLong :
    search .standard shortAndLong = .ok ⟨22, 224, 0x1101, 52, 4, 0⟩ ∧
      ¬ IsSpoilt .standard shortAndLong (searchEnd .standard shortAndLong) ∧
      candidateAt .standard shortAndLong 0 = some ⟨0, 190, 0x1001, 24, 3, 0⟩ ∧
      (Amount.lt 190 224 = true ∨ (Amount.same 190 224 = true ∧ (22 : Int) < 0)) := by
  have hfound : search .standard shortAndLong = .ok ⟨22, 224, 0x1101, 52, 4, 0⟩ :=
    (search_eq_ok_iff _ _ _).mpr (by decide +kernel)
  have hspoilt : ¬ IsSpoilt .standard shortAndLong (searchEnd .standard shortAndLong) :=
    not_isSpoilt_of_isSound isSound_standard shortAndLong _
  have hrival : candidateAt .standard shortAndLong 0 = some ⟨0, 190, 0x1001, 24, 3, 0⟩ := by
    decide +kernel
  obtain ⟨_, houtranks, _⟩ := search_outranks .standard shortAndLong
  exact ⟨hfound, hspoilt, hrival,
    houtranks.mpr hspoilt _ hfound 0 (by decide) (by decide) _ hrival⟩

/-- With a bonus that is shared among none, the longer program does not win. -/
theorem search_not_outranks_of_zero_divisor :
    search? { Rules.standard with closenessDivisor := .ofInt 0 } shortAndLong =
        some ⟨0, .undefined, 0x1001, 24, 3, 0⟩ ∧
      22 < searchEnd { Rules.standard with closenessDivisor := .ofInt 0 } shortAndLong ∧
      candidateAt { Rules.standard with closenessDivisor := .ofInt 0 } shortAndLong 22 =
        some ⟨22, 200, 0x1101, 52, 4, 0⟩ ∧
      ¬ (Amount.lt 200 .undefined = true ∨
        (Amount.same 200 .undefined = true ∧ (0 : Int) < 22)) := by
  decide +kernel

end TapeSalvage.Scan
