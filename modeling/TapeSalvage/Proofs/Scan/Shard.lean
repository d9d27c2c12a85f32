import Mathlib.Data.List.Range
import TapeSalvage.Proofs.Scan.Best
import TapeSalvage.Proofs.Scan.Sound

/-!
Searching a stream in ranges. However a range of offsets is covered by others, comparing the results
of their searches gives the result of the whole one, as long as no candidate with an undefined score
has a rival.
-/
namespace TapeSalvage.Scan

/-- What a candidate owes to the rules and to the chain that was followed. -/
theorem eq_candidate_of_judge (rules : Rules) (offset : Nat) (data : Bytes) (found : Candidate)
    (h : judge rules offset data = some found) :
    ∃ low high rest trail, data = low :: high :: rest ∧
      rules.lowestLoad ≤ word low high ∧ word low high ≤ rules.highestLoad ∧ 9 ≤ rest.length ∧
      follow rules (word low high) rules.recordLimit.toNat (.start (word low high)) rest =
        some trail ∧
      rules.fewestLines ≤ trail.lines ∧ found = trail.candidate rules offset (word low high) := by
  match data, h with
  | low :: high :: rest, h =>
    simp only [judge] at h
    split at h
    · simp at h
    rename_i hbounds
    simp only [Bool.or_eq_true, decide_eq_true_eq, Bool.not_eq_true', not_or, Int.not_lt,
      Bool.not_eq_false, holds_iff] at hbounds
    split at h
    · simp at h
    rename_i trail hfollow
    split at h
    · simp at h
    · rename_i hlines
      exact ⟨low, high, rest, trail, rfl, hbounds.1.1, hbounds.1.2, hbounds.2, hfollow,
        Int.not_lt.mp hlines, (Option.some.inj h).symm⟩

theorem candidateAt_natCast (rules : Rules) (data : Bytes) (offset : Nat) :
    candidateAt rules data offset = judge rules offset (data.drop offset) := by
  simp [candidateAt]

section

variable {rules : Rules} {data : Bytes} {place : Nat} {candidate : Candidate}

theorem offset_of_candidateAt (h : candidateAt rules data place = some candidate) :
    candidate.offset = place := by
  rw [candidateAt_natCast] at h
  obtain ⟨_, _, _, _, _, _, _, _, _, _, rfl⟩ := eq_candidate_of_judge _ _ _ _ h
  rfl

/-- Under sound rules every score is defined. -/
theorem score_ne_undefined_of_candidateAt (hsound : rules.IsSound)
    (h : candidateAt rules data place = some candidate) : candidate.score ≠ .undefined := by
  rw [candidateAt_natCast] at h
  obtain ⟨low, high, rest, trail, _, _, _, _, hfollow, _, rfl⟩ := eq_candidate_of_judge _ _ _ _ h
  obtain ⟨lines, hpasses, _⟩ := (follow_eq_some_iff _ _ _ _).mp hfollow
  exact score_ne_undefined hsound place _
    (hpasses.isFinite_penalty hsound zero_atMost_zero ⟨0, Amount.zero_eq⟩)

end

/-- Searching compares the candidates of one offset after the other. -/
theorem searchFrom_eq_foldl (rules : Rules) (data : Bytes) (offset count : Nat)
    (best : Option Candidate) :
    searchFrom rules offset count best (data.drop offset) =
      ((List.range' offset count).map fun place : Nat => candidateAt rules data place).foldl
        better best := by
  induction count generalizing offset best with
  | zero => rfl
  | succ count ih =>
    rw [List.range'_succ, List.map_cons, List.foldl_cons, ← ih, candidateAt_natCast]
    cases hrest : data.drop offset with
    | nil =>
      have hnext : data.drop (offset + 1) = [] := by
        rw [← List.drop_drop, hrest]
        rfl
      have hnone : judge rules offset [] = none := rfl
      rw [hnext, hnone, better_none_right]
      cases count <;> rfl
    | cons byte rest =>
      have hnext : data.drop (offset + 1) = rest := by
        rw [← List.drop_drop, hrest]
        rfl
      rw [hnext]
      rfl

def InRange (rules : Rules) (data : Bytes) (first stop : Int) (candidate : Candidate) : Prop :=
  ∃ offset : Nat, first ≤ offset ∧ (offset : Int) < stop ∧
    candidateAt rules data offset = some candidate

theorem searchRange_eq_bestOf (rules : Rules) (data : Bytes) (first stop : Int) :
    searchRange rules data first stop =
      bestOf ((List.range' first.toNat (stop.toNat - first.toNat)).map
        fun place : Nat => candidateAt rules data place) :=
  searchFrom_eq_foldl rules data _ _ none

theorem search_eq_ok_iff (rules : Rules) (data : Bytes) (found : Candidate) :
    search rules data = .ok found ↔ search? rules data = some found := by
  unfold search
  cases search? rules data <;> simp

/-- What a search finds is a candidate at some offset. -/
theorem exists_judge_of_search {rules : Rules} {data : Bytes} {found : Candidate}
    (h : search rules data = .ok found) :
    ∃ offset : Nat, judge rules offset (data.drop offset) = some found := by
  rw [search_eq_ok_iff, search?, searchRange_eq_bestOf] at h
  obtain ⟨offset, _, hfound⟩ := List.mem_map.mp (mem_of_bestOf_eq_some h)
  exact ⟨offset, by rw [← candidateAt_natCast, hfound]⟩

theorem isBest_searchRange (rules : Rules) (data : Bytes) (first stop : Int)
    (hcomp : IsComparable (InRange rules data first stop)) :
    IsBest (InRange rules data first stop) (searchRange rules data first stop) := by
  have hrange : ∀ candidate,
      (∃ place ∈ List.range' first.toNat (stop.toNat - first.toNat),
        candidateAt rules data (place : Nat) = some candidate) ↔
      InRange rules data first stop candidate := by
    intro candidate
    constructor
    · rintro ⟨place, hplace, hfound⟩
      rw [List.mem_range'_1] at hplace
      exact ⟨place, by omega, by omega, hfound⟩
    · rintro ⟨place, hlow, hhigh, hfound⟩
      exact ⟨place, by rw [List.mem_range'_1]; omega, hfound⟩
  rw [searchRange_eq_bestOf]
  exact (isBest_bestOf _ _ _ (hcomp.mono fun c hc => (hrange c).mp hc)
    fun place _ => isBest_singleton _).congr hrange

theorem isPlaced_inRange (rules : Rules) (data : Bytes) (first stop : Int) :
    IsPlaced (InRange rules data first stop) := by
  rintro candidate rival ⟨offset, _, _, hcandidate⟩ ⟨other, _, _, hrival⟩ heq
  have hoffset := offset_of_candidateAt hcandidate
  have hother := offset_of_candidateAt hrival
  obtain rfl : offset = other := by omega
  rw [hcandidate] at hrival
  exact Option.some.inj hrival

/-- Whether ranges, cut off at zero, reach the offsets below a stop and no others. -/
def Covers (ranges : List (Int × Int)) (stop : Nat) : Prop :=
  ∀ offset : Nat, (∃ range ∈ ranges, max 0 range.1 ≤ offset ∧ (offset : Int) < range.2) ↔
    offset < stop

def searchShards (rules : Rules) (data : Bytes) (ranges : List (Int × Int)) : Option Candidate :=
  bestOf (ranges.map fun range => searchRange rules data range.1 range.2)

/-- Whether a candidate below the stop has an undefined score and is not the only one there. -/
def IsSpoilt (rules : Rules) (data : Bytes) (stop : Nat) : Prop :=
  ∃ place other : Nat, ∃ candidate rival : Candidate, place < stop ∧ other < stop ∧
    place ≠ other ∧ candidateAt rules data place = some candidate ∧
    candidateAt rules data other = some rival ∧ candidate.score = .undefined

theorem not_isSpoilt_of_isSound {rules : Rules} (hsound : rules.IsSound) (data : Bytes)
    (stop : Nat) : ¬ IsSpoilt rules data stop := by
  rintro ⟨_, _, _, _, _, _, _, hcandidate, _, hscore⟩
  exact score_ne_undefined_of_candidateAt hsound hcandidate hscore

theorem isComparable_inRange (rules : Rules) (data : Bytes) (stop : Nat)
    (h : ¬ IsSpoilt rules data stop) : IsComparable (InRange rules data 0 stop) := by
  rintro candidate rival ⟨place, _, hplace, hcandidate⟩ ⟨other, _, hother, hrival⟩ hscore
  by_contra hne
  refine h ⟨place, other, candidate, rival, by omega, by omega, ?_, hcandidate, hrival, hscore⟩
  rintro rfl
  rw [hcandidate] at hrival
  exact hne (Option.some.inj hrival)

theorem inRange_iff_of_covers {rules : Rules} {data : Bytes} {ranges : List (Int × Int)}
    {stop : Nat} (h : Covers ranges stop) (candidate : Candidate) :
    (∃ range ∈ ranges, InRange rules data range.1 range.2 candidate) ↔
      InRange rules data 0 stop candidate := by
  constructor
  · rintro ⟨range, hrange, offset, hlow, hhigh, hfound⟩
    have hstop := (h offset).mp ⟨range, hrange, by omega, hhigh⟩
    exact ⟨offset, by omega, by omega, hfound⟩
  · rintro ⟨offset, _, hstop, hfound⟩
    obtain ⟨range, hrange, hlow, hhigh⟩ := (h offset).mpr (by omega)
    exact ⟨range, hrange, offset, by omega, hhigh, hfound⟩

theorem searchShards_of_covers (rules : Rules) (data : Bytes) (ranges : List (Int × Int))
    (stop : Nat) (hcover : Covers ranges stop) (hspoilt : ¬ IsSpoilt rules data stop) :
    searchShards rules data ranges = searchRange rules data 0 stop := by
  have hcomp := isComparable_inRange rules data stop hspoilt
  have hwhole := isBest_searchRange rules data 0 stop hcomp
  have hall := isBest_bestOf (fun range : Int × Int => InRange rules data range.1 range.2)
    (fun range => searchRange rules data range.1 range.2) ranges
    (hcomp.mono fun c hc => (inRange_iff_of_covers hcover c).mp hc) fun range hrange =>
      isBest_searchRange rules data range.1 range.2
        (hcomp.mono fun c hc => (inRange_iff_of_covers hcover c).mp ⟨range, hrange, hc⟩)
  exact (hall.congr (inRange_iff_of_covers hcover)).unique hcomp
    (isPlaced_inRange rules data 0 stop) hwhole

theorem searchRange_singleton (rules : Rules) (data : Bytes) (place : Nat) :
    searchRange rules data place (place + 1) = candidateAt rules data place := by
  have hcount : ((place : Int) + 1).toNat - (place : Int).toNat = 1 := by omega
  rw [searchRange_eq_bestOf, hcount]
  simp [bestOf]

theorem covers_singleton_whole (place stop : Nat) (h : place < stop) :
    Covers [((place : Int), (place : Int) + 1), (0, (stop : Int))] stop := by
  intro offset
  simp only [List.mem_cons, List.not_mem_nil, or_false, exists_eq_or_imp, exists_eq_left]
  omega

/-- A candidate with an undefined score takes the first place and never gives it up, but takes no
place that is held. So a range that starts with it and one that starts with a rival disagree. -/
theorem exists_covers_ne_of_isSpoilt (rules : Rules) (data : Bytes) (stop : Nat)
    (h : IsSpoilt rules data stop) : ∃ ranges, Covers ranges stop ∧
      searchShards rules data ranges ≠ searchRange rules data 0 stop := by
  obtain ⟨place, other, candidate, rival, hplace, hother, hne, hcandidate, hrival, hscore⟩ := h
  by_contra hall
  push Not at hall
  have hfirst := hall _ (covers_singleton_whole place stop hplace)
  have hsecond := hall _ (covers_singleton_whole other stop hother)
  simp only [searchShards, List.map_cons, List.map_nil, searchRange_singleton, hcandidate, hrival,
    bestOf, List.foldl_cons, List.foldl_nil, better_none_left] at hfirst hsecond
  have hwhole : searchRange rules data 0 stop = some candidate := by
    rw [← hfirst]
    cases searchRange rules data 0 stop with
    | none => rfl
    | some challenger => exact if_neg (not_beats_of_undefined (Or.inr hscore))
  have hsame : rival = candidate := by
    rw [hwhole, better, if_neg (not_beats_of_undefined (Or.inl hscore))] at hsecond
    exact Option.some.inj hsecond
  have hoffset := offset_of_candidateAt hcandidate
  have hrivalOffset := offset_of_candidateAt hrival
  rw [hsame] at hrivalOffset
  omega

/-- Searching in ranges is searching the whole, in whatever order the ranges come and however they
overlap, exactly if no candidate with an undefined score has a rival. The best candidate of a stream
is then what its ranges give, and the search fails where they give none. -/
theorem searchShards_exact (rules : Rules) (data : Bytes) :
    (∀ stop : Nat,
      (∀ ranges, Covers ranges stop →
        searchShards rules data ranges = searchRange rules data 0 stop) ↔
      ¬ IsSpoilt rules data stop) ∧
    ∀ ranges, Covers ranges ((data.length : Int) - rules.tailReserve).toNat →
      ¬ IsSpoilt rules data ((data.length : Int) - rules.tailReserve).toNat →
      (∀ found, search rules data = .ok found ↔ searchShards rules data ranges = some found) ∧
      ((∃ fault, search rules data = .error fault) ↔ searchShards rules data ranges = none) := by
  constructor
  · intro stop
    constructor
    · intro hall hspoilt
      obtain ⟨ranges, hcover, hne⟩ := exists_covers_ne_of_isSpoilt rules data stop hspoilt
      exact hne (hall ranges hcover)
    · intro hspoilt ranges hcover
      exact searchShards_of_covers rules data ranges stop hcover hspoilt
  · intro ranges hcover hspoilt
    have hwhole : search? rules data = searchShards rules data ranges := by
      have hstop : ((((data.length : Int) - rules.tailReserve).toNat : Nat) : Int).toNat =
          ((data.length : Int) - rules.tailReserve).toNat := Int.toNat_natCast _
      rw [searchShards_of_covers rules data ranges _ hcover hspoilt, search?, searchRange,
        searchRange, hstop]
    rw [← hwhole, search]
    cases search? rules data <;> simp

def twoPrograms : Bytes :=
  [0x01, 0x10, 0x07, 0x10, 10, 0, 0x80, 0, 0x0D, 0x10, 20, 0, 0x80, 0, 0x13, 0x10, 30, 0, 0x80, 0,
   0, 0, 0x01, 0x11, 0x07, 0x11, 10, 0, 0x80, 0, 0x0D, 0x11, 20, 0, 0x80, 0, 0x13, 0x11, 30, 0,
   0x80, 0, 0, 0, 0xFF, 0xFF, 0xFF]

theorem searchShards_exact_twoPrograms :
    Covers [(20, 47), (-3, 30)] 47 ∧ ¬ IsSpoilt .standard twoPrograms 47 ∧
      searchShards .standard twoPrograms [(20, 47), (-3, 30)] =
        searchRange .standard twoPrograms 0 47 := by
  have hcover : Covers [(20, 47), (-3, 30)] 47 := by
    intro offset
    simp only [List.mem_cons, List.not_mem_nil, or_false, exists_eq_or_imp, exists_eq_left]
    omega
  have hspoilt : ¬ IsSpoilt .standard twoPrograms 47 :=
    not_isSpoilt_of_isSound isSound_standard twoPrograms 47
  exact ⟨hcover, hspoilt, ((searchShards_exact .standard twoPrograms).1 47).mpr hspoilt _ hcover⟩

/-- With a bonus that is shared among none, the order of the ranges decides between the programs. -/
theorem searchShards_ne_of_zero_divisor :
    Covers [(22, 47), (0, 22)] 47 ∧
      searchShards { Rules.standard with closenessDivisor := .ofInt 0 } twoPrograms
          [(22, 47), (0, 22)] ≠
        searchRange { Rules.standard with closenessDivisor := .ofInt 0 } twoPrograms 0 47 := by
  constructor
  · intro offset
    simp only [List.mem_cons, List.not_mem_nil, or_false, exists_eq_or_imp, exists_eq_left]
    omega
  · decide +kernel

-- Large weights spoil a score under any divisor: what the lines earn and what they cost is
-- infinite.
example :
    (judge { Rules.standard with
        lineWeight := .finite (-power 2 1023), stallPenalty := .finite (-power 2 1023) } 0
      [0x01, 0x10, 0x07, 0x10, 10, 0, 0x80, 0, 0x07, 0x10, 20, 0, 0x80, 0, 0x07, 0x10, 30, 0, 0x80,
        0, 0, 0, 0x01, 0x11, 0x07]).map (·.score) = some .undefined := by
  decide +kernel

end TapeSalvage.Scan
