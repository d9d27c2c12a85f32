import Mathlib.Data.Nat.Find
import TapeSalvage.Proofs.Scan.Winner

/-!
The first candidate of a stream. If its score is defined, what a search finds scores no less than
any candidate whose score is defined. If it is not, the first candidate keeps its place, and is
found whatever follows.
-/
namespace TapeSalvage.Scan

open Amount

/-- A candidate that beats another one scores no less. -/
theorem atMost_of_beats {challenger holder : Candidate} (h : challenger.beats holder) :
    holder.score.AtMost challenger.score := by
  rw [Candidate.beats_iff] at h
  rcases h with hless | ⟨hsame, _⟩
  · exact Or.inl hless
  · obtain ⟨hchallenger, heq⟩ := same_iff.mp hsame
    exact heq ▸ atMost_self hchallenger

theorem atMost_of_not_beats {challenger holder : Candidate}
    (hchallenger : challenger.score ≠ .undefined) (hholder : holder.score ≠ .undefined)
    (h : ¬ challenger.beats holder) : challenger.score.AtMost holder.score := by
  rw [Candidate.beats_iff, not_or] at h
  exact atMost_of_not_lt hchallenger hholder h.1

/-- The better of two candidates scores no less than each, where these scores are defined. -/
theorem exists_better {holder : Candidate} (h : holder.score ≠ .undefined)
    (challenger : Option Candidate) :
    ∃ next, better (some holder) challenger = some next ∧ holder.score.AtMost next.score ∧
      ∀ rival, challenger = some rival → rival.score ≠ .undefined →
        rival.score.AtMost next.score := by
  cases challenger with
  | none => exact ⟨holder, rfl, atMost_self h, by simp⟩
  | some challenger =>
    by_cases hbeats : challenger.beats holder
    · have hless := atMost_of_beats hbeats
      refine ⟨challenger, if_pos hbeats, hless, ?_⟩
      intro rival hrival _
      obtain rfl := Option.some.inj hrival
      exact atMost_self hless.ne_undefined.2
    · refine ⟨holder, if_neg hbeats, atMost_self h, ?_⟩
      intro rival hrival hscore
      obtain rfl := Option.some.inj hrival
      exact atMost_of_not_beats hscore h hbeats

/-- Behind a candidate with a defined score the best one scores no less than it and all that
follow, where these scores are defined. -/
theorem exists_foldl_better {holder : Candidate} (h : holder.score ≠ .undefined)
    (rest : List (Option Candidate)) :
    ∃ best, rest.foldl better (some holder) = some best ∧ holder.score.AtMost best.score ∧
      ∀ rival, some rival ∈ rest → rival.score ≠ .undefined → rival.score.AtMost best.score := by
  induction rest generalizing holder with
  | nil => exact ⟨holder, rfl, atMost_self h, by simp⟩
  | cons challenger rest ih =>
    obtain ⟨next, hnext, hholder, hchallenger⟩ := exists_better h challenger
    obtain ⟨best, hbest, hnextBest, hrest⟩ := ih hholder.ne_undefined.2
    refine ⟨best, by rw [List.foldl_cons, hnext, hbest], hholder.trans hnextBest, ?_⟩
    intro rival hmem hrival
    rcases List.mem_cons.mp hmem with hhead | htail
    · exact (hchallenger rival hhead.symm hrival).trans hnextBest
    · exact hrest rival htail hrival

/-- A candidate with an undefined score keeps its place. -/
theorem foldl_better_of_undefined {holder : Candidate} (h : holder.score = .undefined)
    (rest : List (Option Candidate)) : rest.foldl better (some holder) = some holder := by
  induction rest with
  | nil => rfl
  | cons challenger rest ih =>
    have hkeeps : better (some holder) challenger = some holder := by
      cases challenger with
      | none => rfl
      | some challenger => exact if_neg (not_beats_of_undefined (Or.inr h))
    rw [List.foldl_cons, hkeeps, ih]

structure IsFirst (rules : Rules) (data : Bytes) (place : Nat) (first : Candidate) : Prop where
  place_lt : place < searchEnd rules data
  found : candidateAt rules data place = some first
  none_before : ∀ earlier : Nat, earlier < place → candidateAt rules data earlier = none

def candidatesBehind (rules : Rules) (data : Bytes) (place : Nat) : List (Option Candidate) :=
  (List.range' (place + 1) (searchEnd rules data - (place + 1))).map fun other : Nat =>
    candidateAt rules data other

theorem mem_candidatesBehind {rules : Rules} {data : Bytes} {place other : Nat}
    (hbehind : place < other) (hend : other < searchEnd rules data) :
    candidateAt rules data other ∈ candidatesBehind rules data place := by
  refine List.mem_map_of_mem ?_
  rw [List.mem_range'_1]
  omega

section

variable {rules : Rules} {data : Bytes} {place : Nat} {first found : Candidate}

theorem exists_isFirst (h : search? rules data = some found) :
    ∃ place first, IsFirst rules data place first := by
  obtain ⟨tried, htried, _, hfound⟩ := exists_candidateAt_of_search? h
  have hsome : ∃ place : Nat, candidateAt rules data place ≠ none :=
    ⟨tried, by rw [hfound]; exact Option.some_ne_none found⟩
  obtain ⟨first, hfirst⟩ := Option.ne_none_iff_exists'.mp (Nat.find_spec hsome)
  have hle : Nat.find hsome ≤ tried :=
    Nat.find_min' hsome (by rw [hfound]; exact Option.some_ne_none found)
  refine ⟨Nat.find hsome, first, Nat.lt_of_le_of_lt hle htried, hfirst, ?_⟩
  intro earlier hearlier
  exact not_not.mp (Nat.find_min hsome hearlier)

/-- A search compares its first candidate with those behind it. -/
theorem IsFirst.search?_eq (h : IsFirst rules data place first) :
    search? rules data = (candidatesBehind rules data place).foldl better (some first) := by
  have hsplit : List.range' 0 (searchEnd rules data) =
      List.range' 0 place ++ place ::
        List.range' (place + 1) (searchEnd rules data - (place + 1)) := by
    have hplace := h.place_lt
    have hcount : searchEnd rules data =
        place + (searchEnd rules data - (place + 1) + 1) := by omega
    rw [← List.range'_succ]
    conv_lhs => rw [hcount]
    rw [← List.range'_append_1, Nat.zero_add]
  have hnone : bestOf ((List.range' 0 place).map fun other : Nat => candidateAt rules data other) =
      none := by
    rw [bestOf_eq_none_iff]
    intro candidate hmem
    obtain ⟨earlier, hearlier, rfl⟩ := List.mem_map.mp hmem
    rw [List.mem_range'_1] at hearlier
    exact h.none_before earlier (by omega)
  rw [search?_eq_searchRange, searchRange_eq_bestOf]
  simp only [Int.toNat_natCast, Int.toNat_zero, Nat.sub_zero]
  rw [hsplit, List.map_append, List.map_cons, bestOf, List.foldl_append, List.foldl_cons, h.found]
  rw [bestOf] at hnone
  rw [hnone, better_none_left]
  rfl

/-- The first candidate is found if its score is undefined. Otherwise what is found scores no less
than any candidate, where these scores are defined. -/
theorem IsFirst.cases_of_search? (hfirst : IsFirst rules data place first)
    (h : search? rules data = some found) :
    (first.score = .undefined ∧ found = first) ∨
      (first.score ≠ .undefined ∧ first.score.AtMost found.score ∧
        ∀ (other : Nat) (rival : Candidate), other < searchEnd rules data →
          candidateAt rules data other = some rival → rival.score ≠ .undefined →
            rival.score.AtMost found.score) := by
  rw [hfirst.search?_eq] at h
  by_cases hscore : first.score = .undefined
  · rw [foldl_better_of_undefined hscore] at h
    exact Or.inl ⟨hscore, (Option.some.inj h).symm⟩
  obtain ⟨best, hbest, hle, hrest⟩ := exists_foldl_better hscore (candidatesBehind rules data place)
  obtain rfl := Option.some.inj (hbest.symm.trans h)
  refine Or.inr ⟨hscore, hle, ?_⟩
  intro other rival hother hrival hdefined
  rcases Nat.lt_trichotomy other place with hbefore | rfl | hbehind
  · rw [hfirst.none_before other hbefore] at hrival
    contradiction
  · obtain rfl := Option.some.inj (hrival.symm.trans hfirst.found)
    exact hle
  · refine hrest rival ?_ hdefined
    rw [← hrival]
    exact mem_candidatesBehind hbehind hother

/-- What is found scores no less than any candidate, unless one of these scores is undefined. -/
theorem atMost_of_search? {other : Nat} {rival : Candidate} (h : search? rules data = some found)
    (hfound : found.score ≠ .undefined) (hother : other < searchEnd rules data)
    (hrival : candidateAt rules data other = some rival) (hscore : rival.score ≠ .undefined) :
    rival.score.AtMost found.score := by
  obtain ⟨place, first, hfirst⟩ := exists_isFirst h
  rcases hfirst.cases_of_search? h with ⟨hundefined, rfl⟩ | ⟨_, _, hall⟩
  · exact absurd hundefined hfound
  · exact hall other rival hother hrival hscore

/-- A search finds something if there is a candidate. -/
theorem exists_search?_of_candidateAt {candidate : Candidate}
    (hplace : place < searchEnd rules data) (h : candidateAt rules data place = some candidate) :
    ∃ found, search? rules data = some found := by
  cases hsearch : search? rules data with
  | some found => exact ⟨found, rfl⟩
  | none =>
    rw [(search?_eq_none_iff rules data).mp hsearch place hplace] at h
    contradiction

end

end TapeSalvage.Scan
