import Mathlib.Data.List.Induction
import Mathlib.Data.Prod.Lex
import TapeSalvage.Proofs.Amount.Order
import TapeSalvage.Scan.Search

/-!
The best of a set of candidates. Those with a defined score are ranked, by the score and then from
the last offset to the first, and the one of higher rank beats the other. A candidate is best when
no other one beats it; keeping the better one of the best of two sets gives the best of both, unless
an undefined score stands between them. Candidates at one offset being the same, the best one does
not depend on who was seen first.
-/
namespace TapeSalvage.Scan

/-- The better of two candidates is one of them. -/
theorem better_eq_or (holder challenger : Option Candidate) :
    better holder challenger = holder ∨ better holder challenger = challenger := by
  rcases holder with _ | first
  · exact Or.inr (better_none_left challenger)
  rcases challenger with _ | second
  · exact Or.inl (better_none_right _)
  rw [better]
  split
  · exact Or.inr rfl
  · exact Or.inl rfl

theorem mem_of_bestOf_eq_some {candidates : List (Option Candidate)} {found : Candidate}
    (h : bestOf candidates = some found) : some found ∈ candidates := by
  induction candidates using List.reverseRecOn generalizing found with
  | nil => simp [bestOf] at h
  | append_singleton before last ih =>
    rw [bestOf, List.foldl_append] at h
    rcases better_eq_or (bestOf before) last with hbefore | hlast
    · exact List.mem_append_left _ (ih (hbefore.symm.trans h))
    · rw [List.mem_append, List.mem_singleton]
      exact Or.inr (h.symm.trans hlast)

/-- Whether a result is the best among candidates: there are none, or none beats it. -/
def IsBest (among : Candidate → Prop) : Option Candidate → Prop
  | none => ∀ rival, ¬ among rival
  | some best => among best ∧ ∀ rival, among rival → ¬ rival.beats best

/-- No candidate with an undefined score has a rival. -/
def IsComparable (among : Candidate → Prop) : Prop :=
  ∀ candidate rival, among candidate → among rival → candidate.score = .undefined →
    candidate = rival

def IsPlaced (among : Candidate → Prop) : Prop :=
  ∀ candidate rival, among candidate → among rival → candidate.offset = rival.offset →
    candidate = rival

theorem not_beats_of_undefined {challenger holder : Candidate}
    (h : challenger.score = .undefined ∨ holder.score = .undefined) :
    ¬ challenger.beats holder := by
  rw [Candidate.beats_iff, not_or]
  constructor
  · intro hless
    obtain ⟨hholder, hchallenger⟩ := Amount.ne_undefined_of_lt hless
    exact h.elim hchallenger hholder
  · rintro ⟨hsame, _⟩
    obtain ⟨hchallenger, heq⟩ := Amount.same_iff.mp hsame
    exact h.elim hchallenger (heq ▸ hchallenger)

namespace Candidate

/-- Where a candidate with a defined score stands among the others. -/
def rank (candidate : Candidate) : WithBot (WithTop ℚ) ×ₗ ℤᵒᵈ :=
  toLex (candidate.score.level, OrderDual.toDual candidate.offset)

variable {first second third : Candidate}

theorem ne_undefined_of_beats (h : first.beats second) :
    first.score ≠ .undefined ∧ second.score ≠ .undefined := by
  constructor
  · intro hfirst
    exact not_beats_of_undefined (Or.inl hfirst) h
  · intro hsecond
    exact not_beats_of_undefined (Or.inr hsecond) h

theorem beats_iff_rank (hfirst : first.score ≠ .undefined) (hsecond : second.score ≠ .undefined) :
    first.beats second ↔ second.rank < first.rank := by
  rw [beats_iff, Amount.lt_iff hsecond hfirst, Amount.same_iff, rank, rank, Prod.Lex.toLex_lt_toLex,
    OrderDual.toDual_lt_toDual, Amount.level_inj hsecond hfirst, eq_comm, and_iff_right hfirst]

/-- A candidate that beats one that beats a third beats the third. -/
theorem beats_trans (hupper : first.beats second) (hlower : second.beats third) :
    first.beats third := by
  obtain ⟨hfirst, hsecond⟩ := ne_undefined_of_beats hupper
  obtain ⟨_, hthird⟩ := ne_undefined_of_beats hlower
  rw [beats_iff_rank hfirst hsecond] at hupper
  rw [beats_iff_rank hsecond hthird] at hlower
  exact (beats_iff_rank hfirst hthird).mpr (hlower.trans hupper)

/-- A candidate that does not beat one with a defined score that does not beat a third does not beat
the third. -/
theorem not_beats_trans (hsecond : second.score ≠ .undefined) (hupper : ¬ first.beats second)
    (hlower : ¬ second.beats third) : ¬ first.beats third := by
  intro h
  obtain ⟨hfirst, hthird⟩ := ne_undefined_of_beats h
  rw [beats_iff_rank hfirst hsecond, not_lt] at hupper
  rw [beats_iff_rank hsecond hthird, not_lt] at hlower
  rw [beats_iff_rank hfirst hthird] at h
  exact (hupper.trans hlower).not_gt h

/-- Of two candidates with defined scores that stand apart one beats the other. -/
theorem offset_eq_of_not_beats (hfirst : first.score ≠ .undefined)
    (hsecond : second.score ≠ .undefined) (hup : ¬ first.beats second)
    (hdown : ¬ second.beats first) : first.offset = second.offset := by
  rw [beats_iff_rank hfirst hsecond, not_lt] at hup
  rw [beats_iff_rank hsecond hfirst, not_lt] at hdown
  have hrank : first.rank = second.rank := le_antisymm hup hdown
  exact congrArg (fun rank => OrderDual.ofDual (ofLex rank).2) hrank

end Candidate

/-- The best of a set of candidates is one result and no other. -/
theorem IsBest.unique {among : Candidate → Prop} (hcomp : IsComparable among)
    (hplace : IsPlaced among) {left right : Option Candidate} (hleft : IsBest among left)
    (hright : IsBest among right) : left = right := by
  cases left with
  | none =>
    cases right with
    | none => rfl
    | some best => exact absurd hright.1 (hleft best)
  | some first =>
    cases right with
    | none => exact absurd hleft.1 (hright first)
    | some second =>
      congr 1
      by_cases hfirst : first.score = .undefined
      · exact hcomp first second hleft.1 hright.1 hfirst
      by_cases hsecond : second.score = .undefined
      · exact (hcomp second first hright.1 hleft.1 hsecond).symm
      · have hup := hright.2 first hleft.1
        have hdown := hleft.2 second hright.1
        exact hplace first second hleft.1 hright.1
          (Candidate.offset_eq_of_not_beats hfirst hsecond hup hdown)

theorem IsBest.congr {left right : Candidate → Prop}
    (h : ∀ candidate, left candidate ↔ right candidate)
    {best : Option Candidate} (hbest : IsBest left best) : IsBest right best := by
  have heq : left = right := funext fun candidate => propext (h candidate)
  exact heq ▸ hbest

theorem isBest_singleton (result : Option Candidate) :
    IsBest (fun candidate => result = some candidate) result := by
  cases result with
  | none => intro rival h; simp at h
  | some best =>
    refine ⟨rfl, fun rival h => ?_⟩
    obtain rfl := Option.some.inj h
    intro hbeats
    obtain ⟨hdefined, _⟩ := Candidate.ne_undefined_of_beats hbeats
    exact lt_irrefl _ ((Candidate.beats_iff_rank hdefined hdefined).mp hbeats)

/-- The better one of the best of two sets is the best of both. -/
theorem IsBest.better {left right : Candidate → Prop} {first second : Option Candidate}
    (hcomp : IsComparable fun candidate => left candidate ∨ right candidate)
    (hfirst : IsBest left first) (hsecond : IsBest right second) :
    IsBest (fun candidate => left candidate ∨ right candidate) (Scan.better first second) := by
  cases first with
  | none =>
    rw [better_none_left]
    exact hsecond.congr fun candidate => ⟨Or.inr, fun h => h.resolve_left (hfirst candidate)⟩
  | some holder =>
    cases second with
    | none =>
      rw [better_none_right]
      exact hfirst.congr fun candidate => ⟨Or.inl, fun h => h.resolve_right (hsecond candidate)⟩
    | some challenger =>
      obtain ⟨hholder, hno⟩ := hfirst
      obtain ⟨hchallenger, hnone⟩ := hsecond
      simp only [Scan.better]
      split
      · rename_i hwins
        refine ⟨Or.inr hchallenger, ?_⟩
        rintro rival (hrival | hrival) hbeats
        · exact hno rival hrival (Candidate.beats_trans hbeats hwins)
        · exact hnone rival hrival hbeats
      · rename_i hloses
        refine ⟨Or.inl hholder, ?_⟩
        rintro rival (hrival | hrival) hbeats
        · exact hno rival hrival hbeats
        · by_cases hdefined : challenger.score = .undefined
          · obtain rfl := hcomp challenger rival (Or.inr hchallenger) (Or.inr hrival) hdefined
            exact hloses hbeats
          · exact Candidate.not_beats_trans hdefined (hnone rival hrival) hloses hbeats

theorem IsComparable.mono {small large : Candidate → Prop} (h : IsComparable large)
    (hsub : ∀ candidate, small candidate → large candidate) : IsComparable small :=
  fun candidate rival hcandidate hrival =>
    h candidate rival (hsub candidate hcandidate) (hsub rival hrival)

/-- The best of the best of several sets is the best of all of them. -/
theorem isBest_bestOf {ι : Type} (sets : ι → Candidate → Prop) (results : ι → Option Candidate)
    (indices : List ι) (hcomp : IsComparable fun candidate => ∃ i ∈ indices, sets i candidate)
    (hbest : ∀ i ∈ indices, IsBest (sets i) (results i)) :
    IsBest (fun candidate => ∃ i ∈ indices, sets i candidate) (bestOf (indices.map results)) := by
  induction indices using List.reverseRecOn with
  | nil => simp [bestOf, IsBest]
  | append_singleton before last ih =>
    have hsub : ∀ candidate, (∃ i ∈ before, sets i candidate) →
        ∃ i ∈ before ++ [last], sets i candidate := by
      rintro candidate ⟨i, hi, hset⟩
      exact ⟨i, List.mem_append_left _ hi, hset⟩
    have hsplit : ∀ candidate, ((∃ i ∈ before, sets i candidate) ∨ sets last candidate) ↔
        ∃ i ∈ before ++ [last], sets i candidate := by
      intro candidate
      simp only [List.mem_append, List.mem_singleton, or_and_right, exists_or, exists_eq_left]
    have hbefore := ih (hcomp.mono hsub) fun i hi => hbest i (List.mem_append_left _ hi)
    have hlast := hbest last (by simp)
    rw [List.map_append, List.map_singleton, bestOf, List.foldl_append]
    exact (hbefore.better (hcomp.mono fun c hc => (hsplit c).mp hc) hlast).congr hsplit

end TapeSalvage.Scan
