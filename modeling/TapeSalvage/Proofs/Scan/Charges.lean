import TapeSalvage.Proofs.Scan.Shard

/-!
What candidates earn and are charged under the standard rules. All of it is whole, and few points
are reckoned with, so nothing is rounded. A line costs at most 50 points, which is what it is worth,
and the first line at most 40, because it descends from no other.
-/
namespace TapeSalvage.Scan

open Amount
open Listing (Record Stored)

theorem penaltyLimit_standard : Rules.standard.penaltyLimit = .finite ((400 : Int) : ℚ) :=
  ofInt_of_small (by decide)

theorem mismatchCost_standard (mismatch : Nat) :
    ∃ cost : Int, mismatchCost .standard mismatch = .finite cost ∧ 0 ≤ cost ∧ cost ≤ 25 ∧
      (mismatch = 0 → cost = 0) := by
  unfold mismatchCost
  by_cases hfar : Rules.standard.mismatchTolerance < mismatch
  · rw [if_pos hfar]
    exact ⟨25, ofInt_of_small (by decide), by omega, by omega, fun h => by
      rw [h] at hfar
      exact absurd hfar (by decide)⟩
  rw [if_neg hfar]
  change ¬ (64 : Int) < mismatch at hfar
  by_cases hzero : mismatch = 0
  · rw [if_pos hzero]
    exact ⟨0, ofInt_of_small (by decide), by omega, by omega, fun _ => rfl⟩
  · rw [if_neg hzero]
    have hlimit := exactLimit_eq
    have hshare : share (.ofInt mismatch) (.ofInt 4) = .finite ((mismatch / 4 : Int) : ℚ) := by
      rw [ofInt_of_small (by omega)]
      exact share_two_pow (by omega) (show 2 ≤ 1000 by decide)
    exact ⟨mismatch / 4, hshare, by omega, by omega, fun h => absurd h hzero⟩

/-- What one more line costs: something for a number below the last one, for a pointer that leads
elsewhere, and for a pointer that is not above the last one. -/
theorem charge_standard (load : Nat) {trail : Trail} {penalty : Int}
    (hpenalty : trail.penalty = .finite penalty) (hnonneg : 0 ≤ penalty) (hsmall : penalty ≤ 400)
    (line pointer actual : Nat) :
    ∃ cost : Int, 0 ≤ cost ∧ cost ≤ 25 ∧ (pointer = load + actual → cost = 0) ∧
      trail.charge .standard load pointer line actual =
        .finite ((penalty + (if line < trail.lastLine then 10 else 0) + cost +
          if pointer ≤ trail.lastPointer then 15 else 0 : Int) : ℚ) := by
  obtain ⟨cost, hcost, hlow, hhigh, hzero⟩ :=
    mismatchCost_standard ((pointer : Int) - load - actual).natAbs
  refine ⟨cost, hlow, hhigh, fun hpointer => hzero (by omega), ?_⟩
  have hlimit := exactLimit_eq
  have hdescent : (if line < trail.lastLine then Rules.standard.descentPenalty else 0) =
      .finite ((if line < trail.lastLine then 10 else 0 : Int) : ℚ) := by
    split <;> exact ofInt_of_small (by decide)
  have hstall : (if pointer ≤ trail.lastPointer then Rules.standard.stallPenalty else 0) =
      .finite ((if pointer ≤ trail.lastPointer then 15 else 0 : Int) : ℚ) := by
    split <;> exact ofInt_of_small (by decide)
  unfold Trail.charge
  dsimp only
  rw [hpenalty, hcost, hdescent, hstall, finite_add_finite (by split <;> omega),
    finite_add_finite (by split <;> omega), finite_add_finite (by split <;> split <;> omega)]

def standardBonus (load : Nat) : Int := max 0 (40 - (((load : Int) - 0x1001).natAbs : Int) / 16)

theorem standardBonus_mem (load : Nat) : 0 ≤ standardBonus load ∧ standardBonus load ≤ 40 := by
  unfold standardBonus
  omega

theorem closeness_standard {load : Nat} (hload : load < 65536) :
    closeness .standard load = .finite (standardBonus load) := by
  have hlimit := exactLimit_eq
  have husual : Rules.standard.usualLoad = .finite ((0x1001 : Int) : ℚ) :=
    ofInt_of_small (by decide)
  have hdistance : (.ofInt load - Rules.standard.usualLoad).abs =
      .finite ((((load : Int) - 0x1001).natAbs : Int) : ℚ) := by
    rw [husual, ofInt_of_small (by omega), finite_sub_finite (by omega), abs_finite]
  have hshare : share (.finite ((((load : Int) - 0x1001).natAbs : Int) : ℚ)) (.ofInt 16) =
      .finite (((((load : Int) - 0x1001).natAbs : Int) / 16 : Int) : ℚ) :=
    share_two_pow (by omega) (show 4 ≤ 1000 by decide)
  have hbonus : Rules.standard.closenessBonus = .finite ((40 : Int) : ℚ) :=
    ofInt_of_small (by decide)
  unfold closeness
  dsimp only
  rw [hdistance]
  change greater 0 (Rules.standard.closenessBonus - share _ (.ofInt 16)) = _
  rw [hshare, hbonus, finite_sub_finite (by omega), zero_eq, greater_finite, standardBonus]
  push_cast
  rfl

/-- The score of a candidate whose chain was followed to its end. -/
theorem score_standard {load : Nat} (hload : load < 65536) {trail : Trail} {penalty : Int}
    (hlines : trail.lines < 5000) (hpenalty : trail.penalty = .finite penalty)
    (hnonneg : 0 ≤ penalty) (hsmall : penalty ≤ 400) (offset : Nat) :
    (trail.candidate .standard offset load).score =
      .finite ((50 * trail.lines + standardBonus load - penalty : Int) : ℚ) := by
  have hlimit := exactLimit_eq
  have hbonus := standardBonus_mem load
  have hweight : Rules.standard.lineWeight = .finite ((50 : Int) : ℚ) :=
    ofInt_of_small (by decide)
  change Rules.standard.lineWeight.times trail.lines + closeness .standard load -
    trail.penalty = _
  rw [hweight, times_finite (by omega), closeness_standard hload, hpenalty,
    finite_add_finite (by omega), finite_sub_finite (by omega), Int.mul_comm]

/-- Whether the penalty of a trail is a whole number in bounds. -/
structure IsCharged (trail : Trail) (penalty : Int) : Prop where
  penalty_eq : trail.penalty = .finite penalty
  nonneg : 0 ≤ penalty
  le_limit : penalty ≤ 400
  first : trail.lines = 0 → penalty = 0 ∧ trail.lastLine = 0
  le_lines : 0 < trail.lines → penalty + 10 ≤ 50 * trail.lines

theorem isCharged_start (load : Nat) : IsCharged (.start load) 0 where
  penalty_eq := ofInt_of_small (by decide)
  nonneg := Int.le_refl 0
  le_limit := by decide
  first := fun _ => ⟨rfl, rfl⟩
  le_lines := fun h => absurd h (Nat.lt_irrefl 0)

theorem IsCharged.pass {load : Nat} {trail : Trail} {penalty : Int} {record : Record}
    (h : IsCharged trail penalty) (hpass : MayPass .standard load trail record) :
    ∃ next, IsCharged (trail.pass .standard load record) next := by
  obtain ⟨cost, hlow, hhigh, _, hcharge⟩ := charge_standard load h.penalty_eq h.nonneg h.le_limit
    record.lineNumber record.pointer (trail.distance + 5 + record.text.length)
  have hpenalty : (trail.pass .standard load record).penalty =
      .finite ((penalty + (if record.lineNumber < trail.lastLine then 10 else 0) + cost +
        if record.pointer ≤ trail.lastPointer then 15 else 0 : Int) : ℚ) := hcharge
  have hlimit := hpass.bearable
  rw [hpenalty, penaltyLimit_standard, finite_lt_finite, decide_eq_true_eq, Int.cast_lt] at hlimit
  have hlines : (trail.pass .standard load record).lines = trail.lines + 1 := rfl
  have hnonneg := h.nonneg
  refine ⟨_, hpenalty, ?_, Int.not_lt.mp hlimit, ?_, ?_⟩
  · split <;> split <;> omega
  · intro hzero
    omega
  · intro _
    rw [hlines]
    by_cases hfirst : trail.lines = 0
    · obtain ⟨hnone, hlast⟩ := h.first hfirst
      rw [if_neg (show ¬ record.lineNumber < trail.lastLine by omega)]
      split <;> omega
    · have hbefore := h.le_lines (Nat.pos_of_ne_zero hfirst)
      split <;> split <;> omega

/-- The penalty stays in bounds while a chain is followed. -/
theorem Passes.exists_isCharged {load : Nat} {trail final : Trail} {data : Bytes}
    {lines : List Stored} (h : Passes .standard load trail data lines final) {penalty : Int}
    (hcharged : IsCharged trail penalty) : ∃ total, IsCharged final total := by
  induction h generalizing penalty with
  | close => exact ⟨penalty, hcharged⟩
  | line hline _ ih =>
    obtain ⟨next, hnext⟩ := hcharged.pass hline
    exact ih hnext

/-- The score of a candidate is a whole number under the standard rules. -/
theorem exists_score_of_candidateAt {data : Bytes} {offset : Nat} {candidate : Candidate}
    (h : candidateAt .standard data offset = some candidate) :
    ∃ score : Int, candidate.score = .finite score := by
  rw [candidateAt_natCast] at h
  obtain ⟨low, high, rest, trail, _, _, _, _, hfollow, _, rfl⟩ := eq_candidate_of_judge _ _ _ _ h
  obtain ⟨lines, hpasses, hcount⟩ := (follow_eq_some_iff _ _ _ _).mp hfollow
  obtain ⟨penalty, hcharged⟩ := hpasses.exists_isCharged (isCharged_start (word low high))
  have hlines : trail.lines = lines.length := hpasses.lines_final.trans (Nat.zero_add _)
  exact ⟨_, score_standard (word_lt low high) (hlines ▸ hcount) hcharged.penalty_eq hcharged.nonneg
    hcharged.le_limit offset⟩

end TapeSalvage.Scan
