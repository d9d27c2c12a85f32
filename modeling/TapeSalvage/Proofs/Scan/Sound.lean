import TapeSalvage.Proofs.Amount.Order
import TapeSalvage.Proofs.Scan.Chain
import TapeSalvage.Scan.Search

/-!
Rules under which every score is defined. Sound rules divide by positive numbers, take no penalty
for a reward, and bound the penalty by a number. Then the penalty of a chain that is not given up is
a number, and what is earned is not negative, so that the one can be taken from the other.
-/
namespace TapeSalvage.Scan

open Amount

structure Rules.IsSound (rules : Rules) : Prop where
  usualLoad : rules.usualLoad.IsFinite
  closenessBonus : rules.closenessBonus.IsFinite
  closenessDivisor : rules.closenessDivisor.IsPositive
  lineWeight : ∃ value, rules.lineWeight = finite value ∧ 0 ≤ value
  descentPenalty : (0 : Amount).AtMost rules.descentPenalty
  mismatchPenalty : (0 : Amount).AtMost rules.mismatchPenalty
  mismatchDivisor : rules.mismatchDivisor.IsPositive
  stallPenalty : (0 : Amount).AtMost rules.stallPenalty
  penaltyLimit : rules.penaltyLimit.IsFinite

theorem isSound_standard : Rules.standard.IsSound where
  usualLoad := ⟨0x1001, by decide +kernel⟩
  closenessBonus := ⟨40, by decide +kernel⟩
  closenessDivisor := ⟨16, by decide +kernel, rfl⟩
  lineWeight := ⟨50, by decide +kernel, by decide +kernel⟩
  descentPenalty := by decide +kernel
  mismatchPenalty := by decide +kernel
  mismatchDivisor := ⟨4, by decide +kernel, rfl⟩
  stallPenalty := by decide +kernel
  penaltyLimit := ⟨400, by decide +kernel⟩

section

variable {rules : Rules}

theorem zero_atMost_zero : (0 : Amount).AtMost 0 := atMost_self (ofRat_ne_undefined _)

theorem zero_atMost_mismatchCost (hsound : rules.IsSound) (mismatch : ℕ) :
    (0 : Amount).AtMost (mismatchCost rules mismatch) := by
  unfold mismatchCost
  split
  · exact hsound.mismatchPenalty
  split
  · exact zero_atMost_zero
  · exact zero_atMost_share (zero_atMost_ofRat (Int.cast_nonneg (Int.natCast_nonneg mismatch)))
      hsound.mismatchDivisor

theorem zero_atMost_charge (hsound : rules.IsSound) (load : ℕ) {trail : Trail}
    (h : (0 : Amount).AtMost trail.penalty) (pointer line actual : ℕ) :
    (0 : Amount).AtMost (trail.charge rules load pointer line actual) := by
  have hdescent : (0 : Amount).AtMost
      (if line < trail.lastLine then rules.descentPenalty else 0) := by
    split
    · exact hsound.descentPenalty
    · exact zero_atMost_zero
  have hstall : (0 : Amount).AtMost
      (if pointer ≤ trail.lastPointer then rules.stallPenalty else 0) := by
    split
    · exact hsound.stallPenalty
    · exact zero_atMost_zero
  exact ((h.add hdescent).add (zero_atMost_mismatchCost hsound _)).add hstall

/-- The penalty stays a number that is not negative while a chain is followed. -/
theorem Passes.isFinite_penalty (hsound : rules.IsSound) {load : ℕ} {trail final : Trail}
    {data : Bytes} {lines : List Listing.Stored} (h : Passes rules load trail data lines final)
    (hnonneg : (0 : Amount).AtMost trail.penalty) (hfinite : trail.penalty.IsFinite) :
    final.penalty.IsFinite := by
  induction h with
  | close => exact hfinite
  | @line trail _ line _ _ hline _ ih =>
    have hnext : (0 : Amount).AtMost
        (trail.pass rules load (line.record trail.distance)).penalty :=
      zero_atMost_charge hsound load hnonneg _ _ _
    exact ih hnext (hnext.isFinite hsound.penaltyLimit hline.bearable)

theorem zero_atMost_closeness (hsound : rules.IsSound) (load : ℕ) :
    (0 : Amount).AtMost (closeness rules load) := by
  have hdistance := sub_ne_undefined (ofRat_ne_undefined ((load : ℤ) : ℚ))
    hsound.usualLoad.ne_undefined (Or.inr hsound.usualLoad)
  have hshare := zero_atMost_share (zero_atMost_abs hdistance) hsound.closenessDivisor
  exact zero_atMost_greater (sub_ne_undefined hsound.closenessBonus.ne_undefined
    hshare.ne_undefined.2 (Or.inl hsound.closenessBonus))

theorem score_ne_undefined (hsound : rules.IsSound) (offset load : ℕ) {trail : Trail}
    (h : trail.penalty.IsFinite) : (trail.candidate rules offset load).score ≠ undefined := by
  obtain ⟨weight, hweight, hnonneg⟩ := hsound.lineWeight
  have hearned : (0 : Amount).AtMost
      (rules.lineWeight.times trail.lines + closeness rules load) := by
    rw [hweight]
    exact (zero_atMost_times trail.lines hnonneg).add (zero_atMost_closeness hsound load)
  exact sub_ne_undefined hearned.ne_undefined.2 h.ne_undefined (Or.inr h)

end

end TapeSalvage.Scan
