import Mathlib.Order.WithBot
import TapeSalvage.Proofs.Amount.Rounding

/-!
The order of amounts. The defined ones are ordered like the numbers with an infinite one at either
end. Sums and shares of amounts that are not negative are not negative, and nothing but the
difference of infinite ones, or a share by zero, makes an undefined one of defined ones.
-/
namespace TapeSalvage

def Divisor.IsPositive (divisor : Divisor) : Prop :=
  ∃ value, 0 < value ∧ divisor = .amount (.finite value)

def Divisor.IsCount (divisor : Divisor) : Prop := ∃ count : ℤ, 0 < count ∧ divisor = .ofInt count

theorem Divisor.IsCount.isPositive {divisor : Divisor} (h : divisor.IsCount) :
    divisor.IsPositive := by
  obtain ⟨count, hcount, rfl⟩ := h
  exact ⟨count, Int.cast_pos.mpr hcount, rfl⟩

namespace Amount

/-- Where a defined amount stands among the numbers. -/
def level : Amount → WithBot (WithTop ℚ)
  | finite value => ((value : WithTop ℚ) : WithBot (WithTop ℚ))
  | infinite isNegative => if isNegative then ⊥ else ⊤
  | undefined => ⊥

/-- Whether an amount is below another one or the same. An undefined amount is neither. -/
def AtMost (amount limit : Amount) : Prop := amount.lt limit = true ∨ amount.same limit = true

instance (amount limit : Amount) : Decidable (amount.AtMost limit) :=
  inferInstanceAs (Decidable (_ ∨ _))

def IsFinite (amount : Amount) : Prop := ∃ value, amount = finite value

variable {first second third : Amount}

theorem same_iff : first.same second = true ↔ first ≠ undefined ∧ first = second := by
  rw [same, decide_eq_true_eq]

theorem ne_undefined_of_lt (h : first.lt second = true) :
    first ≠ undefined ∧ second ≠ undefined := by
  constructor
  · rintro rfl
    simp [lt] at h
  · rintro rfl
    cases first <;> simp [lt] at h

theorem lt_iff (hfirst : first ≠ undefined) (hsecond : second ≠ undefined) :
    first.lt second = true ↔ first.level < second.level := by
  cases first with
  | undefined => contradiction
  | finite a =>
    cases second with
    | undefined => contradiction
    | finite b => simp [lt, level]
    | infinite isNegative =>
      cases isNegative with
      | false => simpa [lt, level] using WithBot.coe_lt_coe.mpr (WithTop.coe_lt_top a)
      | true => simp [lt, level]
  | infinite isNegative =>
    cases second with
    | undefined => contradiction
    | finite b => cases isNegative <;> simp [lt, level]
    | infinite isLow => cases isNegative <;> cases isLow <;> simp [lt, level]

theorem level_inj (hfirst : first ≠ undefined) (hsecond : second ≠ undefined) :
    first.level = second.level ↔ first = second := by
  cases first with
  | undefined => contradiction
  | finite a =>
    cases second with
    | undefined => contradiction
    | finite b => simp [level]
    | infinite isNegative => cases isNegative <;> simp [level]
  | infinite isNegative =>
    cases second with
    | undefined => contradiction
    | finite b => cases isNegative <;> simp [level]
    | infinite isLow => cases isNegative <;> cases isLow <;> simp [level]

theorem atMost_iff :
    first.AtMost second ↔
      first ≠ undefined ∧ second ≠ undefined ∧ first.level ≤ second.level := by
  constructor
  · rintro (hless | hsame)
    · obtain ⟨hfirst, hsecond⟩ := ne_undefined_of_lt hless
      exact ⟨hfirst, hsecond, ((lt_iff hfirst hsecond).mp hless).le⟩
    · obtain ⟨hfirst, rfl⟩ := same_iff.mp hsame
      exact ⟨hfirst, hfirst, le_refl _⟩
  · rintro ⟨hfirst, hsecond, hle⟩
    rcases hle.lt_or_eq with hless | heq
    · exact Or.inl ((lt_iff hfirst hsecond).mpr hless)
    · exact Or.inr (same_iff.mpr ⟨hfirst, (level_inj hfirst hsecond).mp heq⟩)

theorem finite_lt_finite (a b : ℚ) : (finite a).lt (finite b) = decide (a < b) := rfl

theorem atMost_finite_iff (a b : ℚ) : (finite a).AtMost (finite b) ↔ a ≤ b := by
  rw [atMost_iff]
  simp [level]

theorem atMost_self (h : first ≠ undefined) : first.AtMost first :=
  atMost_iff.mpr ⟨h, h, le_refl _⟩

theorem atMost_of_not_lt (hfirst : first ≠ undefined) (hsecond : second ≠ undefined)
    (h : ¬ second.lt first = true) : first.AtMost second := by
  rw [lt_iff hsecond hfirst, not_lt] at h
  exact atMost_iff.mpr ⟨hfirst, hsecond, h⟩

namespace AtMost

theorem ne_undefined (h : first.AtMost second) : first ≠ undefined ∧ second ≠ undefined :=
  ⟨(atMost_iff.mp h).1, (atMost_iff.mp h).2.1⟩

theorem trans (hlow : first.AtMost second) (hhigh : second.AtMost third) :
    first.AtMost third := by
  obtain ⟨hfirst, _, hle⟩ := atMost_iff.mp hlow
  obtain ⟨_, hthird, hge⟩ := atMost_iff.mp hhigh
  exact atMost_iff.mpr ⟨hfirst, hthird, hle.trans hge⟩

theorem trans_lt (hlow : first.AtMost second) (hhigh : second.lt third = true) :
    first.lt third = true := by
  obtain ⟨hfirst, hsecond, hle⟩ := atMost_iff.mp hlow
  obtain ⟨_, hthird⟩ := ne_undefined_of_lt hhigh
  rw [lt_iff hsecond hthird] at hhigh
  exact (lt_iff hfirst hthird).mpr (hle.trans_lt hhigh)

end AtMost

theorem greater_finite (a b : ℚ) : greater (finite a) (finite b) = finite (max a b) := by
  simp only [greater, reduceCtorEq, or_self, if_false, finite_lt_finite, decide_eq_true_eq]
  split
  · rename_i h
    rw [max_eq_right h.le]
  · rename_i h
    rw [max_eq_left (not_lt.mp h)]

theorem lesser_finite (a b : ℚ) : lesser (finite a) (finite b) = finite (min a b) := by
  simp only [lesser, reduceCtorEq, or_self, if_false, finite_lt_finite, decide_eq_true_eq]
  split
  · rename_i h
    rw [min_eq_right h.le]
  · rename_i h
    rw [min_eq_left (not_lt.mp h)]

section

variable {value : ℚ} {amount bound : Amount}

theorem ofRat_ne_undefined (value : ℚ) : ofRat value ≠ undefined := by
  unfold ofRat
  dsimp only
  split <;> simp

theorem zero_atMost_finite_iff (value : ℚ) : (0 : Amount).AtMost (finite value) ↔ 0 ≤ value := by
  rw [zero_eq, atMost_finite_iff]

theorem zero_atMost_infinite : (0 : Amount).AtMost (infinite false) := by
  rw [zero_eq]
  exact Or.inl rfl

/-- An amount that is not negative is a number that is not, or infinite. -/
theorem zero_atMost_cases (h : (0 : Amount).AtMost amount) :
    (∃ value, amount = finite value ∧ 0 ≤ value) ∨ amount = infinite false := by
  cases amount with
  | finite value => exact Or.inl ⟨value, rfl, (zero_atMost_finite_iff value).mp h⟩
  | infinite isNegative =>
    cases isNegative with
    | false => exact Or.inr rfl
    | true => simp [AtMost, zero_eq, lt, same] at h
  | undefined => exact absurd rfl h.ne_undefined.2

theorem zero_atMost_ofRat (h : 0 ≤ value) : (0 : Amount).AtMost (ofRat value) := by
  have hround := Binary.round_nonneg h
  unfold ofRat
  dsimp only
  split
  · exact (zero_atMost_finite_iff _).mpr hround
  · rw [decide_eq_false (not_lt.mpr hround)]
    exact zero_atMost_infinite

theorem AtMost.add (hfirst : (0 : Amount).AtMost first) (hsecond : (0 : Amount).AtMost second) :
    (0 : Amount).AtMost (first + second) := by
  rcases zero_atMost_cases hfirst with ⟨a, rfl, ha⟩ | rfl <;>
    rcases zero_atMost_cases hsecond with ⟨b, rfl, hb⟩ | rfl
  · exact zero_atMost_ofRat (add_nonneg ha hb)
  · exact zero_atMost_infinite
  · exact zero_atMost_infinite
  · exact zero_atMost_infinite

theorem zero_atMost_abs (h : amount ≠ undefined) : (0 : Amount).AtMost amount.abs := by
  cases amount with
  | finite value =>
    rw [Amount.abs, ratAbs_eq]
    exact (zero_atMost_finite_iff _).mpr (abs_nonneg value)
  | infinite isNegative => exact zero_atMost_infinite
  | undefined => exact absurd rfl h

theorem zero_atMost_times (count : ℕ) (h : 0 ≤ value) :
    (0 : Amount).AtMost ((finite value).times count) :=
  zero_atMost_ofRat (mul_nonneg (Nat.cast_nonneg count) h)

theorem zero_atMost_greater (h : amount ≠ undefined) : (0 : Amount).AtMost (greater 0 amount) := by
  have hzero : (0 : Amount) ≠ undefined := ofRat_ne_undefined _
  rw [greater, if_neg (not_or_intro hzero h)]
  split
  · rename_i hless
    exact Or.inl hless
  · exact atMost_self hzero

theorem zero_atMost_floor (h : (0 : Amount).AtMost amount) : (0 : Amount).AtMost amount.floor := by
  rcases zero_atMost_cases h with ⟨value, rfl, hvalue⟩ | rfl
  · have hfloor : 0 ≤ value.floor := Int.floor_nonneg.mpr hvalue
    exact (zero_atMost_finite_iff _).mpr (Int.cast_nonneg hfloor)
  · exact zero_atMost_infinite

theorem zero_atMost_share {total : Amount} {divisor : Divisor} (htotal : (0 : Amount).AtMost total)
    (hdivisor : divisor.IsPositive) : (0 : Amount).AtMost (share total divisor) := by
  obtain ⟨value, hvalue, rfl⟩ := hdivisor
  refine zero_atMost_floor ?_
  rcases zero_atMost_cases htotal with ⟨count, rfl, hcount⟩ | rfl
  · change (0 : Amount).AtMost (if value ≠ 0 then ofRat (count / value) else _)
    rw [if_pos hvalue.ne']
    exact zero_atMost_ofRat (div_nonneg hcount hvalue.le)
  · change (0 : Amount).AtMost (infinite (decide (value < 0) ^^ false))
    rw [decide_eq_false (not_lt.mpr hvalue.le)]
    exact zero_atMost_infinite

/-- The sum of defined amounts is defined if one of them is a number. -/
theorem add_ne_undefined (hfirst : first ≠ undefined) (hsecond : second ≠ undefined)
    (h : first.IsFinite ∨ second.IsFinite) : first + second ≠ undefined := by
  rcases h with ⟨a, rfl⟩ | ⟨b, rfl⟩
  · cases second with
    | finite b => exact ofRat_ne_undefined (a + b)
    | infinite isNegative => exact Amount.noConfusion
    | undefined => contradiction
  · cases first with
    | finite a => exact ofRat_ne_undefined (a + b)
    | infinite isNegative => exact Amount.noConfusion
    | undefined => contradiction

theorem IsFinite.neg (h : amount.IsFinite) : (-amount).IsFinite := by
  obtain ⟨value, rfl⟩ := h
  exact ⟨-value, rfl⟩

theorem neg_ne_undefined (h : amount ≠ undefined) : -amount ≠ undefined := by
  cases amount with
  | finite value => exact Amount.noConfusion
  | infinite isNegative => exact Amount.noConfusion
  | undefined => contradiction

theorem sub_ne_undefined (hfirst : first ≠ undefined) (hsecond : second ≠ undefined)
    (h : first.IsFinite ∨ second.IsFinite) : first - second ≠ undefined :=
  add_ne_undefined hfirst (neg_ne_undefined hsecond) (h.imp_right IsFinite.neg)

theorem IsFinite.ne_undefined (h : amount.IsFinite) : amount ≠ undefined := by
  obtain ⟨value, rfl⟩ := h
  exact Amount.noConfusion

theorem isFinite_ofRat (h : 2 * |value| + 1 < sizeLimit) : (ofRat value).IsFinite := by
  have hround := (Binary.abs_round_le value).trans_lt h
  refine ⟨Binary.round value, ?_⟩
  unfold ofRat
  dsimp only
  rw [ratAbs_eq, if_pos hround]

/-- The share of a small whole number by a whole number is a number. -/
theorem isFinite_share {total : ℤ} (htotal : total.natAbs ≤ exactLimit) {divisor : Divisor}
    (hdivisor : divisor.IsCount) : (share (ofInt total) divisor).IsFinite := by
  obtain ⟨count, hcount, rfl⟩ := hdivisor
  have hone : (1 : ℚ) ≤ count := Int.cast_one_le_of_pos hcount
  have hsmall : |(total : ℚ) / count| ≤ exactLimit := abs_div_le htotal hone
  have hbound : 2 * |(total : ℚ) / count| + 1 < sizeLimit := by
    calc 2 * |(total : ℚ) / count| + 1 ≤ 2 * exactLimit + 1 := by linarith
      _ < sizeLimit := by decide +kernel
  obtain ⟨quotient, hquotient⟩ := isFinite_ofRat hbound
  refine ⟨quotient.floor, ?_⟩
  rw [ofInt_of_small htotal]
  change ((if (count : ℚ) ≠ 0 then ofRat (total / count) else _) : Amount).floor = _
  rw [if_pos (Int.cast_ne_zero.mpr hcount.ne'), hquotient]
  rfl

/-- What is not above a number and not negative is a number. -/
theorem AtMost.isFinite (h : (0 : Amount).AtMost amount) (hbound : bound.IsFinite)
    (hle : ¬ bound.lt amount = true) : amount.IsFinite := by
  obtain ⟨most, rfl⟩ := hbound
  rcases zero_atMost_cases h with ⟨value, rfl, _⟩ | rfl
  · exact ⟨value, rfl⟩
  · exact absurd rfl hle

end

end Amount

end TapeSalvage
