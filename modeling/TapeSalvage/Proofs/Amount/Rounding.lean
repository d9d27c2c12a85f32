import Mathlib.Algebra.Order.Field.Power
import Mathlib.Data.Rat.Floor
import Mathlib.Tactic.Linarith
import Mathlib.Tactic.Ring
import TapeSalvage.Amount

/-!
Rounding to binary fractions. Rounding moves a number by at most half a unit of the last place that
is kept, and a number of no more digits than are kept by nothing. So small whole numbers are
reckoned with exactly, and so are their shares by a power of two.
-/
namespace TapeSalvage

theorem power_eq_zpow (base : ℕ) (exponent : ℤ) : power base exponent = (base : ℚ) ^ exponent := by
  unfold power
  split
  · rename_i h
    have hexponent : exponent = -(exponent.natAbs : ℤ) := by omega
    rw [Rat.mkRat_eq_div, hexponent, zpow_neg, zpow_natCast, Int.natAbs_neg, Int.natAbs_natCast,
      Nat.pow_eq, Nat.cast_pow, Int.cast_one, one_div]
  · rename_i h
    obtain ⟨count, rfl⟩ := Int.eq_ofNat_of_zero_le (Int.not_lt.mp h)
    rw [zpow_natCast, Int.toNat_natCast, Nat.pow_eq, Nat.cast_pow]

theorem power_two_pos (exponent : ℤ) : 0 < power 2 exponent := by
  rw [power_eq_zpow]
  exact zpow_pos two_pos exponent

theorem power_two_add (first second : ℤ) :
    power 2 (first + second) = power 2 first * power 2 second := by
  simp only [power_eq_zpow]
  exact zpow_add₀ two_ne_zero first second

theorem power_two_lt_iff (low high : ℤ) : power 2 low < power 2 high ↔ low < high := by
  rw [power_eq_zpow, power_eq_zpow]
  exact zpow_lt_zpow_iff_right₀ one_lt_two

theorem ratAbs_eq (value : ℚ) : value.abs = |value| := by
  unfold Rat.abs
  split
  · rename_i h
    exact (abs_of_nonneg h).symm
  · rename_i h
    exact (abs_of_neg (not_le.mp h)).symm

namespace Binary

theorem nearest_cases (value : ℚ) :
    (nearest value = ⌊value⌋ ∧ 2 * (value - ⌊value⌋) ≤ 1) ∨
      (nearest value = ⌊value⌋ + 1 ∧ 1 ≤ 2 * (value - ⌊value⌋)) := by
  have hfloor : value.floor = ⌊value⌋ := rfl
  unfold nearest
  dsimp only
  rw [hfloor]
  split
  · rename_i h
    left
    refine ⟨rfl, ?_⟩
    rcases h with h | ⟨h, _⟩ <;> exact h.le
  · rename_i h
    right
    rw [not_or] at h
    exact ⟨rfl, not_lt.mp h.1⟩

theorem abs_nearest_sub_le (value : ℚ) : |nearest value - value| ≤ 1 / 2 := by
  have hlow := Int.floor_le value
  have hhigh := Int.lt_floor_add_one value
  rw [abs_le]
  rcases nearest_cases value with ⟨h, hrest⟩ | ⟨h, hrest⟩
  · rw [h]
    constructor <;> linarith
  · rw [h]
    push_cast
    constructor <;> linarith

theorem nearest_intCast (value : ℤ) : nearest value = value := by
  rcases nearest_cases value with ⟨h, _⟩ | ⟨_, hrest⟩
  · rw [h, Int.floor_intCast]
  · rw [Int.floor_intCast] at hrest
    linarith

theorem nearest_nonneg {value : ℚ} (h : 0 ≤ value) : 0 ≤ nearest value := by
  have hfloor := Int.floor_nonneg.mpr h
  rcases nearest_cases value with ⟨h, _⟩ | ⟨h, _⟩ <;> omega

/-- The lengths of two numbers bound their quotient from below. -/
theorem zpow_le_div {number divisor : ℕ} (hnumber : number ≠ 0) (hdivisor : divisor ≠ 0) :
    (2 : ℚ) ^ ((number.log2 : ℤ) - divisor.log2 - 1) ≤ number / divisor := by
  have hlow : (2 : ℚ) ^ number.log2 ≤ number := by
    exact_mod_cast Nat.log2_self_le hnumber
  have hhigh : (divisor : ℚ) < 2 ^ (divisor.log2 + 1) := by
    exact_mod_cast Nat.lt_log2_self
  rw [le_div_iff₀ (Nat.cast_pos.mpr (Nat.pos_of_ne_zero hdivisor))]
  calc (2 : ℚ) ^ ((number.log2 : ℤ) - divisor.log2 - 1) * divisor
      ≤ 2 ^ ((number.log2 : ℤ) - divisor.log2 - 1) * 2 ^ ((divisor.log2 : ℤ) + 1) := by
        gcongr
        exact_mod_cast hhigh.le
    _ = 2 ^ number.log2 := by
        rw [← zpow_add₀ two_ne_zero, ← zpow_natCast]
        congr 1
        ring
    _ ≤ number := hlow

/-- A positive number is no less than its leading digit. -/
theorem power_leadingPlace_le {size : ℚ} (h : 0 < size) : power 2 (leadingPlace size) ≤ size := by
  unfold leadingPlace
  dsimp only
  split
  · assumption
  · have hnum : ((size.num.natAbs : ℤ) : ℚ) = size.num :=
      congrArg _ (Int.natAbs_of_nonneg (Rat.num_pos.mpr h).le)
    have hquotient : ((size.num.natAbs : ℕ) : ℚ) / size.den = size := by
      rw [← Int.cast_natCast, hnum, Rat.num_div_den]
    have hle := zpow_le_div (Int.natAbs_ne_zero.mpr (Rat.num_pos.mpr h).ne') size.den_nz
    rw [hquotient] at hle
    rwa [power_eq_zpow]

theorem round_eq (value : ℚ) :
    round value =
      nearest (value / power 2 (lastPlace |value|)) * power 2 (lastPlace |value|) := by
  rw [← ratAbs_eq]
  rfl

/-- Rounding moves a number by at most half a unit of its last place. -/
theorem abs_round_sub_le (value : ℚ) :
    |round value - value| ≤ power 2 (lastPlace |value|) / 2 := by
  have hunit := power_two_pos (lastPlace |value|)
  have hround : round value - value =
      (nearest (value / power 2 (lastPlace |value|)) - value / power 2 (lastPlace |value|)) *
        power 2 (lastPlace |value|) := by
    rw [sub_mul, div_mul_cancel₀ _ hunit.ne', round_eq]
  have hnear := abs_nearest_sub_le (value / power 2 (lastPlace |value|))
  rw [hround, abs_mul, abs_of_pos hunit]
  calc _ ≤ 1 / 2 * power 2 (lastPlace |value|) := mul_le_mul_of_nonneg_right hnear hunit.le
    _ = power 2 (lastPlace |value|) / 2 := by ring

theorem round_nonneg {value : ℚ} (h : 0 ≤ value) : 0 ≤ round value := by
  have hunit := power_two_pos (lastPlace |value|)
  have hnearest := nearest_nonneg (div_nonneg h hunit.le)
  rw [round_eq]
  exact mul_nonneg (Int.cast_nonneg hnearest) hunit.le

/-- The unit of the last place is small beside the number, unless it is the least of all. -/
theorem power_lastPlace_le {size : ℚ} (h : 0 < size) : power 2 (lastPlace size) ≤ size + 1 := by
  have hlead := power_leadingPlace_le h
  unfold lastPlace
  rcases max_cases (leadingPlace size - 52) (-1074) with ⟨hmax, _⟩ | ⟨hmax, _⟩
  · have hless := (power_two_lt_iff (leadingPlace size - 52) (leadingPlace size)).mpr (by omega)
    rw [hmax]
    linarith
  · have hless := (power_two_lt_iff (-1074) 0).mpr (by omega)
    have hone : power 2 0 = 1 := rfl
    rw [hmax]
    linarith

theorem abs_round_le (value : ℚ) : |round value| ≤ 2 * |value| + 1 := by
  rcases eq_or_ne value 0 with rfl | hvalue
  · decide +kernel
  · have hnear := abs_round_sub_le value
    have hunit := power_lastPlace_le (abs_pos.mpr hvalue)
    have hpos := abs_nonneg value
    calc |round value| = |(round value - value) + value| := by rw [sub_add_cancel]
      _ ≤ |round value - value| + |value| := abs_add_le _ _
      _ ≤ 2 * |value| + 1 := by linarith

theorem lastPlace_le {count place : ℤ} (hcount : count ≠ 0) (hsize : |count| < 2 ^ 53)
    (hplace : -1074 ≤ place) : lastPlace |count * power 2 place| ≤ place := by
  have hunit := power_two_pos place
  have hpos : 0 < |(count : ℚ) * power 2 place| :=
    abs_pos.mpr (mul_ne_zero (Int.cast_ne_zero.mpr hcount) hunit.ne')
  have hless : power 2 (leadingPlace |count * power 2 place|) < power 2 (53 + place) := by
    calc _ ≤ |(count : ℚ) * power 2 place| := power_leadingPlace_le hpos
      _ = |(count : ℚ)| * power 2 place := by rw [abs_mul, abs_of_pos hunit]
      _ < power 2 53 * power 2 place := by
        refine mul_lt_mul_of_pos_right ?_ hunit
        have h53 : power 2 53 = ((2 ^ 53 : ℤ) : ℚ) := rfl
        rw [h53, ← Int.cast_abs]
        exact Int.cast_lt.mpr hsize
      _ = power 2 (53 + place) := (power_two_add 53 place).symm
  have hlead := (power_two_lt_iff _ _).mp hless
  unfold lastPlace
  omega

/-- A number of no more digits than are kept stays as it is. -/
theorem round_mul_power {count place : ℤ} (hsize : |count| < 2 ^ 53) (hplace : -1074 ≤ place) :
    round (count * power 2 place) = count * power 2 place := by
  rcases eq_or_ne count 0 with rfl | hcount
  · rw [Int.cast_zero, zero_mul]
    decide +kernel
  · obtain ⟨spare, hspare⟩ := Int.le.dest (lastPlace_le hcount hsize hplace)
    have hunit := power_two_pos (lastPlace |count * power 2 place|)
    have hscaled : count * power 2 place / power 2 (lastPlace |count * power 2 place|) =
        ((count * 2 ^ spare : ℤ) : ℚ) := by
      rw [div_eq_iff hunit.ne']
      conv_lhs => rw [← hspare, power_two_add]
      have hpower : power 2 (spare : ℤ) = 2 ^ spare := by
        rw [power_eq_zpow, zpow_natCast]
        rfl
      rw [hpower]
      push_cast
      ring
    rw [round_eq, hscaled, nearest_intCast, ← hscaled, div_mul_cancel₀ _ hunit.ne']

end Binary

namespace Amount

open Binary (round_mul_power)

theorem ofRat_of_round_eq {value : ℚ} (hround : Binary.round value = value)
    (hsize : |value| < sizeLimit) : ofRat value = finite value := by
  unfold ofRat
  dsimp only
  rw [hround, ratAbs_eq, if_pos hsize]

theorem exactLimit_eq : exactLimit = 9007199254740992 := by decide

/-- Small whole numbers are amounts. -/
theorem round_intCast {value : ℤ} (h : value.natAbs ≤ exactLimit) : Binary.round value = value := by
  have hlimit := exactLimit_eq
  rcases Nat.lt_or_eq_of_le h with hless | heq
  · have hcount : |value| < 2 ^ 53 := by
      rw [Int.abs_eq_natAbs]
      omega
    have hround := round_mul_power hcount (show -1074 ≤ 0 by omega)
    have hone : power 2 0 = 1 := rfl
    rwa [hone, mul_one] at hround
  · have hends : value = 9007199254740992 ∨ value = -9007199254740992 := by omega
    rcases hends with rfl | rfl <;> decide +kernel

theorem exactLimit_lt_sizeLimit : ((exactLimit : ℕ) : ℚ) < sizeLimit := by decide +kernel

/-- The quotient by a whole number is not larger. -/
theorem abs_div_le {total : ℤ} (htotal : total.natAbs ≤ exactLimit) {divisor : ℚ}
    (hdivisor : 1 ≤ divisor) : |(total : ℚ) / divisor| ≤ exactLimit := by
  calc |(total : ℚ) / divisor| = |(total : ℚ)| / divisor := by
        rw [abs_div, abs_of_pos (by linarith : 0 < divisor)]
    _ ≤ |(total : ℚ)| := div_le_self (abs_nonneg _) hdivisor
    _ = ((total.natAbs : ℕ) : ℚ) := by
        rw [← Int.cast_abs, Int.abs_eq_natAbs, Int.cast_natCast]
    _ ≤ ((exactLimit : ℕ) : ℚ) := Nat.cast_le.mpr htotal

theorem ofInt_of_small {value : ℤ} (h : value.natAbs ≤ exactLimit) :
    ofInt value = finite value := by
  refine ofRat_of_round_eq (round_intCast h) ?_
  have hle := abs_div_le h (le_refl (1 : ℚ))
  rw [div_one] at hle
  exact hle.trans_lt exactLimit_lt_sizeLimit

theorem zero_eq : (0 : Amount) = finite 0 := ofInt_of_small (by decide)

theorem roundInt_eq_self {value : ℤ} (h : value.natAbs ≤ exactLimit) : roundInt value = value := by
  rw [roundInt, round_intCast h, Rat.floor_intCast]

theorem finite_add_finite {a b : ℤ} (h : (a + b).natAbs ≤ exactLimit) :
    finite a + finite b = finite ((a + b : ℤ) : ℚ) := by
  change ofRat ((a : ℚ) + b) = _
  rw [← Int.cast_add]
  exact ofInt_of_small h

theorem finite_sub_finite {a b : ℤ} (h : (a - b).natAbs ≤ exactLimit) :
    finite a - finite b = finite ((a - b : ℤ) : ℚ) := by
  change ofRat ((a : ℚ) + -b) = _
  rw [← sub_eq_add_neg, ← Int.cast_sub]
  exact ofInt_of_small h

theorem abs_finite (a : ℤ) : (finite a).abs = finite ((a.natAbs : ℤ) : ℚ) := by
  rw [Amount.abs, ratAbs_eq, ← Int.cast_abs, Int.abs_eq_natAbs]

theorem times_finite {count : ℕ} {a : ℤ} (h : (count * a).natAbs ≤ exactLimit) :
    (finite a).times count = finite ((count * a : ℤ) : ℚ) := by
  change ofRat ((count : ℚ) * a) = _
  rw [← Int.cast_natCast, ← Int.cast_mul]
  exact ofInt_of_small h

/-- The share of a small whole number by a power of two. -/
theorem share_two_pow {total : ℤ} (htotal : total.natAbs < exactLimit) {places : ℕ}
    (hplaces : places ≤ 1000) :
    share (finite total) (.ofInt (2 ^ places)) = finite ((total / 2 ^ places : ℤ) : ℚ) := by
  have hlimit := exactLimit_eq
  have hdivisor : (((2 ^ places : ℤ)) : ℚ) = ((2 ^ places : ℕ) : ℚ) := by push_cast; rfl
  have hone : (1 : ℚ) ≤ ((2 ^ places : ℕ) : ℚ) := Nat.one_le_cast.mpr Nat.one_le_two_pow
  have hround : Binary.round (total / ((2 ^ places : ℕ) : ℚ)) = total / ((2 ^ places : ℕ) : ℚ) := by
    have hquotient : (total : ℚ) / ((2 ^ places : ℕ) : ℚ) = total * power 2 (-(places : ℤ)) := by
      rw [power_eq_zpow, zpow_neg, zpow_natCast, Nat.cast_pow, div_eq_mul_inv]
    rw [hquotient]
    refine round_mul_power ?_ (by omega)
    rw [Int.abs_eq_natAbs]
    omega
  have hfloor : ((total : ℚ) / ((2 ^ places : ℕ) : ℚ)).floor = total / 2 ^ places := by
    change ⌊(total : ℚ) / ((2 ^ places : ℕ) : ℚ)⌋ = _
    rw [Rat.floor_intCast_div_natCast, Nat.cast_pow]
    rfl
  change ((if ((2 ^ places : ℤ) : ℚ) ≠ 0 then ofRat (total / ((2 ^ places : ℤ) : ℚ)) else _) :
    Amount).floor = _
  rw [hdivisor, if_pos (by positivity),
    ofRat_of_round_eq hround ((abs_div_le htotal.le hone).trans_lt exactLimit_lt_sizeLimit),
    floor, hfloor]

end Amount

end TapeSalvage
