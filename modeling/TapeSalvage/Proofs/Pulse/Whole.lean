import Mathlib.Algebra.Order.Ring.Abs
import Mathlib.Data.Rat.Lemmas
import TapeSalvage.Proofs.Pulse.Separation

/-!
Mixtures of three widths in whole numbers. A mean that is not a width misses it by no less than one
over the count, so rounds that move a centre at all do not end early, and the distances alone
decide.
-/
namespace TapeSalvage.Pulse

theorem exists_sum_eq_intCast {values : List Rat} (h : ∀ value ∈ values, value.den = 1) :
    ∃ total : Int, values.sum = total := by
  induction values with
  | nil => exact ⟨0, rfl⟩
  | cons value rest ih =>
    obtain ⟨total, htotal⟩ := ih fun value hvalue => h value (List.mem_cons_of_mem _ hvalue)
    have hvalue : (value.num : Rat) = value :=
      Rat.coe_int_num_of_den_eq_one (h _ List.mem_cons_self)
    refine ⟨value.num + total, ?_⟩
    rw [List.sum_cons, htotal, Int.cast_add, hvalue]

/-- The mean of whole numbers is a given whole number or misses it by one over the count. -/
theorem one_le_abs_mean_sub_mul {values : List Rat} (hne : values ≠ [])
    (h : ∀ value ∈ values, value.den = 1) {width : Rat} (hwidth : width.den = 1)
    (haway : mean values ≠ width) : 1 ≤ |mean values - width| * values.length := by
  have hpos := length_cast_pos hne
  obtain ⟨total, htotal⟩ := exists_sum_eq_intCast h
  have hwhole : (width.num : Rat) = width := Rat.coe_int_num_of_den_eq_one hwidth
  have hscaled : (mean values - width) * values.length =
      ((total - width.num * values.length : Int) : Rat) := by
    rw [mean, htotal, sub_mul, div_mul_cancel₀ _ hpos.ne']
    push_cast
    rw [hwhole]
  have hnonzero : total - width.num * values.length ≠ 0 := by
    intro hzero
    rw [hzero, Int.cast_zero, mul_eq_zero] at hscaled
    exact hscaled.elim (fun hsame => haway (sub_eq_zero.mp hsame)) hpos.ne'
  rw [← abs_of_pos hpos, ← abs_mul, hscaled, ← Int.cast_abs]
  exact_mod_cast Int.one_le_abs hnonzero

theorem mean_mul_length {values : List Rat} (hne : values ≠ []) :
    mean values * values.length = values.sum := div_mul_cancel₀ _ (length_cast_pos hne).ne'

/-- What sets the mean of all values apart from the mean of a part is the rest. -/
theorem mean_sub_mul_length {values : List Rat} {keep : Rat → Bool}
    (hkept : values.filter keep ≠ []) (hleft : values.filter (fun value => !keep value) ≠ []) :
    (mean values - mean (values.filter keep)) * values.length =
      (mean (values.filter fun value => !keep value) - mean (values.filter keep)) *
        (values.filter fun value => !keep value).length := by
  have hne : values ≠ [] := by
    rintro rfl
    exact hkept rfl
  have hperm := List.filter_append_perm keep values
  have hsum := hperm.sum_eq
  have hlength : ((values.filter keep ++ values.filter fun value => !keep value).length : Rat) =
      values.length := congrArg _ hperm.length_eq
  rw [List.sum_append] at hsum
  rw [List.length_append, Nat.cast_add] at hlength
  rw [sub_mul, sub_mul, mean_mul_length hne, mean_mul_length hleft, ← hsum, ← hlength, mul_add,
    mean_mul_length hkept]
  exact add_sub_add_left_eq_sub _ _ _

/-- Whether the rounds part three widths if every centre that moves moves far enough. -/
def IsSeparableByDistance (short medium long : Rat) (values : List Rat) : Prop :=
  match quarters short medium values with
  | (.short, .medium, .long) | (.short, .medium, .medium) | (.medium, .medium, .long) => True
  | (.medium, .medium, .medium) => mean values ≠ medium
  | (.short, .short, .long) => medium - short ≤ long - medium
  | (.short, .long, .long) => long - medium < medium - short
  | (.short, .short, .medium) => medium - short ≤ highMean short values - medium
  | (.medium, .long, .long) => long - medium < medium - lowMean long values
  | (.short, .short, .short) => medium - short < highMean short values - medium
  | (.long, .long, .long) => long - medium < medium - lowMean long values
  | _ => False

namespace IsMixture

variable {short medium long threshold : Rat} {values : List Rat}

theorem mean_lt_highMean (h : IsMixture short medium long values) :
    mean values < highMean short values := by
  have hlt := h.lower.trans h.highMean_bounds.1
  have hkept := List.ne_nil_of_mem h.medium_mem_above
  have hleft : short ∈ values.filter fun value => !decide (short < value) :=
    List.mem_filter.mpr ⟨h.short_mem, by simp⟩
  have hrest : mean (values.filter fun value => !decide (short < value)) <
      highMean short values := by
    refine mean_lt (fun value hvalue => ?_) hleft hlt
    have hnot : value ≤ short := by simpa using (List.mem_filter.mp hvalue).2
    exact hnot.trans hlt.le
  have hapart := mean_sub_mul_length hkept (List.ne_nil_of_mem hleft)
  have hdrop := mul_pos (sub_pos.mpr hrest) (length_cast_pos (List.ne_nil_of_mem hleft))
  rw [← highMean] at hapart
  exact lt_of_mul_lt_mul_right (by linarith) (Nat.cast_nonneg values.length)

theorem lowMean_lt_mean (h : IsMixture short medium long values) :
    lowMean long values < mean values := by
  have hlt := h.lowMean_bounds.2.trans h.upper
  have hkept := List.ne_nil_of_mem h.medium_mem_below
  have hleft : long ∈ values.filter fun value => !decide (value < long) :=
    List.mem_filter.mpr ⟨h.long_mem, by simp⟩
  have hrest : lowMean long values < mean (values.filter fun value => !decide (value < long)) := by
    refine lt_mean (fun value hvalue => ?_) hleft hlt
    have hnot : long ≤ value := by simpa using (List.mem_filter.mp hvalue).2
    exact hlt.le.trans hnot
  have hapart := mean_sub_mul_length hkept (List.ne_nil_of_mem hleft)
  have hrise := mul_pos (sub_pos.mpr hrest) (length_cast_pos (List.ne_nil_of_mem hleft))
  rw [← lowMean] at hapart
  exact lt_of_mul_lt_mul_right (by linarith) (Nat.cast_nonneg values.length)

end IsMixture

/-- The mean of some of the values is a given whole number or misses it by the threshold. -/
theorem le_abs_mean_sub {threshold : Rat} {values part : List Rat}
    (hwhole : ∀ value ∈ values, value.den = 1) (hfine : threshold * values.length ≤ 1)
    (hpart : part.Sublist values) (hne : part ≠ []) {width : Rat} (hwidth : width.den = 1)
    (haway : mean part ≠ width) : threshold ≤ |mean part - width| := by
  have hpos := length_cast_pos hne
  have hle : (part.length : Rat) ≤ values.length := Nat.cast_le.mpr hpart.length_le
  have hmiss := one_le_abs_mean_sub_mul hne (fun value hvalue => hwhole value (hpart.subset hvalue))
    hwidth haway
  rcases le_or_gt threshold 0 with hzero | hthreshold
  · exact hzero.trans (abs_nonneg _)
  · refine le_of_mul_le_mul_right ?_ hpos
    calc threshold * part.length ≤ threshold * values.length :=
          mul_le_mul_of_nonneg_left hle hthreshold.le
      _ ≤ 1 := hfine
      _ ≤ |mean part - width| * part.length := hmiss

/-- Twice a whole number less another is a whole number. -/
theorem den_two_mul_sub {a b : Rat} (ha : a.den = 1) (hb : b.den = 1) : (2 * a - b).den = 1 := by
  rw [← Rat.coe_int_num_of_den_eq_one ha, ← Rat.coe_int_num_of_den_eq_one hb]
  exact_mod_cast Rat.den_intCast (2 * a.num - b.num)

theorem moves_mean {threshold : Rat} {values part : List Rat}
    (hwhole : ∀ value ∈ values, value.den = 1) (hfine : threshold * values.length ≤ 1)
    (hpart : part.Sublist values) (hne : part ≠ []) {width : Rat} (hwidth : width ∈ values)
    (haway : mean part ≠ width) :
    Moves threshold width (mean part) ∧ Moves threshold (mean part) width := by
  have hmiss := le_abs_mean_sub hwhole hfine hpart hne (hwhole width hwidth) haway
  refine ⟨hmiss, ?_⟩
  rw [Moves, abs_sub_comm]
  exact hmiss

namespace IsMixture

variable {short medium long threshold : Rat} {values : List Rat}
  (h : IsMixture short medium long values) (hwhole : ∀ value ∈ values, value.den = 1)
  (hfine : threshold * values.length ≤ 1)
include h hwhole hfine

theorem moves_lowMean {width : Rat} (hwidth : width ∈ values) :
    Moves threshold width (lowMean long values) ∧ Moves threshold (lowMean long values) width := by
  refine moves_mean hwhole hfine List.filter_sublist
    (List.ne_nil_of_mem h.medium_mem_below) hwidth ?_
  change lowMean long values ≠ width
  rintro rfl
  exact h.lowMean_notMem (by simpa using (h.mem_iff _).mp hwidth)

theorem moves_highMean {width : Rat} (hwidth : width ∈ values) :
    Moves threshold width (highMean short values) ∧
      Moves threshold (highMean short values) width := by
  refine moves_mean hwhole hfine List.filter_sublist
    (List.ne_nil_of_mem h.medium_mem_above) hwidth ?_
  change highMean short values ≠ width
  rintro rfl
  exact h.highMean_notMem (by simpa using (h.mem_iff _).mp hwidth)

/-- Means on either side of a whole number are apart. -/
theorem moves_mean_highMean (hbelow : mean values - medium ≤ medium - short)
    (habove : medium - short < highMean short values - medium) :
    Moves threshold (mean values) (highMean short values) := by
  have hbetween := den_two_mul_sub (hwhole _ h.medium_mem) (hwhole _ h.short_mem)
  have hgap : 2 * medium - short < highMean short values := by linarith
  have hmiss := le_abs_mean_sub hwhole hfine List.filter_sublist
    (List.ne_nil_of_mem h.medium_mem_above) hbetween hgap.ne'
  rw [← highMean, abs_of_pos (sub_pos.mpr hgap)] at hmiss
  exact hmiss.trans ((sub_le_sub_left (by linarith) _).trans (le_abs_self _))

theorem moves_mean_lowMean (habove : medium - mean values ≤ long - medium)
    (hbelow : long - medium < medium - lowMean long values) :
    Moves threshold (mean values) (lowMean long values) := by
  have hbetween := den_two_mul_sub (hwhole _ h.medium_mem) (hwhole _ h.long_mem)
  have hgap : lowMean long values < 2 * medium - long := by linarith
  have hmiss := le_abs_mean_sub hwhole hfine List.filter_sublist
    (List.ne_nil_of_mem h.medium_mem_below) hbetween hgap.ne
  rw [← lowMean, abs_sub_comm, abs_of_pos (sub_pos.mpr hgap)] at hmiss
  rw [Moves, abs_sub_comm]
  exact hmiss.trans ((sub_le_sub_right (by linarith) _).trans (le_abs_self _))

/-- Whole numbers are parted by their distances alone, if they are not too many for the
threshold. -/
theorem isSeparable_iff_of_whole :
    IsSeparable threshold short medium long values ↔
      IsSeparableByDistance short medium long values := by
  have hquarters := quarters_mem h.lower.le values
  obtain ⟨hmean, hmean'⟩ := h.mean_bounds
  have hlow : ∀ {width : Rat}, width ∈ values → Moves threshold width (lowMean long values) ∧
      Moves threshold (lowMean long values) width := h.moves_lowMean hwhole hfine
  have hhigh : ∀ {width : Rat}, width ∈ values → Moves threshold width (highMean short values) ∧
      Moves threshold (highMean short values) width := h.moves_highMean hwhole hfine
  have hall : ∀ {width : Rat}, width ∈ values → mean values ≠ width →
      Moves threshold width (mean values) ∧ Moves threshold (mean values) width := by
    intro width hwidth haway
    exact moves_mean hwhole hfine (List.Sublist.refl _) (List.ne_nil_of_mem hwidth) hwidth haway
  rw [IsSeparable, IsSeparableByDistance]
  generalize quarters short medium values = atQuarters at hquarters ⊢
  simp only [List.mem_cons, List.not_mem_nil, or_false] at hquarters
  rcases hquarters with rfl | rfl | rfl | rfl | rfl | rfl | rfl | rfl | rfl | rfl
  · -- All seeds are short.
    constructor
    · rintro ⟨-, ⟨hfar, -⟩ | ⟨-, -, hfar, -⟩⟩
      · exact hfar.trans (sub_lt_sub_right h.mean_lt_highMean _)
      · exact hfar
    · intro hfar
      refine ⟨(hall h.short_mem hmean.ne').1, ?_⟩
      rcases lt_or_ge (medium - short) (mean values - medium) with hover | hunder
      · exact Or.inl ⟨hover, Or.inl (hall h.long_mem hmean'.ne).2, (hlow h.medium_mem).2⟩
      · exact Or.inr ⟨hunder, h.moves_mean_highMean hwhole hfine hunder hfar, hfar,
          Or.inl (hhigh h.long_mem).2, (hlow h.medium_mem).2⟩
  · exact ⟨fun hparts => hparts.2.1, fun hnear => ⟨(hhigh h.medium_mem).1, hnear,
      Or.inr (hhigh h.long_mem).2, (hlow h.medium_mem).2⟩⟩
  · exact ⟨And.left, fun hnear => ⟨hnear, (hlow h.short_mem).1, (hlow h.medium_mem).2⟩⟩
  · exact iff_of_true ⟨(hhigh h.medium_mem).1, (hhigh h.long_mem).2⟩ trivial
  · exact Iff.rfl
  · exact ⟨And.left, fun hnear => ⟨hnear, (hhigh h.long_mem).1, (hhigh h.medium_mem).2⟩⟩
  · -- All seeds are medium.
    constructor
    · rintro ⟨-, ⟨hover, -⟩ | ⟨hunder, -⟩⟩
      · exact hover.ne'
      · exact hunder.ne
    · intro haway
      refine ⟨(hall h.medium_mem haway).1, ?_⟩
      rcases lt_or_gt_of_ne haway with hunder | hover
      · exact Or.inr ⟨hunder, Or.inl (hall h.short_mem hmean.ne').2, (hhigh h.long_mem).2⟩
      · exact Or.inl ⟨hover, Or.inl (hall h.long_mem hmean'.ne).2, (hlow h.short_mem).2⟩
  · exact iff_of_true ⟨(hlow h.medium_mem).1, (hlow h.short_mem).2⟩ trivial
  · exact ⟨fun hparts => hparts.2.1, fun hnear => ⟨(hlow h.medium_mem).1, hnear,
      Or.inl (hlow h.short_mem).2, (hhigh h.medium_mem).2⟩⟩
  · -- All seeds are long.
    constructor
    · rintro ⟨-, ⟨hfar, -⟩ | ⟨-, -, hfar, -⟩⟩
      · exact hfar.trans (sub_lt_sub_left h.lowMean_lt_mean _)
      · exact hfar
    · intro hfar
      refine ⟨(hall h.long_mem hmean'.ne).1, ?_⟩
      rcases lt_or_ge (long - medium) (medium - mean values) with hunder | hover
      · exact Or.inl ⟨hunder, Or.inl (hall h.short_mem hmean.ne').2, (hhigh h.medium_mem).2⟩
      · exact Or.inr ⟨hover, h.moves_mean_lowMean hwhole hfine hover hfar, hfar,
          Or.inl (hlow h.short_mem).2, (hhigh h.medium_mem).2⟩

end IsMixture

end TapeSalvage.Pulse
