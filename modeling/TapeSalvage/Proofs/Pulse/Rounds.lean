import TapeSalvage.Proofs.Pulse.Bands
import TapeSalvage.Proofs.Pulse.Mixture

/-!
Rounds over a mixture of three widths. From centres that are widths or means of neighbouring widths,
a round leads to such centres again; which ones depends on the centre that is nearer to the medium
width.
-/
namespace TapeSalvage.Pulse

theorem abs_le_of_below {value near far : Rat} (h : far ≤ near) (hmid : near + far ≤ 2 * value) :
    |value - near| ≤ |value - far| := by
  have hfar := le_abs_self (value - far)
  rw [abs_le]
  constructor <;> linarith

theorem abs_le_of_above {value near far : Rat} (h : near ≤ far) (hmid : 2 * value ≤ near + far) :
    |value - near| ≤ |value - far| := by
  have hfar := neg_le_abs (value - far)
  rw [abs_le]
  constructor <;> linarith

theorem nearest_eq_zero {value a b c : Rat} (hb : |value - a| ≤ |value - b|)
    (hc : |value - a| ≤ |value - c|) : nearest value [a, b, c] = 0 := by
  rw [nearest_three, if_neg hb.not_gt, if_neg hc.not_gt]

theorem nearest_eq_one {value a b c : Rat} (ha : |value - b| < |value - a|)
    (hc : |value - b| ≤ |value - c|) : nearest value [a, b, c] = 1 := by
  rw [nearest_three, if_pos ha, if_neg hc.not_gt]

theorem nearest_eq_two {value a b c : Rat} (ha : |value - c| < |value - a|)
    (hb : |value - c| < |value - b|) : nearest value [a, b, c] = 2 := by
  rw [nearest_three, if_pos hb, if_pos ha, ite_self]

/-- A centre is nearest to itself. -/
theorem nearest_center {a b c : Rat} (hab : a ≠ b) (hac : a ≠ c) (hbc : b ≠ c) :
    nearest a [a, b, c] = 0 ∧ nearest b [a, b, c] = 1 ∧ nearest c [a, b, c] = 2 := by
  have hself : ∀ center other : Rat, |center - center| ≤ |center - other| := by
    intro center other
    rw [sub_self, abs_zero]
    exact abs_nonneg _
  have hclose : ∀ center other : Rat, other ≠ center → |center - center| < |center - other| := by
    intro center other hne
    rw [sub_self, abs_zero]
    exact abs_pos.mpr (sub_ne_zero.mpr hne.symm)
  exact ⟨nearest_eq_zero (hself a b) (hself a c), nearest_eq_one (hclose b a hab) (hself b c),
    nearest_eq_two (hclose c a hac) (hclose c b hbc)⟩

namespace IsMixture

variable {short medium long : Rat} {values : List Rat}

/-- Of equal centres the first takes all values. -/
theorem recenter_equal (h : IsMixture short medium long values) (x : Rat) :
    recenter values [x, x, x] = [mean values, x, x] := by
  rw [h.recenter_eq (nearest_eq_zero le_rfl le_rfl) (nearest_eq_zero le_rfl le_rfl)
    (nearest_eq_zero le_rfl le_rfl)]
  rfl

/-- Two centres on the shortest width leave the longest to the third, and the medium one too if that
is nearer. -/
theorem recenter_short_short (h : IsMixture short medium long values) {x : Rat} (hx : medium ≤ x)
    (hx' : x ≤ long) :
    recenter values [short, short, x] =
      if x - medium < medium - short then [short, short, highMean short values]
      else [lowMean long values, short, long] := by
  have hlower := h.lower
  have hupper := h.upper
  have hshort : nearest short [short, short, x] = 0 :=
    nearest_eq_zero le_rfl (abs_le_of_above (by linarith) (by linarith))
  have hlong : nearest long [short, short, x] = 2 :=
    nearest_eq_two (abs_lt_of_below (by linarith) (by linarith))
      (abs_lt_of_below (by linarith) (by linarith))
  split_ifs with hnear
  · have hmedium : nearest medium [short, short, x] = 2 :=
      nearest_eq_two (abs_lt_of_below (by linarith) (by linarith))
        (abs_lt_of_below (by linarith) (by linarith))
    rw [h.recenter_eq hshort hmedium hlong]
    rfl
  · have hmedium : nearest medium [short, short, x] = 0 :=
      nearest_eq_zero le_rfl (abs_le_of_above (by linarith) (by linarith))
    rw [h.recenter_eq hshort hmedium hlong]
    rfl

/-- Where the second and the third centre stand on the shortest width, the first takes the longest,
and the medium one too unless the second is nearer. -/
theorem recenter_over_short (h : IsMixture short medium long values) {x : Rat} (hx : short < x)
    (hx' : x ≤ long) :
    recenter values [x, short, short] =
      if medium - short < x - medium then [long, lowMean long values, short]
      else [highMean short values, short, short] := by
  have hshort : nearest short [x, short, short] = 1 :=
    nearest_eq_one (abs_lt_of_above hx (by linarith)) le_rfl
  have hlower := h.lower
  have hupper := h.upper
  have hlong : nearest long [x, short, short] = 0 :=
    nearest_eq_zero (abs_le_of_below hx.le (by linarith)) (abs_le_of_below hx.le (by linarith))
  split_ifs with hnear
  · have hmedium : nearest medium [x, short, short] = 1 :=
      nearest_eq_one (abs_lt_of_above hx (by linarith)) le_rfl
    rw [h.recenter_eq hshort hmedium hlong]
    rfl
  · have hmedium : nearest medium [x, short, short] = 0 :=
      nearest_eq_zero (abs_le_of_below hx.le (by linarith)) (abs_le_of_below hx.le (by linarith))
    rw [h.recenter_eq hshort hmedium hlong]
    rfl

/-- Where the second and the third centre stand on the longest width, the first takes the shortest,
and the medium one too unless the second is nearer. -/
theorem recenter_under_long (h : IsMixture short medium long values) {x : Rat} (hx : short ≤ x)
    (hx' : x < long) :
    recenter values [x, long, long] =
      if long - medium < medium - x then [short, highMean short values, long]
      else [lowMean long values, long, long] := by
  have hlower := h.lower
  have hupper := h.upper
  have hshort : nearest short [x, long, long] = 0 :=
    nearest_eq_zero (abs_le_of_above hx'.le (by linarith)) (abs_le_of_above hx'.le (by linarith))
  have hlong : nearest long [x, long, long] = 1 :=
    nearest_eq_one (abs_lt_of_below hx' (by linarith)) le_rfl
  split_ifs with hnear
  · have hmedium : nearest medium [x, long, long] = 1 :=
      nearest_eq_one (abs_lt_of_below hx' (by linarith)) le_rfl
    rw [h.recenter_eq hshort hmedium hlong]
    rfl
  · have hmedium : nearest medium [x, long, long] = 0 :=
      nearest_eq_zero (abs_le_of_above hx'.le (by linarith)) (abs_le_of_above hx'.le (by linarith))
    rw [h.recenter_eq hshort hmedium hlong]
    rfl

theorem recenter_over_medium (h : IsMixture short medium long values) {x : Rat} (hx : medium < x)
    (hx' : x ≤ long) :
    recenter values [x, medium, medium] = [long, lowMean long values, medium] := by
  have hlower := h.lower
  have hshort : nearest short [x, medium, medium] = 1 :=
    nearest_eq_one (abs_lt_of_above hx (by linarith)) le_rfl
  have hmedium : nearest medium [x, medium, medium] = 1 :=
    nearest_eq_one (abs_lt_of_above hx (by linarith)) le_rfl
  have hlong : nearest long [x, medium, medium] = 0 :=
    nearest_eq_zero (abs_le_of_below hx.le (by linarith)) (abs_le_of_below hx.le (by linarith))
  rw [h.recenter_eq hshort hmedium hlong]
  rfl

theorem recenter_under_medium (h : IsMixture short medium long values) {x : Rat} (hx : short ≤ x)
    (hx' : x < medium) :
    recenter values [x, medium, medium] = [short, highMean short values, medium] := by
  have hupper := h.upper
  have hshort : nearest short [x, medium, medium] = 0 :=
    nearest_eq_zero (abs_le_of_above hx'.le (by linarith)) (abs_le_of_above hx'.le (by linarith))
  have hmedium : nearest medium [x, medium, medium] = 1 :=
    nearest_eq_one (abs_lt_of_below hx' (by linarith)) le_rfl
  have hlong : nearest long [x, medium, medium] = 1 :=
    nearest_eq_one (abs_lt_of_below hx' (by linarith)) le_rfl
  rw [h.recenter_eq hshort hmedium hlong]
  rfl

theorem recenter_medium_medium_long (h : IsMixture short medium long values) :
    recenter values [medium, medium, long] = [lowMean long values, medium, long] := by
  have hlower := h.lower
  have hupper := h.upper
  have hshort : nearest short [medium, medium, long] = 0 :=
    nearest_eq_zero le_rfl (abs_le_of_above hupper.le (by linarith))
  have hmedium : nearest medium [medium, medium, long] = 0 :=
    nearest_eq_zero le_rfl (abs_le_of_above hupper.le (by linarith))
  have hlong : nearest long [medium, medium, long] = 2 :=
    nearest_eq_two (abs_lt_of_below hupper (by linarith)) (abs_lt_of_below hupper (by linarith))
  rw [h.recenter_eq hshort hmedium hlong]
  rfl

/-! Centres each of which is nearest to one width move to the widths. -/

theorem recenter_low_medium_long (h : IsMixture short medium long values) :
    recenter values [lowMean long values, medium, long] = [short, medium, long] := by
  obtain ⟨hlow, hlow'⟩ := h.lowMean_bounds
  have hupper := h.upper
  have hshort : nearest short [lowMean long values, medium, long] = 0 :=
    nearest_eq_zero (abs_le_of_above hlow'.le (by linarith))
      (abs_le_of_above (by linarith) (by linarith))
  have hmedium : nearest medium [lowMean long values, medium, long] = 1 :=
    nearest_eq_one (abs_lt_of_below hlow' (by linarith)) (abs_le_of_above hupper.le (by linarith))
  have hlong : nearest long [lowMean long values, medium, long] = 2 :=
    nearest_eq_two (abs_lt_of_below (by linarith) (by linarith))
      (abs_lt_of_below hupper (by linarith))
  rw [h.recenter_eq hshort hmedium hlong]
  rfl

theorem recenter_short_high_medium (h : IsMixture short medium long values) :
    recenter values [short, highMean short values, medium] = [short, long, medium] := by
  obtain ⟨hhigh, hhigh'⟩ := h.highMean_bounds
  have hlower := h.lower
  have hshort : nearest short [short, highMean short values, medium] = 0 :=
    nearest_eq_zero (abs_le_of_above (by linarith) (by linarith))
      (abs_le_of_above hlower.le (by linarith))
  have hmedium : nearest medium [short, highMean short values, medium] = 2 :=
    nearest_eq_two (abs_lt_of_below hlower (by linarith)) (abs_lt_of_above hhigh (by linarith))
  have hlong : nearest long [short, highMean short values, medium] = 1 :=
    nearest_eq_one (abs_lt_of_below (by linarith) (by linarith))
      (abs_le_of_below hhigh.le (by linarith))
  rw [h.recenter_eq hshort hmedium hlong]
  rfl

theorem recenter_low_short_long (h : IsMixture short medium long values)
    (hnear : medium - short ≤ long - medium) :
    recenter values [lowMean long values, short, long] = [medium, short, long] := by
  obtain ⟨hlow, hlow'⟩ := h.lowMean_bounds
  have hupper := h.upper
  have hshort : nearest short [lowMean long values, short, long] = 1 :=
    nearest_eq_one (abs_lt_of_above hlow (by linarith))
      (abs_le_of_above (by linarith) (by linarith))
  have hmedium : nearest medium [lowMean long values, short, long] = 0 :=
    nearest_eq_zero (abs_le_of_below hlow.le (by linarith))
      (abs_le_of_above (by linarith) (by linarith))
  have hlong : nearest long [lowMean long values, short, long] = 2 :=
    nearest_eq_two (abs_lt_of_below (by linarith) (by linarith))
      (abs_lt_of_below (by linarith) (by linarith))
  rw [h.recenter_eq hshort hmedium hlong]
  rfl

theorem recenter_short_high_long (h : IsMixture short medium long values)
    (hnear : long - medium < medium - short) :
    recenter values [short, highMean short values, long] = [short, medium, long] := by
  obtain ⟨hhigh, hhigh'⟩ := h.highMean_bounds
  have hlower := h.lower
  have hshort : nearest short [short, highMean short values, long] = 0 :=
    nearest_eq_zero (abs_le_of_above (by linarith) (by linarith))
      (abs_le_of_above (by linarith) (by linarith))
  have hmedium : nearest medium [short, highMean short values, long] = 1 :=
    nearest_eq_one (abs_lt_of_below (by linarith) (by linarith))
      (abs_le_of_above hhigh'.le (by linarith))
  have hlong : nearest long [short, highMean short values, long] = 2 :=
    nearest_eq_two (abs_lt_of_below (by linarith) (by linarith))
      (abs_lt_of_below hhigh' (by linarith))
  rw [h.recenter_eq hshort hmedium hlong]
  rfl

theorem recenter_long_low_medium (h : IsMixture short medium long values) :
    recenter values [long, lowMean long values, medium] = [long, short, medium] := by
  obtain ⟨hlow, hlow'⟩ := h.lowMean_bounds
  have hupper := h.upper
  have hshort : nearest short [long, lowMean long values, medium] = 1 :=
    nearest_eq_one (abs_lt_of_above (by linarith) (by linarith))
      (abs_le_of_above hlow'.le (by linarith))
  have hmedium : nearest medium [long, lowMean long values, medium] = 2 :=
    nearest_eq_two (abs_lt_of_above hupper (by linarith)) (abs_lt_of_below hlow' (by linarith))
  have hlong : nearest long [long, lowMean long values, medium] = 0 :=
    nearest_eq_zero (abs_le_of_below (by linarith) (by linarith))
      (abs_le_of_below hupper.le (by linarith))
  rw [h.recenter_eq hshort hmedium hlong]
  rfl

theorem recenter_long_low_short (h : IsMixture short medium long values)
    (hnear : medium - short ≤ long - medium) :
    recenter values [long, lowMean long values, short] = [long, medium, short] := by
  obtain ⟨hlow, hlow'⟩ := h.lowMean_bounds
  have hupper := h.upper
  have hshort : nearest short [long, lowMean long values, short] = 2 :=
    nearest_eq_two (abs_lt_of_above (by linarith) (by linarith))
      (abs_lt_of_above hlow (by linarith))
  have hmedium : nearest medium [long, lowMean long values, short] = 1 :=
    nearest_eq_one (abs_lt_of_above (by linarith) (by linarith))
      (abs_le_of_below hlow.le (by linarith))
  have hlong : nearest long [long, lowMean long values, short] = 0 :=
    nearest_eq_zero (abs_le_of_below (by linarith) (by linarith))
      (abs_le_of_below (by linarith) (by linarith))
  rw [h.recenter_eq hshort hmedium hlong]
  rfl

end IsMixture

end TapeSalvage.Pulse
