import TapeSalvage.Proofs.Pulse.Rounds

/-!
When the rounds part three widths. From each of the centres that the seeds lead to, the rounds end
on the three widths exactly if a few distances compare rightly and no round on the way moves all
centres by less than the threshold.
-/
namespace TapeSalvage.Pulse

def Moves (threshold before after : Rat) : Prop := threshold ≤ |after - before|

theorem not_moves_self {threshold : Rat} (h : 0 < threshold) (center : Rat) :
    ¬ Moves threshold center center := by
  rw [Moves, sub_self, abs_zero, not_le]
  exact h

theorem isSettled_eq_false_iff (threshold a b c a' b' c' : Rat) :
    isSettled threshold [a, b, c] [a', b', c'] = false ↔
      Moves threshold a a' ∨ Moves threshold b b' ∨ Moves threshold c c' := by
  rw [Bool.eq_false_iff, ne_eq, isSettled_three]
  simp only [Moves, not_and_or, not_lt]

/-- Centres that a round leaves as they are stay so. -/
theorem settle_of_recenter_eq {values centers : List Rat} (h : recenter values centers = centers)
    (threshold : Rat) (rounds : Nat) : settle values threshold rounds centers = centers := by
  induction rounds with
  | zero => rfl
  | succ rounds ih =>
    rw [settle, h]
    split
    · rfl
    · exact ih

def EndsApart (short medium long : Rat) (values : List Rat) (threshold : Rat) (rounds : Nat)
    (centers : List Rat) : Prop :=
  (settle values threshold rounds centers).Perm [short, medium, long]

namespace IsMixture

variable {short medium long threshold : Rat} {values : List Rat} {rounds : Nat}

theorem nodup_of_perm (h : IsMixture short medium long values) {centers : List Rat}
    (hperm : centers.Perm [short, medium, long]) : centers.Nodup := by
  have hlower := h.lower
  have hupper := h.upper
  rw [hperm.nodup_iff]
  simp [hlower.ne, hupper.ne, (hlower.trans hupper).ne]

/-- A centre on each width takes the values of that width. -/
theorem recenter_of_perm (h : IsMixture short medium long values) {centers : List Rat}
    (hperm : centers.Perm [short, medium, long]) : recenter values centers = centers := by
  obtain ⟨a, b, c, rfl⟩ := List.length_eq_three.mp hperm.length_eq
  have hnodup := h.nodup_of_perm hperm
  simp only [List.nodup_cons, List.mem_cons, List.not_mem_nil, or_false, not_or] at hnodup
  obtain ⟨⟨hab, hac⟩, hbc, -⟩ := hnodup
  have hmem : ∀ value, value ∈ values ↔ value = a ∨ value = b ∨ value = c := by
    intro value
    have hsame : value ∈ [a, b, c] ↔ value ∈ [short, medium, long] := hperm.mem_iff
    simp only [List.mem_cons, List.not_mem_nil, or_false] at hsame
    rw [h.mem_iff, hsame]
  obtain ⟨hfirst, hsecond, hthird⟩ := nearest_center hab hac hbc
  have hown : ∀ {center : Rat} {i : Nat}, center ∈ values → nearest center [a, b, c] = i →
      (∀ value ∈ values, nearest value [a, b, c] = i → value = center) →
      meanOr center (bucket values [a, b, c] i) = center := by
    intro center i hcenter hat hall
    refine meanOr_of_forall_eq (mem_bucket.mpr ⟨hcenter, hat⟩) (fun value hvalue => ?_) center
    obtain ⟨hvalues, hnearest⟩ := mem_bucket.mp hvalue
    exact hall value hvalues hnearest
  rw [recenter_three, hown ((hmem a).mpr (Or.inl rfl)) hfirst ?_,
    hown ((hmem b).mpr (Or.inr (Or.inl rfl))) hsecond ?_,
    hown ((hmem c).mpr (Or.inr (Or.inr rfl))) hthird ?_]
  all_goals
    intro value hvalue hat
    rcases (hmem value).mp hvalue with rfl | rfl | rfl
  all_goals first | rfl | omega

theorem endsApart_of_perm (h : IsMixture short medium long values) {centers : List Rat}
    (hperm : centers.Perm [short, medium, long]) :
    EndsApart short medium long values threshold rounds centers := by
  rw [EndsApart, settle_of_recenter_eq (h.recenter_of_perm hperm)]
  exact hperm

theorem not_endsApart_of_recenter_eq {centers : List Rat}
    (hfixed : recenter values centers = centers) (hperm : ¬ centers.Perm [short, medium, long]) :
    ¬ EndsApart short medium long values threshold rounds centers := by
  rw [EndsApart, settle_of_recenter_eq hfixed]
  exact hperm

/-- Centres that are not the widths have to move, and far enough. -/
theorem endsApart_succ_iff {a b c a' b' c' : Rat}
    (hround : recenter values [a, b, c] = [a', b', c'])
    (hperm : ¬ [a, b, c].Perm [short, medium, long]) :
    EndsApart short medium long values threshold (rounds + 1) [a, b, c] ↔
      (Moves threshold a a' ∨ Moves threshold b b' ∨ Moves threshold c c') ∧
        EndsApart short medium long values threshold rounds [a', b', c'] := by
  rw [← isSettled_eq_false_iff]
  unfold EndsApart
  rw [settle, hround]
  cases hsettled : isSettled threshold [a, b, c] [a', b', c'] with
  | false => simp
  | true => simpa using hperm

theorem not_perm_twice_left (h : IsMixture short medium long values) (x y : Rat) :
    ¬ [x, x, y].Perm [short, medium, long] := by
  intro hperm
  have := h.nodup_of_perm hperm
  simp at this

theorem not_perm_twice_right (h : IsMixture short medium long values) (x y : Rat) :
    ¬ [x, y, y].Perm [short, medium, long] := by
  intro hperm
  have := h.nodup_of_perm hperm
  simp at this

theorem lowMean_notMem (h : IsMixture short medium long values) :
    lowMean long values ∉ [short, medium, long] := by
  obtain ⟨hlow, hlow'⟩ := h.lowMean_bounds
  simp [hlow.ne', hlow'.ne, (hlow'.trans h.upper).ne]

theorem highMean_notMem (h : IsMixture short medium long values) :
    highMean short values ∉ [short, medium, long] := by
  obtain ⟨hhigh, hhigh'⟩ := h.highMean_bounds
  simp [hhigh.ne', hhigh'.ne, (h.lower.trans hhigh).ne']

theorem not_perm_of_mem {x : Rat} {centers : List Rat} (hx : x ∉ [short, medium, long])
    (hmem : x ∈ centers) : ¬ centers.Perm [short, medium, long] :=
  fun hperm => hx (hperm.mem_iff.mp hmem)

section Parted

variable (h : IsMixture short medium long values) (hpos : 0 < threshold)
include h hpos

/-- Where one centre is off its width and a round moves it there, it only has to move far enough. -/
theorem endsApart_set_iff {center width : Rat} (widths : List Rat) (place : ℕ)
    (hwidth : widths[place]? = some width) (hcenter : center ∉ [short, medium, long])
    (hwidths : widths.Perm [short, medium, long])
    (hround : recenter values (widths.set place center) = widths) :
    EndsApart short medium long values threshold (rounds + 1) (widths.set place center) ↔
      Moves threshold center width := by
  obtain ⟨hplace, rfl⟩ := List.getElem?_eq_some_iff.mp hwidth
  have hperm := not_perm_of_mem hcenter (List.mem_set hplace center)
  have hends : EndsApart short medium long values threshold rounds widths :=
    h.endsApart_of_perm hwidths
  obtain ⟨a, b, c, rfl⟩ := List.length_eq_three.mp hwidths.length_eq
  have hcases : place = 0 ∨ place = 1 ∨ place = 2 := by
    simp only [List.length_cons, List.length_nil] at hplace
    omega
  rcases hcases with rfl | rfl | rfl
  all_goals
    simp only [List.set_cons_zero, List.set_cons_succ] at hround hperm ⊢
    rw [endsApart_succ_iff hround hperm, and_iff_left hends]
    simp [not_moves_self hpos]

theorem endsApart_low_medium_long_iff :
    EndsApart short medium long values threshold (rounds + 1) [lowMean long values, medium, long] ↔
      Moves threshold (lowMean long values) short :=
  h.endsApart_set_iff hpos [short, medium, long] 0 rfl h.lowMean_notMem (List.Perm.refl _)
    h.recenter_low_medium_long

theorem endsApart_short_high_medium_iff :
    EndsApart short medium long values threshold (rounds + 1)
        [short, highMean short values, medium] ↔
      Moves threshold (highMean short values) long :=
  h.endsApart_set_iff hpos [short, long, medium] 1 rfl h.highMean_notMem
    ((List.Perm.swap _ _ _).cons _) h.recenter_short_high_medium

theorem endsApart_low_short_long_iff (hnear : medium - short ≤ long - medium) :
    EndsApart short medium long values threshold (rounds + 1) [lowMean long values, short, long] ↔
      Moves threshold (lowMean long values) medium :=
  h.endsApart_set_iff hpos [medium, short, long] 0 rfl h.lowMean_notMem (List.Perm.swap _ _ _)
    (h.recenter_low_short_long hnear)

theorem endsApart_short_high_long_iff (hnear : long - medium < medium - short) :
    EndsApart short medium long values threshold (rounds + 1) [short, highMean short values, long] ↔
      Moves threshold (highMean short values) medium :=
  h.endsApart_set_iff hpos [short, medium, long] 1 rfl h.highMean_notMem (List.Perm.refl _)
    (h.recenter_short_high_long hnear)

theorem endsApart_long_low_medium_iff :
    EndsApart short medium long values threshold (rounds + 1) [long, lowMean long values, medium] ↔
      Moves threshold (lowMean long values) short :=
  h.endsApart_set_iff hpos [long, short, medium] 1 rfl h.lowMean_notMem
    ((List.Perm.swap _ _ _).trans ((List.Perm.swap _ _ _).cons _)) h.recenter_long_low_medium

theorem endsApart_long_low_short_iff (hnear : medium - short ≤ long - medium) :
    EndsApart short medium long values threshold (rounds + 1) [long, lowMean long values, short] ↔
      Moves threshold (lowMean long values) medium :=
  h.endsApart_set_iff hpos [long, medium, short] 1 rfl h.lowMean_notMem
    (List.reverse_perm [short, medium, long]) (h.recenter_long_low_short hnear)

theorem endsApart_short_short_high_iff :
    EndsApart short medium long values threshold (rounds + 2)
        [short, short, highMean short values] ↔
      medium - short ≤ highMean short values - medium ∧
      (Moves threshold short (lowMean long values) ∨ Moves threshold (highMean short values) long) ∧
      Moves threshold (lowMean long values) medium := by
  obtain ⟨hhigh, hhigh'⟩ := h.highMean_bounds
  have hround := h.recenter_short_short hhigh.le hhigh'.le
  have hperm := h.not_perm_twice_left short (highMean short values)
  by_cases hnear : highMean short values - medium < medium - short
  · rw [if_pos hnear] at hround
    exact iff_of_false (not_endsApart_of_recenter_eq hround hperm) fun hfar => hfar.1.not_gt hnear
  · rw [if_neg hnear] at hround
    have hfar := not_lt.mp hnear
    rw [endsApart_succ_iff hround hperm, h.endsApart_low_short_long_iff hpos (by linarith)]
    simp only [not_moves_self hpos, false_or, hfar, true_and]

theorem endsApart_short_short_long_iff :
    EndsApart short medium long values threshold (rounds + 2) [short, short, long] ↔
      medium - short ≤ long - medium ∧ Moves threshold short (lowMean long values) ∧
      Moves threshold (lowMean long values) medium := by
  obtain ⟨hhigh, hhigh'⟩ := h.highMean_bounds
  have hround := h.recenter_short_short h.upper.le le_rfl
  have hperm := h.not_perm_twice_left short long
  by_cases hnear : long - medium < medium - short
  · -- The third centre keeps the medium width for good.
    have hstay := h.recenter_short_short hhigh.le hhigh'.le
    have hstuck : highMean short values - medium < medium - short := by linarith
    rw [if_pos hnear] at hround
    rw [if_pos hstuck] at hstay
    rw [endsApart_succ_iff hround hperm]
    exact iff_of_false
      (fun hends => not_endsApart_of_recenter_eq hstay (h.not_perm_twice_left _ _) hends.2)
      fun hfar => hfar.1.not_gt hnear
  · rw [if_neg hnear] at hround
    have hfar := not_lt.mp hnear
    rw [endsApart_succ_iff hround hperm, h.endsApart_low_short_long_iff hpos hfar]
    simp only [not_moves_self hpos, or_false, hfar, true_and]

theorem endsApart_short_short_medium_iff :
    EndsApart short medium long values threshold (rounds + 3) [short, short, medium] ↔
      Moves threshold medium (highMean short values) ∧
      medium - short ≤ highMean short values - medium ∧
      (Moves threshold short (lowMean long values) ∨ Moves threshold (highMean short values) long) ∧
      Moves threshold (lowMean long values) medium := by
  have hround := h.recenter_short_short le_rfl h.upper.le
  rw [sub_self, if_pos (sub_pos.mpr h.lower)] at hround
  rw [endsApart_succ_iff hround (h.not_perm_twice_left short medium),
    h.endsApart_short_short_high_iff hpos]
  simp only [not_moves_self hpos, false_or]

theorem endsApart_low_long_long_iff :
    EndsApart short medium long values threshold (rounds + 2) [lowMean long values, long, long] ↔
      long - medium < medium - lowMean long values ∧
      (Moves threshold (lowMean long values) short ∨ Moves threshold long (highMean short values)) ∧
      Moves threshold (highMean short values) medium := by
  obtain ⟨hlow, hlow'⟩ := h.lowMean_bounds
  have hupper := h.upper
  have hround := h.recenter_under_long hlow.le (hlow'.trans hupper)
  have hperm := h.not_perm_twice_right (lowMean long values) long
  by_cases hnear : long - medium < medium - lowMean long values
  · rw [if_pos hnear] at hround
    rw [endsApart_succ_iff hround hperm, h.endsApart_short_high_long_iff hpos (by linarith)]
    simp only [not_moves_self hpos, or_false, hnear, true_and]
  · rw [if_neg hnear] at hround
    exact iff_of_false (not_endsApart_of_recenter_eq hround hperm) fun hfar => hnear hfar.1

theorem endsApart_short_long_long_iff :
    EndsApart short medium long values threshold (rounds + 2) [short, long, long] ↔
      long - medium < medium - short ∧ Moves threshold long (highMean short values) ∧
      Moves threshold (highMean short values) medium := by
  obtain ⟨hlow, hlow'⟩ := h.lowMean_bounds
  have hupper := h.upper
  have hround := h.recenter_under_long le_rfl (h.lower.trans hupper)
  have hperm := h.not_perm_twice_right short long
  by_cases hnear : long - medium < medium - short
  · rw [if_pos hnear] at hround
    rw [endsApart_succ_iff hround hperm, h.endsApart_short_high_long_iff hpos hnear]
    simp only [not_moves_self hpos, false_or, or_false, hnear, true_and]
  · -- The first centre keeps the medium width for good.
    have hstay := h.recenter_under_long hlow.le (hlow'.trans hupper)
    have hstuck : ¬ long - medium < medium - lowMean long values := by linarith
    rw [if_neg hnear] at hround
    rw [if_neg hstuck] at hstay
    rw [endsApart_succ_iff hround hperm]
    exact iff_of_false
      (fun hends => not_endsApart_of_recenter_eq hstay (h.not_perm_twice_right _ _) hends.2)
      fun hfar => hnear hfar.1

theorem endsApart_medium_long_long_iff :
    EndsApart short medium long values threshold (rounds + 3) [medium, long, long] ↔
      Moves threshold medium (lowMean long values) ∧
      long - medium < medium - lowMean long values ∧
      (Moves threshold (lowMean long values) short ∨ Moves threshold long (highMean short values)) ∧
      Moves threshold (highMean short values) medium := by
  have hround := h.recenter_under_long h.lower.le h.upper
  rw [sub_self, if_neg (sub_pos.mpr h.upper).not_gt] at hround
  rw [endsApart_succ_iff hround (h.not_perm_twice_right medium long),
    h.endsApart_low_long_long_iff hpos]
  simp only [not_moves_self hpos, or_false]

theorem endsApart_high_short_short_iff :
    EndsApart short medium long values threshold (rounds + 2)
        [highMean short values, short, short] ↔
      medium - short < highMean short values - medium ∧
      (Moves threshold (highMean short values) long ∨ Moves threshold short (lowMean long values)) ∧
      Moves threshold (lowMean long values) medium := by
  obtain ⟨hhigh, hhigh'⟩ := h.highMean_bounds
  have hround := h.recenter_over_short (h.lower.trans hhigh) hhigh'.le
  have hperm := h.not_perm_twice_right (highMean short values) short
  by_cases hfar : medium - short < highMean short values - medium
  · rw [if_pos hfar] at hround
    rw [endsApart_succ_iff hround hperm, h.endsApart_long_low_short_iff hpos (by linarith)]
    simp only [not_moves_self hpos, or_false, hfar, true_and]
  · rw [if_neg hfar] at hround
    exact iff_of_false (not_endsApart_of_recenter_eq hround hperm) fun hmoves => hfar hmoves.1

theorem endsApart_short_short_short_iff :
    EndsApart short medium long values threshold (rounds + 4) [short, short, short] ↔
      Moves threshold short (mean values) ∧
      ((medium - short < mean values - medium ∧
          (Moves threshold (mean values) long ∨ Moves threshold short (lowMean long values)) ∧
          Moves threshold (lowMean long values) medium) ∨
        (mean values - medium ≤ medium - short ∧
          Moves threshold (mean values) (highMean short values) ∧
          medium - short < highMean short values - medium ∧
          (Moves threshold (highMean short values) long ∨
            Moves threshold short (lowMean long values)) ∧
          Moves threshold (lowMean long values) medium)) := by
  obtain ⟨hmean, hmean'⟩ := h.mean_bounds
  have hround := h.recenter_over_short hmean hmean'.le
  have hperm := h.not_perm_twice_right (mean values) short
  rw [endsApart_succ_iff (h.recenter_equal short) (h.not_perm_twice_left short short)]
  simp only [not_moves_self hpos, or_false]
  by_cases hfar : medium - short < mean values - medium
  · rw [if_pos hfar] at hround
    rw [endsApart_succ_iff hround hperm, h.endsApart_long_low_short_iff hpos (by linarith)]
    simp only [not_moves_self hpos, or_false, hfar, hfar.not_ge, true_and, false_and]
  · rw [if_neg hfar] at hround
    rw [endsApart_succ_iff hround hperm, h.endsApart_high_short_short_iff hpos]
    simp only [not_moves_self hpos, or_false, hfar, not_lt.mp hfar, true_and, false_and, false_or]

theorem endsApart_long_long_long_iff :
    EndsApart short medium long values threshold (rounds + 4) [long, long, long] ↔
      Moves threshold long (mean values) ∧
      ((long - medium < medium - mean values ∧
          (Moves threshold (mean values) short ∨ Moves threshold long (highMean short values)) ∧
          Moves threshold (highMean short values) medium) ∨
        (medium - mean values ≤ long - medium ∧
          Moves threshold (mean values) (lowMean long values) ∧
          long - medium < medium - lowMean long values ∧
          (Moves threshold (lowMean long values) short ∨
            Moves threshold long (highMean short values)) ∧
          Moves threshold (highMean short values) medium)) := by
  obtain ⟨hmean, hmean'⟩ := h.mean_bounds
  have hround := h.recenter_under_long hmean.le hmean'
  have hperm := h.not_perm_twice_right (mean values) long
  rw [endsApart_succ_iff (h.recenter_equal long) (h.not_perm_twice_left long long)]
  simp only [not_moves_self hpos, or_false]
  by_cases hnear : long - medium < medium - mean values
  · rw [if_pos hnear] at hround
    rw [endsApart_succ_iff hround hperm, h.endsApart_short_high_long_iff hpos (by linarith)]
    simp only [not_moves_self hpos, or_false, hnear, hnear.not_ge, true_and, false_and]
  · rw [if_neg hnear] at hround
    rw [endsApart_succ_iff hround hperm, h.endsApart_low_long_long_iff hpos]
    simp only [not_moves_self hpos, or_false, hnear, not_lt.mp hnear, true_and, false_and, false_or]

theorem endsApart_medium_medium_medium_iff :
    EndsApart short medium long values threshold (rounds + 3) [medium, medium, medium] ↔
      Moves threshold medium (mean values) ∧
      ((medium < mean values ∧
          (Moves threshold (mean values) long ∨ Moves threshold medium (lowMean long values)) ∧
          Moves threshold (lowMean long values) short) ∨
        (mean values < medium ∧
          (Moves threshold (mean values) short ∨ Moves threshold medium (highMean short values)) ∧
          Moves threshold (highMean short values) long)) := by
  obtain ⟨hmean, hmean'⟩ := h.mean_bounds
  have hperm := h.not_perm_twice_right (mean values) medium
  have hround := h.recenter_equal medium
  rw [endsApart_succ_iff hround (h.not_perm_twice_left medium medium)]
  simp only [not_moves_self hpos, or_false]
  rcases lt_trichotomy medium (mean values) with hover | hequal | hunder
  · rw [endsApart_succ_iff (h.recenter_over_medium hover hmean'.le) hperm,
      h.endsApart_long_low_medium_iff hpos]
    simp only [not_moves_self hpos, or_false, hover, hover.not_gt, true_and, false_and]
  · rw [← hequal]
    simp only [not_moves_self hpos, false_and]
  · rw [endsApart_succ_iff (h.recenter_under_medium hmean.le hunder) hperm,
      h.endsApart_short_high_medium_iff hpos]
    simp only [not_moves_self hpos, or_false, hunder, hunder.not_gt, true_and, false_and, false_or]

theorem endsApart_short_medium_medium_iff :
    EndsApart short medium long values threshold (rounds + 2) [short, medium, medium] ↔
      Moves threshold medium (highMean short values) ∧
      Moves threshold (highMean short values) long := by
  rw [endsApart_succ_iff (h.recenter_under_medium le_rfl h.lower)
    (h.not_perm_twice_right short medium), h.endsApart_short_high_medium_iff hpos]
  simp only [not_moves_self hpos, false_or, or_false]

theorem endsApart_medium_medium_long_iff :
    EndsApart short medium long values threshold (rounds + 2) [medium, medium, long] ↔
      Moves threshold medium (lowMean long values) ∧
      Moves threshold (lowMean long values) short := by
  rw [endsApart_succ_iff h.recenter_medium_medium_long (h.not_perm_twice_left medium long),
    h.endsApart_low_medium_long_iff hpos]
  simp only [not_moves_self hpos, or_false]

end Parted

end IsMixture

end TapeSalvage.Pulse
