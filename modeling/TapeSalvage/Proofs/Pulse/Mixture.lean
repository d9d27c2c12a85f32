import TapeSalvage.Proofs.Pulse.Exact

/-!
Mixtures of three widths. However many values there are of each width, a bucket takes all values of
a width or none, so what a round makes of a centre depends only on which widths are nearest to it:
it is one of the widths, the mean of two neighbouring ones, or the mean of all values.
-/
namespace TapeSalvage.Pulse

/-- Whether values take exactly three widths, each of them at least once. -/
structure IsMixture (short medium long : Rat) (values : List Rat) : Prop where
  lower : short < medium
  upper : medium < long
  mem_iff : ∀ value, value ∈ values ↔ value = short ∨ value = medium ∨ value = long

def mean (values : List Rat) : Rat := values.sum / values.length

def lowMean (long : Rat) (values : List Rat) : Rat := mean (values.filter (· < long))

def highMean (short : Rat) (values : List Rat) : Rat := mean (values.filter (short < ·))

theorem mean_of_forall_eq {values : List Rat} {width : Rat} (hne : values ≠ [])
    (h : ∀ value ∈ values, value = width) : mean values = width := by
  have hlength : (values.length : Rat) ≠ 0 := (length_cast_pos hne).ne'
  rw [mean, List.eq_replicate_of_mem h, List.sum_replicate, List.length_replicate, nsmul_eq_mul,
    mul_div_cancel_left₀ _ hlength]

theorem meanOr_of_forall_eq {bucket : List Rat} {width : Rat} (hmem : width ∈ bucket)
    (h : ∀ value ∈ bucket, value = width) (center : Rat) : meanOr center bucket = width := by
  have hne := List.ne_nil_of_mem hmem
  rw [meanOr_of_ne_nil center hne]
  exact mean_of_forall_eq hne h

theorem mean_lt {values : List Rat} {bound value : Rat} (h : ∀ value ∈ values, value ≤ bound)
    (hmem : value ∈ values) (hlt : value < bound) : mean values < bound := by
  have hpos := length_cast_pos (List.ne_nil_of_mem hmem)
  have hsum := List.sum_lt_sum id (fun _ => bound) h ⟨value, hmem, hlt⟩
  rw [List.map_id, List.map_const', List.sum_replicate, nsmul_eq_mul] at hsum
  rw [mean, div_lt_iff₀ hpos]
  linarith

theorem lt_mean {values : List Rat} {bound value : Rat} (h : ∀ value ∈ values, bound ≤ value)
    (hmem : value ∈ values) (hlt : bound < value) : bound < mean values := by
  have hpos := length_cast_pos (List.ne_nil_of_mem hmem)
  have hsum := List.sum_lt_sum (fun _ => bound) id h ⟨value, hmem, hlt⟩
  rw [List.map_id, List.map_const', List.sum_replicate, nsmul_eq_mul] at hsum
  rw [mean, lt_div_iff₀ hpos]
  linarith

/-- What a round makes of a centre that takes some of the widths: the mean of what it takes. -/
def pooled (short medium long : Rat) (values : List Rat) (center : Rat) :
    (takesShort takesMedium takesLong : Bool) → Rat
  | false, false, false => center
  | true, false, false => short
  | false, true, false => medium
  | false, false, true => long
  | true, true, false => lowMean long values
  | false, true, true => highMean short values
  | true, false, true => mean (values.filter (· ≠ medium))
  | true, true, true => mean values

namespace IsMixture

variable {short medium long : Rat} {values : List Rat}

theorem short_mem (h : IsMixture short medium long values) : short ∈ values :=
  (h.mem_iff short).mpr (Or.inl rfl)

theorem medium_mem (h : IsMixture short medium long values) : medium ∈ values :=
  (h.mem_iff medium).mpr (Or.inr (Or.inl rfl))

theorem long_mem (h : IsMixture short medium long values) : long ∈ values :=
  (h.mem_iff long).mpr (Or.inr (Or.inr rfl))

theorem short_le (h : IsMixture short medium long values) : ∀ value ∈ values, short ≤ value := by
  intro value hvalue
  rcases (h.mem_iff value).mp hvalue with rfl | rfl | rfl
  · exact le_rfl
  · exact h.lower.le
  · exact (h.lower.trans h.upper).le

theorem le_long (h : IsMixture short medium long values) : ∀ value ∈ values, value ≤ long := by
  intro value hvalue
  rcases (h.mem_iff value).mp hvalue with rfl | rfl | rfl
  · exact (h.lower.trans h.upper).le
  · exact h.upper.le
  · exact le_rfl

/-- Two filters that agree on the three widths keep the same values. -/
theorem filter_congr (h : IsMixture short medium long values) {keep holds : Rat → Bool}
    (hshort : keep short = holds short) (hmedium : keep medium = holds medium)
    (hlong : keep long = holds long) : values.filter keep = values.filter holds := by
  apply List.filter_congr
  intro value hvalue
  rcases (h.mem_iff value).mp hvalue with rfl | rfl | rfl
  · exact hshort
  · exact hmedium
  · exact hlong

/-- The values kept by a filter are all of the widths that it keeps. -/
theorem mem_filter_iff (h : IsMixture short medium long values) (keep : Rat → Bool) (value : Rat) :
    value ∈ values.filter keep ↔ (value = short ∧ keep short = true) ∨
      (value = medium ∧ keep medium = true) ∨ (value = long ∧ keep long = true) := by
  rw [List.mem_filter, h.mem_iff]
  constructor
  · rintro ⟨rfl | rfl | rfl, hkeep⟩
    · exact Or.inl ⟨rfl, hkeep⟩
    · exact Or.inr (Or.inl ⟨rfl, hkeep⟩)
    · exact Or.inr (Or.inr ⟨rfl, hkeep⟩)
  · rintro (⟨rfl, hkeep⟩ | ⟨rfl, hkeep⟩ | ⟨rfl, hkeep⟩)
    · exact ⟨Or.inl rfl, hkeep⟩
    · exact ⟨Or.inr (Or.inl rfl), hkeep⟩
    · exact ⟨Or.inr (Or.inr rfl), hkeep⟩

theorem meanOr_filter (h : IsMixture short medium long values) (center : Rat) (keep : Rat → Bool) :
    meanOr center (values.filter keep) =
      pooled short medium long values center (keep short) (keep medium) (keep long) := by
  have hlower := h.lower
  have hupper := h.upper
  have hmem := h.mem_filter_iff keep
  have hmean : ∀ {width : Rat}, width ∈ values → keep width = true →
      meanOr center (values.filter keep) = mean (values.filter keep) := by
    intro width hwidth hkeep
    exact meanOr_of_ne_nil center (List.ne_nil_of_mem (List.mem_filter.mpr ⟨hwidth, hkeep⟩))
  have hsingle : ∀ {width : Rat}, width ∈ values → keep width = true →
      (∀ value ∈ values.filter keep, value = width) →
      meanOr center (values.filter keep) = width := by
    intro width hwidth hkeep hall
    exact meanOr_of_forall_eq (List.mem_filter.mpr ⟨hwidth, hkeep⟩) hall center
  rcases hs : keep short <;> rcases hm : keep medium <;> rcases hl : keep long <;> rw [pooled]
  · have hnil : values.filter keep = [] := by
      refine List.eq_nil_iff_forall_not_mem.mpr fun value hvalue => ?_
      simpa [hs, hm, hl] using (hmem value).mp hvalue
    rw [hnil]
    rfl
  · refine hsingle h.long_mem hl fun value hvalue => ?_
    simpa [hs, hm, hl] using (hmem value).mp hvalue
  · refine hsingle h.medium_mem hm fun value hvalue => ?_
    simpa [hs, hm, hl] using (hmem value).mp hvalue
  · have hsame : values.filter keep = values.filter (short < ·) :=
      h.filter_congr (by simp [hs]) (by simp [hm, hlower]) (by simp [hl, hlower.trans hupper])
    rw [hmean h.medium_mem hm, hsame, highMean]
  · refine hsingle h.short_mem hs fun value hvalue => ?_
    simpa [hs, hm, hl] using (hmem value).mp hvalue
  · have hsame : values.filter keep = values.filter (· ≠ medium) :=
      h.filter_congr (by simp [hs, hlower.ne]) (by simp [hm]) (by simp [hl, hupper.ne'])
    rw [hmean h.short_mem hs, hsame]
  · have hsame : values.filter keep = values.filter (· < long) :=
      h.filter_congr (by simp [hs, hlower.trans hupper]) (by simp [hm, hupper]) (by simp [hl])
    rw [hmean h.short_mem hs, hsame, lowMean]
  · have hsame : values.filter keep = values := by
      refine List.filter_eq_self.mpr fun value hvalue => ?_
      rcases (h.mem_iff value).mp hvalue with rfl | rfl | rfl
      · exact hs
      · exact hm
      · exact hl
    rw [hmean h.short_mem hs, hsame]

/-- A round, by the centres that are nearest to the widths. -/
theorem recenter_eq (h : IsMixture short medium long values) {a b c : Rat}
    {atShort atMedium atLong : Nat} (hshort : nearest short [a, b, c] = atShort)
    (hmedium : nearest medium [a, b, c] = atMedium) (hlong : nearest long [a, b, c] = atLong) :
    recenter values [a, b, c] =
      [pooled short medium long values a (atShort == 0) (atMedium == 0) (atLong == 0),
        pooled short medium long values b (atShort == 1) (atMedium == 1) (atLong == 1),
        pooled short medium long values c (atShort == 2) (atMedium == 2) (atLong == 2)] := by
  subst hshort hmedium hlong
  rw [recenter_three, bucket, bucket, bucket, h.meanOr_filter, h.meanOr_filter, h.meanOr_filter]

theorem medium_mem_below (h : IsMixture short medium long values) :
    medium ∈ values.filter (· < long) :=
  List.mem_filter.mpr ⟨h.medium_mem, decide_eq_true h.upper⟩

theorem medium_mem_above (h : IsMixture short medium long values) :
    medium ∈ values.filter (short < ·) :=
  List.mem_filter.mpr ⟨h.medium_mem, decide_eq_true h.lower⟩

theorem lowMean_bounds (h : IsMixture short medium long values) :
    short < lowMean long values ∧ lowMean long values < medium := by
  have hshort : short ∈ values.filter (· < long) :=
    List.mem_filter.mpr ⟨h.short_mem, decide_eq_true (h.lower.trans h.upper)⟩
  constructor
  · exact lt_mean (fun value hvalue => h.short_le value (List.mem_filter.mp hvalue).1)
      h.medium_mem_below h.lower
  · refine mean_lt (fun value hvalue => ?_) hshort h.lower
    obtain ⟨hvalue, hbelow⟩ := List.mem_filter.mp hvalue
    rcases (h.mem_iff value).mp hvalue with rfl | rfl | rfl
    · exact h.lower.le
    · exact le_rfl
    · exact absurd (of_decide_eq_true hbelow) (lt_irrefl _)

theorem highMean_bounds (h : IsMixture short medium long values) :
    medium < highMean short values ∧ highMean short values < long := by
  have hlong : long ∈ values.filter (short < ·) :=
    List.mem_filter.mpr ⟨h.long_mem, decide_eq_true (h.lower.trans h.upper)⟩
  constructor
  · refine lt_mean (fun value hvalue => ?_) hlong h.upper
    obtain ⟨hvalue, habove⟩ := List.mem_filter.mp hvalue
    rcases (h.mem_iff value).mp hvalue with rfl | rfl | rfl
    · exact absurd (of_decide_eq_true habove) (lt_irrefl _)
    · exact le_rfl
    · exact h.upper.le
  · exact mean_lt (fun value hvalue => h.le_long value (List.mem_filter.mp hvalue).1)
      h.medium_mem_above h.upper

theorem mean_bounds (h : IsMixture short medium long values) :
    short < mean values ∧ mean values < long :=
  ⟨lt_mean h.short_le h.medium_mem h.lower, mean_lt h.le_long h.medium_mem h.upper⟩

end IsMixture

end TapeSalvage.Pulse
