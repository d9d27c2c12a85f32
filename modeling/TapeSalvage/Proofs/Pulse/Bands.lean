import Mathlib.Tactic.NormNum
import TapeSalvage.Proofs.Pulse.Exact
import TapeSalvage.Proofs.Pulse.Outcome

/-!
Three bands of durations and centres that tell them apart. Once the centres are split, one to a
band, every round moves each of them inside its own band, in whichever order they stand.
-/
namespace TapeSalvage.Pulse

def Near (width jitter value : Rat) : Prop := width - jitter ≤ value ∧ value ≤ width + jitter

/-- Widths whose bands the clusters can tell apart. -/
structure IsSpread (short medium long jitter : Rat) : Prop where
  nonneg : 0 ≤ jitter
  apart : 4 * jitter < medium - short
  far : 40 * jitter + 1 ≤ long - medium

def IsBanded (short medium long jitter : Rat) (values : List Rat) : Prop :=
  ∀ value ∈ values, Near short jitter value ∨ Near medium jitter value ∨ Near long jitter value

variable {short medium long jitter : Rat}

theorem abs_lt_of_below {value near far : Rat} (h : far < near) (hmid : near + far < 2 * value) :
    |value - near| < |value - far| := by
  have hfar := le_abs_self (value - far)
  rw [abs_lt]
  constructor <;> linarith

theorem abs_lt_of_above {value near far : Rat} (h : near < far) (hmid : 2 * value < near + far) :
    |value - near| < |value - far| := by
  have hfar := neg_le_abs (value - far)
  rw [abs_lt]
  constructor <;> linarith

/-- Centres of which one has left the medium band for good. -/
structure IsSplit (short medium long jitter a b c : Rat) : Prop where
  low : Near short jitter a
  mid : Near medium jitter b
  above : medium + 3 * jitter + 1 / 10 ≤ c
  below : c ≤ long + jitter

theorem nearest_short_of_isSplit (hs : IsSpread short medium long jitter) {a b c value : Rat}
    (h : IsSplit short medium long jitter a b c) (hvalue : Near short jitter value) :
    nearest value [a, b, c] = 0 ∧ nearest value [a, c, b] = 0 := by
  obtain ⟨⟨ha, ha'⟩, ⟨hb, hb'⟩, hc, hc'⟩ := h
  obtain ⟨hv, hv'⟩ := hvalue
  obtain ⟨hJ, hapart, hfar⟩ := hs
  have hab : |value - a| < |value - b| := abs_lt_of_above (by linarith) (by linarith)
  have hac : |value - a| < |value - c| := abs_lt_of_above (by linarith) (by linarith)
  constructor
  · rw [nearest_three, if_neg hab.not_gt, if_neg hac.not_gt]
  · rw [nearest_three, if_neg hac.not_gt, if_neg hab.not_gt]

theorem nearest_medium_of_isSplit (hs : IsSpread short medium long jitter) {a b c value : Rat}
    (h : IsSplit short medium long jitter a b c) (hvalue : Near medium jitter value) :
    nearest value [a, b, c] = 1 ∧ nearest value [a, c, b] = 2 := by
  obtain ⟨⟨ha, ha'⟩, ⟨hb, hb'⟩, hc, hc'⟩ := h
  obtain ⟨hv, hv'⟩ := hvalue
  obtain ⟨hJ, hapart, hfar⟩ := hs
  have hba : |value - b| < |value - a| := abs_lt_of_below (by linarith) (by linarith)
  have hbc : |value - b| < |value - c| := abs_lt_of_above (by linarith) (by linarith)
  constructor
  · rw [nearest_three, if_pos hba, if_neg hbc.not_gt]
  · rw [nearest_three, if_pos hbc, if_pos hba]
    simp

theorem nearest_long_of_isSplit (hs : IsSpread short medium long jitter) {a b c value : Rat}
    (h : IsSplit short medium long jitter a b c) (hvalue : Near long jitter value) :
    nearest value [a, b, c] = 2 ∧ nearest value [a, c, b] = 1 := by
  obtain ⟨⟨ha, ha'⟩, ⟨hb, hb'⟩, hc, hc'⟩ := h
  obtain ⟨hv, hv'⟩ := hvalue
  obtain ⟨hJ, hapart, hfar⟩ := hs
  have hca : |value - c| < |value - a| := abs_lt_of_below (by linarith) (by linarith)
  have hcb : |value - c| < |value - b| := abs_lt_of_below (by linarith) (by linarith)
  constructor
  · rw [nearest_three, if_pos hca, if_pos hcb]
    simp
  · rw [nearest_three, if_pos hca, if_neg hcb.not_gt]

/-- The centres in their first order, or with the one that left the medium band in second place. -/
def IsSettling (short medium long jitter : Rat) (centers : List Rat) : Prop :=
  ∃ a b c, IsSplit short medium long jitter a b c ∧ (centers = [a, b, c] ∨ centers = [a, c, b])

theorem near_long_isAbove (hs : IsSpread short medium long jitter) {value : Rat}
    (h : Near long jitter value) :
    medium + 3 * jitter + 1 / 10 ≤ value ∧ value ≤ long + jitter := by
  obtain ⟨hJ, hapart, hfar⟩ := hs
  obtain ⟨hv, hv'⟩ := h
  constructor <;> linarith

/-- The mean of a bucket stays in a band if the centre and all values of the bucket lie there. -/
theorem near_meanOr_bucket {width center : Rat} {values order : List Rat} {i : Nat}
    (hcenter : Near width jitter center)
    (hbucket : ∀ value ∈ values, nearest value order = i → Near width jitter value) :
    Near width jitter (meanOr center (bucket values order i)) := by
  apply meanOr_mem_bounds hcenter
  intro value hvalue
  obtain ⟨hmem, hat⟩ := mem_bucket.mp hvalue
  exact hbucket value hmem hat

/-- The first bucket holds the short band alone, and the one that the long band leaves alone holds
nothing but values of the medium band. -/
theorem near_means {values order : List Rat} (hvalues : IsBanded short medium long jitter values)
    {a b : Rat} (ha : Near short jitter a) (hb : Near medium jitter b) {light heavy : Nat}
    (hshort : ∀ value, Near short jitter value → nearest value order = 0)
    (hmedium : ∀ value, Near medium jitter value → nearest value order ≠ 0)
    (hlong : ∀ value, Near long jitter value → nearest value order = heavy)
    (hne : light ≠ 0 ∧ heavy ≠ 0 ∧ light ≠ heavy) :
    Near short jitter (meanOr a (bucket values order 0)) ∧
      Near medium jitter (meanOr b (bucket values order light)) := by
  constructor
  · apply near_meanOr_bucket ha
    intro value hmem hat
    rcases hvalues value hmem with hv | hv | hv
    · exact hv
    · exact absurd hat (hmedium value hv)
    · have := hlong value hv
      omega
  · apply near_meanOr_bucket hb
    intro value hmem hat
    rcases hvalues value hmem with hv | hv | hv
    · have := hshort value hv
      omega
    · exact hv
    · have := hlong value hv
      omega

/-- Means of buckets that hold one band each lie in these bands. -/
theorem IsSplit.means (hs : IsSpread short medium long jitter) {values order : List Rat}
    {a b c : Rat} {atMedium atLong : Nat} (hvalues : IsBanded short medium long jitter values)
    (hshort : ∀ value, Near short jitter value → nearest value order = 0)
    (hmedium : ∀ value, Near medium jitter value → nearest value order = atMedium)
    (hlong : ∀ value, Near long jitter value → nearest value order = atLong)
    (hne : atMedium ≠ 0 ∧ atLong ≠ 0 ∧ atMedium ≠ atLong)
    (h : IsSplit short medium long jitter a b c) :
    IsSplit short medium long jitter (meanOr a (bucket values order 0))
      (meanOr b (bucket values order atMedium)) (meanOr c (bucket values order atLong)) := by
  have hapart : ∀ value, Near medium jitter value → nearest value order ≠ 0 := by
    intro value hv
    rw [hmedium value hv]
    exact hne.1
  obtain ⟨hlow, hmid⟩ := near_means hvalues h.low h.mid hshort hapart hlong hne
  have hhigh : medium + 3 * jitter + 1 / 10 ≤ meanOr c (bucket values order atLong) ∧
      meanOr c (bucket values order atLong) ≤ long + jitter := by
    apply meanOr_mem_bounds ⟨h.above, h.below⟩
    intro value hvalue
    obtain ⟨hmem, hat⟩ := mem_bucket.mp hvalue
    rcases hvalues value hmem with hv | hv | hv
    · have := hshort value hv
      omega
    · have := hmedium value hv
      omega
    · exact near_long_isAbove hs hv
  exact ⟨hlow, hmid, hhigh.1, hhigh.2⟩

/-- A round of split centres moves each of them inside its own band. -/
theorem isSettling_recenter (hs : IsSpread short medium long jitter) {values centers : List Rat}
    (hvalues : IsBanded short medium long jitter values)
    (h : IsSettling short medium long jitter centers) :
    IsSettling short medium long jitter (recenter values centers) := by
  obtain ⟨a, b, c, hsplit, rfl | rfl⟩ := h
  · rw [recenter_three]
    exact ⟨_, _, _, hsplit.means hs hvalues
      (fun _ hv => (nearest_short_of_isSplit hs hsplit hv).1)
      (fun _ hv => (nearest_medium_of_isSplit hs hsplit hv).1)
      (fun _ hv => (nearest_long_of_isSplit hs hsplit hv).1) (by decide), Or.inl rfl⟩
  · rw [recenter_three]
    exact ⟨_, _, _, hsplit.means hs hvalues
      (fun _ hv => (nearest_short_of_isSplit hs hsplit hv).2)
      (fun _ hv => (nearest_medium_of_isSplit hs hsplit hv).2)
      (fun _ hv => (nearest_long_of_isSplit hs hsplit hv).2) (by decide), Or.inr rfl⟩

theorem isSettling_settle (hs : IsSpread short medium long jitter) {values : List Rat}
    (hvalues : IsBanded short medium long jitter values) (threshold : Rat) (rounds : Nat)
    {centers : List Rat} (h : IsSettling short medium long jitter centers) :
    IsSettling short medium long jitter (settle values threshold rounds centers) :=
  settle_invariant (IsSettling short medium long jitter) (fun _ => isSettling_recenter hs hvalues)
    threshold rounds h

end TapeSalvage.Pulse
