import Mathlib.Algebra.BigOperators.Group.Finset.Piecewise
import Mathlib.Algebra.Order.BigOperators.Group.Finset
import TapeSalvage.Proofs.Pulse.Outcome
import TapeSalvage.Proofs.Pulse.Nearest

/-!
How well centres fit the values. The distortion is the sum of the squared distances of the values to
the nearest centre. Giving every value to its nearest centre and moving the centres to the means of
their buckets each lower it or leave it, so more rounds never fit worse.
-/
namespace TapeSalvage.Pulse

def squaredMiss (value : Rat) (centers : List Rat) : Rat :=
  ((centers.map fun center => (value - center) ^ 2).min?).getD 0

def distortion (values centers : List Rat) : Rat :=
  (values.map fun value => squaredMiss value centers).sum

def spread (center : Rat) (values : List Rat) : Rat :=
  (values.map fun value => (value - center) ^ 2).sum

variable {values centers others : List Rat} {value center : Rat}

theorem squaredMiss_of_forall_le (hmem : center ∈ centers)
    (h : ∀ other ∈ centers, (value - center) ^ 2 ≤ (value - other) ^ 2) :
    squaredMiss value centers = (value - center) ^ 2 := by
  have hmin : (centers.map fun center => (value - center) ^ 2).min? =
      some ((value - center) ^ 2) := by
    apply List.min?_eq_some_iff.mpr
    exact ⟨List.mem_map_of_mem hmem, List.forall_mem_map.mpr h⟩
  rw [squaredMiss, hmin, Option.getD_some]

theorem IsNearest.squaredMiss_eq {index : Nat} (h : IsNearest value centers index center) :
    squaredMiss value centers = (value - center) ^ 2 :=
  squaredMiss_of_forall_le h.mem fun other hother => sq_le_sq.mpr (h.closest other hother)

theorem squaredMiss_le (hmem : center ∈ centers) :
    squaredMiss value centers ≤ (value - center) ^ 2 := by
  obtain ⟨close, hclose⟩ := exists_isNearest value (List.ne_nil_of_mem hmem)
  rw [hclose.squaredMiss_eq]
  exact sq_le_sq.mpr (hclose.closest center hmem)

theorem squaredMiss_of_perm (h : centers.Perm others) :
    squaredMiss value centers = squaredMiss value others := by
  by_cases hnil : centers = []
  · subst hnil
    rw [List.nil_perm.mp h]
  · obtain ⟨close, hclose⟩ := exists_isNearest value hnil
    rw [hclose.squaredMiss_eq, eq_comm]
    apply squaredMiss_of_forall_le (h.mem_iff.mp hclose.mem)
    intro other hother
    exact sq_le_sq.mpr (hclose.closest other (h.mem_iff.mpr hother))

theorem distortion_of_perm (h : centers.Perm others) :
    distortion values centers = distortion values others := by
  unfold distortion
  simp only [squaredMiss_of_perm h]

theorem spread_eq (center : Rat) (values : List Rat) :
    spread center values =
      (values.map (· ^ 2)).sum - 2 * center * values.sum + values.length * center ^ 2 := by
  induction values with
  | nil => simp [spread]
  | cons value rest ih =>
    unfold spread at ih ⊢
    simp only [List.map_cons, List.sum_cons, List.length_cons]
    push_cast
    linarith

/-- No centre is closer to the values of a bucket than their mean. -/
theorem spread_meanOr_le (center : Rat) (bucket : List Rat) :
    spread (meanOr center bucket) bucket ≤ spread center bucket := by
  by_cases hnil : bucket = []
  · rw [hnil]
    exact le_rfl
  · have hpos := length_cast_pos hnil
    obtain ⟨mean, hmean⟩ : ∃ mean, mean = bucket.sum / bucket.length := ⟨_, rfl⟩
    have hsum : bucket.sum = mean * bucket.length := by
      rw [hmean, div_mul_cancel₀ _ hpos.ne']
    have hsquare := mul_nonneg hpos.le (sq_nonneg (center - mean))
    rw [meanOr_of_ne_nil center hnil, ← hmean, spread_eq, spread_eq, hsum]
    linarith

/-- The buckets share out the values. -/
theorem sum_bucket (values : List Rat) (hne : centers ≠ []) (cost : Nat → Rat → Rat) :
    ∑ i ∈ Finset.range centers.length, ((bucket values centers i).map (cost i)).sum =
      (values.map fun value => cost (nearest value centers) value).sum := by
  induction values with
  | nil => simp [bucket]
  | cons value rest ih =>
    obtain ⟨close, hclose⟩ := exists_isNearest value hne
    have hindex : nearest value centers ∈ Finset.range centers.length :=
      Finset.mem_range.mpr hclose.lt_length
    have hcons : ∀ i, ((bucket (value :: rest) centers i).map (cost i)).sum =
        (if nearest value centers = i then cost i value else 0) +
          ((bucket rest centers i).map (cost i)).sum := by
      intro i
      unfold bucket
      by_cases hi : nearest value centers = i
      · rw [List.filter_cons_of_pos (by simpa using hi), if_pos hi, List.map_cons, List.sum_cons]
      · rw [List.filter_cons_of_neg (by simpa using hi), if_neg hi, zero_add]
    simp only [hcons, Finset.sum_add_distrib, Finset.sum_ite_eq, if_pos hindex, ih, List.map_cons,
      List.sum_cons]

/-- A round lowers the distortion or leaves it. -/
theorem distortion_recenter_le (values : List Rat) (hne : centers ≠ []) :
    distortion values (recenter values centers) ≤ distortion values centers := by
  have hplace : ∀ i < centers.length,
      (recenter values centers).getD i 0 = meanOr (centers.getD i 0) (bucket values centers i) := by
    intro i hi
    rw [recenter_eq, List.getD_eq_getElem?_getD, List.getD_eq_getElem?_getD, List.getElem?_mapIdx,
      List.getElem?_eq_getElem hi]
    rfl
  -- Between the two stands what the moved centres cost with the values in their old buckets.
  calc distortion values (recenter values centers)
      ≤ (values.map fun value =>
          (value - (recenter values centers).getD (nearest value centers) 0) ^ 2).sum := by
        apply List.sum_le_sum
        intro value _
        obtain ⟨close, hclose⟩ := exists_isNearest value hne
        have hlt : nearest value centers < (recenter values centers).length :=
          (length_recenter values centers).symm ▸ hclose.lt_length
        apply squaredMiss_le
        rw [List.getD_eq_getElem?_getD, List.getElem?_eq_getElem hlt, Option.getD_some]
        exact List.getElem_mem hlt
    _ = ∑ i ∈ Finset.range centers.length,
          spread ((recenter values centers).getD i 0) (bucket values centers i) :=
        (sum_bucket values hne fun i value =>
          (value - (recenter values centers).getD i 0) ^ 2).symm
    _ ≤ ∑ i ∈ Finset.range centers.length, spread (centers.getD i 0) (bucket values centers i) := by
        apply Finset.sum_le_sum
        intro i hi
        rw [hplace i (Finset.mem_range.mp hi)]
        exact spread_meanOr_le _ _
    _ = (values.map fun value => (value - centers.getD (nearest value centers) 0) ^ 2).sum :=
        sum_bucket values hne fun i value => (value - centers.getD i 0) ^ 2
    _ = distortion values centers := by
        unfold distortion
        congr 1
        apply List.map_congr_left
        intro value _
        obtain ⟨close, hclose⟩ := exists_isNearest value hne
        rw [hclose.squaredMiss_eq, List.getD_eq_getElem?_getD, hclose.found, Option.getD_some]

/-- Rounds that end early or late have lowered the distortion or left it. -/
theorem distortion_settle_le (threshold : Rat) (rounds : Nat) (hne : centers ≠ []) :
    distortion values (settle values threshold rounds centers) ≤ distortion values centers := by
  have h := settle_invariant
    (fun moved => moved ≠ [] ∧ distortion values moved ≤ distortion values centers)
    (fun moved hmoved => ⟨recenter_ne_nil values hmoved.1,
      (distortion_recenter_le values hmoved.1).trans hmoved.2⟩) threshold rounds ⟨hne, le_rfl⟩
  exact h.2

/-- The longer run goes the way of the shorter one and then on. -/
theorem distortion_settle_antitone (threshold : Rat) {rounds later : Nat} (h : rounds ≤ later)
    (hne : centers ≠ []) :
    distortion values (settle values threshold later centers) ≤
      distortion values (settle values threshold rounds centers) := by
  induction rounds generalizing centers later with
  | zero => exact distortion_settle_le threshold later hne
  | succ rounds ih =>
    cases later with
    | zero => omega
    | succ later =>
      rw [settle, settle]
      split
      · exact le_rfl
      · exact ih (Nat.le_of_succ_le_succ h) (recenter_ne_nil values hne)

/-- More rounds never fit worse. A limit below zero allows no round. -/
theorem distortion_cluster_antitone (hvalues : values ≠ []) {count : Nat} (hcount : 0 < count)
    (threshold : Rat) {rounds later : Int} (h : rounds ≤ later) :
    ∃ fewer more : List Rat,
      cluster values count rounds.toNat threshold = .ok fewer ∧ fewer.length = count ∧
      cluster values count later.toNat threshold = .ok more ∧ more.length = count ∧
      distortion values more ≤ distortion values fewer := by
  have hseeds := length_seeds hvalues count
  have hne : seeds values count ≠ [] := by
    rw [← List.length_pos_iff, hseeds]
    exact hcount
  have hok : ∀ limit : Nat, cluster values count limit threshold =
      .ok (ascending (settle values threshold limit (seeds values count))) := by
    intro limit
    rw [cluster_eq, List.isEmpty_eq_false_iff.mpr hvalues]
    rfl
  have hlength : ∀ limit : Nat,
      (ascending (settle values threshold limit (seeds values count))).length = count := by
    intro limit
    rw [length_ascending, length_settle, hseeds]
  refine ⟨_, _, hok _, hlength _, hok _, hlength _, ?_⟩
  rw [distortion_of_perm (ascending_perm _), distortion_of_perm (ascending_perm _)]
  exact distortion_settle_antitone threshold (Int.toNat_le_toNat h) hne

/-- Values of which the longest draws its centre up in two rounds only. -/
def lateLong : List Rat := [48, 48, 66, 66, 66, 86]

theorem cluster_lateLong : cluster lateLong 3 1 (1 / 1000000) = .ok [48, 66, 71] ∧
    cluster lateLong 3 40 (1 / 1000000) = .ok [48, 66, 86] := by
  have hsorted : ascending lateLong = lateLong :=
    ascending_eq_of_perm (List.Perm.refl _) (by decide +kernel)
  have hseeds : seeds lateLong 3 = [48, 66, 66] := by
    unfold seeds
    rw [hsorted]
    decide +kernel
  have hfirst : settle lateLong (1 / 1000000) 1 [48, 66, 66] = [48, 71, 66] := by decide +kernel
  have hlast : settle lateLong (1 / 1000000) 40 [48, 66, 66] = [48, 86, 66] := by decide +kernel
  have hfewer : ascending [48, 71, 66] = ([48, 66, 71] : List Rat) :=
    ascending_eq_of_perm (by decide) (by decide +kernel)
  have hmore : ascending [48, 86, 66] = ([48, 66, 86] : List Rat) :=
    ascending_eq_of_perm (by decide) (by decide +kernel)
  rw [cluster_eq, cluster_eq, hseeds, hfirst, hlast, hfewer, hmore]
  exact ⟨rfl, rfl⟩

theorem distortion_cluster_antitone_lateLong :
    lateLong ≠ [] ∧ 0 < 3 ∧ (1 : Int) ≤ 40 ∧
      cluster lateLong 3 1 (1 / 1000000) = .ok [48, 66, 71] ∧
      cluster lateLong 3 40 (1 / 1000000) = .ok [48, 66, 86] ∧
      distortion lateLong [48, 66, 86] ≤ distortion lateLong [48, 66, 71] := by
  have hne : lateLong ≠ [] := List.cons_ne_nil _ _
  obtain ⟨hfirst, hlast⟩ := cluster_lateLong
  obtain ⟨fewer, more, hfewer, _, hmore, _, hle⟩ :=
    distortion_cluster_antitone hne (show 0 < 3 by decide) (1 / 1000000)
      (show (1 : Int) ≤ 40 by decide)
  obtain rfl := Except.ok.inj (hfewer.symm.trans hfirst)
  obtain rfl := Except.ok.inj (hmore.symm.trans hlast)
  exact ⟨hne, by decide, by decide, hfirst, hlast, hle⟩

end TapeSalvage.Pulse
