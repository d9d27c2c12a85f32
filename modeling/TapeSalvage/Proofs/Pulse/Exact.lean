import Mathlib.Algebra.Order.BigOperators.Group.List
import Mathlib.Algebra.Order.Field.Rat
import Mathlib.Data.List.Sort
import Mathlib.Tactic.Linarith
import TapeSalvage.Pulse.Symbol

/-!
Clustering in exact fractions. Sorted values are told apart by counting those below a bound, the
nearest centre is told by comparing distances, and the mean of a bucket lies between its bounds.
-/
namespace TapeSalvage.Pulse

@[simp] theorem gauge_ofInt (value : Int) : (Gauge.ofInt value : Rat) = value := rfl

@[simp] theorem gauge_add (a b : Rat) : Gauge.add a b = a + b := rfl

@[simp] theorem gauge_share (total : Rat) (parts : Nat) : Gauge.share total parts = total / parts :=
  rfl

@[simp] theorem gauge_distance (a b : Rat) : Gauge.distance a b = |a - b| := by
  change (a - b).abs = |a - b|
  rcases le_total 0 (a - b) with h | h
  · rw [Rat.abs_of_nonneg h, abs_of_nonneg h]
  · rw [Rat.abs_of_nonpos h, abs_of_nonpos h]

@[simp] theorem gauge_le (a b : Rat) : Gauge.le a b = decide (a ≤ b) := rfl

@[simp] theorem gauge_lt (a b : Rat) : Gauge.lt a b = decide (a < b) := rfl

theorem ascending_perm (values : List Rat) : (ascending values).Perm values :=
  List.mergeSort_perm values _

theorem ascending_pairwise (values : List Rat) : (ascending values).Pairwise (· ≤ ·) := by
  have htrans : ∀ a b c : Rat, Gauge.le a b = true → Gauge.le b c = true → Gauge.le a c = true := by
    intro a b c hab hbc
    simp only [gauge_le, decide_eq_true_eq] at *
    exact hab.trans hbc
  have htotal : ∀ a b : Rat, (Gauge.le a b || Gauge.le b a) = true := by
    intro a b
    simpa using le_total a b
  have h := List.pairwise_mergeSort htrans htotal values
  exact h.imp fun hle => by simpa using hle

/-- Values have one ascending order. -/
theorem ascending_eq_of_perm {values sorted : List Rat} (hperm : values.Perm sorted)
    (hsorted : sorted.Pairwise (· ≤ ·)) : ascending values = sorted :=
  ((ascending_perm values).trans hperm).eq_of_pairwise (fun _ _ _ _ => le_antisymm)
    (ascending_pairwise values) hsorted

theorem getElem_iff_lt_countP {sorted : List Rat} (hsorted : sorted.Pairwise (· ≤ ·))
    (below : Rat → Bool) (hbelow : ∀ a b, a ≤ b → below b = true → below a = true)
    (i : Nat) (hi : i < sorted.length) : below sorted[i] = true ↔ i < sorted.countP below := by
  induction sorted generalizing i with
  | nil => simp at hi
  | cons least rest ih =>
    have hrest := List.Pairwise.of_cons hsorted
    by_cases hleast : below least = true
    · rw [List.countP_cons_of_pos hleast]
      cases i with
      | zero => simpa using hleast
      | succ i =>
        have hi' : i < rest.length := by simpa using hi
        simpa using ih hrest i hi'
    · have hnone : ∀ value ∈ least :: rest, ¬ below value = true := by
        intro value hvalue hbad
        rcases List.mem_cons.mp hvalue with rfl | hmem
        · exact hleast hbad
        · exact hleast (hbelow _ _ (List.rel_of_pairwise_cons hsorted hmem) hbad)
      have hcount : (least :: rest).countP below = 0 := List.countP_eq_zero.mpr hnone
      have hno := hnone _ (List.getElem_mem hi)
      rw [hcount]
      exact ⟨fun h => absurd h hno, fun h => absurd h (by omega)⟩

/-- The value of a rank is within a bound exactly if enough values are. -/
theorem ascending_getElem_le_iff (values : List Rat) (bound : Rat) (i : Nat)
    (hi : i < (ascending values).length) :
    (ascending values)[i] ≤ bound ↔ i < values.countP (· ≤ bound) := by
  have hbelow : ∀ a b : Rat, a ≤ b → decide (b ≤ bound) = true → decide (a ≤ bound) = true := by
    intro a b hab hb
    exact decide_eq_true (hab.trans (of_decide_eq_true hb))
  rw [← (ascending_perm values).countP_eq,
    ← getElem_iff_lt_countP (ascending_pairwise values) (· ≤ bound) hbelow i hi, decide_eq_true_eq]

theorem length_ascending (values : List Rat) : (ascending values).length = values.length :=
  (ascending_perm values).length_eq

/-- The starting centres are the values at the quarters of the ranks. -/
theorem seeds_three (values : List Rat) (h : values ≠ []) :
    ∃ (h₁ : values.length / 4 < (ascending values).length)
      (h₂ : 2 * values.length / 4 < (ascending values).length)
      (h₃ : 3 * values.length / 4 < (ascending values).length),
      seeds values 3 = [(ascending values)[values.length / 4],
        (ascending values)[2 * values.length / 4], (ascending values)[3 * values.length / 4]] := by
  have hpos := List.length_pos_iff.mpr h
  have hlength := length_ascending values
  refine ⟨by omega, by omega, by omega, ?_⟩
  have hrange : List.range 3 = [0, 1, 2] := rfl
  unfold seeds
  rw [hrange]
  simp only [hlength, Nat.reduceAdd, Nat.zero_add, Nat.one_mul, List.filterMap_cons,
    List.filterMap_nil]
  rw [List.getElem?_eq_getElem (by omega), List.getElem?_eq_getElem (by omega),
    List.getElem?_eq_getElem (by omega)]

/-- The nearest one of three centres; of equally near ones the first. -/
theorem nearest_three (value a b c : Rat) :
    nearest value [a, b, c] =
      if |value - b| < |value - a| then if |value - c| < |value - b| then 2 else 1
      else if |value - c| < |value - a| then 2 else 0 := by
  simp only [nearest, nearestFrom, gauge_distance, gauge_lt, decide_eq_true_eq, Nat.reduceAdd]

def bucket (values centers : List Rat) (i : Nat) : List Rat :=
  values.filter fun value => nearest value centers == i

theorem mem_bucket {values centers : List Rat} {i : Nat} {value : Rat} :
    value ∈ bucket values centers i ↔ value ∈ values ∧ nearest value centers = i := by
  simp [bucket]

/-- A round moves each centre to the mean of its bucket. -/
theorem recenter_eq (values centers : List Rat) :
    recenter values centers =
      centers.mapIdx fun i center => meanOr center (bucket values centers i) := by
  have hbucket : ∀ i, ((values.map fun value => (nearest value centers, value)).filter
      fun mark => mark.1 == i).map (·.2) = bucket values centers i := by
    intro i
    rw [List.filter_map, List.map_map, bucket]
    exact List.map_id _
  simp only [recenter, hbucket]

theorem recenter_three (values : List Rat) (a b c : Rat) :
    recenter values [a, b, c] = [meanOr a (bucket values [a, b, c] 0),
      meanOr b (bucket values [a, b, c] 1), meanOr c (bucket values [a, b, c] 2)] := by
  simp only [recenter_eq, List.mapIdx_cons, List.mapIdx_nil, Nat.zero_add, Nat.reduceAdd]

theorem isSettled_three (threshold a b c a' b' c' : Rat) :
    isSettled threshold [a, b, c] [a', b', c'] = true ↔
      |a' - a| < threshold ∧ |b' - b| < threshold ∧ |c' - c| < threshold := by
  simp [isSettled]

theorem total_eq_sum (values : List Rat) : total values = values.sum := by
  rw [total, List.sum_eq_foldl]
  rfl

theorem meanOr_of_ne_nil (center : Rat) {bucket : List Rat} (h : bucket ≠ []) :
    meanOr center bucket = bucket.sum / bucket.length := by
  rw [meanOr, if_neg (by simpa using h), gauge_share, total_eq_sum]

theorem length_cast_pos {values : List Rat} (h : values ≠ []) : (0 : Rat) < values.length :=
  Nat.cast_pos.mpr (List.length_pos_iff.mpr h)

/-- A centre stays between the bounds of itself and its values. -/
theorem meanOr_mem_bounds {center low high : Rat} {bucket : List Rat}
    (hcenter : low ≤ center ∧ center ≤ high)
    (hbucket : ∀ value ∈ bucket, low ≤ value ∧ value ≤ high) :
    low ≤ meanOr center bucket ∧ meanOr center bucket ≤ high := by
  by_cases hnil : bucket = []
  · subst hnil
    exact hcenter
  · have hpos := length_cast_pos hnil
    have hlow := List.card_nsmul_le_sum bucket low fun value hvalue => (hbucket value hvalue).1
    have hhigh := List.sum_le_card_nsmul bucket high fun value hvalue => (hbucket value hvalue).2
    rw [nsmul_eq_mul] at hlow hhigh
    rw [meanOr_of_ne_nil center hnil, le_div_iff₀ hpos, div_le_iff₀ hpos]
    constructor <;> linarith

end TapeSalvage.Pulse
