import Mathlib.Algebra.Order.Ring.Abs
import TapeSalvage.Proofs.Pulse.Exact

/-!
The nearest of any number of centres. The search holds the first of the nearest centres that it has
passed and gives it up only for one that is strictly nearer. Of ascending centres a longer duration
therefore never goes to an earlier one than a shorter duration does, also where centres are equal or
equally near.
-/
namespace TapeSalvage.Pulse

/-- Whether a value goes to a centre at an index: no centre is nearer, and those before it are
farther. -/
structure IsNearest (value : Rat) (centers : List Rat) (index : Nat) (center : Rat) : Prop where
  found : centers[index]? = some center
  closest : ∀ other ∈ centers, |value - center| ≤ |value - other|
  first : ∀ (earlier : Nat) (other : Rat), earlier < index → centers[earlier]? = some other →
    |value - center| < |value - other|

namespace IsNearest

variable {value center next : Rat} {centers : List Rat} {index : Nat}

theorem mem (h : IsNearest value centers index center) : center ∈ centers :=
  List.mem_of_getElem? h.found

theorem lt_length (h : IsNearest value centers index center) : index < centers.length :=
  (List.getElem?_eq_some_iff.mp h.found).1

theorem singleton (value center : Rat) : IsNearest value [center] 0 center where
  found := rfl
  closest other hother := by rw [List.mem_singleton.mp hother]
  first earlier _ hearlier _ := absurd hearlier (Nat.not_lt_zero earlier)

/-- A centre that is not strictly nearer is passed over. -/
theorem append_of_le (h : IsNearest value centers index center)
    (hnext : |value - center| ≤ |value - next|) :
    IsNearest value (centers ++ [next]) index center where
  found := by rw [List.getElem?_append_left h.lt_length, h.found]
  closest other hother := by
    rcases List.mem_append.mp hother with hold | hnew
    · exact h.closest other hold
    · rw [List.mem_singleton.mp hnew]
      exact hnext
  first earlier other hearlier hother := by
    rw [List.getElem?_append_left (hearlier.trans h.lt_length)] at hother
    exact h.first earlier other hearlier hother

/-- A centre that is strictly nearer than the nearest one is nearer than all. -/
theorem append_of_lt (h : IsNearest value centers index center)
    (hnext : |value - next| < |value - center|) :
    IsNearest value (centers ++ [next]) centers.length next where
  found := List.getElem?_concat_length
  closest other hother := by
    rcases List.mem_append.mp hother with hold | hnew
    · exact hnext.le.trans (h.closest other hold)
    · rw [List.mem_singleton.mp hnew]
  first earlier other hearlier hother := by
    rw [List.getElem?_append_left hearlier] at hother
    exact hnext.trans_le (h.closest other (List.mem_of_getElem? hother))

/-- The search goes on from the nearest of the centres behind it. -/
theorem nearestFrom (h : IsNearest value centers index center) (rest : List Rat) :
    ∃ last, IsNearest value (centers ++ rest)
      (nearestFrom value index |value - center| centers.length rest) last := by
  induction rest generalizing centers index center with
  | nil =>
    rw [List.append_nil]
    exact ⟨center, h⟩
  | cons next rest ih =>
    rw [List.append_cons, Pulse.nearestFrom, gauge_distance, gauge_lt]
    split
    · rename_i hnext
      have hgo := ih (h.append_of_lt (of_decide_eq_true hnext))
      rwa [List.length_append] at hgo
    · rename_i hnext
      have hgo := ih (h.append_of_le (not_lt.mp (mt decide_eq_true hnext)))
      rwa [List.length_append] at hgo

end IsNearest

theorem exists_isNearest (value : Rat) {centers : List Rat} (h : centers ≠ []) :
    ∃ center, IsNearest value centers (nearest value centers) center := by
  cases centers with
  | nil => contradiction
  | cons center rest =>
    have hgo := (IsNearest.singleton value center).nearestFrom rest
    rwa [← gauge_distance] at hgo

/-- Of ascending centres the later one takes the longer duration. -/
theorem nearest_le_nearest {centers : List Rat} (hsorted : centers.Pairwise (· ≤ ·))
    {value other : Rat} (h : value ≤ other) : nearest value centers ≤ nearest other centers := by
  by_cases hnil : centers = []
  · rw [hnil]
    exact le_rfl
  · obtain ⟨low, hlow⟩ := exists_isNearest value hnil
    obtain ⟨high, hhigh⟩ := exists_isNearest other hnil
    by_contra hlt
    push Not at hlt
    -- The centre of the greater value would stand before that of the smaller one, and be nearer to
    -- it too.
    have hfar := hlow.first _ high hlt hhigh.found
    have hnear := hhigh.closest low hlow.mem
    have hle : high ≤ low := by
      obtain ⟨hi, hiEq⟩ := List.getElem?_eq_some_iff.mp hhigh.found
      obtain ⟨hj, hjEq⟩ := List.getElem?_eq_some_iff.mp hlow.found
      rw [← hiEq, ← hjEq]
      exact List.pairwise_iff_getElem.mp hsorted _ _ hi hj hlt
    have hslope := mul_le_mul_of_nonneg_left h (sub_nonneg.mpr hle)
    rw [← sq_lt_sq] at hfar
    rw [← sq_le_sq] at hnear
    linarith

end TapeSalvage.Pulse
