import Mathlib.Order.Basic
import TapeSalvage.Proofs.Pulse.Outcome

/-!
Clusterings that end in their first round. Where the seeds are settled already they are the centres,
in any gauge. A gauge that keeps the order of the durations sorts them as they are sorted
themselves.
-/
namespace TapeSalvage.Pulse

variable {α : Type} [Gauge α] {values centers : List α} {threshold : α}

theorem settle_of_isSettled (rounds : Nat)
    (h : isSettled threshold centers (recenter values centers) = true) :
    settle values threshold rounds centers = centers := by
  cases rounds with
  | zero => rfl
  | succ rounds =>
    rw [settle]
    exact if_pos h

/-- Lists of a few kinds of durations are permutations if they hold as many of each kind. -/
theorem perm_of_count {durations others kinds : List Nat} (h : durations ⊆ kinds)
    (hothers : others ⊆ kinds)
    (hcount : ∀ kind ∈ kinds, durations.count kind = others.count kind) :
    durations.Perm others := by
  rw [List.perm_iff_count]
  intro duration
  by_cases hkind : duration ∈ kinds
  · exact hcount duration hkind
  · rw [List.count_eq_zero_of_not_mem fun hmem => hkind (h hmem),
      List.count_eq_zero_of_not_mem fun hmem => hkind (hothers hmem)]

/-- Durations are sorted in a gauge as they are in their own order, if the gauge keeps it. -/
theorem ascending_map_of_perm {durations sorted : List Nat} {gauge : Nat → α}
    (hperm : durations.Perm sorted) (hsorted : sorted.Pairwise (· ≤ ·))
    (hgauge : ∀ a ∈ sorted, ∀ b ∈ sorted, decide (a ≤ b) = Gauge.le (gauge a) (gauge b)) :
    ascending (durations.map gauge) = sorted.map gauge := by
  have hle : ∀ a ∈ durations, ∀ b ∈ durations, decide (a ≤ b) = Gauge.le (gauge a) (gauge b) :=
    fun a ha b hb => hgauge a (hperm.mem_iff.mp ha) b (hperm.mem_iff.mp hb)
  have hsame : durations.mergeSort (fun a b => decide (a ≤ b)) = sorted := by
    have hmerged : (durations.mergeSort fun a b => decide (a ≤ b)).Pairwise (· ≤ ·) := by
      refine (List.pairwise_mergeSort ?_ ?_ durations).imp fun h => of_decide_eq_true h
      · intro a b c hab hbc
        exact decide_eq_true (Nat.le_trans (of_decide_eq_true hab) (of_decide_eq_true hbc))
      · intro a b
        simpa using Nat.le_total a b
    exact ((List.mergeSort_perm durations _).trans hperm).eq_of_pairwise
      (fun _ _ _ _ => Nat.le_antisymm) hmerged hsorted
  unfold ascending
  rw [← List.map_mergeSort hle, hsame]

/-- Pulses in range are classified by their seeds, if these stand in order and are settled. -/
theorem classify_of_isSettled {rules : Rules α} {pulses : List α} (hne : pulses ≠ [])
    (hadmits : ∀ pulse ∈ pulses, rules.admits pulse = true) (hseeds : seeds pulses 3 = centers)
    (hsettled : isSettled rules.threshold centers (recenter pulses centers) = true)
    (hascending : ascending centers = centers) :
    classify rules pulses =
      .ok ⟨pulses.map (symbolOf rules centers), centers, pulses.length⟩ := by
  have husable : pulses.filter rules.admits = pulses := List.filter_eq_self.mpr hadmits
  have hcenters : centersOf rules pulses = centers := by
    rw [centersOf, hseeds, settle_of_isSettled _ hsettled, hascending]
  rw [classify_of_ne_nil (husable.symm ▸ hne), husable, hcenters]

end TapeSalvage.Pulse
