import Mathlib.Data.List.FinRange
import TapeSalvage.Proofs.Pulse.Exact
import TapeSalvage.Proofs.Pulse.Outcome

/-!
The order of the pulses. In exact fractions a permutation of the values permutes each bucket and
leaves its mean, so every round moves the centres alike; the seeds are taken from the sorted values.
Pulses in another order are therefore told apart by the same centres.
-/
namespace TapeSalvage.Pulse

variable {values others : List Rat}

theorem meanOr_of_perm (h : values.Perm others) (center : Rat) :
    meanOr center values = meanOr center others := by
  by_cases hnil : values = []
  · subst hnil
    rw [List.nil_perm.mp h]
  · have hother : others ≠ [] := fun hempty => hnil (List.perm_nil.mp (hempty ▸ h))
    rw [meanOr_of_ne_nil center hnil, meanOr_of_ne_nil center hother, h.sum_eq, h.length_eq]

theorem recenter_of_perm (h : values.Perm others) (centers : List Rat) :
    recenter values centers = recenter others centers := by
  have hmean : ∀ (i : Nat) (center : Rat),
      meanOr center (bucket values centers i) = meanOr center (bucket others centers i) :=
    fun i center => meanOr_of_perm (h.filter _) center
  rw [recenter_eq, recenter_eq]
  simp only [hmean]

theorem settle_of_perm (h : values.Perm others) (threshold : Rat) (rounds : Nat)
    (centers : List Rat) :
    settle values threshold rounds centers = settle others threshold rounds centers := by
  induction rounds generalizing centers with
  | zero => rfl
  | succ rounds ih => rw [settle, settle, recenter_of_perm h, ih]

theorem ascending_of_perm (h : values.Perm others) : ascending values = ascending others :=
  ascending_eq_of_perm (h.trans (ascending_perm others).symm) (ascending_pairwise others)

theorem seeds_of_perm (h : values.Perm others) (count : Nat) :
    seeds values count = seeds others count := by
  unfold seeds
  rw [ascending_of_perm h]

theorem cluster_of_perm (h : values.Perm others) (count rounds : Nat) (threshold : Rat) :
    cluster values count rounds threshold = cluster others count rounds threshold := by
  rw [cluster_eq, cluster_eq, seeds_of_perm h, settle_of_perm h, h.isEmpty_eq]

theorem centersOf_of_perm (rules : Rules Rat) (h : values.Perm others) :
    centersOf rules values = centersOf rules others := by
  rw [centersOf, centersOf, seeds_of_perm h, settle_of_perm h]

/-- Pulses in another order are told apart alike: there is no result in either order, or the centres
and the number of clustered pulses are the same and each pulse keeps its symbol. Clustering alone
does not depend on the order of the values. -/
theorem classify_comp_perm {n : Nat} (pulse : Fin n → Rat) (σ : Equiv.Perm (Fin n)) :
    (∀ rules : Rules Rat,
      (∃ fault, classify rules (List.ofFn pulse) = .error fault ∧
        classify rules (List.ofFn (pulse ∘ σ)) = .error fault) ∨
      ∃ (symbol : Fin n → Symbol) (centers : List Rat) (clustered : Nat),
        classify rules (List.ofFn pulse) = .ok ⟨List.ofFn symbol, centers, clustered⟩ ∧
        classify rules (List.ofFn (pulse ∘ σ)) = .ok ⟨List.ofFn (symbol ∘ σ), centers, clustered⟩) ∧
    ∀ (count rounds : Nat) (threshold : Rat),
      cluster (List.ofFn (pulse ∘ σ)) count rounds threshold =
        cluster (List.ofFn pulse) count rounds threshold := by
  have hperm := σ.ofFn_comp_perm pulse
  refine ⟨fun rules => ?_, cluster_of_perm hperm⟩
  have husable := hperm.filter rules.admits
  by_cases hnil : (List.ofFn pulse).filter rules.admits = []
  · left
    rw [hnil, List.perm_nil] at husable
    exact ⟨_, classify_of_eq_nil hnil, classify_of_eq_nil husable⟩
  · right
    have hother : (List.ofFn (pulse ∘ σ)).filter rules.admits ≠ [] := by
      intro hempty
      rw [hempty, List.nil_perm] at husable
      exact hnil husable
    refine ⟨symbolOf rules (centersOf rules ((List.ofFn pulse).filter rules.admits)) ∘ pulse,
      centersOf rules ((List.ofFn pulse).filter rules.admits),
      ((List.ofFn pulse).filter rules.admits).length, ?_, ?_⟩
    · rw [classify_of_ne_nil hnil, List.map_ofFn]
    · rw [classify_of_ne_nil hother, centersOf_of_perm rules husable, husable.length_eq,
        List.map_ofFn, Function.comp_assoc]

end TapeSalvage.Pulse
