import TapeSalvage.Proofs.Pulse.Outcome
import TapeSalvage.Proofs.Pulse.Whole

/-!
Pulses of three widths. They are classified by their width exactly if the rounds part the widths,
and for whole durations the proportions and the distances alone tell whether they do.
-/
namespace TapeSalvage.Pulse

variable {short medium long : Rat}

def symbolOfWidth (short medium long pulse : Rat) : Symbol :=
  if pulse = short then .short
  else if pulse = medium then .medium
  else if pulse = long then .long
  else .unknown

/-- Centres on the widths give each pulse the symbol of its width. -/
theorem map_symbolOf_widths {pulses : List Rat} (h : IsMixture short medium long (usable pulses)) :
    pulses.map (symbolOf Rules.standard [short, medium, long]) =
      pulses.map (symbolOfWidth short medium long) := by
  have hlower := h.lower
  have hupper := h.upper
  obtain ⟨hshort, hmedium, hlong⟩ := nearest_center hlower.ne (hlower.trans hupper).ne hupper.ne
  apply List.map_congr_left
  intro pulse hpulse
  have hadmits : (Rules.standard : Rules Rat).admits pulse = true ↔
      pulse = short ∨ pulse = medium ∨ pulse = long := by
    rw [← h.mem_iff, usable, List.mem_filter]
    exact (and_iff_right hpulse).symm
  unfold symbolOf symbolOfWidth
  by_cases hwidth : pulse = short ∨ pulse = medium ∨ pulse = long
  · rw [if_pos (hadmits.mpr hwidth)]
    rcases hwidth with rfl | rfl | rfl
    · rw [hshort, if_pos rfl]
      rfl
    · rw [hmedium, if_neg hlower.ne', if_pos rfl]
      rfl
    · rw [hlong, if_neg (hlower.trans hupper).ne', if_neg hupper.ne', if_pos rfl]
      rfl
  · rw [if_neg (mt hadmits.mp hwidth)]
    simp only [not_or] at hwidth
    rw [if_neg hwidth.1, if_neg hwidth.2.1, if_neg hwidth.2.2]

theorem IsMixture.centersOf_eq_iff {values : List Rat} (h : IsMixture short medium long values) :
    centersOf Rules.standard values = [short, medium, long] ↔
      IsSeparable (1 / 1000000) short medium long values := by
  have hascends : [short, medium, long].Pairwise (· ≤ ·) := by
    have hlower := h.lower.le
    have hupper := h.upper.le
    simp [hlower, hupper, hlower.trans hupper]
  have hends : EndsApart short medium long values (1 / 1000000) (36 + 4) (seeds values 3) ↔
      IsSeparable (1 / 1000000) short medium long values := h.endsApart_seeds_iff (by norm_num)
  rw [← hends]
  constructor
  · intro hcenters
    rw [EndsApart, ← hcenters]
    exact (ascending_perm _).symm
  · intro hperm
    exact ascending_eq_of_perm hperm hascends

def longLeader : List Rat := [20, 20, 20, 5, 20, 20, 20, 20, 30, 60]

def tightLeader : List Rat := [20, 20, 20, 100, 200]

theorem usable_longLeader : usable longLeader = [20, 20, 20, 20, 20, 20, 20, 30, 60] := by decide

theorem usable_tightLeader : usable tightLeader = [20, 20, 20, 100, 200] := by decide

theorem isMixture_longLeader : IsMixture 20 30 60 (usable longLeader) := by
  rw [usable_longLeader]
  exact ⟨by norm_num, by norm_num, by simp⟩

theorem isSeparableByDistance_longLeader : IsSeparableByDistance 20 30 60 (usable longLeader) := by
  have hquarters : quarters 20 30 (usable longLeader) = (.short, .short, .short) := by
    rw [usable_longLeader]
    decide
  have hhigh : highMean 20 (usable longLeader) = 45 := by
    rw [usable_longLeader]
    decide +kernel
  rw [IsSeparableByDistance, hquarters]
  change (30 - 20 : Rat) < highMean 20 (usable longLeader) - 30
  rw [hhigh]
  norm_num

/-- Three widths are told apart exactly if they are separable; of whole durations, unless they are
more than a million, those that their distances part. -/
theorem classify_mixture {pulses : List Rat} (h : IsMixture short medium long (usable pulses)) :
    (∃ result, classify Rules.standard pulses = .ok result ∧
      (result.centers = [short, medium, long] ↔
        IsSeparable (1 / 1000000) short medium long (usable pulses)) ∧
      (result.centers = [short, medium, long] →
        result.symbols = pulses.map (symbolOfWidth short medium long))) ∧
    ((∀ pulse ∈ usable pulses, pulse.den = 1) → (usable pulses).length ≤ 1000000 →
      (IsSeparable (1 / 1000000) short medium long (usable pulses) ↔
        IsSeparableByDistance short medium long (usable pulses))) := by
  refine ⟨⟨_, classify_of_ne_nil (List.ne_nil_of_mem h.short_mem), h.centersOf_eq_iff, ?_⟩, ?_⟩
  · intro hcenters
    change pulses.map (symbolOf Rules.standard (centersOf Rules.standard (usable pulses))) = _
    rw [show centersOf Rules.standard (usable pulses) = _ from hcenters, map_symbolOf_widths h]
  · intro hwhole hlength
    have hfine : (1 / 1000000 : Rat) * (usable pulses).length ≤ 1 := by
      have hcount : ((usable pulses).length : Rat) ≤ 1000000 := by exact_mod_cast hlength
      linarith
    exact h.isSeparable_iff_of_whole hwhole hfine

theorem classify_mixture_longLeader :
    IsMixture 20 30 60 (usable longLeader) ∧ ∃ result,
      classify Rules.standard longLeader = .ok result ∧ result.centers = [20, 30, 60] ∧
      result.symbols = [.short, .short, .short, .unknown, .short, .short, .short, .short, .medium,
        .long] := by
  obtain ⟨⟨result, hresult, hcenters, hsymbols⟩, hwhole⟩ := classify_mixture isMixture_longLeader
  rw [usable_longLeader] at hwhole
  have hparted := hcenters.mpr
    ((hwhole (by decide) (by decide)).mpr isSeparableByDistance_longLeader)
  exact ⟨isMixture_longLeader, result, hresult, hparted, (hsymbols hparted).trans (by decide)⟩

/-- Not all mixtures are told apart: here one centre is left to the two longer widths. -/
theorem classify_tightLeader :
    IsMixture 20 100 200 (usable tightLeader) ∧
      tightLeader.map (symbolOfWidth 20 100 200) = [.short, .short, .short, .medium, .long] ∧
      classify Rules.standard tightLeader =
        .ok ⟨[.short, .short, .short, .long, .long], [20, 20, 150], 5⟩ := by
  have hsorted : ascending [20, 20, 20, 100, 200] = ([20, 20, 20, 100, 200] : List Rat) :=
    ascending_eq_of_perm (List.Perm.refl _) (by decide)
  have hcenters : centersOf Rules.standard (usable tightLeader) = [20, 20, 150] := by
    rw [usable_tightLeader, centersOf, seeds, hsorted]
    have hsettled : settle ([20, 20, 20, 100, 200] : List Rat) (1 / 1000000) 40 [20, 20, 100] =
        [20, 20, 150] := by decide +kernel
    exact (congrArg ascending hsettled).trans
      (ascending_eq_of_perm (List.Perm.refl _) (by decide))
  have hsymbols : tightLeader.map (symbolOf Rules.standard [20, 20, 150]) =
      [.short, .short, .short, .long, .long] := by decide +kernel
  have hne : usable tightLeader ≠ [] := by
    rw [usable_tightLeader]
    exact List.cons_ne_nil _ _
  refine ⟨?_, by decide, ?_⟩
  · rw [usable_tightLeader]
    exact ⟨by norm_num, by norm_num, by simp⟩
  · rw [classify_of_ne_nil hne, ← usable, hcenters, hsymbols, usable_tightLeader]
    rfl

end TapeSalvage.Pulse
