import TapeSalvage.Proofs.Pulse.Labels
import TapeSalvage.Proofs.Pulse.Parting

/-!
Which mixtures of three widths are told apart. The seeds are the widths at the quarters of the
sorted values, so they depend on the proportions: a width that fills two quarters takes two seeds.
From there the distances between the widths and their means decide whether the rounds part the
widths after all.
-/
namespace TapeSalvage.Pulse

def bandAt (short medium : Rat) (values : List Rat) (rank : Nat) : Symbol :=
  if rank < values.countP (· ≤ short) then .short
  else if rank < values.countP (· ≤ medium) then .medium
  else .long

/-- The symbols of the widths at a quarter, a half and three quarters of the sorted values. -/
def quarters (short medium : Rat) (values : List Rat) : Symbol × Symbol × Symbol :=
  (bandAt short medium values (values.length / 4),
    bandAt short medium values (2 * values.length / 4),
    bandAt short medium values (3 * values.length / 4))

def widthOf (short medium long : Rat) : Symbol → Rat
  | .short => short
  | .medium => medium
  | _ => long

/-- Whether the rounds part three widths, by the widths at the three quarters. Each centre on the
way to the widths has to compare rightly with its neighbours, and each round has to move one
centre. -/
def IsSeparable (threshold short medium long : Rat) (values : List Rat) : Prop :=
  let moves := Moves threshold
  let low := lowMean long values
  let high := highMean short values
  let all := mean values
  match quarters short medium values with
  | (.short, .medium, .long) => True
  | (.short, .medium, .medium) => moves medium high ∧ moves high long
  | (.medium, .medium, .long) => moves medium low ∧ moves low short
  | (.medium, .medium, .medium) =>
    moves medium all ∧
      ((medium < all ∧ (moves all long ∨ moves medium low) ∧ moves low short) ∨
        (all < medium ∧ (moves all short ∨ moves medium high) ∧ moves high long))
  | (.short, .short, .long) =>
    medium - short ≤ long - medium ∧ moves short low ∧ moves low medium
  | (.short, .long, .long) =>
    long - medium < medium - short ∧ moves long high ∧ moves high medium
  | (.short, .short, .medium) =>
    moves medium high ∧ medium - short ≤ high - medium ∧
      (moves short low ∨ moves high long) ∧ moves low medium
  | (.medium, .long, .long) =>
    moves medium low ∧ long - medium < medium - low ∧
      (moves low short ∨ moves long high) ∧ moves high medium
  | (.short, .short, .short) =>
    moves short all ∧
      ((medium - short < all - medium ∧ (moves all long ∨ moves short low) ∧ moves low medium) ∨
        (all - medium ≤ medium - short ∧ moves all high ∧ medium - short < high - medium ∧
          (moves high long ∨ moves short low) ∧ moves low medium))
  | (.long, .long, .long) =>
    moves long all ∧
      ((long - medium < medium - all ∧ (moves all short ∨ moves long high) ∧ moves high medium) ∨
        (medium - all ≤ long - medium ∧ moves all low ∧ long - medium < medium - low ∧
          (moves low short ∨ moves long high) ∧ moves high medium))
  | _ => False

theorem bandAt_cases (short medium : Rat) (values : List Rat) (rank : Nat) :
    (bandAt short medium values rank = .short ∧ rank < values.countP (· ≤ short)) ∨
    (bandAt short medium values rank = .medium ∧ values.countP (· ≤ short) ≤ rank ∧
      rank < values.countP (· ≤ medium)) ∨
    (bandAt short medium values rank = .long ∧ values.countP (· ≤ short) ≤ rank ∧
      values.countP (· ≤ medium) ≤ rank) := by
  unfold bandAt
  split_ifs with hshort hmedium
  · exact Or.inl ⟨rfl, hshort⟩
  · exact Or.inr (Or.inl ⟨rfl, not_lt.mp hshort, hmedium⟩)
  · exact Or.inr (Or.inr ⟨rfl, not_lt.mp hshort, not_lt.mp hmedium⟩)

/-- The widths at the quarters ascend. -/
theorem quarters_mem {short medium : Rat} (h : short ≤ medium) (values : List Rat) :
    quarters short medium values ∈
      [(.short, .short, .short), (.short, .short, .medium), (.short, .short, .long),
        (.short, .medium, .medium), (.short, .medium, .long), (.short, .long, .long),
        (.medium, .medium, .medium), (.medium, .medium, .long), (.medium, .long, .long),
        (.long, .long, .long)] := by
  have hcounts : values.countP (· ≤ short) ≤ values.countP (· ≤ medium) := by
    apply List.countP_mono_left
    intro value _ hvalue
    exact decide_eq_true ((of_decide_eq_true hvalue).trans h)
  have hfirst : values.length / 4 ≤ 2 * values.length / 4 := by omega
  have hsecond : 2 * values.length / 4 ≤ 3 * values.length / 4 := by omega
  unfold quarters
  rcases bandAt_cases short medium values (values.length / 4) with
    ⟨h₁, hr₁⟩ | ⟨h₁, hr₁, hr₁'⟩ | ⟨h₁, hr₁, hr₁'⟩ <;>
  rcases bandAt_cases short medium values (2 * values.length / 4) with
    ⟨h₂, hr₂⟩ | ⟨h₂, hr₂, hr₂'⟩ | ⟨h₂, hr₂, hr₂'⟩ <;>
  rcases bandAt_cases short medium values (3 * values.length / 4) with
    ⟨h₃, hr₃⟩ | ⟨h₃, hr₃, hr₃'⟩ | ⟨h₃, hr₃, hr₃'⟩ <;>
  rw [h₁, h₂, h₃] <;>
  first | decide | omega

namespace IsMixture

variable {short medium long threshold : Rat} {values : List Rat} {rounds : Nat}

theorem ascending_getElem_eq (h : IsMixture short medium long values) (rank : Nat)
    (hrank : rank < (ascending values).length) :
    (ascending values)[rank] = widthOf short medium long (bandAt short medium values rank) := by
  have hshort := ascending_getElem_le_iff values short rank hrank
  have hmedium := ascending_getElem_le_iff values medium rank hrank
  have hmem := (ascending_perm values).mem_iff.mp (List.getElem_mem hrank)
  have hlower := h.lower
  have hupper := h.upper
  unfold bandAt
  rcases (h.mem_iff _).mp hmem with hwidth | hwidth | hwidth <;> rw [hwidth] at hshort hmedium ⊢
  · rw [if_pos (hshort.mp le_rfl)]
    rfl
  · rw [if_neg (mt hshort.mpr hlower.not_ge), if_pos (hmedium.mp le_rfl)]
    rfl
  · rw [if_neg (mt hshort.mpr (hlower.trans hupper).not_ge), if_neg (mt hmedium.mpr hupper.not_ge)]
    rfl

theorem seeds_eq (h : IsMixture short medium long values) :
    seeds values 3 = [widthOf short medium long (quarters short medium values).1,
      widthOf short medium long (quarters short medium values).2.1,
      widthOf short medium long (quarters short medium values).2.2] := by
  obtain ⟨h₁, h₂, h₃, hseeds⟩ := seeds_three values (List.ne_nil_of_mem h.short_mem)
  rw [hseeds, h.ascending_getElem_eq _ h₁, h.ascending_getElem_eq _ h₂, h.ascending_getElem_eq _ h₃]
  rfl

/-- Four rounds tell whether the widths are ever parted. -/
theorem endsApart_seeds_iff (h : IsMixture short medium long values) (hpos : 0 < threshold) :
    EndsApart short medium long values threshold (rounds + 4) (seeds values 3) ↔
      IsSeparable threshold short medium long values := by
  have hquarters := quarters_mem h.lower.le values
  rw [h.seeds_eq, IsSeparable]
  generalize quarters short medium values = atQuarters at hquarters ⊢
  simp only [List.mem_cons, List.not_mem_nil, or_false] at hquarters
  rcases hquarters with rfl | rfl | rfl | rfl | rfl | rfl | rfl | rfl | rfl | rfl
  · exact h.endsApart_short_short_short_iff hpos
  · exact h.endsApart_short_short_medium_iff hpos
  · exact h.endsApart_short_short_long_iff hpos
  · exact h.endsApart_short_medium_medium_iff hpos
  · exact iff_of_true (h.endsApart_of_perm (List.Perm.refl _)) trivial
  · exact h.endsApart_short_long_long_iff hpos
  · exact h.endsApart_medium_medium_medium_iff hpos
  · exact h.endsApart_medium_medium_long_iff hpos
  · exact h.endsApart_medium_long_long_iff hpos
  · exact h.endsApart_long_long_long_iff hpos

end IsMixture

end TapeSalvage.Pulse
