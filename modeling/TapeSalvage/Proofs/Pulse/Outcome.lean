import TapeSalvage.Pulse.Symbol

/-!
What clustering and classification give back. Clustering fails on nothing else than an empty list,
so classification fails exactly if no pulse is in range. The centres are those of the seeds moved by
some number of rounds, so what the seeds have and a round keeps is had by the centres at the end;
their number is such a thing.
-/
namespace TapeSalvage.Pulse

variable {α : Type} [Gauge α]

theorem cluster_eq (values : List α) (count rounds : Nat) (threshold : α) :
    cluster values count rounds threshold =
      if values.isEmpty then .error .valuesMissing
      else .ok (ascending (settle values threshold rounds (seeds values count))) := rfl

def centersOf (rules : Rules α) (usable : List α) : List α :=
  ascending (settle usable rules.threshold rules.rounds.toNat (seeds usable 3))

theorem cluster_of_ne_nil {rules : Rules α} {values : List α} (h : values ≠ []) :
    cluster values 3 rules.rounds.toNat rules.threshold = .ok (centersOf rules values) := by
  rw [cluster_eq, List.isEmpty_eq_false_iff.mpr h]
  rfl

theorem classify_of_eq_nil {rules : Rules α} {pulses : List α}
    (h : pulses.filter rules.admits = []) :
    classify rules pulses = .error (.pulsesUnusable rules.shortest rules.longest) := by
  unfold classify
  dsimp only
  rw [h]
  rfl

theorem classify_of_ne_nil {rules : Rules α} {pulses : List α}
    (h : pulses.filter rules.admits ≠ []) :
    classify rules pulses =
      .ok ⟨pulses.map (symbolOf rules (centersOf rules (pulses.filter rules.admits))),
        centersOf rules (pulses.filter rules.admits), (pulses.filter rules.admits).length⟩ := by
  unfold classify
  dsimp only
  rw [cluster_of_ne_nil h, List.isEmpty_eq_false_iff.mpr h]
  rfl

section

variable {values : List α}

/-- What every round keeps holds at the end, wherever the rounds end. -/
theorem settle_invariant (holds : List α → Prop)
    (hround : ∀ centers, holds centers → holds (recenter values centers)) (threshold : α)
    (rounds : Nat) {centers : List α} (h : holds centers) :
    holds (settle values threshold rounds centers) := by
  induction rounds generalizing centers with
  | zero => exact h
  | succ rounds ih =>
    rw [settle]
    split
    · exact h
    · exact ih (hround centers h)

theorem length_recenter (values centers : List α) :
    (recenter values centers).length = centers.length := by
  unfold recenter
  exact List.length_mapIdx

theorem recenter_ne_nil (values : List α) {centers : List α} (h : centers ≠ []) :
    recenter values centers ≠ [] := by
  rw [← List.length_pos_iff, length_recenter]
  exact List.length_pos_iff.mpr h

theorem length_settle (values : List α) (threshold : α) (rounds : Nat) (centers : List α) :
    (settle values threshold rounds centers).length = centers.length := by
  apply settle_invariant (fun moved => moved.length = centers.length) ?_ threshold rounds rfl
  intro moved hmoved
  rw [length_recenter, hmoved]

theorem mem_of_mem_seeds {count : Nat} {center : α} (h : center ∈ seeds values count) :
    center ∈ values := by
  obtain ⟨i, _, hi⟩ := List.mem_filterMap.mp h
  exact (List.mergeSort_perm values _).mem_iff.mp (List.mem_of_getElem? hi)

/-- There are values enough to begin with, if there is one: seeds may coincide. -/
theorem length_seeds (h : values ≠ []) (count : Nat) : (seeds values count).length = count := by
  have hsorted : (ascending values).length = values.length :=
    (List.mergeSort_perm values _).length_eq
  have hpos : 0 < values.length := List.length_pos_iff.mpr h
  have hall : ∀ i ∈ List.range count,
      ((ascending values)[(i + 1) * (ascending values).length / (count + 1)]?).isSome = true := by
    intro i hi
    have hi' : i + 1 < count + 1 := Nat.succ_lt_succ (List.mem_range.mp hi)
    have hbelow : (i + 1) * values.length / (count + 1) < values.length := by
      apply Nat.div_lt_of_lt_mul
      exact Nat.mul_lt_mul_of_pos_right hi' hpos
    rw [hsorted, List.getElem?_eq_getElem (by omega), Option.isSome_some]
  unfold seeds
  dsimp only
  rw [List.length_filterMap_eq_countP, List.countP_eq_length.mpr hall, List.length_range]

end

end TapeSalvage.Pulse
