import TapeSalvage.Proofs.Pulse.Outcome
import TapeSalvage.Proofs.Pulse.Seeding

/-!
Pulses of byte frames take the symbols that they were written for. What counts is how often each
symbol was written; pulses out of range may stand anywhere between the others.
-/
namespace TapeSalvage.Pulse

variable {short medium long jitter : Rat}

/-- Whether a pulse may have been written for a symbol. A pulse out of range is unknown. -/
inductive Shows (short medium long jitter : Rat) : Symbol → Rat → Prop
  | short {pulse : Rat} : (Rules.standard : Rules Rat).admits pulse = true →
      Near short jitter pulse → Shows short medium long jitter .short pulse
  | medium {pulse : Rat} : (Rules.standard : Rules Rat).admits pulse = true →
      Near medium jitter pulse → Shows short medium long jitter .medium pulse
  | long {pulse : Rat} : (Rules.standard : Rules Rat).admits pulse = true →
      Near long jitter pulse → Shows short medium long jitter .long pulse
  | unknown {pulse : Rat} : (Rules.standard : Rules Rat).admits pulse = false →
      Shows short medium long jitter .unknown pulse

def usable (pulses : List Rat) : List Rat := pulses.filter (Rules.standard : Rules Rat).admits

theorem usable_cons_of_admits {pulse : Rat} (h : (Rules.standard : Rules Rat).admits pulse = true)
    (rest : List Rat) : usable (pulse :: rest) = pulse :: usable rest :=
  List.filter_cons_of_pos h

theorem usable_cons_of_not_admits {pulse : Rat}
    (h : (Rules.standard : Rules Rat).admits pulse = false) (rest : List Rat) :
    usable (pulse :: rest) = usable rest :=
  List.filter_cons_of_neg (by simp [h])

theorem banded_of_shows {symbols : List Symbol} {pulses : List Rat}
    (h : List.Forall₂ (Shows short medium long jitter) symbols pulses) :
    IsBanded short medium long jitter (usable pulses) := by
  intro value hvalue
  obtain ⟨hmem, hadmits⟩ := List.mem_filter.mp hvalue
  clear hvalue
  induction h with
  | nil => contradiction
  | cons hshow _ ih =>
    rcases List.mem_cons.mp hmem with rfl | hrest
    · cases hshow with
      | short _ hnear => exact Or.inl hnear
      | medium _ hnear => exact Or.inr (Or.inl hnear)
      | long _ hnear => exact Or.inr (Or.inr hnear)
      | unknown hnot => exact absurd hadmits (by simp [hnot])
    · exact ih hrest

/-- The ranks of the bands among the pulses are the counts of the symbols. -/
theorem ranks_of_shows (hs : IsSpread short medium long jitter) {symbols : List Symbol}
    {pulses : List Rat} (h : List.Forall₂ (Shows short medium long jitter) symbols pulses) :
    (usable pulses).length =
        symbols.count .short + symbols.count .medium + symbols.count .long ∧
      (usable pulses).countP (fun value => value ≤ short + jitter) = symbols.count .short ∧
      (usable pulses).countP (fun value => value ≤ medium + jitter) =
        symbols.count .short + symbols.count .medium := by
  obtain ⟨hJ, hapart, hfar⟩ := hs
  induction h with
  | nil => simp [usable]
  | cons hshow _ ih =>
    obtain ⟨hlength, hlow, hmid⟩ := ih
    cases hshow with
    | short hadmits hnear =>
      have hbelow : _ ≤ medium + jitter := hnear.2.trans (by linarith)
      rw [usable_cons_of_admits hadmits, List.countP_cons_of_pos (by simpa using hnear.2),
        List.countP_cons_of_pos (by simpa using hbelow)]
      simp only [List.length_cons, List.count_cons]
      simp
      omega
    | medium hadmits hnear =>
      have hnot : ¬ _ ≤ short + jitter := fun hle => absurd (hnear.1.trans hle) (by linarith)
      rw [usable_cons_of_admits hadmits, List.countP_cons_of_neg (by simpa using hnot),
        List.countP_cons_of_pos (by simpa using hnear.2)]
      simp only [List.length_cons, List.count_cons]
      simp
      omega
    | long hadmits hnear =>
      have hnot : ¬ _ ≤ short + jitter := fun hle => absurd (hnear.1.trans hle) (by linarith)
      have hnot' : ¬ _ ≤ medium + jitter := fun hle => absurd (hnear.1.trans hle) (by linarith)
      rw [usable_cons_of_admits hadmits, List.countP_cons_of_neg (by simpa using hnot),
        List.countP_cons_of_neg (by simpa using hnot')]
      simp only [List.length_cons, List.count_cons]
      simp
      omega
    | unknown hadmits =>
      rw [usable_cons_of_not_admits hadmits]
      simp only [List.count_cons]
      simp
      omega

theorem symbolOf_of_shows (hs : IsSpread short medium long jitter) {a b c : Rat}
    (hsplit : IsSplit short medium long jitter a b c) {symbol : Symbol} {pulse : Rat}
    (h : Shows short medium long jitter symbol pulse) :
    symbolOf Rules.standard [a, b, c] pulse = symbol := by
  cases h with
  | short hadmits hnear =>
    rw [symbolOf, if_pos hadmits, (nearest_short_of_isSplit hs hsplit hnear).1]
    rfl
  | medium hadmits hnear =>
    rw [symbolOf, if_pos hadmits, (nearest_medium_of_isSplit hs hsplit hnear).1]
    rfl
  | long hadmits hnear =>
    rw [symbolOf, if_pos hadmits, (nearest_long_of_isSplit hs hsplit hnear).1]
    rfl
  | unknown hadmits =>
    rw [symbolOf, hadmits]
    rfl

theorem map_symbolOf_of_shows (hs : IsSpread short medium long jitter) {a b c : Rat}
    (hsplit : IsSplit short medium long jitter a b c) {symbols : List Symbol} {pulses : List Rat}
    (h : List.Forall₂ (Shows short medium long jitter) symbols pulses) :
    pulses.map (symbolOf Rules.standard [a, b, c]) = symbols := by
  induction h with
  | nil => rfl
  | cons hshow _ ih => rw [List.map_cons, symbolOf_of_shows hs hsplit hshow, ih]

/-- Pulses written for frames are told apart, if there is at least one frame. -/
theorem classify_of_shows (hs : IsSpread short medium long jitter) {symbols : List Symbol}
    {pulses : List Rat} (h : List.Forall₂ (Shows short medium long jitter) symbols pulses) {n : Nat}
    (hn : 0 < n) (hshort : symbols.count .short = 8 * n) (hmedium : symbols.count .medium = 9 * n)
    (hlong : symbols.count .long = n) :
    ∃ centers, classify Rules.standard pulses = .ok ⟨symbols, centers, (usable pulses).length⟩ := by
  obtain ⟨hlength, hlow, hmid⟩ := ranks_of_shows hs h
  have hbalanced : IsBalanced short medium long jitter (usable pulses) :=
    ⟨banded_of_shows h, n, hn, by omega, by omega, by omega⟩
  obtain ⟨a, b, c, hcluster, hsplit⟩ := cluster_of_isBalanced hs hbalanced 39
  have hne : usable pulses ≠ [] := by
    intro hnil
    rw [hnil, List.length_nil] at hlength
    omega
  have hcenters : centersOf Rules.standard (usable pulses) = [a, b, c] :=
    Except.ok.inj ((cluster_of_ne_nil hne).symm.trans hcluster)
  refine ⟨[a, b, c], ?_⟩
  rw [classify_of_ne_nil hne, ← usable, hcenters, map_symbolOf_of_shows hs hsplit h]

end TapeSalvage.Pulse
