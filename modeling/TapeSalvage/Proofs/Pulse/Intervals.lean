import TapeSalvage.Proofs.Pulse.Outcome
import TapeSalvage.Proofs.Pulse.Nearest

/-!
The durations of a symbol. However the rounds go, no centre leaves the span of the values, and at
the end the centres stand in ascending order. A longer pulse in range therefore never takes a symbol
of shorter ones: the durations that take one symbol are an interval of the range.
-/
namespace TapeSalvage.Pulse

def Symbol.band? : Symbol → Option Nat
  | short => some 0
  | medium => some 1
  | long => some 2
  | unknown => none

theorem Symbol.band?_ofBand {band : Nat} (h : band < 3) : (ofBand band).band? = some band := by
  match band, h with
  | 0, _ => rfl
  | 1, _ => rfl
  | 2, _ => rfl

def Rules.InRange (rules : Rules Rat) (pulse : Rat) : Prop :=
  (rules.shortest : Rat) ≤ pulse ∧ pulse ≤ rules.longest

variable {rules : Rules Rat} {values centers : List Rat}

theorem admits_iff (rules : Rules Rat) (pulse : Rat) :
    rules.admits pulse = true ↔ rules.InRange pulse := by
  rw [Rules.admits, Bool.and_eq_true, gauge_le, gauge_le, decide_eq_true_iff, decide_eq_true_iff]
  rfl

theorem mem_filter_admits {pulses : List Rat} {pulse : Rat} :
    pulse ∈ pulses.filter rules.admits ↔ pulse ∈ pulses ∧ rules.InRange pulse := by
  rw [List.mem_filter, admits_iff]

theorem Rules.InRange.between {first between last : Rat} (hfirst : rules.InRange first)
    (hlast : rules.InRange last) (hle : first ≤ between) (hle' : between ≤ last) :
    rules.InRange between :=
  ⟨hfirst.1.trans hle, hle'.trans hlast.2⟩

theorem exists_span (h : values ≠ []) : ∃ least ∈ values, ∃ greatest ∈ values,
    ∀ value ∈ values, least ≤ value ∧ value ≤ greatest := by
  obtain ⟨least, hleast⟩ := Option.isSome_iff_exists.mp (List.isSome_min?_of_ne_nil h)
  obtain ⟨greatest, hgreatest⟩ := Option.isSome_iff_exists.mp (List.isSome_max?_of_ne_nil h)
  obtain ⟨hmem, hbelow⟩ := List.min?_eq_some_iff.mp hleast
  obtain ⟨hmem', habove⟩ := List.max?_eq_some_iff.mp hgreatest
  exact ⟨least, hmem, greatest, hmem',
    fun value hvalue => ⟨hbelow value hvalue, habove value hvalue⟩⟩

def IsWithin (low high : Rat) (values : List Rat) : Prop :=
  ∀ value ∈ values, low ≤ value ∧ value ≤ high

theorem isWithin_recenter {low high : Rat} (hvalues : IsWithin low high values)
    (h : IsWithin low high centers) : IsWithin low high (recenter values centers) := by
  intro moved hmoved
  rw [recenter_eq, List.mem_mapIdx] at hmoved
  obtain ⟨i, hi, rfl⟩ := hmoved
  apply meanOr_mem_bounds (h _ (List.getElem_mem hi))
  intro value hvalue
  exact hvalues value (mem_bucket.mp hvalue).1

/-- No centre leaves the span of the values, wherever the rounds end. -/
theorem isWithin_centersOf (rules : Rules Rat) {low high : Rat}
    (hvalues : IsWithin low high values) :
    IsWithin low high (centersOf rules values) := by
  have hseeds : IsWithin low high (seeds values 3) :=
    fun seed hseed => hvalues seed (mem_of_mem_seeds hseed)
  have hsettled := settle_invariant (IsWithin low high) (fun _ => isWithin_recenter hvalues)
    rules.threshold rules.rounds.toNat hseeds
  intro center hcenter
  exact hsettled center ((ascending_perm _).mem_iff.mp hcenter)

theorem length_centersOf (rules : Rules Rat) (h : values ≠ []) :
    (centersOf rules values).length = 3 := by
  rw [centersOf, length_ascending, length_settle, length_seeds h]

section

variable (hlength : centers.length = 3)

include hlength

theorem band?_symbolOf {pulse : Rat} (hpulse : rules.InRange pulse) :
    (symbolOf rules centers pulse).band? = some (nearest pulse centers) := by
  have hne : centers ≠ [] := by
    intro hnil
    rw [hnil] at hlength
    contradiction
  obtain ⟨center, hnearest⟩ := exists_isNearest pulse hne
  rw [symbolOf, if_pos ((admits_iff rules pulse).mpr hpulse)]
  exact Symbol.band?_ofBand (hlength ▸ hnearest.lt_length)

theorem symbolOf_eq_unknown_iff (pulse : Rat) :
    symbolOf rules centers pulse = .unknown ↔ ¬ rules.InRange pulse := by
  constructor
  · intro hunknown hpulse
    have hband := band?_symbolOf hlength hpulse
    rw [hunknown] at hband
    contradiction
  · intro hpulse
    rw [symbolOf, if_neg (mt (admits_iff rules pulse).mp hpulse)]

theorem symbolOf_between (hsorted : centers.Pairwise (· ≤ ·)) {first between last : Rat}
    (hle : first ≤ between) (hle' : between ≤ last)
    (hsame : symbolOf rules centers first = symbolOf rules centers last)
    (hknown : symbolOf rules centers first ≠ .unknown) :
    symbolOf rules centers between = symbolOf rules centers first := by
  have hfirst : rules.InRange first := by
    by_contra hnot
    exact hknown ((symbolOf_eq_unknown_iff hlength first).mpr hnot)
  have hlast : rules.InRange last := by
    by_contra hnot
    exact hknown (hsame.trans ((symbolOf_eq_unknown_iff hlength last).mpr hnot))
  have hbands := congrArg Symbol.band? hsame
  rw [band?_symbolOf hlength hfirst, band?_symbolOf hlength hlast] at hbands
  have hends := Option.some.inj hbands
  have hlow := nearest_le_nearest hsorted hle
  have hhigh := nearest_le_nearest hsorted hle'
  have hnearest : nearest between centers = nearest first centers := by omega
  rw [symbolOf, symbolOf, if_pos ((admits_iff rules _).mpr (hfirst.between hlast hle hle')),
    if_pos ((admits_iff rules _).mpr hfirst), hnearest]

end

/-- The centres stand in ascending order within the span of the pulses in range. Every pulse has a
symbol, which is unknown exactly out of range; in range a longer pulse never has a symbol of shorter
ones, and what lies between two pulses of one symbol has that symbol too. -/
theorem classify_intervals {pulses : List Rat} {result : Classification Rat}
    (h : classify rules pulses = .ok result) :
    result.centers.length = 3 ∧ result.centers.Pairwise (· ≤ ·) ∧
    (∃ least ∈ pulses, ∃ greatest ∈ pulses, rules.InRange least ∧ rules.InRange greatest ∧
      (∀ pulse ∈ pulses, rules.InRange pulse → least ≤ pulse ∧ pulse ≤ greatest) ∧
      ∀ center ∈ result.centers, least ≤ center ∧ center ≤ greatest) ∧
    ∃ symbol : Rat → Symbol, result.symbols = pulses.map symbol ∧
      (∀ pulse, symbol pulse = .unknown ↔ ¬ rules.InRange pulse) ∧
      (∀ pulse other, rules.InRange pulse → rules.InRange other → pulse ≤ other →
        ∃ band next, (symbol pulse).band? = some band ∧ (symbol other).band? = some next ∧
          band ≤ next) ∧
      ∀ first between last, first ≤ between → between ≤ last → symbol first = symbol last →
        symbol first ≠ .unknown → symbol between = symbol first := by
  by_cases hnil : pulses.filter rules.admits = []
  · rw [classify_of_eq_nil hnil] at h
    contradiction
  · rw [classify_of_ne_nil hnil] at h
    obtain rfl := Except.ok.inj h
    have hlength := length_centersOf rules hnil
    have hsorted : (centersOf rules (pulses.filter rules.admits)).Pairwise (· ≤ ·) :=
      ascending_pairwise _
    obtain ⟨least, hleast, greatest, hgreatest, hspan⟩ := exists_span hnil
    refine ⟨hlength, hsorted, ⟨least, (mem_filter_admits.mp hleast).1, greatest,
      (mem_filter_admits.mp hgreatest).1, (mem_filter_admits.mp hleast).2,
      (mem_filter_admits.mp hgreatest).2, ?_, isWithin_centersOf rules hspan⟩,
      symbolOf rules (centersOf rules (pulses.filter rules.admits)), rfl,
      symbolOf_eq_unknown_iff hlength, ?_, ?_⟩
    · intro pulse hmem hpulse
      exact hspan pulse (mem_filter_admits.mpr ⟨hmem, hpulse⟩)
    · intro pulse other hpulse hother hle
      exact ⟨_, _, band?_symbolOf hlength hpulse, band?_symbolOf hlength hother,
        nearest_le_nearest hsorted hle⟩
    · intro first between last hle hle' hsame hknown
      exact symbolOf_between hlength hsorted hle hle' hsame hknown

def shuffledPulses : List Rat := [300, 66, 48, 5, 66, 86, 48, 66]

theorem classify_shuffledPulses : classify Rules.standard shuffledPulses =
    .ok ⟨[.unknown, .medium, .short, .unknown, .medium, .long, .short, .medium],
      [48, 66, 86], 6⟩ := by
  have husable : shuffledPulses.filter (Rules.standard : Rules Rat).admits =
      [66, 48, 66, 86, 48, 66] := by decide +kernel
  have hsorted : ascending [66, 48, 66, 86, 48, 66] = ([48, 48, 66, 66, 66, 86] : List Rat) :=
    ascending_eq_of_perm (by decide) (by decide +kernel)
  have hseeds : seeds [66, 48, 66, 86, 48, 66] 3 = ([48, 66, 66] : List Rat) := by
    unfold seeds
    rw [hsorted]
    decide +kernel
  have hsettled : settle [66, 48, 66, 86, 48, 66] (Rules.standard : Rules Rat).threshold
      (Rules.standard : Rules Rat).rounds.toNat [48, 66, 66] = [48, 86, 66] := by decide +kernel
  have hcenters : centersOf Rules.standard [66, 48, 66, 86, 48, 66] =
      ([48, 66, 86] : List Rat) := by
    rw [centersOf, hseeds, hsettled]
    exact ascending_eq_of_perm (by decide) (by decide +kernel)
  have hne : shuffledPulses.filter (Rules.standard : Rules Rat).admits ≠ [] := by
    rw [husable]
    exact List.cons_ne_nil _ _
  have hsymbols : shuffledPulses.map (symbolOf Rules.standard [48, 66, 86]) =
      [.unknown, .medium, .short, .unknown, .medium, .long, .short, .medium] := by decide +kernel
  rw [classify_of_ne_nil hne, husable, hcenters, hsymbols]
  rfl

theorem classify_intervals_shuffledPulses :
    classify Rules.standard shuffledPulses =
      .ok ⟨[.unknown, .medium, .short, .unknown, .medium, .long, .short, .medium],
        [48, 66, 86], 6⟩ ∧
    ([48, 66, 86] : List Rat).Pairwise (· ≤ ·) ∧
    (Rules.standard : Rules Rat).InRange 48 ∧ (Rules.standard : Rules Rat).InRange 66 ∧
    ∃ symbol : Rat → Symbol, shuffledPulses.map symbol =
        [.unknown, .medium, .short, .unknown, .medium, .long, .short, .medium] ∧
      ∃ band next, (symbol 48).band? = some band ∧ (symbol 66).band? = some next ∧ band ≤ next := by
  have hshort : (Rules.standard : Rules Rat).InRange 48 := ⟨by decide +kernel, by decide +kernel⟩
  have hmedium : (Rules.standard : Rules Rat).InRange 66 := ⟨by decide +kernel, by decide +kernel⟩
  obtain ⟨_, hsorted, _, symbol, hsymbols, _, hascending, _⟩ :=
    classify_intervals classify_shuffledPulses
  exact ⟨classify_shuffledPulses, hsorted, hshort, hmedium, symbol, hsymbols.symm,
    hascending 48 66 hshort hmedium (by decide +kernel)⟩

end TapeSalvage.Pulse
