import TapeSalvage.Command.Execute
import TapeSalvage.Proofs.Capture.Records
import TapeSalvage.Proofs.Pulse.Settled
import TapeSalvage.Proofs.Recovery.Outcome

/-!
Tapes of exact pulses that begin with a tone. The tone is as long as it takes for the fractiles of
the pulses to be one of each kind, so that the clustering of such a tape ends in its first round and
its symbols are read back as they are. One such tape holds a program of three lines.
-/
namespace TapeSalvage.Command

open Pulse

def toneWidth : Symbol → Nat
  | .short => 48
  | .medium => 66
  | .long => 86
  | .unknown => 0

def toneCenters : List Float := [48, 66, 86].map fun width : Nat => Gauge.ofInt width

section Tone

variable {symbols : List Symbol}

theorem toneWidth_mem (h : .unknown ∉ symbols) : symbols.map toneWidth ⊆ [48, 66, 86] := by
  intro width hwidth
  obtain ⟨symbol, hsymbol, rfl⟩ := List.mem_map.mp hwidth
  cases symbol with
  | unknown => exact absurd hsymbol h
  | _ => decide

theorem symbolOf_toneWidth {symbol : Symbol} (h : symbol ≠ .unknown) :
    (Rules.standard : Rules Float).admits (Gauge.ofInt (toneWidth symbol)) = true ∧
      symbolOf Rules.standard toneCenters (Gauge.ofInt (toneWidth symbol) : Float) = symbol := by
  cases symbol with
  | unknown => contradiction
  | _ => decide +kernel

theorem readFrom_toneWidths (h : .unknown ∉ symbols) (done : List Nat) :
    Capture.readFrom done ((symbols.map toneWidth).map UInt8.ofNat) =
      done.reverse ++ symbols.map toneWidth := by
  induction symbols generalizing done with
  | nil => simp [Capture.readFrom]
  | cons symbol rest ih =>
    rw [List.mem_cons, not_or] at h
    have hwidth : UInt8.ofNat (toneWidth symbol) ≠ 0 ∧
        (UInt8.ofNat (toneWidth symbol)).toNat = toneWidth symbol := by
      cases symbol with
      | unknown => exact absurd rfl h.1
      | _ => decide
    rw [List.map_cons, List.map_cons, Capture.readFrom_of_ne_zero hwidth.1, ih h.2, hwidth.2,
      List.reverse_cons, List.append_assoc]
    rfl

/-- Pulses of exact widths are classified as what they are, if the fractiles of their widths are one
of each kind and the centres are settled there. -/
theorem classify_of_tone {sorted : List Nat} (hne : symbols ≠ []) (hclear : .unknown ∉ symbols)
    (hperm : (symbols.map toneWidth).Perm sorted) (hsorted : sorted.Pairwise (· ≤ ·))
    (hfractiles : ((List.range 3).filterMap fun i => sorted[(i + 1) * sorted.length / 4]?) =
      [48, 66, 86])
    (hsettled : isSettled Gauge.millionth toneCenters
      (recenter ((symbols.map toneWidth).map fun width : Nat => (Gauge.ofInt width : Float))
        toneCenters) = true) :
    classify (Rules.standard : Rules Float)
        ((symbols.map toneWidth).map fun width : Nat => Gauge.ofInt width) =
      .ok ⟨symbols, toneCenters, symbols.length⟩ := by
  have hknown : ∀ symbol ∈ symbols, symbol ≠ .unknown := by
    rintro symbol hsymbol rfl
    exact hclear hsymbol
  have hgauge : ∀ a ∈ [48, 66, 86], ∀ b ∈ [48, 66, 86],
      decide (a ≤ b) = Gauge.le (Gauge.ofInt (a : Nat) : Float) (Gauge.ofInt (b : Nat)) := by
    decide +kernel
  have hkinds : sorted ⊆ [48, 66, 86] :=
    fun width hwidth => toneWidth_mem hclear (hperm.mem_iff.mpr hwidth)
  have hseeds : seeds
      ((symbols.map toneWidth).map fun width : Nat => (Gauge.ofInt width : Float)) 3 =
        toneCenters := by
    unfold seeds toneCenters
    rw [ascending_map_of_perm hperm hsorted fun a ha b hb => hgauge a (hkinds ha) b (hkinds hb),
      ← hfractiles, List.map_filterMap]
    simp only [List.length_map, List.getElem?_map]
  have hascending : ascending toneCenters = toneCenters :=
    ascending_map_of_perm (.refl _) (by decide) hgauge
  rw [List.map_map] at hsettled hseeds ⊢
  have hadmits :
      ∀ pulse ∈ symbols.map ((fun width : Nat => (Gauge.ofInt width : Float)) ∘ toneWidth),
        (Rules.standard : Rules Float).admits pulse = true := by
    intro pulse hpulse
    obtain ⟨symbol, hsymbol, rfl⟩ := List.mem_map.mp hpulse
    exact (symbolOf_toneWidth (hknown symbol hsymbol)).1
  have hsymbols : (symbols.map ((fun width : Nat => (Gauge.ofInt width : Float)) ∘ toneWidth)).map
      (symbolOf Rules.standard toneCenters) = symbols := by
    rw [List.map_map]
    refine (List.map_congr_left fun symbol hsymbol => ?_).trans (List.map_id symbols)
    exact (symbolOf_toneWidth (hknown symbol hsymbol)).2
  rw [classify_of_isSettled (by simpa using hne) hadmits hseeds hsettled hascending, hsymbols,
    List.length_map]

/-- A tape whose pulses are classified as what they are is decoded as its symbols are. -/
theorem decoded_of_tone {config : Recovery.Config Float} (hclear : .unknown ∉ symbols)
    (hlength : symbols.length < Nat.pow 2 32)
    (hclassify : classify (Rules.standard : Rules Float)
        ((symbols.map toneWidth).map fun width : Nat => Gauge.ofInt width) =
      .ok ⟨symbols, toneCenters, symbols.length⟩)
    (hrules : config.pulseRules = Rules.standard) :
    Recovery.decoded config (Capture.ofStream ((symbols.map toneWidth).map UInt8.ofNat)) =
      .ok ((Frame.decode symbols).bytes,
        ⟨toneCenters, symbols.length, (Frame.decode symbols).bytes.length⟩) := by
  have hpulses : Capture.pulses (Capture.ofStream ((symbols.map toneWidth).map UInt8.ofNat)) =
      .ok (symbols.map toneWidth) := by
    rw [Capture.pulses_ofStream (by simpa using hlength)]
    exact congrArg Except.ok (readFrom_toneWidths hclear [])
  rw [← hrules] at hclassify
  rw [Recovery.decoded_eq_ok hpulses hclassify, List.length_map]

end Tone

def emptyLines : Bytes :=
  [0x01, 0x10, 0x06, 0x10, 10, 0, 0, 0x0B, 0x10, 20, 0, 0, 0x10, 0x10, 30, 0, 0, 0, 0, 0xFF, 0xFF,
    0xFF]

/-- The symbols of a tape that begins with a tone of long pulses, as many as set the seeds apart. -/
def toneSymbols : List Symbol := List.replicate 110 .long ++ Frame.encode emptyLines

def toneWidths : List Nat := toneSymbols.map toneWidth

def toneTape : Bytes := Capture.ofStream (toneWidths.map UInt8.ofNat)

def toneSorted : List Nat := List.replicate 176 48 ++ List.replicate 198 66 ++ List.replicate 132 86

def tonePulses : List Float := toneWidths.map fun width : Nat => Gauge.ofInt width

theorem unknown_notMem_toneSymbols : .unknown ∉ toneSymbols := by decide +kernel

theorem classify_tonePulses :
    classify (Rules.standard : Rules Float) tonePulses =
      .ok ⟨toneSymbols, toneCenters, toneSymbols.length⟩ := by
  have hothers : toneSorted ⊆ [48, 66, 86] := by decide +kernel
  have hperm : toneWidths.Perm toneSorted :=
    perm_of_count (toneWidth_mem unknown_notMem_toneSymbols) hothers (by decide +kernel)
  exact classify_of_tone (by decide +kernel) unknown_notMem_toneSymbols hperm (by decide +kernel)
    (by decide +kernel) (by decide +kernel)

theorem decoded_toneTape {config : Recovery.Config Float} (h : config.pulseRules = Rules.standard) :
    Recovery.decoded config toneTape =
      .ok (emptyLines, ⟨toneCenters, toneSymbols.length, emptyLines.length⟩) := by
  have hdecode : (Frame.decode toneSymbols).bytes = emptyLines := by decide +kernel
  have hdecoded := decoded_of_tone unknown_notMem_toneSymbols (by decide +kernel)
    classify_tonePulses h
  rw [hdecode] at hdecoded
  exact hdecoded

def scanConfig : Recovery.Config Float :=
  { Recovery.Config.standard with
    name := "a.tap", mode := .scan, listing := { startSkip := some 0 } }

theorem exists_recovered_toneTape :
    ∃ result, Recovery.recovered scanConfig toneTape = .ok result := by
  have hsearch : Scan.search? scanConfig.scanRules emptyLines =
      some ⟨0, .finite 190, 0x1001, 21, 3, .finite 0⟩ := by decide +kernel
  have hscan : Scan.search scanConfig.scanRules emptyLines =
      .ok ⟨0, .finite 190, 0x1001, 21, 3, .finite 0⟩ := by
    rw [Scan.search, hsearch]
  exact ⟨_, (bind_eq_ok_iff _ _ _).mpr
    ⟨_, decoded_toneTape rfl, (bind_eq_ok_iff _ _ _).mpr ⟨_, hscan, rfl⟩⟩⟩

def toneWorld : World := ⟨⟨[("a.tap", toneTape)], []⟩, .empty⟩

end TapeSalvage.Command
