import TapeSalvage.Proofs.Capture.Records
import TapeSalvage.Proofs.Frame.Resync
import TapeSalvage.Proofs.Pulse.Labels
import TapeSalvage.Proofs.Recovery.Outcome

/-!
Demodulation of a tape that was written with jitter. The pulses of the frames stay near the widths
of their symbols, and pulses out of range may stand before, between and after the frames. The
jitter is small against the distances of the widths, in exact arithmetic.
-/
namespace TapeSalvage.Recovery

open Pulse (Symbol Shows IsSpread Near)

structure Widths where
  short : Int
  medium : Int
  long : Int

def Widths.of (widths : Widths) : Symbol → Int
  | .short => widths.short
  | .medium => widths.medium
  | .long => widths.long
  | .unknown => 0

structure IsPulse (widths : Widths) (jitter : Int) (symbol : Symbol) (pulse : Int) : Prop where
  least : widths.of symbol - jitter ≤ pulse
  most : pulse ≤ widths.of symbol + jitter
  inRange : 10 ≤ pulse ∧ pulse ≤ 250

instance (widths : Widths) (jitter : Int) (symbol : Symbol) (pulse : Int) :
    Decidable (IsPulse widths jitter symbol pulse) :=
  decidable_of_iff (widths.of symbol - jitter ≤ pulse ∧ pulse ≤ widths.of symbol + jitter ∧
    10 ≤ pulse ∧ pulse ≤ 250) ⟨fun h => ⟨h.1, h.2.1, h.2.2⟩, fun h => ⟨h.least, h.most, h.inRange⟩⟩

def IsNoise (pulses : List Int) : Prop :=
  ∀ pulse ∈ pulses, (0 ≤ pulse ∧ pulse < 10) ∨ (250 < pulse ∧ pulse ≤ Capture.longestPulse)

instance (pulses : List Int) : Decidable (IsNoise pulses) :=
  inferInstanceAs (Decidable (∀ pulse ∈ pulses, _))

/-- The pulses of a tape of a byte string: noise, and a frame for each byte with more noise after
it. -/
inductive IsTape (widths : Widths) (jitter : Int) : Bytes → List Int → Prop
  | blank {noise : List Int} : IsNoise noise → IsTape widths jitter [] noise
  | frame {noise pulses later : List Int} {byte : UInt8} {data : Bytes} : IsNoise noise →
      List.Forall₂ (IsPulse widths jitter) (Frame.ofByte byte) pulses →
      IsTape widths jitter data later →
        IsTape widths jitter (byte :: data) (noise ++ pulses ++ later)

variable {widths : Widths} {jitter : Int}

theorem fits_of_isPulses {symbols : List Symbol} {pulses : List Int}
    (h : List.Forall₂ (IsPulse widths jitter) symbols pulses) :
    ∀ pulse ∈ pulses, Capture.Fits pulse := by
  induction h with
  | nil => simp
  | cons hpulse _ ih =>
    intro pulse hmem
    rcases List.mem_cons.mp hmem with rfl | hrest
    · have hin := hpulse.inRange
      unfold Capture.Fits Capture.longestPulse
      omega
    · exact ih pulse hrest

theorem fits_of_isTape {data : Bytes} {pulses : List Int} (h : IsTape widths jitter data pulses) :
    ∀ pulse ∈ pulses, Capture.Fits pulse := by
  have hnoise : ∀ noise : List Int, IsNoise noise → ∀ pulse ∈ noise, Capture.Fits pulse := by
    intro noise hnoise pulse hmem
    have hout := hnoise pulse hmem
    unfold Capture.Fits
    unfold Capture.longestPulse at hout ⊢
    omega
  induction h with
  | blank hblank => exact hnoise _ hblank
  | frame hbefore hframe _ ih =>
    intro pulse hmem
    rw [List.mem_append, List.mem_append] at hmem
    rcases hmem with (hmem | hmem) | hmem
    · exact hnoise _ hbefore pulse hmem
    · exact fits_of_isPulses hframe pulse hmem
    · exact ih pulse hmem

theorem admits_intCast (pulse : Int) :
    (Pulse.Rules.standard : Pulse.Rules Rat).admits (pulse : Rat) =
      decide (10 ≤ pulse ∧ pulse ≤ 250) := by
  have hlow : ((10 : Int) : Rat) ≤ pulse ↔ 10 ≤ pulse := Rat.intCast_le_intCast
  have hhigh : (pulse : Rat) ≤ ((250 : Int) : Rat) ↔ pulse ≤ 250 := Rat.intCast_le_intCast
  rw [Pulse.Rules.admits, Pulse.gauge_le, Pulse.gauge_le, Bool.decide_and]
  exact congrArg₂ and (decide_eq_decide.mpr hlow) (decide_eq_decide.mpr hhigh)

theorem near_of_isPulse {symbol : Symbol} {pulse : Int} (h : IsPulse widths jitter symbol pulse) :
    Near (widths.of symbol : Rat) jitter pulse := by
  constructor
  · exact_mod_cast h.least
  · exact_mod_cast h.most

theorem shows_of_isPulse {symbol : Symbol} {pulse : Int} (hknown : symbol ≠ .unknown)
    (h : IsPulse widths jitter symbol pulse) :
    Shows (widths.short : Rat) widths.medium widths.long jitter symbol (pulse : Rat) := by
  have hadmits : (Pulse.Rules.standard : Pulse.Rules Rat).admits (pulse : Rat) = true := by
    rw [admits_intCast]
    exact decide_eq_true h.inRange
  have hnear := near_of_isPulse h
  cases symbol with
  | short => exact .short hadmits hnear
  | medium => exact .medium hadmits hnear
  | long => exact .long hadmits hnear
  | unknown => exact absurd rfl hknown

theorem shows_of_isPulses {symbols : List Symbol} {pulses : List Int}
    (hknown : Symbol.unknown ∉ symbols) (h : List.Forall₂ (IsPulse widths jitter) symbols pulses) :
    List.Forall₂ (Shows (widths.short : Rat) widths.medium widths.long jitter) symbols
      (pulses.map fun pulse : Int => (pulse : Rat)) := by
  induction h with
  | nil => exact .nil
  | cons hpulse _ ih =>
    rw [List.mem_cons, not_or] at hknown
    exact .cons (shows_of_isPulse (Ne.symm hknown.1) hpulse) (ih hknown.2)

theorem shows_of_isNoise {noise : List Int} (h : IsNoise noise) :
    List.Forall₂ (Shows (widths.short : Rat) widths.medium widths.long jitter)
      (List.replicate noise.length .unknown) (noise.map fun pulse : Int => (pulse : Rat)) := by
  induction noise with
  | nil => exact .nil
  | cons pulse rest ih =>
    have hout := h pulse (List.mem_cons_self ..)
    have hadmits : (Pulse.Rules.standard : Pulse.Rules Rat).admits (pulse : Rat) = false := by
      rw [admits_intCast]
      exact decide_eq_false (by omega)
    exact .cons (.unknown hadmits) (ih fun p hp => h p (List.mem_cons_of_mem _ hp))

/-- A frame is written with eight short symbols, nine medium ones and a long one. -/
theorem count_ofByte (byte : UInt8) :
    (Frame.ofByte byte).count .short = 8 ∧ (Frame.ofByte byte).count .medium = 9 ∧
      (Frame.ofByte byte).count .long = 1 ∧ Symbol.unknown ∉ Frame.ofByte byte := by
  have hpair : ∀ bit, (Frame.pair bit).count .short = 1 ∧ (Frame.pair bit).count .medium = 1 ∧
      (Frame.pair bit).count .unknown = 0 := by decide
  have hpairs : ∀ count value, (Frame.pairs count value).count .short = count ∧
      (Frame.pairs count value).count .medium = count ∧
      (Frame.pairs count value).count .unknown = 0 := by
    intro count
    induction count with
    | zero => intro value; exact ⟨rfl, rfl, rfl⟩
    | succ count ih =>
      intro value
      obtain ⟨hshort, hmedium, hunknown⟩ := ih (value / 2)
      obtain ⟨hshort', hmedium', hunknown'⟩ := hpair (value % 2 == 1)
      rw [Frame.pairs, List.count_append, List.count_append, List.count_append]
      omega
  obtain ⟨hshort, hmedium, hunknown⟩ := hpairs 8 byte.toNat
  have hlong := List.count_eq_zero_of_not_mem (Frame.long_notMem_pairs 8 byte.toNat)
  rw [← List.count_eq_zero]
  unfold Frame.ofByte
  simp only [List.count_cons, hshort, hmedium, hlong, hunknown]
  decide

/-- The symbols of a tape: they spell its bytes and come in the proportions of frames. -/
theorem exists_symbols_of_isTape {data : Bytes} {pulses : List Int}
    (h : IsTape widths jitter data pulses) :
    ∃ symbols : List Symbol,
      List.Forall₂ (Shows (widths.short : Rat) widths.medium widths.long jitter) symbols
        (pulses.map fun pulse : Int => (pulse : Rat)) ∧
      Frame.placed symbols = data ∧ symbols.count .short = 8 * data.length ∧
      symbols.count .medium = 9 * data.length ∧ symbols.count .long = data.length := by
  have hskip : ∀ (count : Nat) (rest : List Symbol),
      Frame.placed (List.replicate count .unknown ++ rest) = Frame.placed rest := by
    intro count rest
    have hdrop := Frame.placed_drop count (List.replicate count .unknown ++ rest)
    rw [List.take_left' List.length_replicate, List.drop_left' List.length_replicate] at hdrop
    exact (hdrop (by simp)).symm
  induction h with
  | @blank noise hnoise =>
    refine ⟨List.replicate noise.length .unknown, shows_of_isNoise hnoise, ?_, ?_⟩
    · rw [← List.append_nil (List.replicate _ _), hskip]
      rfl
    · simp [List.count_replicate]
  | @frame noise pulses later byte data hnoise hframe _ ih =>
    obtain ⟨symbols, hshows, hplaced, hshort, hmedium, hlong⟩ := ih
    obtain ⟨hshort', hmedium', hlong', hknown⟩ := count_ofByte byte
    refine ⟨List.replicate noise.length .unknown ++ Frame.ofByte byte ++ symbols, ?_, ?_, ?_⟩
    · rw [List.map_append, List.map_append]
      exact List.rel_append
        (List.rel_append (shows_of_isNoise hnoise) (shows_of_isPulses hknown hframe)) hshows
    · rw [List.append_assoc, hskip, Frame.placed_ofByte_append, hplaced]
    · simp only [List.count_append, List.count_replicate, List.length_cons]
      simp
      omega

theorem isSpread_of_lt (hJ : 0 ≤ jitter) (hapart : 4 * jitter < widths.medium - widths.short)
    (hfar : 40 * jitter < widths.long - widths.medium) :
    IsSpread (widths.short : Rat) widths.medium widths.long jitter := by
  have hfar' : 40 * jitter + 1 ≤ widths.long - widths.medium := by omega
  constructor
  · exact_mod_cast hJ
  · exact_mod_cast hapart
  · exact_mod_cast hfar'

/-- A tape is read as the bytes that it was written from. -/
theorem decode_of_isTape (config : Config Rat) (hrules : config.pulseRules = Pulse.Rules.standard)
    (hJ : 0 ≤ jitter) (hapart : 4 * jitter < widths.medium - widths.short)
    (hfar : 40 * jitter < widths.long - widths.medium) {data : Bytes} (hdata : data ≠ [])
    {pulses : List Int} (htape : IsTape widths jitter data pulses) :
    ∃ capture, Capture.encode (pulses.map fun pulse : Int => (pulse : Rat)) = .ok capture ∧
      (capture.length < Capture.headerSize + Nat.pow 2 32 →
        ∃ reading, (run (decode config capture)).1 = .ok (data, reading)) := by
  have hfits := fits_of_isTape htape
  refine ⟨Capture.written pulses, Capture.encode_of_fits hfits, ?_⟩
  intro hlength
  obtain ⟨symbols, hshows, hplaced, hshort, hmedium, hlong⟩ := exists_symbols_of_isTape htape
  obtain ⟨centers, hclassify⟩ := Pulse.classify_of_shows (isSpread_of_lt hJ hapart hfar) hshows
    (List.length_pos_iff.mpr hdata) hshort hmedium hlong
  have hcast : (pulses.map Int.toNat).map (fun pulse : Nat => (Pulse.Gauge.ofInt pulse : Rat)) =
      pulses.map fun pulse : Int => (pulse : Rat) := by
    rw [List.map_map]
    refine List.map_congr_left fun pulse hpulse => ?_
    have hnonneg := (hfits pulse hpulse).1
    change (((pulse.toNat : Nat) : Int) : Rat) = pulse
    rw [Int.toNat_of_nonneg hnonneg]
  rw [(yields_decode config _).run_eq, decoded, Capture.pulses_written hfits hlength]
  change ∃ reading, (Pulse.classify config.pulseRules ((pulses.map Int.toNat).map _) >>= _) = _
  rw [hcast, hrules, hclassify]
  refine ⟨⟨centers, (pulses.map Int.toNat).length, data.length⟩, ?_⟩
  change Except.ok ((Frame.decode symbols).bytes, _) = _
  rw [Frame.bytes_decode, hplaced]

def letterPulses : List Int :=
  [5, 300] ++ [199, 41, 40, 21, 20, 39, 18, 42, 20, 40, 21, 41, 19, 38, 41, 20, 20, 40] ++
    [16777215, 0]

theorem decode_of_isTape_letter :
    ∃ capture, Capture.encode (letterPulses.map fun pulse : Int => (pulse : Rat)) = .ok capture ∧
      ∃ reading, (run (decode (.standard : Config Rat) capture)).1 = .ok ([0x41], reading) := by
  have htape : IsTape ⟨20, 40, 200⟩ 2 [0x41] letterPulses :=
    .frame (by decide) (by decide) (.blank (by decide))
  obtain ⟨capture, hencode, hdecode⟩ := decode_of_isTape Config.standard rfl (by decide)
    (by decide) (by decide) (by decide) htape
  have hwritten := Capture.encode_of_fits (fits_of_isTape htape)
  obtain rfl := Except.ok.inj (hencode.symm.trans hwritten)
  exact ⟨_, hwritten, hdecode (by decide)⟩

end TapeSalvage.Recovery
