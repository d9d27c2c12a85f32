import Mathlib.Data.List.Infix
import TapeSalvage.Block.Selection

/-!
Blocks in noise. A gap is clear if no countdown stands in it. A countdown does not begin in a
clear gap and end in the block behind it, because no byte of a countdown but the first can begin
one; so the blocks of a stream with clear gaps are found where they were taped, whatever is in
their payloads.
-/
namespace TapeSalvage.Block

def IsClear (gap : Bytes) : Prop := ∀ copy : Copy, ¬ copy.countdown <:+: gap

theorem isClear_iff (gap : Bytes) :
    IsClear gap ↔ ¬ Copy.a.countdown <:+: gap ∧ ¬ Copy.b.countdown <:+: gap := by
  constructor
  · intro h
    exact ⟨h .a, h .b⟩
  · intro h copy
    cases copy
    · exact h.1
    · exact h.2

instance (gap : Bytes) : Decidable (IsClear gap) := decidable_of_iff' _ (isClear_iff gap)

theorem IsClear.of_cons {byte : UInt8} {gap : Bytes} (h : IsClear (byte :: gap)) : IsClear gap := by
  intro copy hpart
  exact h copy (hpart.trans (List.suffix_cons byte gap).isInfix)

/-- A block on a tape, with the gap before it. -/
structure Taped where
  gap : Bytes
  copy : Copy
  payload : Bytes
  checksum : UInt8
  clear : IsClear gap
  whole : payload.length = payloadSize

namespace Taped

def frame (taped : Taped) : Bytes := taped.copy.countdown ++ taped.payload ++ [taped.checksum]

def block (position : Nat) (taped : Taped) : Block where
  copy := taped.copy
  offset := (position + taped.gap.length + countdownSize : Nat)
  payload := taped.payload
  checksum := taped.checksum.toNat
  isIntact := Bytes.parity taped.payload == taped.checksum

theorem serialize_eq (taped : Taped) (checksum : Int)
    (h : UInt8.ofNat (checksum % 256).toNat = taped.checksum) :
    serialize taped.copy taped.payload checksum = .ok taped.frame := by
  rw [serialize, if_neg (by simp [taped.whole]), h]
  rfl

/-- A block whose checksum is right is written without being told the checksum. -/
theorem serializeIntact_eq_frame_iff (taped : Taped) :
    serializeIntact taped.copy taped.payload = .ok taped.frame ↔
      taped.checksum = Bytes.parity taped.payload := by
  have hparity : UInt8.ofNat (((Bytes.parity taped.payload).toNat : Int) % 256).toNat =
      Bytes.parity taped.payload := by
    have hlt := (Bytes.parity taped.payload).toNat_lt
    have hreduced : (((Bytes.parity taped.payload).toNat : Int) % 256).toNat =
        (Bytes.parity taped.payload).toNat := by omega
    rw [hreduced, UInt8.ofNat_toNat]
  rw [serializeIntact, serialize, if_neg (by simp [taped.whole]), hparity, frame]
  constructor
  · intro h
    have hlast := List.append_cancel_left (Except.ok.inj h)
    exact (List.cons.inj hlast).1.symm
  · intro h
    rw [h]

theorem length_frame (taped : Taped) : taped.frame.length = frameSize := by
  rw [frame, List.length_append, List.length_append, Copy.length_countdown, taped.whole]
  rfl

end Taped

def stream : List Taped → Bytes → Bytes
  | [], last => last
  | taped :: rest, last => taped.gap ++ (taped.frame ++ stream rest last)

def blocksFrom (position : Nat) : List Taped → List Block
  | [] => []
  | taped :: rest =>
    taped.block position :: blocksFrom (position + taped.gap.length + frameSize) rest

theorem findFrom_nil (skip position : Nat) (found : List Block) :
    findFrom skip position found [] = found.reverse := rfl

/-- The bytes of a block are passed over. -/
theorem findFrom_drop (skip position : Nat) (found : List Block) (data : Bytes) :
    findFrom skip position found data =
      findFrom 0 (position + skip) found (data.drop skip) := by
  induction data generalizing skip position with
  | nil => rw [List.drop_nil, findFrom_nil, findFrom_nil]
  | cons byte rest ih =>
    cases skip with
    | zero => rfl
    | succ skip =>
      rw [List.drop_succ_cons, findFrom, ih skip (position + 1)]
      congr 1
      omega

theorem copyAt?_countdown (copy : Copy) (rest : Bytes) :
    copyAt? (copy.countdown ++ rest) = some copy := by
  cases copy
  · rw [copyAt?, if_pos (List.isPrefixOf_iff_prefix.mpr (List.prefix_append _ _))]
  · have hfirst : ¬ Copy.a.countdown.isPrefixOf (Copy.b.countdown ++ rest) = true := by
      rw [List.isPrefixOf_iff_prefix]
      intro hprefix
      obtain ⟨tail, htail⟩ := hprefix
      exact absurd (List.cons.inj htail).1 (by decide)
    rw [copyAt?, if_neg hfirst, if_pos (List.isPrefixOf_iff_prefix.mpr (List.prefix_append _ _))]

/-- A copy is told by its countdown. -/
theorem copyAt?_eq_some_iff (stream : Bytes) (copy : Copy) :
    copyAt? stream = some copy ↔ stream.take countdownSize = copy.countdown := by
  have hsize : copy.countdown.length = countdownSize := Copy.length_countdown copy
  rw [eq_comm (b := copy.countdown), ← hsize, ← List.prefix_iff_eq_take]
  constructor
  · intro h
    unfold copyAt? at h
    split at h
    · rename_i hfirst
      obtain rfl := Option.some.inj h
      exact List.isPrefixOf_iff_prefix.mp hfirst
    split at h
    · rename_i hsecond
      obtain rfl := Option.some.inj h
      exact List.isPrefixOf_iff_prefix.mp hsecond
    · contradiction
  · rintro ⟨rest, rfl⟩
    exact copyAt?_countdown copy rest

/-- A block is framed at the front of a stream exactly if a countdown stands there and the byte of
the checksum is not missing. -/
theorem atFront?_eq_some_iff (position : Nat) (stream : Bytes) (block : Block) :
    atFront? position stream = some block ↔
      ∃ copy byte payload, stream.take countdownSize = Copy.countdown copy ∧
        stream[countdownSize + payloadSize]? = some byte ∧
        payload = (stream.drop countdownSize).take payloadSize ∧
        block = ⟨copy, (position + countdownSize : Nat), payload, byte.toNat,
          Bytes.parity payload == byte⟩ := by
  have hlast : ((stream.drop countdownSize).drop payloadSize).head? =
      stream[countdownSize + payloadSize]? := by
    rw [List.drop_drop, List.head?_drop]
  unfold atFront?
  constructor
  · intro h
    obtain ⟨copy, hcopy, h⟩ := Option.bind_eq_some_iff.mp h
    obtain ⟨byte, hbyte, h⟩ := Option.bind_eq_some_iff.mp h
    exact ⟨copy, byte, _, (copyAt?_eq_some_iff _ _).mp hcopy, hlast.symm.trans hbyte, rfl,
      (Option.some.inj h).symm⟩
  · rintro ⟨copy, byte, payload, hcountdown, hbyte, rfl, rfl⟩
    refine Option.bind_eq_some_iff.mpr ⟨copy, (copyAt?_eq_some_iff _ _).mpr hcountdown, ?_⟩
    exact Option.bind_eq_some_iff.mpr ⟨byte, hlast.trans hbyte, rfl⟩

/-- A taped block is framed whatever follows it. -/
theorem atFront?_frame (taped : Taped) (position : Nat) (rest : Bytes) :
    atFront? (position + taped.gap.length) (taped.frame ++ rest) = some (taped.block position) := by
  have hsize : taped.copy.countdown.length = countdownSize := Copy.length_countdown _
  have hbody : (taped.frame ++ rest).drop countdownSize =
      taped.payload ++ (taped.checksum :: rest) := by
    rw [Taped.frame, List.append_assoc, List.append_assoc, List.drop_left' hsize]
    rfl
  have hcopy : copyAt? (taped.frame ++ rest) = some taped.copy := by
    rw [Taped.frame, List.append_assoc, List.append_assoc, copyAt?_countdown]
  rw [atFront?, hcopy, hbody]
  change (((taped.payload ++ taped.checksum :: rest).drop payloadSize).head? >>= _) = _
  rw [List.drop_left' taped.whole, List.take_left' taped.whole]
  rfl

/-- Whether what follows a gap cannot complete a countdown that begins in the gap. -/
def Opens (rest : Bytes) : Prop :=
  ∀ byte, rest.head? = some byte → ∀ copy : Copy, byte ∉ copy.countdown.tail

theorem opens_nil : Opens [] := by
  intro byte hbyte
  contradiction

theorem opens_frame (taped : Taped) (rest : Bytes) : Opens (taped.frame ++ rest) := by
  have hfirst : ∀ copy other : Copy, copy.countdown.headD 0 ∉ other.countdown.tail := by
    intro copy other
    cases copy <;> cases other <;> decide
  have hframe : (taped.frame ++ rest).head? = some (taped.copy.countdown.headD 0) := by
    rw [Taped.frame, List.append_assoc, List.append_assoc]
    cases taped.copy <;> rfl
  intro byte hbyte copy
  obtain rfl := Option.some.inj (hframe.symm.trans hbyte)
  exact hfirst taped.copy copy

/-- No countdown begins in a clear gap, not even one that what follows would complete. -/
theorem not_prefix_of_isClear {copy : Copy} {byte : UInt8} {gap rest : Bytes}
    (hgap : IsClear (byte :: gap)) (hrest : Opens rest) :
    ¬ copy.countdown <+: byte :: gap ++ rest := by
  rintro ⟨tail, htail⟩
  -- The countdown ends in the gap, or the first byte behind the gap stands inside it.
  rcases List.append_eq_append_iff.mp htail with ⟨inner, hinside, _⟩ | ⟨inner, hsplit, hinner⟩
  · exact hgap copy ⟨[], inner, by rw [List.nil_append, hinside]⟩
  · cases inner with
    | nil =>
      rw [List.append_nil] at hsplit
      exact hgap copy (hsplit ▸ List.infix_refl _)
    | cons next inner =>
      have hnext : next ∈ copy.countdown.tail := by
        rw [hsplit]
        simp
      exact hrest next (by rw [hinner]; rfl) copy hnext

theorem atFront?_eq_none_of_isClear {byte : UInt8} {gap rest : Bytes}
    (hgap : IsClear (byte :: gap)) (hrest : Opens rest) (position : Nat) :
    atFront? position (byte :: gap ++ rest) = none := by
  have hnot : ∀ copy : Copy, ¬ copy.countdown.isPrefixOf (byte :: gap ++ rest) = true := by
    intro copy
    rw [List.isPrefixOf_iff_prefix]
    exact not_prefix_of_isClear hgap hrest
  rw [atFront?, copyAt?, if_neg (hnot .a), if_neg (hnot .b)]
  rfl

/-- Nothing is found in a clear gap. -/
theorem findFrom_gap {gap rest : Bytes} (hgap : IsClear gap) (hrest : Opens rest) (position : Nat)
    (found : List Block) :
    findFrom 0 position found (gap ++ rest) = findFrom 0 (position + gap.length) found rest := by
  induction gap generalizing position with
  | nil => rfl
  | cons byte gap ih =>
    have hnone := atFront?_eq_none_of_isClear hgap hrest position
    rw [List.cons_append] at hnone ⊢
    rw [findFrom, hnone]
    dsimp only
    rw [ih hgap.of_cons, List.length_cons]
    congr 1
    omega

theorem findFrom_frame (taped : Taped) (position : Nat) (found : List Block) (rest : Bytes) :
    findFrom 0 (position + taped.gap.length) found (taped.frame ++ rest) =
      findFrom 0 (position + taped.gap.length + frameSize)
        (taped.block position :: found) rest := by
  have hblock := atFront?_frame taped position rest
  have hlength := taped.length_frame
  cases hframe : taped.frame with
  | nil =>
    rw [hframe] at hlength
    contradiction
  | cons byte frame =>
    rw [hframe, List.cons_append] at hblock
    rw [hframe, List.length_cons] at hlength
    rw [List.cons_append, findFrom, hblock]
    dsimp only
    rw [findFrom_drop, List.drop_left' (by omega)]
    congr 1

theorem findFrom_stream (tape : List Taped) {last : Bytes} (hlast : IsClear last) (position : Nat)
    (found : List Block) :
    findFrom 0 position found (stream tape last) =
      found.reverse ++ blocksFrom position tape := by
  induction tape generalizing position found with
  | nil =>
    have hgap := findFrom_gap hlast opens_nil position found
    rw [List.append_nil, findFrom_nil] at hgap
    rw [stream, hgap, blocksFrom, List.append_nil]
  | cons taped rest ih =>
    rw [stream, findFrom_gap taped.clear (opens_frame taped _), findFrom_frame, ih, blocksFrom]
    simp

/-- Blocks that were taped with clear gaps are found where they stand. -/
theorem findAll_stream (tape : List Taped) {last : Bytes} (hlast : IsClear last) :
    findAll (stream tape last) = blocksFrom 0 tape :=
  findFrom_stream tape hlast 0 []

end TapeSalvage.Block
