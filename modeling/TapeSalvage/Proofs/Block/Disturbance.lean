import TapeSalvage.Proofs.Block.Framing

/-!
Taped blocks with flipped bits. A noise over the payload and the checksum leaves the countdown, so
the block is found where it was taped, also if the noise makes countdowns of its bytes. Since parity
is linear, the checksum fails exactly where the noise has parity; a noise of a single byte always
has.
-/
namespace TapeSalvage

namespace Bytes

/-- The data with those bits flipped that the noise has. -/
def disturb (noise data : Bytes) : Bytes := List.zipWith (· ^^^ ·) data noise

theorem length_disturb {noise data : Bytes} (h : data.length = noise.length) :
    (disturb noise data).length = data.length := by
  rw [disturb, List.length_zipWith]
  omega

theorem disturb_append {noise data : Bytes} (h : data.length = noise.length)
    (noise' data' : Bytes) :
    disturb (noise ++ noise') (data ++ data') = disturb noise data ++ disturb noise' data' :=
  List.zipWith_append h

theorem parity_cons (byte : UInt8) (data : Bytes) :
    parity (byte :: data) = byte ^^^ parity data := by
  rw [parity, List.foldl_cons, foldl_xor, UInt8.zero_xor]

theorem parity_singleton (byte : UInt8) : parity [byte] = byte := by
  rw [parity_cons]
  exact UInt8.xor_zero

/-- The parity of disturbed data is that of the data and that of the noise. -/
theorem parity_disturb {noise data : Bytes} (h : data.length = noise.length) :
    parity (disturb noise data) = parity data ^^^ parity noise := by
  induction data generalizing noise with
  | nil =>
    obtain rfl := List.length_eq_zero_iff.mp h.symm
    rfl
  | cons byte data ih =>
    cases noise with
    | nil => contradiction
    | cons flip noise =>
      have hrest := ih (Nat.succ.inj h)
      change parity ((byte ^^^ flip) :: disturb noise data) = _
      rw [parity_cons, parity_cons, parity_cons, hrest]
      ac_rfl

theorem parity_replicate_zero (count : Nat) : parity (List.replicate count 0) = 0 := by
  induction count with
  | zero => rfl
  | succ count ih => rw [List.replicate_succ, parity_cons, ih, UInt8.xor_zero]

/-- The parity of a noise that is confined to one byte is that byte. -/
theorem parity_lone (before : Nat) (byte : UInt8) (after : Nat) :
    parity (List.replicate before 0 ++ byte :: List.replicate after 0) = byte := by
  rw [parity_append, parity_cons, parity_replicate_zero, parity_replicate_zero, UInt8.zero_xor,
    UInt8.xor_zero]

end Bytes

namespace Block

open Bytes (disturb parity)

/-- A frame of which everything behind the countdown is disturbed. -/
def disturbFrame (noise frame : Bytes) : Bytes :=
  frame.take countdownSize ++ disturb noise (frame.drop countdownSize)

def Taped.disturb (taped : Taped) (noise : Bytes) (flip : UInt8) (h : noise.length = payloadSize) :
    Taped where
  gap := taped.gap
  copy := taped.copy
  payload := Bytes.disturb noise taped.payload
  checksum := taped.checksum ^^^ flip
  clear := taped.clear
  whole := (Bytes.length_disturb (taped.whole.trans h.symm)).trans taped.whole

theorem Taped.frame_disturb (taped : Taped) {noise : Bytes} (flip : UInt8)
    (h : noise.length = payloadSize) :
    (taped.disturb noise flip h).frame = disturbFrame (noise ++ [flip]) taped.frame := by
  have hsize : taped.copy.countdown.length = countdownSize := Copy.length_countdown _
  have hframe : taped.frame = taped.copy.countdown ++ (taped.payload ++ [taped.checksum]) :=
    List.append_assoc ..
  rw [disturbFrame, hframe, List.take_left' hsize, List.drop_left' hsize,
    Bytes.disturb_append (taped.whole.trans h.symm)]
  exact List.append_assoc ..

/-- A lone block is found between clear gaps. -/
theorem findAll_taped (taped : Taped) {last : Bytes} (hlast : IsClear last) :
    findAll (taped.gap ++ taped.frame ++ last) =
      [⟨taped.copy, (taped.gap.length + countdownSize : Nat), taped.payload, taped.checksum.toNat,
        parity taped.payload == taped.checksum⟩] := by
  have h := findAll_stream [taped] hlast
  rw [stream, stream, ← List.append_assoc] at h
  rw [h, blocksFrom, blocksFrom, Taped.block, Nat.zero_add]

/-- Where the checksum was right, a noise leaves it right exactly if it has no parity. -/
theorem parity_beq_disturb {noise payload : Bytes} (flip : UInt8)
    (h : payload.length = noise.length) :
    (parity (disturb noise payload) == parity payload ^^^ flip) =
      decide (parity (noise ++ [flip]) = 0) := by
  rw [Bytes.parity_disturb h, Bytes.parity_append, Bytes.parity_singleton, Bool.eq_iff_iff,
    beq_iff_eq, decide_eq_true_iff, UInt8.xor_right_inj, UInt8.xor_eq_zero_iff]

/-- A block that was written with its parity is found again with what a noise has made of its
payload and its checksum, and it is called intact exactly if the noise has no parity. A noise of one
byte has. -/
theorem findAll_disturbed (copy : Copy) {payload noise before after : Bytes}
    (hpayload : payload.length = payloadSize) (hnoise : noise.length = payloadSize + checksumSize)
    (hbefore : IsClear before) (hafter : IsClear after) :
    ∃ frame flip, serializeIntact copy payload = .ok frame ∧ noise[payloadSize]? = some flip ∧
      findAll (before ++ frame ++ after) =
        [⟨copy, (before.length + countdownSize : Nat), payload, (parity payload).toNat, true⟩] ∧
      findAll (before ++ disturbFrame noise frame ++ after) =
        [⟨copy, (before.length + countdownSize : Nat), disturb (noise.take payloadSize) payload,
          (parity payload ^^^ flip).toNat, decide (parity noise = 0)⟩] ∧
      ∀ (quiet : Nat) (byte : UInt8) (quiet' : Nat), byte ≠ 0 →
        noise = List.replicate quiet 0 ++ byte :: List.replicate quiet' 0 →
        ∀ block ∈ findAll (before ++ disturbFrame noise frame ++ after),
          block.isIntact = false := by
  obtain ⟨noise, flip, rfl⟩ : ∃ front flip, noise = front ++ [flip] := by
    have hne : noise ≠ [] := by
      rintro rfl
      contradiction
    exact ⟨_, _, (List.dropLast_append_getLast hne).symm⟩
  have hfront : noise.length = payloadSize := by
    rw [List.length_append, List.length_singleton] at hnoise
    exact Nat.succ.inj hnoise
  let taped : Taped := ⟨before, copy, payload, parity payload, hbefore, hpayload⟩
  have hfound := findAll_taped taped hafter
  have hdisturbed := findAll_taped (taped.disturb noise flip hfront) hafter
  rw [taped.frame_disturb] at hdisturbed
  have hblock : findAll (before ++ disturbFrame (noise ++ [flip]) taped.frame ++ after) =
      [⟨copy, (before.length + countdownSize : Nat), disturb noise payload,
        (parity payload ^^^ flip).toNat, decide (parity (noise ++ [flip]) = 0)⟩] := by
    rw [← parity_beq_disturb flip (hpayload.trans hfront.symm)]
    exact hdisturbed
  refine ⟨taped.frame, flip, taped.serializeIntact_eq_frame_iff.mpr rfl, ?_, ?_, ?_, ?_⟩
  · rw [← hfront]
    exact List.getElem?_concat_length
  · rwa [beq_self_eq_true] at hfound
  · rw [List.take_left' hfront]
    exact hblock
  · intro quiet byte quiet' hbyte hlone block hmem
    rw [hblock, List.mem_singleton] at hmem
    rw [hmem, hlone, Bytes.parity_lone]
    exact decide_eq_false hbyte

/-- A payload that is one bit short of holding a countdown. -/
def almostCountdown : Bytes :=
  [0x89, 0x88, 0x87, 0x86, 0x81, 0x84, 0x83, 0x82, 0x81] ++ List.replicate 183 0x55

def loneNoise : Bytes := List.replicate 4 0 ++ 0x04 :: List.replicate 188 0

theorem findAll_disturbed_loneNoise :
    almostCountdown.length = payloadSize ∧ loneNoise.length = payloadSize + checksumSize ∧
      IsClear [0x89, 0x88] ∧ IsClear [0x09] ∧ (0x04 : UInt8) ≠ 0 ∧
      ∃ frame, serializeIntact .b almostCountdown = .ok frame ∧
        findAll ([0x89, 0x88] ++ disturbFrame loneNoise frame ++ [0x09]) =
          [⟨.b, 11, Copy.a.countdown ++ List.replicate 183 0x55, 208, false⟩] ∧
        ∀ block ∈ findAll ([0x89, 0x88] ++ disturbFrame loneNoise frame ++ [0x09]),
          block.isIntact = false := by
  have hpayload : almostCountdown.length = payloadSize := by decide +kernel
  have hnoise : loneNoise.length = payloadSize + checksumSize := by decide +kernel
  have hbefore : IsClear [0x89, 0x88] := by decide
  have hafter : IsClear [0x09] := by decide
  have hbyte : (0x04 : UInt8) ≠ 0 := by decide
  obtain ⟨frame, flip, hframe, hflip, _, hfound, hlone⟩ :=
    findAll_disturbed .b hpayload hnoise hbefore hafter
  have hlast : loneNoise[payloadSize]? = some 0 := by decide +kernel
  obtain rfl := Option.some.inj (hflip.symm.trans hlast)
  refine ⟨hpayload, hnoise, hbefore, hafter, hbyte, frame, hframe, ?_, hlone 4 0x04 188 hbyte rfl⟩
  rw [hfound]
  decide +kernel

end Block

end TapeSalvage
