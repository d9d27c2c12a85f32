import TapeSalvage.Proofs.Block.Framing

/-!
Blocks that are written and found again. A tape is written entry by entry, each with a gap before it
and a checksum that is given or taken from the payload. Where no gap holds a countdown, exactly the
entries are found, whatever their payloads and checksums are. A block that is found on any tape is
whole, and stands where it is said to stand.
-/
namespace TapeSalvage.Block

/-- A block to be written behind a gap. The checksum may be given. -/
structure Entry where
  gap : Bytes
  copy : Copy
  payload : Bytes
  given : Option Int

namespace Entry

def write (entry : Entry) : Except Fault Bytes :=
  match entry.given with
  | none => serializeIntact entry.copy entry.payload
  | some checksum => serialize entry.copy entry.payload checksum

def checksum (entry : Entry) : Int := entry.given.getD (Bytes.parity entry.payload).toNat

def block (position : Nat) (entry : Entry) : Block where
  copy := entry.copy
  offset := (position + countdownSize : Nat)
  payload := entry.payload
  checksum := entry.checksum % 256
  isIntact := decide (((Bytes.parity entry.payload).toNat : Int) = entry.checksum % 256)

theorem write_eq_serialize (entry : Entry) :
    entry.write = serialize entry.copy entry.payload entry.checksum := by
  unfold write checksum
  cases entry.given with
  | none => rfl
  | some checksum => rfl

/-- An entry with a clear gap and a whole payload is taped as it says. -/
theorem exists_taped {entry : Entry} (hgap : IsClear entry.gap)
    (hpayload : entry.payload.length = payloadSize) :
    ∃ taped : Taped, taped.gap = entry.gap ∧ entry.write = .ok taped.frame ∧
      ∀ position, taped.block position = entry.block (position + entry.gap.length) := by
  obtain ⟨byte, hbyte⟩ : ∃ byte, UInt8.ofNat (entry.checksum % 256).toNat = byte := ⟨_, rfl⟩
  have hvalue : (byte.toNat : Int) = entry.checksum % 256 := by
    rw [← hbyte, UInt8.toNat_ofNat']
    omega
  let taped : Taped := ⟨entry.gap, entry.copy, entry.payload, byte, hgap, hpayload⟩
  refine ⟨taped, rfl, ?_, ?_⟩
  · rw [write_eq_serialize]
    exact taped.serialize_eq entry.checksum hbyte
  · intro position
    have hintact : (Bytes.parity entry.payload == byte) =
        decide (((Bytes.parity entry.payload).toNat : Int) = byte.toNat) := by
      rw [Bool.eq_iff_iff, beq_iff_eq, decide_eq_true_iff, Int.ofNat_inj, UInt8.toNat_inj]
    unfold Taped.block block
    rw [← hvalue, ← hintact]

end Entry

/-- The bytes of a tape with the given entries, and something behind the last of them. -/
def writeAll : List Entry → Bytes → Except Fault Bytes
  | [], last => .ok last
  | entry :: rest, last => do
    let frame ← entry.write
    let later ← writeAll rest last
    return entry.gap ++ (frame ++ later)

def entryBlocks (position : Nat) : List Entry → List Block
  | [] => []
  | entry :: rest =>
    entry.block (position + entry.gap.length) ::
      entryBlocks (position + entry.gap.length + frameSize) rest

theorem exists_stream_of_writeAll {entries : List Entry} (last : Bytes)
    (hentries : ∀ entry ∈ entries, IsClear entry.gap ∧ entry.payload.length = payloadSize) :
    ∃ tape : List Taped, writeAll entries last = .ok (stream tape last) ∧
      ∀ position, blocksFrom position tape = entryBlocks position entries := by
  induction entries with
  | nil => exact ⟨[], rfl, fun _ => rfl⟩
  | cons entry rest ih =>
    obtain ⟨hgap, hpayload⟩ := hentries entry (List.mem_cons_self ..)
    obtain ⟨taped, hsame, hwrite, hblock⟩ := Entry.exists_taped hgap hpayload
    obtain ⟨tape, htape, hblocks⟩ := ih fun other hother =>
      hentries other (List.mem_cons_of_mem _ hother)
    refine ⟨taped :: tape, ?_, ?_⟩
    · rw [writeAll, hwrite, htape, stream, hsame]
      rfl
    · intro position
      rw [blocksFrom, entryBlocks, hblock, hblocks, hsame]

/-- A block at the front of the bytes is whole, and stands behind its countdown. -/
theorem payload_of_atFront? {position : Nat} {data : Bytes} {block : Block}
    (h : atFront? position data = some block) :
    block.payload.length = payloadSize ∧ ∃ before after, data = before ++ (block.payload ++ after) ∧
      block.offset = (position + before.length : Nat) := by
  obtain ⟨copy, byte, payload, _, hbyte, rfl, rfl⟩ := (atFront?_eq_some_iff _ _ _).mp h
  obtain ⟨hlong, _⟩ := List.getElem?_eq_some_iff.mp hbyte
  refine ⟨?_, data.take countdownSize, (data.drop countdownSize).drop payloadSize, ?_, ?_⟩
  · rw [List.length_take, List.length_drop]
    omega
  · rw [List.take_append_drop, List.take_append_drop]
  · rw [List.length_take, Nat.min_eq_left (by omega)]

/-- A block that is found stands at the front of the bytes from some place on. -/
theorem exists_atFront?_of_mem_findFrom {skip position : Nat} {found : List Block} {data : Bytes}
    {block : Block} (h : block ∈ findFrom skip position found data) :
    block ∈ found ∨ ∃ place, atFront? (position + place) (data.drop place) = some block := by
  induction data generalizing skip position found with
  | nil =>
    rw [findFrom_nil, List.mem_reverse] at h
    exact Or.inl h
  | cons byte rest ih =>
    have hlater : ∀ place, position + 1 + place = position + (place + 1) := by
      intro place
      omega
    cases skip with
    | succ skip =>
      rw [findFrom] at h
      rcases ih h with hfound | ⟨place, hplace⟩
      · exact Or.inl hfound
      · exact Or.inr ⟨place + 1, by rw [← hlater]; exact hplace⟩
    | zero =>
      rw [findFrom] at h
      cases hfront : atFront? position (byte :: rest) with
      | none =>
        rw [hfront] at h
        rcases ih h with hfound | ⟨place, hplace⟩
        · exact Or.inl hfound
        · exact Or.inr ⟨place + 1, by rw [← hlater]; exact hplace⟩
      | some first =>
        rw [hfront] at h
        rcases ih h with hfound | ⟨place, hplace⟩
        · rcases List.mem_cons.mp hfound with rfl | hold
          · exact Or.inr ⟨0, hfront⟩
          · exact Or.inl hold
        · exact Or.inr ⟨place + 1, by rw [← hlater]; exact hplace⟩

theorem payload_of_mem_findAll {data : Bytes} {block : Block} (h : block ∈ findAll data) :
    block.payload.length = payloadSize ∧ ∃ before after, data = before ++ (block.payload ++ after) ∧
      block.offset = (before.length : Nat) := by
  rcases exists_atFront?_of_mem_findFrom h with hnone | ⟨place, hplace⟩
  · exact absurd hnone List.not_mem_nil
  obtain ⟨hwhole, before, after, hdata, hoffset⟩ := payload_of_atFront? hplace
  refine ⟨hwhole, data.take place ++ before, after, ?_, ?_⟩
  · rw [List.append_assoc, ← hdata, List.take_append_drop]
  · have hlength := congrArg List.length hdata
    simp only [List.length_drop, List.length_append] at hlength
    unfold payloadSize at hwhole
    rw [hoffset, List.length_append, List.length_take]
    omega

/-- Blocks that are written with clear gaps are found in order, where they stand, and are called
intact where their checksum is the parity of their payload. -/
theorem findAll_writeAll {entries : List Entry} {last : Bytes} (hlast : IsClear last)
    (hentries : ∀ entry ∈ entries, IsClear entry.gap ∧ entry.payload.length = payloadSize) :
    ∃ data, writeAll entries last = .ok data ∧ findAll data = entryBlocks 0 entries ∧
      ∀ block ∈ findAll data, ∃ before after, data = before ++ (block.payload ++ after) ∧
        block.offset = before.length := by
  obtain ⟨tape, hwrite, hblocks⟩ := exists_stream_of_writeAll last hentries
  refine ⟨stream tape last, hwrite, ?_, ?_⟩
  · rw [findAll_stream tape hlast, hblocks]
  · intro block hblock
    exact (payload_of_mem_findAll hblock).2

def nestedPayload : Bytes :=
  Copy.b.countdown ++ Copy.a.countdown ++ List.replicate 174 0x55

def nestedEntries : List Entry :=
  [⟨[0x89, 0x88], .a, nestedPayload, some (-1)⟩, ⟨[0x09], .b, nestedPayload, none⟩]

theorem findAll_writeAll_nestedEntries :
    IsClear [0x09, 0x08] ∧
      (∀ entry ∈ nestedEntries, IsClear entry.gap ∧ entry.payload.length = payloadSize) ∧
      ∃ data, writeAll nestedEntries [0x09, 0x08] = .ok data ∧
        findAll data =
          [⟨.a, 11, nestedPayload, 255, false⟩, ⟨.b, 214, nestedPayload, 0x80, true⟩] := by
  have hlast : IsClear [0x09, 0x08] := by decide
  have hentries : ∀ entry ∈ nestedEntries,
      IsClear entry.gap ∧ entry.payload.length = payloadSize := by decide +kernel
  obtain ⟨data, hdata, hfound, _⟩ := findAll_writeAll hlast hentries
  refine ⟨hlast, hentries, data, hdata, ?_⟩
  rw [hfound]
  decide +kernel

end TapeSalvage.Block
