import TapeSalvage.Proofs.Block.Counting

/-!
Which blocks are found in arbitrary data. Every block that is found stands where it is said to
stand, no two frames overlap, and a countdown with room for a frame is passed over only inside the
frame of a block that was found before it. No other list of blocks has these three properties.
-/
namespace TapeSalvage.Block

/-- Whether a block stands in the data, where its frame begins at a place: a countdown of its copy,
its payload, and its checksum. -/
structure StandsAt (data : Bytes) (place : Nat) (block : Block) : Prop where
  fits : place + frameSize ≤ data.length
  countdown : (data.drop place).take countdownSize = block.copy.countdown
  offset : block.offset = (place + countdownSize : Nat)
  payload : block.payload = (data.drop (place + countdownSize)).take payloadSize
  checksum : data[place + (countdownSize + payloadSize)]?.map (fun byte => (byte.toNat : Int)) =
    some block.checksum
  isIntact : block.isIntact = true ↔ ((Bytes.parity block.payload).toNat : Int) = block.checksum

/-- What is framed at a place is the block that stands there. -/
theorem atFront?_drop_eq_some_iff (data : Bytes) (place : Nat) (block : Block) :
    atFront? place (data.drop place) = some block ↔ StandsAt data place block := by
  have hintact (payload : Bytes) (byte : UInt8) : (Bytes.parity payload == byte) = true ↔
      ((Bytes.parity payload).toNat : Int) = byte.toNat := by
    rw [beq_iff_eq, Int.ofNat_inj, UInt8.toNat_inj]
  rw [atFront?_eq_some_iff, List.getElem?_drop, List.drop_drop]
  constructor
  · rintro ⟨copy, byte, payload, hcountdown, hbyte, rfl, rfl⟩
    obtain ⟨hroom, _⟩ := List.getElem?_eq_some_iff.mp hbyte
    refine ⟨?_, hcountdown, rfl, rfl, by rw [hbyte]; rfl, hintact _ byte⟩
    unfold countdownSize payloadSize at hroom
    unfold frameSize
    omega
  · rintro ⟨_, hcountdown, hoffset, hpayload, hchecksum, hparity⟩
    obtain ⟨copy, offset, payload, checksum, isIntact⟩ := block
    obtain ⟨byte, hbyte, hvalue⟩ := Option.map_eq_some_iff.mp hchecksum
    dsimp only at hcountdown hoffset hpayload hvalue hparity
    have hsame : (Bytes.parity payload == byte) = isIntact := by
      rw [Bool.eq_iff_iff, hparity, hintact, hvalue]
    refine ⟨copy, byte, payload, hcountdown, hbyte, hpayload, ?_⟩
    rw [hsame, hvalue, hoffset]

theorem StandsAt.unique {data : Bytes} {place : Nat} {block other : Block}
    (h : StandsAt data place block) (hother : StandsAt data place other) : block = other := by
  rw [← atFront?_drop_eq_some_iff] at h hother
  exact Option.some.inj (h.symm.trans hother)

/-- A block stands wherever a countdown does, if there is room for its frame. -/
theorem exists_standsAt {data : Bytes} {place : Nat} {copy : Copy}
    (hfits : place + frameSize ≤ data.length)
    (hcountdown : (data.drop place).take countdownSize = copy.countdown) :
    ∃ block, StandsAt data place block := by
  have hplace : place + (countdownSize + payloadSize) < data.length := by
    unfold frameSize at hfits
    unfold countdownSize payloadSize
    omega
  let payload := (data.drop (place + countdownSize)).take payloadSize
  let byte := data[place + (countdownSize + payloadSize)]
  refine ⟨⟨copy, (place + countdownSize : Nat), payload, byte.toNat,
    decide (((Bytes.parity payload).toNat : Int) = byte.toNat)⟩, hfits, hcountdown, rfl, rfl, ?_,
    decide_eq_true_iff⟩
  rw [List.getElem?_eq_getElem hplace]
  rfl

/-- Whether blocks are those that a search from a place on has to find. -/
structure IsFraming (data : Bytes) (start : Nat) (blocks : List Block) : Prop where
  stands : ∀ block ∈ blocks, ∃ place, start ≤ place ∧ StandsAt data place block
  apart : blocks.Pairwise fun block later : Block => block.offset + frameSize ≤ later.offset
  covers : ∀ place ≥ start, ∀ other, StandsAt data place other →
    ∃ block ∈ blocks, ∃ first, StandsAt data first block ∧ first ≤ place ∧
      place < first + frameSize

section

variable {data : Bytes} {start : Nat} {blocks : List Block}

/-- There is nothing to find where the data ends. -/
theorem isFraming_iff_of_length (hend : data.length ≤ start) :
    IsFraming data start blocks ↔ blocks = [] := by
  have hnone (place : Nat) (block : Block) (hplace : start ≤ place) :
      ¬ StandsAt data place block := by
    intro h
    have hfits := h.fits
    unfold frameSize at hfits
    omega
  constructor
  · intro h
    rw [List.eq_nil_iff_forall_not_mem]
    intro block hmem
    obtain ⟨place, hplace, hstands⟩ := h.stands block hmem
    exact hnone place block hplace hstands
  · rintro rfl
    refine ⟨by simp, List.Pairwise.nil, ?_⟩
    intro place hplace other hother
    exact absurd hother (hnone place other hplace)

/-- A place where no block stands is passed over. -/
theorem isFraming_iff_of_forall_not (hnone : ∀ block, ¬ StandsAt data start block) :
    IsFraming data start blocks ↔ IsFraming data (start + 1) blocks := by
  have hlater (place : Nat) (block : Block) (hplace : start ≤ place)
      (h : StandsAt data place block) : start + 1 ≤ place := by
    by_contra hnot
    obtain rfl : place = start := by omega
    exact hnone block h
  constructor
  · intro h
    refine ⟨?_, h.apart, fun place hplace => h.covers place (by omega)⟩
    intro block hmem
    obtain ⟨place, hplace, hstands⟩ := h.stands block hmem
    exact ⟨place, hlater place block hplace hstands, hstands⟩
  · intro h
    refine ⟨?_, h.apart, ?_⟩
    · intro block hmem
      obtain ⟨place, hplace, hstands⟩ := h.stands block hmem
      exact ⟨place, by omega, hstands⟩
    · intro place hplace other hother
      exact h.covers place (hlater place other hplace hother) other hother

theorem IsFraming.cons {block : Block} (hblock : StandsAt data start block)
    (h : IsFraming data (start + frameSize) blocks) : IsFraming data start (block :: blocks) := by
  refine ⟨?_, ?_, ?_⟩
  · intro other hmem
    rcases List.mem_cons.mp hmem with rfl | hrest
    · exact ⟨start, Nat.le_refl start, hblock⟩
    · obtain ⟨place, hplace, hstands⟩ := h.stands other hrest
      exact ⟨place, by omega, hstands⟩
  · refine List.pairwise_cons.mpr ⟨?_, h.apart⟩
    intro later hmem
    obtain ⟨place, hplace, hstands⟩ := h.stands later hmem
    have hfirst := hblock.offset
    have hsecond := hstands.offset
    omega
  · intro place hplace other hother
    by_cases hinside : place < start + frameSize
    · exact ⟨block, List.mem_cons_self, start, hblock, hplace, hinside⟩
    · obtain ⟨found, hmem, hfound⟩ := h.covers place (by omega) other hother
      exact ⟨found, List.mem_cons_of_mem _ hmem, hfound⟩

/-- A block that stands at the start of a search is found first. -/
theorem IsFraming.exists_cons {block : Block} (hblock : StandsAt data start block)
    (h : IsFraming data start blocks) :
    ∃ rest, blocks = block :: rest ∧ IsFraming data (start + frameSize) rest := by
  have hoffset := hblock.offset
  obtain ⟨found, hmem, first, hfirst, hle, _⟩ := h.covers start (Nat.le_refl start) block hblock
  have hfound := hfirst.offset
  cases blocks with
  | nil => contradiction
  | cons head rest =>
    obtain ⟨hbehind, hrest⟩ := List.pairwise_cons.mp h.apart
    obtain ⟨place, hplace, hhead⟩ := h.stands head List.mem_cons_self
    have hheadOffset := hhead.offset
    -- The head does not begin before the start, and all others end behind it.
    obtain rfl : block = head := by
      rcases List.mem_cons.mp hmem with rfl | hlater
      · obtain rfl : place = start := by omega
        exact hblock.unique hhead
      · have hgap := hbehind found hlater
        omega
    refine ⟨rest, rfl, ?_, hrest, ?_⟩
    · intro later hlater
      obtain ⟨next, _, hnext⟩ := h.stands later (List.mem_cons_of_mem _ hlater)
      have hnextOffset := hnext.offset
      have hgap := hbehind later hlater
      exact ⟨next, by omega, hnext⟩
    · intro next hnext other hother
      obtain ⟨cover, hcover, begin, hbegin, hbefore, hinside⟩ :=
        h.covers next (by omega) other hother
      rcases List.mem_cons.mp hcover with rfl | hlater
      · have hbeginOffset := hbegin.offset
        omega
      · exact ⟨cover, hlater, begin, hbegin, hbefore, hinside⟩

end

theorem exists_isFraming (data : Bytes) (start : Nat) : ∃ blocks, IsFraming data start blocks := by
  induction hroom : data.length - start using Nat.strong_induction_on generalizing start with
  | _ room ih =>
    by_cases hend : data.length ≤ start
    · exact ⟨[], (isFraming_iff_of_length hend).mpr rfl⟩
    by_cases hsome : ∃ block, StandsAt data start block
    · obtain ⟨block, hblock⟩ := hsome
      obtain ⟨rest, hrest⟩ := ih _ (by unfold frameSize; omega) (start + frameSize) rfl
      exact ⟨block :: rest, hrest.cons hblock⟩
    · obtain ⟨blocks, hblocks⟩ := ih _ (by omega) (start + 1) rfl
      exact ⟨blocks, (isFraming_iff_of_forall_not (not_exists.mp hsome)).mpr hblocks⟩

/-- A search finds what it has to find. The bytes that are left are those from its position on, and
those to be skipped are the rest of the frame found last. -/
theorem findFrom_of_isFraming {data rest : Bytes} {position skip : Nat} {blocks : List Block}
    (hrest : data.drop position = rest) (hskip : position + skip ≤ data.length)
    (h : IsFraming data (position + skip) blocks) (found : List Block) :
    findFrom skip position found rest = found.reverse ++ blocks := by
  induction rest generalizing position skip found blocks with
  | nil =>
    have hend : data.length ≤ position := List.drop_eq_nil_iff.mp hrest
    rw [findFrom_nil, (isFraming_iff_of_length (by omega)).mp h, List.append_nil]
  | cons byte rest ih =>
    have hnext : data.drop (position + 1) = rest := by
      rw [← List.drop_drop, hrest]
      rfl
    cases skip with
    | succ skip =>
      have hplace : position + (skip + 1) = position + 1 + skip := by omega
      exact ih hnext (hplace ▸ hskip) (hplace ▸ h) found
    | zero =>
      rw [findFrom, ← hrest]
      cases hfront : atFront? position (data.drop position) with
      | none =>
        have hnone (block : Block) : ¬ StandsAt data position block := by
          rw [← atFront?_drop_eq_some_iff, hfront]
          simp
        have hlength := congrArg List.length hrest
        rw [List.length_drop, List.length_cons] at hlength
        exact ih hnext (by omega) ((isFraming_iff_of_forall_not hnone).mp h) found
      | some block =>
        have hblock := (atFront?_drop_eq_some_iff data position block).mp hfront
        have hplace : position + 1 + (frameSize - 1) = position + frameSize := by
          unfold frameSize
          omega
        obtain ⟨later, rfl, hlater⟩ := h.exists_cons hblock
        rw [← hplace] at hlater
        simpa using ih hnext (hplace ▸ hblock.fits) hlater (block :: found)

/-- The blocks of a stream are those that have to be found, and no others. -/
theorem findAll_eq_iff (data : Bytes) (blocks : List Block) :
    findAll data = blocks ↔ IsFraming data 0 blocks := by
  have hfinds {blocks : List Block} (h : IsFraming data 0 blocks) : findAll data = blocks :=
    findFrom_of_isFraming List.drop_zero (Nat.zero_le _) h []
  constructor
  · rintro rfl
    obtain ⟨blocks, hblocks⟩ := exists_isFraming data 0
    exact hfinds hblocks ▸ hblocks
  · exact hfinds

/-- Every block that is found stands in the data, each begins no sooner than the frame before it
ends, and every countdown with room for a frame begins the frame of a block that is found or lies
inside one that begins before it. -/
theorem findAll_covers (data : Bytes) :
    (∀ block ∈ findAll data, ∃ place, StandsAt data place block) ∧
    (findAll data).Pairwise (fun block later : Block => block.offset + frameSize ≤ later.offset) ∧
    ∀ place copy, place + frameSize ≤ data.length →
      (data.drop place).take countdownSize = Copy.countdown copy →
      ∃ block ∈ findAll data, ∃ first, StandsAt data first block ∧
        (first = place ∨ (first < place ∧ place < first + frameSize)) := by
  obtain ⟨hstands, hapart, hcovers⟩ := (findAll_eq_iff data _).mp rfl
  refine ⟨?_, hapart, ?_⟩
  · intro block hblock
    obtain ⟨place, _, hplace⟩ := hstands block hblock
    exact ⟨place, hplace⟩
  · intro place copy hfits hcountdown
    obtain ⟨other, hother⟩ := exists_standsAt hfits hcountdown
    obtain ⟨block, hmem, first, hfirst, hle, hlt⟩ := hcovers place (Nat.zero_le _) other hother
    exact ⟨block, hmem, first, hfirst, by omega⟩

def nestedStream : Bytes :=
  [0x89, 0x88] ++ Copy.a.countdown ++ nestedPayload ++ [0x00] ++ Copy.b.countdown ++
    List.replicate 11 0x55

theorem findAll_covers_nestedStream :
    Block.mk .a 11 nestedPayload 0 false ∈ findAll nestedStream ∧
      (∃ place, StandsAt nestedStream place ⟨.a, 11, nestedPayload, 0, false⟩) ∧
      11 + frameSize ≤ nestedStream.length ∧
      (nestedStream.drop 11).take countdownSize = Copy.b.countdown ∧
      ∃ block ∈ findAll nestedStream, ∃ first, StandsAt nestedStream first block ∧
        (first = 11 ∨ (first < 11 ∧ 11 < first + frameSize)) := by
  obtain ⟨hstands, _, hcovers⟩ := findAll_covers nestedStream
  have hmem : Block.mk .a 11 nestedPayload 0 false ∈ findAll nestedStream := by decide +kernel
  have hfits : 11 + frameSize ≤ nestedStream.length := by decide +kernel
  have hcountdown : (nestedStream.drop 11).take countdownSize = Copy.b.countdown := by decide
  exact ⟨hmem, hstands _ hmem, hfits, hcountdown, hcovers 11 .b hfits hcountdown⟩

end TapeSalvage.Block
