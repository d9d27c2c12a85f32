import TapeSalvage.Proofs.Block.Writing

/-!
Counting blocks. No byte belongs to two blocks, so a stream holds at most one block for each frame
that it has room for. Every block is of one of the two copies, and it is intact exactly if its
checksum is the parity of its payload.
-/
namespace TapeSalvage.Block

theorem frameSize_le_of_atFront? {position : Nat} {data : Bytes} {block : Block}
    (h : atFront? position data = some block) : frameSize ≤ data.length := by
  obtain ⟨_, _, _, _, hbyte, _, _⟩ := (atFront?_eq_some_iff _ _ _).mp h
  obtain ⟨hlong, _⟩ := List.getElem?_eq_some_iff.mp hbyte
  unfold countdownSize payloadSize at hlong
  unfold frameSize
  omega

/-- The blocks that are found and the bytes that are passed over for them fit into the data. -/
theorem length_findFrom_le (skip position : Nat) (found : List Block) (data : Bytes) :
    frameSize * (findFrom skip position found data).length ≤
      frameSize * found.length + (data.length - skip) := by
  induction data generalizing skip position found with
  | nil =>
    rw [findFrom_nil, List.length_reverse]
    exact Nat.le_add_right _ _
  | cons byte rest ih =>
    cases skip with
    | succ skip =>
      rw [findFrom, List.length_cons, Nat.add_sub_add_right]
      exact ih skip (position + 1) found
    | zero =>
      rw [findFrom]
      cases hfront : atFront? position (byte :: rest) with
      | none =>
        have hrest := ih 0 (position + 1) found
        dsimp only
        rw [List.length_cons]
        omega
      | some block =>
        -- The rest of the frame of this block is not looked at again.
        have hrest := ih (frameSize - 1) (position + 1) (block :: found)
        have hroom := frameSize_le_of_atFront? hfront
        rw [List.length_cons] at hroom hrest
        dsimp only
        rw [List.length_cons]
        unfold frameSize at hroom hrest ⊢
        omega

/-- A stream has room for the frames of its blocks. -/
theorem length_findAll_le (data : Bytes) : frameSize * (findAll data).length ≤ data.length := by
  have h := length_findFrom_le 0 0 [] data
  rwa [List.length_nil, Nat.mul_zero, Nat.zero_add, Nat.sub_zero] at h

/-- Every block is of one copy or the other. -/
theorem length_ofCopy_add (blocks : List Block) :
    (ofCopy .a blocks).length + (ofCopy .b blocks).length = blocks.length := by
  induction blocks with
  | nil => rfl
  | cons block rest ih =>
    unfold ofCopy at ih ⊢
    cases hcopy : block.copy with
    | a =>
      rw [List.filter_cons_of_pos (by simp [hcopy]), List.filter_cons_of_neg (by simp [hcopy]),
        List.length_cons, List.length_cons]
      omega
    | b =>
      rw [List.filter_cons_of_neg (by simp [hcopy]), List.filter_cons_of_pos (by simp [hcopy]),
        List.length_cons, List.length_cons]
      omega

theorem isIntact_of_atFront? {position : Nat} {data : Bytes} {block : Block}
    (h : atFront? position data = some block) :
    block.isIntact = decide (((Bytes.parity block.payload).toNat : Int) = block.checksum) := by
  obtain ⟨_, _, _, _, _, _, rfl⟩ := (atFront?_eq_some_iff _ _ _).mp h
  dsimp only
  rw [Bool.eq_iff_iff, beq_iff_eq, decide_eq_true_iff, Int.ofNat_inj, UInt8.toNat_inj]

/-- A block that is found is intact exactly if its checksum is the parity of its payload. -/
theorem isIntact_of_mem_findAll {data : Bytes} {block : Block} (h : block ∈ findAll data) :
    block.isIntact = decide (((Bytes.parity block.payload).toNat : Int) = block.checksum) := by
  rcases exists_atFront?_of_mem_findFrom h with hnone | ⟨place, hplace⟩
  · exact absurd hnone List.not_mem_nil
  · exact isIntact_of_atFront? hplace

/-- The usual sample is the first two hundred blocks, and those of them match whose checksum is the
parity of their payload. -/
theorem tally_of_subset_findAll {data : Bytes} {blocks : List Block} (h : blocks ⊆ findAll data) :
    tally sampleLimit blocks =
      ⟨(blocks.take 200).countP fun block =>
          decide (((Bytes.parity block.payload).toNat : Int) = block.checksum),
        min 200 blocks.length⟩ := by
  have hmatched : (blocks.take 200).countP (·.isIntact) = (blocks.take 200).countP fun block =>
      decide (((Bytes.parity block.payload).toNat : Int) = block.checksum) := by
    apply List.countP_congr
    intro block hblock
    rw [isIntact_of_mem_findAll (h (List.mem_of_mem_take hblock))]
  change Tally.mk ((blocks.take 200).countP (·.isIntact)) (blocks.take 200).length = _
  rw [hmatched, List.length_take]

end TapeSalvage.Block
