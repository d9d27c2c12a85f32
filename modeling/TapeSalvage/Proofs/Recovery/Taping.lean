import TapeSalvage.Proofs.Block.Framing
import TapeSalvage.Proofs.Bytes.Words
import TapeSalvage.Proofs.Listing.Records
import TapeSalvage.Proofs.Program.Chunks
import TapeSalvage.Proofs.Recovery.Outcome

/-!
Recovery of a program that was taped as blocks: a header, the program in payloads, and perhaps
more. The two copies may be on the tape in any order, also block by block, and noise without a
countdown may stand between the blocks.
-/
namespace TapeSalvage.Recovery

open Block (Taped stream blocksFrom IsClear)

def payloadsOf (copy : Copy) (tape : List Taped) : List Bytes :=
  (tape.filter fun taped => taped.copy == copy).map (·.payload)

def headerPayload (kind : UInt8) (start finish : Nat) (name rest : Bytes) : Bytes :=
  kind :: (Bytes.ofWord start ++ Bytes.ofWord finish ++ name ++ rest)

theorem length_headerPayload (kind : UInt8) (start finish : Nat) (name rest : Bytes) :
    (headerPayload kind start finish name rest).length = 5 + name.length + rest.length := by
  simp only [headerPayload, Bytes.ofWord, List.length_cons, List.length_append,
    Bytes.length_ofNumber]
  omega

/-- Whether payloads are those of a program at an address: a header under any name, the program in
whole payloads, and any more of them. -/
inductive IsTaping (start : Nat) (program : Bytes) : List Bytes → Prop
  | taping {kind : UInt8} {name rest : Bytes} {extra : List Bytes} :
      name.length = Header.nameSize → IsTaping start program
        (headerPayload kind start (start + program.length) name rest ::
          (Program.chunks program ++ extra))

def IsPresent (tape : List Taped) : Block.Choice → Prop
  | .automatic => tape ≠ []
  | .only copy => payloadsOf copy tape ≠ []

theorem parse_headerPayload {start finish : Nat} (hstart : start ≤ 0xFFFF)
    (hfinish : finish ≤ 0xFFFF)
    (kind : UInt8) {name : Bytes} (hname : name.length = Header.nameSize) (rest : Bytes) :
    Header.parse (headerPayload kind start finish name rest) =
      .ok ⟨kind.toNat, start, finish, name⟩ := by
  have hlong : ¬ (name ++ rest).length < Header.nameSize := by
    rw [List.length_append]
    omega
  have hfirst : start < 65536 := by omega
  have hlast : finish < 65536 := by omega
  rw [headerPayload, Bytes.ofWord_natCast hfirst, Bytes.ofWord_natCast hlast, List.append_assoc]
  change (if (name ++ rest).length < Header.nameSize then _ else _) = _
  rw [if_neg hlong, word_ofNat hfirst, word_ofNat hlast]
  change Except.ok (Header.mk kind.toNat start finish ((name ++ rest).take Header.nameSize)) = _
  rw [List.take_left' hname]

theorem payloads_ofCopy_blocksFrom (copy : Copy) (position : Nat) (tape : List Taped) :
    (Block.ofCopy copy (blocksFrom position tape)).map (·.payload) = payloadsOf copy tape := by
  induction tape generalizing position with
  | nil => rfl
  | cons taped rest ih =>
    have hrest := ih (position + taped.gap.length + Block.frameSize)
    unfold Block.ofCopy payloadsOf at hrest ⊢
    rw [blocksFrom]
    by_cases hcopy : taped.copy = copy
    · rw [List.filter_cons_of_pos (by simpa [Taped.block] using hcopy),
        List.filter_cons_of_pos (by simpa using hcopy), List.map_cons, List.map_cons, hrest]
      rfl
    · rw [List.filter_cons_of_neg (by simpa [Taped.block] using hcopy),
        List.filter_cons_of_neg (by simpa using hcopy), hrest]

theorem ofCopy_eq_nil_iff (copy : Copy) (position : Nat) (tape : List Taped) :
    Block.ofCopy copy (blocksFrom position tape) = [] ↔ payloadsOf copy tape = [] := by
  rw [← payloads_ofCopy_blocksFrom copy position tape, List.map_eq_nil_iff]

/-- A tape that is not empty has blocks of one of the copies. -/
theorem payloadsOf_b_ne_nil {tape : List Taped} (hne : tape ≠ []) (ha : payloadsOf .a tape = []) :
    payloadsOf .b tape ≠ [] := by
  obtain ⟨taped, rest, rfl⟩ := List.exists_cons_of_ne_nil hne
  unfold payloadsOf at ha ⊢
  cases hcopy : taped.copy with
  | a =>
    rw [List.filter_cons_of_pos (by simp [hcopy])] at ha
    simp at ha
  | b =>
    rw [List.filter_cons_of_pos (by simp [hcopy])]
    simp

/-- The copy that is chosen is on the tape. -/
theorem payloads_select {choice : Block.Choice} {tape : List Taped} (h : IsPresent tape choice)
    (position : Nat) :
    ∃ copy, payloadsOf copy tape ≠ [] ∧
      (Block.select choice (blocksFrom position tape)).blocks =
        Block.ofCopy copy (blocksFrom position tape) := by
  cases choice with
  | only copy => exact ⟨copy, h, rfl⟩
  | automatic =>
    by_cases ha : payloadsOf .a tape = []
    · refine ⟨.b, payloadsOf_b_ne_nil h ha, ?_⟩
      have hempty := (ofCopy_eq_nil_iff .a position tape).mpr ha
      unfold Block.select Block.Choice.copy
      rw [hempty]
      rfl
    · refine ⟨.a, ha, ?_⟩
      have hne := mt (ofCopy_eq_nil_iff .a position tape).mp ha
      unfold Block.select Block.Choice.copy
      dsimp only
      rw [if_neg (by simpa using hne)]

theorem isIntact_of_mem_blocksFrom {tape : List Taped}
    (h : ∀ taped ∈ tape, Block.serializeIntact taped.copy taped.payload = .ok taped.frame)
    {position : Nat} {block : Block} (hmem : block ∈ blocksFrom position tape) :
    block.isIntact = true := by
  induction tape generalizing position with
  | nil => simp [blocksFrom] at hmem
  | cons taped rest ih =>
    rcases List.mem_cons.mp hmem with rfl | hrest
    · have hsum := taped.serializeIntact_eq_frame_iff.mp (h taped (List.mem_cons_self ..))
      exact beq_iff_eq.mpr hsum.symm
    · exact ih (fun t ht => h t (List.mem_cons_of_mem _ ht)) hrest

theorem matched_eq_sampled {blocks : List Block} (h : ∀ block ∈ blocks, block.isIntact = true) :
    (Block.tally Block.sampleLimit blocks).matched =
      (Block.tally Block.sampleLimit blocks).sampled := by
  change (blocks.take 200).countP (·.isIntact) = (blocks.take 200).length
  rw [List.countP_eq_length]
  intro block hmem
  exact h block (List.mem_of_mem_take hmem)

/-- The first block of a taping is its header, and the other payloads assemble to the program. -/
theorem locate_taping {start : Nat} {program : Bytes} (hne : program ≠ [])
    (hfit : start + program.length ≤ 0xFFFF) (rules : Header.Rules) {blocks : List Block}
    (h : IsTaping start program (blocks.map (·.payload))) :
    ∃ location, Header.locate .first rules blocks = .ok location ∧
      Program.assemble Program.lengthLimit location.header.startAddress location.header.endAddress
        location.payloads = .ok ⟨⟨start, program⟩, program.length, none⟩ := by
  generalize hpayloads : blocks.map (·.payload) = payloads at h
  obtain ⟨hname⟩ := h
  rename_i kind name rest extra
  obtain ⟨block, others, rfl, hhead, hothers⟩ := List.map_eq_cons_iff.mp hpayloads
  have hparse := parse_headerPayload (show start ≤ 0xFFFF by omega) hfit kind hname rest
  rw [← hhead] at hparse
  refine ⟨⟨0, ⟨kind.toNat, start, start + program.length, name⟩, none, others.map (·.payload)⟩,
    ?_, ?_⟩
  · rw [Header.locate, hparse]
    rfl
  · rw [hothers]
    exact Program.assemble_chunks hne hfit extra

/-- A program that was taped is recovered, and its lines are listed as they were stored. -/
theorem recoverFromBlocks_stream {α : Type} (config : Config α) (reading : Reading α)
    (hstrategy : config.strategy = .first)
    (hlimit : config.lengthLimit.getD Program.lengthLimit = Program.lengthLimit)
    (hlisting : config.listingRules = Listing.Rules.standard) {start : Nat} {program : Bytes}
    (hne : program ≠ []) (hfit : start + program.length ≤ 0xFFFF) {tape : List Taped} {last : Bytes}
    (hlast : IsClear last)
    (hserialized : ∀ taped ∈ tape,
      Block.serializeIntact taped.copy taped.payload = .ok taped.frame)
    (htapings : ∀ copy, payloadsOf copy tape = [] ∨ IsTaping start program (payloadsOf copy tape))
    (hpresent : IsPresent tape config.copy) :
    ∃ result findings,
      (run (recoverFromBlocks config (stream tape last) reading)).1 = .ok result ∧
      result.image.loadAddress = start ∧
      result.image.bytes = Bytes.ofWord start ++ program ∧
      result.shortfall = none ∧
      result.findings = .blocks findings ∧
      findings.checksums.matched = findings.checksums.sampled ∧
      ∀ lines : List Listing.Stored,
        program = Listing.storedBytes lines ++ Listing.programEnd →
          result.lines = lines.map (·.line .strict) := by
  have hblocks := Block.findAll_stream tape hlast
  obtain ⟨copy, hcopy, hselect⟩ := payloads_select hpresent 0
  have htaping : IsTaping start program
      ((Block.ofCopy copy (blocksFrom 0 tape)).map (·.payload)) := by
    rw [payloads_ofCopy_blocksFrom]
    exact (htapings copy).resolve_left hcopy
  obtain ⟨location, hlocate, hassemble⟩ := locate_taping hne hfit config.headerRules htaping
  have hsome : ¬ (blocksFrom 0 tape).isEmpty = true := by
    intro hempty
    rw [List.isEmpty_iff] at hempty
    rw [← payloads_ofCopy_blocksFrom copy 0, hempty] at hcopy
    exact hcopy rfl
  have hrun : (run (recoverFromBlocks config (stream tape last) reading)).1 =
      .ok (blocksResult config (stream tape last) reading location
        ⟨⟨start, program⟩, program.length, none⟩) := by
    rw [(yields_recoverFromBlocks config _ reading).run_eq, fromBlocks, hblocks, if_neg hsome]
    dsimp only
    rw [hselect, hstrategy, hlimit, hlocate]
    change (Program.assemble _ _ _ _ >>= _) = _
    rw [hassemble]
    rfl
  refine ⟨_, _, hrun, rfl, rfl, rfl, rfl, ?_, ?_⟩
  · dsimp only
    rw [hblocks, hselect]
    refine matched_eq_sampled fun block hmem => ?_
    exact isIntact_of_mem_blocksFrom hserialized (List.mem_of_mem_filter hmem)
  · intro lines hlines
    -- A program of at most 65535 bytes has too few lines to reach the limit of a listing.
    have hcount := Listing.length_storedBytes lines
    have hlength := congrArg List.length hlines
    rw [List.length_append] at hlength
    change Listing.lines config.listingRules ⟨start, program⟩ = _
    rw [hlisting]
    refine Listing.lines_storedBytes _ lines hlines ?_
    unfold Listing.lineLimit
    omega

def lineProgram : Bytes := [0x08, 0x10, 0x0A, 0x00, 0x99, 0x00, 0x00, 0x00]

def lineHeader : Bytes :=
  headerPayload 1 0x1001 0x1009 (List.replicate 16 0x20) (List.replicate 171 0x20)

theorem length_lineHeader : lineHeader.length = Block.payloadSize := by
  rw [lineHeader, length_headerPayload, List.length_replicate, List.length_replicate]
  rfl

theorem length_padded_lineProgram : (Program.padded lineProgram).length = Block.payloadSize :=
  Program.length_padded (by decide)

/-- The program with its two copies in turn, and pieces of countdowns between the blocks. -/
def lineTape : List Taped :=
  [⟨[0x89], .a, lineHeader, Bytes.parity lineHeader, by decide, length_lineHeader⟩,
    ⟨[0x09, 0x08], .b, lineHeader, Bytes.parity lineHeader, by decide, length_lineHeader⟩,
    ⟨[], .b, Program.padded lineProgram, Bytes.parity (Program.padded lineProgram), by decide,
      length_padded_lineProgram⟩,
    ⟨[0x88, 0x89], .a, Program.padded lineProgram, Bytes.parity (Program.padded lineProgram),
      by decide, length_padded_lineProgram⟩]

theorem recoverFromBlocks_stream_line :
    ∃ result findings,
      (run (recoverFromBlocks (.standard : Config Rat) (stream lineTape [0x09]) ⟨[], 0, 0⟩)).1 =
        .ok result ∧
      result.image.loadAddress = 0x1001 ∧
      result.image.bytes = Bytes.ofWord 0x1001 ++ lineProgram ∧
      result.shortfall = none ∧
      result.findings = .blocks findings ∧
      findings.checksums.matched = findings.checksums.sampled ∧
      result.lines = [⟨10, "PRINT"⟩] := by
  have hserialized : ∀ taped ∈ lineTape,
      Block.serializeIntact taped.copy taped.payload = .ok taped.frame := by
    intro taped hmem
    rw [taped.serializeIntact_eq_frame_iff]
    simp only [lineTape, List.mem_cons, List.not_mem_nil, or_false] at hmem
    rcases hmem with rfl | rfl | rfl | rfl <;> rfl
  have htaping : IsTaping 0x1001 lineProgram
      (headerPayload 1 0x1001 (0x1001 + lineProgram.length) (List.replicate 16 0x20)
        (List.replicate 171 0x20) :: (Program.chunks lineProgram ++ [])) := .taping rfl
  have htapings : ∀ copy, payloadsOf copy lineTape = [] ∨
      IsTaping 0x1001 lineProgram (payloadsOf copy lineTape) := by
    intro copy
    cases copy
    · exact Or.inr htaping
    · exact Or.inr htaping
  obtain ⟨result, findings, hrun, haddress, hbytes, hwhole, hfindings, hsums, hlines⟩ :=
    recoverFromBlocks_stream (.standard : Config Rat) ⟨[], 0, 0⟩ rfl rfl rfl (by decide)
      (by decide) (show IsClear [0x09] by decide) hserialized htapings
        (show lineTape ≠ [] by simp [lineTape])
  refine ⟨result, findings, hrun, haddress, hbytes, hwhole, hfindings, hsums, ?_⟩
  rw [hlines [⟨0x08, 0x10, 0x0A, 0x00, [0x99], by decide, by decide⟩] rfl]
  rfl

end TapeSalvage.Recovery
