import TapeSalvage.Proofs.Block.Counting
import TapeSalvage.Proofs.Recovery.Stages
import TapeSalvage.Proofs.Recovery.Taping

/-!
The account that a recovery from blocks gives of itself. Its numbers come from different stages, but
they agree: with each other, with the bytes it was made from, with the program it ends with, and
with the warnings that were told on the way.
-/
namespace TapeSalvage.Recovery

variable {α ρ σ : Type}

def Journal.warnings (journal : Journal α) : List String :=
  journal.events.filterMap fun
    | .warning text => some text
    | _ => none

/-- A computation warns of some things if it ends with its value and tells these warnings, whatever
was told before. -/
def Warns (attempt : Attempt α ρ) (value : ρ) (texts : List String) : Prop :=
  ∀ journal, ∃ later, (ExceptT.run attempt).run journal = (.ok value, later) ∧
    later.warnings = journal.warnings ++ texts

theorem Warns.bind {attempt : Attempt α ρ} {next : ρ → Attempt α σ} {first : ρ} {value : σ}
    {texts more : List String} (h : Warns attempt first texts)
    (hnext : Warns (next first) value more) :
    Warns (attempt >>= next) value (texts ++ more) := by
  intro journal
  obtain ⟨middle, hfirst, htexts⟩ := h journal
  obtain ⟨later, hlater, hmore⟩ := hnext middle
  refine ⟨later, ?_, ?_⟩
  · rw [run_bind, hfirst]
    exact hlater
  · rw [hmore, htexts, List.append_assoc]

/-- A computation that warns of nothing leaves the warnings to the steps after it. -/
theorem Warns.then {attempt : Attempt α ρ} {next : ρ → Attempt α σ} {first : ρ} {value : σ}
    {texts : List String} (h : Warns attempt first []) (hnext : Warns (next first) value texts) :
    Warns (attempt >>= next) value texts := h.bind hnext

theorem Warns.last {attempt : Attempt α ρ} {next : ρ → Attempt α σ} {first : ρ} {value : σ}
    {texts : List String} (h : Warns attempt first texts) (hnext : Warns (next first) value []) :
    Warns (attempt >>= next) value texts := by
  rw [← List.append_nil texts]
  exact h.bind hnext

theorem warns_lift {outcome : Except Fault ρ} {value : ρ} (h : outcome = .ok value) :
    Warns (lift outcome : Attempt α ρ) value [] :=
  fun journal => ⟨journal, by rw [h]; rfl, (List.append_nil _).symm⟩

theorem warns_pure (value : ρ) : Warns (pure value : Attempt α ρ) value [] := warns_lift rfl

theorem warns_log (voice : Voice) (text : String) :
    Warns (log voice text : Attempt α Unit) () [] := by
  obtain ⟨name, isQuiet⟩ := voice
  intro journal
  cases isQuiet <;> exact ⟨_, rfl, List.filterMap_append⟩

theorem warns_warn (voice : Voice) (text : String) :
    Warns (warn voice text : Attempt α Unit) () [text] := by
  obtain ⟨name, isQuiet⟩ := voice
  intro journal
  cases isQuiet <;> exact ⟨_, rfl, List.filterMap_append⟩

theorem warns_report (progress : Progress α) : Warns (report progress) () [] :=
  fun _ => ⟨_, rfl, List.filterMap_append⟩

theorem warns_listImage (config : Config α) (image : Program.Image) :
    Warns (listImage config image) (Listing.lines config.listingRules image) [] :=
  (warns_report _).then (warns_pure _)

def checksumWarnings (checksums : Block.Tally) : List String :=
  if checksums.matched < checksums.sampled then
    let failed := checksums.sampled - checksums.matched
    [s!"{failed} of {checksums.sampled} sampled blocks fail their checksum"]
  else []

def shortfallWarnings : Option Program.Shortfall → List String
  | none => []
  | some shortfall =>
    [s!"Need {shortfall.declared} bytes but only assembled {shortfall.assembled} bytes from blocks"]

theorem warns_logSelection (voice : Voice) (blocks : List Block) (selection : Block.Selection)
    (checksums : Block.Tally) :
    Warns (logSelection voice blocks selection checksums : Attempt α Unit) ()
      (checksumWarnings checksums) := by
  unfold logSelection checksumWarnings
  refine (warns_log _ _).then ?_
  refine (warns_log _ _).then ?_
  refine (warns_log _ _).then ?_
  split
  · exact (warns_warn _ _).last (warns_report _)
  · exact warns_report _

/-- A recovery from blocks warns of damaged blocks first, and then of what is missing. -/
theorem warns_recoverFromBlocks {config : Config α} {data : Bytes} (reading : Reading α)
    {location : Header.Location} {assembly : Program.Assembly}
    (hfound : ¬ (Block.findAll data).isEmpty = true)
    (hlocate : Header.locate config.strategy config.headerRules
      (Block.select config.copy (Block.findAll data)).blocks = .ok location)
    (hassemble : Program.assemble (config.lengthLimit.getD Program.lengthLimit)
      location.header.startAddress location.header.endAddress location.payloads = .ok assembly) :
    Warns (recoverFromBlocks config data reading)
      (blocksResult config data reading location assembly)
      (checksumWarnings (Block.tally Block.sampleLimit
          (Block.select config.copy (Block.findAll data)).blocks) ++
        shortfallWarnings assembly.shortfall) := by
  unfold recoverFromBlocks
  dsimp only
  rw [if_neg hfound]
  refine (warns_logSelection _ _ _ _).bind ?_
  refine (warns_lift hlocate).then ?_
  refine (warns_log _ _).then ?_
  refine (warns_lift hassemble).then ?_
  cases hshort : assembly.shortfall with
  | none =>
    refine (warns_log _ _).then ?_
    refine (warns_listImage _ _).then ?_
    unfold blocksResult
    rw [hshort]
    exact warns_pure _
  | some shortfall =>
    refine (warns_warn _ _).last ?_
    refine (warns_log _ _).then ?_
    refine (warns_listImage _ _).then ?_
    unfold blocksResult
    rw [hshort]
    exact warns_pure _

def BlockFindings.countOf (findings : BlockFindings) : Copy → Nat
  | .a => findings.copyA
  | .b => findings.copyB

def BlockFindings.declared (findings : BlockFindings) : Nat :=
  findings.header.endAddress - findings.header.startAddress

def BlockFindings.available (findings : BlockFindings) : Nat :=
  192 * (findings.usedCount - 1 - findings.headerIndex)

/-- Whether the findings of a recovery from blocks agree with the bytes that it was made from, with
the set-up, with each other and with the result. -/
structure IsAccount (config : Config α) (data : Bytes) (result : Result α)
    (findings : BlockFindings) : Prop where
  counts : ∀ copy, findings.countOf copy = (Block.ofCopy copy (Block.findAll data)).length
  total_eq : findings.copyA + findings.copyB = findings.total
  total_fits : 202 * findings.total ≤ data.length
  requested : ∀ copy, config.copy = .only copy → findings.used = copy
  preferred : config.copy = .automatic → (findings.used = .a ↔ 0 < findings.copyA)
  usedCount_eq : findings.usedCount = findings.countOf findings.used
  sampled_eq : findings.checksums.sampled = min 200 findings.usedCount
  /-- The sampled blocks that match are those whose checksum is the parity of their payload. -/
  matched_eq : findings.checksums.matched =
    ((Block.ofCopy findings.used (Block.findAll data)).take 200).countP fun block =>
      decide (((Bytes.parity block.payload).toNat : Int) = block.checksum)
  index_lt : findings.headerIndex < findings.usedCount
  /-- The header is read from the block at its index. -/
  header_eq : ∃ block,
    (Block.ofCopy findings.used (Block.findAll data))[findings.headerIndex]? = some block ∧
      Header.parse block.payload = .ok findings.header
  ordered : findings.header.startAddress < findings.header.endAddress
  length_body : result.image.body.length = findings.assembledLength
  assembled_eq : findings.assembledLength = min findings.declared findings.available
  short_iff : result.shortfall.isSome = true ↔ findings.available < findings.declared
  /-- What is missing and what there is make up what was declared. -/
  short_parts : ∀ shortfall ∈ result.shortfall, shortfall.declared = findings.declared ∧
    shortfall.assembled = result.image.body.length ∧
    shortfall.assembled + shortfall.missing = shortfall.declared

theorem copy_automatic_eq_a_iff (blocks : List Block) :
    Block.Choice.automatic.copy blocks = .a ↔ 0 < (Block.ofCopy .a blocks).length := by
  unfold Block.Choice.copy
  cases hblocks : Block.ofCopy .a blocks <;> simp

/-- The payloads behind a block hold as many bytes as there are blocks behind it, times the size of
a payload. -/
theorem length_flatten_payloads {choice : Block.Choice} {data : Bytes} (index : Nat) :
    let blocks := (Block.select choice (Block.findAll data)).blocks
    ((blocks.drop (index + 1)).map (·.payload)).flatten.length =
      192 * (blocks.length - 1 - index) := by
  dsimp only
  have hwhole : ∀ payload ∈ ((Block.select choice (Block.findAll data)).blocks.drop
      (index + 1)).map (·.payload), payload.length = Block.payloadSize := by
    intro payload hmem
    obtain ⟨block, hblock, rfl⟩ := List.mem_map.mp hmem
    exact length_of_mem_select (List.mem_of_mem_drop hblock)
  rw [Program.length_flatten_of_whole hwhole, List.length_map, List.length_drop, Nat.add_comm index,
    Nat.sub_add_eq]
  rfl

theorem isAccount_blocksResult {config : Config α} {data : Bytes} (reading : Reading α)
    {location : Header.Location} {assembly : Program.Assembly}
    (hlocate : Header.locate config.strategy config.headerRules
      (Block.select config.copy (Block.findAll data)).blocks = .ok location)
    (hassemble : Program.assemble (config.lengthLimit.getD Program.lengthLimit)
      location.header.startAddress location.header.endAddress location.payloads = .ok assembly) :
    ∃ findings, (blocksResult config data reading location assembly).findings = .blocks findings ∧
      IsAccount config data (blocksResult config data reading location assembly) findings ∧
      findings.checksums = Block.tally Block.sampleLimit
        (Block.select config.copy (Block.findAll data)).blocks := by
  obtain ⟨block, hblock, hparse, hpayloads⟩ := Header.exists_block_of_locate hlocate
  obtain ⟨hstart, hend⟩ := Header.address_lt_of_parse hparse
  obtain ⟨hordered, hbody, hshort⟩ := Program.eq_of_assemble hstart hend hassemble
  have hindex := (List.getElem?_eq_some_iff.mp hblock).1
  have htally := Block.tally_of_subset_findAll
    (show (Block.select config.copy (Block.findAll data)).blocks ⊆ Block.findAll data from
      fun _ => List.mem_of_mem_filter)
  have hlength : assembly.image.body.length =
      min (location.header.endAddress - location.header.startAddress)
        (192 * ((Block.select config.copy (Block.findAll data)).blocks.length - 1 -
          location.index)) := by
    rw [hbody, List.length_take, hpayloads, length_flatten_payloads]
  obtain ⟨hsome, hparts⟩ := Program.Shortfall.of?_spec
    (location.header.endAddress - location.header.startAddress) assembly.image.body.length
  rw [← hshort] at hsome hparts
  refine ⟨_, rfl, ?_, rfl⟩
  constructor
  case counts => intro copy; cases copy <;> rfl
  case total_eq => exact Block.length_ofCopy_add _
  case total_fits => exact Block.length_findAll_le data
  case requested =>
    intro copy hcopy
    change config.copy.copy _ = copy
    rw [hcopy]
    rfl
  case preferred =>
    intro hcopy
    change config.copy.copy _ = .a ↔ _
    rw [hcopy]
    exact copy_automatic_eq_a_iff _
  case usedCount_eq =>
    change (Block.ofCopy (config.copy.copy (Block.findAll data)) _).length =
      BlockFindings.countOf _ (config.copy.copy (Block.findAll data))
    cases config.copy.copy (Block.findAll data) <;> rfl
  case sampled_eq => exact congrArg Block.Tally.sampled htally
  case matched_eq => exact congrArg Block.Tally.matched htally
  case index_lt => exact hindex
  case header_eq => exact ⟨block, hblock, hparse⟩
  case ordered => exact hordered
  case length_body => rfl
  case assembled_eq => exact hlength
  case short_iff =>
    have hmin : ∀ declared available : Nat,
        min declared available < declared ↔ available < declared := by omega
    refine hsome.trans ?_
    rw [hlength]
    exact hmin _ _
  case short_parts =>
    intro shortfall hmem
    obtain ⟨hdeclared, hassembled, hsum⟩ := hparts shortfall hmem
    exact ⟨hdeclared, hassembled, hsum.trans hdeclared.symm⟩

/-- The findings of a recovery from blocks agree with everything else that it gives, and it warns of
damaged blocks and of missing bytes exactly if there are any, in this order. -/
theorem recoverFromBlocks_account (config : Config α) (data : Bytes) (reading : Reading α)
    {result : Result α} (hrun : (run (recoverFromBlocks config data reading)).1 = .ok result) :
    ∃ findings, result.findings = .blocks findings ∧ IsAccount config data result findings ∧
      (run (recoverFromBlocks config data reading)).2.warnings =
        checksumWarnings findings.checksums ++ shortfallWarnings result.shortfall := by
  rw [(yields_recoverFromBlocks config data reading).run_eq] at hrun
  obtain ⟨location, assembly, hfound, hlocate, hassemble, rfl⟩ := exists_assembly_of_fromBlocks hrun
  obtain ⟨later, hlater, hwarnings⟩ :=
    warns_recoverFromBlocks reading hfound hlocate hassemble .empty
  obtain ⟨findings, hfindings, haccount, hchecksums⟩ :=
    isAccount_blocksResult reading hlocate hassemble
  refine ⟨findings, hfindings, haccount, ?_⟩
  unfold run
  rw [hlater, hchecksums]
  exact hwarnings

def longHeader : Bytes :=
  headerPayload 1 0x1001 0x112D (List.replicate 16 0x20) (List.replicate 171 0x20)

theorem length_longHeader : longHeader.length = Block.payloadSize := by
  rw [longHeader, length_headerPayload, List.length_replicate, List.length_replicate]
  rfl

/-- A tape of copy B alone, with a single payload behind the header, whose checksum is wrong. -/
def damagedTape : List Block.Taped :=
  [⟨[0xFF], .b, longHeader, Bytes.parity longHeader, by decide, length_longHeader⟩,
    ⟨[0x89, 0x09], .b, List.replicate 192 0x55, 1, by decide, List.length_replicate⟩]

theorem select_damagedTape :
    Block.select .automatic (Block.findAll (Block.stream damagedTape [])) =
      ⟨.b, Block.blocksFrom 0 damagedTape⟩ := by
  rw [Block.findAll_stream damagedTape (show Block.IsClear [] by decide)]
  rfl

theorem fromBlocks_damagedTape :
    fromBlocks (.standard : Config Rat) (Block.stream damagedTape []) ⟨[], 0, 0⟩ =
      .ok (blocksResult .standard (Block.stream damagedTape []) ⟨[], 0, 0⟩
        ⟨0, ⟨1, 0x1001, 0x112D, List.replicate 16 0x20⟩, none, [List.replicate 192 0x55]⟩
        ⟨⟨0x1001, List.replicate 192 0x55⟩, 300, some ⟨300, 192, 108⟩⟩) := by
  have hfound : ¬ (Block.findAll (Block.stream damagedTape [])).isEmpty = true := by
    rw [Block.findAll_stream damagedTape (show Block.IsClear [] by decide)]
    exact Bool.false_ne_true
  have hparse : Header.parse longHeader = .ok ⟨1, 0x1001, 0x112D, List.replicate 16 0x20⟩ :=
    parse_headerPayload (by decide) (by decide) 1 List.length_replicate _
  have hlocate : Header.locate .first (Config.standard : Config Rat).headerRules
      (Block.select .automatic (Block.findAll (Block.stream damagedTape []))).blocks =
        .ok ⟨0, ⟨1, 0x1001, 0x112D, List.replicate 16 0x20⟩, none, [List.replicate 192 0x55]⟩ := by
    rw [select_damagedTape]
    change (Header.parse longHeader >>= _) = _
    rw [hparse]
    rfl
  have hassemble : Program.assemble Program.lengthLimit 0x1001 0x112D [List.replicate 192 0x55] =
      .ok ⟨⟨0x1001, List.replicate 192 0x55⟩, 300, some ⟨300, 192, 108⟩⟩ := by decide +kernel
  unfold fromBlocks
  rw [if_neg hfound]
  exact (bind_eq_ok_iff _ _ _).mpr ⟨_, hlocate, (bind_eq_ok_iff _ _ _).mpr ⟨_, hassemble, rfl⟩⟩

theorem recoverFromBlocks_account_damagedTape :
    ∃ (result : Result Rat) (findings : BlockFindings),
      (run (recoverFromBlocks .standard (Block.stream damagedTape []) ⟨[], 0, 0⟩)).1 = .ok result ∧
      result.findings = .blocks findings ∧
      IsAccount .standard (Block.stream damagedTape []) result findings ∧
      findings.used = .b ∧ findings.checksums = ⟨1, 2⟩ ∧ result.shortfall = some ⟨300, 192, 108⟩ ∧
      (run (recoverFromBlocks (.standard : Config Rat) (Block.stream damagedTape [])
        ⟨[], 0, 0⟩)).2.warnings =
          ["1 of 2 sampled blocks fail their checksum",
            "Need 300 bytes but only assembled 192 bytes from blocks"] := by
  have hrun := (yields_recoverFromBlocks (.standard : Config Rat) (Block.stream damagedTape [])
    ⟨[], 0, 0⟩).run_eq.trans fromBlocks_damagedTape
  obtain ⟨findings, hfindings, haccount, hwarnings⟩ := recoverFromBlocks_account _ _ _ hrun
  obtain rfl := Findings.blocks.inj hfindings
  have htally : Block.tally Block.sampleLimit (Block.blocksFrom 0 damagedTape) = ⟨1, 2⟩ := by
    decide +kernel
  have hchecksums : Block.tally Block.sampleLimit
      (Block.select .automatic (Block.findAll (Block.stream damagedTape []))).blocks = ⟨1, 2⟩ := by
    rw [select_damagedTape]
    exact htally
  refine ⟨_, _, hrun, rfl, haccount, congrArg Block.Selection.copy select_damagedTape, hchecksums,
    rfl, ?_⟩
  rw [hwarnings]
  change checksumWarnings (Block.tally Block.sampleLimit
    (Block.select .automatic (Block.findAll (Block.stream damagedTape []))).blocks) ++ _ = _
  rw [hchecksums]
  rfl

end TapeSalvage.Recovery
