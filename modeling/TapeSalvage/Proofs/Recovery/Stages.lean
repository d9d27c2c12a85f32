import TapeSalvage.Proofs.Header.Location
import TapeSalvage.Proofs.Program.Assembling
import TapeSalvage.Proofs.Recovery.Faults
import TapeSalvage.Proofs.Recovery.Scanning

/-!
What a result owes to the stages before it. A result of blocks comes from a header that was located
and a program that was assembled, a result of the scan from the best candidate; every other result
is one of these. So every result has a load address that a word can hold, and its listing is that of
its image.
-/
namespace TapeSalvage.Recovery

variable {α : Type} {config : Config α} {data : Bytes} {reading : Reading α} {result : Result α}

theorem exists_assembly_of_fromBlocks (h : fromBlocks config data reading = .ok result) :
    ∃ location assembly, ¬ (Block.findAll data).isEmpty = true ∧
      Header.locate config.strategy config.headerRules
        (Block.select config.copy (Block.findAll data)).blocks = .ok location ∧
      Program.assemble (config.lengthLimit.getD Program.lengthLimit) location.header.startAddress
        location.header.endAddress location.payloads = .ok assembly ∧
      result = blocksResult config data reading location assembly := by
  unfold fromBlocks at h
  split at h
  · contradiction
  · rename_i hempty
    obtain ⟨location, hlocate, h⟩ := (bind_eq_ok_iff _ _ _).mp h
    obtain ⟨assembly, hassemble, h⟩ := (bind_eq_ok_iff _ _ _).mp h
    exact ⟨location, assembly, hempty, hlocate, hassemble, (Except.ok.inj h).symm⟩

theorem fromBlocks_or_fromScan (h : fromDecoded config data reading = .ok result) :
    fromBlocks config data reading = .ok result ∨ fromScan config data reading = .ok result := by
  cases hmode : config.mode with
  | blocks =>
    rw [fromDecoded, hmode] at h
    exact Or.inl h
  | scan =>
    rw [fromDecoded, hmode] at h
    exact Or.inr h
  | automatic =>
    rw [fromDecoded_automatic hmode] at h
    split at h
    · rename_i hblocks
      obtain rfl := Except.ok.inj h
      exact Or.inl hblocks
    · exact Or.inr h

theorem loadAddress_lt_of_fromScan (h : fromScan config data reading = .ok result) :
    result.image.loadAddress < 65536 := by
  obtain ⟨best, hsearch, rfl⟩ := search_of_fromScan h
  obtain ⟨offset, low, high, rest, lines, final, rfl, _⟩ := exists_lines_of_search hsearch
  exact word_lt low high

theorem loadAddress_lt_of_fromBlocks (h : fromBlocks config data reading = .ok result) :
    result.image.loadAddress < 65536 := by
  obtain ⟨location, assembly, _, _, hassemble, rfl⟩ := exists_assembly_of_fromBlocks h
  exact Program.loadAddress_lt_of_assemble hassemble

theorem lines_of_fromDecoded (h : fromDecoded config data reading = .ok result) :
    result.lines = Listing.lines config.listingRules result.image := by
  rcases fromBlocks_or_fromScan h with hblocks | hscan
  · obtain ⟨location, assembly, _, _, _, rfl⟩ := exists_assembly_of_fromBlocks hblocks
    rfl
  · obtain ⟨best, _, rfl⟩ := search_of_fromScan hscan
    rfl

/-- A result can be written as a program file and read back, and lists as its image does. -/
theorem image_of_recovered [Pulse.Gauge α] {capture : Bytes}
    (h : recovered config capture = .ok result) :
    Program.Image.ofBytes result.image.bytes = .ok result.image ∧
      result.lines = Listing.lines config.listingRules result.image := by
  obtain ⟨value, _, h⟩ := (bind_eq_ok_iff _ _ _).mp h
  refine ⟨Program.Image.ofBytes_bytes ?_, lines_of_fromDecoded h⟩
  rcases fromBlocks_or_fromScan h with hblocks | hscan
  · exact loadAddress_lt_of_fromBlocks hblocks
  · exact loadAddress_lt_of_fromScan hscan

end TapeSalvage.Recovery
