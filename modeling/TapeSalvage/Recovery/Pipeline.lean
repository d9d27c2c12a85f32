import TapeSalvage.Capture
import TapeSalvage.Frame
import TapeSalvage.Recovery.Config
import TapeSalvage.Recovery.Journal
import TapeSalvage.Scan.Search
import TapeSalvage.Text.Written

/-!
From a capture to a listing. Pulses become symbols and symbols bytes; the program is taken from
the blocks among the bytes, or found by scanning them. Where both are allowed, scanning is tried
after blocks have come to nothing.
-/
namespace TapeSalvage.Recovery

structure Reading (α : Type) where
  centers : List α
  pulseCount : Nat
  decodedLength : Nat

structure BlockFindings where
  copyA : Nat
  copyB : Nat
  total : Nat
  used : Copy
  usedCount : Nat
  checksums : Block.Tally
  headerIndex : Nat
  headerScore : Option Amount
  header : Header
  fileName : String
  assembledLength : Nat

structure ScanFindings where
  offset : Int
  score : Amount
  loadAddress : Int
  lineCount : Int
  endOffset : Int
  imageLength : Nat

inductive Findings where
  | blocks (findings : BlockFindings)
  | scan (findings : ScanFindings)

structure Result (α : Type) where
  decoded : Bytes
  image : Program.Image
  lines : List Listing.Line
  shortfall : Option Program.Shortfall
  reading : Reading α
  findings : Findings

def Result.listing {α : Type} (result : Result α) : String := Listing.format result.lines

variable {α : Type}

def Config.voice (config : Config α) : Voice := ⟨config.name, config.isQuiet⟩

def Config.listingRules (config : Config α) : Listing.Rules :=
  Listing.Rules.standard.change config.listing

def Config.headerRules (config : Config α) : Header.Rules :=
  Header.Rules.standard.change config.header

def Config.scanRules (config : Config α) : Scan.Rules := Scan.Rules.standard.change config.scan

def listImage (config : Config α) (image : Program.Image) : Attempt α (List Listing.Line) := do
  let lines := Listing.lines config.listingRules image
  report (.listed lines.length)
  return lines

/-- Logs which copy is used and how good its checksums are. -/
def logSelection (voice : Voice) (blocks : List Block) (selection : Block.Selection)
    (checksums : Block.Tally) : Attempt α Unit := do
  let countA := (Block.ofCopy .a blocks).length
  let countB := (Block.ofCopy .b blocks).length
  let used := match selection.copy with
    | .a => "A"
    | .b => "B"
  log voice s!"Countdown blocks found (A/B/total): {countA} {countB} {blocks.length}"
  log voice s!"Using copy: {used} blocks: {selection.blocks.length}"
  log voice s!"Checksum matches: {checksums.matched} / {checksums.sampled}"
  if checksums.matched < checksums.sampled then
    let failed := checksums.sampled - checksums.matched
    warn voice s!"{failed} of {checksums.sampled} sampled blocks fail their checksum"
  report (.framed countA countB checksums)

def headerLine (header : Header) : String :=
  let kind := Text.hex 2 header.fileType
  let start := Text.hex 4 header.startAddress
  let finish := Text.hex 4 header.endAddress
  s!"Header: type=${kind} start=${start} end=${finish} name={Text.quoted header.name}"

def recoverFromBlocks (config : Config α) (decoded : Bytes) (reading : Reading α) :
    Attempt α (Result α) := do
  let blocks := Block.findAll decoded
  if blocks.isEmpty then throw .blocksMissing
  let selection := Block.select config.copy blocks
  let checksums := Block.tally Block.sampleLimit selection.blocks
  logSelection config.voice blocks selection checksums
  let location ← lift (Header.locate config.strategy config.headerRules selection.blocks)
  let header := location.header
  log config.voice (headerLine header)
  let limit := config.lengthLimit.getD Program.lengthLimit
  let assembly ← lift
    (Program.assemble limit header.startAddress header.endAddress location.payloads)
  let length := assembly.image.body.length
  if let some shortfall := assembly.shortfall then
    warn config.voice <|
      s!"Need {shortfall.declared} bytes but only assembled {shortfall.assembled} bytes from blocks"
  log config.voice s!"Assembled payload bytes: {length}"
  let lines ← listImage config assembly.image
  return {
    decoded, lines, reading
    image := assembly.image
    shortfall := assembly.shortfall
    findings := .blocks {
      copyA := (Block.ofCopy .a blocks).length
      copyB := (Block.ofCopy .b blocks).length
      total := blocks.length
      used := selection.copy
      usedCount := selection.blocks.length
      checksums, header
      headerIndex := location.index
      headerScore := location.score
      fileName := header.name
      assembledLength := length } }

def candidateImage (decoded : Bytes) (candidate : Scan.Candidate) : Program.Image :=
  let slice := (decoded.take candidate.endOffset.toNat).drop candidate.offset.toNat
  ⟨candidate.loadAddress.toNat, slice.drop 2⟩

def recoverByScan (config : Config α) (decoded : Bytes) (reading : Reading α) :
    Attempt α (Result α) := do
  let best ← lift (Scan.search config.scanRules decoded)
  let image := candidateImage decoded best
  log config.voice s!"Best BASIC candidate at decoded offset: {best.offset}"
  log config.voice s!"Candidate load address: ${Text.hex 4 best.loadAddress}"
  log config.voice s!"Candidate line count: {best.lineCount} score: {Text.amountText best.score}"
  let lines ← listImage config image
  return {
    decoded, image, lines, reading
    shortfall := none
    findings := .scan {
      offset := best.offset
      score := best.score
      loadAddress := best.loadAddress
      lineCount := best.lineCount
      endOffset := best.endOffset
      imageLength := image.bytes.length } }

variable [Pulse.Gauge α]

def Config.pulseRules (config : Config α) : Pulse.Rules α :=
  Pulse.Rules.standard.change config.pulses

def centersText (centers : List α) : String :=
  ", ".intercalate (centers.map fun center => Text.twoPlaces (Pulse.Gauge.exact center))

@[specialize] def decode (config : Config α) (capture : Bytes) : Attempt α (Bytes × Reading α) := do
  let pulses ← lift (Capture.pulses capture)
  report (.read pulses.length)
  let durations := pulses.map fun (pulse : Nat) => (Pulse.Gauge.ofInt pulse : α)
  let classification ← lift (Pulse.classify config.pulseRules durations)
  let centers := classification.centers
  log config.voice s!"Pulse centers (S/M/L): {centersText centers}"
  report (.classified centers)
  let decoded := Frame.decode classification.symbols
  let length := decoded.bytes.length
  log config.voice s!"Decoded byte stream length: {length}"
  report (.decoded length decoded.markers decoded.rejected)
  return (decoded.bytes, ⟨centers, pulses.length, length⟩)

def recoverDecoded (config : Config α) (decoded : Bytes) (reading : Reading α) :
    Attempt α (Result α) :=
  match config.mode with
  | .blocks => recoverFromBlocks config decoded reading
  | .scan => recoverByScan config decoded reading
  | .automatic =>
    tryCatch (recoverFromBlocks config decoded reading) fun fault => do
      if fault.kind ≠ .exhaustion then throw fault
      warn config.voice s!"Block recovery failed ({fault.message}); scanning decoded bytes"
      recoverByScan config decoded reading

@[specialize] def recover (config : Config α) (capture : Bytes) : Attempt α (Result α) := do
  let (decoded, reading) ← decode config capture
  recoverDecoded config decoded reading

end TapeSalvage.Recovery
