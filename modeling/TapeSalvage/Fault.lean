import TapeSalvage.Text.Written

/-!
What can go wrong. Two kinds of fault belong to recovery itself: the capture cannot be read, or
a stage ran to its end and found nothing it can use. The others mean that an operation was asked
for something outside its domain. A fault is its cause; its wording follows from the cause.
-/
namespace TapeSalvage

inductive Stage where
  | read
  | classify
  | decode
  | blocks
  | header
  | assemble
  | scan
  | list
  deriving DecidableEq

def Stage.name : Stage → String
  | .read => "read"
  | .classify => "classify"
  | .decode => "decode"
  | .blocks => "blocks"
  | .header => "header"
  | .assemble => "assemble"
  | .scan => "scan"
  | .list => "list"

inductive Fault where
  | captureTooShort (size : Nat)
  | signatureMissing
  | versionUnsupported (version : Nat)
  /-- No pulse lies in the range that takes part in clustering. -/
  | pulsesUnusable (shortest longest : Int)
  | blocksMissing
  /-- The chosen copy has no block. -/
  | copyEmpty
  | headerMissing
  /-- The header declares a length that no program has. -/
  | lengthOutOfRange (start finish : Int)
  | programMissing
  /-- A word was read beyond the ends of the data. -/
  | wordOutside (offset : Int) (size : Nat)
  /-- A pulse does not fit a record of the capture. -/
  | pulseOutOfRange (width : Rat)
  | headerTooShort (size : Nat)
  | valuesMissing
  | payloadSize (size : Nat)
  /-- A program file is too short for its load address. -/
  | imageTooSmall (size : Nat)
  deriving DecidableEq

namespace Fault

inductive Kind where
  | format
  /-- A stage found nothing that it can use. -/
  | exhaustion
  /-- An operation was used outside its domain. -/
  | misuse
  deriving DecidableEq

def Kind.label : Kind → String
  | .format => "FormatError"
  | .exhaustion => "DecodeExhaustionError"
  | .misuse => "Error"

def kind : Fault → Kind
  | captureTooShort _ | signatureMissing | versionUnsupported _ => .format
  | pulsesUnusable _ _ | blocksMissing | copyEmpty | headerMissing | lengthOutOfRange _ _
  | programMissing => .exhaustion
  | wordOutside _ _ | pulseOutOfRange _ | headerTooShort _ | valuesMissing | payloadSize _
  | imageTooSmall _ => .misuse

def message : Fault → String
  | captureTooShort size => s!"Capture too short: {size} bytes, need at least 20"
  | signatureMissing => "Not a TAP file with C64-TAPE-RAW signature"
  | versionUnsupported version => s!"Unsupported TAP version {version} (expect 1)"
  | pulsesUnusable shortest longest => s!"No clusterable pulses found ({shortest}..{longest})"
  | blocksMissing => "No countdown blocks found in decoded byte stream"
  | copyEmpty => "No blocks available for selected copy stream"
  | headerMissing => "No plausible header block found"
  | lengthOutOfRange start finish =>
    let first := Text.hex 4 start
    let last := Text.hex 4 finish
    let length := Text.amountText (.ofInt (finish - start))
    s!"Header looks wrong: start=${first} end=${last} length={length}"
  | programMissing => "Could not find a plausible BASIC program in the decoded bytes"
  | wordOutside offset size => s!"Offset out of bounds: {offset} (length {size})"
  | pulseOutOfRange width => s!"Pulse duration out of range: {Text.decimal width}"
  | headerTooShort size => s!"Header payload too short: {size} bytes"
  | valuesMissing => "kmeans1d requires at least one value"
  | payloadSize size => s!"Invalid payload size: {size}. Must be 192 bytes."
  | imageTooSmall size => s!"PRG too small: {size} bytes"

/-- The stage that met a fault of recovery, and the name of its step in reports. -/
def origin? : Fault → Option (Stage × String)
  | captureTooShort _ | signatureMissing | versionUnsupported _ => some (.read, "parseTapHeader")
  | pulsesUnusable _ _ => some (.classify, "classifyPulses")
  | blocksMissing => some (.blocks, "findBlocks")
  | copyEmpty | headerMissing => some (.header, "locateStructural")
  | lengthOutOfRange _ _ => some (.assemble, "assembleProgram")
  | programMissing => some (.scan, "findBestBasic")
  | _ => none

def hint? : Fault → Option String
  | pulsesUnusable _ _ =>
    some "Check the capture: it may be silent or recorded at the wrong level"
  | blocksMissing => some "Try rebuilding the capture with inverted polarity"
  | copyEmpty =>
    some "Try the other copy stream, or rebuild the capture with inverted polarity"
  | headerMissing =>
    some "The capture polarity may be wrong or byte decoding is not stable enough"
  | programMissing =>
    some <| "The byte decoder is too lossy for structural recovery; " ++
      "try another capture or inverted polarity"
  | _ => none

end Fault

end TapeSalvage
