import TapeSalvage.Bytes
import TapeSalvage.Fault

/-!
Pulse captures. A capture is a header of twenty bytes and a stream of records: a byte that is not
zero is a pulse of that duration, and a zero byte is followed by a duration of three bytes.
-/
namespace TapeSalvage.Capture

def signatureText : String := "C64-TAPE-RAW"

def signature : Bytes := signatureText.toList.map fun c => UInt8.ofNat c.toNat

def supportedVersion : Nat := 1

def headerSize : Nat := 20

def longestPulse : Int := 0xFFFFFF

structure Header where
  version : Nat
  dataLength : Nat
  deriving DecidableEq

/-- Reads the header of a capture. The declared length is not compared with the data. -/
def Header.parse (data : Bytes) : Except Fault Header :=
  if data.length < headerSize then .error (.captureTooShort data.length)
  else if !signature.isPrefixOf data then .error .signatureMissing
  else
    let found := (data.getD 12 0).toNat
    if found ≠ supportedVersion then .error (.versionUnsupported found)
    else .ok ⟨found, Bytes.number ((data.drop 16).take 4)⟩

/-- The durations of a stream of records in order, behind those already read (last first). A long
record that the end of the stream cuts off is dropped. -/
def readFrom (done : List Nat) : Bytes → List Nat
  | [] => done.reverse
  | [byte] => if byte = 0 then done.reverse else (byte.toNat :: done).reverse
  | byte :: low :: rest =>
    if byte = 0 then
      match rest with
      | middle :: high :: rest =>
        readFrom (Bytes.number [low, middle, high] :: done) rest
      | _ => done.reverse
    else
      readFrom (byte.toNat :: done) (low :: rest)

def durations (stream : Bytes) : List Nat := readFrom [] stream

/-- The pulse durations of a capture. The stream ends at the declared length or at the end of the
data, whichever comes first. -/
def pulses (data : Bytes) : Except Fault (List Nat) := do
  let header ← Header.parse data
  return durations ((data.drop headerSize).take header.dataLength)

/-- The record of a duration: one byte if that can hold it, else a zero byte and three more. What
the duration has behind the point is cut off. -/
def record (duration : Rat) : Except Fault Bytes :=
  if duration < 0 || longestPulse < duration then .error (.pulseOutOfRange duration)
  else if 1 ≤ duration && duration ≤ 255 then .ok [UInt8.ofNat duration.floor.toNat]
  else .ok (0 :: Bytes.ofNumber 3 duration.floor.toNat)

theorem record_intCast (duration : Int) :
    record duration =
      if duration < 0 ∨ longestPulse < duration then .error (.pulseOutOfRange duration)
      else if 1 ≤ duration ∧ duration ≤ 255 then .ok [UInt8.ofNat duration.toNat]
      else .ok (0 :: Bytes.ofNumber 3 duration.toNat) := by
  have hbelow : (duration : Rat) < 0 ↔ duration < 0 := Rat.intCast_lt_intCast (b := 0)
  have habove : 1 ≤ (duration : Rat) ↔ 1 ≤ duration := Rat.intCast_le_intCast (a := 1)
  have hshort : (duration : Rat) ≤ 255 ↔ duration ≤ 255 := Rat.intCast_le_intCast (b := 255)
  have hbeyond : (longestPulse : Rat) < duration ↔ longestPulse < duration :=
    Rat.intCast_lt_intCast
  simp [record, Rat.floor_intCast, hbelow, hbeyond, habove, hshort]

def ofStream (stream : Bytes) : Bytes :=
  signature ++ [UInt8.ofNat supportedVersion, 0, 0, 0] ++ Bytes.ofNumber 4 stream.length ++ stream

def encode (durations : List Rat) : Except Fault Bytes := do
  let records ← durations.mapM record
  return ofStream records.flatten

end TapeSalvage.Capture
