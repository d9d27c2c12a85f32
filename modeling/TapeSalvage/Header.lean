import TapeSalvage.Bytes
import TapeSalvage.Fault

/-!
Header blocks. The payload of a header begins with a type byte, the address of the program's first
byte, the address past its last one, and a file name of sixteen bytes padded with spaces.
-/
namespace TapeSalvage

structure Header where
  fileType : Nat
  startAddress : Nat
  endAddress : Nat
  rawName : Bytes
  deriving DecidableEq

namespace Header

def nameSize : Nat := 16

def size : Nat := 21

def parse (payload : Bytes) : Except Fault Header :=
  match payload with
  | kind :: startLow :: startHigh :: endLow :: endHigh :: rest =>
    if rest.length < nameSize then .error (.headerTooShort payload.length)
    else .ok ⟨kind.toNat, word startLow startHigh, word endLow endHigh, rest.take nameSize⟩
  | _ => .error (.headerTooShort payload.length)

/-- A file name as text: each byte is the character of its number, without spaces at the end. -/
def nameText (raw : Bytes) : String :=
  let trimmed := (raw.reverse.dropWhile (· == 0x20)).reverse
  String.ofList (trimmed.map fun byte => Char.ofNat byte.toNat)

def name (header : Header) : String := nameText header.rawName

def isNameByte (byte : UInt8) : Bool :=
  (0x20 ≤ byte && byte ≤ 0x5A) || (0x61 ≤ byte && byte ≤ 0x7A) ||
    byte == 0x2D || byte == 0x2E || byte == 0x5F

end Header

end TapeSalvage
