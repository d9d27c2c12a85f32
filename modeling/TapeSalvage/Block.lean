import TapeSalvage.Bytes
import TapeSalvage.Fault

/-!
Tape blocks. A block is written as a countdown of nine bytes, a payload of 192 bytes and the
parity of the payload. Everything is taped twice: copy A counts down from hexadecimal 89, copy B
from 09. A wrong checksum is noted on the block and does not keep it from being read.
-/
namespace TapeSalvage

/-- The two tapings of a block. -/
inductive Copy where
  | a
  | b
  deriving DecidableEq

def Copy.countdown : Copy → Bytes
  | .a => [0x89, 0x88, 0x87, 0x86, 0x85, 0x84, 0x83, 0x82, 0x81]
  | .b => [0x09, 0x08, 0x07, 0x06, 0x05, 0x04, 0x03, 0x02, 0x01]

theorem Copy.length_countdown (copy : Copy) : copy.countdown.length = 9 := by
  cases copy <;> rfl

structure Block where
  copy : Copy
  /-- The position of the payload in the stream. -/
  offset : Int
  payload : Bytes
  /-- The number of the checksum byte on the tape. -/
  checksum : Int
  /-- Whether the checksum byte is the parity of the payload. -/
  isIntact : Bool
  deriving DecidableEq

namespace Block

def countdownSize : Nat := 9

def payloadSize : Nat := 192

def checksumSize : Nat := 1

def frameSize : Nat := 202

def copyAt? (stream : Bytes) : Option Copy :=
  if Copy.a.countdown.isPrefixOf stream then some .a
  else if Copy.b.countdown.isPrefixOf stream then some .b
  else none

/-- The block whose countdown stands at the front of a stream, where `position` is the place of
that countdown. A block of which the end is missing is no block. -/
def atFront? (position : Nat) (stream : Bytes) : Option Block := do
  let copy ← copyAt? stream
  let body := stream.drop countdownSize
  let checksum ← (body.drop payloadSize).head?
  let payload := body.take payloadSize
  return {
    copy, payload
    offset := position + countdownSize
    checksum := checksum.toNat
    isIntact := Bytes.parity payload == checksum }

def at? (data : Bytes) (offset : Int) : Option Block :=
  if offset < 0 then none else atFront? offset.toNat (data.drop offset.toNat)

/-- The blocks from `position` on, behind those already found (last first). The next `skip` bytes
belong to the block that was found last. -/
def findFrom (skip position : Nat) (found : List Block) : Bytes → List Block
  | [] => found.reverse
  | byte :: rest =>
    match skip with
    | skip + 1 => findFrom skip (position + 1) found rest
    | 0 =>
      match atFront? position (byte :: rest) with
      | some block => findFrom (frameSize - 1) (position + 1) (block :: found) rest
      | none => findFrom 0 (position + 1) found rest

/-- The blocks of a stream in order; none of them overlaps another. -/
def findAll (stream : Bytes) : List Block := findFrom 0 0 [] stream

/-- A block as it is taped, with the given checksum reduced to a byte. -/
def serialize (copy : Copy) (payload : Bytes) (checksum : Int) : Except Fault Bytes :=
  if payload.length ≠ payloadSize then .error (.payloadSize payload.length)
  else .ok (copy.countdown ++ payload ++ [UInt8.ofNat (checksum % 256).toNat])

def serializeIntact (copy : Copy) (payload : Bytes) : Except Fault Bytes :=
  serialize copy payload (Bytes.parity payload).toNat

end Block

end TapeSalvage
