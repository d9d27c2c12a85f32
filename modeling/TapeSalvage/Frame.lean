import TapeSalvage.Bytes
import TapeSalvage.Pulse.Symbol

/-!
Byte frames. A byte is written as a marker (a long symbol, then a short or a medium one) and eight
pairs from the lowest bit up: medium then short is a one, short then medium a zero. Reading goes
through the symbols one at a time; where no frame stands it moves on by a single symbol, so damage
costs the frames it touches and no others.
-/
namespace TapeSalvage.Frame

open Pulse

def size : Nat := 18

def pair (bit : Bool) : List Symbol := if bit then [.medium, .short] else [.short, .medium]

def bit? : Symbol → Symbol → Option Bool
  | .medium, .short => some true
  | .short, .medium => some false
  | _, _ => none

/-- The lowest `count` bits of a number as pairs, lowest bit first. -/
def pairs : (count : Nat) → Nat → List Symbol
  | 0, _ => []
  | count + 1, value => pair (value % 2 == 1) ++ pairs count (value / 2)

/-- The number that the first `count` pairs write. -/
def number? : (count : Nat) → List Symbol → Option Nat
  | 0, _ => some 0
  | count + 1, first :: second :: rest => do
    let bit ← bit? first second
    let higher ← number? count rest
    return bit.toNat + 2 * higher
  | _ + 1, _ => none

def ofByte (byte : UInt8) : List Symbol := .long :: .medium :: pairs 8 byte.toNat

def encode (data : Bytes) : List Symbol := data.flatMap ofByte

/-- Whether a marker stands at the front, with symbols for a whole frame from there on. -/
def isMarked : List Symbol → Bool
  | .long :: .short :: rest => holds 16 rest
  | .long :: .medium :: rest => holds 16 rest
  | _ => false

def byteAt? (symbols : List Symbol) : Option UInt8 :=
  if isMarked symbols then (number? 8 (symbols.drop 2)).map UInt8.ofNat else none

/-- What was read: the bytes, the number of markers met, and the number of those whose pairs were
no frame. -/
structure Decoded where
  bytes : Bytes
  markers : Nat
  rejected : Nat
  deriving DecidableEq

/-- Reads on after `done`, whose bytes stand last first. The next `skip` symbols belong to the
frame that was read last. -/
def decodeFrom (skip : Nat) (done : Decoded) : List Symbol → Decoded
  | [] => { done with bytes := done.bytes.reverse }
  | symbol :: rest =>
    match skip with
    | skip + 1 => decodeFrom skip done rest
    | 0 =>
      if isMarked (symbol :: rest) then
        match byteAt? (symbol :: rest) with
        | some byte =>
          decodeFrom (size - 1) ⟨byte :: done.bytes, done.markers + 1, done.rejected⟩ rest
        | none => decodeFrom 0 ⟨done.bytes, done.markers + 1, done.rejected + 1⟩ rest
      else
        decodeFrom 0 done rest

def decode (symbols : List Symbol) : Decoded := decodeFrom 0 ⟨[], 0, 0⟩ symbols

theorem bit?_pair (bit : Bool) (rest : List Symbol) :
    ∃ first second, pair bit ++ rest = first :: second :: rest ∧ bit? first second = some bit := by
  cases bit
  · exact ⟨.short, .medium, rfl, rfl⟩
  · exact ⟨.medium, .short, rfl, rfl⟩

theorem number?_pairs (count value : Nat) (rest : List Symbol) :
    number? count (pairs count value ++ rest) = some (value % Nat.pow 2 count) := by
  induction count generalizing value with
  | zero => simp [number?, Nat.mod_one]
  | succ count ih =>
    obtain ⟨first, second, hsplit, hbit⟩ :=
      bit?_pair (value % 2 == 1) (pairs count (value / 2) ++ rest)
    simp only [pairs, List.append_assoc, hsplit, number?, hbit, ih, Option.bind_eq_bind,
      Option.bind_some, Option.pure_def, Option.some.injEq]
    have hpower : Nat.pow 2 (count + 1) = 2 * Nat.pow 2 count := Nat.pow_succ'
    rw [hpower, Nat.mod_mul]
    rcases Nat.mod_two_eq_zero_or_one value with h | h <;> simp [h]

theorem length_pairs (count value : Nat) : (pairs count value).length = 2 * count := by
  induction count generalizing value with
  | zero => rfl
  | succ count ih =>
    have htwo : ∀ bit, (pair bit).length = 2 := by intro bit; cases bit <;> rfl
    rw [pairs, List.length_append, htwo, ih]
    omega

/-- A frame is read back whatever follows it. -/
theorem byteAt?_ofByte (byte : UInt8) (rest : List Symbol) :
    byteAt? (ofByte byte ++ rest) = some byte := by
  have henough : holds 16 (pairs 8 byte.toNat ++ rest) = true := by
    rw [holds_iff, List.length_append, length_pairs]
    omega
  have hmarked : isMarked (ofByte byte ++ rest) = true := henough
  have hvalue : byte.toNat % Nat.pow 2 8 = byte.toNat := Nat.mod_eq_of_lt byte.toNat_lt
  rw [byteAt?, if_pos hmarked]
  change (number? 8 (pairs 8 byte.toNat ++ rest)).map UInt8.ofNat = some byte
  rw [number?_pairs, hvalue]
  simp

end TapeSalvage.Frame
