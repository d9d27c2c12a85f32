import TapeSalvage.Fault

/-!
Byte strings are lists of bytes, read from the front. Numbers in them are little-endian: the
first byte is the lowest digit to base 256. Main statements: `number` reads back what `ofNumber`
writes, up to the number of bytes, and the parity of two strings is that of one after the other.
-/
namespace TapeSalvage

abbrev Bytes := List UInt8

/-- Whether a list has at least `n` members; it looks at no more than `n` of them. -/
def holds {α : Type} : Nat → List α → Bool
  | 0, _ => true
  | _ + 1, [] => false
  | n + 1, _ :: rest => holds n rest

theorem holds_iff {α : Type} (n : Nat) (items : List α) :
    holds n items = true ↔ n ≤ items.length := by
  induction n generalizing items with
  | zero => simp [holds]
  | succ n ih => cases items <;> simp [holds, ih]

def word (low high : UInt8) : Nat := low.toNat + 256 * high.toNat

theorem word_lt (low high : UInt8) : word low high < 65536 := by
  have := low.toNat_lt
  have := high.toNat_lt
  simp only [word]
  omega

namespace Bytes

/-- The number that a byte string denotes, its first byte being the lowest digit. -/
def number : Bytes → Nat
  | [] => 0
  | byte :: rest => byte.toNat + 256 * number rest

/-- The lowest `count` digits of a number, lowest first. -/
def ofNumber : (count : Nat) → Nat → Bytes
  | 0, _ => []
  | count + 1, value => UInt8.ofNat value :: ofNumber count (value / 256)

@[simp] theorem length_ofNumber (count value : Nat) : (ofNumber count value).length = count := by
  induction count generalizing value <;> simp [ofNumber, *]

theorem number_ofNumber (count value : Nat) :
    number (ofNumber count value) = value % Nat.pow 256 count := by
  induction count generalizing value with
  | zero => simp [ofNumber, number, Nat.mod_one]
  | succ count ih =>
    have hpower : Nat.pow 256 (count + 1) = 256 * Nat.pow 256 count := Nat.pow_succ'
    rw [hpower, Nat.mod_mul]
    simp [ofNumber, number, ih]

/-- The two bytes of a word; an integer outside the range of words is reduced modulo 65536. -/
def ofWord (value : Int) : Bytes := ofNumber 2 (value % 65536).toNat

def parity (data : Bytes) : UInt8 := data.foldl (· ^^^ ·) 0

theorem foldl_xor (start : UInt8) (data : Bytes) :
    data.foldl (· ^^^ ·) start = start ^^^ parity data := by
  induction data generalizing start with
  | nil => simp [parity]
  | cons byte rest ih =>
    simp only [parity, List.foldl_cons]
    rw [ih, ih (0 ^^^ byte), UInt8.zero_xor, UInt8.xor_assoc]

theorem parity_append (left right : Bytes) :
    parity (left ++ right) = parity left ^^^ parity right := by
  rw [parity, List.foldl_append, foldl_xor]
  rfl

def wordAt (data : Bytes) (offset : Int) : Except Fault Nat :=
  match data.drop offset.toNat with
  | low :: high :: _ =>
    if offset < 0 then .error (.wordOutside offset data.length) else .ok (word low high)
  | _ => .error (.wordOutside offset data.length)

/-- The first position in `[start, stop)` that holds the given value. -/
def position? (data : Bytes) (value start stop : Int) : Option Nat :=
  let candidates := (data.take stop.toNat).drop start.toNat
  (candidates.findIdx? fun byte => (byte.toNat : Int) == value).map (· + start.toNat)

def occursAt (data : Bytes) (pattern : List Int) (offset : Int) : Bool :=
  0 ≤ offset && offset + pattern.length ≤ data.length &&
    pattern == ((data.drop offset.toNat).take pattern.length).map fun byte => (byte.toNat : Int)

end Bytes

end TapeSalvage
