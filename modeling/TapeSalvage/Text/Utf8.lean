/-!
Text as bytes in UTF-8. Reading never fails: the longest start of a sequence that breaks off is
read as one replacement character, and reading resumes at the byte that broke it. A byte order
mark is a character like any other.
-/
namespace TapeSalvage.Text

def encode (text : String) : List UInt8 := text.toList.flatMap String.utf8EncodeChar

def replacement : Char := '\uFFFD'

/-- A sequence that has begun: the value so far, the bytes still missing, and the range in which
the next byte must lie. -/
structure Sequence where
  value : Nat
  missing : Nat
  low : Nat
  high : Nat

/-- What a byte means at the start of a character: a character of its own, the first byte of a
sequence, or nothing. -/
inductive Lead where
  | char (c : Char)
  | sequence (s : Sequence)
  | none

/-- The lead of a byte. The range of the second byte excludes overlong forms, surrogates and
values past the last code point. -/
def lead (byte : Nat) : Lead :=
  if byte < 0x80 then .char (Char.ofNat byte)
  else if byte < 0xC2 then .none
  else if byte < 0xE0 then .sequence ⟨byte - 0xC0, 1, 0x80, 0xBF⟩
  else if byte = 0xE0 then .sequence ⟨0, 2, 0xA0, 0xBF⟩
  else if byte = 0xED then .sequence ⟨0xD, 2, 0x80, 0x9F⟩
  else if byte < 0xF0 then .sequence ⟨byte - 0xE0, 2, 0x80, 0xBF⟩
  else if byte = 0xF0 then .sequence ⟨0, 3, 0x90, 0xBF⟩
  else if byte < 0xF4 then .sequence ⟨byte - 0xF0, 3, 0x80, 0xBF⟩
  else if byte = 0xF4 then .sequence ⟨4, 3, 0x80, 0x8F⟩
  else .none

/-- The state of a reader: the characters read so far, last first, and the sequence under way. -/
structure Reader where
  done : List Char
  pending : Option Sequence

def Reader.start (done : List Char) (byte : Nat) : Reader :=
  match lead byte with
  | .char c => ⟨c :: done, none⟩
  | .sequence s => ⟨done, some s⟩
  | .none => ⟨replacement :: done, none⟩

def Reader.step (reader : Reader) (byte : UInt8) : Reader :=
  let code := byte.toNat
  match reader.pending with
  | none => Reader.start reader.done code
  | some s =>
    if s.low ≤ code && code ≤ s.high then
      let value := s.value * 64 + (code - 0x80)
      if s.missing = 1 then ⟨Char.ofNat value :: reader.done, none⟩
      else ⟨reader.done, some ⟨value, s.missing - 1, 0x80, 0xBF⟩⟩
    else
      Reader.start (replacement :: reader.done) code

/-- The text read; a sequence that the end cuts off counts as broken. -/
def Reader.finish (reader : Reader) : List Char :=
  match reader.pending with
  | none => reader.done.reverse
  | some _ => (replacement :: reader.done).reverse

def decode (data : List UInt8) : String :=
  String.ofList (data.foldl Reader.step ⟨[], none⟩).finish

example : decode [0x41, 0xE2, 0x82, 0xC3, 0xA9] = "A\uFFFDé" := by cbv

end TapeSalvage.Text
