import Std.Data.HashSet
import TapeSalvage.Bytes
import TapeSalvage.Text.Blank

/-!
Strings in bytes of any kind. A string begins with a letter or a digit and goes on with at least
one more character of a string; it is as long as it can be.
-/
namespace TapeSalvage.Strings

def canBegin (c : Char) : Bool := c.isAlphanum

def canContinue (c : Char) : Bool :=
  canBegin c || c == ' ' || c == '-' || c == '_' || c == ',' || c == '.' || c == '!' ||
    c == '?' || c == '\'' || c == '"'

/-- The character of a byte: line ends are line breaks, shifted spaces are spaces, and what cannot
be printed is the null character. -/
def charOf (byte : UInt8) : Char :=
  if byte = 10 || byte = 13 then '\n'
  else if byte = 0xA0 then ' '
  else if 32 ≤ byte && byte ≤ 126 then Char.ofNat byte.toNat
  else '\x00'

/-- Bytes as text in which only printable runs hold together. -/
def text (data : Bytes) : String := String.ofList (data.map charOf)

/-- The runs found so far, last first, and the run under way with its last character first. -/
structure Gathering where
  runs : List (List Char)
  current : List Char

/-- Ends the run under way; a single character is no run. -/
def Gathering.close (state : Gathering) : Gathering :=
  match state.current with
  | _ :: _ :: _ => ⟨state.current.reverse :: state.runs, []⟩
  | _ => ⟨state.runs, []⟩

def Gathering.step (state : Gathering) (c : Char) : Gathering :=
  if state.current.isEmpty then
    if canBegin c then { state with current := [c] } else state
  else if canContinue c then { state with current := c :: state.current }
  else state.close

def runs (chars : List Char) : List (List Char) :=
  (chars.foldl Gathering.step ⟨[], []⟩).close.runs.reverse

/-- The strings of a text: its runs with blanks squeezed, as far as they have the least length. -/
def extract (text : String) (least : Int) : List String :=
  let squeezed := (runs text.toList).map Text.squeeze
  (squeezed.filter fun run => least ≤ run.length).map String.ofList

def leastLength : Int := 2

/-- The list with those of the strings that were not seen, each where it stood first, behind those
already kept (last first). -/
def keepNew (seen : Std.HashSet String) (kept : List String) : List String → List String
  | [] => kept.reverse
  | string :: rest =>
    if seen.contains string then keepNew seen kept rest
    else keepNew (seen.insert string) (string :: kept) rest

theorem keepNew_eq_loop (seen : Std.HashSet String) (kept strings : List String)
    (hseen : ∀ string, seen.contains string = kept.any (string == ·)) :
    keepNew seen kept strings = List.eraseDupsBy.loop (· == ·) strings kept := by
  induction strings generalizing seen kept with
  | nil => rfl
  | cons string rest ih =>
    rw [keepNew, List.eraseDupsBy.loop, hseen string]
    split
    · rename_i hold
      simp only [hold]
      exact ih seen kept hseen
    · rename_i hnew
      simp only [hnew]
      refine ih _ _ fun other => ?_
      rw [Std.HashSet.contains_insert, List.any_cons, hseen other, Bool.beq_comm]

/-- A list without repetitions, each member where it stood first. -/
def unique (strings : List String) : List String := keepNew ∅ [] strings

theorem unique_eq_eraseDups (strings : List String) : unique strings = strings.eraseDups :=
  keepNew_eq_loop ∅ [] strings fun _ => by simp

def dump (data : Bytes) (least : Int) : List String := unique (extract (text data) least)

end TapeSalvage.Strings
