import TapeSalvage.Listing.Line
import TapeSalvage.Program

/-!
Listing a program. The lines of a program are records: a pointer to the next record, a line
number, a text and a zero byte; a zero pointer ends them. The walk from record to record follows
the zero bytes, or else the pointers as long as they lead forward inside the body.
-/
namespace TapeSalvage.Listing

inductive Traversal where
  /-- The next record starts after the zero byte. -/
  | terminator
  /-- The next record starts where the pointer says. -/
  | pointer
  deriving DecidableEq

structure Record where
  offset : Nat
  pointer : Nat
  lineNumber : Nat
  text : Bytes
  deriving DecidableEq

def splitLine? (data : Bytes) : Option (Bytes × Bytes) :=
  match data.dropWhile (· != 0) with
  | [] => none
  | _ :: after => some (data.takeWhile (· != 0), after)

/-- A text without a zero byte and the zero byte after it are split off. -/
theorem splitLine?_append (text after : Bytes) (hclean : 0 ∉ text) :
    splitLine? (text ++ 0 :: after) = some (text, after) := by
  have hkeep : ∀ byte ∈ text, (byte != 0) = true := by
    intro byte hbyte
    simp only [bne_iff_ne]
    rintro rfl
    exact hclean hbyte
  rw [splitLine?, List.dropWhile_append_of_pos hkeep, List.takeWhile_append_of_pos hkeep]
  simp

theorem eq_of_splitLine? {data text after : Bytes} (h : splitLine? data = some (text, after)) :
    data = text ++ 0 :: after ∧ 0 ∉ text := by
  have hjoin := List.takeWhile_append_dropWhile (p := (· != (0 : UInt8))) (l := data)
  rw [splitLine?] at h
  split at h
  · contradiction
  · rename_i byte rest hfound
    have hstop : byte = 0 := by
      have := List.head_dropWhile_not (p := (· != (0 : UInt8))) (l := data) (by simp [hfound])
      simpa [hfound] using this
    subst hstop
    obtain ⟨rfl, rfl⟩ := Prod.mk.inj (Option.some.inj h)
    refine ⟨by rw [← hfound, hjoin], fun hmem => ?_⟩
    have := List.all_eq_true.mp (List.all_takeWhile (p := (· != (0 : UInt8))) (l := data)) 0 hmem
    simp at this

/-- The record at the front of the bytes, which are the body from `offset` on, and what follows its
zero byte. -/
def recordAt? (offset : Nat) : Bytes → Option (Record × Bytes)
  | pointerLow :: pointerHigh :: lineLow :: lineHigh :: rest =>
    let pointer := word pointerLow pointerHigh
    if pointer = 0 then none
    else (splitLine? rest).map fun (text, after) =>
      (⟨offset, pointer, word lineLow lineHigh, text⟩, after)
  | _ => none

/-- The step from a record to the one its pointer names: `none` unless that is further on and not
past the end of the bytes, which begin at the record. -/
def pointerStep? (load : Nat) (record : Record) (data : Bytes) : Option Nat :=
  let target := (record.pointer : Int) - load
  if target ≤ record.offset then none
  else
    let step := (target - record.offset).toNat
    if holds step data then some step else none

/-- The records of the bytes, which are the body from `offset` on, behind those already found (last
first); at most `limit` more are read. -/
def walkFrom (traversal : Traversal) (load : Nat) :
    (limit : Nat) → (offset : Nat) → (found : List Record) → Bytes → List Record
  | 0, _, found, _ => found.reverse
  | limit + 1, offset, found, data =>
    match recordAt? offset data with
    | none => found.reverse
    | some (record, after) =>
      match traversal with
      | .terminator =>
        walkFrom traversal load limit (offset + 5 + record.text.length) (record :: found) after
      | .pointer =>
        match pointerStep? load record data with
        | none => (record :: found).reverse
        | some step =>
          walkFrom traversal load limit (offset + step) (record :: found) (data.drop step)

def lineLimit : Nat := 20000

structure Rules where
  traversal : Traversal
  style : Style
  /-- The number of bytes before the first record. -/
  startSkip : Int

structure Rules.Changes where
  traversal : Option Traversal := none
  style : Option Style := none
  startSkip : Option Int := none

def Rules.standard : Rules where
  traversal := .terminator
  style := .strict
  startSkip := 0

def Rules.change (rules : Rules) (changes : Rules.Changes) : Rules where
  traversal := changes.traversal.getD rules.traversal
  style := changes.style.getD rules.style
  startSkip := changes.startSkip.getD rules.startSkip

def records (rules : Rules) (image : Program.Image) : List Record :=
  let skip := rules.startSkip.toNat
  walkFrom rules.traversal image.loadAddress lineLimit skip [] (image.body.drop skip)

structure Line where
  number : Int
  text : String
  deriving DecidableEq

def Record.line (style : Style) (record : Record) : Line :=
  ⟨record.lineNumber, lineText style record.text⟩

/-- The lines of a program in the order of the walk, which is not that of their numbers. -/
def lines (rules : Rules) (image : Program.Image) : List Line :=
  (records rules image).map (·.line rules.style)

def Line.row (line : Line) : String := s!"{line.number} {line.text}"

/-- A listing as text: one row per line, with a line break at the end. -/
def format (lines : List Line) : String := "\n".intercalate (lines.map Line.row) ++ "\n"

end TapeSalvage.Listing
