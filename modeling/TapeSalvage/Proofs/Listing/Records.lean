import TapeSalvage.Listing.Program

/-!
Lines as they are stored in a program body. The walk along the zero bytes takes them one after
another, whatever their pointers say, and stops where no record stands.
-/
namespace TapeSalvage.Listing

/-- A line as it is stored: its pointer leads somewhere, and no zero byte stands in its text. -/
structure Stored where
  pointerLow : UInt8
  pointerHigh : UInt8
  numberLow : UInt8
  numberHigh : UInt8
  text : Bytes
  linked : word pointerLow pointerHigh ≠ 0
  clean : 0 ∉ text

namespace Stored

def bytes (line : Stored) : Bytes :=
  line.pointerLow :: line.pointerHigh :: line.numberLow :: line.numberHigh :: (line.text ++ [0])

def record (line : Stored) (offset : Nat) : Record :=
  ⟨offset, word line.pointerLow line.pointerHigh, word line.numberLow line.numberHigh, line.text⟩

def line (style : Style) (line : Stored) : Line :=
  ⟨word line.numberLow line.numberHigh, lineText style line.text⟩

theorem length_bytes (line : Stored) : line.bytes.length = line.text.length + 5 := by
  simp [bytes]

end Stored

def storedBytes (lines : List Stored) : Bytes := lines.flatMap Stored.bytes

theorem storedBytes_cons (line : Stored) (lines : List Stored) :
    storedBytes (line :: lines) = line.bytes ++ storedBytes lines := List.flatMap_cons

theorem storedBytes_append (lines others : List Stored) :
    storedBytes (lines ++ others) = storedBytes lines ++ storedBytes others := List.flatMap_append

/-- A line takes at least five bytes. -/
theorem length_storedBytes (lines : List Stored) :
    5 * lines.length ≤ (storedBytes lines).length := by
  induction lines with
  | nil => exact Nat.le_refl _
  | cons line rest ih =>
    have hline := line.length_bytes
    rw [storedBytes_cons, List.length_append, List.length_cons]
    omega

def recordsFrom (offset : Nat) : List Stored → List Record
  | [] => []
  | line :: rest => line.record offset :: recordsFrom (offset + 5 + line.text.length) rest

theorem length_recordsFrom (offset : Nat) (lines : List Stored) :
    (recordsFrom offset lines).length = lines.length := by
  induction lines generalizing offset with
  | nil => rfl
  | cons line rest ih => rw [recordsFrom, List.length_cons, List.length_cons, ih]

theorem map_line_recordsFrom (style : Style) (offset : Nat) (lines : List Stored) :
    (recordsFrom offset lines).map (·.line style) = lines.map (·.line style) := by
  induction lines generalizing offset with
  | nil => rfl
  | cons line rest ih =>
    rw [recordsFrom, List.map_cons, List.map_cons, ih]
    rfl

theorem recordAt?_append (offset : Nat) (line : Stored) (rest : Bytes) :
    recordAt? offset (line.bytes ++ rest) = some (line.record offset, rest) := by
  have hsplit : splitLine? (line.text ++ 0 :: rest) = some (line.text, rest) :=
    splitLine?_append line.text rest line.clean
  have hbytes : line.bytes ++ rest = line.pointerLow :: line.pointerHigh :: line.numberLow ::
      line.numberHigh :: (line.text ++ 0 :: rest) := by
    simp [Stored.bytes]
  rw [hbytes, recordAt?]
  dsimp only
  rw [if_neg line.linked, hsplit]
  rfl

theorem exists_stored_of_recordAt? {offset : Nat} {data after : Bytes} {record : Record}
    (h : recordAt? offset data = some (record, after)) :
    ∃ line : Stored, data = line.bytes ++ after ∧ record = line.record offset := by
  match data, h with
  | pointerLow :: pointerHigh :: lineLow :: lineHigh :: rest, h =>
    unfold recordAt? at h
    dsimp only at h
    by_cases hpointer : word pointerLow pointerHigh = 0
    · rw [if_pos hpointer] at h
      contradiction
    rw [if_neg hpointer, Option.map_eq_some_iff] at h
    obtain ⟨⟨text, others⟩, hsplit, h⟩ := h
    obtain ⟨rfl, rfl⟩ := Prod.mk.inj h
    obtain ⟨rfl, hclean⟩ := eq_of_splitLine? hsplit
    refine ⟨⟨pointerLow, pointerHigh, lineLow, lineHigh, text, hpointer, hclean⟩, ?_, rfl⟩
    simp [Stored.bytes]

theorem recordAt?_close (position : Nat) (tail : Bytes) :
    recordAt? position (0 :: 0 :: tail) = none := by
  match tail with
  | [] => rfl
  | [_] => rfl
  | _ :: _ :: _ => rfl

/-- The walk takes stored lines up to its limit, and stops behind them if no record follows. -/
theorem walkFrom_storedBytes (load limit offset : Nat) (found : List Record) (lines : List Stored)
    {tail : Bytes} (htail : ∀ position, recordAt? position tail = none) :
    walkFrom .terminator load limit offset found (storedBytes lines ++ tail) =
      found.reverse ++ recordsFrom offset (lines.take limit) := by
  induction lines generalizing limit offset found with
  | nil =>
    rw [List.take_nil, recordsFrom, List.append_nil]
    cases limit with
    | zero => rfl
    | succ limit =>
      change walkFrom .terminator load (limit + 1) offset found tail = _
      rw [walkFrom, htail]
  | cons line rest ih =>
    cases limit with
    | zero =>
      rw [List.take_zero, recordsFrom, List.append_nil]
      rfl
    | succ limit =>
      rw [storedBytes_cons, List.append_assoc, walkFrom, recordAt?_append]
      dsimp only
      rw [ih, List.take_succ_cons, recordsFrom, List.reverse_cons, List.append_assoc]
      rfl

/-- The records of stored lines are taken up to a closing record. -/
theorem records_storedBytes {rules : Rules} (htraversal : rules.traversal = .terminator)
    (hskip : rules.startSkip = 0) (load : Nat) {lines : List Stored} (tail : Bytes)
    (hcount : lines.length ≤ lineLimit) :
    records rules ⟨load, storedBytes lines ++ 0 :: 0 :: tail⟩ = recordsFrom 0 lines := by
  unfold records
  rw [htraversal, hskip]
  change walkFrom .terminator load lineLimit 0 [] (storedBytes lines ++ _) = _
  rw [walkFrom_storedBytes _ _ _ _ _ fun position => recordAt?_close position tail,
    List.take_of_length_le hcount]
  rfl

def programEnd : Bytes := [0, 0]

/-- A program of stored lines lists as these lines. -/
theorem lines_storedBytes (image : Program.Image) (lines : List Stored)
    (hbody : image.body = storedBytes lines ++ programEnd) (hcount : lines.length ≤ lineLimit) :
    Listing.lines Rules.standard image = lines.map (·.line .strict) := by
  obtain ⟨load, body⟩ := image
  obtain rfl : body = storedBytes lines ++ 0 :: 0 :: [] := hbody
  rw [Listing.lines, records_storedBytes rfl rfl load [] hcount]
  exact map_line_recordsFrom .strict 0 lines

end TapeSalvage.Listing
