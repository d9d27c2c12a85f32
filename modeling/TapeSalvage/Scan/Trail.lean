import TapeSalvage.Bytes
import TapeSalvage.Scan.Rules

/-!
Following a chain of line records. A record is a pointer to the next one, a line number, a text
and a zero byte; the chain closes with a zero pointer. The chain is followed by its zero bytes,
and its pointers are only compared with them, since on a damaged tape pointers are the first to go
wrong. Nothing here depends on where in the stream the program stands.
-/
namespace TapeSalvage.Scan

/-- How far a chain was followed: the distance of the next record from the first one, the number of
lines, the penalty, and the line number and pointer of the last line. -/
structure Trail where
  distance : Nat
  lines : Nat
  penalty : Amount
  lastLine : Nat
  lastPointer : Nat
  deriving DecidableEq

/-- The length of the text before the first zero byte, counted on from `passed`, and the bytes after
that zero byte; only the first `reach` bytes are searched. -/
def lineEndFrom (passed : Nat) : (reach : Nat) → Bytes → Option (Nat × Bytes)
  | 0, _ => none
  | _ + 1, [] => none
  | reach + 1, byte :: rest =>
    if byte = 0 then some (passed, rest) else lineEndFrom (passed + 1) reach rest

theorem lineEndFrom_append (passed reach : Nat) (text after : Bytes) (hclean : 0 ∉ text)
    (hnear : text.length < reach) :
    lineEndFrom passed reach (text ++ 0 :: after) = some (passed + text.length, after) := by
  induction text generalizing passed reach with
  | nil =>
    obtain ⟨reach, rfl⟩ := Nat.exists_eq_succ_of_ne_zero (Nat.ne_of_gt hnear)
    simp [lineEndFrom]
  | cons byte text ih =>
    simp only [List.mem_cons, not_or] at hclean
    simp only [List.length_cons] at hnear
    obtain ⟨reach, rfl⟩ : ∃ k, reach = k + 1 := ⟨reach - 1, by omega⟩
    rw [List.cons_append, lineEndFrom, if_neg (Ne.symm hclean.1),
      ih (passed + 1) reach hclean.2 (by omega), List.length_cons]
    congr 2
    omega

def lineEnd? (reach : Nat) (data : Bytes) : Option (Nat × Bytes) := lineEndFrom 0 reach data

/-- What a pointer costs that points `mismatch` bytes past or before the next record. -/
def mismatchCost (rules : Rules) (mismatch : Nat) : Amount :=
  if rules.mismatchTolerance < mismatch then rules.mismatchPenalty
  else if mismatch = 0 then 0
  else Amount.share (.ofInt mismatch) rules.mismatchDivisor

/-- The penalty after one more record, where `actual` is the distance of the record after it. -/
def Trail.charge (rules : Rules) (load : Nat) (trail : Trail) (pointer line actual : Nat) :
    Amount :=
  let descent := if line < trail.lastLine then rules.descentPenalty else 0
  let mismatch := ((pointer : Int) - load - actual).natAbs
  let stall := if pointer ≤ trail.lastPointer then rules.stallPenalty else 0
  trail.penalty + descent + mismatchCost rules mismatch + stall

def Trail.extend (rules : Rules) (load : Nat) (trail : Trail) (pointer line size : Nat) : Trail :=
  let actual := trail.distance + 5 + size
  { distance := actual
    lines := trail.lines + 1
    penalty := trail.charge rules load pointer line actual
    lastLine := line
    lastPointer := pointer }

/-- Follows a chain of at most `limit` records to its closing record. At least one byte must stand
after the four bytes of every record's head. -/
def follow (rules : Rules) (load : Nat) : (limit : Nat) → Trail → Bytes → Option Trail
  | limit + 1, trail, pointerLow :: pointerHigh :: lineLow :: lineHigh :: next :: rest =>
    let pointer := word pointerLow pointerHigh
    let line := word lineLow lineHigh
    if pointer = 0 then some trail
    else if rules.highestLine < line then none
    else
      match lineEnd? rules.lineReach.toNat (next :: rest) with
      | none => none
      | some (size, after) =>
        let extended := trail.extend rules load pointer line size
        if rules.penaltyLimit.lt extended.penalty then none
        else follow rules load limit extended after
  | _, _, _ => none

def Trail.start (load : Nat) : Trail := ⟨0, 0, 0, 0, load⟩

end TapeSalvage.Scan
