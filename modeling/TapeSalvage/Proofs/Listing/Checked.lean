import TapeSalvage.Proofs.Bytes.Words
import TapeSalvage.Proofs.Listing.Records

/-!
The walk over a program body with checks. Here a record is looked at where it stands in the whole
body, and every word is read by a check of its place. No check fails: the body reaches past the
head of a record before the head is read, and this is the walk that lists programs.
-/
namespace TapeSalvage.Listing

def checkedWalk (traversal : Traversal) (load : Nat) (body : Bytes) :
    (limit : Nat) → (offset : Nat) → (found : List Record) → Except Fault (List Record)
  | 0, _, found => .ok found.reverse
  | limit + 1, offset, found =>
    if body.length < offset + 4 then .ok found.reverse
    else do
      let pointer ← body.wordAt offset
      let lineNumber ← body.wordAt (offset + 2)
      if pointer = 0 then return found.reverse
      else
        match body.position? 0 (offset + 4 : Nat) body.length with
        | none => return found.reverse
        | some stop =>
          let record : Record := ⟨offset, pointer, lineNumber, (body.take stop).drop (offset + 4)⟩
          match traversal with
          | .terminator => checkedWalk traversal load body limit (stop + 1) (record :: found)
          | .pointer =>
            let target := (pointer : Int) - load
            if target ≤ offset ∨ body.length < target then return (record :: found).reverse
            else checkedWalk traversal load body limit target.toNat (record :: found)

def checkedRecords (rules : Rules) (image : Program.Image) : Except Fault (List Record) :=
  checkedWalk rules.traversal image.loadAddress image.body lineLimit rules.startSkip.toNat []

theorem exists_head_of_length (data : Bytes) (h : 4 ≤ data.length) :
    ∃ first second third fourth rest, data = first :: second :: third :: fourth :: rest := by
  match data, h with
  | _ :: _ :: _ :: _ :: _, _ => exact ⟨_, _, _, _, _, rfl⟩

variable {traversal : Traversal} {load limit offset : Nat} {body : Bytes} {found : List Record}

/-- A pointer leads on exactly if its target is further on inside the body. -/
theorem pointerStep?_eq (load : Nat) (record : Record) (hoffset : record.offset ≤ body.length) :
    pointerStep? load record (body.drop record.offset) =
      if (record.pointer : Int) - load ≤ record.offset ∨
          (body.length : Int) < record.pointer - load then none
      else some (((record.pointer : Int) - load).toNat - record.offset) := by
  have hholds : holds ((record.pointer : Int) - load - record.offset).toNat
      (body.drop record.offset) = true ↔
        ((record.pointer : Int) - load - record.offset).toNat ≤ body.length - record.offset := by
    rw [holds_iff, List.length_drop]
  unfold pointerStep?
  dsimp only
  by_cases hback : (record.pointer : Int) - load ≤ record.offset
  · rw [if_pos hback, if_pos (Or.inl hback)]
  rw [if_neg hback]
  by_cases hout : (body.length : Int) < record.pointer - load
  · rw [if_pos (Or.inr hout), if_neg]
    rw [hholds]
    omega
  · rw [if_neg (not_or_intro hback hout), if_pos]
    · congr 1
      omega
    · rw [hholds]
      omega

/-- Where no record stands, the walk ends. -/
theorem checkedWalk_of_none (h : recordAt? offset (body.drop offset) = none) :
    checkedWalk traversal load body (limit + 1) offset found = .ok found.reverse := by
  rw [checkedWalk]
  by_cases hshort : body.length < offset + 4
  · exact if_pos hshort
  rw [if_neg hshort]
  obtain ⟨pointerLow, pointerHigh, lineLow, lineHigh, rest, hdrop⟩ :=
    exists_head_of_length (body.drop offset) (by rw [List.length_drop]; omega)
  rw [Bytes.wordAt_of_drop hdrop, Bytes.wordAt_add_two_of_drop hdrop]
  change (if word pointerLow pointerHigh = 0 then Except.ok found.reverse else _) = _
  rw [hdrop, recordAt?] at h
  by_cases hpointer : word pointerLow pointerHigh = 0
  · exact if_pos hpointer
  rw [if_neg hpointer]
  dsimp only at h
  rw [if_neg hpointer, Option.map_eq_none_iff] at h
  have hrest : body.drop (offset + 4) = rest :=
    Bytes.drop_add_of_drop [pointerLow, pointerHigh, lineLow, lineHigh] hdrop
  -- A zero byte in the rest would end a text, and a record would stand here.
  have hzero : 0 ∉ rest := by
    intro hmem
    obtain ⟨text, after, rfl, hclean⟩ := List.eq_append_cons_of_mem hmem
    rw [splitLine?_append text after hclean] at h
    contradiction
  have hposition : body.position? 0 (offset + 4 : Nat) body.length = none := by
    apply Bytes.position?_eq_none
    rw [hrest]
    exact fun hmem => hzero (List.mem_of_mem_take hmem)
  rw [hposition]
  rfl

/-- The walk passes a stored line. -/
theorem checkedWalk_line {line : Stored} {after : Bytes}
    (h : body.drop offset = line.bytes ++ after) :
    checkedWalk traversal load body (limit + 1) offset found =
      match traversal with
      | .terminator =>
        checkedWalk traversal load body limit (offset + 5 + line.text.length)
          (line.record offset :: found)
      | .pointer =>
        match pointerStep? load (line.record offset) (body.drop offset) with
        | none => .ok (line.record offset :: found).reverse
        | some step =>
          checkedWalk traversal load body limit (offset + step) (line.record offset :: found) := by
  obtain ⟨pointerLow, pointerHigh, lineLow, lineHigh, text, hpointer, hclean⟩ := line
  have hdrop : body.drop offset =
      pointerLow :: pointerHigh :: lineLow :: lineHigh :: (text ++ 0 :: after) := by
    rw [h]
    simp [Stored.bytes]
  have hrest : body.drop (offset + 4) = text ++ 0 :: after :=
    Bytes.drop_add_of_drop [pointerLow, pointerHigh, lineLow, lineHigh] hdrop
  have hlength := congrArg List.length hrest
  rw [List.length_drop, List.length_append, List.length_cons] at hlength
  have hwindow : (body.drop (offset + 4)).take ((body.length : Int).toNat - (offset + 4)) =
      text ++ 0 :: after := by
    rw [Int.toNat_natCast, ← List.length_drop, List.take_length, hrest]
  have hposition : body.position? 0 (offset + 4 : Nat) body.length =
      some (offset + 4 + text.length) := Bytes.position?_eq_some hwindow hclean
  have htext : (body.take (offset + 4 + text.length)).drop (offset + 4) = text := by
    rw [List.drop_take, hrest, Nat.add_sub_cancel_left]
    exact List.take_left
  have hstep := pointerStep?_eq load
    ⟨offset, word pointerLow pointerHigh, word lineLow lineHigh, text⟩
    (show offset ≤ body.length by omega)
  rw [checkedWalk, if_neg (by omega), Bytes.wordAt_of_drop hdrop,
    Bytes.wordAt_add_two_of_drop hdrop]
  change (if word pointerLow pointerHigh = 0 then Except.ok found.reverse else _) = _
  rw [if_neg hpointer, hposition]
  dsimp only
  rw [htext]
  cases traversal with
  | terminator =>
    dsimp only [Stored.record]
    congr 1
    omega
  | pointer =>
    dsimp only [Stored.record] at hstep ⊢
    rw [hstep]
    split
    · rfl
    · rename_i hinside
      have htarget : (↑(word pointerLow pointerHigh) - (load : Int)).toNat =
          offset + ((↑(word pointerLow pointerHigh) - (load : Int)).toNat - offset) := by omega
      dsimp only
      rw [← htarget]

/-- What follows a line stands five bytes and its text further on. -/
theorem drop_of_line {line : Stored} {after : Bytes} (h : body.drop offset = line.bytes ++ after) :
    body.drop (offset + 5 + line.text.length) = after := by
  rw [← Bytes.drop_add_of_drop line.bytes h, line.length_bytes]
  congr 1
  omega

/-- The checks of the walk never fail. -/
theorem checkedWalk_eq (traversal : Traversal) (load : Nat) (body : Bytes) (limit offset : Nat)
    (found : List Record) :
    checkedWalk traversal load body limit offset found =
      .ok (walkFrom traversal load limit offset found (body.drop offset)) := by
  induction limit generalizing offset found with
  | zero => rfl
  | succ limit ih =>
    rw [walkFrom]
    cases hrecord : recordAt? offset (body.drop offset) with
    | none => rw [checkedWalk_of_none hrecord]
    | some taken =>
      obtain ⟨record, after⟩ := taken
      obtain ⟨line, hdrop, rfl⟩ := exists_stored_of_recordAt? hrecord
      rw [checkedWalk_line hdrop]
      cases traversal with
      | terminator =>
        dsimp only
        rw [ih, drop_of_line hdrop]
        rfl
      | pointer =>
        dsimp only
        cases pointerStep? load (line.record offset) (body.drop offset) with
        | none => rfl
        | some step =>
          dsimp only
          rw [ih, List.drop_drop]

/-- A listing never reads outside its program. -/
theorem checkedRecords_eq (rules : Rules) (image : Program.Image) :
    checkedRecords rules image = .ok (records rules image) := checkedWalk_eq ..

end TapeSalvage.Listing
