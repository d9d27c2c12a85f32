import TapeSalvage.Proofs.Listing.Checked
import TapeSalvage.Proofs.Scan.Chain
import TapeSalvage.Proofs.Scan.Shard

/-!
The search for programs with checks. Here a chain is followed by offsets of the whole stream, and
every word is read by a check of its place. No check fails, and this is the search that recoveries
use: a chain is left before its next record could reach past the end of the stream.
-/
namespace TapeSalvage.Scan

/-- Follows a chain whose first record stands at `base`, with checked reads. -/
def checkedFollow (rules : Rules) (data : Bytes) (load base : Nat) :
    (limit : Nat) → Trail → Except Fault (Option Trail)
  | 0, _ => .ok none
  | limit + 1, trail =>
    let place := base + trail.distance
    if data.length ≤ place + 4 then .ok none
    else do
      let pointer ← data.wordAt place
      let line ← data.wordAt (place + 2)
      if pointer = 0 then return some trail
      else if rules.highestLine < line then return none
      else
        match data.position? 0 (place + 4 : Nat) ((place + 4 : Nat) + rules.lineReach) with
        | none => return none
        | some stop =>
          let extended := trail.extend rules load pointer line (stop - (place + 4))
          if rules.penaltyLimit.lt extended.penalty then return none
          else checkedFollow rules data load base limit extended

def accept (rules : Rules) (offset load : Nat) : Option Trail → Option Candidate
  | none => none
  | some trail =>
    if trail.lines < rules.fewestLines then none else some (trail.candidate rules offset load)

def checkedCandidate (rules : Rules) (data : Bytes) (offset : Int) :
    Except Fault (Option Candidate) :=
  if offset < 0 ∨ data.length ≤ offset + 10 then .ok none
  else do
    let load ← data.wordAt offset
    if (load : Int) < rules.lowestLoad ∨ rules.highestLoad < load then return none
    else
      let trail ← checkedFollow rules data load (offset.toNat + 2) rules.recordLimit.toNat
        (.start load)
      return accept rules offset.toNat load trail

def checkedSearch? (rules : Rules) (data : Bytes) : Except Fault (Option Candidate) :=
  (List.range (data.length - rules.tailReserve).toNat).foldlM
    (fun best place => do return better best (← checkedCandidate rules data (place : Nat))) none

theorem not_mem_of_lineEndFrom_eq_none {passed reach : Nat} {data : Bytes}
    (h : lineEndFrom passed reach data = none) : 0 ∉ data.take reach := by
  induction data generalizing passed reach with
  | nil => simp
  | cons byte rest ih =>
    cases reach with
    | zero => simp
    | succ reach =>
      rw [lineEndFrom] at h
      by_cases hbyte : byte = 0
      · rw [if_pos hbyte] at h
        contradiction
      · rw [if_neg hbyte] at h
        rw [List.take_succ_cons, List.mem_cons, not_or]
        exact ⟨Ne.symm hbyte, ih h⟩

/-- Looking for the end of a line in a window is looking for it in reach. -/
theorem position?_eq_lineEnd? (data : Bytes) (start : Nat) (reach : Int) :
    data.position? 0 start (start + reach) =
      (lineEnd? reach.toNat (data.drop start)).map fun found => start + found.1 := by
  have hreach : (start + reach : Int).toNat - start = reach.toNat := by omega
  cases hend : lineEnd? reach.toNat (data.drop start) with
  | none =>
    apply Bytes.position?_eq_none
    rw [hreach]
    exact not_mem_of_lineEndFrom_eq_none hend
  | some found =>
    obtain ⟨size, after⟩ := found
    obtain ⟨text, htext, hclean, rfl, hlength⟩ := exists_text_of_lineEndFrom hend
    have hwindow : (data.drop start).take ((start + reach : Int).toNat - start) =
        text ++ 0 :: after.take (reach.toNat - text.length - 1) := by
      rw [hreach, htext, List.take_append, List.take_of_length_le (Nat.le_of_lt hlength)]
      obtain ⟨more, hmore⟩ := Nat.exists_eq_succ_of_ne_zero (Nat.sub_ne_zero_of_lt hlength)
      rw [hmore, List.take_succ_cons]
      rfl
    rw [Bytes.position?_eq_some hwindow hclean, Nat.zero_add]
    rfl

theorem drop_of_lineEnd? {data after : Bytes} {start reach size : Nat}
    (h : lineEnd? reach (data.drop start) = some (size, after)) :
    data.drop (start + (size + 1)) = after := by
  obtain ⟨text, htext, _, rfl, _⟩ := exists_text_of_lineEndFrom h
  have hlength : (text ++ [0]).length = 0 + text.length + 1 := by
    rw [List.length_append, List.length_singleton, Nat.zero_add]
  rw [← hlength]
  apply Bytes.drop_add_of_drop (text ++ [0])
  rw [htext, List.append_assoc]
  rfl

theorem follow_of_length {rules : Rules} {load limit : Nat} {trail : Trail} {data : Bytes}
    (h : data.length ≤ 4) : follow rules load limit trail data = none := by
  cases limit with
  | zero => rfl
  | succ limit =>
    match data, h with
    | [], _ => rfl
    | [_], _ => rfl
    | [_, _], _ => rfl
    | [_, _, _], _ => rfl
    | [_, _, _, _], _ => rfl

/-- The checks on a chain never fail. -/
theorem checkedFollow_eq (rules : Rules) (data : Bytes) (load base limit : Nat) (trail : Trail) :
    checkedFollow rules data load base limit trail =
      .ok (follow rules load limit trail (data.drop (base + trail.distance))) := by
  induction limit generalizing trail with
  | zero => rfl
  | succ limit ih =>
    rw [checkedFollow]
    dsimp only
    by_cases hshort : data.length ≤ base + trail.distance + 4
    · have hlength : (data.drop (base + trail.distance)).length ≤ 4 := by
        rw [List.length_drop]
        omega
      rw [if_pos hshort, follow_of_length hlength]
    rw [if_neg hshort]
    obtain ⟨pointerLow, pointerHigh, lineLow, lineHigh, rest, hdrop⟩ :=
      Listing.exists_head_of_length (data.drop (base + trail.distance))
        (by rw [List.length_drop]; omega)
    have hrest : data.drop (base + trail.distance + 4) = rest :=
      Bytes.drop_add_of_drop [pointerLow, pointerHigh, lineLow, lineHigh] hdrop
    -- The check of the length leaves one byte behind the head of the record.
    obtain ⟨next, tail, rfl⟩ : ∃ next tail, rest = next :: tail := by
      apply List.exists_cons_of_length_pos
      rw [← hrest, List.length_drop]
      omega
    rw [Bytes.wordAt_of_drop hdrop, Bytes.wordAt_add_two_of_drop hdrop, hdrop, follow,
      position?_eq_lineEnd?, hrest]
    change (if word pointerLow pointerHigh = 0 then Except.ok (some trail) else _) = _
    dsimp only
    by_cases hpointer : word pointerLow pointerHigh = 0
    · rw [if_pos hpointer, if_pos hpointer]
    rw [if_neg hpointer, if_neg hpointer]
    by_cases hnumber : rules.highestLine < word lineLow lineHigh
    · rw [if_pos hnumber, if_pos hnumber]
      rfl
    rw [if_neg hnumber, if_neg hnumber]
    cases hend : lineEnd? rules.lineReach.toNat (next :: tail) with
    | none => rfl
    | some found =>
      obtain ⟨size, after⟩ := found
      have hsize : base + trail.distance + 4 + size - (base + trail.distance + 4) = size := by
        omega
      rw [Option.map_some]
      dsimp only
      rw [hsize]
      split
      · rfl
      · rw [ih]
        have hafter : data.drop (base + trail.distance + 4 + (size + 1)) = after :=
          drop_of_lineEnd? (hrest ▸ hend)
        have hplace : base + (trail.extend rules load (word pointerLow pointerHigh)
            (word lineLow lineHigh) size).distance = base + trail.distance + 4 + (size + 1) := by
          unfold Trail.extend
          dsimp only
          omega
        rw [hplace, hafter]

theorem judge_of_length {rules : Rules} {data : Bytes} (offset : Nat) (h : data.length ≤ 10) :
    judge rules offset data = none := by
  match data, h with
  | [], _ => rfl
  | [_], _ => rfl
  | low :: high :: rest, h =>
    have hshort : holds 9 rest = false := by
      rw [← Bool.not_eq_true, holds_iff]
      simp only [List.length_cons] at h
      omega
    simp [judge, hshort]

theorem judge_of_length_le {rules : Rules} (offset : Nat) (low high : UInt8) {rest : Bytes}
    (h : 9 ≤ rest.length) :
    judge rules offset (low :: high :: rest) =
      if (word low high : Int) < rules.lowestLoad ∨ rules.highestLoad < word low high then none
      else accept rules offset (word low high)
        (follow rules (word low high) rules.recordLimit.toNat (.start (word low high)) rest) := by
  have hlong : holds 9 rest = true := (holds_iff 9 rest).mpr h
  simp only [judge, hlong, Bool.not_true, Bool.or_false, Bool.or_eq_true, decide_eq_true_eq]
  rfl

/-- The checks at an offset never fail. -/
theorem checkedCandidate_eq (rules : Rules) (data : Bytes) (offset : Int) :
    checkedCandidate rules data offset = .ok (candidateAt rules data offset) := by
  unfold checkedCandidate
  by_cases hnegative : offset < 0
  · rw [if_pos (Or.inl hnegative), candidateAt, if_pos hnegative]
  obtain ⟨place, rfl⟩ := Int.eq_ofNat_of_zero_le (Int.not_lt.mp hnegative)
  rw [candidateAt_natCast]
  by_cases hshort : (data.length : Int) ≤ place + 10
  · have hlength : (data.drop place).length ≤ 10 := by
      rw [List.length_drop]
      omega
    rw [if_pos (Or.inr hshort), judge_of_length place hlength]
  rw [if_neg (not_or_intro hnegative hshort)]
  obtain ⟨low, high, rest, hdrop⟩ : ∃ low high rest, data.drop place = low :: high :: rest := by
    obtain ⟨low, high, third, fourth, rest, hdrop⟩ :=
      Listing.exists_head_of_length (data.drop place) (by rw [List.length_drop]; omega)
    exact ⟨low, high, third :: fourth :: rest, hdrop⟩
  have hrest : data.drop (place + 2) = rest := Bytes.drop_add_of_drop [low, high] hdrop
  have hlong : 9 ≤ rest.length := by
    rw [← hrest, List.length_drop]
    omega
  have hfollow := checkedFollow_eq rules data (word low high) (place + 2) rules.recordLimit.toNat
    (.start (word low high))
  rw [show (Trail.start (word low high)).distance = 0 from rfl, Nat.add_zero, hrest] at hfollow
  rw [Bytes.wordAt_of_drop hdrop, hdrop, judge_of_length_le place low high hlong]
  change (if (word low high : Int) < rules.lowestLoad ∨ rules.highestLoad < word low high then
    Except.ok none else checkedFollow _ _ _ (place + 2) _ _ >>= _) = _
  split
  · rfl
  · rw [hfollow]
    rfl

/-- A search never reads outside its stream. -/
theorem checkedSearch?_eq (rules : Rules) (data : Bytes) :
    checkedSearch? rules data = .ok (search? rules data) := by
  have hsearch : search? rules data =
      ((List.range (data.length - rules.tailReserve).toNat).map fun place : Nat =>
        candidateAt rules data place).foldl better none := by
    rw [List.range_eq_range', ← searchFrom_eq_foldl]
    rfl
  rw [hsearch, List.foldl_map]
  unfold checkedSearch?
  simp only [checkedCandidate_eq]
  exact List.foldlM_pure

end TapeSalvage.Scan
