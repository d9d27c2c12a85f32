import TapeSalvage.Proofs.Bytes.Words
import TapeSalvage.Proofs.Listing.Records
import TapeSalvage.Scan.Trail

/-!
The lines of a chain. A chain is followed to its end exactly if its bytes are stored lines, each of
which may be passed, and a closing record behind them. So what the scan knows of a program can be
read off its lines: their number, the bytes they take, and that no line number is too high.
-/
namespace TapeSalvage.Scan

open Listing (Record Stored storedBytes recordsFrom)

variable {rules : Rules} {load : Nat}

def Trail.pass (rules : Rules) (load : Nat) (trail : Trail) (record : Record) : Trail :=
  trail.extend rules load record.pointer record.lineNumber record.text.length

/-- Whether a chain is not given up at a record. -/
structure MayPass (rules : Rules) (load : Nat) (trail : Trail) (record : Record) : Prop where
  number_le : (record.lineNumber : Int) ≤ rules.highestLine
  length_lt : record.text.length < rules.lineReach.toNat
  bearable : ¬ rules.penaltyLimit.lt (trail.pass rules load record).penalty = true

/-- The lines from a trail to the closing record of its chain, and the trail there. -/
inductive Passes (rules : Rules) (load : Nat) : Trail → Bytes → List Stored → Trail → Prop
  | close {trail : Trail} {rest : Bytes} (hrest : 3 ≤ rest.length) :
      Passes rules load trail (0 :: 0 :: rest) [] trail
  | line {trail final : Trail} {line : Stored} {lines : List Stored} {rest : Bytes}
      (hline : MayPass rules load trail (line.record trail.distance))
      (hrest : Passes rules load (trail.pass rules load (line.record trail.distance)) rest lines
        final) :
      Passes rules load trail (line.bytes ++ rest) (line :: lines) final

/-- The end of a line is found behind a text without a zero byte that ends in reach. -/
theorem exists_text_of_lineEndFrom {passed reach size : Nat} {data after : Bytes}
    (h : lineEndFrom passed reach data = some (size, after)) :
    ∃ text : Bytes, data = text ++ 0 :: after ∧ 0 ∉ text ∧ size = passed + text.length ∧
      text.length < reach := by
  induction data generalizing passed reach with
  | nil => cases reach <;> simp [lineEndFrom] at h
  | cons byte rest ih =>
    cases reach with
    | zero => simp [lineEndFrom] at h
    | succ reach =>
      rw [lineEndFrom] at h
      by_cases hbyte : byte = 0
      · rw [if_pos hbyte] at h
        obtain ⟨rfl, rfl⟩ := Prod.mk.inj (Option.some.inj h)
        exact ⟨[], by rw [hbyte]; rfl, List.not_mem_nil, rfl, Nat.zero_lt_succ reach⟩
      · rw [if_neg hbyte] at h
        obtain ⟨text, rfl, hclean, hsize, hreach⟩ := ih h
        refine ⟨byte :: text, rfl, ?_, ?_, ?_⟩
        · rw [List.mem_cons, not_or]
          exact ⟨Ne.symm hbyte, hclean⟩
        · rw [List.length_cons]
          omega
        · rw [List.length_cons]
          omega

theorem follow_close (limit : Nat) (trail : Trail) {rest : Bytes} (hrest : 3 ≤ rest.length) :
    follow rules load (limit + 1) trail (0 :: 0 :: rest) = some trail := by
  match rest, hrest with
  | _ :: _ :: _ :: _, _ => rfl

theorem follow_line (limit : Nat) {trail : Trail} {line : Stored} (rest : Bytes)
    (hline : MayPass rules load trail (line.record trail.distance)) :
    follow rules load (limit + 1) trail (line.bytes ++ rest) =
      follow rules load limit (trail.pass rules load (line.record trail.distance)) rest := by
  obtain ⟨pointerLow, pointerHigh, lineLow, lineHigh, text, hpointer, hclean⟩ := line
  obtain ⟨next, tail, hnext⟩ : ∃ next tail, text ++ 0 :: rest = next :: tail := by
    cases text with
    | nil => exact ⟨0, rest, rfl⟩
    | cons byte text => exact ⟨byte, text ++ 0 :: rest, rfl⟩
  have hend : lineEnd? rules.lineReach.toNat (text ++ 0 :: rest) = some (text.length, rest) := by
    rw [lineEnd?, lineEndFrom_append 0 _ text rest hclean hline.length_lt, Nat.zero_add]
  have hbytes : (Stored.mk pointerLow pointerHigh lineLow lineHigh text hpointer hclean).bytes ++
      rest = pointerLow :: pointerHigh :: lineLow :: lineHigh :: (text ++ 0 :: rest) := by
    simp [Stored.bytes]
  rw [hbytes, hnext]
  rw [hnext] at hend
  have hnumber : ¬ rules.highestLine < (word lineLow lineHigh : Int) :=
    Int.not_lt.mpr hline.number_le
  simp only [follow, if_neg hpointer, if_neg hnumber, hend]
  exact if_neg hline.bearable

/-- The scan closes a chain at its front or passes a line there. -/
theorem follow_cases {limit : Nat} {trail final : Trail} {data : Bytes}
    (h : follow rules load (limit + 1) trail data = some final) :
    (∃ rest, data = 0 :: 0 :: rest ∧ 3 ≤ rest.length ∧ final = trail) ∨
      ∃ (line : Stored) (rest : Bytes), data = line.bytes ++ rest ∧
        MayPass rules load trail (line.record trail.distance) ∧
        follow rules load limit (trail.pass rules load (line.record trail.distance)) rest =
          some final := by
  match data, h with
  | pointerLow :: pointerHigh :: lineLow :: lineHigh :: next :: tail, h =>
    simp only [follow] at h
    by_cases hpointer : word pointerLow pointerHigh = 0
    · rw [if_pos hpointer] at h
      obtain ⟨rfl, rfl⟩ := word_eq_zero_iff.mp hpointer
      exact Or.inl ⟨lineLow :: lineHigh :: next :: tail, rfl, by simp, (Option.some.inj h).symm⟩
    rw [if_neg hpointer] at h
    by_cases hnumber : rules.highestLine < word lineLow lineHigh
    · rw [if_pos hnumber] at h
      contradiction
    rw [if_neg hnumber] at h
    cases hend : lineEnd? rules.lineReach.toNat (next :: tail) with
    | none =>
      rw [hend] at h
      contradiction
    | some found =>
      obtain ⟨size, rest⟩ := found
      rw [hend] at h
      obtain ⟨text, htext, hclean, hsize, hreach⟩ := exists_text_of_lineEndFrom hend
      obtain rfl : size = text.length := by omega
      dsimp only at h
      by_cases hlimit : rules.penaltyLimit.lt (trail.extend rules load
          (word pointerLow pointerHigh) (word lineLow lineHigh) text.length).penalty = true
      · rw [if_pos hlimit] at h
        contradiction
      rw [if_neg hlimit] at h
      refine Or.inr ⟨⟨pointerLow, pointerHigh, lineLow, lineHigh, text, hpointer, hclean⟩, rest, ?_,
        ⟨Int.not_lt.mp hnumber, hreach, hlimit⟩, h⟩
      rw [htext]
      simp [Stored.bytes]

/-- A chain is followed to its end exactly if it is made of lines that may be passed, fewer than the
limit. -/
theorem follow_eq_some_iff (limit : Nat) (trail final : Trail) (data : Bytes) :
    follow rules load limit trail data = some final ↔
      ∃ lines, Passes rules load trail data lines final ∧ lines.length < limit := by
  constructor
  · intro h
    induction limit generalizing trail data with
    | zero => simp [follow] at h
    | succ limit ih =>
      rcases follow_cases h with ⟨rest, rfl, hrest, rfl⟩ | ⟨line, rest, rfl, hline, hfollow⟩
      · exact ⟨[], .close hrest, Nat.zero_lt_succ limit⟩
      · obtain ⟨lines, hlines, hcount⟩ := ih _ _ hfollow
        exact ⟨line :: lines, .line hline hlines, Nat.succ_lt_succ hcount⟩
  · rintro ⟨lines, hlines, hcount⟩
    induction hlines generalizing limit with
    | close hrest =>
      obtain ⟨limit, rfl⟩ := Nat.exists_eq_succ_of_ne_zero (Nat.ne_of_gt hcount)
      exact follow_close limit _ hrest
    | line hline _ ih =>
      obtain ⟨limit, rfl⟩ := Nat.exists_eq_succ_of_ne_zero (Nat.ne_zero_of_lt hcount)
      rw [follow_line limit _ hline]
      exact ih limit (Nat.lt_of_succ_lt_succ hcount)

namespace Passes

variable {trail final : Trail} {data : Bytes} {lines : List Stored}

/-- The bytes of a chain are its lines and a closing record. -/
theorem exists_close (h : Passes rules load trail data lines final) :
    ∃ rest : Bytes, data = storedBytes lines ++ 0 :: 0 :: rest ∧ 3 ≤ rest.length := by
  induction h with
  | close hrest => exact ⟨_, rfl, hrest⟩
  | @line _ _ line _ _ _ _ ih =>
    obtain ⟨rest, rfl, hrest⟩ := ih
    refine ⟨rest, ?_, hrest⟩
    rw [Listing.storedBytes_cons, List.append_assoc]

theorem lines_final (h : Passes rules load trail data lines final) :
    final.lines = trail.lines + lines.length := by
  induction h with
  | close => rfl
  | line _ _ ih =>
    rw [ih, List.length_cons]
    change _ + 1 + _ = _
    omega

theorem distance_final (h : Passes rules load trail data lines final) :
    final.distance = trail.distance + (storedBytes lines).length := by
  induction h with
  | close => rfl
  | @line trail _ line _ _ _ _ ih =>
    have hline := line.length_bytes
    rw [ih, Listing.storedBytes_cons, List.length_append]
    change trail.distance + 5 + line.text.length + _ = _
    omega

/-- No line number of a chain is too high. -/
theorem number_le (h : Passes rules load trail data lines final) :
    ∀ record ∈ recordsFrom trail.distance lines, (record.lineNumber : Int) ≤ rules.highestLine := by
  induction h with
  | close => simp [recordsFrom]
  | line hline _ ih =>
    intro record hrecord
    rw [recordsFrom, List.mem_cons] at hrecord
    rcases hrecord with rfl | hrest
    · exact hline.number_le
    · exact ih record hrest

end Passes

/-- The records that the scan passes from an offset of a stream to the closing one. -/
def Walks (rules : Rules) (data : Bytes) (offset : Nat) (records : List Record) : Prop :=
  ∃ low high rest lines final, data.drop offset = low :: high :: rest ∧
    Passes rules (word low high) (.start (word low high)) rest lines final ∧
    records = recordsFrom 0 lines

end TapeSalvage.Scan
