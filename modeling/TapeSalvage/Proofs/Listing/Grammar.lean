import TapeSalvage.Proofs.Bytes.Pieces
import TapeSalvage.Proofs.Bytes.Words
import TapeSalvage.Proofs.Listing.Records

/-!
The grammar of program bodies. A body is a list of stored lines and a rest that begins with none,
and there is only one way to see it so. The walk along the zero bytes lists these lines, as many of
them as fit into a listing, in the order in which they stand.
-/
namespace TapeSalvage.Listing

/-- Whether no line stands at the front of bytes: there are too few of them, or their pointer is
zero, or no zero byte ends a text. -/
def IsRest (rest : Bytes) : Prop :=
  rest.length < 4 ∨ (4 ≤ rest.length ∧ rest.take 2 = [0, 0]) ∨
    (4 ≤ rest.length ∧ rest.take 2 ≠ [0, 0] ∧ 0 ∉ rest.drop 4)

theorem splitLine?_eq_none_iff (data : Bytes) : splitLine? data = none ↔ 0 ∉ data := by
  constructor
  · intro h hmem
    obtain ⟨text, after, rfl, hclean⟩ := List.eq_append_cons_of_mem hmem
    rw [splitLine?_append text after hclean] at h
    contradiction
  · intro h
    cases hsplit : splitLine? data with
    | none => rfl
    | some found =>
      obtain ⟨rfl, _⟩ := eq_of_splitLine? hsplit
      simp at h

theorem recordAt?_eq_none_iff (offset : Nat) (data : Bytes) :
    recordAt? offset data = none ↔ IsRest data := by
  match data with
  | [] => simp [recordAt?, IsRest]
  | [_] => simp [recordAt?, IsRest]
  | [_, _] => simp [recordAt?, IsRest]
  | [_, _, _] => simp [recordAt?, IsRest]
  | pointerLow :: pointerHigh :: lineLow :: lineHigh :: rest =>
    have hpointer : word pointerLow pointerHigh = 0 ↔ [pointerLow, pointerHigh] = [0, 0] := by
      rw [word_eq_zero_iff]
      simp
    have hlong : 4 ≤ (pointerLow :: pointerHigh :: lineLow :: lineHigh :: rest).length := by simp
    rw [recordAt?, IsRest]
    dsimp only
    by_cases hzero : word pointerLow pointerHigh = 0
    · rw [if_pos hzero]
      exact ⟨fun _ => Or.inr (Or.inl ⟨hlong, hpointer.mp hzero⟩), fun _ => rfl⟩
    · rw [if_neg hzero, Option.map_eq_none_iff, splitLine?_eq_none_iff]
      constructor
      · exact fun hclean => Or.inr (Or.inr ⟨hlong, fun h => hzero (hpointer.mpr h), hclean⟩)
      · rintro (hshort | ⟨_, hclosed⟩ | ⟨_, _, hclean⟩)
        · omega
        · exact absurd (hpointer.mpr hclosed) hzero
        · exact hclean

/-- A line in front of other bytes is read back in one way only. -/
theorem Stored.append_inj {line other : Stored} {rest last : Bytes}
    (h : line.bytes ++ rest = other.bytes ++ last) : line = other ∧ rest = last := by
  obtain ⟨pointerLow, pointerHigh, numberLow, numberHigh, text, linked, clean⟩ := line
  obtain ⟨otherLow, otherHigh, lineLow, lineHigh, words, bound, bare⟩ := other
  simp only [bytes, List.cons_append, List.cons.injEq, List.append_assoc, List.nil_append] at h
  obtain ⟨rfl, rfl, rfl, rfl, h⟩ := h
  have htext := splitLine?_append text rest clean
  rw [h, splitLine?_append words last bare, Option.some.injEq, Prod.mk.injEq] at htext
  obtain ⟨rfl, rfl⟩ := htext
  exact ⟨rfl, rfl⟩

structure Parses (body : Bytes) (lines : List Stored) (rest : Bytes) : Prop where
  eq_append : body = storedBytes lines ++ rest
  isRest : IsRest rest

theorem not_isRest_append (line : Stored) (rest : Bytes) : ¬ IsRest (line.bytes ++ rest) := by
  rw [← recordAt?_eq_none_iff 0, recordAt?_append]
  exact Option.some_ne_none _

theorem isRest_or_exists_stored (data : Bytes) :
    IsRest data ∨ ∃ (line : Stored) (rest : Bytes), data = line.bytes ++ rest := by
  cases hrecord : recordAt? 0 data with
  | none => exact Or.inl ((recordAt?_eq_none_iff 0 data).mp hrecord)
  | some taken =>
    obtain ⟨line, hdata, _⟩ := exists_stored_of_recordAt? hrecord
    exact Or.inr ⟨line, taken.2, hdata⟩

/-- Every body is made of some lines and a rest. -/
theorem exists_parses (body : Bytes) : ∃ lines rest, Parses body lines rest := by
  have hpositive : ∀ line : Stored, 0 < line.bytes.length := by
    intro line
    rw [line.length_bytes]
    omega
  obtain ⟨lines, rest, heq, hrest⟩ := Bytes.exists_pieces hpositive isRest_or_exists_stored body
  exact ⟨lines, rest, heq, hrest⟩

namespace Parses

variable {body rest last : Bytes} {lines others : List Stored}

theorem recordAt?_eq_none (h : Parses body lines rest) (offset : Nat) :
    recordAt? offset rest = none := (recordAt?_eq_none_iff offset rest).mpr h.isRest

/-- A body is made of lines and a rest in one way only. -/
theorem unique (h : Parses body lines rest) (hother : Parses body others last) :
    others = lines ∧ last = rest :=
  Bytes.pieces_unique Stored.append_inj not_isRest_append (h.eq_append.symm.trans hother.eq_append)
    h.isRest hother.isRest

/-- The records of a program are those of its first lines. -/
theorem records_eq (style : Style) {skip : Int} {image : Program.Image}
    (h : Parses (image.body.drop skip.toNat) lines rest) :
    records ⟨.terminator, style, skip⟩ image = recordsFrom skip.toNat (lines.take lineLimit) := by
  unfold records
  dsimp only
  rw [h.eq_append]
  exact walkFrom_storedBytes _ _ _ _ _ h.recordAt?_eq_none

end Parses

/-- A body from its first record on is made of lines and a rest in exactly one way, and what is
listed are these lines in their order, the first 20000 of them. -/
theorem lines_grammar (style : Style) (skip : Int) (image : Program.Image) :
    ∃ stored rest, Parses (image.body.drop skip.toNat) stored rest ∧
      (∀ others last, Parses (image.body.drop skip.toNat) others last →
        others = stored ∧ last = rest) ∧
      lines ⟨.terminator, style, skip⟩ image = (stored.take 20000).map (·.line style) := by
  obtain ⟨stored, rest, h⟩ := exists_parses (image.body.drop skip.toNat)
  refine ⟨stored, rest, h, fun others last hother => h.unique hother, ?_⟩
  rw [lines, h.records_eq style]
  exact map_line_recordsFrom style _ _

end TapeSalvage.Listing
