import TapeSalvage.Proofs.Listing.Grammar

/-!
Lines of which some pointers were replaced. The walk along the zero bytes looks at a pointer only to
see whether it is zero. So a program is listed as before after the pointers of any of its listed
records were overwritten, as long as none of them became zero, though a single byte of them may.
-/
namespace TapeSalvage.Listing

namespace Stored

def pointer (line : Stored) : Nat := word line.pointerLow line.pointerHigh

def number (line : Stored) : Nat := word line.numberLow line.numberHigh

def withPointer (line : Stored) (low high : UInt8) (hlinked : word low high ≠ 0) : Stored :=
  { line with pointerLow := low, pointerHigh := high, linked := hlinked }

theorem length_bytes_withPointer (line : Stored) (low high : UInt8) (hlinked : word low high ≠ 0) :
    (line.withPointer low high hlinked).bytes.length = line.bytes.length := by
  rw [length_bytes, length_bytes]
  rfl

def behindPointer (line : Stored) : Bytes := line.numberLow :: line.numberHigh :: (line.text ++ [0])

theorem bytes_eq (line : Stored) :
    line.bytes = line.pointerLow :: line.pointerHigh :: line.behindPointer := rfl

theorem bytes_withPointer (line : Stored) (low high : UInt8) (hlinked : word low high ≠ 0) :
    (line.withPointer low high hlinked).bytes = low :: high :: line.behindPointer := rfl

end Stored

/-- Lines, and the same lines after the pointers of so many of them were replaced. -/
inductive Damage : (count : Nat) → (lines others : List Stored) → Prop
  | nil : Damage 0 [] []
  | keep (line : Stored) {count : Nat} {lines others : List Stored}
      (h : Damage count lines others) :
      Damage count (line :: lines) (line :: others)
  | replace (line : Stored) (low high : UInt8) (hlinked : word low high ≠ 0) {count : Nat}
      {lines others : List Stored} (h : Damage count lines others) :
      Damage (count + 1) (line :: lines) (line.withPointer low high hlinked :: others)

theorem Damage.length_eq {count : Nat} {lines others : List Stored}
    (h : Damage count lines others) :
    others.length = lines.length := by
  induction h with
  | nil => rfl
  | keep _ _ ih => rw [List.length_cons, List.length_cons, ih]
  | replace _ _ _ _ _ ih => rw [List.length_cons, List.length_cons, ih]

theorem Damage.length_storedBytes {count : Nat} {lines others : List Stored}
    (h : Damage count lines others) : (storedBytes others).length = (storedBytes lines).length := by
  induction h with
  | nil => rfl
  | keep line _ ih =>
    rw [storedBytes_cons, storedBytes_cons, List.length_append, List.length_append, ih]
  | replace line low high hlinked _ ih =>
    rw [storedBytes_cons, storedBytes_cons, List.length_append, List.length_append, ih,
      line.length_bytes_withPointer]

/-- Lines are listed as before whatever their pointers were replaced by. -/
theorem Damage.map_line {count : Nat} {lines others : List Stored} (h : Damage count lines others)
    (style : Style) : others.map (·.line style) = lines.map (·.line style) := by
  induction h with
  | nil => rfl
  | keep _ _ ih => rw [List.map_cons, List.map_cons, ih]
  | replace _ _ _ _ _ ih =>
    rw [List.map_cons, List.map_cons, ih]
    rfl

/-- Whether a body was changed into another one of its length in no place but the pointers of some
records, none of which became zero. -/
structure Repointed (listed : List Record) (body changed : Bytes) : Prop where
  length_eq : changed.length = body.length
  unchanged : ∀ place < body.length,
    (∀ record ∈ listed, place ≠ record.offset ∧ place ≠ record.offset + 1) →
      changed[place]? = body[place]?
  linked : ∀ record ∈ listed, (changed.drop record.offset).take 2 ≠ [0, 0]

theorem le_offset_of_mem_recordsFrom {offset : Nat} {stored : List Stored} {record : Record}
    (h : record ∈ recordsFrom offset stored) : offset ≤ record.offset := by
  induction stored generalizing offset with
  | nil => simp [recordsFrom] at h
  | cons line rest ih =>
    rw [recordsFrom, List.mem_cons] at h
    rcases h with rfl | hrest
    · exact Nat.le_refl offset
    · have hnext := ih hrest
      omega

section

variable {body changed rest : Bytes} {offset : Nat}

/-- Bytes that did not change are found in the same place. -/
theorem drop_eq_append_of_unchanged {front : Bytes} (h : body.drop offset = front ++ rest)
    (hsame : ∀ place, offset ≤ place → place < offset + front.length →
      changed[place]? = body[place]?) :
    changed.drop offset = front ++ changed.drop (offset + front.length) := by
  have hfront : (changed.drop offset).take front.length = front := by
    apply List.ext_getElem?
    intro index
    by_cases hindex : index < front.length
    · have hbody : (body.drop offset)[index]? = front[index]? := by
        rw [h, List.getElem?_append_left hindex]
      rw [List.getElem?_take_of_lt hindex, List.getElem?_drop, ← hbody, List.getElem?_drop]
      exact hsame _ (by omega) (by omega)
    · rw [List.getElem?_take_eq_none (by omega), List.getElem?_eq_none (by omega)]
  calc changed.drop offset
      = (changed.drop offset).take front.length ++ (changed.drop offset).drop front.length :=
        (List.take_append_drop _ _).symm
    _ = front ++ changed.drop (offset + front.length) := by rw [hfront, List.drop_drop]

/-- Where a line stood, it stands with another pointer if nothing but its pointer changed. -/
theorem exists_withPointer {line : Stored} (hbody : body.drop offset = line.bytes ++ rest)
    (hlength : changed.length = body.length)
    (hsame : ∀ place, offset + 2 ≤ place → place < offset + line.bytes.length →
      changed[place]? = body[place]?)
    (hlinked : (changed.drop offset).take 2 ≠ [0, 0]) :
    ∃ low high hword, changed.drop offset =
      (line.withPointer low high hword).bytes ++ changed.drop (offset + line.bytes.length) := by
  have hbytes := line.length_bytes
  have hsize := congrArg List.length hbody
  rw [List.length_drop, List.length_append] at hsize
  obtain ⟨low, high, tail, hchanged⟩ :
      ∃ low high tail, changed.drop offset = low :: high :: tail := by
    match hdrop : changed.drop offset with
    | low :: high :: tail => exact ⟨low, high, tail, rfl⟩
    | [] | [_] =>
      have hshort := congrArg List.length hdrop
      simp only [List.length_drop, List.length_cons, List.length_nil] at hshort
      omega
  have hword : word low high ≠ 0 := by
    intro hzero
    obtain ⟨rfl, rfl⟩ := word_eq_zero_iff.mp hzero
    exact hlinked (by rw [hchanged]; rfl)
  have hbehind : body.drop (offset + 2) = line.behindPointer ++ rest := by
    rw [← List.drop_drop, hbody]
    rfl
  have hcount : offset + 2 + line.behindPointer.length = offset + line.bytes.length := by
    rw [line.bytes_eq, List.length_cons, List.length_cons]
    omega
  have htail : tail = line.behindPointer ++ changed.drop (offset + line.bytes.length) := by
    have hafter : changed.drop (offset + 2) = tail := by
      rw [← List.drop_drop, hchanged]
      rfl
    rw [← hafter, ← hcount]
    exact drop_eq_append_of_unchanged hbehind fun place hlow hhigh =>
      hsame place hlow (hcount ▸ hhigh)
  refine ⟨low, high, hword, ?_⟩
  rw [hchanged, htail, line.bytes_withPointer, List.cons_append, List.cons_append]

/-- Where lines stood, they stand with other pointers if nothing but their pointers changed. -/
theorem exists_damage {stored : List Stored} (hbody : body.drop offset = storedBytes stored ++ rest)
    (hlength : changed.length = body.length)
    (hsame : ∀ place, offset ≤ place →
      (∀ record ∈ recordsFrom offset stored, place ≠ record.offset ∧ place ≠ record.offset + 1) →
        changed[place]? = body[place]?)
    (hlinked : ∀ record ∈ recordsFrom offset stored,
      (changed.drop record.offset).take 2 ≠ [0, 0]) :
    ∃ count others, Damage count stored others ∧
      changed.drop offset = storedBytes others ++ rest := by
  induction stored generalizing offset with
  | nil =>
    refine ⟨0, [], .nil, ?_⟩
    rw [← hbody]
    apply List.ext_getElem?
    intro index
    rw [List.getElem?_drop, List.getElem?_drop]
    exact hsame _ (by omega) (by simp [recordsFrom])
  | cons line lines ih =>
    rw [storedBytes_cons, List.append_assoc] at hbody
    have hbytes := line.length_bytes
    have hnext : offset + 5 + line.text.length = offset + line.bytes.length := by omega
    have hbehind : body.drop (offset + line.bytes.length) = storedBytes lines ++ rest := by
      rw [← List.drop_drop, hbody, List.drop_left]
    simp only [recordsFrom, List.forall_mem_cons, hnext] at hsame hlinked
    -- Every later pointer stands behind this line, and this one in front of the others.
    have hlater : ∀ record ∈ recordsFrom (offset + line.bytes.length) lines,
        offset + line.bytes.length ≤ record.offset := fun _ h => le_offset_of_mem_recordsFrom h
    obtain ⟨low, high, hword, hline⟩ := exists_withPointer hbody hlength
      (fun place hlow hhigh => hsame place (by omega)
        ⟨by change _ ≠ offset ∧ _ ≠ offset + 1; omega, fun record h => by
          have := hlater record h
          omega⟩) hlinked.1
    obtain ⟨count, others, hdamage, hothers⟩ := ih hbehind
      (fun place hplace hapart => hsame place (by omega)
        ⟨by change _ ≠ offset ∧ _ ≠ offset + 1; omega, hapart⟩) hlinked.2
    refine ⟨count + 1, line.withPointer low high hword :: others,
      .replace line low high hword hdamage, ?_⟩
    rw [storedBytes_cons, hline, hothers, List.append_assoc]

end

theorem take_append_drop_of_length {α : Type} {items others : List α} {count : Nat}
    (h : others.length = (items.take count).length) :
    (others ++ items.drop count).take count = others := by
  rw [List.length_take] at h
  by_cases hcount : count ≤ items.length
  · exact List.take_left' (by omega)
  · rw [List.drop_of_length_le (by omega), List.append_nil]
    exact List.take_of_length_le (by omega)

/-- A program is listed as before after the pointers of any records that it lists were replaced by
others that are not zero. -/
theorem lines_of_repointed (style : Style) (skip : Int) (image : Program.Image) (changed : Bytes)
    (h : Repointed (records ⟨.terminator, style, skip⟩ image) image.body changed) :
    lines ⟨.terminator, style, skip⟩ { image with body := changed } =
      lines ⟨.terminator, style, skip⟩ image := by
  obtain ⟨stored, rest, hparses⟩ := exists_parses (image.body.drop skip.toNat)
  obtain ⟨hlength, hsame, hlinked⟩ := h
  rw [hparses.records_eq style] at hsame hlinked
  have hbody : image.body.drop skip.toNat =
      storedBytes (stored.take lineLimit) ++ (storedBytes (stored.drop lineLimit) ++ rest) := by
    rw [← List.append_assoc, ← storedBytes_append, List.take_append_drop]
    exact hparses.eq_append
  obtain ⟨count, others, hdamage, hothers⟩ := exists_damage hbody hlength
    (fun place _ hapart => by
      by_cases hplace : place < image.body.length
      · exact hsame place hplace hapart
      · rw [List.getElem?_eq_none (by omega), List.getElem?_eq_none (by omega)]) hlinked
  have hchanged : Parses (changed.drop skip.toNat) (others ++ stored.drop lineLimit) rest := by
    refine ⟨?_, hparses.isRest⟩
    rw [hothers, storedBytes_append, List.append_assoc]
  have hrecords : records ⟨.terminator, style, skip⟩ { image with body := changed } =
      recordsFrom skip.toNat others := by
    rw [← take_append_drop_of_length hdamage.length_eq]
    exact hchanged.records_eq style
  rw [lines, lines, hrecords, hparses.records_eq style, map_line_recordsFrom, map_line_recordsFrom]
  exact hdamage.map_line style

def linkedImage : Program.Image :=
  ⟨0x1001, [0x07, 0x10, 10, 0, 0x80, 0, 0x0D, 0x10, 20, 0, 0x99, 0, 0, 0]⟩

def repointedBody : Bytes := [0x00, 0x10, 10, 0, 0x80, 0, 0xFF, 0x00, 20, 0, 0x99, 0, 0, 0]

theorem lines_of_repointed_linkedImage :
    Repointed (records ⟨.terminator, .strict, 0⟩ linkedImage) linkedImage.body repointedBody ∧
      lines ⟨.terminator, .strict, 0⟩ linkedImage = [⟨10, "END"⟩, ⟨20, "PRINT"⟩] ∧
      lines ⟨.terminator, .strict, 0⟩ { linkedImage with body := repointedBody } =
        [⟨10, "END"⟩, ⟨20, "PRINT"⟩] := by
  have hrecords : records ⟨.terminator, .strict, 0⟩ linkedImage =
      [⟨0, 0x1007, 10, [0x80]⟩, ⟨6, 0x100D, 20, [0x99]⟩] := by decide +kernel
  have hrepointed : Repointed (records ⟨.terminator, .strict, 0⟩ linkedImage) linkedImage.body
      repointedBody := by
    rw [hrecords]
    exact ⟨by decide, by decide, by decide⟩
  have hlines : lines ⟨.terminator, .strict, 0⟩ linkedImage = [⟨10, "END"⟩, ⟨20, "PRINT"⟩] := by
    decide +kernel
  refine ⟨hrepointed, hlines, ?_⟩
  rw [lines_of_repointed .strict 0 linkedImage repointedBody hrepointed, hlines]

end TapeSalvage.Listing
