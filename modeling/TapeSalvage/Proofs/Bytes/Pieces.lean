import TapeSalvage.Bytes

/-!
Byte strings that are made of pieces and a rest. If what begins with no piece is a rest, every
string is made of pieces and a rest; if besides no rest begins with a piece, and the end of a piece
is told by the piece, it is so in one way only.
-/
namespace TapeSalvage.Bytes

variable {ι : Type} {bytes : ι → Bytes} {IsRest : Bytes → Prop}

theorem exists_pieces (hpositive : ∀ piece, 0 < (bytes piece).length)
    (hcases : ∀ data, IsRest data ∨ ∃ piece rest, data = bytes piece ++ rest) (data : Bytes) :
    ∃ (pieces : List ι) (rest : Bytes), data = pieces.flatMap bytes ++ rest ∧ IsRest rest := by
  induction hsize : data.length using Nat.strongRecOn generalizing data with
  | ind size ih =>
    rcases hcases data with hrest | ⟨piece, behind, rfl⟩
    · exact ⟨[], data, rfl, hrest⟩
    · have hpiece := hpositive piece
      rw [List.length_append] at hsize
      obtain ⟨pieces, rest, heq, hrest⟩ := ih behind.length (by omega) behind rfl
      refine ⟨piece :: pieces, rest, ?_, hrest⟩
      rw [List.flatMap_cons, List.append_assoc, ← heq]

theorem pieces_unique
    (hinj : ∀ {piece other rest last}, bytes piece ++ rest = bytes other ++ last →
      piece = other ∧ rest = last)
    (hnone : ∀ piece rest, ¬ IsRest (bytes piece ++ rest)) {pieces others : List ι}
    {rest last : Bytes} (h : pieces.flatMap bytes ++ rest = others.flatMap bytes ++ last)
    (hrest : IsRest rest) (hlast : IsRest last) : others = pieces ∧ last = rest := by
  induction pieces generalizing others with
  | nil =>
    cases others with
    | nil => exact ⟨rfl, h.symm⟩
    | cons other others =>
      obtain rfl : rest = (other :: others).flatMap bytes ++ last := h
      rw [List.flatMap_cons, List.append_assoc] at hrest
      exact absurd hrest (hnone other _)
  | cons piece pieces ih =>
    rw [List.flatMap_cons, List.append_assoc] at h
    cases others with
    | nil =>
      obtain rfl : _ = last := h
      exact absurd hlast (hnone piece _)
    | cons other others =>
      rw [List.flatMap_cons, List.append_assoc] at h
      obtain ⟨rfl, hbehind⟩ := hinj h
      obtain ⟨rfl, rfl⟩ := ih hbehind
      exact ⟨rfl, rfl⟩

end TapeSalvage.Bytes
