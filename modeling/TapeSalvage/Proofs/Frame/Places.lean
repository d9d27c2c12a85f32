import TapeSalvage.Proofs.Frame.Resync
import Mathlib.Data.List.Range

/-!
The places of frames. A frame is told by its symbols alone: a marker, and behind it the pairs of the
bits of its byte. Reading the symbols from left to right meets every place where a frame stands,
since no two of them overlap, and counts every place where a marker stands.
-/
namespace TapeSalvage.Frame

open Pulse

def IsMarker (symbols : List Symbol) (place : Nat) : Prop :=
  symbols[place]? = some .long ∧
    (symbols[place + 1]? = some .short ∨ symbols[place + 1]? = some .medium)

instance (symbols : List Symbol) : DecidablePred (IsMarker symbols) :=
  fun _ => inferInstanceAs (Decidable (_ ∧ (_ ∨ _)))

/-- Whether the frame of a byte stands at a place: a marker, and behind it a pair for each bit of
the byte, the lowest bit first. -/
structure IsFrame (symbols : List Symbol) (place : Nat) (byte : UInt8) : Prop where
  marker : IsMarker symbols place
  bits : ∀ index < 8,
    (symbols.drop (place + 2 + 2 * index)).take 2 = pair (byte.toNat.testBit index)

theorem length_pair (bit : Bool) : (pair bit).length = 2 := by
  cases bit <;> rfl

/-- Symbols begin with the pairs of a number if each of its bits has its pair. -/
theorem exists_pairs_append_iff (count value : Nat) (symbols : List Symbol) :
    (∃ rest, symbols = pairs count value ++ rest) ↔
      ∀ index < count, (symbols.drop (2 * index)).take 2 = pair (value.testBit index) := by
  induction count generalizing value symbols with
  | zero => simp [pairs]
  | succ count ih =>
    have hlow : (value % 2 == 1) = value.testBit 0 := by
      rw [Nat.testBit_zero]
      rfl
    have hplace (index : Nat) : 2 + 2 * index = 2 * (index + 1) := by omega
    rw [pairs, hlow]
    constructor
    · rintro ⟨rest, rfl⟩ index hindex
      rw [List.append_assoc]
      cases index with
      | zero => rw [Nat.mul_zero, List.drop_zero, List.take_left' (length_pair _)]
      | succ index =>
        rw [← hplace, ← List.drop_drop, List.drop_left' (length_pair _), Nat.testBit_succ]
        exact (ih _ _).mp ⟨rest, rfl⟩ index (by omega)
    · intro h
      obtain ⟨rest, hrest⟩ := (ih (value / 2) (symbols.drop 2)).mpr fun index hindex => by
        rw [List.drop_drop, hplace, ← Nat.testBit_succ]
        exact h (index + 1) (by omega)
      have hfirst := h 0 (by omega)
      rw [Nat.mul_zero, List.drop_zero] at hfirst
      exact ⟨rest, by rw [← hfirst, List.append_assoc, ← hrest, List.take_append_drop]⟩

theorem isMarker_iff_drop (symbols : List Symbol) (place : Nat) :
    IsMarker symbols place ↔ ∃ mark, (mark = .short ∨ mark = .medium) ∧
      symbols.drop place = .long :: mark :: symbols.drop (place + 2) := by
  constructor
  · rintro ⟨hlong, hnext⟩
    obtain ⟨mark, hmark, hplace⟩ :
        ∃ mark, (mark = .short ∨ mark = .medium) ∧ symbols[place + 1]? = some mark := by
      rcases hnext with hshort | hmedium
      · exact ⟨.short, Or.inl rfl, hshort⟩
      · exact ⟨.medium, Or.inr rfl, hmedium⟩
    refine ⟨mark, hmark, ?_⟩
    rw [List.drop_eq_getElem?_toList_append, hlong, List.drop_eq_getElem?_toList_append, hplace]
    rfl
  · rintro ⟨mark, hmark, hdrop⟩
    have hlong : (symbols.drop place)[0]? = some .long := by rw [hdrop]; rfl
    have hnext : (symbols.drop place)[1]? = some mark := by rw [hdrop]; rfl
    rw [List.getElem?_drop] at hlong hnext
    refine ⟨hlong, ?_⟩
    rw [hnext]
    rcases hmark with rfl | rfl
    · exact Or.inl rfl
    · exact Or.inr rfl

/-- What is read at a place is the frame that stands there. -/
theorem byteAt?_drop_eq_some_iff (symbols : List Symbol) (place : Nat) (byte : UInt8) :
    byteAt? (symbols.drop place) = some byte ↔ IsFrame symbols place byte := by
  have hpairs := exists_pairs_append_iff 8 byte.toNat (symbols.drop (place + 2))
  simp only [List.drop_drop] at hpairs
  rw [byteAt?_eq_some_iff]
  constructor
  · rintro ⟨mark, rest, hmark, hdrop⟩
    have hbehind : symbols.drop (place + 2) = pairs 8 byte.toNat ++ rest := by
      rw [← List.drop_drop, hdrop]
      rfl
    refine ⟨(isMarker_iff_drop symbols place).mpr ⟨mark, hmark, ?_⟩, hpairs.mp ⟨rest, hbehind⟩⟩
    rw [hdrop, hbehind]
  · rintro ⟨hmarker, hbits⟩
    obtain ⟨mark, hmark, hdrop⟩ := (isMarker_iff_drop symbols place).mp hmarker
    obtain ⟨rest, hrest⟩ := hpairs.mpr hbits
    exact ⟨mark, rest, hmark, by rw [hdrop, hrest]⟩

theorem isMarked_iff (symbols : List Symbol) :
    isMarked symbols = true ↔ ∃ mark rest, (mark = .short ∨ mark = .medium) ∧
      symbols = .long :: mark :: rest ∧ 16 ≤ rest.length := by
  constructor
  · intro h
    obtain ⟨mark, rest, hmark, rfl⟩ := mark_of_isMarked symbols h
    refine ⟨mark, rest, hmark, rfl, ?_⟩
    rcases hmark with rfl | rfl <;> exact (holds_iff 16 rest).mp h
  · rintro ⟨mark, rest, hmark, rfl, hlength⟩
    rcases hmark with rfl | rfl <;> exact (holds_iff 16 rest).mpr hlength

theorem isMarked_drop_iff (symbols : List Symbol) (place : Nat) :
    isMarked (symbols.drop place) = true ↔
      place + size ≤ symbols.length ∧ IsMarker symbols place := by
  rw [isMarked_iff, isMarker_iff_drop]
  constructor
  · rintro ⟨mark, rest, hmark, hdrop, hlength⟩
    have hrest : symbols.drop (place + 2) = rest := by
      rw [← List.drop_drop, hdrop]
      rfl
    rw [← hrest, List.length_drop] at hlength
    refine ⟨?_, mark, hmark, by rw [hrest, hdrop]⟩
    unfold size
    omega
  · rintro ⟨hfits, mark, hmark, hdrop⟩
    refine ⟨mark, _, hmark, hdrop, ?_⟩
    unfold size at hfits
    rw [List.length_drop]
    omega

def marked (symbols : List Symbol) : Nat := symbols.tails.countP isMarked

theorem marked_cons (symbol : Symbol) (rest : List Symbol) :
    marked (symbol :: rest) = (isMarked (symbol :: rest)).toNat + marked rest := by
  rw [marked, List.tails_cons, List.countP_cons, Nat.add_comm]
  cases isMarked (symbol :: rest) <;> rfl

theorem isMarked_eq_false_of_ne_long (symbol : Symbol) (rest : List Symbol) (h : symbol ≠ .long) :
    isMarked (symbol :: rest) = false := by
  rw [Bool.eq_false_iff]
  intro hmarked
  obtain ⟨mark, after, _, heq⟩ := mark_of_isMarked _ hmarked
  exact h (List.cons.inj heq).1

/-- No marker stands where there is no long symbol. -/
theorem marked_drop (count : Nat) (symbols : List Symbol) (h : Symbol.long ∉ symbols.take count) :
    marked (symbols.drop count) = marked symbols := by
  induction count generalizing symbols with
  | zero => rfl
  | succ count ih =>
    cases symbols with
    | nil => rfl
    | cons symbol rest =>
      simp only [List.take_succ_cons, List.mem_cons, not_or] at h
      rw [marked_cons, isMarked_eq_false_of_ne_long symbol rest (Ne.symm h.1), Bool.toNat_false,
        Nat.zero_add]
      exact ih rest h.2

/-- Reading counts all markers: there are none in the symbols of a frame that are skipped. -/
theorem markers_decodeFrom (skip : Nat) (done : Decoded) (symbols : List Symbol) :
    (decodeFrom skip done symbols).markers = done.markers + marked (symbols.drop skip) := by
  induction symbols generalizing skip done with
  | nil => simp [decodeFrom, marked, isMarked]
  | cons symbol rest ih =>
    cases skip with
    | succ skip => exact ih skip done
    | zero =>
      rw [List.drop_zero, marked_cons, decodeFrom]
      split
      · rename_i hmarked
        rw [hmarked]
        cases hbyte : byteAt? (symbol :: rest) with
        | some byte =>
          have hinside := long_notMem_of_byteAt? symbol rest byte hbyte
          dsimp only
          rw [ih, marked_drop (size - 1) rest hinside]
          exact Nat.add_assoc _ _ _
        | none =>
          dsimp only
          rw [ih]
          exact Nat.add_assoc _ _ _
      · rename_i hmarked
        rw [Bool.eq_false_iff.mpr hmarked, Bool.toNat_false, Nat.zero_add, ih]
        rfl

/-- Every marker met gives a byte or is rejected. -/
theorem markers_eq_of_decodeFrom (skip : Nat) (done : Decoded) (symbols : List Symbol)
    (h : done.markers = done.rejected + done.bytes.length) :
    (decodeFrom skip done symbols).markers =
      (decodeFrom skip done symbols).rejected + (decodeFrom skip done symbols).bytes.length := by
  fun_induction decodeFrom skip done symbols with
  | case1 skip done => simpa using h
  | case2 skip done symbol rest ih => exact ih h
  | case3 done symbol rest hmarked byte hbyte ih =>
    apply ih
    simp only [List.length_cons]
    omega
  | case4 done symbol rest hmarked hbyte ih =>
    apply ih
    dsimp only
    omega
  | case5 done symbol rest hmarked ih => exact ih h

theorem tails_eq_map_drop (symbols : List Symbol) :
    symbols.tails = (List.range (symbols.length + 1)).map symbols.drop := by
  apply List.ext_getElem
  · simp
  · intro place hplace _
    rw [List.getElem_tails, List.getElem_map, List.getElem_range]

theorem marked_eq_countP (symbols : List Symbol) :
    marked symbols = (List.range symbols.length).countP fun place =>
      place + size ≤ symbols.length ∧ IsMarker symbols place := by
  have hend : isMarked (symbols.drop symbols.length) = false := by
    rw [List.drop_length]
    rfl
  rw [marked, tails_eq_map_drop, List.countP_map, List.range_succ, List.countP_append,
    List.countP_singleton, Function.comp_apply, hend, if_neg Bool.false_ne_true, Nat.add_zero]
  apply List.countP_congr
  intro place _
  rw [Function.comp_apply, isMarked_drop_iff, decide_eq_true_iff]

/-- The places of the frames among the symbols, each with its byte, from left to right. -/
def frames (symbols : List Symbol) : List (Nat × UInt8) :=
  (List.range (symbols.length + 1)).filterMap fun place =>
    (byteAt? (symbols.drop place)).map fun byte => (place, byte)

theorem mem_frames_iff (symbols : List Symbol) (place : Nat) (byte : UInt8) :
    (place, byte) ∈ frames symbols ↔
      place + size ≤ symbols.length ∧ IsFrame symbols place byte := by
  rw [frames, List.mem_filterMap, ← byteAt?_drop_eq_some_iff]
  constructor
  · rintro ⟨found, _, hfound⟩
    obtain ⟨value, hvalue, heq⟩ := Option.map_eq_some_iff.mp hfound
    obtain ⟨rfl, rfl⟩ := Prod.mk.inj heq
    have hmarked : isMarked (symbols.drop found) = true := by
      by_contra hnot
      rw [byteAt?, if_neg hnot] at hvalue
      contradiction
    exact ⟨((isMarked_drop_iff symbols found).mp hmarked).1, hvalue⟩
  · rintro ⟨hfits, hbyte⟩
    refine ⟨place, ?_, by rw [hbyte]; rfl⟩
    rw [List.mem_range]
    omega

theorem map_snd_frames (symbols : List Symbol) : (frames symbols).map (·.2) = placed symbols := by
  rw [frames, List.map_filterMap, placed, tails_eq_map_drop, List.filterMap_map]
  apply List.filterMap_congr
  intro place _
  rw [Function.comp_apply]
  cases byteAt? (symbols.drop place) <;> rfl

/-- A frame ends before the next one begins, since its symbols behind the first are not long. -/
theorem le_of_isFrame {symbols : List Symbol} {place next : Nat} {byte other : UInt8}
    (h : IsFrame symbols place byte) (hnext : IsFrame symbols next other) (hlt : place < next) :
    place + size ≤ next := by
  by_contra hinside
  have hbyte := (byteAt?_drop_eq_some_iff symbols place byte).mpr h
  have hdrop : symbols.drop place = .long :: symbols.drop (place + 1) := by
    rw [List.drop_eq_getElem?_toList_append, h.marker.1]
    rfl
  rw [hdrop] at hbyte
  apply long_notMem_of_byteAt? _ _ _ hbyte
  apply List.mem_of_getElem? (i := next - (place + 1))
  have hbound : next - (place + 1) < size - 1 := by
    unfold size at hinside ⊢
    omega
  have hplace : place + 1 + (next - (place + 1)) = next := by omega
  rw [List.getElem?_take_of_lt hbound, List.getElem?_drop, hplace]
  exact hnext.marker.1

theorem pairwise_frames (symbols : List Symbol) :
    (frames symbols).Pairwise fun first second => first.1 + size ≤ second.1 := by
  rw [frames, List.pairwise_filterMap]
  refine List.pairwise_lt_range.imp ?_
  intro place next hlt first hfirst second hsecond
  obtain ⟨byte, hbyte, rfl⟩ := Option.map_eq_some_iff.mp hfirst
  obtain ⟨other, hother, rfl⟩ := Option.map_eq_some_iff.mp hsecond
  rw [byteAt?_drop_eq_some_iff] at hbyte hother
  exact le_of_isFrame hbyte hother hlt

/-- Reading gives the bytes of all frames that stand anywhere among the symbols, from left to right,
no two of which overlap. It counts every place where a marker stands, with symbols for a whole frame
from there on, and rejects those of them where no frame stands. -/
theorem decode_frames (symbols : List Symbol) :
    ∃ found : List (Nat × UInt8),
      (∀ place byte, (place, byte) ∈ found ↔
        place + size ≤ symbols.length ∧ IsFrame symbols place byte) ∧
      found.Pairwise (fun first second => first.1 + size ≤ second.1) ∧
      (decode symbols).bytes = found.map (·.2) ∧
      (decode symbols).markers = (List.range symbols.length).countP (fun place =>
        place + size ≤ symbols.length ∧ IsMarker symbols place) ∧
      (decode symbols).markers = (decode symbols).rejected + (decode symbols).bytes.length := by
  refine ⟨frames symbols, mem_frames_iff symbols, pairwise_frames symbols, ?_, ?_, ?_⟩
  · rw [bytes_decode, map_snd_frames]
  · rw [decode, markers_decodeFrom, Nat.zero_add, List.drop_zero, marked_eq_countP]
  · exact markers_eq_of_decodeFrom 0 ⟨[], 0, 0⟩ symbols rfl

end TapeSalvage.Frame
