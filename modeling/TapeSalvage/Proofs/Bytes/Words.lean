import TapeSalvage.Bytes

/-!
Words and zero bytes in byte strings. Every word is read back from its two bytes, and the bytes of a
word that was read are those it was read from. What is found at a place is said by the bytes from
there on: a word where two bytes stand, and the first zero byte of a window behind a text without
one.
-/
namespace TapeSalvage

/-- A word is zero only if both its bytes are. -/
theorem word_eq_zero_iff {low high : UInt8} : word low high = 0 ↔ low = 0 ∧ high = 0 := by
  rw [← UInt8.toNat_inj, ← UInt8.toNat_inj, UInt8.toNat_zero, word]
  omega

theorem word_ofNat {value : Nat} (h : value < 65536) :
    word (UInt8.ofNat value) (UInt8.ofNat (value / 256)) = value := by
  have hnumber := Bytes.number_ofNumber 2 value
  rw [Nat.mod_eq_of_lt (show value < Nat.pow 256 2 from h)] at hnumber
  exact hnumber

theorem Bytes.ofWord_natCast {value : Nat} (h : value < 65536) :
    ofWord value = [UInt8.ofNat value, UInt8.ofNat (value / 256)] := by
  have hreduced : ((value : Int) % 65536).toNat = value := by omega
  rw [ofWord, hreduced]
  rfl

theorem Bytes.ofWord_word (low high : UInt8) : ofWord (word low high) = [low, high] := by
  have hlow := low.toNat_lt
  have hhigh := high.toNat_lt
  have hfirst : UInt8.ofNat (word low high) = low := by
    apply UInt8.toNat_inj.mp
    rw [UInt8.toNat_ofNat', word]
    omega
  have hsecond : UInt8.ofNat (word low high / 256) = high := by
    apply UInt8.toNat_inj.mp
    rw [UInt8.toNat_ofNat', word]
    omega
  rw [ofWord_natCast (word_lt low high), hfirst, hsecond]

namespace Bytes

variable {data back : Bytes} {offset : Nat}

theorem drop_add_of_drop (front : Bytes) (h : data.drop offset = front ++ back) :
    data.drop (offset + front.length) = back := by
  rw [← List.drop_drop, h]
  exact List.drop_left

/-- A word is read where two bytes stand. -/
theorem wordAt_of_drop {low high : UInt8} (h : data.drop offset = low :: high :: back) :
    data.wordAt offset = .ok (word low high) := by
  have hplace : (offset : Int).toNat = offset := Int.toNat_natCast offset
  have hinside : ¬ (offset : Int) < 0 := by omega
  unfold wordAt
  rw [hplace, h]
  exact if_neg hinside

theorem wordAt_add_two_of_drop {first second low high : UInt8}
    (h : data.drop offset = first :: second :: low :: high :: back) :
    data.wordAt (offset + 2) = .ok (word low high) := by
  have hnext : data.drop (offset + 2) = low :: high :: back :=
    drop_add_of_drop [first, second] h
  have hword : data.wordAt (offset + 2 : Nat) = .ok (word low high) := wordAt_of_drop hnext
  exact hword

theorem isZero_iff (byte : UInt8) : ((byte.toNat : Int) == 0) = true ↔ byte = 0 := by
  rw [beq_iff_eq, Int.natCast_eq_zero, ← UInt8.toNat_inj]
  rfl

/-- The first zero byte of a window stands behind a text without one. -/
theorem position?_eq_some {start : Nat} {stop : Int} {text after : Bytes}
    (h : (data.drop start).take (stop.toNat - start) = text ++ 0 :: after) (hclean : 0 ∉ text) :
    data.position? 0 start stop = some (start + text.length) := by
  have hfind : (text ++ 0 :: after).findIdx? (fun byte => (byte.toNat : Int) == 0) =
      some text.length := by
    rw [List.findIdx?_eq_some_iff_getElem]
    refine ⟨by simp, by simp, ?_⟩
    intro index hindex hzero
    rw [isZero_iff, List.getElem_append_left hindex] at hzero
    exact hclean (hzero ▸ List.getElem_mem hindex)
  unfold position?
  dsimp only
  rw [Int.toNat_natCast, List.drop_take, h, hfind]
  exact congrArg some (Nat.add_comm _ _)

theorem position?_eq_none {start : Nat} {stop : Int}
    (h : 0 ∉ (data.drop start).take (stop.toNat - start)) :
    data.position? 0 start stop = none := by
  have hfind : ((data.drop start).take (stop.toNat - start)).findIdx?
      (fun byte => (byte.toNat : Int) == 0) = none := by
    rw [List.findIdx?_eq_none_iff]
    intro byte hbyte
    rw [← Bool.not_eq_true, isZero_iff]
    rintro rfl
    exact h hbyte
  unfold position?
  dsimp only
  rw [Int.toNat_natCast, List.drop_take, hfind]
  rfl

end Bytes

end TapeSalvage
