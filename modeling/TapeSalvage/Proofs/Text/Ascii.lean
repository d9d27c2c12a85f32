import TapeSalvage.Text.Utf8

/-!
Plain texts as bytes. Each plain character is one byte, which begins no sequence, so that a plain
text is read back as it was written.
-/
namespace TapeSalvage.Text

theorem utf8EncodeChar_of_lt {c : Char} (h : c.toNat < 128) :
    String.utf8EncodeChar c = [UInt8.ofNat c.toNat] := by
  have hle : c.toNat ≤ 127 := Nat.le_of_lt_succ h
  simp [String.utf8EncodeChar, hle]

/-- A plain character is read when no sequence is under way. -/
theorem step_of_lt {c : Char} (h : c.toNat < 128) (done : List Char) :
    Reader.step ⟨done, none⟩ (UInt8.ofNat c.toNat) = ⟨c :: done, none⟩ := by
  have hcode : (UInt8.ofNat c.toNat).toNat = c.toNat := by
    rw [UInt8.toNat_ofNat']
    omega
  change Reader.start done (UInt8.ofNat c.toNat).toNat = _
  rw [hcode, Reader.start, lead, if_pos h, Char.ofNat_toNat]

theorem foldl_step_flatMap {chars : List Char} (h : ∀ c ∈ chars, c.toNat < 128)
    (done : List Char) :
    (chars.flatMap String.utf8EncodeChar).foldl Reader.step ⟨done, none⟩ =
      ⟨chars.reverse ++ done, none⟩ := by
  induction chars generalizing done with
  | nil => rfl
  | cons c rest ih =>
    obtain ⟨hc, hrest⟩ := List.forall_mem_cons.mp h
    rw [List.flatMap_cons, utf8EncodeChar_of_lt hc, List.foldl_append, List.foldl_cons,
      List.foldl_nil, step_of_lt hc, ih hrest, List.reverse_cons, List.append_assoc]
    rfl

/-- A plain text is read back from its bytes. -/
theorem decode_encode {text : String} (h : ∀ c ∈ text.toList, c.toNat < 128) :
    decode (encode text) = text := by
  rw [decode, encode, foldl_step_flatMap h, Reader.finish, List.append_nil, List.reverse_reverse,
    String.ofList_toList]

end TapeSalvage.Text
