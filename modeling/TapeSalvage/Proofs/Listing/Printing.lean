import TapeSalvage.Listing.Line
import TapeSalvage.Proofs.Text.Squeezing

/-!
Which characters a line is spelt with. Keywords, numbers in braces and characters of the machine are
all written with printable characters, of which the space alone is blank.
-/
namespace TapeSalvage.Listing

def IsPrintable (c : Char) : Prop := 0x20 ≤ c.toNat ∧ c.toNat ≤ 0x7E

instance (c : Char) : Decidable (IsPrintable c) := inferInstanceAs (Decidable (_ ∧ _))

theorem isPrintable_ofNat {code : Nat} (h : 0x20 ≤ code) (htop : code ≤ 0x7E) :
    IsPrintable (Char.ofNat code) := by
  have hvalid : code.isValidChar := Or.inl (by omega)
  have hcode : (Char.ofNat code).toNat = code := by
    rw [Char.ofNat, dif_pos hvalid]
    rfl
  rw [IsPrintable, hcode]
  exact ⟨h, htop⟩

theorem beq_space_eq (c : Char) : (c == ' ') = (c.toNat == 0x20) := by
  rw [Bool.eq_iff_iff, beq_iff_eq, beq_iff_eq, Char.ext_iff, ← UInt32.toNat_inj]
  rfl

/-- Of the printable characters the space is the only blank one. -/
theorem isBlank_of_isPrintable {c : Char} (h : IsPrintable c) : Text.isBlank c = (c == ' ') := by
  obtain ⟨hlow, hhigh⟩ := h
  rw [beq_space_eq, Text.isBlank, Bool.eq_iff_iff]
  simp only [Bool.or_eq_true, Bool.and_eq_true, decide_eq_true_eq, beq_iff_eq]
  omega

theorem isPrintable_of_mem_glyph {style : Style} {byte : UInt8} {c : Char}
    (h : c ∈ glyph style byte) : IsPrintable c := by
  unfold glyph at h
  split_ifs at h with _ _ _ hletter hplain
  · obtain rfl := List.mem_singleton.mp h
    decide
  · obtain rfl := List.mem_singleton.mp h
    decide
  · contradiction
  · simp only [Bool.and_eq_true, decide_eq_true_eq] at hletter
    have hlow := UInt8.le_iff_toNat_le.mp hletter.1.2
    have hhigh := UInt8.le_iff_toNat_le.mp hletter.2
    change 0xC1 ≤ byte.toNat at hlow
    change byte.toNat ≤ 0xDA at hhigh
    rw [List.mem_singleton.mp h]
    exact isPrintable_ofNat (by omega) (by omega)
  · rw [Bool.and_eq_true, decide_eq_true_eq, decide_eq_true_eq] at hplain
    rw [List.mem_singleton.mp h]
    exact isPrintable_ofNat (UInt8.le_iff_toNat_le.mp hplain.1) (UInt8.le_iff_toNat_le.mp hplain.2)
  · obtain rfl := List.mem_singleton.mp h
    decide

def figures : List Char := "0123456789ABCDEF".toList

def bracedFigures (byte : UInt8) : List Char :=
  ['\x7b', figures.getD (byte.toNat / 16) '0', figures.getD (byte.toNat % 16) '0', '\x7d']

theorem toUpper_digitChar :
    ∀ digit < 16, (Nat.digitChar digit).toUpper = figures.getD digit '0' := by
  decide

theorem hexDigits_of_two {value : Nat} (h : 16 ≤ value) (htop : value < 256) :
    Text.hexDigits value = [figures.getD (value / 16) '0', figures.getD (value % 16) '0'] := by
  have hdigits : Nat.toDigits 16 value = [(value / 16).digitChar, (value % 16).digitChar] := by
    rw [Nat.toDigits_of_base_le (by decide) h, Nat.toDigits_of_lt_base (by omega)]
    rfl
  rw [Text.hexDigits, hdigits, List.map_cons, List.map_singleton, toUpper_digitChar _ (by omega),
    toUpper_digitChar _ (by omega)]

theorem keyword?_of_le {byte : UInt8} (h : 0x80 ≤ byte) :
    keyword? byte = keywords[byte.toNat - 0x80]? :=
  if_neg (Nat.not_lt.mpr (UInt8.le_iff_toNat_le.mp h))

/-- A byte past those of the keywords is written as a number. -/
theorem token_of_le {byte : UInt8} (h : 0xCC ≤ byte) : token byte = bracedFigures byte := by
  have hlow : 0xCC ≤ byte.toNat := UInt8.le_iff_toNat_le.mp h
  have hnone : keyword? byte = none := by
    rw [keyword?_of_le (UInt8.le_trans (by decide) h), List.getElem?_eq_none_iff]
    change 76 ≤ _
    omega
  have hhex : (Text.hex 2 byte.toNat).toList = Text.hexDigits byte.toNat := by
    rw [Text.hex, String.toList_ofList, if_neg (by omega), List.nil_append, Int.natAbs_natCast,
      hexDigits_of_two (by omega) byte.toNat_lt]
    rfl
  rw [token, hnone]
  dsimp only
  rw [hhex, hexDigits_of_two (by omega) byte.toNat_lt]
  rfl

/-- The bytes from the first keyword to the last are written as keywords. -/
theorem token_of_lt {byte : UInt8} (h : 0x80 ≤ byte) (hlast : byte < 0xCC) :
    token byte = (keywords.getD (byte.toNat - 0x80) "").toList := by
  have hlt : byte.toNat < 0xCC := UInt8.lt_iff_toNat_lt.mp hlast
  have hlength : byte.toNat - 0x80 < keywords.length := by
    change _ < 76
    omega
  rw [token, keyword?_of_le h, List.getElem?_eq_getElem hlength, List.getD_eq_getElem?_getD,
    List.getElem?_eq_getElem hlength]
  rfl

theorem isPrintable_of_mem_keywords {keyword : String} (h : keyword ∈ keywords) {c : Char}
    (hc : c ∈ keyword.toList) : IsPrintable c := by
  have hall : keywords.all (·.toList.all fun c => decide (IsPrintable c)) = true := by decide
  exact of_decide_eq_true (List.all_eq_true.mp (List.all_eq_true.mp hall keyword h) c hc)

theorem isPrintable_of_mem_bracedFigures {byte : UInt8} {c : Char} (h : c ∈ bracedFigures byte) :
    IsPrintable c := by
  have hfigure : ∀ digit < 16, IsPrintable (figures.getD digit '0') := by decide
  have hbyte := byte.toNat_lt
  simp only [bracedFigures, List.mem_cons, List.not_mem_nil, or_false] at h
  rcases h with rfl | rfl | rfl | rfl
  · decide
  · exact hfigure _ (by omega)
  · exact hfigure _ (by omega)
  · decide

theorem isPrintable_of_mem_token {byte : UInt8} {c : Char} (hbyte : 0x80 ≤ byte)
    (h : c ∈ token byte) : IsPrintable c := by
  rcases UInt8.lt_or_le byte 0xCC with hlast | hlast
  · have hlt : byte.toNat < 0xCC := UInt8.lt_iff_toNat_lt.mp hlast
    have hlength : byte.toNat - 0x80 < keywords.length := by
      change _ < 76
      omega
    rw [token_of_lt hbyte hlast, List.getD_eq_getElem?_getD, List.getElem?_eq_getElem hlength] at h
    exact isPrintable_of_mem_keywords (List.getElem_mem hlength) h
  · rw [token_of_le hlast] at h
    exact isPrintable_of_mem_bracedFigures h

/-- A line is spelt with printable characters only. -/
theorem isPrintable_of_mem_spell {style : Style} {isQuoted : Bool} {byte : UInt8} {c : Char}
    (h : c ∈ spell style isQuoted byte) : IsPrintable c := by
  unfold spell at h
  split_ifs at h with hquote htoken
  · obtain rfl := List.mem_singleton.mp h
    decide
  · rw [Bool.and_eq_true, decide_eq_true_eq] at htoken
    exact isPrintable_of_mem_token htoken.2 h
  · exact isPrintable_of_mem_glyph h

end TapeSalvage.Listing
