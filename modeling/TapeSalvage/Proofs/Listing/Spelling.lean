import Mathlib.Data.List.TakeWhile
import TapeSalvage.Proofs.Listing.Printing

/-!
How a line is spelt. The quotes before a byte tell whether it stands inside quotes, so the text of a
line is put together from the texts of its bytes, each by the bytes before it. A line whose quotes
are all closed may be cut off and spelt alone.
-/
namespace TapeSalvage.Listing

/-- The text of a byte of a line, by the bytes before it: behind an even number of quotes, a byte
with its top bit set is a keyword or, past the last keyword, a number in braces. -/
def textBehind (style : Style) (before : Bytes) (byte : UInt8) : List Char :=
  if byte = 0x22 then ['"']
  else if 0x80 ≤ byte ∧ before.count 0x22 % 2 = 0 then
    if byte < 0xCC then (keywords.getD (byte.toNat - 0x80) "").toList else bracedFigures byte
  else glyph style byte

def spelling (style : Style) (line : Bytes) : List Char :=
  (line.mapIdx fun place byte => textBehind style (line.take place) byte).flatten

theorem textBehind_eq (style : Style) (before : Bytes) (byte : UInt8) :
    textBehind style before byte = spell style (decide (before.count 0x22 % 2 = 1)) byte := by
  have hcode : (!decide (before.count 0x22 % 2 = 1) && decide (0x80 ≤ byte)) = true ↔
      0x80 ≤ byte ∧ before.count 0x22 % 2 = 0 := by
    simp only [Bool.and_eq_true, Bool.not_eq_true', decide_eq_false_iff_not, decide_eq_true_eq]
    constructor
    · rintro ⟨heven, htop⟩
      exact ⟨htop, by omega⟩
    · rintro ⟨htop, heven⟩
      exact ⟨by omega, htop⟩
  unfold textBehind spell
  by_cases hquote : byte = 0x22
  · rw [if_pos hquote, if_pos hquote]
  · rw [if_neg hquote, if_neg hquote]
    by_cases htoken : 0x80 ≤ byte ∧ before.count 0x22 % 2 = 0
    · rw [if_pos htoken, if_pos (hcode.mpr htoken)]
      rcases UInt8.lt_or_le byte 0xCC with hlast | hlast
      · rw [if_pos hlast, token_of_lt htoken.1 hlast]
      · rw [if_neg (UInt8.not_lt.mpr hlast), token_of_le hlast]
    · rw [if_neg htoken, if_neg (mt hcode.mp htoken)]

/-- The pen is inside quotes behind an odd number of them, and has written the texts of all
bytes. -/
theorem foldl_write (style : Style) (before line : Bytes) (written : List Char) :
    line.foldl (Pen.write style) ⟨decide (before.count 0x22 % 2 = 1), written⟩ =
      ⟨decide ((before ++ line).count 0x22 % 2 = 1),
        (line.mapIdx fun place byte =>
          textBehind style (before ++ line.take place) byte).flatten.reverse ++ written⟩ := by
  induction line generalizing before written with
  | nil => simp
  | cons byte rest ih =>
    have hparity : (decide (before.count 0x22 % 2 = 1) ^^ byte == 0x22) =
        decide ((before ++ [byte]).count 0x22 % 2 = 1) := by
      rw [List.count_append, List.count_singleton]
      by_cases hquote : byte = 0x22
      · subst hquote
        rw [Bool.eq_iff_iff]
        simp only [beq_self_eq_true, Bool.xor_true, Bool.not_eq_true', decide_eq_false_iff_not,
          decide_eq_true_eq, if_true]
        omega
      · have hne : (byte == 0x22) = false := beq_eq_false_iff_ne.mpr hquote
        rw [hne, Bool.xor_false, if_neg Bool.false_ne_true, Nat.add_zero]
    rw [List.foldl_cons, Pen.write, hparity, ih, List.append_assoc, List.mapIdx_cons,
      List.flatten_cons, List.reverse_append, List.reverseAux_eq, ← textBehind_eq]
    simp only [List.singleton_append, List.take_succ_cons, List.take_zero, List.append_nil,
      List.append_assoc]

/-- A pen outside quotes writes the texts of the bytes of a line behind what it has written. -/
theorem written_foldl_write (style : Style) (line : Bytes) (written : List Char) :
    (line.foldl (Pen.write style) ⟨false, written⟩).written =
      (spelling style line).reverse ++ written :=
  congrArg Pen.written (foldl_write style [] line written)

theorem spellLine_eq (style : Style) (body : Bytes) :
    spellLine style body = spelling style (body.takeWhile (· != 0)) := by
  rw [spellLine, written_foldl_write, List.append_nil, List.reverse_reverse]

/-- Behind closed quotes a line is spelt as if it began there. -/
theorem spelling_append {style : Style} {line : Bytes} (h : line.count 0x22 % 2 = 0)
    (rest : Bytes) :
    spelling style (line ++ rest) = spelling style line ++ spelling style rest := by
  have hpen := foldl_write style [] line []
  have hclosed : decide (([] ++ line).count 0x22 % 2 = 1) = false := by
    rw [List.nil_append, h]
    rfl
  rw [hclosed] at hpen
  change line.foldl (Pen.write style) ⟨false, []⟩ =
    ⟨false, (spelling style line).reverse ++ []⟩ at hpen
  have hwritten := written_foldl_write style (line ++ rest) []
  rw [List.foldl_append, hpen, written_foldl_write, List.append_nil, List.append_nil] at hwritten
  rw [← List.reverse_reverse (spelling style (line ++ rest)), ← hwritten, List.reverse_append,
    List.reverse_reverse, List.reverse_reverse]

theorem isPrintable_of_mem_spelling {style : Style} {line : Bytes} {c : Char}
    (h : c ∈ spelling style line) : IsPrintable c := by
  obtain ⟨text, htext, hc⟩ := List.mem_flatten.mp h
  obtain ⟨place, hplace, rfl⟩ := List.mem_mapIdx.mp htext
  rw [textBehind_eq] at hc
  exact isPrintable_of_mem_spell hc

/-- The words of a printable text are what stands between its spaces and is not empty. -/
theorem squeeze_of_isPrintable {text : List Char} (h : ∀ c ∈ text, IsPrintable c) :
    Text.squeeze text =
      [' '].intercalate ((text.splitOn ' ').filter fun part => !part.isEmpty) := by
  have hspaces : ∀ c ∈ text, Text.isBlank c = (c == ' ') :=
    fun c hc => isBlank_of_isPrintable (h c hc)
  rw [Text.squeeze, Text.words_eq_filter_splitOnP, Text.splitOnP_congr hspaces,
    List.splitOn_eq_splitOnP]

/-- The text of a line is the texts of the bytes before its first zero byte, each by the quotes
before it; in the strict style the words of that, joined by single spaces. In the layout style the
text of a line without an open quote stands in front of the text of what follows. -/
theorem lineText_spelling (body : Bytes) :
    lineText .layout body = String.ofList (spelling .layout (body.takeWhile (· != 0))) ∧
    lineText .strict body = String.ofList ([' '].intercalate
      (((spelling .strict (body.takeWhile (· != 0))).splitOn ' ').filter
        fun part => !part.isEmpty)) ∧
    (0 ∉ body → body.count 0x22 % 2 = 0 → ∀ rest,
      lineText .layout (body ++ rest) = lineText .layout body ++ lineText .layout rest) := by
  have hlayout : ∀ line, lineText .layout line =
      String.ofList (spelling .layout (line.takeWhile (· != 0))) := by
    intro line
    rw [← spellLine_eq]
    rfl
  refine ⟨hlayout body, ?_, ?_⟩
  · rw [← squeeze_of_isPrintable fun _ hc => isPrintable_of_mem_spelling hc, ← spellLine_eq]
    rfl
  · intro hclear hclosed rest
    have hwhole : ∀ byte ∈ body, (byte != 0) = true := by
      intro byte hbyte
      refine bne_iff_ne.mpr ?_
      rintro rfl
      exact hclear hbyte
    have hbody : body.takeWhile (· != 0) = body := List.takeWhile_eq_self_iff.mpr hwhole
    rw [hlayout, hlayout, hlayout, List.takeWhile_append_of_pos hwhole, spelling_append hclosed,
      String.ofList_append, hbody]

def twoStateLine : Bytes := [0x99, 0x22, 0x99, 0x90, 0xC1, 0xA0, 0x22, 0x90, 0xA0]

theorem lineText_spelling_twoStateLine :
    0 ∉ twoStateLine ∧ twoStateLine.count 0x22 % 2 = 0 ∧
    lineText .layout (twoStateLine ++ [0xC1, 0xCC]) = "PRINT\".A \"STOPCLOSEATN\x7bCC\x7d" := by
  have hclear : 0 ∉ twoStateLine := by decide
  have hclosed : twoStateLine.count 0x22 % 2 = 0 := by decide
  refine ⟨hclear, hclosed, ?_⟩
  rw [(lineText_spelling twoStateLine).2.2 hclear hclosed [0xC1, 0xCC]]
  decide +kernel

end TapeSalvage.Listing
