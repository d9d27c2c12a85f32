import Mathlib
import TapeSalvage.Listing.Program
import TapeSalvage.Proofs.Listing.Spelling

/-!
Listings as text. The text of a line is printable, so its row ends at the next line break, and its
number at the first space. A listing can therefore be read back, and no two lists of lines look
alike.
-/
namespace TapeSalvage.Listing

theorem isPrintable_of_mem_lineText {style : Style} {body : Bytes} {c : Char}
    (h : c ∈ (lineText style body).toList) : IsPrintable c := by
  unfold lineText at h
  rw [String.toList_ofList, spellLine_eq] at h
  cases style with
  | layout => exact isPrintable_of_mem_spelling h
  | strict =>
    obtain rfl | ⟨hc, _⟩ := Text.mem_squeeze h
    · decide
    · exact isPrintable_of_mem_spelling hc

theorem exists_body_of_mem_lines {rules : Rules} {image : Program.Image} {line : Line}
    (h : line ∈ lines rules image) : ∃ body, line.text = lineText rules.style body := by
  obtain ⟨record, _, rfl⟩ := List.mem_map.mp h
  exact ⟨record.text, rfl⟩

/-- Whether no space stands at an end of a text or next to another. -/
structure IsSpaced (text : List Char) : Prop where
  head : text.head? ≠ some ' '
  last : text.getLast? ≠ some ' '
  single : ¬ [' ', ' '] <:+: text

theorem isSpaced_squeeze (text : List Char) : IsSpaced (Text.squeeze text) := by
  have htrimmed := Text.isTrimmed_squeeze text
  constructor
  · intro h
    exact absurd (htrimmed.head ' ' h) (by decide)
  · intro h
    exact absurd (htrimmed.last ' ' h) (by decide)
  · rintro ⟨front, rest, hsplit⟩
    have hchain := Text.isChain_squeeze text
    rw [← hsplit] at hchain
    exact absurd (List.isChain_pair.mp hchain.left_of_append.right_of_append) (by decide)

theorem isSpaced_lineText (body : Bytes) : IsSpaced (lineText .strict body).toList := by
  unfold lineText
  rw [String.toList_ofList]
  exact isSpaced_squeeze _

/-- The characters of a number: its figures and the sign of a negative one. -/
theorem eq_or_isDigit_of_mem_repr {number : Int} {c : Char} (h : c ∈ number.repr.toList) :
    c = '-' ∨ c.isDigit = true := by
  have hnat : ∀ value : Nat, c ∈ value.repr.toList → c.isDigit = true := by
    intro value hc
    rw [Nat.repr_eq_ofList_toDigits, String.toList_ofList] at hc
    exact Nat.isDigit_of_mem_toDigits (by decide) (by decide) hc
  rw [Int.repr_eq_if] at h
  split at h
  · exact Or.inr (hnat _ h)
  · rw [String.toList_append, List.mem_append] at h
    rcases h with hsign | hfigure
    · exact Or.inl (List.mem_singleton.mp hsign)
    · exact Or.inr (hnat _ hfigure)

theorem notMem_repr {c : Char} (hsign : c ≠ '-') (hdigit : c.isDigit = false) (number : Int) :
    c ∉ number.repr.toList := by
  intro h
  rcases eq_or_isDigit_of_mem_repr h with hminus | hfigure
  · exact hsign hminus
  · rw [hdigit] at hfigure
    contradiction

theorem toList_row (line : Line) :
    line.row.toList = line.number.repr.toList ++ ' ' :: line.text.toList := by
  have hrow : line.row = line.number.repr ++ " " ++ line.text := rfl
  rw [hrow, String.toList_append, String.toList_append, List.append_assoc]
  rfl

/-- The line that a row shows: its number stands before the first space and its text behind it. -/
def Line.ofRow? (row : List Char) : Option Line :=
  (String.ofList (row.takeWhile (· != ' '))).toInt?.map fun number =>
    ⟨number, String.ofList ((row.dropWhile (· != ' ')).drop 1)⟩

def readRows (listing : String) : List Line :=
  (listing.toList.splitOn '\n').filterMap Line.ofRow?

theorem ofRow?_row (line : Line) : Line.ofRow? line.row.toList = some line := by
  have hnumber : ∀ c ∈ line.number.repr.toList, (c != ' ') = true := by
    intro c hc
    refine bne_iff_ne.mpr ?_
    rintro rfl
    exact notMem_repr (by decide) rfl line.number hc
  rw [Line.ofRow?, toList_row, List.takeWhile_append_of_pos hnumber,
    List.dropWhile_append_of_pos hnumber]
  rw [List.takeWhile_cons_of_neg (by simp), List.append_nil, String.ofList_toList,
    Int.toInt?_repr, List.dropWhile_cons_of_neg (by simp), List.drop_one, List.tail_cons,
    String.ofList_toList]
  rfl

/-- A listing is its rows with line breaks between them, and one more behind the last row. -/
theorem toList_format (lines : List Line) :
    (format lines).toList =
      ['\n'].intercalate (lines.map fun line => line.row.toList) ++ ['\n'] := by
  rw [format, String.toList_append, String.toList_intercalate, List.map_map]
  rfl

theorem break_notMem_rows {lines : List Line} (h : ∀ line ∈ lines, '\n' ∉ line.text.toList) :
    ∀ row ∈ lines.map fun line => line.row.toList, '\n' ∉ row := by
  intro row hrow
  obtain ⟨line, hline, rfl⟩ := List.mem_map.mp hrow
  rw [toList_row, List.mem_append, List.mem_cons]
  rintro (hnumber | hspace | htext)
  · exact notMem_repr (by decide) rfl line.number hnumber
  · exact absurd hspace (by decide)
  · exact h line hline htext

/-- Rows without line breaks are found again between the line breaks of a listing. -/
theorem readRows_format {lines : List Line} (h : ∀ line ∈ lines, '\n' ∉ line.text.toList) :
    readRows (format lines) = lines := by
  have hempty : Line.ofRow? [] = none := by cbv
  have hrow : (Line.ofRow? ∘ fun line : Line => line.row.toList) = some := by
    funext line
    rw [Function.comp_apply, ofRow?_row]
  rw [readRows, toList_format, List.splitOn_append_cons_self, List.splitOn_nil,
    List.filterMap_append, List.filterMap_cons_none hempty, List.filterMap_nil, List.append_nil]
  cases lines with
  | nil =>
    change (([] : List Char).splitOn '\n').filterMap Line.ofRow? = []
    rw [List.splitOn_nil, List.filterMap_cons_none hempty, List.filterMap_nil]
  | cons line rest =>
    rw [List.splitOn_intercalate _ (break_notMem_rows h) (List.cons_ne_nil _ _), List.filterMap_map,
      hrow, List.filterMap_some]

theorem count_intercalate {parts : List (List Char)} (h : ∀ part ∈ parts, '\n' ∉ part) :
    (['\n'].intercalate parts).count '\n' = parts.length - 1 := by
  induction parts with
  | nil => rfl
  | cons part rest ih =>
    obtain ⟨hpart, hrest⟩ := List.forall_mem_cons.mp h
    cases rest with
    | nil =>
      rw [List.intercalate_singleton, List.count_eq_zero_of_not_mem hpart]
      rfl
    | cons next others =>
      rw [List.intercalate_cons_cons, List.count_append, List.count_append, ih hrest,
        List.count_eq_zero_of_not_mem hpart, List.count_singleton_self]
      simp only [List.length_cons]
      omega

/-- A listing has one line break for each of its lines, and one if there is no line. -/
theorem count_format {lines : List Line} (h : ∀ line ∈ lines, '\n' ∉ line.text.toList) :
    (format lines).toList.count '\n' = max 1 lines.length := by
  rw [toList_format, List.count_append, count_intercalate (break_notMem_rows h),
    List.count_singleton_self, List.length_map]
  omega

theorem break_notMem_text (rules : Rules) (image : Program.Image) :
    ∀ line ∈ lines rules image, '\n' ∉ line.text.toList := by
  intro line hline hbreak
  obtain ⟨body, hbody⟩ := exists_body_of_mem_lines hline
  rw [hbody] at hbreak
  exact absurd (isPrintable_of_mem_lineText hbreak) (by decide)

/-- The text of a listed line is printable, and in the strict style without superfluous spaces. A
listing has a line break behind each line, and one if there is no line; the lines are read back from
it, each at the first space of its row. So lists of lines that look alike are the same. -/
theorem lines_readable (rules : Rules) (image : Program.Image) :
    (∀ line ∈ lines rules image, (∀ c ∈ line.text.toList, 0x20 ≤ c.toNat ∧ c.toNat ≤ 0x7E) ∧
      (rules.style = .strict → line.text.toList.head? ≠ some ' ' ∧
        line.text.toList.getLast? ≠ some ' ' ∧ ¬ [' ', ' '] <:+: line.text.toList)) ∧
    (format (lines rules image)).toList.count '\n' = max 1 (lines rules image).length ∧
    (format (lines rules image)).toList.getLast? = some '\n' ∧
    readRows (format (lines rules image)) = lines rules image ∧
    (∀ others program, format (lines others program) = format (lines rules image) →
      lines others program = lines rules image) := by
  have hclear := break_notMem_text rules image
  refine ⟨?_, count_format hclear, ?_, readRows_format hclear, ?_⟩
  · intro line hline
    obtain ⟨body, hbody⟩ := exists_body_of_mem_lines hline
    rw [hbody]
    refine ⟨fun c hc => isPrintable_of_mem_lineText hc, fun hstrict => ?_⟩
    rw [hstrict]
    have hspaced := isSpaced_lineText body
    exact ⟨hspaced.head, hspaced.last, hspaced.single⟩
  · rw [toList_format, List.getLast?_concat]
  · intro others program hsame
    rw [← readRows_format (break_notMem_text others program), hsame, readRows_format hclear]

def spacedImage : Program.Image :=
  ⟨0x1001, [0x0B, 0x10, 10, 0, 0x20, 0x41, 0x20, 0x20, 0x42, 0, 0x11, 0x10, 20, 0, 0x20, 0, 0, 0]⟩

def squeezedImage : Program.Image :=
  ⟨0x1001, [0x09, 0x10, 10, 0, 0x41, 0x20, 0x42, 0, 0x0E, 0x10, 20, 0, 0, 0, 0]⟩

theorem lines_readable_spacedImage :
    (⟨20, ""⟩ : Line) ∈ lines .standard spacedImage ∧
    (⟨10, "A B"⟩ : Line) ∈ lines .standard spacedImage ∧ ¬ [' ', ' '] <:+: "A B".toList ∧
    format (lines ⟨.pointer, .layout, 0⟩ squeezedImage) = format (lines .standard spacedImage) ∧
    lines ⟨.pointer, .layout, 0⟩ squeezedImage = lines .standard spacedImage := by
  obtain ⟨htext, _, _, _, hsame⟩ := lines_readable .standard spacedImage
  have hlines : lines .standard spacedImage = [⟨10, "A B"⟩, ⟨20, ""⟩] := by decide +kernel
  have hmem : (⟨10, "A B"⟩ : Line) ∈ lines .standard spacedImage := by
    rw [hlines]
    exact List.mem_cons_self ..
  have hformat : format (lines ⟨.pointer, .layout, 0⟩ squeezedImage) =
      format (lines .standard spacedImage) := by decide +kernel
  refine ⟨?_, hmem, ((htext _ hmem).2 rfl).2.2, hformat, hsame _ _ hformat⟩
  rw [hlines]
  exact List.mem_cons_of_mem _ (List.mem_cons_self ..)

end TapeSalvage.Listing
