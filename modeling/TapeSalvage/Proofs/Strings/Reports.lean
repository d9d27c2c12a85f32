import TapeSalvage.Proofs.Strings.Runs
import TapeSalvage.Strings.Report

/-!
What reports keep. A line with something to it is still a row once it is cleaned. The rows of a
report, blank ones left out, are the lines in their order, those that name no place set in; only the
title of the lines before the first place is new.
-/
namespace TapeSalvage.Strings

theorem mem_singleQuotes (chars : List Char) (c : Char) : c ∈ singleQuotes chars ↔ c ∈ chars := by
  fun_induction singleQuotes chars with
  | case1 rest ih => simp [ih]
  | case2 first rest _ ih => simp [ih]
  | case3 => rfl

/-- A quote is dropped only after a full stop, which stays. -/
theorem dropStrayQuote_cases (text : List Char) :
    dropStrayQuote text = text ∨
      ∃ rest, text = '"' :: '.' :: rest ∧ dropStrayQuote text = '.' :: rest := by
  fun_cases dropStrayQuote text with
  | case1 rest => exact Or.inl rfl
  | case2 rest hdots => exact Or.inr ⟨rest, rfl, rfl⟩
  | case3 => exact Or.inl rfl

/-- Dropping a quote after a full stop leaves a row. -/
theorem IsRow.dropStrayQuote {row : List Char} (h : IsRow row) :
    IsRow (Strings.dropStrayQuote row.reverse).reverse := by
  obtain hsame | ⟨rest, hrest, hdrop⟩ := dropStrayQuote_cases row.reverse
  · rwa [hsame, List.reverse_reverse]
  · have hrow : row = rest.reverse ++ ['.'] ++ ['"'] := by
      rw [← List.reverse_reverse row, hrest, List.reverse_cons, List.reverse_cons]
    rw [hdrop, List.reverse_cons]
    -- The first character is that of the row, since the stop stays in front of the dropped quote.
    have hstop : rest.reverse ++ ['.'] ≠ [] := by simp
    constructor
    · exact hstop
    · constructor
      · intro c hc
        refine h.isTrimmed.head c ?_
        rwa [hrow, List.head?_append_of_ne_nil _ hstop]
      · intro c hc
        rw [List.getLast?_append_of_ne_nil _ (List.cons_ne_nil _ _)] at hc
        obtain rfl : '.' = c := Option.some.inj hc
        rfl
    · intro hbreak
      apply h.notMem
      rw [hrow]
      exact List.mem_append_left _ hbreak

/-- Cleaning leaves something of a line that is not blank, and all in one row. -/
theorem isRow_clean {line : String} {c : Char} (hc : c ∈ line.toList)
    (hclear : Text.isBlank c = false) : IsRow (clean line).toList := by
  rw [clean, String.toList_ofList]
  exact (isRow_squeeze ((mem_singleQuotes line.toList c).mpr hc) hclear).dropStrayQuote

theorem IsRow.exists_clear {row : List Char} (h : IsRow row) :
    ∃ c ∈ row, Text.isBlank c = false := by
  cases row with
  | nil => exact absurd rfl h.ne_nil
  | cons first rest => exact ⟨first, List.mem_cons_self .., h.isTrimmed.head first rfl⟩

theorem IsRow.clean {line : String} (h : IsRow line.toList) :
    IsRow (Strings.clean line).toList := by
  obtain ⟨c, hc, hclear⟩ := h.exists_clear
  exact isRow_clean hc hclear

/-- Rows that are trimmed and not empty are left as they are. -/
theorem trimmedLines_of_isRow {lines : List String} (h : ∀ line ∈ lines, IsRow line.toList) :
    trimmedLines lines = lines := by
  have htrim : (lines.map fun line => String.ofList (Text.trim line.toList)) = lines := by
    refine (List.map_congr_left fun line hline => ?_).trans (List.map_id lines)
    rw [Text.trim_of_isTrimmed (h line hline).isTrimmed, String.ofList_toList]
    rfl
  rw [trimmedLines, htrim, List.filter_eq_self]
  rintro line hline
  refine decide_eq_true fun hempty => (h line hline).ne_nil ?_
  rw [hempty]
  rfl

def unlines (rows : List String) : String := String.join (rows.map fun row => row ++ "\n")

theorem unlines_cons (row : String) (rows : List String) :
    unlines (row :: rows) = row ++ "\n" ++ unlines rows := String.join_cons

theorem unlines_append (left right : List String) :
    unlines (left ++ right) = unlines left ++ unlines right := by
  rw [unlines, List.map_append, String.join_append]
  rfl

theorem mem_unlines {rows : List String} {c : Char} (h : c ∈ (unlines rows).toList) :
    (∃ row ∈ rows, c ∈ row.toList) ∨ c = '\n' := by
  rw [unlines, String.toList_join, List.mem_flatMap] at h
  obtain ⟨ended, hended, hc⟩ := h
  obtain ⟨row, hrow, rfl⟩ := List.mem_map.mp hended
  rw [String.toList_append, List.mem_append] at hc
  rcases hc with hc | hbreak
  · exact Or.inl ⟨row, hrow, hc⟩
  · exact Or.inr (List.mem_singleton.mp hbreak)

/-- Rows without line breaks are found again between the line breaks, with nothing behind the
last. -/
theorem splitOnP_unlines {rows : List String} (h : ∀ row ∈ rows, '\n' ∉ row.toList) :
    (unlines rows).toList.splitOnP (· == '\n') = rows.map String.toList ++ [[]] := by
  induction rows with
  | nil => rfl
  | cons row rest ih =>
    obtain ⟨hrow, hrest⟩ := List.forall_mem_cons.mp h
    have hclear : ∀ c ∈ row.toList, (c == '\n') = false := by
      intro c hc
      refine beq_eq_false_iff_ne.mpr ?_
      rintro rfl
      exact hrow hc
    have htext : (unlines (row :: rest)).toList = row.toList ++ '\n' :: (unlines rest).toList := by
      rw [unlines_cons, String.toList_append, String.toList_append, List.append_assoc]
      rfl
    rw [htext, List.splitOnP_append_cons_of_forall_mem hclear _ rfl, ih hrest]
    rfl

def setIn (line : String) : String := "  " ++ line

def Group.body (group : Group) : List String := group.title :: group.lines.map setIn

theorem Group.text_eq (group : Group) : group.text = unlines (group.body ++ [""]) := by
  have hlines : unlines (group.lines.map setIn) =
      String.join (group.lines.map fun line => "  " ++ line ++ "\n") := by
    rw [unlines, List.map_map]
    rfl
  rw [unlines_append, Group.body, unlines_cons, hlines]
  rfl

/-- The rows of a report: those of its groups, each of them with an empty row behind it. -/
def reportRows (groups : List Group) : List String :=
  groups.flatMap fun group => group.body ++ [""]

theorem report_eq (groups : List Group) : report groups = unlines (reportRows groups) := by
  induction groups with
  | nil => rfl
  | cons group rest ih =>
    rw [report, reportRows] at ih ⊢
    rw [List.flatMap_cons, unlines_append, ← ih, ← group.text_eq, List.map_cons, String.join_cons]

theorem notMem_of_mem_reportRows {groups : List Group}
    (h : ∀ row ∈ groups.flatMap Group.body, '\n' ∉ row.toList) {row : String}
    (hrow : row ∈ reportRows groups) : '\n' ∉ row.toList := by
  obtain ⟨group, hgroup, hrow⟩ := List.mem_flatMap.mp hrow
  rcases List.mem_append.mp hrow with hrow | hlast
  · exact h row (List.mem_flatMap.mpr ⟨group, hgroup, hrow⟩)
  · rw [List.mem_singleton.mp hlast]
    decide

/-- The rows of the groups are found among the rows of a report by what tells them from an empty
row. -/
theorem filter_reportRows {groups : List Group} {keeps : String → Bool} (hempty : keeps "" = false)
    (h : ∀ row ∈ groups.flatMap Group.body, keeps row = true) :
    (reportRows groups).filter keeps = groups.flatMap Group.body := by
  rw [reportRows, List.filter_flatMap]
  refine List.flatMap_congr fun group hgroup => ?_
  have hbody : group.body.filter keeps = group.body := by
    rw [List.filter_eq_self]
    intro row hrow
    exact h row (List.mem_flatMap.mpr ⟨group, hgroup, hrow⟩)
  rw [List.filter_append, hbody, List.filter_cons_of_neg (by rw [hempty]; decide), List.filter_nil,
    List.append_nil]

section Rows

variable (openings : List String)

/-- The row of a line in a report: a place is a title, any other line is set in. -/
def rowOf (line : String) : String := if namesPlace openings line then line else setIn line

def leadingTitle : List String → List String
  | [] => []
  | first :: _ => if namesPlace openings first then [] else ["GLOBAL / SYSTEM TEXT"]

theorem eq_of_mem_leadingTitle {lines : List String} {row : String}
    (h : row ∈ leadingTitle openings lines) : row = "GLOBAL / SYSTEM TEXT" := by
  cases lines with
  | nil => contradiction
  | cons first rest =>
    rw [leadingTitle] at h
    split at h
    · contradiction
    · exact List.mem_singleton.mp h

/-- Grouping loses no line: those that still look for their place stand before the groups. -/
theorem foldr_groupStep (lines : List String) :
    let state := lines.foldr (groupStep openings) ([], [])
    state.1.map setIn ++ state.2.flatMap Group.body = lines.map (rowOf openings) := by
  dsimp only
  induction lines with
  | nil => rfl
  | cons line rest ih =>
    rw [List.foldr_cons, groupStep, List.map_cons, ← ih, rowOf]
    split <;> rfl

theorem isEmpty_foldr_groupStep (lines : List String) :
    leadingTitle openings lines =
      if (lines.foldr (groupStep openings) ([], [])).1.isEmpty then []
      else ["GLOBAL / SYSTEM TEXT"] := by
  cases lines with
  | nil => rfl
  | cons line rest =>
    rw [List.foldr_cons, groupStep, leadingTitle]
    split <;> rfl

/-- The rows of the groups, in order: the title of the lines before the first place, and a row for
each line. -/
theorem flatMap_body_groupTrimmed (lines : List String) :
    (groupTrimmed openings lines).flatMap Group.body =
      leadingTitle openings lines ++ lines.map (rowOf openings) := by
  rw [isEmpty_foldr_groupStep, ← foldr_groupStep, groupTrimmed]
  dsimp only
  split
  · rename_i hempty
    rw [List.isEmpty_iff.mp hempty]
    rfl
  · rfl

/-- The row of a line has the line, and nothing else once it is trimmed. -/
theorem trim_rowOf {line : String} (h : IsRow line.toList) :
    Text.trim (rowOf openings line).toList = line.toList := by
  have htrim := Text.trim_of_isTrimmed h.isTrimmed
  unfold rowOf
  split
  · exact htrim
  · have hblanks : Text.trim (' ' :: ' ' :: line.toList) = Text.trim line.toList := rfl
    rw [setIn, String.toList_append]
    exact hblanks.trans htrim

theorem map_trim_rowOf {lines : List String} (h : ∀ line ∈ lines, IsRow line.toList) :
    ((lines.map (rowOf openings)).map fun row => String.ofList (Text.trim row.toList)) = lines := by
  rw [List.map_map]
  refine (List.map_congr_left fun line hline => ?_).trans (List.map_id lines)
  rw [Function.comp_apply, trim_rowOf openings (h line hline), String.ofList_toList]
  rfl

theorem notMem_rowOf {line : String} (h : IsRow line.toList) :
    '\n' ∉ (rowOf openings line).toList := by
  unfold rowOf
  split
  · exact h.notMem
  · simpa [setIn] using h.notMem

end Rows

end TapeSalvage.Strings
