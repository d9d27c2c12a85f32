import TapeSalvage.Proofs.Strings.Reports

/-!
Groups of lines, and what a report tells about them. Grouping keeps every line and the order of the
lines, and there is no other way to part the lines at the places. The text of a report can be read
back, so two reports look alike only if they are about the same lines.
-/
namespace TapeSalvage.Strings

def Group.allLines (group : Group) : List String := group.place.toList ++ group.lines

/-- Whether groups part lines at the places: the groups hold the lines in their order, the first
line of a group is a place and no other one is, and only the first group may be without a place if
it has lines. -/
structure IsGrouping (openings lines : List String) (groups : List Group) : Prop where
  flatMap_allLines : groups.flatMap Group.allLines = lines
  namesPlace_place : ∀ group ∈ groups, ∀ place ∈ group.place, namesPlace openings place = true
  namesPlace_line : ∀ group ∈ groups, ∀ line ∈ group.lines, namesPlace openings line = false
  eq_zero_of_placeless : ∀ i group, groups[i]? = some group → group.place = none →
    i = 0 ∧ group.lines ≠ []

section Grouping

variable {openings lines : List String}

/-- Whether groups hold the lines behind those that still look for their place: each of them has a
place. -/
structure IsPlaced (openings lines : List String) (state : List String × List Group) : Prop where
  flatMap_allLines : state.1 ++ state.2.flatMap Group.allLines = lines
  leading : ∀ line ∈ state.1, namesPlace openings line = false
  placed : ∀ group ∈ state.2, ∃ place, group.place = some place ∧ namesPlace openings place = true
  lines : ∀ group ∈ state.2, ∀ line ∈ group.lines, namesPlace openings line = false

/-- Taking in a line puts it in front of the others. -/
theorem IsPlaced.groupStep {state : List String × List Group} (h : IsPlaced openings lines state)
    (line : String) : IsPlaced openings (line :: lines) (groupStep openings line state) := by
  unfold Strings.groupStep
  split
  · rename_i hplace
    constructor
    · rw [List.nil_append, List.flatMap_cons, ← h.flatMap_allLines]
      rfl
    · simp
    · exact List.forall_mem_cons.mpr ⟨⟨line, rfl, hplace⟩, h.placed⟩
    · exact List.forall_mem_cons.mpr ⟨h.leading, h.lines⟩
  · rename_i hplace
    constructor
    · rw [List.cons_append, h.flatMap_allLines]
    · exact List.forall_mem_cons.mpr ⟨by simpa using hplace, h.leading⟩
    · exact h.placed
    · exact h.lines

theorem isPlaced_foldr_groupStep (openings lines : List String) :
    IsPlaced openings lines (lines.foldr (groupStep openings) ([], [])) := by
  induction lines with
  | nil => exact ⟨rfl, by simp, by simp, by simp⟩
  | cons line rest ih => exact ih.groupStep line

/-- The lines in front of the first place form a group of their own, if there are any. -/
theorem IsPlaced.isGrouping {leading : List String} {placed : List Group}
    (h : IsPlaced openings lines (leading, placed)) :
    IsGrouping openings lines (if leading.isEmpty then placed else ⟨none, leading⟩ :: placed) := by
  have hplaces : ∀ group ∈ placed, ∀ place ∈ group.place, namesPlace openings place = true := by
    intro group hgroup place hplace
    obtain ⟨other, hother, hnames⟩ := h.placed group hgroup
    rw [Option.mem_def, hother, Option.some.injEq] at hplace
    rwa [← hplace]
  have hne : ∀ group ∈ placed, group.place ≠ none := by
    intro group hgroup hnone
    obtain ⟨place, hplace, _⟩ := h.placed group hgroup
    rw [hnone] at hplace
    contradiction
  have hlines := h.flatMap_allLines
  cases leading with
  | nil =>
    refine ⟨hlines, hplaces, h.lines, ?_⟩
    intro i group hgroup hnone
    exact absurd hnone (hne group (List.mem_of_getElem? hgroup))
  | cons first rest =>
    refine ⟨hlines, ?_, ?_, ?_⟩
    · exact List.forall_mem_cons.mpr ⟨by simp, hplaces⟩
    · exact List.forall_mem_cons.mpr ⟨h.leading, h.lines⟩
    · intro i group hgroup hnone
      cases i with
      | zero =>
        obtain rfl := Option.some.inj hgroup
        exact ⟨rfl, List.cons_ne_nil first rest⟩
      | succ i => exact absurd hnone (hne group (List.mem_of_getElem? hgroup))

theorem isGrouping_group (openings lines : List String) :
    IsGrouping openings (trimmedLines lines) (group openings lines) :=
  (isPlaced_foldr_groupStep openings (trimmedLines lines)).isGrouping

/-- The lines leave no choice: each place begins a group, and any other line goes on with one. -/
theorem IsPlaced.eq_foldr {state : List String × List Group} (h : IsPlaced openings lines state) :
    state = lines.foldr (Strings.groupStep openings) ([], []) := by
  obtain ⟨leading, placed⟩ := state
  -- The first line tells whether it begins a group; without it, the rest is parted the same way.
  induction lines generalizing leading placed with
  | nil =>
    obtain ⟨hleading, hplaced⟩ := List.append_eq_nil_iff.mp h.flatMap_allLines
    cases placed with
    | nil => rw [List.foldr_nil, ← hleading]
    | cons group others =>
      obtain ⟨place, hplace, _⟩ := h.placed group (List.mem_cons_self ..)
      have hnil := (List.flatMap_eq_nil_iff.mp hplaced) group (List.mem_cons_self ..)
      rw [Group.allLines, hplace] at hnil
      contradiction
  | cons line rest ih =>
    rw [List.foldr_cons, Strings.groupStep]
    cases leading with
    | cons first others =>
      obtain ⟨rfl, hrest⟩ := List.cons.inj h.flatMap_allLines
      obtain ⟨hfirst, hothers⟩ := List.forall_mem_cons.mp h.leading
      rw [if_neg (by rw [hfirst]; decide), ← ih others placed ⟨hrest, hothers, h.placed, h.lines⟩]
    | nil =>
      cases placed with
      | nil => exact absurd h.flatMap_allLines (List.cons_ne_nil line rest).symm
      | cons group groups =>
        obtain ⟨⟨place, hplace, hnames⟩, hplaced⟩ := List.forall_mem_cons.mp h.placed
        obtain ⟨hgroup, hgroups⟩ := List.forall_mem_cons.mp h.lines
        have hlines := h.flatMap_allLines
        rw [List.nil_append, List.flatMap_cons, Group.allLines, hplace] at hlines
        obtain ⟨rfl, hrest⟩ := List.cons.inj hlines
        rw [if_pos hnames, ← ih group.lines groups ⟨hrest, hgroup, hplaced, hgroups⟩, ← hplace]

/-- There is one grouping of lines. -/
theorem IsGrouping.eq_groupTrimmed {groups : List Group} (h : IsGrouping openings lines groups) :
    groups = groupTrimmed openings lines := by
  have hplaced : ∃ leading placed, IsPlaced openings lines (leading, placed) ∧
      groups = if leading.isEmpty then placed else ⟨none, leading⟩ :: placed := by
    -- A group behind the first has a place.
    have hplace : ∀ i group, groups[i]? = some group → i ≠ 0 ∨ group.place ≠ none →
        ∃ place, group.place = some place ∧ namesPlace openings place = true := by
      intro i group hgroup hcase
      cases hname : group.place with
      | none =>
        obtain ⟨rfl, _⟩ := h.eq_zero_of_placeless i group hgroup hname
        simp [hname] at hcase
      | some place =>
        exact ⟨place, rfl, h.namesPlace_place group (List.mem_of_getElem? hgroup) place hname⟩
    cases groups with
    | nil => exact ⟨[], [], ⟨h.flatMap_allLines, by simp, by simp, by simp⟩, rfl⟩
    | cons first others =>
      have hothers : ∀ group ∈ others,
          ∃ place, group.place = some place ∧ namesPlace openings place = true := by
        intro group hgroup
        obtain ⟨i, hi⟩ := List.getElem?_of_mem hgroup
        exact hplace (i + 1) group hi (Or.inl i.succ_ne_zero)
      obtain ⟨hfirst, hlines⟩ := List.forall_mem_cons.mp h.namesPlace_line
      cases hname : first.place with
      | none =>
        have hne := (h.eq_zero_of_placeless 0 first rfl hname).2
        refine ⟨first.lines, others, ⟨?_, hfirst, hothers, hlines⟩, ?_⟩
        · rw [← h.flatMap_allLines, List.flatMap_cons, Group.allLines, hname]
          rfl
        · rw [if_neg (by simpa using hne), ← hname]
      | some place =>
        refine ⟨[], first :: others, ⟨h.flatMap_allLines, by simp, ?_, h.namesPlace_line⟩, rfl⟩
        exact List.forall_mem_cons.mpr ⟨hplace 0 first rfl (Or.inr (by simp [hname])), hothers⟩
  obtain ⟨leading, placed, hstate, hgroups⟩ := hplaced
  have hfoldr := hstate.eq_foldr
  rw [hgroups, groupTrimmed, ← hfoldr]

end Grouping

section Reading

variable {openings lines : List String}

theorem isRow_of_mem_trimmedLines (h : ∀ line ∈ lines, '\n' ∉ line.toList) {line : String}
    (hline : line ∈ trimmedLines lines) : IsRow line.toList := by
  obtain ⟨htrimmed, hne⟩ := List.mem_filter.mp hline
  obtain ⟨whole, hwhole, rfl⟩ := List.mem_map.mp htrimmed
  rw [String.toList_ofList]
  constructor
  · intro hnil
    rw [hnil] at hne
    exact absurd rfl (of_decide_eq_true hne)
  · exact Text.isTrimmed_trim whole.toList
  · intro hbreak
    exact h whole hwhole ((Text.trim_sublist whole.toList).subset hbreak)

/-- Rows without line breaks are told by the text that they make up. -/
theorem unlines_inj {left right : List String} (hleft : ∀ row ∈ left, '\n' ∉ row.toList)
    (hright : ∀ row ∈ right, '\n' ∉ row.toList) (h : unlines left = unlines right) :
    left = right := by
  have hrows := splitOnP_unlines hleft
  rw [h, splitOnP_unlines hright] at hrows
  exact (List.map_inj_right fun _ _ => String.toList_inj.mp).mp
    (List.append_cancel_right hrows).symm

/-- The lines that the rows of the groups show: all but the title of those without a place,
trimmed. -/
def shownLines (rows : List String) : List String :=
  (rows.dropWhile (· == "GLOBAL / SYSTEM TEXT")).map fun row =>
    String.ofList (Text.trim row.toList)

/-- The title of the lines without a place stands in front of no row of a line: it is no place, and
no blank is in front of it. -/
theorem rowOf_ne_title (h : namesPlace openings "GLOBAL / SYSTEM TEXT" = false) (line : String) :
    rowOf openings line ≠ "GLOBAL / SYSTEM TEXT" := by
  unfold rowOf
  split
  · rename_i hplace
    rintro rfl
    rw [h] at hplace
    contradiction
  · intro hsetIn
    have hchars := congrArg String.toList hsetIn
    rw [setIn, String.toList_append] at hchars
    exact absurd (List.cons.inj hchars).1 (by decide)

/-- The lines are read back from the rows of their groups. -/
theorem shownLines_rows (h : namesPlace openings "GLOBAL / SYSTEM TEXT" = false)
    (hlines : ∀ line ∈ lines, IsRow line.toList) :
    shownLines (leadingTitle openings lines ++ lines.map (rowOf openings)) = lines := by
  have hrows : (lines.map (rowOf openings)).dropWhile (· == "GLOBAL / SYSTEM TEXT") =
      lines.map (rowOf openings) := by
    cases lines with
    | nil => rfl
    | cons line rest =>
      rw [List.map_cons, List.dropWhile_cons_of_neg]
      simpa using rowOf_ne_title h line
  have htitle : (leadingTitle openings lines ++ lines.map (rowOf openings)).dropWhile
      (· == "GLOBAL / SYSTEM TEXT") = lines.map (rowOf openings) := by
    rw [List.dropWhile_append_of_pos, hrows]
    intro row hrow
    rw [eq_of_mem_leadingTitle openings hrow]
    rfl
  rw [shownLines, htitle, map_trim_rowOf openings hlines]

/-- The report of lines that fill rows tells the lines. -/
theorem eq_of_report_eq {left right : List String}
    (htitle : namesPlace openings "GLOBAL / SYSTEM TEXT" = false)
    (hleft : ∀ line ∈ left, IsRow line.toList) (hright : ∀ line ∈ right, IsRow line.toList)
    (h : report (groupTrimmed openings left) = report (groupTrimmed openings right)) :
    left = right := by
  have hbody : ∀ lines : List String, (∀ line ∈ lines, IsRow line.toList) →
      ∀ row ∈ (groupTrimmed openings lines).flatMap Group.body, '\n' ∉ row.toList ∧ row ≠ "" := by
    intro lines hlines row hrow
    rw [flatMap_body_groupTrimmed, List.mem_append] at hrow
    rcases hrow with hrow | hrow
    · rw [eq_of_mem_leadingTitle openings hrow]
      decide
    · obtain ⟨line, hline, rfl⟩ := List.mem_map.mp hrow
      refine ⟨notMem_rowOf openings (hlines line hline), ?_⟩
      intro hempty
      have htrim := trim_rowOf openings (hlines line hline)
      rw [hempty] at htrim
      exact (hlines line hline).ne_nil htrim.symm
  have hrows : ∀ lines : List String, (∀ line ∈ lines, IsRow line.toList) →
      (reportRows (groupTrimmed openings lines)).filter (· != "") =
        leadingTitle openings lines ++ lines.map (rowOf openings) := by
    intro lines hlines
    rw [filter_reportRows rfl, flatMap_body_groupTrimmed]
    intro row hrow
    simpa using (hbody lines hlines row hrow).2
  rw [report_eq, report_eq] at h
  have hsame := unlines_inj
    (fun _ hrow => notMem_of_mem_reportRows (fun row hrow => (hbody left hleft row hrow).1) hrow)
    (fun _ hrow => notMem_of_mem_reportRows (fun row hrow => (hbody right hright row hrow).1) hrow)
    h
  rw [← shownLines_rows htitle hleft, ← shownLines_rows htitle hright, ← hrows left hleft,
    ← hrows right hright, hsame]

end Reading

theorem namesPlace_title : namesPlace placeOpenings "GLOBAL / SYSTEM TEXT" = false := by
  decide +kernel

/-- Lines are grouped without loss and in one way only. All of them but the blank ones are in the
groups, trimmed and in their order; a line stands at the head of a group just if it names a place;
and at most the first group has no place, and then it has lines. The report shows them all: two
reports are the same if and only if they are about the same trimmed lines. -/
theorem report_group_eq_iff {left right : List String} (hleft : ∀ line ∈ left, '\n' ∉ line.toList)
    (hright : ∀ line ∈ right, '\n' ∉ line.toList) :
    IsGrouping placeOpenings (trimmedLines left) (group placeOpenings left) ∧
    (∀ groups, IsGrouping placeOpenings (trimmedLines left) groups →
      groups = group placeOpenings left) ∧
    (report (group placeOpenings left) = report (group placeOpenings right) ↔
      trimmedLines left = trimmedLines right) := by
  refine ⟨isGrouping_group placeOpenings left, fun _ h => h.eq_groupTrimmed, ?_, ?_⟩
  · intro h
    exact eq_of_report_eq namesPlace_title (fun _ => isRow_of_mem_trimmedLines hleft)
      (fun _ => isRow_of_mem_trimmedLines hright) h
  · intro h
    rw [group, group, h]

def scatteredLines : List String :=
  ["  INTRO", " \t ", "you are in a cave ", "GLOBAL / SYSTEM TEXT"]

def tidyLines : List String := ["INTRO", "you are in a cave", "GLOBAL / SYSTEM TEXT"]

theorem report_group_eq_iff_scatteredLines :
    (∀ line ∈ scatteredLines, '\n' ∉ line.toList) ∧ (∀ line ∈ tidyLines, '\n' ∉ line.toList) ∧
    IsGrouping placeOpenings tidyLines
      [⟨none, ["INTRO"]⟩, ⟨some "you are in a cave", ["GLOBAL / SYSTEM TEXT"]⟩] ∧
    report (group placeOpenings scatteredLines) = report (group placeOpenings tidyLines) := by
  have hscattered : ∀ line ∈ scatteredLines, '\n' ∉ line.toList := by decide
  have htidy : ∀ line ∈ tidyLines, '\n' ∉ line.toList := by decide
  have htrimmed : trimmedLines scatteredLines = tidyLines := by decide +kernel
  have htidied : trimmedLines tidyLines = tidyLines := by decide +kernel
  have hgroup : group placeOpenings scatteredLines =
      [⟨none, ["INTRO"]⟩, ⟨some "you are in a cave", ["GLOBAL / SYSTEM TEXT"]⟩] := by
    decide +kernel
  obtain ⟨hgrouping, _, hreport⟩ := report_group_eq_iff hscattered htidy
  rw [htrimmed, hgroup] at hgrouping
  exact ⟨hscattered, htidy, hgrouping, hreport.mpr (htrimmed.trans htidied.symm)⟩

end TapeSalvage.Strings
