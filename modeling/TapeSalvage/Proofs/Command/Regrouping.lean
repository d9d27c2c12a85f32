import TapeSalvage.Proofs.Command.Files
import TapeSalvage.Proofs.Command.Runs
import TapeSalvage.Proofs.Command.ToneTape
import TapeSalvage.Proofs.Command.Words
import TapeSalvage.Proofs.Strings.Reports
import TapeSalvage.Proofs.Text.Ascii

/-!
From a dump to a report. The strings that were dumped to a file are all found in it again, and the
report of the groups that they form has one row for each of them, in the same order.
-/
namespace TapeSalvage.Command

open Strings (dump unlines rowOf leadingTitle IsRow)

variable {before after : World}

def IsFilled (row : String) : Prop := '\n' ∉ row.toList ∧ Text.trim row.toList ≠ []

theorem IsFilled.of_isRow {row : String} (h : IsRow row.toList) : IsFilled row := by
  refine ⟨h.notMem, ?_⟩
  rw [Text.trim_of_isTrimmed h.isTrimmed]
  exact h.ne_nil

theorem IsFilled.rowOf {openings : List String} {line : String} (h : IsRow line.toList) :
    IsFilled (rowOf openings line) := by
  refine ⟨Strings.notMem_rowOf openings h, ?_⟩
  rw [Strings.trim_rowOf openings h]
  exact h.ne_nil

/-- The filled rows of a text are those of its rows that are not blank. -/
theorem filledRows_unlines {rows : List String} (h : ∀ row ∈ rows, '\n' ∉ row.toList) :
    filledRows (unlines rows) = rows.filter fun row => !(Text.trim row.toList).isEmpty := by
  have hlast : ([[]] : List (List Char)).filter (fun row => !(Text.trim row).isEmpty) = [] := rfl
  have htexts (texts : List String) : (texts.map String.toList).map String.ofList = texts := by
    rw [List.map_map]
    exact (List.map_congr_left fun _ _ => String.ofList_toList).trans (List.map_id texts)
  rw [filledRows, Strings.splitOnP_unlines h, List.filter_append, hlast, List.append_nil,
    List.filter_map, htexts]
  rfl

theorem filter_of_isFilled {rows : List String} (h : ∀ row ∈ rows, IsFilled row) :
    (rows.filter fun row => !(Text.trim row.toList).isEmpty) = rows := by
  rw [List.filter_eq_self]
  intro row hrow
  simpa using (h row hrow).2

/-- The strings that were dumped are read back from the bytes of their rows. -/
theorem filledRows_rows_dump (decoded : Bytes) (least : Int) :
    filledRows (Text.decode (rows (dump decoded least))) = dump decoded least := by
  have hplain : ∀ c ∈ (unlines (dump decoded least)).toList, c.toNat < 128 := by
    intro c hc
    rcases Strings.mem_unlines hc with ⟨string, hstring, hc⟩ | rfl
    · exact Strings.toNat_lt_of_mem_dump hstring hc
    · decide
  have hfilled : ∀ string ∈ dump decoded least, IsFilled string :=
    fun string hstring => .of_isRow (Strings.isRow_of_mem_dump hstring)
  have hrows : rows (dump decoded least) = Text.encode (unlines (dump decoded least)) := rfl
  rw [hrows, Text.decode_encode hplain, filledRows_unlines fun string hstring =>
    (hfilled string hstring).1, filter_of_isFilled hfilled]

/-- The empty rows between the groups of a report are not filled. -/
theorem filledRows_report {groups : List Strings.Group}
    (h : ∀ row ∈ groups.flatMap Strings.Group.body, IsFilled row) :
    filledRows (Strings.report groups) = groups.flatMap Strings.Group.body := by
  have hunbroken : ∀ row ∈ Strings.reportRows groups, '\n' ∉ row.toList := by
    intro row hrow
    exact Strings.notMem_of_mem_reportRows (fun row hrow => (h row hrow).1) hrow
  rw [Strings.report_eq, filledRows_unlines hunbroken, Strings.filter_reportRows rfl]
  intro row hrow
  simpa using (h row hrow).2

/-- The filled rows of a report of lines: the title of the lines before the first place, and a row
for each line. -/
theorem filledRows_report_group {openings lines : List String}
    (h : ∀ line ∈ lines, IsRow line.toList) :
    filledRows (Strings.report (Strings.group openings lines)) =
      leadingTitle openings lines ++ lines.map (rowOf openings) := by
  have hbody := Strings.flatMap_body_groupTrimmed openings lines
  rw [Strings.group, Strings.trimmedLines_of_isRow h, filledRows_report, hbody]
  rw [hbody]
  intro row hrow
  rcases List.mem_append.mp hrow with htitle | hrow
  · rw [Strings.eq_of_mem_leadingTitle openings htitle]
    exact ⟨by decide, by decide⟩
  · obtain ⟨line, hline, rfl⟩ := List.mem_map.mp hrow
    exact .rowOf (h line hline)

/-- What was dumped to a file is grouped from it without a loss: the report is that of the cleaned
strings of the decoded bytes. Blank rows and the title of the strings before the first place left
out, it has one row for each string, in the order of the dump; that of a place is the cleaned
string, any other is set in, and no cleaned string is empty. -/
theorem group_of_strings {tap least file out : String} (htap : Shape.of tap = .operand)
    (hout : Arguments.looksLikeOption out = false)
    (hrun : runOn (execute ["strings", tap, "--min-length", least, "-o", file]) before =
      (.ok 0, after))
    (hplace : ∃ name, after.store.place out = .file name) :
    ∃ (capture decoded : Bytes) (reading : Recovery.Reading Float) (length : Int)
        (cleaned : List String) (report : String) (final : World),
      before.store.read tap = .ok capture ∧
      (Recovery.run (Recovery.decode { Recovery.Config.standard with name := tap } capture)).1 =
        .ok (decoded, reading) ∧
      Arguments.count "--min-length" Strings.leastLength (some least) = .ok length ∧
      cleaned = (dump decoded length).map Strings.clean ∧
      report = Strings.report (Strings.group Strings.placeOpenings cleaned) ∧
      runOn (execute ["group", file, "-o", out]) after = (.ok 0, final) ∧
      after.store.write out (Text.encode report) = .ok final.store ∧
      final.store.read out = .ok (Text.encode report) ∧
      filledRows report =
        leadingTitle Strings.placeOpenings cleaned ++ cleaned.map (rowOf Strings.placeOpenings) ∧
      (cleaned.map fun line =>
        String.ofList (Text.trim (rowOf Strings.placeOpenings line).toList)) = cleaned ∧
      "" ∉ cleaned := by
  have hstrings := (runOn_execute_eq_ok_zero_iff rfl).mp hrun
  obtain ⟨arguments, path, capture, decoded, reading, length, hread, hpath, hcapture, hdecoded,
    hlength, hdump⟩ := (runOn_strings_iff before).mp ⟨after.console, hstrings⟩
  obtain ⟨hfile, rfl⟩ := values_of_read_stringsForms htap hread
  obtain rfl : tap = path := Option.some.inj hpath
  change before.store.write file (rows (dump decoded length)) = .ok after.store at hdump
  have hrows : ∀ line ∈ (dump decoded length).map Strings.clean, IsRow line.toList := by
    intro line hline
    obtain ⟨string, hstring, rfl⟩ := List.mem_map.mp hline
    exact (Strings.isRow_of_mem_dump hstring).clean
  -- The dump is read before the report is written, so the two may go to one file.
  obtain ⟨name, hname⟩ := hplace
  have hwrite (data : Bytes) : after.store.write out data = .ok (after.store.put name data) :=
    Store.write_eq_ok_iff.mpr ⟨name, hname, rfl⟩
  have hwords := read_groupForms (shape_of_looksLikeOption hfile) hout
  have hgroup := exists_runOn_group hwords (Store.read_of_write hdump) (hwrite _)
  rw [filledRows_rows_dump] at hgroup
  obtain ⟨console, hgrouped⟩ := hgroup
  have hfinal : runOn (execute ["group", file, "-o", out]) after = _ :=
    (runOn_execute_eq_ok_zero_iff rfl).mpr hgrouped
  refine ⟨capture, decoded, reading, length, _, _, _, hcapture, hdecoded, hlength, rfl, rfl, hfinal,
    hwrite _, Store.read_of_write (hwrite _), filledRows_report_group hrows, ?_, ?_⟩
  · refine (List.map_congr_left fun line hline => ?_).trans (List.map_id _)
    rw [Strings.trim_rowOf _ (hrows line hline), String.ofList_toList]
    rfl
  · intro hempty
    exact (hrows "" hempty).ne_nil rfl

def messages : Bytes := [79, 75, 46, 34, 0, 89, 79, 85, 32, 65, 82, 69, 32, 66]

def messageSymbols : List Pulse.Symbol := List.replicate 68 .long ++ Frame.encode messages

def messageTape : Bytes := Capture.ofStream ((messageSymbols.map toneWidth).map UInt8.ofNat)

def messageSorted : List Nat :=
  List.replicate 112 48 ++ List.replicate 126 66 ++ List.replicate 82 86

def messageWorld : World := ⟨⟨[("a.tap", messageTape)], []⟩, .empty⟩

theorem exists_decode_messageTape (name : String) :
    ∃ reading, (Recovery.run (Recovery.decode
      { (Recovery.Config.standard : Recovery.Config Float) with name := name } messageTape)).1 =
        .ok (messages, reading) := by
  have hclear : .unknown ∉ messageSymbols := by decide +kernel
  have hsorted : messageSorted ⊆ [48, 66, 86] := by decide +kernel
  have hperm : (messageSymbols.map toneWidth).Perm messageSorted :=
    Pulse.perm_of_count (toneWidth_mem hclear) hsorted (by decide +kernel)
  have hclassify := classify_of_tone (by decide +kernel) hclear hperm (by decide +kernel)
    (by decide +kernel) (by decide +kernel)
  have hdecoded : Recovery.decoded
      { (Recovery.Config.standard : Recovery.Config Float) with name := name } messageTape = _ :=
    decoded_of_tone hclear (by decide +kernel) hclassify rfl
  have hmessages : (Frame.decode messageSymbols).bytes = messages := by decide +kernel
  rw [hmessages] at hdecoded
  exact ⟨_, (Recovery.yields_decode _ _).run_eq.trans hdecoded⟩

theorem dump_messages : dump messages 2 = ["OK.\"", "YOU ARE B"] := by
  rw [dump, Strings.unique_eq_eraseDups]
  decide +kernel

/-- A string before the first place, with a quote at its end, and a place without further
strings. -/
theorem group_of_strings_messageTape :
    ∃ after final : World,
      runOn (execute ["strings", "a.tap", "--min-length", "2", "-o", "b"]) messageWorld =
        (.ok 0, after) ∧
      runOn (execute ["group", "b", "-o", "c"]) after = (.ok 0, final) ∧
      final.store.read "c" = .ok (Text.encode "GLOBAL / SYSTEM TEXT\n  OK.\n\nYOU ARE B\n\n") := by
  obtain ⟨reading, hdecode⟩ := exists_decode_messageTape "a.tap"
  have hwords : Arguments.read stringsForms ["a.tap", "--min-length", "2", "-o", "b"] =
      .ok ⟨[("out", "b"), ("min-length", "2")], [], ["a.tap"]⟩ := rfl
  have hcapture : messageWorld.store.read "a.tap" = .ok messageTape := rfl
  have hdump : messageWorld.store.write "b" (rows (dump messages 2)) =
      .ok ⟨[("a.tap", messageTape), ("b", rows (dump messages 2))], []⟩ := rfl
  obtain ⟨console, hstrings⟩ := (runOn_strings_iff messageWorld).mpr ⟨_, "a.tap", messageTape,
    messages, reading, 2, hwords, rfl, hcapture, hdecode, rfl, hdump⟩
  have hrun : runOn (execute ["strings", "a.tap", "--min-length", "2", "-o", "b"])
      messageWorld = _ := (runOn_execute_eq_ok_zero_iff rfl).mpr hstrings
  have hplace : ∃ name, Store.place ⟨[("a.tap", messageTape), ("b", rows (dump messages 2))], []⟩
      "c" = .file name := ⟨"c", rfl⟩
  obtain ⟨capture, decoded, other, length, cleaned, report, final, hread, hdecoded, hlength,
    hcleaned, htext, hgroup, _, hreport, _⟩ :=
      group_of_strings (show Shape.of "a.tap" = .operand from rfl)
        (show Arguments.looksLikeOption "c" = false from rfl) hrun hplace
  obtain rfl := Except.ok.inj (hcapture.symm.trans hread)
  obtain ⟨rfl, _⟩ := Prod.mk.inj (Except.ok.inj (hdecode.symm.trans hdecoded))
  obtain rfl : 2 = length := Except.ok.inj hlength
  have hreported : Strings.report (Strings.group Strings.placeOpenings
      (["OK.\"", "YOU ARE B"].map Strings.clean)) =
        "GLOBAL / SYSTEM TEXT\n  OK.\n\nYOU ARE B\n\n" := by
    decide +kernel
  rw [htext, hcleaned, dump_messages, hreported] at hreport
  exact ⟨_, final, hrun, hgroup, hreport⟩

end TapeSalvage.Command
