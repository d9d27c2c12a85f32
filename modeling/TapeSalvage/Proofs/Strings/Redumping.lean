import TapeSalvage.Command.Execute
import TapeSalvage.Proofs.Strings.Extraction
import TapeSalvage.Proofs.Strings.Reports
import TapeSalvage.Proofs.Text.Ascii

/-!
Dumps of dumps. The strings of a dump are squeezed runs, each of them once. Rows of such strings are
found again as they are, so what was dumped to a file is dumped from it unchanged.
-/
namespace TapeSalvage.Strings

theorem nodup_eraseDups : ∀ strings : List String, strings.eraseDups.Nodup
  | [] => List.nodup_nil
  | string :: rest => by
    rw [List.eraseDups_cons, List.nodup_cons]
    constructor
    · simp [List.mem_eraseDups]
    · exact nodup_eraseDups (rest.filter fun other => !other == string)
termination_by strings => strings.length
decreasing_by exact Nat.lt_succ_of_le (List.length_filter_le _ _)

theorem eraseDups_of_nodup {strings : List String} (h : strings.Nodup) :
    strings.eraseDups = strings := by
  induction strings with
  | nil => rfl
  | cons string rest ih =>
    obtain ⟨hnotMem, hrest⟩ := List.nodup_cons.mp h
    have hothers : (rest.filter fun other => !other == string) = rest := by
      rw [List.filter_eq_self]
      intro other hother
      have hne : other ≠ string := fun heq => hnotMem (heq ▸ hother)
      simpa using hne
    rw [List.eraseDups_cons, hothers, ih hrest]

/-- Whether a text is a string as it is dumped: a squeezed run of two characters or more, and as
long as it has to be. -/
structure IsDumped (least : Int) (string : String) : Prop where
  isRun : IsRun string.toList
  squeezed : Text.squeeze string.toList = string.toList
  two_le : 2 ≤ string.toList.length
  least_le : least ≤ string.toList.length

theorem IsRun.canContinue_of_mem {run : List Char} (h : IsRun run) {c : Char} (hc : c ∈ run) :
    canContinue c = true := by
  cases run with
  | nil => contradiction
  | cons first rest =>
    rcases List.mem_cons.mp hc with rfl | hrest
    · exact canContinue_of_canBegin h.1
    · exact h.2 c hrest

/-- Squeezing a run leaves a run: its first character stays in front. -/
theorem IsRun.squeeze {run : List Char} (h : IsRun run) : IsRun (Text.squeeze run) := by
  have hmem : ∀ c ∈ Text.squeeze run, canContinue c = true := by
    intro c hc
    obtain rfl | ⟨hrun, _⟩ := Text.mem_squeeze hc
    · rfl
    · exact h.canContinue_of_mem hrun
  rw [h.squeeze_eq] at hmem ⊢
  cases run with
  | nil => contradiction
  | cons first rest =>
    have hspace : first ≠ ' ' := by
      rintro rfl
      exact absurd h.1 (by decide)
    rw [Text.collapse_cons_of_ne hspace] at hmem ⊢
    exact ⟨h.1, (List.forall_mem_cons.mp hmem).2⟩

theorem isDumped_of_mem_dump {data : Bytes} {least : Int} (hleast : 2 ≤ least) {string : String}
    (h : string ∈ dump data least) : IsDumped least string := by
  rw [dump, unique_eq_eraseDups, List.mem_eraseDups] at h
  obtain ⟨squeezed, hmem, rfl⟩ := List.mem_map.mp h
  obtain ⟨hsqueezed, hlength⟩ := List.mem_filter.mp hmem
  obtain ⟨run, hrun, rfl⟩ := List.mem_map.mp hsqueezed
  have hlong : least ≤ (Text.squeeze run).length := of_decide_eq_true hlength
  have hrow := (isRun_of_mem_runs hrun).squeeze
  constructor <;> rw [String.toList_ofList]
  · exact hrow
  · exact Text.squeeze_squeeze run
  · omega
  · exact hlong

/-- A printable character and a line break are read back from their byte. -/
theorem charOf_ofNat {c : Char} (h : canContinue c = true ∨ c = '\n') :
    charOf (UInt8.ofNat c.toNat) = c := by
  rcases h with h | rfl
  · have hbounds := canContinue_bounds h
    have hcode : (UInt8.ofNat c.toNat).toNat = c.toNat := by
      rw [UInt8.toNat_ofNat']
      omega
    have hapart : ∀ byte : UInt8, byte.toNat ≠ c.toNat → UInt8.ofNat c.toNat ≠ byte := by
      rintro byte hne rfl
      exact hne hcode
    have hlow : 32 ≤ UInt8.ofNat c.toNat := by
      rw [UInt8.le_iff_toNat_le, hcode]
      exact hbounds.1
    have hhigh : UInt8.ofNat c.toNat ≤ 126 := by
      rw [UInt8.le_iff_toNat_le, hcode]
      exact Nat.le_trans hbounds.2 (by decide)
    have hbreak : UInt8.ofNat c.toNat ≠ 10 := hapart 10 (by change 10 ≠ _; omega)
    have hreturn : UInt8.ofNat c.toNat ≠ 13 := hapart 13 (by change 13 ≠ _; omega)
    have hshifted : UInt8.ofNat c.toNat ≠ 0xA0 := hapart 0xA0 (by change 160 ≠ _; omega)
    rw [charOf, if_neg (by simp [hbreak, hreturn]), if_neg hshifted, if_pos (by simp [hlow, hhigh]),
      hcode, Char.ofNat_toNat]
  · rfl

/-- Printable text with line breaks is read back from its bytes. -/
theorem text_encode {written : String}
    (h : ∀ c ∈ written.toList, canContinue c = true ∨ c = '\n') :
    text (Text.encode written) = written := by
  have hbytes : Text.encode written = written.toList.map fun c => UInt8.ofNat c.toNat := by
    rw [Text.encode, List.map_eq_flatMap]
    refine List.flatMap_congr fun c hc => ?_
    apply Text.utf8EncodeChar_of_lt
    rcases h c hc with hcontinue | rfl
    · have hbounds := canContinue_bounds hcontinue
      omega
    · decide
  have hchars : (written.toList.map fun c => charOf (UInt8.ofNat c.toNat)) = written.toList :=
    (List.map_congr_left fun c hc => charOf_ofNat (h c hc)).trans (List.map_id _)
  rw [text, hbytes, List.map_map]
  exact (congrArg String.ofList hchars).trans String.ofList_toList

/-- The stretches of rows are the rows. -/
theorem stretches_unlines {rows : List String}
    (h : ∀ row ∈ rows, row.toList ≠ [] ∧ ∀ c ∈ row.toList, canContinue c = true) :
    stretches (unlines rows).toList = rows.map String.toList := by
  have hunbroken : ∀ row ∈ rows, '\n' ∉ row.toList := by
    intro row hrow hbreak
    exact absurd ((h row hrow).2 '\n' hbreak) (by decide)
  have hbreaks : ∀ c ∈ (unlines rows).toList, (!canContinue c) = (c == '\n') := by
    intro c hc
    rcases mem_unlines hc with ⟨row, hrow, hc⟩ | rfl
    · have hne : c ≠ '\n' := by
        rintro rfl
        exact hunbroken row hrow hc
      simp [(h row hrow).2 c hc, hne]
    · rfl
  rw [stretches, Text.splitOnP_congr hbreaks, splitOnP_unlines hunbroken, List.filter_append]
  have hrows : (rows.map String.toList).filter (fun stretch => !stretch.isEmpty) =
      rows.map String.toList := by
    rw [List.filter_eq_self]
    intro stretch hstretch
    obtain ⟨row, hrow, rfl⟩ := List.mem_map.mp hstretch
    simpa using (h row hrow).1
  rw [hrows]
  exact List.append_nil _

theorem IsDumped.runIn?_eq {least : Int} {string : String} (h : IsDumped least string) :
    runIn? string.toList = some string.toList := by
  have hopened : opened string.toList = string.toList := by
    apply opened_of_canBegin
    intro first hfirst
    have hrun := h.isRun
    cases hchars : string.toList with
    | nil => simp [hchars] at hfirst
    | cons c rest =>
      rw [hchars] at hfirst hrun
      obtain rfl := Option.some.inj hfirst
      exact hrun.1
  rw [runIn?, hopened, if_pos h.two_le]

/-- Rows of dumped strings are dumped as they are. -/
theorem dump_rows_of_isDumped {strings : List String} {least : Int} (hnodup : strings.Nodup)
    (h : ∀ string ∈ strings, IsDumped least string) :
    dump (Command.rows strings) least = strings := by
  have hcontinue : ∀ string ∈ strings, ∀ c ∈ string.toList, canContinue c = true :=
    fun string hstring _ hc => (h string hstring).isRun.canContinue_of_mem hc
  have htext : text (Command.rows strings) = unlines strings := by
    apply text_encode
    intro c hc
    rcases mem_unlines hc with ⟨string, hstring, hc⟩ | hbreak
    · exact Or.inl (hcontinue string hstring c hc)
    · exact Or.inr hbreak
  have hruns : runs (unlines strings).toList = strings.map String.toList := by
    rw [runs_eq_filterMap, stretches_unlines, List.filterMap_map, ← List.filterMap_eq_map]
    · exact List.filterMap_congr fun string hstring => (h string hstring).runIn?_eq
    · intro string hstring
      refine ⟨?_, hcontinue string hstring⟩
      intro hnil
      have hlength := (h string hstring).two_le
      rw [hnil] at hlength
      contradiction
  have hextract : extract (unlines strings) least = strings := by
    have hsqueeze : (strings.map String.toList).map Text.squeeze = strings.map String.toList := by
      rw [List.map_map]
      exact List.map_congr_left fun string hstring => (h string hstring).squeezed
    have hfilter : ((strings.map String.toList).filter fun run => least ≤ run.length) =
        strings.map String.toList := by
      rw [List.filter_eq_self]
      intro run hrun
      obtain ⟨string, hstring, rfl⟩ := List.mem_map.mp hrun
      exact decide_eq_true (h string hstring).least_le
    have hstrings : (strings.map String.toList).map String.ofList = strings := by
      rw [List.map_map]
      exact (List.map_congr_left fun _ _ => String.ofList_toList).trans (List.map_id strings)
    rw [extract, hruns, hsqueeze, hfilter, hstrings]
  rw [dump, htext, hextract, unique_eq_eraseDups, eraseDups_of_nodup hnodup]

/-- Dumping a dump changes nothing: no string is in it twice, and its rows give the same strings in
the same order. The least length has to be two, as a row of one character holds no string. -/
theorem dump_rows_dump (data : Bytes) {least : Int} (hleast : 2 ≤ least) :
    (dump data least).Nodup ∧ dump (Command.rows (dump data least)) least = dump data least := by
  have hnodup : (dump data least).Nodup := by
    rw [dump, unique_eq_eraseDups]
    exact nodup_eraseDups _
  exact ⟨hnodup, dump_rows_of_isDumped hnodup fun _ => isDumped_of_mem_dump hleast⟩

/-- A string that is met twice, with spaces to squeeze, a lone letter, and a string with a quote. -/
def repeatedData : Bytes :=
  [71, 79, 32, 32, 78, 32, 0, 71, 79, 0xA0, 78, 1, 65, 32, 13, 79, 75, 34, 10, 71, 79, 32, 78]

theorem dump_rows_dump_repeatedData :
    (2 : Int) ≤ 2 ∧ dump repeatedData 2 = ["GO N", "OK\""] ∧
    dump (Command.rows ["GO N", "OK\""]) 2 = ["GO N", "OK\""] := by
  have hdump : dump repeatedData 2 = ["GO N", "OK\""] := by
    rw [dump, unique_eq_eraseDups]
    decide +kernel
  have hleast : (2 : Int) ≤ 2 := Int.le_refl 2
  obtain ⟨_, hagain⟩ := dump_rows_dump repeatedData hleast
  rw [hdump] at hagain
  exact ⟨hleast, hdump, hagain⟩

/-- With a least length of one, a letter with a space behind it is dumped, but not from its row. -/
example : extract (text [65, 32]) 1 = ["A"] ∧ extract (text (Command.rows ["A"])) 1 = [] := by
  decide +kernel

end TapeSalvage.Strings
