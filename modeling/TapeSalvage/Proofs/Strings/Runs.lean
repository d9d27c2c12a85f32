import TapeSalvage.Proofs.Text.Squeezing
import TapeSalvage.Strings.Run

/-!
The strings that are found in bytes. Each comes from a run that begins with a letter or a digit, so
it is a row of plain characters: it is not empty, no blank stands at its ends, and it has no line
break.
-/
namespace TapeSalvage.Strings

/-- Whether a text is the whole of a row that is not blank: no blank stands at its ends, and it has
no line break. -/
structure IsRow (row : List Char) : Prop where
  ne_nil : row ≠ []
  isTrimmed : Text.IsTrimmed row
  notMem : '\n' ∉ row

/-- A squeezed text is a row, as long as not all of it is blank. -/
theorem isRow_squeeze {chars : List Char} {c : Char} (hc : c ∈ chars)
    (hclear : Text.isBlank c = false) : IsRow (Text.squeeze chars) where
  ne_nil := Text.squeeze_ne_nil hc hclear
  isTrimmed := Text.isTrimmed_squeeze chars
  notMem := by
    intro hbreak
    rcases Text.mem_squeeze hbreak with hspace | ⟨_, hblank⟩
    · contradiction
    · contradiction

theorem toNat_bounds_of_isUpper {c : Char} (h : c.isUpper = true) :
    65 ≤ c.toNat ∧ c.toNat ≤ 90 := by
  obtain ⟨hlow, hhigh⟩ : 'A'.val ≤ c.val ∧ c.val ≤ 'Z'.val := of_decide_eq_true h
  exact ⟨UInt32.le_iff_toNat_le.mp hlow, UInt32.le_iff_toNat_le.mp hhigh⟩

theorem toNat_bounds_of_isLower {c : Char} (h : c.isLower = true) :
    97 ≤ c.toNat ∧ c.toNat ≤ 122 := by
  obtain ⟨hlow, hhigh⟩ := Bool.and_eq_true_iff.mp h
  exact ⟨UInt32.le_iff_toNat_le.mp (of_decide_eq_true hlow),
    UInt32.le_iff_toNat_le.mp (of_decide_eq_true hhigh)⟩

theorem canBegin_bounds {c : Char} (h : canBegin c = true) : 48 ≤ c.toNat ∧ c.toNat ≤ 122 := by
  have hkinds : (c.isUpper = true ∨ c.isLower = true) ∨ c.isDigit = true := by
    rw [← Bool.or_eq_true, ← Bool.or_eq_true]
    exact h
  rcases hkinds with (hupper | hlower) | hdigit
  · have := toNat_bounds_of_isUpper hupper
    omega
  · have := toNat_bounds_of_isLower hlower
    omega
  · have hbounds : 48 ≤ c.toNat ∧ c.toNat ≤ 57 := Char.isDigit_iff_toNat.mp hdigit
    omega

theorem canContinue_bounds {c : Char} (h : canContinue c = true) :
    32 ≤ c.toNat ∧ c.toNat ≤ 122 := by
  simp only [canContinue, Bool.or_eq_true, beq_iff_eq] at h
  rcases h with ((((((((h | rfl) | rfl) | rfl) | rfl) | rfl) | rfl) | rfl) | rfl) | rfl
  · have := canBegin_bounds h
    omega
  all_goals decide

theorem isBlank_of_canBegin {c : Char} (h : canBegin c = true) : Text.isBlank c = false := by
  have hbounds := canBegin_bounds h
  simp only [Text.isBlank, Bool.or_eq_false_iff, Bool.and_eq_false_iff, decide_eq_false_iff_not,
    beq_eq_false_iff_ne]
  omega

def IsRun : List Char → Prop
  | [] => False
  | first :: rest => canBegin first = true ∧ ∀ c ∈ rest, canContinue c = true

theorem IsRun.append_singleton {run : List Char} (h : IsRun run) {c : Char}
    (hc : canContinue c = true) : IsRun (run ++ [c]) := by
  cases run with
  | nil => contradiction
  | cons first rest =>
    refine ⟨h.1, fun other hother => ?_⟩
    rcases List.mem_append.mp hother with hrest | hlast
    · exact h.2 other hrest
    · rwa [List.mem_singleton.mp hlast]

theorem IsRun.toNat_lt {run : List Char} (h : IsRun run) {c : Char} (hc : c ∈ run) :
    c.toNat < 128 := by
  cases run with
  | nil => contradiction
  | cons first rest =>
    rcases List.mem_cons.mp hc with rfl | hrest
    · have := canBegin_bounds h.1
      omega
    · have := canContinue_bounds (h.2 c hrest)
      omega

/-- Whether all runs found so far are runs, and that under way as far as it goes. -/
structure Gathering.IsSound (state : Gathering) : Prop where
  runs : ∀ run ∈ state.runs, IsRun run
  current : state.current = [] ∨ IsRun state.current.reverse

theorem Gathering.IsSound.close {state : Gathering} (h : state.IsSound) : state.close.IsSound := by
  obtain ⟨runs, current⟩ := state
  rcases current with _ | ⟨first, _ | ⟨second, rest⟩⟩
  · exact ⟨h.runs, Or.inl rfl⟩
  · exact ⟨h.runs, Or.inl rfl⟩
  · have hcurrent := h.current.resolve_left (List.cons_ne_nil _ _)
    exact ⟨List.forall_mem_cons.mpr ⟨hcurrent, h.runs⟩, Or.inl rfl⟩

theorem Gathering.IsSound.step {state : Gathering} (h : state.IsSound) (c : Char) :
    (state.step c).IsSound := by
  unfold Gathering.step
  split
  · split
    · rename_i hbegin
      exact ⟨h.runs, Or.inr ⟨hbegin, by simp⟩⟩
    · exact h
  · rename_i hcurrent
    split
    · rename_i hcontinue
      refine ⟨h.runs, Or.inr ?_⟩
      rw [List.reverse_cons]
      exact (h.current.resolve_left fun hnil => hcurrent (by rw [hnil]; rfl)).append_singleton
        hcontinue
    · exact h.close

theorem Gathering.IsSound.foldl {state : Gathering} (h : state.IsSound) (chars : List Char) :
    (chars.foldl Gathering.step state).IsSound := by
  induction chars generalizing state with
  | nil => exact h
  | cons c rest ih => exact ih (h.step c)

theorem isRun_of_mem_runs {chars run : List Char} (h : run ∈ runs chars) : IsRun run := by
  have hstart : (⟨[], []⟩ : Gathering).IsSound := ⟨by simp, Or.inl rfl⟩
  exact (hstart.foldl chars).close.runs run (List.mem_reverse.mp h)

/-- A string that is dumped is a squeezed run. -/
theorem exists_run_of_mem_dump {data : Bytes} {least : Int} {string : String}
    (h : string ∈ dump data least) : ∃ run, IsRun run ∧ string.toList = Text.squeeze run := by
  rw [dump, unique_eq_eraseDups, List.mem_eraseDups] at h
  obtain ⟨squeezed, hmem, rfl⟩ := List.mem_map.mp h
  obtain ⟨run, hrun, rfl⟩ := List.mem_map.mp (List.mem_filter.mp hmem).1
  exact ⟨run, isRun_of_mem_runs hrun, String.toList_ofList⟩

/-- A string that is dumped fills a row, whatever the bytes and the least length are: it has at
least the letter or digit that its run begins with. -/
theorem isRow_of_mem_dump {data : Bytes} {least : Int} {string : String}
    (h : string ∈ dump data least) : IsRow string.toList := by
  obtain ⟨run, hrun, hstring⟩ := exists_run_of_mem_dump h
  cases run with
  | nil => contradiction
  | cons first rest =>
    rw [hstring]
    exact isRow_squeeze (List.mem_cons_self ..) (isBlank_of_canBegin hrun.1)

/-- A string that is dumped has plain characters only. -/
theorem toNat_lt_of_mem_dump {data : Bytes} {least : Int} {string : String}
    (h : string ∈ dump data least) {c : Char} (hc : c ∈ string.toList) : c.toNat < 128 := by
  obtain ⟨run, hrun, hstring⟩ := exists_run_of_mem_dump h
  rw [hstring] at hc
  rcases Text.mem_squeeze hc with rfl | ⟨hmem, _⟩
  · decide
  · exact hrun.toNat_lt hmem

end TapeSalvage.Strings
