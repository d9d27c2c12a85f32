import TapeSalvage.Proofs.Listing.Printing
import TapeSalvage.Proofs.Strings.Runs
import TapeSalvage.Proofs.Text.Collapsing

/-!
Where the strings of a text are found. The characters that can stand in a string part a text into
stretches; each stretch gives the string from its first letter or digit on, or none.
-/
namespace TapeSalvage.Strings

/-- The longest stretches of a text in which all characters can stand in a string, in order. -/
def stretches (chars : List Char) : List (List Char) :=
  (chars.splitOnP fun c => !canContinue c).filter fun stretch => !stretch.isEmpty

def opened (stretch : List Char) : List Char := stretch.dropWhile fun c => !canBegin c

/-- The run in a stretch, unless it is a single character. -/
def runIn? (stretch : List Char) : Option (List Char) :=
  if 2 ≤ (opened stretch).length then some (opened stretch) else none

theorem opened_of_canBegin {stretch : List Char} (h : ∀ c ∈ stretch.head?, canBegin c = true) :
    opened stretch = stretch := by
  cases stretch with
  | nil => rfl
  | cons c rest =>
    rw [opened, List.dropWhile_cons_of_neg]
    simpa using h c rfl

theorem runIn?_cons_of_not_canBegin {c : Char} (h : canBegin c = false) (rest : List Char) :
    runIn? (c :: rest) = runIn? rest := by
  have hopened : opened (c :: rest) = opened rest := List.dropWhile_cons_of_pos (by simp [h])
  rw [runIn?, runIn?, hopened]

theorem canContinue_of_canBegin {c : Char} (h : canBegin c = true) : canContinue c = true := by
  simp [canContinue, h]

def Gathering.IsOpen (state : Gathering) : Prop :=
  ∀ c ∈ state.current.reverse.head?, canBegin c = true

/-- Closing a gathering adds the run under way to those that were found. -/
theorem Gathering.IsOpen.runs_close {state : Gathering} (h : state.IsOpen) :
    state.close.runs.reverse = state.runs.reverse ++ (runIn? state.current.reverse).toList := by
  have hopened := opened_of_canBegin h
  obtain ⟨runs, current⟩ := state
  rw [runIn?, hopened, List.length_reverse]
  rcases current with _ | ⟨last, _ | ⟨next, others⟩⟩
  · exact (List.append_nil _).symm
  · exact (List.append_nil _).symm
  · rw [if_pos (by simp)]
    exact List.reverse_cons

/-- A character that cannot stand in a string ends the run under way. -/
theorem Gathering.step_of_not_canContinue (state : Gathering) {c : Char}
    (h : canContinue c = false) :
    state.step c = state.close := by
  obtain ⟨runs, current⟩ := state
  have hbegin : canBegin c = false := by
    by_contra hbegin
    rw [canContinue_of_canBegin (by simpa using hbegin)] at h
    contradiction
  cases current with
  | nil => simp [Gathering.step, Gathering.close, hbegin]
  | cons last others => simp [Gathering.step, h]

theorem Gathering.step_of_canContinue (state : Gathering) {c : Char} (h : canContinue c = true)
    (hopen : state.current ≠ [] ∨ canBegin c = true) :
    state.step c = ⟨state.runs, c :: state.current⟩ := by
  obtain ⟨runs, current⟩ := state
  cases current with
  | nil => simp [Gathering.step, hopen.resolve_left (by simp)]
  | cons last others => simp [Gathering.step, h]

theorem Gathering.current_close (state : Gathering) : state.close.current = [] := by
  unfold Gathering.close
  split <;> rfl

/-- A gathering finds the runs of the stretches to come; the run under way goes on with the first of
them. -/
theorem Gathering.IsOpen.runs_foldl_step {state : Gathering} (h : state.IsOpen)
    (chars : List Char) :
    (chars.foldl Gathering.step state).close.runs.reverse = state.runs.reverse ++
      ((chars.splitOnP fun c => !canContinue c).modifyHead (state.current.reverse ++ ·)).filterMap
        runIn? := by
  induction chars generalizing state with
  | nil =>
    rw [List.foldl_nil, h.runs_close, List.splitOnP_nil, List.modifyHead_cons, List.append_nil]
    cases hrun : runIn? state.current.reverse <;> simp [hrun]
  | cons c rest ih =>
    obtain ⟨stretch, others, hsplit⟩ :=
      List.exists_cons_of_ne_nil (List.splitOnP_ne_nil (fun c => !canContinue c) rest)
    rw [List.foldl_cons, List.splitOnP_cons_eq_if_modifyHead]
    by_cases hcontinue : canContinue c = true
    · rw [if_neg (by simp [hcontinue]), hsplit, List.modifyHead_cons, List.modifyHead_cons]
      by_cases hopen : state.current ≠ [] ∨ canBegin c = true
      · -- The run under way is longer by one character, which the stretch has lost.
        have hstep : Gathering.IsOpen ⟨state.runs, c :: state.current⟩ := by
          intro first hfirst
          rw [List.reverse_cons] at hfirst
          by_cases hcurrent : state.current = []
          · rw [hcurrent] at hfirst
            obtain rfl := Option.some.inj hfirst
            exact hopen.resolve_left (absurd hcurrent)
          · rw [List.head?_append_of_ne_nil _ (by simpa using hcurrent)] at hfirst
            exact h first hfirst
        rw [state.step_of_canContinue hcontinue hopen, ih hstep, hsplit, List.modifyHead_cons,
          List.reverse_cons, List.append_assoc]
        rfl
      · -- Nothing is under way, and the character begins no run.
        obtain ⟨hcurrent, hbegin⟩ := not_or.mp hopen
        have hnil : state.current = [] := by simpa using hcurrent
        have hstep : state.step c = state := by simp [Gathering.step, hnil, hbegin]
        rw [hstep, ih h, hsplit, hnil, List.modifyHead_cons, List.reverse_nil, List.nil_append,
          List.nil_append, List.filterMap_cons, List.filterMap_cons,
          runIn?_cons_of_not_canBegin (by simpa using hbegin)]
    · have hclosed : state.close.IsOpen := by
        intro first hfirst
        rw [state.current_close] at hfirst
        contradiction
      rw [if_pos (by simpa using hcontinue),
        state.step_of_not_canContinue (by simpa using hcontinue), ih hclosed, h.runs_close,
        state.current_close, hsplit, List.modifyHead_cons, List.modifyHead_cons, List.reverse_nil,
        List.nil_append, List.append_nil, List.append_assoc]
      cases hrun : runIn? state.current.reverse <;> simp [hrun]

/-- The runs of a text are those in its stretches, in order. -/
theorem runs_eq_filterMap (chars : List Char) :
    runs chars = (stretches chars).filterMap runIn? := by
  have hstart : Gathering.IsOpen ⟨[], []⟩ := by
    intro first hfirst
    contradiction
  obtain ⟨stretch, others, hsplit⟩ :=
    List.exists_cons_of_ne_nil (List.splitOnP_ne_nil (fun c => !canContinue c) chars)
  have hempty : ∀ stretch : List Char, runIn? stretch =
      if (!stretch.isEmpty) = true then runIn? stretch else none := by
    intro stretch
    cases stretch <;> rfl
  rw [runs, hstart.runs_foldl_step, stretches, List.filterMap_filter, ← funext hempty, hsplit]
  rfl

/-- A run is squeezed by collapsing its spaces, for it begins with a word. -/
theorem IsRun.squeeze_eq {run : List Char} (h : IsRun run) :
    Text.squeeze run = Text.collapse run := by
  cases run with
  | nil => contradiction
  | cons first rest =>
    have hcontinue : ∀ c ∈ first :: rest, canContinue c = true :=
      List.forall_mem_cons.mpr ⟨canContinue_of_canBegin h.1, h.2⟩
    apply Text.squeeze_eq_collapse
    · intro c hc
      have hbounds := canContinue_bounds (hcontinue c hc)
      exact Listing.isBlank_of_isPrintable ⟨hbounds.1, by omega⟩
    · intro c hc
      obtain rfl := Option.some.inj hc
      rintro rfl
      exact absurd h.1 (by decide)

/-- The string in a stretch: from its first letter or digit on, with its spaces collapsed, if there
are two characters at least and the string has the least length. -/
def stringIn? (least : Int) (stretch : List Char) : Option String :=
  if 2 ≤ (opened stretch).length ∧ least ≤ (Text.collapse (opened stretch)).length then
    some (String.ofList (Text.collapse (opened stretch)))
  else none

/-- The strings of a text are those in its stretches, in order. A stretch without a letter and a
digit has none. -/
theorem extract_eq_filterMap (text : String) (least : Int) :
    extract text least = (stretches text.toList).filterMap (stringIn? least) ∧
    ∀ stretch ∈ stretches text.toList, (∀ c ∈ stretch, canBegin c = false) →
      stringIn? least stretch = none := by
  have hsqueeze : (runs text.toList).map Text.squeeze = (runs text.toList).map Text.collapse :=
    List.map_congr_left fun run hrun => (isRun_of_mem_runs hrun).squeeze_eq
  constructor
  · rw [extract, hsqueeze, runs_eq_filterMap, List.map_filterMap, List.filter_filterMap,
      List.map_filterMap]
    congr 1
    funext stretch
    unfold runIn? stringIn?
    by_cases hlength : 2 ≤ (opened stretch).length
    · by_cases hleast : least ≤ (Text.collapse (opened stretch)).length
      · simp [hlength, hleast]
      · simp [hlength, hleast, Option.filter]
    · simp [hlength]
  · intro stretch _ hnone
    have hopened : opened stretch = [] := by
      rw [opened, List.dropWhile_eq_nil_iff]
      intro c hc
      simp [hnone c hc]
    simp [stringIn?, hopened]

/-- A text with a lone letter, a stretch that begins late, and one without a letter and a digit. -/
def mixedText : String := "A\x00...GO  ON .\n-- ,\tB "

theorem extract_eq_filterMap_mixedText :
    stretches mixedText.toList = ["A".toList, "...GO  ON .".toList, "-- ,".toList, "B ".toList] ∧
    extract mixedText 2 = ["GO ON ."] ∧ stringIn? 2 "-- ,".toList = none := by
  have hstretches : stretches mixedText.toList =
      ["A".toList, "...GO  ON .".toList, "-- ,".toList, "B ".toList] := by
    decide +kernel
  obtain ⟨hextract, hnone⟩ := extract_eq_filterMap mixedText 2
  rw [hstretches] at hextract hnone
  have hmute : "-- ,".toList.all (fun c => !canBegin c) = true := by decide +kernel
  refine ⟨hstretches, hextract.trans (by decide +kernel), hnone "-- ,".toList (by simp) ?_⟩
  simpa only [List.all_eq_true, Bool.not_eq_true'] using hmute

end TapeSalvage.Strings
