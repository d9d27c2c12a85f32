import TapeSalvage.Command.Execute

/-!
How words are read. A name is an operand, and an option takes the next word as its value unless that
looks like an option. So a list of options with values is read as these values, or not at all.
-/
namespace TapeSalvage.Command

/-- Whether a word can name a file: there is something to it, and it does not begin like an
option. -/
structure IsName (word : String) : Prop where
  ne_empty : word ≠ ""
  head_ne : word.toList.head? ≠ some '-'

instance (word : String) : Decidable (IsName word) :=
  decidable_of_iff (word ≠ "" ∧ word.toList.head? ≠ some '-')
    ⟨fun h => ⟨h.1, h.2⟩, fun h => ⟨h.ne_empty, h.head_ne⟩⟩

/-- A word that does not look like an option is an operand. -/
theorem shape_of_looksLikeOption {word : String} (h : Arguments.looksLikeOption word = false) :
    Shape.of word = .operand := by
  unfold Arguments.looksLikeOption at h
  unfold Shape.of
  split at h
  · contradiction
  · rename_i hshort
    split
    · rename_i hword
      exact absurd hword (hshort '-' [])
    · rename_i first rest hword
      exact absurd hword (hshort '-' (first :: rest))
    · rename_i letter attached _ _ hword
      exact absurd hword (hshort letter attached)
    · rfl

theorem looksLikeOption_of_isName {word : String} (h : IsName word) :
    Arguments.looksLikeOption word = false := by
  have hhead := h.head_ne
  unfold Arguments.looksLikeOption
  cases hword : word.toList with
  | nil => rfl
  | cons first rest =>
    rw [hword] at hhead
    have hfirst : first ≠ '-' := by simpa using hhead
    simp [hfirst]

theorem shape_of_isName {word : String} (h : IsName word) : Shape.of word = .operand :=
  shape_of_looksLikeOption (looksLikeOption_of_isName h)

def optionWords (options : List (String × String)) : List String :=
  options.flatMap fun option => ["--" ++ option.1, option.2]

namespace Arguments

variable {forms : List OptionForm} {word name : String}

def IsValued (forms : List OptionForm) (word name : String) : Prop :=
  ∀ arguments : Arguments, arguments.take forms word = .value name

theorem readFrom_operand (h : Shape.of word = .operand) (arguments : Arguments)
    (rest : List String) :
    readFrom forms arguments (word :: rest) =
      readFrom forms { arguments with operands := word :: arguments.operands } rest := by
  rw [readFrom, take, h]

theorem readFrom_value (h : IsValued forms word name) (arguments : Arguments) (value : String)
    (rest : List String) :
    readFrom forms arguments (word :: value :: rest) =
      if looksLikeOption value then .error .optionValue
      else readFrom forms { arguments with values := (name, value) :: arguments.values } rest := by
  rw [readFrom, h arguments]

/-- Options with values are read as these values, the last one first. -/
theorem readFrom_optionWords {options : List (String × String)}
    (h : ∀ option ∈ options, IsValued forms ("--" ++ option.1) option.1) (arguments : Arguments) :
    readFrom forms arguments (optionWords options) =
      if options.any fun option => looksLikeOption option.2 then .error .optionValue
      else .ok { arguments with
        values := options.reverse ++ arguments.values
        operands := arguments.operands.reverse } := by
  induction options generalizing arguments with
  | nil => rfl
  | cons option rest ih =>
    obtain ⟨name, value⟩ := option
    rw [List.forall_mem_cons] at h
    change readFrom forms arguments (("--" ++ name) :: value :: optionWords rest) = _
    rw [readFrom_value h.1, ih h.2, List.any_cons]
    cases hvalue : looksLikeOption value with
    | true => rfl
    | false =>
      rw [if_neg Bool.false_ne_true, Bool.false_or, List.reverse_cons, List.append_assoc]
      rfl

theorem values_of_read_optionWords {options : List (String × String)} {arguments : Arguments}
    (hword : Shape.of word = .operand)
    (hoptions : ∀ option ∈ options, IsValued forms ("--" ++ option.1) option.1)
    (h : read forms (word :: optionWords options) = .ok arguments) :
    (∀ option ∈ options, looksLikeOption option.2 = false) ∧
      arguments = ⟨options.reverse, [], [word]⟩ := by
  rw [read, readFrom_operand hword, readFrom_optionWords hoptions] at h
  split at h
  · contradiction
  · rename_i hvalues
    refine ⟨by simpa using hvalues, ?_⟩
    rw [← Except.ok.inj h, empty, List.append_nil]
    rfl

end Arguments

theorem isValued_recoverForms {name : String}
    (h : name ∈ ["mode", "copy", "header", "prg", "bas", "start-skip"]) :
    Arguments.IsValued recoverForms ("--" ++ name) name := by
  intro arguments
  simp only [List.mem_cons, List.not_mem_nil, or_false] at h
  rcases h with rfl | rfl | rfl | rfl | rfl | rfl <;> rfl

/-- The words of a recovery that names its files are read as they are meant. -/
theorem values_of_read_recoverForms {tap prg bas skip : String} {options : List (String × String)}
    {arguments : Arguments} (htap : Shape.of tap = .operand)
    (hoptions : ∀ option ∈ options, option.1 ∈ ["mode", "copy", "header"])
    (h : Arguments.read recoverForms
      (tap :: (optionWords options ++ ["--prg", prg, "--bas", bas, "--start-skip", skip])) =
        .ok arguments) :
    Arguments.looksLikeOption skip = false ∧ arguments.value? "prg" = some prg ∧
      arguments.value? "bas" = some bas ∧ arguments.value? "start-skip" = some skip ∧
      arguments.value? "decoded" = none := by
  have hwords : optionWords options ++ ["--prg", prg, "--bas", bas, "--start-skip", skip] =
      optionWords (options ++ [("prg", prg), ("bas", bas), ("start-skip", skip)]) := by
    unfold optionWords
    rw [List.flatMap_append]
    rfl
  have hvalued : ∀ option ∈ options ++ [("prg", prg), ("bas", bas), ("start-skip", skip)],
      Arguments.IsValued recoverForms ("--" ++ option.1) option.1 := by
    intro option hmem
    apply isValued_recoverForms
    rcases List.mem_append.mp hmem with hold | hnew
    · exact List.mem_append_left ["prg", "bas", "start-skip"] (hoptions option hold)
    · simp only [List.mem_cons, List.not_mem_nil, or_false] at hnew
      rcases hnew with rfl | rfl | rfl <;> simp
  rw [hwords] at h
  obtain ⟨hvalues, rfl⟩ := Arguments.values_of_read_optionWords htap hvalued h
  have hdecoded : options.reverse.lookup "decoded" = none := by
    rw [List.lookup_eq_none_iff]
    intro option hmem
    have hname := hoptions option (List.mem_reverse.mp hmem)
    simp only [List.mem_cons, List.not_mem_nil, or_false] at hname
    rcases hname with hname | hname | hname <;> rw [hname] <;> decide
  unfold Arguments.value?
  rw [List.reverse_append]
  exact ⟨hvalues ("start-skip", skip) (by simp), rfl, rfl, rfl, hdecoded⟩

/-- The words of a listing to a file are read as they are meant. -/
theorem read_listForms {path skip out : String} (hpath : IsName path) (hout : IsName out)
    (hskip : Arguments.looksLikeOption skip = false) :
    Arguments.read listForms [path, "--start-skip", skip, "-o", out] =
      .ok ⟨[("out", out), ("start-skip", skip)], [], [path]⟩ := by
  have hskipWord : Arguments.IsValued listForms "--start-skip" "start-skip" := fun _ => rfl
  have houtWord : Arguments.IsValued listForms "-o" "out" := fun _ => rfl
  rw [Arguments.read, Arguments.readFrom_operand (shape_of_isName hpath),
    Arguments.readFrom_value hskipWord, hskip, if_neg Bool.false_ne_true,
    Arguments.readFrom_value houtWord, looksLikeOption_of_isName hout,
    if_neg Bool.false_ne_true]
  rfl

/-- The words of a dump to a file are read as they are meant, or not at all. -/
theorem values_of_read_stringsForms {tap least out : String} {arguments : Arguments}
    (htap : Shape.of tap = .operand)
    (h : Arguments.read stringsForms [tap, "--min-length", least, "-o", out] = .ok arguments) :
    Arguments.looksLikeOption out = false ∧
      arguments = ⟨[("out", out), ("min-length", least)], [], [tap]⟩ := by
  have hleastWord : Arguments.IsValued stringsForms "--min-length" "min-length" := fun _ => rfl
  have houtWord : Arguments.IsValued stringsForms "-o" "out" := fun _ => rfl
  rw [Arguments.read, Arguments.readFrom_operand htap, Arguments.readFrom_value hleastWord] at h
  split at h
  · contradiction
  · rw [Arguments.readFrom_value houtWord] at h
    split at h
    · contradiction
    · rename_i hout
      exact ⟨Bool.eq_false_iff.mpr hout, (Except.ok.inj h).symm⟩

/-- The words of a grouping to a file are read as they are meant. -/
theorem read_groupForms {path out : String} (hpath : Shape.of path = .operand)
    (hout : Arguments.looksLikeOption out = false) :
    Arguments.read groupForms [path, "-o", out] = .ok ⟨[("out", out)], [], [path]⟩ := by
  have houtWord : Arguments.IsValued groupForms "-o" "out" := fun _ => rfl
  rw [Arguments.read, Arguments.readFrom_operand hpath, Arguments.readFrom_value houtWord, hout,
    if_neg Bool.false_ne_true]
  rfl

end TapeSalvage.Command
