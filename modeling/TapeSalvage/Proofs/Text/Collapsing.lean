import Mathlib.Data.List.Destutter
import TapeSalvage.Proofs.Text.Squeezing

/-!
Squeezing as it is done by hand. Where spaces are the only blanks, a text that begins with a word is
squeezed by leaving one space of each stretch of spaces and none at the end. A text that is squeezed
already stays as it is.
-/
namespace TapeSalvage.Text

/-- Whether one character may stand in front of another once every stretch of spaces is a single
one. -/
def MayPrecede (c next : Char) : Prop := ¬(c = ' ' ∧ next = ' ')

instance : DecidableRel MayPrecede := fun c next =>
  inferInstanceAs (Decidable (¬(c = ' ' ∧ next = ' ')))

/-- A text with one space for each stretch of spaces, and none at the end. -/
def collapse (text : List Char) : List Char := (text.destutter MayPrecede).rdropWhile (· == ' ')

/-- A character at the front is dropped from the end only together with all others. -/
theorem rdropWhile_cons {α : Type*} (p : α → Bool) (c : α) (text : List α) :
    (c :: text).rdropWhile p =
      if text.rdropWhile p = [] ∧ p c = true then [] else c :: text.rdropWhile p := by
  unfold List.rdropWhile
  rw [List.reverse_cons, List.dropWhile_append]
  cases hrest : text.reverse.dropWhile p with
  | nil =>
    by_cases hc : p c = true
    · simp [hc]
    · simp [hc]
  | cons last others => simp

theorem collapse_cons_of_ne {c : Char} (h : c ≠ ' ') (text : List Char) :
    collapse (c :: text) = c :: collapse text := by
  have hdestutter : (c :: text).destutter MayPrecede = c :: text.destutter MayPrecede := by
    cases text with
    | nil => rfl
    | cons next rest =>
      have hmay : MayPrecede c next := fun hspaces => h hspaces.1
      rw [List.destutter_cons_cons, if_pos hmay]
      rfl
  rw [collapse, hdestutter, rdropWhile_cons, if_neg]
  · rfl
  · simp [h]

/-- A space goes in front of a space, and at the end. -/
theorem collapse_space {text : List Char} (h : ∀ c ∈ text.head?, c = ' ') :
    collapse (' ' :: text) = collapse text := by
  cases text with
  | nil => rfl
  | cons c rest =>
    obtain rfl : c = ' ' := h c rfl
    rw [collapse, List.destutter_cons_cons, if_neg fun hfollows => hfollows ⟨rfl, rfl⟩]
    rfl

/-- A space in front of a word stays. -/
theorem collapse_space_cons {c : Char} (h : c ≠ ' ') (text : List Char) :
    collapse (' ' :: c :: text) = ' ' :: collapse (c :: text) := by
  have hdestutter : (' ' :: c :: text).destutter MayPrecede =
      ' ' :: (c :: text).destutter MayPrecede := by
    have hmay : MayPrecede ' ' c := fun hspaces => h hspaces.2
    rw [List.destutter_cons_cons, if_pos hmay]
    rfl
  rw [collapse, hdestutter, rdropWhile_cons, if_neg]
  · rfl
  · intro hempty
    have hword := collapse_cons_of_ne h text
    rw [collapse, hempty.1] at hword
    contradiction

/-- The word under way reaches as far as no blank is met. -/
theorem foldr_wordStep_eq_takeWhile (text : List Char) :
    (text.foldr wordStep ([], [])).1 = text.takeWhile fun c => !isBlank c := by
  induction text with
  | nil => rfl
  | cons c rest ih =>
    rw [List.foldr_cons, wordStep, List.takeWhile_cons]
    cases isBlank c with
    | false => exact congrArg (c :: ·) ih
    | true => rfl

/-- A collapsed text is the word under way, and each later word behind a single space. -/
theorem collapse_eq_foldr {text : List Char} (h : ∀ c ∈ text, isBlank c = (c == ' ')) :
    collapse text = (text.foldr wordStep ([], [])).1 ++
      (text.foldr wordStep ([], [])).2.flatMap (' ' :: ·) := by
  induction text with
  | nil => rfl
  | cons c rest ih =>
    obtain ⟨hc, hrest⟩ := List.forall_mem_cons.mp h
    have hrest' := ih hrest
    rw [List.foldr_cons, wordStep, hc]
    by_cases hspace : c = ' '
    · subst hspace
      rw [if_pos (beq_self_eq_true ' '), List.nil_append]
      -- The space counts only in front of a word.
      cases rest with
      | nil => rfl
      | cons next others =>
        have hword := foldr_wordStep_eq_takeWhile (next :: others)
        rw [List.takeWhile_cons, hrest next (List.mem_cons_self ..)] at hword
        by_cases hnext : next = ' '
        · subst hnext
          change _ = [] at hword
          rw [collapse_space (by simp), hrest', hword]
          rfl
        · have hclear : (next == ' ') = false := beq_eq_false_iff_ne.mpr hnext
          rw [hclear] at hword
          change _ = next :: _ at hword
          rw [collapse_space_cons hnext, hrest', hword]
          rfl
    · rw [if_neg (by simpa using hspace), collapse_cons_of_ne hspace, hrest']
      rfl

theorem intercalate_cons_eq_flatMap (word : List Char) (words : List (List Char)) :
    [' '].intercalate (word :: words) = word ++ words.flatMap (' ' :: ·) := by
  induction words generalizing word with
  | nil => simp
  | cons next others ih =>
    rw [List.intercalate_cons_cons, ih, List.append_assoc, List.flatMap_cons]
    rfl

/-- A text that begins with a word and has no blanks but spaces is squeezed by collapsing it. -/
theorem squeeze_eq_collapse {text : List Char} (h : ∀ c ∈ text, isBlank c = (c == ' '))
    (hhead : ∀ c ∈ text.head?, c ≠ ' ') : squeeze text = collapse text := by
  cases text with
  | nil => rfl
  | cons c rest =>
    have hc : isBlank c = false := by
      rw [h c (List.mem_cons_self ..)]
      exact beq_eq_false_iff_ne.mpr (hhead c rfl)
    have hword := foldr_wordStep_eq_takeWhile (c :: rest)
    rw [List.takeWhile_cons, hc] at hword
    change _ = c :: _ at hword
    rw [squeeze, words_eq, collapse_eq_foldr h, hword, List.isEmpty_cons, if_neg Bool.false_ne_true,
      intercalate_cons_eq_flatMap]

/-- Nothing is left to collapse in a text with single spaces between words. -/
theorem collapse_eq_self {text : List Char} (h : text.IsChain MayPrecede)
    (hlast : ∀ c ∈ text.getLast?, c ≠ ' ') : collapse text = text := by
  rw [collapse, List.destutter_of_isChain MayPrecede text h, List.rdropWhile_eq_self_iff]
  intro hne
  have hspace := hlast _ (List.getLast?_eq_some_getLast hne)
  simpa using hspace

/-- A squeezed text stays as it is when it is squeezed again. -/
theorem squeeze_squeeze (text : List Char) : squeeze (squeeze text) = squeeze text := by
  have hspaces : ∀ c ∈ squeeze text, isBlank c = (c == ' ') := by
    intro c hc
    obtain rfl | ⟨_, hclear⟩ := mem_squeeze hc
    · rfl
    · rw [hclear]
      refine (beq_eq_false_iff_ne.mpr ?_).symm
      rintro rfl
      contradiction
  have hends := isTrimmed_squeeze text
  have hclear : ∀ c, isBlank c = false → c ≠ ' ' := by
    rintro c hc rfl
    contradiction
  rw [squeeze_eq_collapse hspaces fun c hc => hclear c (hends.head c hc)]
  apply collapse_eq_self
  · apply (isChain_squeeze text).imp
    rintro c next hapart ⟨rfl, rfl⟩
    simp [isBlank] at hapart
  · exact fun c hc => hclear c (hends.last c hc)

end TapeSalvage.Text
