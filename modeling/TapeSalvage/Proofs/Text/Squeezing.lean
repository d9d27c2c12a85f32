import TapeSalvage.Text.Blank
import Mathlib.Data.List.Chain
import Mathlib.Data.List.DropRight
import Mathlib.Data.List.Infix

/-!
Squeezed texts. The words of a text hold its characters that are not blank, each once and in order.
A squeezed text begins and ends with a word, so trimming finds nothing to cut off, and it is empty
only if all of the text is blank.
-/
namespace TapeSalvage.Text

structure IsTrimmed (text : List Char) : Prop where
  head : ∀ c ∈ text.head?, isBlank c = false
  last : ∀ c ∈ text.getLast?, isBlank c = false

theorem trim_of_isTrimmed {text : List Char} (h : IsTrimmed text) : trim text = text := by
  have hkeep : ∀ chars : List Char, (∀ c ∈ chars.head?, isBlank c = false) →
      chars.dropWhile isBlank = chars := by
    intro chars hhead
    cases chars with
    | nil => rfl
    | cons c rest =>
      rw [List.dropWhile_cons_of_neg]
      simpa using hhead c rfl
  have hlast : ∀ c ∈ text.reverse.head?, isBlank c = false := by
    rw [List.head?_reverse]
    exact h.last
  rw [trim, hkeep text h.head, hkeep text.reverse hlast, List.reverse_reverse]

/-- Trimming leaves no blank at an end. -/
theorem isTrimmed_trim (text : List Char) : IsTrimmed (trim text) := by
  have hcut : ∀ chars : List Char, ∀ c ∈ (chars.dropWhile isBlank).head?, isBlank c = false := by
    intro chars c hc
    have hhead := List.head?_dropWhile_not isBlank chars
    rw [Option.mem_def.mp hc] at hhead
    exact hhead
  constructor
  · intro c hc
    obtain ⟨blanks, hfront⟩ : trim text <+: text.dropWhile isBlank :=
      List.rdropWhile_prefix isBlank (text.dropWhile isBlank)
    apply hcut text
    rw [← hfront, Option.mem_def, List.head?_append, Option.mem_def.mp hc]
    rfl
  · intro c hc
    rw [trim, List.getLast?_reverse] at hc
    exact hcut (text.dropWhile isBlank).reverse c hc

theorem trim_sublist (text : List Char) : (trim text).Sublist text := by
  have hback : (trim text).Sublist (text.dropWhile isBlank) :=
    (List.rdropWhile_prefix isBlank (text.dropWhile isBlank)).sublist
  exact hback.trans (List.dropWhile_sublist isBlank)

theorem isTrimmed_of_forall {text : List Char} (h : ∀ c ∈ text, isBlank c = false) :
    IsTrimmed text :=
  ⟨fun c hc => h c (List.mem_of_mem_head? hc), fun c hc => h c (List.mem_of_mem_getLast? hc)⟩

/-- Only the outer ends of a text count. -/
theorem IsTrimmed.append {left right : List Char} (hleft : IsTrimmed left)
    (hright : IsTrimmed right) (hleftNe : left ≠ []) (hrightNe : right ≠ []) (middle : List Char) :
    IsTrimmed (left ++ middle ++ right) := by
  constructor
  · rw [List.append_assoc, List.head?_append_of_ne_nil left hleftNe]
    exact hleft.head
  · rw [List.getLast?_append_of_ne_nil _ hrightNe]
    exact hright.last

/-- What the split into words keeps from the end of a text: the characters that are not blank, in
words none of which is empty but the one that is being read. -/
theorem foldr_wordStep (text : List Char) :
    let state := text.foldr wordStep ([], [])
    state.1 ++ state.2.flatten = (text.filter fun c => !isBlank c) ∧ [] ∉ state.2 := by
  dsimp only
  -- The word under way may be empty; it is set aside only once a blank ends it and it has letters.
  induction text with
  | nil => simp
  | cons c rest ih =>
    obtain ⟨hchars, hwords⟩ := ih
    rw [List.foldr_cons, wordStep]
    cases hblank : isBlank c with
    | false =>
      rw [if_neg Bool.false_ne_true, List.filter_cons_of_pos (by rw [hblank]; rfl), ← hchars]
      exact ⟨rfl, hwords⟩
    | true =>
      rw [if_pos rfl, List.filter_cons_of_neg (by rw [hblank]; decide), ← hchars]
      cases hword : (rest.foldr wordStep ([], [])).1 with
      | nil => exact ⟨rfl, hwords⟩
      | cons first word =>
        refine ⟨rfl, ?_⟩
        rw [List.isEmpty_cons, if_neg Bool.false_ne_true, List.mem_cons, not_or]
        exact ⟨(List.cons_ne_nil _ _).symm, hwords⟩

theorem words_eq (text : List Char) :
    words text =
      if (text.foldr wordStep ([], [])).1.isEmpty then (text.foldr wordStep ([], [])).2
      else (text.foldr wordStep ([], [])).1 :: (text.foldr wordStep ([], [])).2 := rfl

theorem flatten_words (text : List Char) :
    (words text).flatten = text.filter fun c => !isBlank c := by
  rw [← (foldr_wordStep text).1, words_eq]
  split
  · rename_i hempty
    rw [List.isEmpty_iff.mp hempty, List.nil_append]
  · rfl

theorem ne_nil_of_mem_words {text word : List Char} (h : word ∈ words text) : word ≠ [] := by
  have hwords := (foldr_wordStep text).2
  rw [words_eq] at h
  split at h
  · rintro rfl
    exact hwords h
  · rename_i hempty
    rcases List.mem_cons.mp h with rfl | hmem
    · simpa using hempty
    · rintro rfl
      exact hwords hmem

theorem of_mem_word {text word : List Char} (h : word ∈ words text) {c : Char} (hc : c ∈ word) :
    c ∈ text ∧ isBlank c = false := by
  have hmem : c ∈ (words text).flatten := List.mem_flatten.mpr ⟨word, h, hc⟩
  rw [flatten_words, List.mem_filter] at hmem
  exact ⟨hmem.1, by simpa using hmem.2⟩

theorem words_eq_nil_iff (text : List Char) : words text = [] ↔ ∀ c ∈ text, isBlank c = true := by
  constructor
  · intro h c hc
    by_contra hblank
    have hmem : c ∈ (words text).flatten := by
      rw [flatten_words, List.mem_filter]
      exact ⟨hc, by simpa using hblank⟩
    rw [h] at hmem
    contradiction
  · intro h
    cases hwords : words text with
    | nil => rfl
    | cons word others =>
      have hword : word ∈ words text := by
        rw [hwords]
        exact List.mem_cons_self ..
      obtain ⟨c, hc⟩ := List.exists_mem_of_ne_nil word (ne_nil_of_mem_words hword)
      obtain ⟨hmem, hblank⟩ := of_mem_word hword hc
      rw [h c hmem] at hblank
      contradiction

/-- The word under way is the first part of the split at blanks, and the words set aside are those
later parts that are not empty. -/
theorem exists_splitOnP_isBlank (text : List Char) :
    ∃ others, text.splitOnP isBlank = (text.foldr wordStep ([], [])).1 :: others ∧
      others.filter (fun part => !part.isEmpty) = (text.foldr wordStep ([], [])).2 := by
  induction text with
  | nil => exact ⟨[], rfl, rfl⟩
  | cons c rest ih =>
    obtain ⟨others, hsplit, hwords⟩ := ih
    rw [List.splitOnP_cons_eq_if_modifyHead, hsplit, List.foldr_cons, wordStep]
    cases hblank : isBlank c with
    | false => exact ⟨others, rfl, hwords⟩
    | true =>
      refine ⟨(rest.foldr wordStep ([], [])).1 :: others, rfl, ?_⟩
      rw [List.filter_cons, hwords, if_pos rfl]
      cases (rest.foldr wordStep ([], [])).1 <;> rfl

/-- The words are the parts between blanks that are not empty. -/
theorem words_eq_filter_splitOnP (text : List Char) :
    words text = (text.splitOnP isBlank).filter fun part => !part.isEmpty := by
  obtain ⟨others, hsplit, hwords⟩ := exists_splitOnP_isBlank text
  rw [words_eq, hsplit, List.filter_cons, hwords]
  cases (text.foldr wordStep ([], [])).1 <;> rfl

theorem splitOnP_congr {separates cuts : Char → Bool} {text : List Char}
    (h : ∀ c ∈ text, separates c = cuts c) : text.splitOnP separates = text.splitOnP cuts := by
  induction text with
  | nil => rfl
  | cons c rest ih =>
    obtain ⟨hc, hrest⟩ := List.forall_mem_cons.mp h
    rw [List.splitOnP_cons_eq_if_modifyHead, List.splitOnP_cons_eq_if_modifyHead, hc, ih hrest]

theorem intercalate_cons_ne_nil {separator part : List Char} (h : part ≠ [])
    (parts : List (List Char)) : separator.intercalate (part :: parts) ≠ [] := by
  cases parts with
  | nil => rwa [List.intercalate_singleton]
  | cons next others =>
    rw [List.intercalate_cons_cons, List.append_assoc]
    exact List.append_ne_nil_of_left_ne_nil h _

/-- Words joined by single spaces begin with the first word and end with the last one. -/
theorem isTrimmed_intercalate {parts : List (List Char)}
    (h : ∀ part ∈ parts, part ≠ [] ∧ ∀ c ∈ part, isBlank c = false) :
    IsTrimmed ([' '].intercalate parts) := by
  induction parts with
  | nil => exact isTrimmed_of_forall (by simp)
  | cons part rest ih =>
    obtain ⟨⟨hne, hclear⟩, hrest⟩ := List.forall_mem_cons.mp h
    cases rest with
    | nil =>
      rw [List.intercalate_singleton]
      exact isTrimmed_of_forall hclear
    | cons next others =>
      have hnext := (hrest next (List.mem_cons_self ..)).1
      rw [List.intercalate_cons_cons]
      exact (isTrimmed_of_forall hclear).append (ih hrest) hne
        (intercalate_cons_ne_nil hnext others) _

/-- Words joined by single spaces have no blank next to another. -/
theorem isChain_intercalate {parts : List (List Char)}
    (h : ∀ part ∈ parts, part ≠ [] ∧ ∀ c ∈ part, isBlank c = false) :
    ([' '].intercalate parts).IsChain fun a b => isBlank a = false ∨ isBlank b = false := by
  have hclear : ∀ part : List Char, (∀ c ∈ part, isBlank c = false) →
      part.IsChain fun a b => isBlank a = false ∨ isBlank b = false := by
    intro part hpart
    exact (List.pairwise_of_forall_mem_list fun a ha _ _ => Or.inl (hpart a ha)).isChain
  induction parts with
  | nil => exact List.IsChain.nil
  | cons part rest ih =>
    obtain ⟨⟨_, hpart⟩, hrest⟩ := List.forall_mem_cons.mp h
    cases rest with
    | nil =>
      rw [List.intercalate_singleton]
      exact hclear part hpart
    | cons next others =>
      rw [List.intercalate_cons_cons, List.append_assoc, List.isChain_append,
        List.singleton_append, List.isChain_cons]
      have hhead := (isTrimmed_intercalate hrest).head
      exact ⟨hclear part hpart, ⟨fun c hc => Or.inr (hhead c hc), ih hrest⟩,
        fun a ha _ _ => Or.inl (hpart a (List.mem_of_mem_getLast? ha))⟩

theorem mem_intercalate {parts : List (List Char)} {separator : List Char} {c : Char}
    (h : c ∈ separator.intercalate parts) : c ∈ separator ∨ ∃ part ∈ parts, c ∈ part := by
  induction parts with
  | nil => contradiction
  | cons part rest ih =>
    cases rest with
    | nil =>
      rw [List.intercalate_singleton] at h
      exact Or.inr ⟨part, List.mem_cons_self .., h⟩
    | cons next others =>
      rw [List.intercalate_cons_cons, List.mem_append, List.mem_append] at h
      rcases h with (hpart | hseparator) | hrest
      · exact Or.inr ⟨part, List.mem_cons_self .., hpart⟩
      · exact Or.inl hseparator
      · obtain hseparator | ⟨other, hother, hc⟩ := ih hrest
        · exact Or.inl hseparator
        · exact Or.inr ⟨other, List.mem_cons_of_mem _ hother, hc⟩

theorem isTrimmed_squeeze (text : List Char) : IsTrimmed (squeeze text) :=
  isTrimmed_intercalate fun _ hword =>
    ⟨ne_nil_of_mem_words hword, fun _ hc => (of_mem_word hword hc).2⟩

theorem isChain_squeeze (text : List Char) :
    (squeeze text).IsChain fun a b => isBlank a = false ∨ isBlank b = false :=
  isChain_intercalate fun _ hword =>
    ⟨ne_nil_of_mem_words hword, fun _ hc => (of_mem_word hword hc).2⟩

theorem mem_squeeze {text : List Char} {c : Char} (h : c ∈ squeeze text) :
    c = ' ' ∨ c ∈ text ∧ isBlank c = false := by
  obtain hspace | ⟨word, hword, hc⟩ := mem_intercalate h
  · exact Or.inl (List.mem_singleton.mp hspace)
  · exact Or.inr (of_mem_word hword hc)

theorem squeeze_ne_nil {text : List Char} {c : Char} (hc : c ∈ text) (hclear : isBlank c = false) :
    squeeze text ≠ [] := by
  unfold squeeze
  cases hwords : words text with
  | nil =>
    rw [words_eq_nil_iff] at hwords
    rw [hwords c hc] at hclear
    contradiction
  | cons word others =>
    have hword : word ∈ words text := by
      rw [hwords]
      exact List.mem_cons_self ..
    exact intercalate_cons_ne_nil (ne_nil_of_mem_words hword) others

end TapeSalvage.Text
