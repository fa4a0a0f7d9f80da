import DebugBridge.Text.Blank
import Mathlib.Data.List.Basic
import Mathlib.Data.List.TakeWhile

/-!
# Blanks around texts and between words

Trimming takes blanks away from both ends of a text, and nothing else; what is left begins and ends
with characters that are not blank.  A text that does so is left as it is.

A word has at least one character, and none of its characters is blank.  A text starts with a word,
blanks before it aside, unless it is blank; and words with single spaces between them are the words
of the text that they make up.
-/

namespace DebugBridge
namespace Text

/-- A text that neither begins nor ends with a blank. -/
structure Trimmed (text : List Char) : Prop where
  /-- The first character is not blank. -/
  first : ∀ c ∈ text.head?, isBlank c = false
  /-- The last character is not blank. -/
  last : ∀ c ∈ text.getLast?, isBlank c = false

variable {text blanks : List Char}

theorem trimStart_of_first (first : ∀ c ∈ text.head?, isBlank c = false) : trimStart text = text := by
  cases text with
  | nil => rfl
  | cons c text => exact List.dropWhile_cons_of_neg (Bool.eq_false_iff.1 (first c rfl))

theorem trimEnd_eq (text : List Char) : trimEnd text = (trimStart text.reverse).reverse := rfl

theorem trimStart_append (blank : ∀ c ∈ blanks, isBlank c = true) (text : List Char) :
    trimStart (blanks ++ text) = trimStart text :=
  List.dropWhile_append_of_pos blank

theorem head?_trimStart (text : List Char) :
    ∀ c ∈ (trimStart text).head?, isBlank c = false := by
  intro c first
  have head := List.head?_dropWhile_not isBlank text
  rw [trimStart, Option.mem_def] at first
  rw [first] at head
  exact head

theorem exists_trimStart (text : List Char) :
    ∃ blanks, text = blanks ++ trimStart text ∧ ∀ c ∈ blanks, isBlank c = true :=
  ⟨text.takeWhile isBlank, List.takeWhile_append_dropWhile.symm, fun _ => List.mem_takeWhile_imp⟩

theorem exists_trimEnd (text : List Char) :
    ∃ blanks, text = trimEnd text ++ blanks ∧ ∀ c ∈ blanks, isBlank c = true := by
  obtain ⟨blanks, split, blank⟩ := exists_trimStart text.reverse
  refine ⟨blanks.reverse, ?_, fun c member => blank c (List.mem_reverse.1 member)⟩
  rw [trimEnd_eq, ← List.reverse_append, ← split, List.reverse_reverse]

/-- What is left ends visibly. -/
theorem getLast?_trimEnd (text : List Char) :
    ∀ c ∈ (trimEnd text).getLast?, isBlank c = false := by
  intro c last
  rw [trimEnd_eq, List.getLast?_reverse] at last
  exact head?_trimStart text.reverse c last

/-- What is taken away is blank. -/
theorem exists_trim (text : List Char) :
    ∃ before after, text = before ++ (trim text ++ after) ∧ (∀ c ∈ before, isBlank c = true) ∧
      ∀ c ∈ after, isBlank c = true := by
  obtain ⟨before, start, blankBefore⟩ := exists_trimStart text
  obtain ⟨after, finish, blankAfter⟩ := exists_trimEnd (trimStart text)
  exact ⟨before, after, by rw [trim, ← finish, ← start], blankBefore, blankAfter⟩

theorem trimmed_trim (text : List Char) : Trimmed (trim text) where
  first := by
    intro c first
    obtain ⟨blanks, split, -⟩ := exists_trimEnd (trimStart text)
    apply head?_trimStart text
    rw [trim, Option.mem_def] at first
    rw [split, List.head?_append, first]
    rfl
  last := getLast?_trimEnd (trimStart text)

theorem Trimmed.trim_eq (trimmed : Trimmed text) : trim text = text := by
  rw [trim, trimStart_of_first trimmed.first, trimEnd_eq, trimStart_of_first, List.reverse_reverse]
  rw [List.head?_reverse]
  exact trimmed.last

theorem trimmed_iff : Trimmed text ↔ trim text = text := by
  constructor
  · exact Trimmed.trim_eq
  · intro same
    rw [← same]
    exact trimmed_trim text

instance : Decidable (Trimmed text) := decidable_of_iff (trim text = text) trimmed_iff.symm

theorem trim_append (blank : ∀ c ∈ blanks, isBlank c = true) (text : List Char) :
    trim (blanks ++ text) = trim text := by
  rw [trim, trimStart_append blank, trim]

/-- No blanks stand at the end. -/
theorem Trimmed.eq_nil (trimmed : Trimmed (text ++ blanks))
    (blank : ∀ c ∈ blanks, isBlank c = true) : blanks = [] := by
  by_contra some
  obtain ⟨c, last⟩ := Option.isSome_iff_exists.1 (List.getLast?_isSome.2 some)
  have visible := trimmed.last c (by rwa [List.getLast?_append_of_ne_nil _ some])
  rw [blank c (List.mem_of_getLast? last)] at visible
  cases visible

/-- Nothing is left of blanks, and of nothing else. -/
theorem trim_eq_nil_iff : trim text = [] ↔ allBlank text = true := by
  rw [allBlank, List.all_eq_true]
  constructor
  · intro nothing
    obtain ⟨before, after, split, blankBefore, blankAfter⟩ := exists_trim text
    rw [nothing, List.nil_append] at split
    intro c member
    rw [split] at member
    exact (List.mem_append.1 member).elim (blankBefore c) (blankAfter c)
  · intro blank
    have alone := trim_append blank []
    rwa [List.append_nil] at alone

/-- A text with blanks around it is what is left of it. -/
theorem Trimmed.trim_eq_of_blanks {before after : List Char} (trimmed : Trimmed text)
    (blankBefore : ∀ c ∈ before, isBlank c = true) (blankAfter : ∀ c ∈ after, isBlank c = true) :
    trim (before ++ (text ++ after)) = text := by
  rw [trim_append blankBefore]
  by_cases empty : text = []
  · rw [empty, List.nil_append, trim_eq_nil_iff, allBlank, List.all_eq_true]
    exact blankAfter
  · have first : ∀ c ∈ (text ++ after).head?, isBlank c = false := by
      rw [List.head?_append_of_ne_nil _ empty]
      exact trimmed.first
    have last : ∀ c ∈ text.reverse.head?, isBlank c = false := by
      rw [List.head?_reverse]
      exact trimmed.last
    rw [trim, trimStart_of_first first, trimEnd_eq, List.reverse_append,
      trimStart_append fun c member => blankAfter c (List.mem_reverse.1 member),
      trimStart_of_first last, List.reverse_reverse]

/-! ## Words -/

/-- A text that is one word. -/
structure IsWord (text : List Char) : Prop where
  /-- It has characters. -/
  nonempty : text ≠ []
  /-- None of them is blank. -/
  visible : ∀ c ∈ text, isBlank c = false

variable {word rest : List Char}

theorem isWord_iff : IsWord word ↔ word ≠ [] ∧ (word.all fun c => !isBlank c) = true := by
  rw [List.all_eq_true]
  constructor
  · exact fun isWord => ⟨isWord.nonempty, fun c member => by rw [isWord.visible c member]; rfl⟩
  · exact fun ⟨nonempty, visible⟩ => ⟨nonempty, fun c member => by simpa using visible c member⟩

instance : Decidable (IsWord word) := decidable_of_iff _ isWord_iff.symm

theorem IsWord.trimmed (isWord : IsWord word) : Trimmed word where
  first c first := isWord.visible c (List.mem_of_mem_head? first)
  last c last := isWord.visible c (List.mem_of_getLast? last)

theorem words_cons_of_isBlank {c : Char} (blank : isBlank c = true) : words (c :: text) = words text := by
  rw [words, wordsFrom, if_pos blank]
  rfl

theorem words_append_of_blanks (blank : ∀ c ∈ blanks, isBlank c = true) (text : List Char) :
    words (blanks ++ text) = words text := by
  induction blanks with
  | nil => rfl
  | cons c blanks ih =>
      rw [List.forall_mem_cons] at blank
      rw [List.cons_append, words_cons_of_isBlank blank.1, ih blank.2]

theorem wordsFrom_append {current : List Char} (visible : ∀ c ∈ word, isBlank c = false) :
    wordsFrom current (word ++ rest) = wordsFrom (word.reverse ++ current) rest := by
  induction word generalizing current with
  | nil => rfl
  | cons c word ih =>
      rw [List.forall_mem_cons] at visible
      rw [List.cons_append, wordsFrom, if_neg (Bool.eq_false_iff.1 visible.1), ih visible.2,
        List.reverse_cons, List.append_assoc, List.singleton_append]

/-- A word ends where the text does or at a blank. -/
theorem IsWord.words_append (isWord : IsWord word) (apart : ∀ c ∈ rest.head?, isBlank c = true) :
    words (word ++ rest) = word :: words rest := by
  have started : word.reverse.isEmpty = false := by
    rw [List.isEmpty_eq_false_iff, Ne, List.reverse_eq_nil_iff]
    exact isWord.nonempty
  rw [words, wordsFrom_append isWord.visible, List.append_nil]
  cases rest with
  | nil =>
      rw [wordsFrom, started, if_neg Bool.false_ne_true, List.reverse_reverse]
      rfl
  | cons c rest =>
      have blank := apart c rfl
      rw [wordsFrom, if_pos blank, started, if_neg Bool.false_ne_true, List.reverse_reverse,
        words_cons_of_isBlank blank]
      rfl

/-- A text that is not blank starts with a word, blanks before it aside. -/
theorem head?_words (started : ((trim text).takeWhile fun c => !isBlank c) ≠ []) :
    (words text).head? = some ((trim text).takeWhile fun c => !isBlank c) := by
  obtain ⟨before, after, whole, blankBefore, blankAfter⟩ := exists_trim text
  let first := (trim text).takeWhile fun c => !isBlank c
  let others := (trim text).dropWhile fun c => !isBlank c
  have split : trim text = first ++ others := List.takeWhile_append_dropWhile.symm
  have isWord : IsWord first :=
    ⟨started, fun c member => by simpa using List.mem_takeWhile_imp member⟩
  have apart : ∀ c ∈ (others ++ after).head?, isBlank c = true := by
    intro c head
    cases rest : others with
    | nil =>
        rw [rest, List.nil_append] at head
        exact blankAfter c (List.mem_of_mem_head? head)
    | cons d others' =>
        have stops := List.head?_dropWhile_not (fun c => !isBlank c) (trim text)
        rw [show (trim text).dropWhile _ = d :: others' from rest] at stops
        rw [rest] at head
        cases head
        simpa using stops
  have found : words text = first :: words (others ++ after) := by
    conv_lhs => rw [whole, split]
    rw [words_append_of_blanks blankBefore, List.append_assoc, isWord.words_append apart]
  rw [found, List.head?_cons]

/-- Words with a space between each two of them. -/
def spaced (items : List (List Char)) : List Char := [' '].intercalate items

theorem spaced_cons_cons (first second : List Char) (items : List (List Char)) :
    spaced (first :: second :: items) = first ++ ' ' :: spaced (second :: items) := by
  rw [spaced, List.intercalate_cons_cons, List.append_assoc, List.singleton_append, ← spaced]

theorem words_spaced {items : List (List Char)} (areWords : ∀ item ∈ items, IsWord item) :
    words (spaced items) = items := by
  induction items with
  | nil => rfl
  | cons first items ih =>
      rw [List.forall_mem_cons] at areWords
      cases items with
      | nil =>
          have alone : words (first ++ []) = first :: words [] := areWords.1.words_append (by simp)
          rw [List.append_nil] at alone
          rw [spaced, List.intercalate_singleton, alone]
          rfl
      | cons second items =>
          rw [spaced_cons_cons, areWords.1.words_append, words_cons_of_isBlank, ih areWords.2]
          · rfl
          · rintro _ ⟨⟩
            rfl

theorem trimmed_spaced {items : List (List Char)} (areWords : ∀ item ∈ items, IsWord item) :
    Trimmed (spaced items) := by
  induction items with
  | nil => exact ⟨by simp [spaced], by simp [spaced]⟩
  | cons first items ih =>
      rw [List.forall_mem_cons] at areWords
      cases items with
      | nil =>
          rw [spaced, List.intercalate_singleton]
          exact areWords.1.trimmed
      | cons second items =>
          obtain ⟨-, last⟩ := ih areWords.2
          have nonempty : spaced (second :: items) ≠ [] := by
            intro empty
            have second := words_spaced areWords.2
            rw [empty] at second
            cases second
          rw [spaced_cons_cons]
          constructor
          · rw [List.head?_append_of_ne_nil _ areWords.1.nonempty]
            exact areWords.1.trimmed.first
          · rw [List.getLast?_append_cons, List.getLast?_cons_of_ne_nil nonempty]
            exact last

end Text
end DebugBridge
