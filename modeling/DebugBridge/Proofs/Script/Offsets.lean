import DebugBridge.Proofs.Script.Header
import DebugBridge.Proofs.Text.Blank

/-!
# Offsets in headers

A recogniser hands on what is left of its line, so each offset that it reports is the length of a
beginning of the line, and the character that it reports stands there.
-/

namespace DebugBridge
namespace Header

open Text

variable {line text rest : List Char}

/-- An offset of a character in a line. -/
def StandsAt (line : List Char) (offset : Nat) (c : Char) : Prop :=
  ∃ before after, line = before ++ c :: after ∧ offset = byteLength before

theorem skipIndent_suffix (text : List Char) : skipIndent text <:+ text :=
  List.dropWhile_suffix _

theorem afterStart_suffix {start : List Char} (found : afterStart start text = some rest) :
    rest <:+ text :=
  ⟨start, (Text.afterStart_eq_some.1 found).symm⟩

theorem afterKeyword?_suffix {word : List Char} (found : afterKeyword? word text = some rest) :
    rest <:+ text := by
  induction word generalizing text with
  | nil =>
      cases found
      exact List.suffix_refl _
  | cons letter word ih =>
      cases text with
      | nil => cases found
      | cons c text =>
          rw [afterKeyword?] at found
          split at found
          · exact (ih found).trans (List.suffix_cons _ _)
          · cases found

theorem afterGap?_suffix (found : afterGap? text = some rest) : rest <:+ text := by
  unfold afterGap? at found
  split at found
  · cases found
    exact skipIndent_suffix text
  · cases found

theorem run?_suffix {p : Char → Bool} {name : List Char} (found : run? p text = some (name, rest)) :
    rest <:+ text := by
  unfold run? at found
  split at found
  · cases found
  · cases found
    exact List.dropWhile_suffix _

theorem afterBrackets?_split (found : afterBrackets? text = some rest) :
    ∃ inner, text = '[' :: inner ++ ']' :: rest := by
  unfold afterBrackets? at found
  split at found
  next inner =>
    split at found
    next c after stop =>
      cases found
      have split : inner = inner.takeWhile (· != ']') ++ inner.dropWhile (· != ']') :=
        List.takeWhile_append_dropWhile.symm
      have head := List.head?_dropWhile_not (· != ']') inner
      rw [stop] at split head
      have bracket : c = ']' := by simpa using head
      rw [bracket] at split
      exact ⟨inner.takeWhile (· != ']'), congrArg ('[' :: ·) split⟩
    next => cases found
  next => cases found

/-- The offset of an end of a line is the length of what comes before it. -/
theorem standsAt_offsetOf {c : Char} (suffix : c :: rest <:+ line) :
    StandsAt line (offsetOf line (c :: rest)) c := by
  obtain ⟨before, rfl⟩ := suffix
  exact ⟨before, rest, rfl, offsetOf_append _ _⟩

theorem bracePart?_standsAt {offset : Nat} (suffix : rest <:+ line)
    (found : bracePart? line rest = some (some offset)) : StandsAt line offset '{' := by
  unfold bracePart? at found
  split at found
  · cases found
  next more brace =>
    cases found
    exact standsAt_offsetOf (brace ▸ (skipIndent_suffix rest).trans suffix)
  · cases found

theorem ending?_standsAt {offset : Nat} (suffix : rest <:+ line)
    (found : ending? line rest = some (.brace offset)) : StandsAt line offset '{' := by
  unfold ending? at found
  split at found
  · cases found
  · cases found
  next more brace =>
    split at found
    · cases found
      exact standsAt_offsetOf (brace ▸ (skipIndent_suffix rest).trans suffix)
    · cases found
  · cases found

/-- The brace of a class header stands where the header says. -/
theorem classHeader?_brace {header : ClassHeader} {offset : Nat}
    (found : classHeader? line = some header) (brace : header.brace = some offset) :
    StandsAt line offset '{' := by
  simp only [classHeader?, Option.pure_def, Option.bind_eq_bind, Option.bind_eq_some_iff] at found
  obtain ⟨word, keyword, gap, afterWord, ⟨name, rest⟩, named, found⟩ := found
  have suffix : rest <:+ line := (run?_suffix named).trans ((afterGap?_suffix afterWord).trans
    ((afterKeyword?_suffix keyword).trans (skipIndent_suffix line)))
  split at found
  next base opening extended =>
    cases found
    obtain rfl : opening = some offset := brace
    simp only [extension?, Option.pure_def, Option.bind_eq_bind, Option.bind_eq_some_iff] at extended
    obtain ⟨gap, before, word, keyword, more, between, ⟨base, tail⟩, named, opening, part, same⟩ :=
      extended
    cases same
    have inner : tail <:+ rest := (run?_suffix named).trans ((afterGap?_suffix between).trans
      ((afterKeyword?_suffix keyword).trans (afterGap?_suffix before)))
    exact bracePart?_standsAt (inner.trans suffix) part
  next =>
    simp only [Option.bind_eq_some_iff] at found
    obtain ⟨opening, part, same⟩ := found
    cases same
    obtain rfl : opening = some offset := brace
    exact bracePart?_standsAt suffix part

/-- What may follow a modifier. -/
theorem afterModifier_suffix {word : List Char}
    (found : afterKeyword? "static".toList (skipIndent line) = some word)
    (gap : afterGap? word = some rest) : rest <:+ line :=
  (afterGap?_suffix gap).trans ((afterKeyword?_suffix found).trans (skipIndent_suffix line))

/-- The parenthesis of a function header stands where the header says. -/
theorem functionHeader?_paren {header : FunctionHeader}
    (found : functionHeader? line = some header) : StandsAt line header.paren '(' := by
  have named {isStatic : Bool} {text : List Char} (suffix : text <:+ line)
      (found : namedParen? line isStatic text = some header) : StandsAt line header.paren '(' := by
    simp only [namedParen?, Option.pure_def, Option.bind_eq_bind, Option.bind_eq_some_iff] at found
    obtain ⟨⟨name, rest⟩, run, found⟩ := found
    split at found
    next paren =>
      cases found
      obtain ⟨after, rfl⟩ := List.head?_eq_some_iff.1 (beq_iff_eq.1 paren)
      exact standsAt_offsetOf ((run?_suffix run).trans suffix)
    next => cases found
  simp only [functionHeader?, Option.orElse_eq_orElse, Option.orElse_eq_or, Option.or_eq_some_iff,
    Option.bind_eq_bind, Option.bind_eq_some_iff] at found
  rcases found with ⟨word, keyword, rest, gap, found⟩ | ⟨-, found⟩
  · exact named (afterModifier_suffix keyword gap) found
  · exact named (skipIndent_suffix line) found

/-- Brackets that stand in a line. -/
def BracketsAt (line : List Char) (range : Nat × Nat) : Prop :=
  ∃ before inner after, line = before ++ '[' :: (inner ++ ']' :: after) ∧
    range = (byteLength before, byteLength (before ++ '[' :: (inner ++ [']'])))

theorem propertyHeader?_parts {header : PropertyHeader}
    (found : propertyHeader? line = some header) :
    (∀ range, header.params = some range → BracketsAt line range) ∧
      ∀ offset, header.ending = .brace offset → StandsAt line offset '{' := by
  have named {isStatic : Bool} {text : List Char} (suffix : text <:+ line)
      (found : namedProperty? line isStatic text = some header) :
      (∀ range, header.params = some range → BracketsAt line range) ∧
        ∀ offset, header.ending = .brace offset → StandsAt line offset '{' := by
    simp only [namedProperty?, Option.pure_def, Option.bind_eq_bind,
      Option.bind_eq_some_iff] at found
    obtain ⟨⟨name, rest⟩, run, found⟩ := found
    have inner : skipIndent rest <:+ line :=
      (skipIndent_suffix rest).trans ((run?_suffix run).trans suffix)
    dsimp only at found
    split at found
    next after bracketed =>
      simp only [Option.bind_eq_some_iff, Option.some.injEq] at found
      obtain ⟨ending, ends, rfl⟩ := found
      obtain ⟨brackets, split⟩ := afterBrackets?_split bracketed
      obtain ⟨before, whole⟩ := inner
      rw [split] at whole
      refine ⟨?_, ?_⟩
      · rintro _ ⟨⟩
        refine ⟨before, brackets, after, whole.symm, ?_⟩
        rw [split, ← whole, offsetOf_append]
        have tail : before ++ ('[' :: brackets ++ ']' :: after) =
            (before ++ '[' :: (brackets ++ [']'])) ++ after := by simp
        rw [tail, offsetOf_append]
      · rintro offset rfl
        exact ending?_standsAt ⟨before ++ '[' :: (brackets ++ [']']), by simp [← whole]⟩ ends
    next =>
      simp only [Option.bind_eq_some_iff, Option.some.injEq] at found
      obtain ⟨ending, ends, rfl⟩ := found
      refine ⟨?_, ?_⟩
      · rintro _ ⟨⟩
      · rintro offset rfl
        exact ending?_standsAt inner ends
  simp only [propertyHeader?, Option.orElse_eq_orElse, Option.orElse_eq_or, Option.or_eq_some_iff,
    Option.bind_eq_bind, Option.bind_eq_some_iff] at found
  rcases found with ⟨word, keyword, rest, gap, found⟩ | ⟨-, found⟩
  · exact named (afterModifier_suffix keyword gap) found
  · exact named (skipIndent_suffix line) found

theorem accessorHeader?_brace {name : List Char} {offset : Nat}
    (found : accessorHeader? line = some (name, .brace offset)) : StandsAt line offset '{' := by
  simp only [accessorHeader?, Option.pure_def, Option.bind_eq_bind, Option.bind_eq_some_iff,
    Option.orElse_eq_orElse, Option.orElse_eq_or] at found
  obtain ⟨rest, keyword, ending, ends, same⟩ := found
  cases same
  refine ending?_standsAt ?_ ends
  rcases Option.or_eq_some_iff.1 keyword with get | ⟨-, set⟩
  · exact (afterKeyword?_suffix get).trans (skipIndent_suffix line)
  · exact (afterKeyword?_suffix set).trans (skipIndent_suffix line)

/-- A space is no letter but itself. -/
theorem ne_space_of_sameLetter {letter c : Char} (other : letter ≠ ' ')
    (same : sameLetter letter c = true) : c ≠ ' ' := by
  rintro rfl
  have lower : ' '.toLower = ' ' := by decide
  simp [sameLetter, lower, other.symm] at same

/-- A keyword without spaces is read from a text without spaces. -/
theorem afterKeyword?_split {word : List Char} (plain : ∀ letter ∈ word, letter ≠ ' ')
    (found : afterKeyword? word text = some rest) :
    ∃ read, text = read ++ rest ∧ read.length = word.length ∧ ' ' ∉ read := by
  induction word generalizing text with
  | nil =>
      cases found
      exact ⟨[], rfl, rfl, List.not_mem_nil⟩
  | cons letter word ih =>
      obtain ⟨first, others⟩ := List.forall_mem_cons.1 plain
      cases text with
      | nil => cases found
      | cons c text =>
          rw [afterKeyword?] at found
          split at found
          next same =>
            obtain ⟨read, rfl, length, spaceless⟩ := ih others found
            have other := (ne_space_of_sameLetter first same).symm
            exact ⟨c :: read, rfl, congrArg (· + 1) length, by simp [other, spaceless]⟩
          next => cases found

/-- What follows a keyword in a line follows one of its letters. -/
theorem exists_before_keyword {word : List Char} (nonempty : word ≠ [])
    (plain : ∀ letter ∈ word, letter ≠ ' ') (suffix : text <:+ line)
    (found : afterKeyword? word text = some rest) :
    ∃ before, line = before ++ rest ∧ before.getLast? ≠ some ' ' := by
  obtain ⟨front, rfl⟩ := suffix
  obtain ⟨read, rfl, length, spaceless⟩ := afterKeyword?_split plain found
  refine ⟨front ++ read, (List.append_assoc _ _ _).symm, fun last => spaceless ?_⟩
  have some_read : read ≠ [] := by
    rintro rfl
    exact nonempty (List.length_eq_zero_iff.1 length.symm)
  rw [List.getLast?_append_of_ne_nil _ some_read] at last
  exact List.mem_of_getLast? last

/-- The argument of an include directive follows a letter. -/
theorem inclusion?_argument {header : Inclusion} (found : inclusion? line = some header) :
    ∃ before, line = before ++ header.argument ∧ header.offset = byteLength before ∧
      before.getLast? ≠ some ' ' := by
  have placed {again : Bool} {argument : List Char}
      (eq : header = ⟨again, offsetOf line argument, argument⟩)
      (follows : ∃ before, line = before ++ argument ∧ before.getLast? ≠ some ' ') :
      ∃ before, line = before ++ header.argument ∧ header.offset = byteLength before ∧
        before.getLast? ≠ some ' ' := by
    obtain ⟨before, rfl, last⟩ := follows
    subst eq
    exact ⟨before, rfl, offsetOf_append _ _, last⟩
  simp only [inclusion?, Option.pure_def, Option.bind_eq_bind, Option.bind_eq_some_iff] at found
  obtain ⟨word, hash, rest, keyword, found⟩ := found
  have suffix : word <:+ line := (afterStart_suffix hash).trans (skipIndent_suffix line)
  split at found
  next argument again =>
    split at found
    · refine placed (Option.some.inj found).symm 
        (exists_before_keyword (by simp) (by simp) ?_ again)
      exact (afterKeyword?_suffix keyword).trans suffix
    · cases found
  next =>
    split at found
    · exact placed (Option.some.inj found).symm
        (exists_before_keyword (by simp) (by simp) suffix keyword)
    · cases found

end Header
end DebugBridge
