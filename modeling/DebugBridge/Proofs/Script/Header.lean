import DebugBridge.Proofs.Script.Layout
import DebugBridge.Proofs.Text.Utf8

/-!
# Recognition of laid out headers

Each recogniser of headers reads the headers of its own construct, with the parts that they were
written from, and none of the other lines of a script.
-/

namespace DebugBridge
namespace Header

open Layout Text

/-! ## Blanks, runs and keywords -/

theorem skipIndent_append {blanks text : List Char} (indents : ∀ c ∈ blanks, isIndent c) :
    skipIndent (blanks ++ text) = skipIndent text :=
  List.dropWhile_append_of_pos indents

theorem skipIndent_of_head {text : List Char} (other : ∀ c ∈ text.head?, isIndent c = false) :
    skipIndent text = text := by
  cases text with
  | nil => rfl
  | cons c text => exact List.dropWhile_cons_of_neg (by simp [other c rfl])

theorem skipIndent_of_indents {blanks : List Char} (indents : ∀ c ∈ blanks, isIndent c) :
    skipIndent blanks = [] := by
  rw [skipIndent, List.dropWhile_eq_nil_iff]
  exact indents

/-- Where a word goes on, no blank does. -/
theorem isIndent_head {text : List Char} (word : endsWord text = false) :
    ∀ c ∈ text.head?, isIndent c = false := by
  intro c head
  rw [endsWord, Option.mem_def.1 head, Option.any_some, Bool.not_eq_false'] at word
  exact isIndent_of_isWord word

theorem skipIndent_of_word {text : List Char} (word : endsWord text = false) :
    skipIndent text = text :=
  skipIndent_of_head (isIndent_head word)

/-- A gap begins with a blank or a tab. -/
theorem exists_gap (gap : Gap) (text : List Char) :
    ∃ c rest, gap.text ++ text = c :: rest ∧ isIndent c := by
  cases found : gap.text with
  | nil => exact absurd found gap.nonempty
  | cons c blanks => exact ⟨c, _, rfl, gap.indents c (found ▸ List.mem_cons_self)⟩

theorem afterGap?_gap (gap : Gap) (text : List Char) :
    afterGap? (gap.text ++ text) = some (skipIndent text) := by
  obtain ⟨c, rest, first, indent⟩ := exists_gap gap text
  have gapped : (gap.text ++ text).head?.any isIndent = true := by rwa [first]
  rw [afterGap?, if_pos gapped, skipIndent_append gap.indents]

/-- No name goes on with a gap. -/
theorem gap_head (gap : Gap) (text : List Char) {p : Char → Bool}
    (outside : [' ', '\t'].any p = false) : ∀ c ∈ (gap.text ++ text).head?, p c = false := by
  obtain ⟨c, rest, first, indent⟩ := exists_gap gap text
  rw [first, List.head?_cons]
  rintro _ ⟨⟩
  rw [isIndent, Bool.or_eq_true, beq_iff_eq, beq_iff_eq] at indent
  exact Bool.eq_false_iff.2 (List.any_eq_false.1 outside c (by simpa using indent))

/-- A run is as long as its characters satisfy the condition. -/
theorem run?_append {p : Char → Bool} {name rest : List Char} (nonempty : name ≠ [])
    (all : ∀ c ∈ name, p c) (ends : ∀ c ∈ rest.head?, p c = false) :
    run? p (name ++ rest) = some (name, rest) := by
  have stop : rest.takeWhile p = [] ∧ rest.dropWhile p = rest := by
    cases rest with
    | nil => exact ⟨rfl, rfl⟩
    | cons c rest => simp [ends c rfl]
  rw [run?, List.takeWhile_append_of_pos all, List.dropWhile_append_of_pos all, stop.1, stop.2,
    List.append_nil]
  cases name with
  | nil => exact absurd rfl nonempty
  | cons c name => rfl

theorem run?_of_head {p : Char → Bool} {text : List Char}
    (starts : ∀ c ∈ text.head?, p c = false) : run? p text = none := by
  cases text with
  | nil => rfl
  | cons c text => rw [run?, List.takeWhile_cons_of_neg (by simp [starts c rfl])]

theorem offsetOf_append (before rest : List Char) :
    offsetOf (before ++ rest) rest = byteLength before := by
  rw [offsetOf, byteLength_append, Nat.add_sub_cancel]

/-- A keyword is read in any case. -/
theorem afterKeyword?_append {word : List Char} (keyword : Keyword word) (rest : List Char) :
    afterKeyword? word (keyword.text ++ rest) = some rest := by
  obtain ⟨text, same⟩ := keyword
  subst same
  show afterKeyword? (asciiLower text) (text ++ rest) = some rest
  induction text with
  | nil => rfl
  | cons c text ih =>
      have letter : sameLetter c.toLower c = true := by simp [sameLetter]
      rw [List.cons_append, asciiLower, List.map_cons, afterKeyword?, if_pos letter]
      exact ih

/-- A keyword is not read as one that begins otherwise. -/
theorem afterKeyword?_other {letter first : Char} {word others : List Char}
    (keyword : Keyword (first :: others)) (rest : List Char) (other : first ≠ letter)
    (plain : letter ≠ 's' ∧ letter ≠ 'k') :
    afterKeyword? (letter :: word) (keyword.text ++ rest) = none := by
  obtain ⟨text, same⟩ := keyword
  cases text with
  | nil => cases same
  | cons c text =>
      have lower : c.toLower = first := (List.cons.inj same).1
      have different : sameLetter letter c = false := by
        simp [sameLetter, lower, other, plain.1, plain.2]
      exact if_neg (by simp [different])

/-! ## What follows a name -/

/-- Characters that may follow a name and the blanks after it. -/
def stops : List Char := ['(', '[', '{', ':', '=']

/-- Whether nothing follows on a line, blanks aside, that could go on with a name. -/
def Ends (rest : List Char) : Prop := ∀ c ∈ (skipIndent rest).head?, c ∈ stops

theorem ends_append {blanks text : List Char} (indents : ∀ c ∈ blanks, isIndent c) :
    Ends (blanks ++ text) ↔ Ends text := by
  rw [Ends, Ends, skipIndent_append indents]

theorem ends_cons {c : Char} (text : List Char) (stop : c ∈ stops) : Ends (c :: text) := by
  have other : stops.any isIndent = false := by decide
  rw [Ends, skipIndent_of_head (by simpa using List.any_eq_false.1 other c stop)]
  simpa using stop

/-- Names end where nothing goes on with them. -/
theorem Ends.head {rest : List Char} (ends : Ends rest) {p : Char → Bool}
    (outside : (' ' :: '\t' :: stops).any p = false) : ∀ c ∈ rest.head?, p c = false := by
  intro c head
  refine Bool.eq_false_iff.2 (List.any_eq_false.1 outside c ?_)
  cases indent : isIndent c with
  | true =>
      rw [isIndent, Bool.or_eq_true, beq_iff_eq, beq_iff_eq] at indent
      rcases indent with rfl | rfl
      · simp
      · simp
  | false =>
      have same : skipIndent rest = rest := skipIndent_of_head fun d head' => by
        rw [Option.mem_unique head' head, indent]
      have stop := ends c (by rwa [same])
      simp [stop]

/-- After a name that begins with a keyword no gap follows, unless the name is the keyword. -/
theorem afterKeyword?_name {word name rest : List Char} (letters : ∀ c ∈ word, isWord c)
    (words : ∀ c ∈ name, isWord c) (ends : Ends rest) :
    (afterKeyword? word (name ++ rest)).bind afterGap? = none ∨
      (afterKeyword? word (name ++ rest)).bind afterGap? = afterGap? rest := by
  have isWord_of_same {letter c : Char} (word : isWord letter) (same : sameLetter letter c) :
      isWord c := by
    simp only [sameLetter, Bool.or_eq_true, Bool.and_eq_true, beq_iff_eq] at same
    rcases same with (lower | long) | kelvin
    · exact isWord_of_toLower (lower ▸ word)
    · rw [long.2, isWord_of_wide (by decide)]
      decide +kernel
    · rw [kelvin.2, isWord_of_wide (by decide)]
      decide +kernel
  -- Keyword and name are read side by side; whichever ends first decides.
  induction name generalizing word with
  | nil =>
      cases word with
      | nil => exact .inr rfl
      | cons letter word =>
          cases rest with
          | nil => exact .inl rfl
          | cons c rest =>
              have outside := ends.head (p := isWord) (by decide) c rfl
              have different : ¬ sameLetter letter c = true := fun same => by
                have inside := isWord_of_same (letters letter List.mem_cons_self) same
                rw [outside] at inside
                cases inside
              refine .inl ?_
              rw [List.nil_append, afterKeyword?, if_neg different, Option.bind_none]
  | cons c name ih =>
      rw [List.forall_mem_cons] at words
      cases word with
      | nil =>
          refine .inl (if_neg ?_)
          show ¬ isIndent c = true
          rw [isIndent_of_isWord words.1]
          exact Bool.false_ne_true
      | cons letter word =>
          rw [List.cons_append, afterKeyword?]
          split
          · exact ih (fun c mem => letters c (List.mem_cons_of_mem _ mem)) words.2
          · exact .inl rfl

/-- What follows a name is not read as what a keyword stands before. -/
theorem run?_afterKeyword? {word name rest text : List Char} {p : Char → Bool}
    (letters : word.all isWord) (words : ∀ c ∈ name, isWord c) (ends : Ends rest)
    (outside : stops.any p = false)
    (found : (afterKeyword? word (name ++ rest)).bind afterGap? = some text) :
    run? p text = none := by
  rcases afterKeyword?_name (List.all_eq_true.1 letters) words ends with none | gap
  · rw [none] at found
    cases found
  · rw [gap, afterGap?] at found
    split at found
    · cases found
      exact run?_of_head fun c head =>
        Bool.eq_false_iff.2 (List.any_eq_false.1 outside c (ends c head))
    · cases found

/-! ## Lines that begin with a word -/

section Words

variable {indent code : List Char} (indents : ∀ c ∈ indent, isIndent c)
  (begins : endsWord code = false)

include indents begins in
/-- The code of a line begins with its first word. -/
theorem exists_skipIndent : ∃ c rest, skipIndent (indent ++ code) = c :: rest ∧ isWord c := by
  rw [skipIndent_append indents, skipIndent_of_word begins]
  cases code with
  | nil => cases begins
  | cons c rest =>
      refine ⟨c, rest, rfl, ?_⟩
      simpa only [endsWord, List.head?_cons, Option.any_some, Bool.not_eq_false'] using begins

theorem ne_of_isWord {c d : Char} (word : isWord c) (outside : isWord d = false) : c ≠ d := by
  rintro rfl
  rw [outside] at word
  cases word

include indents begins

theorem opensComment_word : opensComment (indent ++ code) = false := by
  obtain ⟨c, rest, skipped, word⟩ := exists_skipIndent indents begins
  rw [opensComment, skipped, afterStart, if_neg]
  · rfl
  · simpa using (ne_of_isWord word (by decide)).symm

theorem inclusion?_word : inclusion? (indent ++ code) = none := by
  obtain ⟨c, rest, skipped, word⟩ := exists_skipIndent indents begins
  rw [inclusion?, skipped, afterStart, if_neg]
  · rfl
  · simpa using (ne_of_isWord word (by decide)).symm

theorem isDirective_word : isDirective (indent ++ code) = false := by
  obtain ⟨c, rest, skipped, word⟩ := exists_skipIndent indents begins
  rw [isDirective, skipped]
  split
  · rename_i same
    exact absurd (List.cons.inj same).1 (ne_of_isWord word (by decide))
  · rfl

theorem allBlank_word : allBlank (indent ++ code) = false := by
  obtain ⟨c, rest, skipped, word⟩ := exists_skipIndent indents begins
  have kept : c ∈ skipIndent (indent ++ code) := skipped ▸ List.mem_cons_self
  have member : c ∈ indent ++ code := (List.dropWhile_sublist isIndent).mem kept
  rw [allBlank, List.all_eq_false]
  exact ⟨c, member, by rw [isBlank_of_isWord word]; exact Bool.false_ne_true⟩

end Words

theorem endsWord_append {name : List Char} (nonempty : name ≠ []) (words : ∀ c ∈ name, isWord c)
    (rest : List Char) : endsWord (name ++ rest) = false := by
  cases name with
  | nil => exact absurd rfl nonempty
  | cons c name => simp [endsWord, words c List.mem_cons_self]

/-- Where a word goes on, it goes on whatever follows. -/
theorem endsWord_append_left {text : List Char} (word : endsWord text = false)
    (rest : List Char) : endsWord (text ++ rest) = false := by
  cases text with
  | nil => cases word
  | cons c text => exact word

/-! ## Names -/

section Names

variable {name rest : List Char} {p : Char → Bool}

theorem classChar_of_isWord {c : Char} (word : isWord c) : isClassChar c := by
  rw [isClassChar, word]
  rfl

theorem functionChar_of_isWord {c : Char} (word : isWord c) : isFunctionChar c := by
  rw [isFunctionChar, word]
  rfl

theorem propertyChar_of_isWord {c : Char} (word : isWord c) : isPropertyChar c := by
  rw [isPropertyChar, word]
  rfl

/-- A function header has a parenthesis right after its name. -/
theorem namedParen?_name (before : List Char) (isStatic : Bool) (nonempty : name ≠ [])
    (words : ∀ c ∈ name, isWord c) (rest : List Char) :
    namedParen? (before ++ name ++ '(' :: rest) isStatic (name ++ '(' :: rest) =
      some ⟨isStatic, name, byteLength (before ++ name)⟩ := by
  rw [namedParen?, run?_append nonempty (fun c mem => functionChar_of_isWord (words c mem))
    (by simp; decide)]
  simp only [Option.bind_eq_bind, Option.bind_some, List.head?_cons, beq_self_eq_true, if_true,
    offsetOf_append]
  rfl

/-- Without the parenthesis a name is no function header. -/
theorem namedParen?_other (line : List Char) (isStatic : Bool) (nonempty : name ≠ [])
    (words : ∀ c ∈ name, isWord c) (ends : ∀ c ∈ rest.head?, isFunctionChar c = false)
    (other : rest.head? ≠ some '(') : namedParen? line isStatic (name ++ rest) = none := by
  rw [namedParen?, run?_append nonempty (fun c mem => functionChar_of_isWord (words c mem)) ends]
  exact if_neg (by simpa using other)

end Names

/-! ## Ends of headers -/

section Openings

variable (before : List Char) (opening : Opening)

theorem skipIndent_brace (gap : Blanks) (text : List Char) :
    skipIndent (gap.text ++ '{' :: text) = '{' :: text := by
  rw [skipIndent_append gap.indents, skipIndent_of_head (by simp; decide)]

theorem ends_tail : Ends opening.tail := by
  cases opening with
  | sameLine gap after => exact (ends_append gap.indents).2 (ends_cons _ (by decide))
  | nextLine after indent gap => simp [Ends, Opening.tail, skipIndent_of_indents after.indents]

theorem bracePart?_tail :
    bracePart? (before ++ opening.tail) opening.tail =
      some (opening.brace? (byteLength before)) := by
  cases opening with
  | sameLine gap after =>
      simp only [bracePart?, Opening.tail, skipIndent_brace, ← List.append_assoc, offsetOf_append,
        byteLength_append, Opening.brace?]
  | nextLine after indent gap =>
      simp only [bracePart?, Opening.tail, skipIndent_of_indents after.indents, Opening.brace?]

/-- How the header of a property or accessor ends. -/
def endingOf (opening : Opening) (offset : Nat) : Ending :=
  match opening.brace? offset with
  | some brace => .brace brace
  | none => .line

theorem ending?_tail :
    ending? (before ++ opening.tail) opening.tail =
      some (endingOf opening (byteLength before)) := by
  cases opening with
  | sameLine gap after =>
      simp only [ending?, Opening.tail, skipIndent_brace, skipIndent_of_indents after.indents,
        List.isEmpty_nil, if_true, ← List.append_assoc, offsetOf_append, byteLength_append,
        endingOf, Opening.brace?]
  | nextLine after indent gap =>
      simp only [ending?, Opening.tail, skipIndent_of_indents after.indents, endingOf,
        Opening.brace?]

theorem extension?_tail (line : List Char) : extension? line opening.tail = none := by
  rw [extension?, afterGap?]
  split
  · cases opening with
    | sameLine gap after => simp [Opening.tail, skipIndent_brace, afterKeyword?, sameLetter]
    | nextLine after indent gap =>
        simp [Opening.tail, skipIndent_of_indents after.indents, afterKeyword?]
  · rfl

end Openings

/-! ## Modifiers -/

section Modifiers

variable {indent name rest : List Char} (indents : ∀ c ∈ indent, isIndent c)
  (nonempty : name ≠ []) (words : ∀ c ∈ name, isWord c)

/-- A name is read after the modifier before it. -/
theorem afterModifier_some (modifier : Modifier) {rest : List Char}
    (begins : endsWord rest = false) :
    (afterKeyword? "static".toList (modifierText (some modifier) ++ rest)).bind afterGap? =
      some rest := by
  rw [modifierText, List.append_assoc, afterKeyword?_append, Option.bind_some, afterGap?_gap,
    skipIndent_of_word begins]

include nonempty words in
theorem endsWord_modifierText (modifier : Option Modifier) (rest : List Char) :
    endsWord (modifierText modifier ++ (name ++ rest)) = false := by
  cases modifier with
  | none => exact endsWord_append nonempty words rest
  | some modifier =>
      rw [modifierText, List.append_assoc]
      exact endsWord_append (modifier.keyword.nonempty (by decide))
        (modifier.keyword.words (by decide)) _

include indents nonempty words in
theorem skipIndent_modifierText (modifier : Option Modifier) (rest : List Char) :
    skipIndent (indent ++ (modifierText modifier ++ (name ++ rest))) =
      modifierText modifier ++ (name ++ rest) := by
  rw [skipIndent_append indents,
    skipIndent_of_word (endsWord_modifierText nonempty words modifier rest)]

end Modifiers

/-! ## Classes -/

/-- A name with what may follow it is no class header, with or without a modifier. -/
theorem classHeader?_name {indent name rest : List Char} (indents : ∀ c ∈ indent, isIndent c)
    (modifier : Option Modifier) (nonempty : name ≠ []) (words : ∀ c ∈ name, isWord c)
    (ends : Ends rest) :
    classHeader? (indent ++ (modifierText modifier ++ (name ++ rest))) = none := by
  rw [classHeader?, skipIndent_modifierText indents nonempty words]
  cases modifier with
  | none =>
      rw [modifierText, List.nil_append]
      cases keyword : afterKeyword? "class".toList (name ++ rest) with
      | none => rfl
      | some gapped =>
          cases gap : afterGap? gapped with
          | none => simp [gap]
          | some text =>
              have found : (afterKeyword? "class".toList (name ++ rest)).bind afterGap? =
                  some text := by
                rw [keyword, Option.bind_some, gap]
              have none : run? isClassChar text = none :=
                run?_afterKeyword? (by decide) words ends (by decide) found
              simp [gap, none]
  | some modifier =>
      have other : afterKeyword? "class".toList
          (modifier.keyword.text ++ (modifier.gap.text ++ (name ++ rest))) = none :=
        afterKeyword?_other modifier.keyword _ (by decide) (by decide)
      rw [modifierText, List.append_assoc, other]
      rfl

/-- The base of a class is read after the name of the class. -/
theorem extension?_extensionText (before : List Char) (extension : Extension) (opening : Opening) :
    extension? (before ++ opening.tail) (extensionText (some extension) ++ opening.tail) =
      some (extension.base.text, opening.brace? (byteLength before)) := by
  obtain ⟨gap, keyword, second, base⟩ := extension
  have word : endsWord (keyword.text ++ (second.text ++ (base.text ++ opening.tail))) = false :=
    endsWord_append (keyword.nonempty (by decide)) (keyword.words (by decide)) _
  have name : endsWord (base.text ++ opening.tail) = false :=
    endsWord_append base.nonempty base.words _
  have run := run?_append (p := isClassChar) base.nonempty
    (fun c mem => classChar_of_isWord (base.words c mem))
    ((ends_tail opening).head (by decide))
  simp only [extension?, extensionText, List.append_assoc, afterGap?_gap, Option.bind_eq_bind,
    Option.bind_some, skipIndent_of_word word, afterKeyword?_append, skipIndent_of_word name, run,
    bracePart?_tail]
  rfl

/-- A class header is read with its name, its base and its brace. -/
theorem classHeader?_classDef {place : Layout.Place} (declares : place ≠ .propertyBody)
    (indent : Blanks) (keyword : Keyword "class".toList) (gap : Gap) (name : Identifier)
    (base : Option Extension) (opening : Opening) {before : List Char}
    (written : before = indent.text ++ (Heading.classDef declares keyword gap name base).text) :
    classHeader? (before ++ opening.tail) =
      some ⟨name.text, base.map fun extension => extension.base.text,
        opening.brace? (byteLength before)⟩ := by
  have word (rest : List Char) : endsWord (keyword.text ++ rest) = false :=
    endsWord_append (keyword.nonempty (by decide)) (keyword.words (by decide)) _
  have text : skipIndent (before ++ opening.tail) =
      keyword.text ++ (gap.text ++ (name.text ++ (extensionText base ++ opening.tail))) := by
    rw [written, Heading.text]
    simp only [List.append_assoc]
    rw [skipIndent_append indent.indents, skipIndent_of_word (word _)]
  have follows : ∀ c ∈ (extensionText base ++ opening.tail).head?, isClassChar c = false := by
    cases base with
    | none => exact (ends_tail opening).head (by decide)
    | some extension =>
        simp only [extensionText, List.append_assoc]
        exact gap_head extension.before _ (by decide)
  have run := run?_append (p := isClassChar) name.nonempty
    (fun c mem => classChar_of_isWord (name.words c mem)) follows
  rw [classHeader?, text, afterKeyword?_append, Option.bind_eq_bind, Option.bind_some,
    afterGap?_gap, Option.bind_eq_bind, Option.bind_some,
    skipIndent_of_word (endsWord_append name.nonempty name.words _), run, Option.bind_eq_bind,
    Option.bind_some]
  dsimp only
  cases base with
  | none =>
      rw [extensionText, List.nil_append, extension?_tail, bracePart?_tail]
      rfl
  | some extension =>
      rw [extension?_extensionText]
      rfl

/-! ## Functions -/

theorem functionHeader?_eq (line : List Char) : functionHeader? line =
    (((afterKeyword? "static".toList (skipIndent line)).bind afterGap?).bind
      (namedParen? line true)).or (namedParen? line false (skipIndent line)) := by
  rw [functionHeader?, Option.orElse_eq_orElse, Option.orElse_eq_or, Option.bind_assoc]
  rfl

/-- Where no name is, no function header is read. -/
theorem namedParen?_of_run? {line text : List Char} (isStatic : Bool)
    (none : run? isFunctionChar text = none) : namedParen? line isStatic text = Option.none := by
  rw [namedParen?, none]
  rfl

/-- A function header is read with its modifier, its name and its parenthesis. -/
theorem functionHeader?_signature (indent : Blanks) (header : Signature) (rest : List Char) :
    functionHeader? (indent.text ++ (header.text ++ rest)) =
      some ⟨header.modifier.isSome, header.name.text,
        byteLength (indent.text ++ (modifierText header.modifier ++ header.name.text))⟩ := by
  obtain ⟨modifier, name, params⟩ := header
  have written : indent.text ++ ((Signature.mk modifier name params).text ++ rest) =
      (indent.text ++ modifierText modifier) ++ name.text ++
        '(' :: (params.text ++ ')' :: rest) := by
    simp [Signature.text]
  have skipped : skipIndent (indent.text ++ ((Signature.mk modifier name params).text ++ rest)) =
      modifierText modifier ++ (name.text ++ '(' :: (params.text ++ ')' :: rest)) := by
    rw [written, List.append_assoc, List.append_assoc,
      skipIndent_modifierText indent.indents name.nonempty name.words]
  rw [functionHeader?_eq, skipped, written]
  cases modifier with
  | none =>
      have unmodified (line : List Char) : ((afterKeyword? "static".toList
          (name.text ++ '(' :: (params.text ++ ')' :: rest))).bind afterGap?).bind
            (namedParen? line true) = none := by
        refine Option.bind_eq_none_iff.2 fun text found => namedParen?_of_run? true ?_
        exact run?_afterKeyword? (by decide) name.words (ends_cons _ (by decide)) (by decide) found
      rw [modifierText, List.nil_append, unmodified, namedParen?_name _ _ name.nonempty name.words]
      simp
  | some modifier =>
      rw [afterModifier_some modifier (endsWord_append name.nonempty name.words _),
        Option.bind_some, namedParen?_name _ _ name.nonempty name.words]
      simp

/-- A name without a parenthesis after it is no function header, with or without a modifier. -/
theorem functionHeader?_name {indent name rest : List Char} (indents : ∀ c ∈ indent, isIndent c)
    (modifier : Option Modifier) (nonempty : name ≠ []) (words : ∀ c ∈ name, isWord c)
    (ends : Ends rest) (other : rest.head? ≠ some '(') :
    functionHeader? (indent ++ (modifierText modifier ++ (name ++ rest))) = none := by
  have unnamed (line : List Char) (isStatic : Bool) :
      namedParen? line isStatic (name ++ rest) = none :=
    namedParen?_other line isStatic nonempty words (ends.head (by decide)) other
  rw [functionHeader?_eq, skipIndent_modifierText indents nonempty words]
  cases modifier with
  | none =>
      rw [modifierText, List.nil_append, unnamed]
      rw [Option.or_none]
      refine Option.bind_eq_none_iff.2 fun text found => namedParen?_of_run? true ?_
      exact run?_afterKeyword? (by decide) words ends (by decide) found
  | some modifier =>
      obtain ⟨c, gapped, first, indent⟩ := exists_gap modifier.gap (name ++ rest)
      have separate : (modifier.gap.text ++ (name ++ rest)).head? ≠ some '(' := by
        rw [first]
        rintro ⟨⟩
        exact absurd indent (by decide)
      rw [afterModifier_some modifier (endsWord_append nonempty words _), Option.bind_some,
        unnamed, modifierText, List.append_assoc,
        namedParen?_other _ _ (modifier.keyword.nonempty (by decide))
          (modifier.keyword.words (by decide)) (gap_head modifier.gap _ (by decide)) separate]
      rfl

/-! ## Properties and accessors -/

theorem propertyHeader?_eq (line : List Char) : propertyHeader? line =
    (((afterKeyword? "static".toList (skipIndent line)).bind afterGap?).bind
      (namedProperty? line true)).or (namedProperty? line false (skipIndent line)) := by
  rw [propertyHeader?, Option.orElse_eq_orElse, Option.orElse_eq_or, Option.bind_assoc]
  rfl

/-- Where no name is, no property header is read. -/
theorem namedProperty?_of_run? {line text : List Char} (isStatic : Bool)
    (none : run? isPropertyChar text = none) : namedProperty? line isStatic text = Option.none := by
  rw [namedProperty?, none]
  rfl

theorem skipIndent_idem (text : List Char) : skipIndent (skipIndent text) = skipIndent text := by
  refine skipIndent_of_head fun c head => ?_
  have other := List.head?_dropWhile_not isIndent text
  rw [← skipIndent, Option.mem_def.1 head] at other
  simpa using other

theorem ending?_skipIndent (line text : List Char) :
    ending? line (skipIndent text) = ending? line text := by
  rw [ending?, ending?, skipIndent_idem]

theorem afterBrackets?_tail (opening : Opening) :
    afterBrackets? (skipIndent opening.tail) = none := by
  cases opening with
  | sameLine gap after => rw [Opening.tail, skipIndent_brace]; rfl
  | nextLine after indent gap => rw [Opening.tail, skipIndent_of_indents after.indents]; rfl

theorem afterBrackets?_bracketed (params : Params) (rest : List Char) :
    afterBrackets? (params.bracketed ++ rest) = some rest := by
  have inside : ∀ c ∈ params.text, (c != ']') = true := by
    intro c mem
    have param := params.params c mem
    rw [bne_iff_ne]
    rintro rfl
    exact absurd param (by decide)
  have written : params.bracketed ++ rest = '[' :: (params.text ++ ']' :: rest) := by
    simp [Params.bracketed]
  rw [written, afterBrackets?, List.dropWhile_append_of_pos inside]
  rfl

/-- Byte offsets of bracketed parameters after a part of a line. -/
def bracketsRange (offset : Nat) : Option (Blanks × Params) → Option (Nat × Nat)
  | none => none
  | some (gap, params) =>
    some (offset + byteLength gap.text, offset + byteLength gap.text + byteLength params.bracketed)

theorem ends_bracketsText (params : Option (Blanks × Params)) (opening : Opening) :
    Ends (bracketsText params ++ opening.tail) := by
  cases params with
  | none => exact ends_tail opening
  | some params =>
      rw [bracketsText, List.append_assoc, ends_append params.1.indents]
      exact ends_cons _ (by decide)

/-- A property header is read from its name on, with its parameters and its end. -/
theorem namedProperty?_name (before : List Char) (isStatic : Bool) (name : Identifier)
    (params : Option (Blanks × Params)) (opening : Opening) :
    namedProperty? (before ++ (name.text ++ (bracketsText params ++ opening.tail))) isStatic
        (name.text ++ (bracketsText params ++ opening.tail)) =
      some ⟨isStatic, name.text, bracketsRange (byteLength (before ++ name.text)) params,
        endingOf opening (byteLength (before ++ (name.text ++ bracketsText params)))⟩ := by
  rw [namedProperty?, run?_append name.nonempty
    (fun c mem => propertyChar_of_isWord (name.words c mem))
    ((ends_bracketsText params opening).head (by decide))]
  cases params with
  | none =>
      simp only [bracketsText, List.nil_append, Option.bind_eq_bind, Option.bind_some,
        afterBrackets?_tail, ending?_skipIndent, ← List.append_assoc, ending?_tail,
        List.append_nil, bracketsRange]
      rfl
  | some params =>
      obtain ⟨gap, params⟩ := params
      have bracket : skipIndent (gap.text ++ (params.bracketed ++ opening.tail)) =
          params.bracketed ++ opening.tail := by
        rw [skipIndent_append gap.indents, Params.bracketed]
        exact skipIndent_of_head (by simp; decide)
      simp only [bracketsText, List.append_assoc, Option.bind_eq_bind, Option.bind_some, bracket,
        afterBrackets?_bracketed]
      have start : offsetOf
          (before ++ (name.text ++ (gap.text ++ (params.bracketed ++ opening.tail))))
          (params.bracketed ++ opening.tail) = byteLength (before ++ (name.text ++ gap.text)) := by
        rw [← offsetOf_append _ (params.bracketed ++ opening.tail)]
        simp only [List.append_assoc]
      have stop : offsetOf
          (before ++ (name.text ++ (gap.text ++ (params.bracketed ++ opening.tail))))
          opening.tail = byteLength (before ++ (name.text ++ (gap.text ++ params.bracketed))) := by
        rw [← offsetOf_append _ opening.tail]
        simp only [List.append_assoc]
      have ending := ending?_tail (before ++ (name.text ++ (gap.text ++ params.bracketed))) opening
      simp only [List.append_assoc] at ending
      rw [start, stop, ending]
      simp [bracketsRange, Nat.add_assoc]

/-- A property header is read with its modifier, its name, its parameters and its end. -/
theorem propertyHeader?_property (indent : Blanks) (modifier : Option Modifier) (name : Identifier)
    (params : Option (Blanks × Params)) (opening : Opening) :
    propertyHeader? (indent.text ++ (modifierText modifier ++
        (name.text ++ (bracketsText params ++ opening.tail)))) =
      some ⟨modifier.isSome, name.text,
        bracketsRange (byteLength (indent.text ++ modifierText modifier ++ name.text)) params,
        endingOf opening (byteLength (indent.text ++ modifierText modifier ++
          (name.text ++ bracketsText params)))⟩ := by
  rw [propertyHeader?_eq, skipIndent_modifierText indent.indents name.nonempty name.words,
    ← List.append_assoc indent.text]
  cases modifier with
  | none =>
      have unmodified (line : List Char) : ((afterKeyword? "static".toList
          (name.text ++ (bracketsText params ++ opening.tail))).bind afterGap?).bind
            (namedProperty? line true) = none := by
        refine Option.bind_eq_none_iff.2 fun text found => namedProperty?_of_run? true ?_
        exact run?_afterKeyword? (by decide) name.words (ends_bracketsText params opening)
          (by decide) found
      rw [modifierText, List.nil_append, unmodified, namedProperty?_name]
      simp
  | some modifier =>
      rw [afterModifier_some modifier (endsWord_append name.nonempty name.words _),
        Option.bind_some, namedProperty?_name]
      rfl

/-- An assignment is no property header. -/
theorem propertyHeader?_assignment {indent name blanks : List Char}
    (indents : ∀ c ∈ indent, isIndent c) (nonempty : name ≠ []) (words : ∀ c ∈ name, isWord c)
    (gap : ∀ c ∈ blanks, isIndent c) (rest : List Char) :
    propertyHeader? (indent ++ (name ++ (blanks ++ ':' :: rest))) = none := by
  have ends : Ends (blanks ++ ':' :: rest) := (ends_append gap).2 (ends_cons _ (by decide))
  have colon : skipIndent (blanks ++ ':' :: rest) = ':' :: rest := by
    rw [skipIndent_append gap, skipIndent_of_head (by simp; decide)]
  have unnamed (line : List Char) :
      namedProperty? line false (name ++ (blanks ++ ':' :: rest)) = none := by
    rw [namedProperty?, run?_append nonempty (fun c mem => propertyChar_of_isWord (words c mem))
      (ends.head (by decide))]
    simp only [Option.bind_eq_bind, Option.bind_some, colon, afterBrackets?]
    rw [← colon, ending?_skipIndent, ending?, colon]
    rfl
  have text := skipIndent_modifierText indents nonempty words none (blanks ++ ':' :: rest)
  rw [modifierText, List.nil_append] at text
  rw [propertyHeader?_eq, text, unnamed, Option.or_none]
  refine Option.bind_eq_none_iff.2 fun text found => namedProperty?_of_run? true ?_
  exact run?_afterKeyword? (by decide) words ends (by decide) found

/-- An accessor header is read with its name, in lower case, and its end. -/
theorem accessorHeader?_accessor (indent : Blanks) {word : String}
    (isAccessor : word ∈ ["get", "set"]) (keyword : Keyword word.toList) (opening : Opening) :
    accessorHeader? (indent.text ++ keyword.text ++ opening.tail) =
      some (word.toList, endingOf opening (byteLength (indent.text ++ keyword.text))) := by
  have two : word = "get" ∨ word = "set" := by simpa using isAccessor
  have letters : word.toList ≠ [] ∧ word.toList.all isWord := by
    rcases two with rfl | rfl <;> decide
  have length : keyword.text.length = 3 := by
    have same := congrArg List.length keyword.same
    rw [asciiLower, List.length_map] at same
    rcases two with rfl | rfl <;> exact same
  have text : skipIndent (indent.text ++ keyword.text ++ opening.tail) =
      keyword.text ++ opening.tail := by
    rw [List.append_assoc, skipIndent_append indent.indents,
      skipIndent_of_word (endsWord_append (keyword.nonempty letters.1) (keyword.words letters.2) _)]
  have name : asciiLower ((keyword.text ++ opening.tail).take 3) = word.toList := by
    rw [List.take_left' length, keyword.same]
  have read : (afterKeyword? "get".toList (keyword.text ++ opening.tail) <|>
      afterKeyword? "set".toList (keyword.text ++ opening.tail)) = some opening.tail := by
    rcases two with rfl | rfl
    · rw [afterKeyword?_append]
      rfl
    · have other : afterKeyword? "get".toList (keyword.text ++ opening.tail) = none :=
        afterKeyword?_other keyword _ (by decide) (by decide)
      rw [other, afterKeyword?_append]
      rfl
  rw [accessorHeader?, text, read, Option.bind_eq_bind, Option.bind_some, name, ending?_tail]
  rfl

/-- A blank line is no accessor header. -/
theorem accessorHeader?_blank (blanks : Blanks) : accessorHeader? blanks.text = none := by
  rw [accessorHeader?, skipIndent_of_indents blanks.indents]
  rfl

end Header
end DebugBridge
