import DebugBridge.Script.Header
import DebugBridge.Script.Mask
import DebugBridge.Script.Node
import Mathlib

/-!
# Scripts laid out in lines

A script as its author sees it: a forest of classes, functions, properties and accessors between
assignments and blank lines, with the layout that it is written in.  From a forest come the lines of
its text and the outline that a scan should find in them.  A forest is indexed by the place where it
stands, so that a property stands in a class and an accessor in a property.
-/

namespace DebugBridge
namespace Layout

/-! ## Characters -/

/-- Whether a character neither opens a string or a comment nor escapes what follows it. -/
def isInert (c : Char) : Bool := !(['\x22', '\x27', ';', '\x60', '/'].contains c)

/-- Whether a character stays within its line and its block. -/
def isCalm (c : Char) : Bool := isInert c && !(['{', '}', '\n', '\r'].contains c)

/-- Whether a character may stand in a parameter list. -/
def isParam (c : Char) : Bool := isCalm c && !(['(', ')', ']'].contains c)

theorem isCalm_of_isParam {c : Char} (param : isParam c) : isCalm c :=
  (Bool.and_eq_true _ _ ▸ param).1

theorem isBlank_of_isIndent {c : Char} (indent : Text.isIndent c) : Text.isBlank c := by
  rw [Text.isIndent, Bool.or_eq_true, beq_iff_eq, beq_iff_eq] at indent
  rcases indent with rfl | rfl <;> decide

theorem isParam_of_isIndent {c : Char} (indent : Text.isIndent c) : isParam c := by
  rw [Text.isIndent, Bool.or_eq_true, beq_iff_eq, beq_iff_eq] at indent
  rcases indent with rfl | rfl <;> decide

/-- A word character is none of some characters that are not. -/
theorem not_contains_of_isWord {c : Char} {others : List Char} (word : Text.isWord c)
    (outside : others.any Text.isWord = false) : (!others.contains c) = true := by
  rw [Bool.not_eq_true', ← Bool.not_eq_true, List.contains_iff_mem]
  exact fun member => List.any_eq_false.1 outside c member word

theorem isParam_of_isWord {c : Char} (word : Text.isWord c) : isParam c := by
  rw [isParam, isCalm, isInert, not_contains_of_isWord word (by decide),
    not_contains_of_isWord word (by decide), not_contains_of_isWord word (by decide)]
  rfl

/-- Word characters beyond ASCII are those in some range. -/
theorem isWord_of_wide {c : Char} (wide : ¬ c.toNat < 128) : Text.isWord c =
    Text.wordRanges.toList.any fun range => range.1 ≤ c.toNat && c.toNat ≤ range.2 := by
  rw [Text.isWord, if_neg wide, Text.inRanges, Array.any_toList]

/-- No blank is part of a word. -/
theorem isBlank_of_isWord {c : Char} (word : Text.isWord c) : Text.isBlank c = false := by
  rw [← Bool.not_eq_true]
  intro blank
  simp only [Text.isBlank, Bool.or_eq_true, Bool.and_eq_true, decide_eq_true_eq,
    beq_iff_eq] at blank
  by_cases ascii : c.toNat < 128
  · rw [Text.isWord, if_pos ascii] at word
    have low : 48 ≤ c.toNat := by
      simp only [Char.isAlphanum, Char.isAlpha, Char.isUpper, Char.isLower, Char.isDigit,
        Bool.or_eq_true, Bool.and_eq_true, decide_eq_true_eq, beq_iff_eq] at word
      rcases word with ((upper | lower) | digit) | rfl
      · exact Nat.le_trans (by decide) upper.1
      · exact Nat.le_trans (by decide) lower.1
      · exact digit.1
      · decide
    omega
  · have apart : (Text.wordRanges.toList.all fun range => [(0x85, 0x85), (0xA0, 0xA0),
        (0x1680, 0x1680), (0x2000, 0x200A), (0x2028, 0x2029), (0x202F, 0x202F), (0x205F, 0x205F),
        (0x3000, 0x3000)].all fun blanks => range.2.blt blanks.1 || blanks.2.blt range.1) := by
      decide +kernel
    rw [isWord_of_wide ascii, List.any_eq_true] at word
    obtain ⟨range, member, inside⟩ := word
    have other := List.all_eq_true.1 apart range member
    simp only [List.all_cons, List.all_nil, Bool.and_eq_true, Bool.or_eq_true, Nat.blt_eq] at other
    simp only [Bool.and_eq_true, decide_eq_true_eq] at inside
    omega

theorem isIndent_of_isWord {c : Char} (word : Text.isWord c) : Text.isIndent c = false := by
  rw [← Bool.not_eq_true]
  intro indent
  have blank := isBlank_of_isIndent indent
  rw [isBlank_of_isWord word] at blank
  cases blank

/-- A letter stays in words whatever its case. -/
theorem isWord_of_toLower {c : Char} (word : Text.isWord c.toLower) : Text.isWord c := by
  by_cases upper : c.isUpper
  · have ascii : c.toNat < 128 := by
      have top : c.toNat ≤ 'Z'.toNat := by
        simp only [Char.isUpper, decide_eq_true_eq] at upper
        exact upper.2
      exact Nat.lt_of_le_of_lt top (by decide)
    rw [Text.isWord, if_pos ascii, Char.isAlphanum, Char.isAlpha, upper]
    rfl
  · rw [Char.toLower, dif_neg] at word
    · exact word
    · simpa [Char.isUpper] using upper

/-- Masking keeps a text without strings and comments. -/
theorem maskSource_of_isInert (version : Version) {text : List Char}
    (inert : ∀ c ∈ text, isInert c) : maskSource version text = text := by
  have step (fresh : Bool) (before next : Option Char) {c : Char} (inert : isInert c) :
      ∃ fresh', Mask.codeStep version fresh before c next = (true, .code fresh') := by
    simp only [isInert, Bool.not_eq_true', ← Bool.not_eq_true, List.contains_iff_mem, List.mem_cons,
      List.not_mem_nil, or_false, not_or] at inert
    obtain ⟨double, single, semicolon, escape, slash⟩ := inert
    simp only [Mask.codeStep, Mask.isQuote, beq_iff_eq, double, single, semicolon, escape, slash,
      Bool.false_and, Bool.or_self, Bool.false_eq_true, if_false, beq_eq_false_iff_ne.2, ne_eq,
      not_false_eq_true]
    split
    · exact ⟨_, rfl⟩
    · split
      · exact ⟨_, rfl⟩
      · exact ⟨_, rfl⟩
  -- The mask may become stale or fresh on the way, but stays in code.
  have masked (fresh : Bool) (before : Option Char) :
      Mask.maskFrom version (.code fresh) before text = text := by
    induction text generalizing fresh before with
    | nil => rfl
    | cons c text ih =>
        rw [List.forall_mem_cons] at inert
        obtain ⟨fresh', kept⟩ := step fresh before text.head? inert.1
        rw [Mask.maskFrom, Mask.step, kept]
        exact congrArg (c :: ·) (ih inert.2 fresh' (some c))
  exact masked true none

/-! ## Words and blanks -/

/-- Blanks and tabs. -/
structure Blanks where
  /-- The characters. -/
  text : List Char
  /-- Each of them indents. -/
  indents : ∀ c ∈ text, Text.isIndent c

/-- At least one blank or tab. -/
structure Gap extends Blanks where
  /-- There is one. -/
  nonempty : text ≠ []

/-- A keyword, given in lower case, in any case. -/
structure Keyword (word : List Char) where
  /-- The keyword as it is written. -/
  text : List Char
  /-- It is the keyword up to case. -/
  same : Text.asciiLower text = word

/-- A name. -/
structure Identifier where
  /-- The name as it is written. -/
  text : List Char
  /-- It is not empty. -/
  nonempty : text ≠ []
  /-- It consists of word characters. -/
  words : ∀ c ∈ text, Text.isWord c
  /-- It is no keyword. -/
  free : Header.isKeyword text = false

/-- Part of a line, without strings, comments and braces. -/
structure Expression where
  /-- The expression as it is written. -/
  text : List Char
  /-- It stays within its line and its block. -/
  calm : ∀ c ∈ text, isCalm c

/-- What stands between the parentheses or brackets of a header. -/
structure Params where
  /-- The list as it is written. -/
  text : List Char
  /-- It does not end before its closing parenthesis or bracket. -/
  params : ∀ c ∈ text, isParam c

/-- Names with commas between them, each name with the blanks around it. -/
def listed : List (Blanks × Identifier × Blanks) → List Char
  | [] => []
  | [(before, name, after)] => before.text ++ name.text ++ after.text
  | (before, name, after) :: rest => before.text ++ name.text ++ after.text ++ ',' :: listed rest

theorem isParam_of_mem_listed {names : List (Blanks × Identifier × Blanks)} :
    ∀ c ∈ listed names, isParam c := by
  have single (before : Blanks) (name : Identifier) (after : Blanks) :
      ∀ c ∈ before.text ++ name.text ++ after.text, isParam c := by
    simp only [List.forall_mem_append]
    exact ⟨⟨fun c mem => isParam_of_isIndent (before.indents c mem),
      fun c mem => isParam_of_isWord (name.words c mem)⟩,
      fun c mem => isParam_of_isIndent (after.indents c mem)⟩
  fun_induction listed names with
  | case1 => simp
  | case2 before name after => exact single before name after
  | case3 before name after rest nonempty ih =>
      rw [List.forall_mem_append, List.forall_mem_cons]
      exact ⟨single before name after, by decide, ih⟩

/-- Parameter lists of names. -/
def Params.ofNames (names : List (Blanks × Identifier × Blanks)) : Params :=
  ⟨listed names, isParam_of_mem_listed⟩

/-! ## Headers -/

/-- Where a line stands. -/
inductive Place where
  /-- Outside of everything, or in a function. -/
  | code
  /-- In a class. -/
  | classBody
  /-- In a property. -/
  | propertyBody
  deriving DecidableEq

/-- Whether a place is the body of a class. -/
def Place.isClass : Place → Bool
  | .classBody => true
  | .code | .propertyBody => false

/-- What marks a function or property as static. -/
structure Modifier where
  /-- The keyword. -/
  keyword : Keyword "static".toList
  /-- What separates it from the name. -/
  gap : Gap

/-- What names the base of a class. -/
structure Extension where
  /-- What separates it from the name of the class. -/
  before : Gap
  /-- The keyword. -/
  keyword : Keyword "extends".toList
  /-- What separates it from the name of the base. -/
  gap : Gap
  /-- Name of the base. -/
  base : Identifier

/-- The header of a function. -/
structure Signature where
  /-- Whether and how it is static. -/
  modifier : Option Modifier
  /-- Its name. -/
  name : Identifier
  /-- Its parameters. -/
  params : Params

/-- The header of a block, by the place where the header stands and the place that the block is. -/
inductive Heading : Place → Place → Type where
  /-- A class. -/
  | classDef {place : Place} (declares : place ≠ .propertyBody) (keyword : Keyword "class".toList)
      (gap : Gap) (name : Identifier) (base : Option Extension) : Heading place .classBody
  /-- A function or method. -/
  | function {place : Place} (declares : place ≠ .propertyBody) (header : Signature) :
      Heading place .code
  /-- A property. -/
  | property (modifier : Option Modifier) (name : Identifier) (params : Option (Blanks × Params)) :
      Heading .classBody .propertyBody
  /-- A getter or setter. -/
  | accessor (word : String) (isAccessor : word ∈ ["get", "set"]) (keyword : Keyword word.toList) :
      Heading .propertyBody .code

/-- How a modifier is written. -/
def modifierText : Option Modifier → List Char
  | none => []
  | some modifier => modifier.keyword.text ++ modifier.gap.text

/-- How a base is written. -/
def extensionText : Option Extension → List Char
  | none => []
  | some extension =>
    extension.before.text ++ extension.keyword.text ++ extension.gap.text ++ extension.base.text

/-- How bracketed parameters are written, the brackets included. -/
def Params.bracketed (params : Params) : List Char := '[' :: params.text ++ [']']

/-- How the parameters of a property are written. -/
def bracketsText : Option (Blanks × Params) → List Char
  | none => []
  | some (gap, params) => gap.text ++ params.bracketed

namespace Signature

/-- How a function header is written. -/
def text (header : Signature) : List Char :=
  modifierText header.modifier ++ (header.name.text ++ '(' :: header.params.text ++ [')'])

/-- The kind of a function. -/
def kind (header : Signature) (braceLine : Option Nat) : Kind :=
  .function (String.ofList header.name.text) header.modifier.isSome
    (String.ofList (Text.trim header.params.text)) braceLine

end Signature

namespace Heading

variable {place inner : Place}

/-- How a header is written. -/
def text : Heading place inner → List Char
  | .classDef _ keyword gap name base => keyword.text ++ gap.text ++ name.text ++ extensionText base
  | .function _ header => header.text
  | .property modifier name params => modifierText modifier ++ (name.text ++ bracketsText params)
  | .accessor _ _ keyword => keyword.text

/-- The name that a header gives. -/
def name : Heading place inner → String
  | .classDef _ _ _ name _ | .property _ name _ => String.ofList name.text
  | .function _ header => String.ofList header.name.text
  | .accessor word _ _ => word

/-- What a header opens, with its brace on a line. -/
def kind (braceLine : Nat) : Heading place inner → Kind
  | .classDef _ _ _ name base =>
    .classDef (String.ofList name.text)
      (base.map fun extension => String.ofList extension.base.text) braceLine
  | .function _ header => header.kind (some braceLine)
  | .property modifier name params =>
    .property (String.ofList name.text) modifier.isSome
      (params.map fun (_, params) => String.ofList params.bracketed) (some braceLine)
  | .accessor word _ _ => .function word false "" (some braceLine)

@[simp]
theorem name?_kind (heading : Heading place inner) (braceLine : Nat) :
    (heading.kind braceLine).name? = some heading.name := by
  cases heading <;> rfl

end Heading

/-! ## Blocks and forests -/

/-- Where the opening brace of a block is. -/
inductive Opening where
  /-- On the line of the header. -/
  | sameLine (gap after : Blanks)
  /-- Alone on the next line. -/
  | nextLine (after indent gap : Blanks)

namespace Opening

/-- What follows the header on its line. -/
def tail : Opening → List Char
  | .sameLine gap after => gap.text ++ '{' :: after.text
  | .nextLine after _ _ => after.text

/-- The line of the brace, if the brace has a line of its own. -/
def more : Opening → List (List Char)
  | .sameLine _ _ => []
  | .nextLine _ indent gap => [indent.text ++ '{' :: gap.text]

/-- Byte offset of the brace on the line of the header, which ends at an offset. -/
def brace? (offset : Nat) : Opening → Option Nat
  | .sameLine gap _ => some (offset + Text.byteLength gap.text)
  | .nextLine _ _ _ => none

end Opening

/-- How a block is laid out. -/
structure Braces where
  /-- What the header is indented by. -/
  indent : Blanks
  /-- Where the opening brace is. -/
  opening : Opening
  /-- What the closing brace is indented by. -/
  close : Blanks
  /-- What follows the closing brace on its line. -/
  after : Blanks
  /-- The closing brace is indented no deeper than the header. -/
  shallow : close.text.length ≤ indent.text.length

namespace Braces

/-- The lines up to the opening brace. -/
def opened (braces : Braces) (heading : List Char) : List (List Char) :=
  (braces.indent.text ++ heading ++ braces.opening.tail) :: braces.opening.more

/-- The line of the closing brace. -/
def closing (braces : Braces) : List Char := braces.close.text ++ '}' :: braces.after.text

end Braces

/-- The lines of a script, or of a block, by the place that they stand in. -/
inductive Forest : Place → Type where
  /-- No more lines. -/
  | done {place : Place} : Forest place
  /-- A blank line. -/
  | blank {place : Place} (blanks : Blanks) (rest : Forest place) : Forest place
  /-- An assignment. -/
  | assignment {place : Place} (declares : place ≠ .propertyBody) (indent : Blanks)
      (target : Identifier) (gap : Blanks) (value : Expression) (rest : Forest place) : Forest place
  /-- A function whose body is an expression. -/
  | arrow {place : Place} (declares : place ≠ .propertyBody) (indent : Blanks) (header : Signature)
      (gap : Blanks) (body : Expression) (rest : Forest place) : Forest place
  /-- A block. -/
  | block {place inner : Place} (heading : Heading place inner) (braces : Braces)
      (body : Forest inner) (rest : Forest place) : Forest place

/-- How an assignment is written. -/
def assignmentLine (indent : Blanks) (target : Identifier) (gap : Blanks) (value : Expression) :
    List Char :=
  indent.text ++ (target.text ++ (gap.text ++ ':' :: '=' :: value.text))

/-- How a function whose body is an expression is written. -/
def arrowLine (indent : Blanks) (header : Signature) (gap : Blanks) (body : Expression) :
    List Char :=
  indent.text ++ (header.text ++ (gap.text ++ '=' :: '>' :: body.text))

/-- A node without its offsets and columns: what it is, the names around it, the lines from its
first to its last one, and what is nested in it. -/
inductive Outline where
  /-- An outline from its parts. -/
  | mk (kind : Kind) (scope : List String) (first last : Nat) (nested : List Outline)

namespace Forest

/-- The lines of a forest. -/
def lines {place : Place} : Forest place → List (List Char)
  | .done => []
  | .blank blanks rest => blanks.text :: rest.lines
  | .assignment _ indent target gap value rest =>
    assignmentLine indent target gap value :: rest.lines
  | .arrow _ indent header gap body rest => arrowLine indent header gap body :: rest.lines
  | .block heading braces body rest =>
    braces.opened heading.text ++ body.lines ++ braces.closing :: rest.lines

/-- The outline of a forest whose first line has a number, under a scope. -/
def outlines {place : Place} (line : Nat) (scope : List String) : Forest place → List Outline
  | .done => []
  | .blank _ rest => rest.outlines (line + 1) scope
  | .assignment _ _ _ _ _ rest => rest.outlines (line + 1) scope
  | .arrow _ _ header _ _ rest =>
    .mk (header.kind none) scope line line [] :: rest.outlines (line + 1) scope
  | .block heading braces body rest =>
    let braceLine := line + braces.opening.more.length
    let last := braceLine + body.lines.length + 1
    .mk (heading.kind braceLine) scope line last
        (body.outlines (braceLine + 1) (scope ++ [heading.name])) ::
      rest.outlines (last + 1) scope

end Forest

/-! ## The characters of a forest -/

section Characters

variable {place inner : Place}

/-- Whether all characters of a text stay within their line and their block. -/
def Calm (text : List Char) : Prop := ∀ c ∈ text, isCalm c

theorem calm_append {text rest : List Char} : Calm (text ++ rest) ↔ Calm text ∧ Calm rest :=
  List.forall_mem_append

theorem calm_cons {c : Char} {text : List Char} : Calm (c :: text) ↔ isCalm c ∧ Calm text :=
  List.forall_mem_cons

theorem calm_nil : Calm [] := List.forall_mem_nil _

theorem Blanks.calm (blanks : Blanks) : Calm blanks.text :=
  fun c mem => isCalm_of_isParam (isParam_of_isIndent (blanks.indents c mem))

theorem calm_of_words {text : List Char} (words : ∀ c ∈ text, Text.isWord c) : Calm text :=
  fun c mem => isCalm_of_isParam (isParam_of_isWord (words c mem))

theorem Identifier.calm (name : Identifier) : Calm name.text := calm_of_words name.words

theorem Params.calm (params : Params) : Calm params.text :=
  fun c mem => isCalm_of_isParam (params.params c mem)

/-- A keyword of letters consists of letters. -/
theorem Keyword.words {word : List Char} (keyword : Keyword word)
    (letters : word.all Text.isWord) : ∀ c ∈ keyword.text, Text.isWord c := by
  intro c mem
  refine isWord_of_toLower (List.all_eq_true.1 letters _ ?_)
  rw [← keyword.same]
  exact List.mem_map_of_mem mem

theorem Keyword.nonempty {word : List Char} (keyword : Keyword word) (letters : word ≠ []) :
    keyword.text ≠ [] := by
  intro empty
  have same := keyword.same
  rw [empty] at same
  exact letters same.symm

theorem Keyword.calm {word : List Char} (keyword : Keyword word)
    (letters : word.all Text.isWord) : Calm keyword.text :=
  calm_of_words (keyword.words letters)

theorem calm_modifierText : ∀ modifier : Option Modifier, Calm (modifierText modifier)
  | none => calm_nil
  | some modifier => calm_append.2 ⟨modifier.keyword.calm (by decide), modifier.gap.calm⟩

theorem calm_extensionText : ∀ base : Option Extension, Calm (extensionText base)
  | none => calm_nil
  | some base => by
    simp only [extensionText, calm_append]
    exact ⟨⟨⟨base.before.calm, base.keyword.calm (by decide)⟩, base.gap.calm⟩, base.base.calm⟩

theorem Params.calm_bracketed (params : Params) : Calm params.bracketed := by
  simp only [bracketed, calm_append, calm_cons]
  exact ⟨⟨by decide, params.calm⟩, by decide, calm_nil⟩

theorem calm_bracketsText : ∀ params : Option (Blanks × Params), Calm (bracketsText params)
  | none => calm_nil
  | some (gap, params) => calm_append.2 ⟨gap.calm, params.calm_bracketed⟩

theorem Signature.calm (header : Signature) : Calm header.text := by
  simp only [text, calm_append, calm_cons]
  exact ⟨calm_modifierText _, ⟨header.name.calm, by decide, header.params.calm⟩, by decide,
    calm_nil⟩

theorem Heading.calm (heading : Heading place inner) : Calm heading.text := by
  cases heading with
  | classDef declares keyword gap name base =>
      simp only [text, calm_append]
      exact ⟨⟨⟨keyword.calm (by decide), gap.calm⟩, name.calm⟩, calm_extensionText base⟩
  | function declares header => exact header.calm
  | property modifier name params =>
      simp only [text, calm_append]
      exact ⟨calm_modifierText modifier, name.calm, calm_bracketsText params⟩
  | accessor word isAccessor keyword =>
      refine keyword.calm ?_
      simp only [List.mem_cons, List.not_mem_nil, or_false] at isAccessor
      rcases isAccessor with rfl | rfl <;> decide

theorem calm_assignmentLine (indent : Blanks) (target : Identifier) (gap : Blanks)
    (value : Expression) : Calm (assignmentLine indent target gap value) := by
  simp only [assignmentLine, calm_append, calm_cons]
  exact ⟨indent.calm, target.calm, gap.calm, by decide, by decide, value.calm⟩

theorem calm_arrowLine (indent : Blanks) (header : Signature) (gap : Blanks)
    (body : Expression) : Calm (arrowLine indent header gap body) := by
  simp only [arrowLine, calm_append, calm_cons]
  exact ⟨indent.calm, header.calm, gap.calm, by decide, by decide, body.calm⟩

/-- Whether all characters of a line are calm or braces. -/
def Tame (line : List Char) : Prop := ∀ c ∈ line, isCalm c ∨ c = '{' ∨ c = '}'

theorem tame_append {text rest : List Char} : Tame (text ++ rest) ↔ Tame text ∧ Tame rest :=
  List.forall_mem_append

theorem tame_cons {c : Char} {text : List Char} :
    Tame (c :: text) ↔ (isCalm c ∨ c = '{' ∨ c = '}') ∧ Tame text :=
  List.forall_mem_cons

theorem Calm.tame {text : List Char} (calm : Calm text) : Tame text :=
  fun c mem => .inl (calm c mem)

theorem Braces.tame_opened (braces : Braces) {heading : List Char} (calm : Calm heading) :
    ∀ line ∈ braces.opened heading, Tame line := by
  obtain ⟨indent, opening, close, after, shallow⟩ := braces
  cases opening with
  | sameLine gap after =>
      simp only [opened, Opening.tail, Opening.more, List.forall_mem_singleton, tame_append,
        tame_cons]
      exact ⟨⟨indent.calm.tame, calm.tame⟩, gap.calm.tame, .inr (.inl trivial), after.calm.tame⟩
  | nextLine after inner gap =>
      simp only [opened, Opening.tail, Opening.more, List.forall_mem_cons,
        tame_append, tame_cons]
      exact ⟨⟨⟨indent.calm.tame, calm.tame⟩, after.calm.tame⟩,
        ⟨inner.calm.tame, .inr (.inl trivial), gap.calm.tame⟩, List.forall_mem_nil _⟩

theorem Braces.tame_closing (braces : Braces) : Tame braces.closing := by
  simp only [closing, tame_append, tame_cons]
  exact ⟨braces.close.calm.tame, .inr (.inr trivial), braces.after.calm.tame⟩

/-- The lines of a forest hold braces and calm characters. -/
theorem Forest.tame (forest : Forest place) : ∀ line ∈ forest.lines, Tame line := by
  induction forest with
  | done => exact List.forall_mem_nil _
  | blank blanks rest ih => exact List.forall_mem_cons.2 ⟨blanks.calm.tame, ih⟩
  | assignment declares indent target gap value rest ih =>
      exact List.forall_mem_cons.2 ⟨(calm_assignmentLine indent target gap value).tame, ih⟩
  | arrow declares indent header gap body rest ih =>
      exact List.forall_mem_cons.2 ⟨(calm_arrowLine indent header gap body).tame, ih⟩
  | block heading braces body rest inside after =>
      simp only [lines, List.forall_mem_append, List.forall_mem_cons]
      exact ⟨⟨braces.tame_opened heading.calm, inside⟩, braces.tame_closing, after⟩

/-- A tame line is a line, and masking leaves it alone. -/
theorem isInert_of_tame {line : List Char} (tame : Tame line) :
    ∀ c ∈ line, isInert c ∧ c ≠ '\n' ∧ c ≠ '\r' := by
  intro c mem
  rcases tame c mem with calm | rfl | rfl
  · simp only [isCalm, Bool.and_eq_true, Bool.not_eq_true', ← Bool.not_eq_true,
      List.contains_iff_mem, List.mem_cons, List.not_mem_nil, or_false, not_or] at calm
    exact ⟨calm.1, calm.2.2.2.1, calm.2.2.2.2⟩
  · decide
  · decide

end Characters

end Layout
end DebugBridge
