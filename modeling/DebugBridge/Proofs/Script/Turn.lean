import DebugBridge.Proofs.Script.Block

/-!
# Turns of a scan

What a scan finds at the start of a line: nothing on a blank line or an assignment, a function of
one line, or a block with its kind, its stretch and its inside.
-/

namespace DebugBridge
namespace Layout

open Text Source Header

variable {source : Source} {earlier later : List (List Char)} {line : List Char}
  {limit : Nat} {inClass : Bool}

/-! ## Lines without a construct -/

/-- What is left of a line is passed over when it is blank. -/
theorem turnAt?_blank (consists : source.Consists (earlier ++ line :: later))
    (before part after : List Char) (split : line = before ++ part ++ after)
    (stop : min (offsetAfter earlier + byteLength line) limit =
      offsetAfter earlier + byteLength before + byteLength part)
    (blank : ∀ c ∈ part, isIndent c) (plain : before = [] → opensComment line = false) :
    source.turnAt? (offsetAfter earlier + byteLength before) limit inClass =
      some (.pass (min (offsetAfter (earlier ++ [line])) source.size)) := by
  have lower : offsetAfter earlier ≤ offsetAfter earlier + byteLength before :=
    Nat.le_add_right _ _
  have upper : offsetAfter earlier + byteLength before ≤ offsetAfter earlier + byteLength line := by
    rw [split, byteLength_append, byteLength_append]
    omega
  have comment : (offsetAfter earlier + byteLength before == offsetAfter earlier &&
      opensComment line) = false := by
    cases before with
    | nil => rw [plain rfl, Bool.and_false]
    | cons c before =>
        have size := c.utf8Size_pos
        rw [Bool.and_eq_false_iff, beq_eq_false_iff_ne, byteLength_cons]
        exact .inl (by omega)
  have all : allBlank part = true := by
    rw [allBlank, List.all_eq_true]
    exact fun c mem => isBlank_of_isIndent (blank c mem)
  rw [turnAt?, consists.segment?_eq before part after split stop]
  simp only [Option.bind_eq_bind, Option.bind_some]
  rw [consists.lineStart_eq lower upper, consists.rawLine_eq lower upper, comment, all,
    consists.nextLineStart_eq lower upper, if_neg Bool.false_ne_true, if_pos rfl]
  rfl

/-- A line that begins with a word is looked at for a declaration. -/
theorem turnAt?_word (consists : source.Consists (earlier ++ line :: later)) {indent : Blanks}
    {code : List Char} (written : line = indent.text ++ code) (begins : endsWord code = false)
    (inside : offsetAfter earlier + byteLength line ≤ limit) :
    source.turnAt? (offsetAfter earlier) limit inClass =
      source.declarationTurn? (offsetAfter earlier) limit inClass line := by
  have lower : offsetAfter earlier ≤ offsetAfter earlier := Nat.le_refl _
  have upper : offsetAfter earlier ≤ offsetAfter earlier + byteLength line := Nat.le_add_right _ _
  have segment := consists.segment?_eq [] line [] (by simp)
    (show min _ limit = _ by rw [byteLength_nil, Nat.add_zero, Nat.min_eq_left inside])
  rw [byteLength_nil, Nat.add_zero] at segment
  rw [turnAt?, segment]
  simp only [Option.bind_eq_bind, Option.bind_some]
  rw [consists.lineStart_eq lower upper, consists.rawLine_eq lower upper,
    consists.maskedLine_eq lower upper, beq_self_eq_true, Bool.true_and, written,
    opensComment_word indent.indents begins, allBlank_word indent.indents begins,
    inclusion?_word indent.indents begins, isDirective_word indent.indents begins]
  rfl

/-- An assignment declares nothing. -/
theorem declarationTurn?_assignment {indent gap : Blanks} {target : Identifier}
    {value : Expression}
    (consists : source.Consists (earlier ++ assignmentLine indent target gap value :: later)) :
    source.declarationTurn? (offsetAfter earlier) limit inClass
        (assignmentLine indent target gap value) =
      some (.pass (min (offsetAfter (earlier ++ [assignmentLine indent target gap value]))
        source.size)) := by
  have lower : offsetAfter earlier ≤ offsetAfter earlier := Nat.le_refl _
  have ends : Ends (gap.text ++ ':' :: '=' :: value.text) :=
    (ends_append gap.indents).2 (ends_cons _ (by decide))
  have separate : (gap.text ++ ':' :: '=' :: value.text).head? ≠ some '(' :=
    gap.head?_append_ne (by decide) (by simp)
  have noClass := classHeader?_name indent.indents none target.nonempty target.words ends
  have noFunction :=
    functionHeader?_name indent.indents none target.nonempty target.words ends separate
  have noProperty := propertyHeader?_assignment indent.indents target.nonempty target.words
    gap.indents ('=' :: value.text)
  rw [modifierText, List.nil_append, ← assignmentLine] at noClass noFunction
  rw [← assignmentLine] at noProperty
  have classTurn : source.classTurn? (offsetAfter earlier)
      (assignmentLine indent target gap value) = some none := by
    rw [classTurn?, noClass]
  have functionTurn : source.functionTurn? (offsetAfter earlier) limit
      (assignmentLine indent target gap value) = some none := by
    rw [functionTurn?, noFunction]
  have propertyTurn : source.propertyTurn? (offsetAfter earlier) limit
      (assignmentLine indent target gap value) = some none := by
    rw [propertyTurn?, noProperty, ite_self]
  rw [declarationTurn?, classTurn, functionTurn, propertyTurn,
    consists.nextLineStart_eq lower (Nat.le_add_right _ _)]
  cases inClass <;> rfl

/-! ## Functions -/

/-- A parenthesis closes after a parameter list. -/
theorem closingParen?_params (params : Params) (index : Nat) (rest : List UInt8) :
    closingParen? 0 index (utf8 ('(' :: params.text ++ [')']) ++ rest) =
      some (index + 1 + byteLength params.text) := by
  have skip (bytes : List UInt8) (index : Nat) (clear : 40 ∉ bytes ∧ 41 ∉ bytes) :
      closingParen? 1 index (bytes ++ 41 :: rest) = some (index + bytes.length) := by
    induction bytes generalizing index with
    | nil => rfl
    | cons b bytes ih =>
        simp only [List.mem_cons, not_or] at clear
        rw [List.cons_append, closingParen?, if_neg (by simpa using Ne.symm clear.1.1),
          if_neg (by simpa using Ne.symm clear.2.1), ih _ ⟨clear.1.2, clear.2.2⟩, List.length_cons,
          Nat.add_assoc, Nat.add_comm 1]
  have bytes : utf8 ('(' :: params.text ++ [')']) ++ rest =
      40 :: (utf8 params.text ++ 41 :: rest) := by
    rw [utf8_append, utf8_cons]
    simp only [List.append_assoc]
    rfl
  have clear (c : Char) (outside : isParam c = false) : c ∉ params.text := by
    intro mem
    have param := params.params c mem
    rw [outside] at param
    cases param
  rw [bytes, closingParen?, if_pos (by decide), skip, length_utf8]
  constructor
  · exact fun mem => clear '(' (by decide) (mem_of_mem_utf8 (by decide) mem)
  · exact fun mem => clear ')' (by decide) (mem_of_mem_utf8 (by decide) mem)

section Signature

variable {indent : Blanks} {header : Signature} {rest : List Char}

/-- What stands up to the parenthesis of a function header. -/
def beforeParen (indent : Blanks) (header : Signature) : List Char :=
  indent.text ++ (modifierText header.modifier ++ header.name.text)

/-- Where the closing parenthesis of a function header is, on a line that starts at an offset. -/
def parenAt (start : Nat) (indent : Blanks) (header : Signature) : Nat :=
  start + byteLength (beforeParen indent header) + 1 + byteLength header.params.text

theorem beforeParen_append (indent : Blanks) (header : Signature) (rest : List Char) :
    indent.text ++ (header.text ++ rest) =
      beforeParen indent header ++ ('(' :: header.params.text ++ [')']) ++ rest := by
  simp [beforeParen, Signature.text]

theorem byteLength_signature (indent : Blanks) (header : Signature) (rest : List Char) :
    byteLength (indent.text ++ (header.text ++ rest)) =
    byteLength (beforeParen indent header) + 1 + byteLength header.params.text + 1 +
      byteLength rest := by
  have one : ('(').utf8Size = 1 ∧ (')').utf8Size = 1 := by decide
  rw [beforeParen_append]
  simp only [byteLength_append, byteLength_cons, byteLength_nil, one]
  omega

theorem Signature.begins (header : Signature) (rest : List Char) :
    endsWord (header.text ++ rest) = false := by
  simp only [Signature.text, List.append_assoc]
  exact endsWord_modifierText header.name.nonempty header.name.words _ _

theorem codeStart_eq {code : List Char} (start : Nat) (begins : endsWord code = false) :
    codeStart start (indent.text ++ code) = start + byteLength indent.text := by
  rw [codeStart, indent.takeWhile_append (isIndent_head begins), indent.byteLength_text]

variable (consists : source.Consists (earlier ++ (indent.text ++ (header.text ++ rest)) :: later))
  (inside : offsetAfter earlier + byteLength (indent.text ++ (header.text ++ rest)) ≤ limit)

include consists

/-- The parameters of a function are between its parentheses. -/
theorem charsOf_params : charsOf source.text
    (offsetAfter earlier + byteLength (beforeParen indent header) + 1)
    (parenAt (offsetAfter earlier) indent header) = header.params.text := by
  have one : byteLength (beforeParen indent header ++ ['(']) =
      byteLength (beforeParen indent header) + 1 := by
    rw [byteLength_append]
    rfl
  have chars := consists.charsOf_masked (beforeParen indent header ++ ['('])
    header.params.text (')' :: rest)
    (by rw [beforeParen_append]; simp)
  rwa [one, ← Nat.add_assoc, ← consists.text_eq_masked, ← parenAt] at chars

/-- What follows the parameters of a function goes to the end of the line. -/
theorem charsOf_rest : charsOf source.masked (parenAt (offsetAfter earlier) indent header + 1)
    (offsetAfter earlier + byteLength (indent.text ++ (header.text ++ rest))) = rest := by
  have chars := consists.charsOf_masked
    (beforeParen indent header ++ ('(' :: header.params.text ++ [')'])) rest []
    (by rw [beforeParen_append, List.append_nil])
  have one : ('(').utf8Size = 1 ∧ (')').utf8Size = 1 := by decide
  have start : offsetAfter earlier + byteLength (beforeParen indent header ++
      ('(' :: header.params.text ++ [')'])) = parenAt (offsetAfter earlier) indent header + 1 := by
    simp only [parenAt, byteLength_append, byteLength_cons, byteLength_nil, one]
    omega
  have stop : offsetAfter earlier + byteLength (indent.text ++ (header.text ++ rest)) =
      parenAt (offsetAfter earlier) indent header + 1 + byteLength rest := by
    rw [byteLength_signature, parenAt]
    omega
  rwa [start, ← stop] at chars

include inside in
/-- The parentheses of a function match. -/
theorem closingParen?_signature : closingParen? 0
    (offsetAfter earlier + byteLength (beforeParen indent header))
    (source.masked.extract (offsetAfter earlier + byteLength (beforeParen indent header))
      limit).toList = some (parenAt (offsetAfter earlier) indent header) := by
  have one : byteLength ('(' :: header.params.text ++ [')']) =
      byteLength header.params.text + 2 := by
    have one : ('(').utf8Size = 1 ∧ (')').utf8Size = 1 := by decide
    simp only [List.cons_append, byteLength_append, byteLength_cons, byteLength_nil, one]
    omega
  have room : offsetAfter earlier + byteLength (beforeParen indent header) +
      byteLength ('(' :: header.params.text ++ [')']) ≤ limit := by
    rw [byteLength_signature] at inside
    omega
  obtain ⟨others, bytes⟩ := consists.exists_extract (beforeParen indent header)
    ('(' :: header.params.text ++ [')']) rest (beforeParen_append _ _ _) room
  rw [bytes, closingParen?_params, parenAt]

/-- The closing parenthesis is on the line of the header. -/
theorem lineEnd_parenAt : source.lineEnd (parenAt (offsetAfter earlier) indent header) =
    offsetAfter earlier + byteLength (indent.text ++ (header.text ++ rest)) := by
  refine consists.lineEnd_eq ?_ ?_
  · rw [parenAt]
    omega
  · rw [parenAt, byteLength_signature]
    omega

include inside in
/-- A function whose body is an expression ends with its line. -/
theorem functionTurn?_arrow (boundary : isBoundary source.masked limit)
    (body : source.functionBody? (parenAt (offsetAfter earlier) indent header)
      (offsetAfter earlier + byteLength (indent.text ++ (header.text ++ rest))) = some .arrow) :
    ∃ location, source.functionTurn? (offsetAfter earlier) limit
        (indent.text ++ (header.text ++ rest)) =
      some (some (.found ⟨header.kind none, location, none⟩ []
        (min (offsetAfter (earlier ++ [indent.text ++ (header.text ++ rest)])) source.size))) ∧
      location.first.line = earlier.length + 1 ∧ location.last.line = earlier.length + 1 := by
  have length := byteLength_signature indent header rest
  have leading : byteLength indent.text ≤ byteLength (beforeParen indent header) := by
    rw [beforeParen, byteLength_append]
    omega
  have starts := consists.isBoundary_masked indent.text _ rfl
  have stops := consists.isBoundary_masked (indent.text ++ (header.text ++ rest)) []
    (List.append_nil _).symm
  have size := consists.line_le_size
  obtain ⟨location, found, first, last⟩ := consists.exists_location starts stops
    (by omega) (by omega)
  refine ⟨location, ?_, ?_, ?_⟩
  · rw [functionTurn?, functionHeader?_signature]
    simp only [header.name.free, Bool.false_eq_true, if_false, boundary, Bool.not_true]
    rw [← beforeParen, closingParen?_signature consists inside]
    simp only
    rw [lineEnd_parenAt consists, Nat.min_eq_left inside, body]
    simp only
    rw [codeStart_eq _ (header.begins rest), charsOf_params consists, found,
      consists.nextLineStart_eq (by omega) (by rw [parenAt]; omega)]
    rfl
  · rw [first, consists.lineOf_eq (Nat.le_add_right _ _) (by omega)]
  · rw [last, consists.lineOf_eq (by omega) (by omega)]

include inside in
/-- A function with a block is found with the block. -/
theorem functionTurn?_block {brace : Nat} {sameLine : Option Nat}
    (boundary : isBoundary source.masked limit)
    (body : source.functionBody? (parenAt (offsetAfter earlier) indent header)
      (offsetAfter earlier + byteLength (indent.text ++ (header.text ++ rest))) =
        some (.block sameLine))
    (opens : source.braceAfter? (parenAt (offsetAfter earlier) indent header) sameLine =
      some brace) :
    source.functionTurn? (offsetAfter earlier) limit (indent.text ++ (header.text ++ rest)) =
      (source.blockTurn? (header.kind ∘ some) (offsetAfter earlier + byteLength indent.text)
        (offsetAfter earlier) brace).map some := by
  rw [functionTurn?, functionHeader?_signature]
  simp only [header.name.free, Bool.false_eq_true, if_false, boundary, Bool.not_true]
  rw [← beforeParen, closingParen?_signature consists inside]
  simp only
  rw [lineEnd_parenAt consists, Nat.min_eq_left inside, body]
  simp only [opens]
  rw [codeStart_eq _ (header.begins rest), charsOf_params consists]
  rfl

end Signature

/-- A function is no class. -/
theorem classTurn?_signature (pos : Nat) (indent : Blanks) (header : Signature)
    (rest : List Char) :
    source.classTurn? pos (indent.text ++ (header.text ++ rest)) = some none := by
  have none := classHeader?_name indent.indents header.modifier header.name.nonempty
    header.name.words (ends_cons (header.params.text ++ ')' :: rest) (show '(' ∈ stops by decide))
  have written : header.text ++ rest = modifierText header.modifier ++
      (header.name.text ++ '(' :: (header.params.text ++ ')' :: rest)) := by
    simp [Signature.text]
  rw [classTurn?, written, none]

/-- A declaration that is no class is a function if there is one. -/
theorem declarationTurn?_function {pos : Nat} {segment : List Char} {turn : Turn}
    (noClass : source.classTurn? pos segment = some none)
    (function : source.functionTurn? pos limit segment = some (some turn)) :
    source.declarationTurn? pos limit inClass segment = some turn := by
  rw [declarationTurn?, noClass, function]
  rfl

/-- A function whose body is an expression is found. -/
theorem declarationTurn?_arrow (inClass : Bool) {indent gap : Blanks} {header : Signature}
    {body : Expression}
    (consists : source.Consists (earlier ++ arrowLine indent header gap body :: later))
    (inside : offsetAfter earlier + byteLength (arrowLine indent header gap body) ≤ limit)
    (boundary : isBoundary source.masked limit) :
    ∃ location, source.declarationTurn? (offsetAfter earlier) limit inClass
        (arrowLine indent header gap body) =
      some (.found ⟨header.kind none, location, none⟩ []
        (min (offsetAfter (earlier ++ [arrowLine indent header gap body])) source.size)) ∧
      location.first.line = earlier.length + 1 ∧ location.last.line = earlier.length + 1 := by
  have arrow : skipIndent (gap.text ++ '=' :: '>' :: body.text) = '=' :: '>' :: body.text := by
    rw [skipIndent_append gap.indents, skipIndent_of_head (by simp; decide)]
  have found : source.functionBody? (parenAt (offsetAfter earlier) indent header)
      (offsetAfter earlier + byteLength (arrowLine indent header gap body)) = some .arrow := by
    rw [functionBody?, arrowLine, charsOf_rest consists]
    simp only [arrow]
  obtain ⟨location, turn, lines⟩ := functionTurn?_arrow consists inside boundary found
  exact ⟨location, declarationTurn?_function (classTurn?_signature _ _ _ _) turn, lines⟩

/-! ## Blocks -/

theorem Heading.begins {place inner : Place} (heading : Heading place inner) :
    endsWord heading.text = false := by
  cases heading with
  | classDef declares keyword gap name base =>
      rw [Heading.text, List.append_assoc, List.append_assoc]
      exact endsWord_append (keyword.nonempty (by decide)) (keyword.words (by decide)) _
  | function declares header =>
      have begins := header.begins []
      rwa [List.append_nil] at begins
  | property modifier name params => exact endsWord_modifierText name.nonempty name.words _ _
  | accessor word isAccessor keyword =>
      have letters : word.toList ≠ [] ∧ word.toList.all isWord := by
        simp only [List.mem_cons, List.not_mem_nil, or_false] at isAccessor
        rcases isAccessor with rfl | rfl <;> decide
      have begins := endsWord_append (keyword.nonempty letters.1) (keyword.words letters.2) []
      rwa [List.append_nil] at begins

section Block

variable {block : Block} {place inner : Place} (consists : source.Consists block.lines)
  (balanced : Balanced (begun block.body))

/-- What a scan goes on with after a block that it finds. -/
def Block.found (block : Block) (heading : Heading place inner) (location : Location)
    (inside : Option (Nat × Nat)) (accessors : List Opener) : Turn :=
  .found ⟨heading.kind block.braceNumber, location, inside⟩ accessors (block.closeAt + 1)

/-- The range that a scan enters in a block. -/
def Block.range (block : Block) : Nat × Nat := (block.openAt + 1, block.closeAt)

include consists balanced

/-- A class is found. -/
theorem declarationTurn?_classDef {declares : place ≠ .propertyBody}
    {keyword : Keyword "class".toList} {gap : Gap} {name : Identifier} {base : Option Extension}
    (written : block.heading = (Heading.classDef declares keyword gap name base).text) :
    ∃ location, source.declarationTurn? block.start limit inClass
        (block.head ++ block.braces.opening.tail) =
      some (block.found (.classDef declares keyword gap name base) location (some block.range) []) ∧
      block.Spans location := by
  have begins : endsWord block.heading = false := written ▸ Heading.begins _
  have head : block.head = block.braces.indent.text ++
      (Heading.classDef declares keyword gap name base).text := by
    rw [Block.head, written]
  have header := classHeader?_classDef declares block.braces.indent keyword gap name base
    block.braces.opening head
  have lineEnd : source.lineEnd block.start =
      block.start + byteLength (block.head ++ block.braces.opening.tail) :=
    (Block.at_header consists).lineEnd_eq (Nat.le_refl _) (Nat.le_add_right _ _)
  obtain ⟨location, turn, spans⟩ := Block.blockTurn?_eq consists balanced begins
    (.classDef (String.ofList name.text)
      ((base.map fun extension => extension.base.text).map String.ofList))
  refine ⟨location, ?_, spans⟩
  have classTurn : source.classTurn? block.start (block.head ++ block.braces.opening.tail) =
      some (some (block.found (.classDef declares keyword gap name base) location
        (some block.range) [])) := by
    rw [classTurn?, header]
    simp only [lineEnd, Nat.lt_irrefl, decide_false, Bool.and_false, Bool.false_eq_true, if_false]
    rw [Block.braceAfter?_eq consists (Nat.le_refl _) (Nat.le_add_right _ _), codeStart,
      block.takeWhile_header begins, ← Blanks.byteLength_text]
    dsimp only
    rw [turn, Option.map_map]
    rfl
  rw [declarationTurn?, classTurn]
  rfl

omit balanced in
/-- What follows the parameters of a function opens its block. -/
theorem functionBody?_block {header : Signature} (written : block.heading = header.text) :
    source.functionBody? (parenAt block.start block.braces.indent header)
        (block.start + byteLength (block.head ++ block.braces.opening.tail)) =
      some (.block
        ((block.braces.opening.brace? (byteLength block.head)).map (block.start + ·))) := by
  have line : block.head ++ block.braces.opening.tail =
      block.braces.indent.text ++ (header.text ++ block.braces.opening.tail) := by
    rw [Block.head, written, List.append_assoc]
  have atHeader := Block.at_header consists
  rw [line] at atHeader
  have length := byteLength_signature block.braces.indent header []
  rw [List.append_nil, ← written, ← Block.head, byteLength_nil] at length
  rw [functionBody?, line, Block.start, charsOf_rest atHeader]
  cases opening : block.braces.opening with
  | sameLine gap after =>
      simp only [Opening.tail, skipIndent_brace, Opening.brace?, Option.map_some, offsetOf_append,
        parenAt, length]
      congr 3
      omega
  | nextLine after indent gap =>
      have blank : skipIndent (Opening.nextLine after indent gap).tail = [] :=
        skipIndent_of_indents after.indents
      have lineEnd := lineEnd_parenAt atHeader
      rw [opening] at lineEnd
      simp only [blank, lineEnd, beq_self_eq_true, Bool.and_true]
      rfl

/-- A function with a block is found. -/
theorem declarationTurn?_block {declares : place ≠ .propertyBody} {header : Signature}
    (inside : block.start + byteLength (block.head ++ block.braces.opening.tail) ≤ limit)
    (boundary : isBoundary source.masked limit)
    (written : block.heading = (Heading.function declares header).text) :
    ∃ location, source.declarationTurn? block.start limit inClass
        (block.head ++ block.braces.opening.tail) =
      some (block.found (.function declares header) location (some block.range) []) ∧
      block.Spans location := by
  have begins : endsWord block.heading = false := written ▸ Heading.begins _
  have body := functionBody?_block consists written
  have line : block.head ++ block.braces.opening.tail =
      block.braces.indent.text ++ (header.text ++ block.braces.opening.tail) := by
    rw [Block.head, written, List.append_assoc]
    rfl
  have length := byteLength_signature block.braces.indent header
    block.braces.opening.tail
  have opens : source.braceAfter? (parenAt block.start block.braces.indent header) _ = _ :=
    Block.braceAfter?_eq consists (by rw [parenAt]; omega) (by rw [line, length, parenAt]; omega)
  have atHeader := Block.at_header consists
  rw [line] at atHeader inside body ⊢
  obtain ⟨location, turn, spans⟩ := Block.blockTurn?_eq consists balanced begins
    (header.kind ∘ some)
  refine ⟨location, declarationTurn?_function (classTurn?_signature _ _ _ _) ?_, spans⟩
  rw [Block.start] at turn body opens inside ⊢
  rw [functionTurn?_block atHeader inside boundary body opens, turn]
  rfl

omit consists balanced in
/-- No parenthesis stands right after the name of a property. -/
theorem bracketsText_head (params : Option (Blanks × Params)) (opening : Opening) :
    (bracketsText params ++ opening.tail).head? ≠ some '(' := by
  cases params with
  | none =>
      cases opening with
      | sameLine gap after => exact gap.head?_append_ne (by decide) (by simp)
      | nextLine after indent gap =>
          have blank : (after.text ++ []).head? ≠ some '(' :=
            after.head?_append_ne (by decide) (by simp)
          rwa [List.append_nil] at blank
  | some params =>
      rw [bracketsText, List.append_assoc]
      exact params.1.head?_append_ne (by decide) (by simp [Params.bracketed])

omit balanced in
/-- The parameters of a property are read with their brackets. -/
theorem charsOf_brackets {modifier : Option Modifier} {name : Identifier}
    {params : Option (Blanks × Params)}
    (written : block.heading = (Heading.property modifier name params).text) :
    (bracketsRange (byteLength (block.braces.indent.text ++ modifierText modifier ++ name.text))
        params).map (fun range => String.ofList
          (charsOf source.text (block.start + range.1) (block.start + range.2))) =
      params.map fun (_, params) => String.ofList params.bracketed := by
  cases params with
  | none => rfl
  | some params =>
      obtain ⟨gap, params⟩ := params
      have chars := (Block.at_header consists).charsOf_masked
        (block.braces.indent.text ++ modifierText modifier ++ name.text ++ gap.text)
        params.bracketed block.braces.opening.tail
        (by simp [Block.head, written, Heading.text, bracketsText])
      rw [byteLength_append _ gap.text] at chars
      simp only [bracketsRange, Option.map_some, consists.text_eq_masked, Block.start,
        Nat.add_assoc] at chars ⊢
      rw [chars]

/-- A property is found with its accessors. -/
theorem declarationTurn?_property {modifier : Option Modifier} {name : Identifier}
    {params : Option (Blanks × Params)} {accessors : List Opener}
    (inside : block.start + byteLength (block.head ++ block.braces.opening.tail) ≤ limit)
    (written : block.heading = (Heading.property modifier name params).text)
    (inner : source.accessors? block.openAt (block.closeAt + 1) = some accessors) :
    ∃ location, source.declarationTurn? block.start limit true
        (block.head ++ block.braces.opening.tail) =
      some (block.found (.property modifier name params) location none accessors) ∧
      block.Spans location := by
  have begins : endsWord block.heading = false := written ▸ Heading.begins _
  have line : block.head ++ block.braces.opening.tail = block.braces.indent.text ++
      (modifierText modifier ++
        (name.text ++ (bracketsText params ++ block.braces.opening.tail))) := by
    simp [Block.head, written, Heading.text]
  have ends := ends_bracketsText params block.braces.opening
  have noClass := classHeader?_name block.braces.indent.indents modifier name.nonempty name.words
    ends
  have noFunction := functionHeader?_name block.braces.indent.indents modifier name.nonempty
    name.words ends (bracketsText_head params block.braces.opening)
  have header := propertyHeader?_property block.braces.indent modifier name params
    block.braces.opening
  have head : block.braces.indent.text ++ modifierText modifier ++
      (name.text ++ bracketsText params) = block.head := by
    simp [Block.head, written, Heading.text]
  have lineEnd : source.lineEnd block.start =
      block.start + byteLength (block.head ++ block.braces.opening.tail) :=
    (Block.at_header consists).lineEnd_eq (Nat.le_refl _) (Nat.le_add_right _ _)
  have opens := Block.braceAfter?_eq consists (Nat.le_refl block.start) (Nat.le_add_right _ _)
  obtain ⟨location, found, spans⟩ := Block.exists_blockLocation consists
  refine ⟨location, ?_, spans⟩
  rw [← line] at noClass noFunction header
  rw [head] at header
  have property : source.propertyTurn? block.start limit
      (block.head ++ block.braces.opening.tail) =
        some (some (block.found (.property modifier name params) location none accessors)) := by
    rw [propertyTurn?, if_neg (by omega), header]
    simp only [name.free, Bool.false_eq_true, if_false, charsOf_brackets consists written,
      codeStart, block.takeWhile_header begins, ← Blanks.byteLength_text]
    have ended := Block.blockEnd_eq consists balanced (Nat.le_refl _)
    cases opening : block.braces.opening with
    | sameLine gap after =>
        rw [opening] at opens
        simp only [endingOf, Opening.brace?, Option.map_some] at opens ⊢
        simp only [opens, Block.indent_start consists begins, ended, found, inner,
          Block.lineOf_openAt consists]
        rfl
    | nextLine after indent gap =>
        rw [opening] at opens
        simp only [endingOf, Opening.brace?, Option.map_none] at opens ⊢
        simp only [opens, Block.indent_start consists begins, ended, found, inner,
          Block.lineOf_openAt consists]
        rfl
  rw [declarationTurn?, classTurn?, noClass, functionTurn?, noFunction, property]
  rfl

/-- An accessor is found, and its property goes on after it. -/
theorem accessor?_accessor {word : String} {isAccessor : word ∈ ["get", "set"]}
    {keyword : Keyword word.toList}
    (written : block.heading = (Heading.accessor word isAccessor keyword).text) :
    ∃ location, source.accessor? block.start = some (some
        (⟨(Heading.accessor word isAccessor keyword).kind block.braceNumber, location,
          some block.range⟩, source.nextLineStart block.closeAt)) ∧ block.Spans location := by
  have begins : endsWord block.heading = false := written ▸ Heading.begins _
  have masked : source.maskedLine block.start = block.head ++ block.braces.opening.tail :=
    (Block.at_header consists).maskedLine_eq (Nat.le_refl _) (Nat.le_add_right _ _)
  have header := accessorHeader?_accessor block.braces.indent isAccessor keyword
    block.braces.opening
  have head : block.braces.indent.text ++ keyword.text = block.head := by
    rw [Block.head, written]
    rfl
  rw [head] at header
  have opens := Block.braceAfter?_eq consists (Nat.le_refl block.start) (Nat.le_add_right _ _)
  have indentation := Block.indent_start consists begins
  rw [← Blanks.byteLength_text] at indentation
  have ended := Block.blockEnd_eq consists balanced
    (Nat.le_of_eq (Blanks.byteLength_text block.braces.indent).symm)
  obtain ⟨location, found, spans⟩ := Block.exists_blockLocation consists
  refine ⟨location, ?_, spans⟩
  rw [accessor?, masked, header]
  cases opening : block.braces.opening with
  | sameLine gap after =>
      rw [opening] at opens
      simp only [endingOf, Opening.brace?, Option.map_some] at opens ⊢
      simp only [opens, indentation, ended, found, Block.lineOf_openAt consists,
        String.ofList_toList, Nat.add_sub_cancel]
      rfl
  | nextLine after indent gap =>
      rw [opening] at opens
      simp only [endingOf, Opening.brace?, Option.map_none] at opens ⊢
      simp only [opens, indentation, ended, found, Block.lineOf_openAt consists,
        String.ofList_toList, Nat.add_sub_cancel]
      rfl

end Block

end Layout
end DebugBridge
