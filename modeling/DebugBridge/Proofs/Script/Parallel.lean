import DebugBridge.Proofs.Script.Blocking
import DebugBridge.Proofs.Script.Landing
import DebugBridge.Proofs.Text.Trim

/-!
# Turns in a file with carriage returns

What a scan finds at a place, or does not find, it finds alike where the place has gone: on the same
lines, with the same names and the same flags.  Only the text of parameters may hold carriage returns.
-/

namespace DebugBridge
namespace Source

open Text Header

/-- What follows a parameter list, read from the rest of its line; `first` is where the rest starts, and
`last` says whether it reaches to the end of the line. -/
def bodyAfter? (first : Nat) (last : Bool) (rest : List Char) : Option FunctionBody :=
  match skipIndent rest with
  | '=' :: '>' :: _ => some .arrow
  | '{' :: more => some (.block (some (first + offsetOf rest ('{' :: more))))
  | trimmed => if allBlank trimmed && last then some (.block none) else none

theorem functionBody?_eq (source : Source) (paren headerEnd : Nat) :
    source.functionBody? paren headerEnd = bodyAfter? (paren + 1) (headerEnd == source.lineEnd paren)
      (charsOf source.masked (paren + 1) headerEnd) := rfl

theorem bodyAfter?_trailing (first : Nat) (last : Bool) (rest : List Char) :
    bodyAfter? first last (rest ++ [' ']) = bodyAfter? first last rest := by
  have trails := Trails.blank rest
  have skipped := trails.skipIndent
  rw [bodyAfter?, bodyAfter?]
  cases code : skipIndent rest with
  | nil => rw [trails.skipIndent_nil code]
  | cons c more =>
      rw [code] at skipped
      have blank := allBlank_trailing (c :: more)
      have offset : offsetOf (rest ++ [' ']) (skipIndent (rest ++ [' '])) = offsetOf rest (c :: more) :=
        skipped.offsetOf
      rw [skipped.cons] at offset ⊢
      rw [List.cons_append] at blank
      by_cases brace : c = '{'
      · subst brace
        simp only [offset]
      · by_cases arrow : c = '='
        · subst arrow
          cases more with
          | nil => rfl
          | cons d more =>
              by_cases tip : d = '>'
              · subst tip
                rfl
              · rw [List.cons_append] at blank ⊢
                simp [tip, blank]
        · simp [brace, arrow, blank]

namespace Returning

variable {source returned : Source} (returns : source.Returning returned)

/-- A construct that opens, and the one that opens where it has gone. -/
structure Matches (opener opener' : Opener) : Prop where
  kinds : opener'.kind.bare = opener.kind.bare
  places : opener'.location.sketch = opener.location.sketch
  inside_eq : opener'.inside =
    opener.inside.map fun range => (returns.move range.1, returns.close range.2)

/-- A turn and the one at the place where it has gone. -/
inductive TurnMatches : Turn → Turn → Prop
  | pass (next : Nat) : TurnMatches (.pass next) (.pass (returns.move next))
  | found {opener opener' : Opener} {accessors accessors' : List Opener} (next : Nat)
      (here : returns.Matches opener opener')
      (each : List.Forall₂ returns.Matches accessors accessors') :
      TurnMatches (.found opener accessors next) (.found opener' accessors' (returns.move next))

/-! ## Segments -/

/-- A segment with code, and the one where it has gone. -/
structure Looks (pos limit : Nat) (segment segment' : List Char) : Prop where
  inFile : pos < source.size
  before : pos < limit
  looked : source.segment? pos limit = some segment
  looked' : returned.segment? (returns.move pos) (returns.close limit) = some segment'
  padded : Padded segment segment'
  code : allBlank segment = false

namespace Looks

variable {returns} {pos limit : Nat} {segment segment' : List Char}
  (looks : returns.Looks pos limit segment segment')

include looks

theorem exists_code : ∃ c ∈ segment, isIndent c = false := by
  have code := looks.code
  rw [allBlank, List.all_eq_false] at code
  obtain ⟨c, member, visible⟩ := code
  refine ⟨c, member, ?_⟩
  cases indent : isIndent c with
  | false => rfl
  | true =>
      rw [isIndent, Bool.or_eq_true, beq_iff_eq, beq_iff_eq] at indent
      exact absurd (by rcases indent with rfl | rfl <;> decide) visible

/-- A place in a segment keeps its distance from where the segment starts. -/
theorem move_add {distance : Nat} (inside : distance ≤ byteLength segment) :
    returns.move (pos + distance) = returns.move pos + distance := by
  obtain ⟨front, back, -, start, stop⟩ := exists_segment returns.reads looks.looked
  have onLine := returns.le_lineEnd (Nat.le_of_lt looks.inFile)
  refine returns.move_add fun place lower upper => ?_
  exact returns.reads.ne_newline (Nat.le_trans (returns.reads.lineStart_le pos) lower) (by omega)

theorem codeStart_eq : codeStart (returns.move pos) segment' = returns.move (codeStart pos segment) := by
  have inside := Reads.codeStart_le_add 0 segment
  rw [codeStart, Nat.zero_add, Nat.zero_add] at inside
  obtain ⟨c, member, code⟩ := looks.exists_code
  rw [codeStart, codeStart, looks.padded.takeWhile_eq member code, looks.move_add inside]

/-- A character of a segment that is known to be in ASCII moves with the segment. -/
theorem byte {offset : Nat} {c : Char} (stands : StandsAt segment offset c) (ascii : c.toNat < 0x80) :
    source.masked[pos + offset]? = some (UInt8.ofNat c.toNat) ∧
      returns.move (pos + offset) = returns.move pos + offset := by
  obtain ⟨front, back, hidden, start, stop⟩ := exists_segment returns.reads looks.looked
  obtain ⟨byte, inside⟩ := getElem?_of_standsAt returns.reads hidden stands ascii
  rw [start] at byte
  exact ⟨byte, looks.move_add (Nat.le_of_lt inside)⟩

theorem indent_eq : returned.indent (returns.move pos) = source.indent pos := by
  obtain ⟨c, member, code⟩ := looks.exists_code
  obtain ⟨front, back, hidden, start, stop⟩ := exists_segment returns.reads looks.looked
  obtain ⟨front', back', hidden', start', stop'⟩ := returns.reads.exists_maskedLine pos
  have onLine := returns.le_lineEnd (Nat.le_of_lt looks.inFile)
  have begun := returns.reads.lineStart_le pos
  rw [hidden, List.append_assoc, List.append_assoc] at hidden'
  obtain ⟨part, rfl, rest⟩ := exists_between hidden'.symm (by omega)
  rw [byteLength_append] at start stop
  rw [← List.append_assoc] at rest
  obtain ⟨more, whole, -⟩ := exists_between rest.symm (by rw [byteLength_append]; omega)
  exact returns.indent_eq (returns.covers_move pos).lineOf_eq (by rw [whole]; simp [member]) code

/-- A segment stops short of the end of its line, or does not. -/
theorem short_iff : returns.move pos + byteLength segment' < returned.lineEnd (returns.move pos) ↔
    pos + byteLength segment < source.lineEnd pos := by
  obtain ⟨front, back, -, start, stop⟩ := exists_segment returns.reads looks.looked
  obtain ⟨front', back', -, start', stop'⟩ := exists_segment returns.reads' looks.looked'
  have onLine := returns.le_lineEnd (Nat.le_of_lt looks.inFile)
  have before := looks.before
  have ends := returns.lineEnd_covers (returns.covers_move pos).lineOf_eq
  have limits : returns.close limit < returned.lineEnd (returns.move pos) ↔
      limit < source.lineEnd pos := ends.close_lt_iff
  have places := returns.move_le_move.2 onLine
  have lower := ends.1
  have within := Nat.le_trans (returns.move_le_move.2 (Nat.le_of_lt before)) (returns.covers_close limit).1
  omega

end Looks

/-! ## Lines -/

section Lines

variable {returns} {index index' : Nat}

/-- A location that reaches from some place to the end of its line. -/
theorem toLineEnd_rel {start start' : Nat} (level : returned.lineOf index' = source.lineOf index)
    (begins : returns.Covers start start') (lower : source.lineStart index ≤ start)
    (upper : start ≤ source.lineEnd index) :
    Option.Rel (fun location location' => location'.sketch = location.sketch)
      (source.location? start (source.lineEnd index))
      (returned.location? start' (returned.lineEnd index')) := by
  have onLine {place : Nat} (le : start ≤ place) (inLine : place ≤ source.lineEnd index) :
      source.lineOf place = source.lineOf index :=
    (returns.reads.same_line (Nat.le_trans lower le) inLine).1
  refine location?_rel begins (returns.lineEnd_covers level)
    (.inr ⟨?_, returns.reads.lineEnd_le_size index⟩)
  rw [onLine (Nat.le_max_right _ _) (by omega), onLine upper (Nat.le_refl _)]

theorem lineLocation?_rel {start : Nat} (begins : start ∈ source.lineStarts) :
    Option.Rel (fun location location' => location'.sketch = location.sketch)
      (source.lineLocation? start) (returned.lineLocation? (returns.move start)) := by
  have level := (returns.covers_move start).lineOf_eq
  have code := returns.indent_covers level
  have first := returns.reads.lineStart_of_mem begins
  have last := (returns.reads.between_indent start).2
  rw [returns.lineStart_eq level, first] at code
  rw [first] at last
  exact toLineEnd_rel level code (by omega) last

variable (returns) in
/-- A character of a line that is known to be in ASCII moves with the line. -/
theorem byte_of_line {start offset : Nat} {c : Char} (begins : start ∈ source.lineStarts)
    (stands : StandsAt (source.maskedLine start) offset c) (ascii : c.toNat < 0x80) :
    source.masked[start + offset]? = some (UInt8.ofNat c.toNat) ∧
      returns.move (start + offset) = returns.move start + offset := by
  obtain ⟨front, back, hidden, first, last⟩ := returns.reads.exists_maskedLine start
  obtain ⟨byte, inside⟩ := getElem?_of_standsAt returns.reads hidden stands ascii
  have distance := returns.move_lineStart_add
    (show source.lineStart start + offset ≤ source.lineEnd start by omega)
  rw [returns.reads.lineStart_of_mem begins] at first distance
  rw [first] at byte
  exact ⟨byte, distance⟩

end Lines

/-! ## Blocks -/

section Turns

variable {returns} {pos limit : Nat} {segment segment' : List Char}

theorem block_rel {start start' brace : Nat} (margin : Nat) (begins : returns.Covers start start')
    (byte : source.masked[brace]? = some 123) :
    Option.Rel (fun location location' => location'.sketch = location.sketch)
        (source.location? start (source.blockEnd brace margin))
        (returned.location? start' (returned.blockEnd (returns.move brace) margin)) ∧
      (returns.move brace + 1, returned.blockEnd (returns.move brace) margin - 1) =
        (returns.move (brace + 1), returns.close (source.blockEnd brace margin - 1)) := by
  have inFile : brace < source.size := (Array.getElem?_eq_some_iff.1 byte).1
  have after : brace < source.blockEnd brace margin := lt_blockEnd (Nat.le_refl brace) inFile
  rw [returns.blockEnd_move, returns.close_pred (by omega),
    returns.move_succ_of_ne (by rw [byte]; decide)]
  exact ⟨location?_rel begins (returns.covers_move _) (.inl rfl), rfl⟩

theorem blockTurn?_rel {kind kind' : Nat → Kind} (kinds : ∀ line, (kind' line).bare = (kind line).bare)
    {start brace : Nat} (margin : returned.indent (returns.move pos) = source.indent pos)
    (byte : source.masked[brace]? = some 123) :
    Option.Rel returns.TurnMatches (source.blockTurn? kind start pos brace)
      (returned.blockTurn? kind' (returns.move start) (returns.move pos) (returns.move brace)) := by
  obtain ⟨located, inside⟩ := block_rel (source.indent pos) (returns.covers_move start) byte
  rw [blockTurn?, blockTurn?, margin, (returns.covers_move brace).lineOf_eq]
  refine rel_bind located fun location location' places => ?_
  rw [inside, returns.blockEnd_move]
  exact .some (.found _ ⟨kinds _, places, rfl⟩ .nil)

theorem classTurn?_rel (looks : returns.Looks pos limit segment segment') :
    Option.Rel (Option.Rel returns.TurnMatches) (source.classTurn? pos segment)
      (returned.classTurn? (returns.move pos) segment') := by
  unfold classTurn?
  rw [looks.padded.eq_of classHeader?_trailing]
  cases read : classHeader? segment with
  | none => exact .some .none
  | some header =>
      have brace_eq : header.brace.map (returns.move pos + ·) =
          (header.brace.map (pos + ·)).map returns.move := by
        cases opened : header.brace with
        | none => rfl
        | some offset =>
            exact congrArg some (looks.byte (classHeader?_brace read opened) (by decide)).2.symm
      have short : decide (returns.move pos + byteLength segment' < returned.lineEnd (returns.move pos)) =
          decide (pos + byteLength segment < source.lineEnd pos) := decide_eq_decide.2 looks.short_iff
      dsimp only
      rw [short, brace_eq, braceAfter?_covers (returns.covers_move pos),
        looks.codeStart_eq]
      split
      · exact .some .none
      cases opening : source.braceAfter? pos (header.brace.map (pos + ·)) with
      | none => exact .some .none
      | some brace =>
          have byte : source.masked[brace]? = some 123 := by
            refine byte_of_braceAfter? (fun offset same => ?_) opening
            obtain ⟨inner, opened, rfl⟩ := Option.map_eq_some_iff.1 same
            exact (looks.byte (classHeader?_brace read opened) (by decide)).1
          exact rel_map_some (blockTurn?_rel (fun _ => rfl) looks.indent_eq byte)

variable (returns) in
/-- What follows a parameter list, moved. -/
def moveBody : FunctionBody → FunctionBody
  | .arrow => .arrow
  | .block brace => .block (brace.map returns.move)

theorem functionBody?_move {paren : Nat} (byte : source.masked[paren]? = some 41) (inside : paren < limit)
    (boundary : isBoundary source.masked limit = true) :
    returned.functionBody? (returns.move paren)
        (min (returned.lineEnd (returns.move paren)) (returns.close limit)) =
      (source.functionBody? paren (min (source.lineEnd paren) limit)).map returns.moveBody := by
  have level := (returns.covers_move paren).lineOf_eq
  have next := returns.move_succ_of_ne (by rw [byte]; decide : source.masked[paren]? ≠ some 10)
  have inLine := returns.reads.lt_lineEnd byte (by decide) (by decide)
  have begun := returns.reads.lineStart_le paren
  have padded : Padded (charsOf source.masked (paren + 1) (min (source.lineEnd paren) limit))
      (charsOf returned.masked (returns.move (paren + 1))
        (min (returned.lineEnd (returns.move paren)) (returns.close limit))) :=
    charsOf_padded level (Nat.le_succ_of_le begun) (by omega)
      (returns.reads.between_of_byte byte (by decide) (by decide)).2.masked
  have last : (min (returned.lineEnd (returns.move paren)) (returns.close limit) ==
      returned.lineEnd (returns.move paren)) =
        (min (source.lineEnd paren) limit == source.lineEnd paren) := by
    have limits : returns.close limit < returned.lineEnd (returns.move paren) ↔
        limit < source.lineEnd paren := (returns.lineEnd_covers level).close_lt_iff
    rw [Bool.eq_iff_iff, beq_iff_eq, beq_iff_eq]
    omega
  have inner {offset : Nat} (found : source.functionBody? paren (min (source.lineEnd paren) limit) =
      some (.block (some offset))) :
      returns.move offset = returns.move paren + 1 + (offset - (paren + 1)) := by
    obtain ⟨-, after, before⟩ := functionBody?_brace returns.reads byte (by omega)
      (isBoundary_headerEnd returns.reads paren boundary) found
    have inLine : ∀ place, paren + 1 ≤ place → place < paren + 1 + (offset - (paren + 1)) →
        source.masked[place]? ≠ some 10 := fun place lower upper =>
      returns.reads.ne_newline (Nat.le_trans (Nat.le_succ_of_le begun) lower) (by omega)
    rw [← next, ← returns.move_add inLine]
    congr 1
    omega
  rw [next] at padded
  rw [functionBody?_eq] at inner
  rw [functionBody?_eq, functionBody?_eq, last, padded.eq_of (bodyAfter?_trailing _ _)]
  unfold bodyAfter? at inner ⊢
  split
  · rfl
  next more brace =>
    rw [brace] at inner
    rw [Option.map_some, moveBody, Option.map_some, inner rfl, Nat.add_sub_cancel_left]
  · split <;> rfl

/-- A function without a block reaches to the end of its header. -/
theorem arrow_rel {start paren : Nat} (byte : source.masked[paren]? = some 41) (inside : paren < limit)
    (le : start ≤ paren) :
    Option.Rel (fun location location' => location'.sketch = location.sketch)
        (source.location? start (min (source.lineEnd paren) limit))
        (returned.location? (returns.move start)
          (min (returned.lineEnd (returns.move paren)) (returns.close limit))) ∧
      returned.nextLineStart (max (min (returned.lineEnd (returns.move paren)) (returns.close limit) - 1)
          (returns.move paren)) =
        returns.move (source.nextLineStart (max (min (source.lineEnd paren) limit - 1) paren)) := by
  have level := (returns.covers_move paren).lineOf_eq
  have ends := covers_min (returns.lineEnd_covers level) (returns.covers_close limit)
  have inLine := returns.reads.lt_lineEnd byte (by decide) (by decide)
  have begun := returns.reads.lineStart_le paren
  have begun' := returns.reads'.lineStart_le (returns.move paren)
  have size := returns.reads.lineEnd_le_size paren
  have short : paren < min (source.lineEnd paren) limit := by omega
  have short' := Nat.lt_of_lt_of_le (returns.move_lt_move.2 short) ends.1
  have onLine {place : Nat} (lower : paren ≤ place) (upper : place ≤ min (source.lineEnd paren) limit) :
      source.lineOf place = source.lineOf paren :=
    (returns.reads.same_line (Nat.le_trans begun lower) (by omega)).1
  refine ⟨location?_rel (returns.covers_move start) ends (.inr ⟨?_, by omega⟩),
    returns.nextLineStart_eq ?_⟩
  · rw [onLine (by omega) (by omega), onLine (Nat.le_of_lt short) (Nat.le_refl _)]
  · rw [onLine (by omega) (by omega), ← level]
    exact (returns.reads'.same_line (by omega) (by omega)).1

theorem functionTurn?_rel (looks : returns.Looks pos limit segment segment') :
    Option.Rel (Option.Rel returns.TurnMatches) (source.functionTurn? pos limit segment)
      (returned.functionTurn? (returns.move pos) (returns.close limit) segment') := by
  unfold functionTurn?
  rw [looks.padded.eq_of functionHeader?_trailing]
  cases read : functionHeader? segment with
  | none => exact .some .none
  | some header =>
      have parenAt := (looks.byte (functionHeader?_paren read) (by decide)).2
      dsimp only
      rw [(returns.covers_close limit).isBoundary_masked, ← parenAt, returns.closingParen?_move,
        looks.codeStart_eq]
      split
      · exact .some .none
      split
      · exact .none
      next whole =>
        rw [Bool.not_eq_true', Bool.not_eq_false] at whole
        cases closing : closingParen? 0 (pos + header.paren)
            (source.masked.extract (pos + header.paren) limit).toList with
        | none => exact .some .none
        | some paren =>
            obtain ⟨after, inside, byte⟩ := closingParen?_masked closing
            have inLine := returns.reads.lt_lineEnd byte (by decide) (by decide)
            have started := codeStart_le (functionHeader?_paren read) (by decide) pos
            dsimp only [Option.map_some]
            rw [functionBody?_move byte inside whole]
            cases follows : source.functionBody? paren (min (source.lineEnd paren) limit) with
            | none => exact .some .none
            | some body =>
                cases body with
                | arrow =>
                    obtain ⟨located, next⟩ := arrow_rel byte inside (Nat.le_trans started after)
                    dsimp only [Option.map_some, moveBody]
                    rw [next]
                    exact rel_bind located
                      fun location location' places => .some (.some (.found _ ⟨rfl, places, rfl⟩ .nil))
                | block sameLine =>
                    dsimp only [Option.map_some, moveBody]
                    rw [braceAfter?_covers (returns.covers_move paren)]
                    cases opening : source.braceAfter? paren sameLine with
                    | none => exact .some .none
                    | some brace =>
                        have byte : source.masked[brace]? = some 123 := by
                          refine byte_of_braceAfter? (fun offset same => ?_) opening
                          subst same
                          exact (functionBody?_brace returns.reads byte (by omega)
                            (isBoundary_headerEnd returns.reads paren whole) follows).1
                        refine rel_map_some (blockTurn?_rel ?_ looks.indent_eq byte)
                        exact fun _ => rfl

/-! ## Properties -/

/-- A line with a header has code. -/
theorem exists_code_of_accessorHeader? {line name : List Char} {ending : Ending}
    (read : accessorHeader? line = some (name, ending)) : ∃ c ∈ line, isIndent c = false := by
  have begins := List.head?_dropWhile_not isIndent line
  cases code : skipIndent line with
  | nil =>
      rw [accessorHeader?, code] at read
      cases read
  | cons c rest =>
      have suffix := skipIndent_suffix line
      rw [code] at suffix
      rw [← skipIndent, code] at begins
      exact ⟨c, suffix.subset List.mem_cons_self, Bool.eq_false_iff.2 (by simpa using begins)⟩

variable (returns) in
/-- An accessor and where its property goes on, and those at the place where it has gone. -/
def StepMatches (step step' : Opener × Nat) : Prop :=
  returns.Matches step.1 step'.1 ∧ step'.2 = returns.move step.2

/-- An accessor with a block, from the first code of its line on. -/
theorem accessorBlock_rel (kind : Option Nat → Kind) {start first first' brace : Nat}
    (begins : returns.Covers first first') (margin : returned.indent (returns.move start) = source.indent start)
    (byte : source.masked[brace]? = some 123) :
    Option.Rel (Option.Rel returns.StepMatches)
      (do
        let stop := source.blockEnd brace (source.indent start)
        return some (⟨kind (some (source.lineOf brace + 1)), ← source.location? first stop,
          some (brace + 1, stop - 1)⟩, source.nextLineStart (stop - 1)))
      (do
        let stop := returned.blockEnd (returns.move brace) (returned.indent (returns.move start))
        return some (⟨kind (some (returned.lineOf (returns.move brace) + 1)),
          ← returned.location? first' stop, some (returns.move brace + 1, stop - 1)⟩,
          returned.nextLineStart (stop - 1))) := by
  obtain ⟨located, inside⟩ := block_rel (source.indent start) begins byte
  have last := congrArg Prod.snd inside
  dsimp only at last ⊢
  rw [margin, inside, last, (returns.covers_move brace).lineOf_eq]
  exact rel_bind located fun location location' places => .some (.some ⟨⟨rfl, places, rfl⟩,
    returns.nextLineStart_eq (returns.covers_close _).lineOf_eq⟩)

theorem accessor?_rel {start : Nat} (begins : start ∈ source.lineStarts) :
    Option.Rel (Option.Rel returns.StepMatches) (source.accessor? start)
      (returned.accessor? (returns.move start)) := by
  have level := (returns.covers_move start).lineOf_eq
  have first := returns.indent_covers level
  rw [returns.lineStart_eq level, returns.reads.lineStart_of_mem begins] at first
  unfold accessor?
  rw [(returns.maskedLine_padded level).eq_of accessorHeader?_trailing]
  cases read : accessorHeader? (source.maskedLine start) with
  | none => exact .some .none
  | some header =>
      obtain ⟨name, ending⟩ := header
      obtain ⟨c, member, code⟩ := exists_code_of_accessorHeader? read
      have block {brace : Nat} (byte : source.masked[brace]? = some 123) :=
        accessorBlock_rel (.function (String.ofList name) false "") first
          (returns.indent_eq level member code) byte
      cases ending with
      | arrow =>
          refine rel_bind (lineLocation?_rel begins) fun location location' places => ?_
          exact .some (.some ⟨⟨rfl, places, rfl⟩, returns.nextLineStart_eq level⟩)
      | brace offset =>
          obtain ⟨byte, moved⟩ := returns.byte_of_line begins (accessorHeader?_brace read) (by decide)
          dsimp only [braceAfter?]
          rw [← moved]
          exact block byte
      | line =>
          have opened := braceAfter?_covers (returns.covers_move start) none
          dsimp only [Option.map_none] at opened ⊢
          rw [opened]
          cases opening : source.braceAfter? start none with
          | none => exact .some .none
          | some brace => exact block (byte_of_braceAfter? (by rintro _ ⟨⟩) opening)

theorem accessorsFrom_rel {resume : Nat} {starts : List Nat}
    (begin : ∀ start ∈ starts, start ∈ source.lineStarts) :
    Option.Rel (List.Forall₂ returns.Matches) (source.accessorsFrom resume starts)
      (returned.accessorsFrom (returns.move resume) (starts.map returns.move)) := by
  induction starts generalizing resume with
  | nil => exact .some .nil
  | cons start rest ih =>
      rw [List.forall_mem_cons] at begin
      rw [List.map_cons, accessorsFrom, accessorsFrom, if_congr returns.move_lt_move rfl rfl]
      split
      · exact ih begin.2
      · refine rel_bind (accessor?_rel begin.1) fun step step' same => ?_
        cases same with
        | none => exact ih begin.2
        | @some found found' here =>
            obtain ⟨accessor, resume⟩ := found
            obtain ⟨accessor', resume'⟩ := found'
            obtain ⟨here, rfl⟩ := here
            exact rel_bind (ih begin.2) fun others others' each => .some (.cons here each)

theorem accessors?_rel (brace stop : Nat) :
    Option.Rel (List.Forall₂ returns.Matches) (source.accessors? brace stop)
      (returned.accessors? (returns.move brace) (returns.move stop)) := by
  have inner (start : Nat) : (decide (returns.move brace < returns.move start) &&
      decide (returned.lineOf (returns.move start) < returned.lineOf (returns.move stop - 1))) =
        (decide (brace < start) && decide (source.lineOf start < source.lineOf (stop - 1))) := by
    rw [decide_eq_decide.2 returns.move_lt_move, (returns.covers_move start).lineOf_eq,
      (returns.covers_pred stop).lineOf_eq]
  have starts : returned.lineStarts.toList = source.lineStarts.toList.map returns.move := by
    rw [returns.lineStarts_eq, Array.toList_map]
  rw [accessors?, accessors?, starts, List.filter_map]
  simp only [Function.comp_def, inner]
  exact accessorsFrom_rel fun start member => Array.mem_toList_iff.1 (List.mem_filter.1 member).1

/-- A property with a block. -/
theorem propertyBlock_rel (looks : returns.Looks pos limit segment segment') {kind kind' : Option Nat → Kind}
    (kinds : ∀ line, (kind' line).bare = (kind line).bare) {brace : Nat}
    (byte : source.masked[brace]? = some 123) :
    Option.Rel (Option.Rel returns.TurnMatches)
      (do
        let stop := source.blockEnd brace (source.indent pos)
        return some (.found ⟨kind (some (source.lineOf brace + 1)),
          ← source.location? (codeStart pos segment) stop, none⟩ (← source.accessors? brace stop) stop))
      (do
        let stop := returned.blockEnd (returns.move brace) (returned.indent (returns.move pos))
        return some (.found ⟨kind' (some (returned.lineOf (returns.move brace) + 1)),
          ← returned.location? (codeStart (returns.move pos) segment') stop, none⟩
          (← returned.accessors? (returns.move brace) stop) stop)) := by
  obtain ⟨located, -⟩ := block_rel (source.indent pos) (returns.covers_move (codeStart pos segment)) byte
  dsimp only
  rw [looks.indent_eq, looks.codeStart_eq, (returns.covers_move brace).lineOf_eq]
  refine rel_bind located fun location location' places => ?_
  rw [returns.blockEnd_move]
  exact rel_bind (accessors?_rel brace _) fun accessors accessors' each =>
    .some (.some (.found _ ⟨kinds _, places, rfl⟩ each))

theorem propertyTurn?_rel (looks : returns.Looks pos limit segment segment') :
    Option.Rel (Option.Rel returns.TurnMatches) (source.propertyTurn? pos limit segment)
      (returned.propertyTurn? (returns.move pos) (returns.close limit) segment') := by
  have level := (returns.covers_move pos).lineOf_eq
  unfold propertyTurn?
  rw [if_congr (returns.lineEnd_covers level).close_lt_iff rfl rfl,
    looks.padded.eq_of propertyHeader?_trailing]
  split
  · exact .some .none
  cases read : propertyHeader? segment with
  | none => exact .some .none
  | some header =>
      dsimp only
      split
      · exact .some .none
      cases ending : header.ending with
      | arrow =>
          obtain ⟨front, back, -, start, stop⟩ := exists_segment returns.reads looks.looked
          have inside := Reads.codeStart_le_add pos segment
          have onLine := returns.le_lineEnd (Nat.le_of_lt looks.inFile)
          have before := looks.before
          dsimp only
          rw [looks.codeStart_eq, returns.nextLineStart_eq level]
          refine rel_bind (toLineEnd_rel level (returns.covers_move _) ?_ (by omega))
            fun location location' places => .some (.some (.found _ ⟨rfl, places, rfl⟩ .nil))
          exact Nat.le_trans (returns.reads.lineStart_le pos) (Nat.le_add_right _ _)
      | brace offset =>
          obtain ⟨byte, moved⟩ := looks.byte ((propertyHeader?_parts read).2 offset ending) (by decide)
          dsimp only [braceAfter?]
          rw [← moved]
          refine propertyBlock_rel looks ?_ byte
          exact fun _ => rfl
      | line =>
          have opened := braceAfter?_covers (returns.covers_move pos) none
          dsimp only [Option.map_none] at opened ⊢
          rw [opened]
          cases opening : source.braceAfter? pos none with
          | none => exact .some .none
          | some brace =>
              refine propertyBlock_rel looks ?_ (byte_of_braceAfter? (by rintro _ ⟨⟩) opening)
              exact fun _ => rfl

/-! ## Turns -/

theorem declarationTurn?_rel (looks : returns.Looks pos limit segment segment') (inClass : Bool) :
    Option.Rel returns.TurnMatches (source.declarationTurn? pos limit inClass segment)
      (returned.declarationTurn? (returns.move pos) (returns.close limit) inClass segment') := by
  have pass : Option.Rel returns.TurnMatches (some (.pass (source.nextLineStart pos)))
      (some (.pass (returned.nextLineStart (returns.move pos)))) := by
    rw [returns.nextLineStart_eq (returns.covers_move pos).lineOf_eq]
    exact .some (.pass _)
  refine rel_bind (classTurn?_rel looks) fun turn turn' same => ?_
  cases same with
  | some same => exact .some same
  | none =>
      refine rel_bind (functionTurn?_rel looks) fun turn turn' same => ?_
      cases same with
      | some same => exact .some same
      | none =>
          cases inClass with
          | false => exact pass
          | true =>
              refine rel_bind (propertyTurn?_rel looks) fun turn turn' same => ?_
              cases same with
              | some same => exact .some same
              | none => exact pass

theorem commentTurn?_rel (begins : pos ∈ source.lineStarts) :
    Option.Rel returns.TurnMatches (source.commentTurn? pos)
      (returned.commentTurn? (returns.move pos)) := by
  have level := (returns.covers_move pos).lineOf_eq
  have first := returns.indent_covers level
  rw [returns.lineStart_eq level, returns.reads.lineStart_of_mem begins] at first
  have stop_eq : (returned.commentEnd? (returns.move pos + returned.indent (returns.move pos))).getD
      returned.size = returns.move ((source.commentEnd? (pos + source.indent pos)).getD source.size) := by
    rw [commentEnd?_covers first, returns.size_move, Option.getD_map]
  rw [commentTurn?_eq, commentTurn?_eq]
  dsimp only
  rw [stop_eq, returns.nextLineStart_eq (covers_max (returns.covers_pred _) first).lineOf_eq]
  exact rel_bind (location?_rel first (returns.covers_move _) (.inl rfl))
    fun location location' places => .some (.found _ ⟨rfl, places, rfl⟩ .nil)

theorem directiveTurn?_rel (begins : pos ∈ source.lineStarts) :
    Option.Rel returns.TurnMatches (source.directiveTurn? pos)
      (returned.directiveTurn? (returns.move pos)) := by
  rw [directiveTurn?, directiveTurn?, returns.nextLineStart_eq (returns.covers_move pos).lineOf_eq]
  exact rel_bind (lineLocation?_rel begins)
    fun location location' places => .some (.found _ ⟨rfl, places, rfl⟩ .nil)

/-- An include directive, whose argument is read without the blanks after it. -/
theorem inclusionTurn?_rel (begins : pos ∈ source.lineStarts) {header header' : Inclusion}
    (read : inclusion? (source.maskedLine pos) = some header) (again : header'.again = header.again)
    (offset : header'.offset = header.offset)
    (argument : trimEnd header'.argument = trimEnd header.argument) :
    Option.Rel returns.TurnMatches (source.inclusionTurn? pos header)
      (returned.inclusionTurn? (returns.move pos) header') := by
  obtain ⟨front, back, -, first, last⟩ := returns.reads.exists_maskedLine pos
  obtain ⟨before, split, place, -⟩ := inclusion?_argument read
  obtain ⟨blanks, whole, -⟩ := exists_trimEnd header.argument
  have short := congrArg byteLength whole
  have length := congrArg byteLength split
  have begun := returns.reads.lineStart_of_mem begins
  rw [byteLength_append] at short length
  have start := returns.move_lineStart_add
    (show source.lineStart pos + header.offset ≤ source.lineEnd pos by omega)
  have stop := returns.move_lineStart_add (show source.lineStart pos +
    (header.offset + byteLength (trimEnd header.argument)) ≤ source.lineEnd pos by omega)
  rw [begun, ← Nat.add_assoc, ← Nat.add_assoc] at stop
  rw [begun] at start first
  have cut : cut? returned.text (returns.move pos + header'.offset)
      (returns.move pos + header'.offset + byteLength (trimEnd header'.argument)) =
        cut? source.text (pos + header.offset)
          (pos + header.offset + byteLength (trimEnd header.argument)) := by
    have inLine (index : Nat) (lower : pos + header.offset ≤ index)
        (upper : index < pos + header.offset + byteLength (trimEnd header.argument)) :
        source.masked[index]? ≠ some 10 :=
      returns.reads.ne_newline (show source.lineStart pos ≤ index by omega) (by omega)
    rw [offset, argument, ← stop, ← start, cut?, cut?, returns.charsOf_text_move inLine,
      (returns.covers_move _).isBoundary_text, (returns.covers_move _).isBoundary_text,
      decide_eq_decide.2 returns.move_le_move]
  rw [inclusionTurn?, inclusionTurn?, returns.nextLineStart_eq (returns.covers_move pos).lineOf_eq]
  dsimp only
  rw [cut, again]
  cases cut? source.text (pos + header.offset)
      (pos + header.offset + byteLength (trimEnd header.argument)) with
  | none => exact .none
  | some argument =>
      simp only [Option.bind_eq_bind, Option.bind_some]
      refine rel_bind (lineLocation?_rel begins) fun location location' places => ?_
      exact .some (.found _ ⟨rfl, places, rfl⟩ .nil)

variable (returns) in
/-- What a turn of a scan finds, it finds where its place has gone. -/
theorem turnAt?_rel (inFile : pos < source.size) (reached : pos ≤ limit) (inClass : Bool) :
    Option.Rel returns.TurnMatches (source.turnAt? pos limit inClass)
      (returned.turnAt? (returns.move pos) (returns.close limit) inClass) := by
  have level := (returns.covers_move pos).lineOf_eq
  have line := returns.maskedLine_padded level
  have startsLine : (returns.move pos == returned.lineStart (returns.move pos)) =
      (pos == source.lineStart pos) := by
    rw [returns.lineStart_eq level, Bool.eq_iff_iff, beq_iff_eq, beq_iff_eq, returns.move_inj]
  have member (starts : pos = source.lineStart pos) : pos ∈ source.lineStarts :=
    starts ▸ returns.reads.lineStart_mem pos
  have segments := returns.segment?_padded inFile reached
  rw [turnAt?, turnAt?]
  generalize looked : source.segment? pos limit = segment at segments ⊢
  generalize looked' : returned.segment? (returns.move pos) (returns.close limit) = segment' at segments ⊢
  cases segments with
  | none => exact .none
  | @some segment segment' padded =>
      simp only [Option.bind_eq_bind, Option.bind_some]
      rw [startsLine, returns.opensComment_rawLine level, padded.eq_of allBlank_trailing]
      split
      next comment =>
        rw [Bool.and_eq_true, beq_iff_eq] at comment
        exact commentTurn?_rel (member comment.1)
      next =>
        split
        · rw [returns.nextLineStart_eq level]
          exact .some (.pass _)
        next code =>
          -- With code in it, the segment is not empty, and so the scan does not stop here.
          have before : pos < limit := by
            obtain ⟨front, back, -, start, stop⟩ := exists_segment returns.reads looked
            refine Nat.lt_of_le_of_ne reached fun same => code ?_
            have empty : byteLength segment = 0 := by omega
            rw [eq_nil_of_byteLength empty]
            rfl
          have looks : returns.Looks pos limit segment segment' :=
            ⟨inFile, before, looked, looked', padded, Bool.eq_false_iff.2 code⟩
          split
          next starts =>
            rw [beq_iff_eq] at starts
            have inclusions := line.inclusion?
            rw [line.eq_of isDirective_trailing, line.eq_of occursIn_trailing]
            generalize read : inclusion? (source.maskedLine pos) = header at inclusions ⊢
            generalize inclusion? (returned.maskedLine (returns.move pos)) = header' at inclusions ⊢
            cases inclusions with
            | some same => exact inclusionTurn?_rel (member starts) read same.1 same.2.1 same.2.2
            | none =>
                dsimp only
                split
                · exact directiveTurn?_rel (member starts)
                · exact declarationTurn?_rel looks inClass
          next => exact declarationTurn?_rel looks inClass

end Turns

end Returning
end Source
end DebugBridge
