import DebugBridge.Proofs.Script.Displacement
import DebugBridge.Proofs.Script.Renumbering
import DebugBridge.Proofs.Script.Trailing
import DebugBridge.Proofs.Text.Trim

/-!
# Turns across an insertion

What a scan finds at a place it finds again where the place has moved, with the lines renumbered.  Two
things can go wrong, and both only where something is still open at the insertion: a block or a comment
that is not closed before the end of the file would reach past what is put in at that end, and a comment
that has not ended before the insertion would end inside it.
-/

namespace DebugBridge
namespace Source

open Text Header

/-- A place where a comment can be put in: no block is left open at the end of the file, should that be
the place, and every comment that opens before has ended, or goes on past the one that is put in. -/
structure Admits (source : Source) (place : Nat) (comment : List Char) : Prop where
  blocks : place = source.size → ∀ brace margin, source.masked[brace]? = some 123 →
    source.blockEnd brace margin < source.size
  comments : ∀ start ∈ source.lineStarts, start < place →
    opensComment (source.rawLine start) = true →
    (∃ stop ≤ place, source.commentEnd? (start + source.indent start) = some stop) ∨
      ¬ ['*', '/'] <:+: comment ∧
        (place = source.size → source.commentEnd? (start + source.indent start) ≠ none)

namespace Insertion

variable {source shifted : Source} (ins : source.Insertion shifted)

/-- Where a scan goes on: with the line that has moved, or with the first one that is put in. -/
def GoesOn (next next' : Nat) : Prop := next' = ins.move next ∨ next = ins.place ∧ next' = ins.place

/-- A construct that opens, and the one that opens where it has moved. -/
structure Moved (opener opener' : Opener) : Prop where
  kinds : Kind.Renumbered ins.first ins.lines opener.kind opener'.kind
  places : Location.Renumbered ins.first ins.lines opener.location opener'.location
  inside_eq : opener'.inside = opener.inside.map fun range => (ins.move range.1, ins.move range.2)
  flat : opener.kind.isProperty = true → opener.inside = none

/-- A turn and the one where its place has moved. -/
inductive TurnMoved : Turn → Turn → Prop
  | pass {next next' : Nat} (goes : ins.GoesOn next next') : TurnMoved (.pass next) (.pass next')
  | found {opener opener' : Opener} {accessors accessors' : List Opener} {next next' : Nat}
      (here : ins.Moved opener opener') (each : List.Forall₂ ins.Moved accessors accessors')
      (goes : ins.GoesOn next next') :
      TurnMoved (.found opener accessors next) (.found opener' accessors' next')

/-! ## Places and stretches -/

theorem goesOn_nextLineStart (index : Nat) :
    ins.GoesOn (source.nextLineStart index) (shifted.nextLineStart (ins.move index)) :=
  ins.nextLineStart_move index

/-- A scan that starts with the file goes on from its start. -/
theorem goesOn_zero : ins.GoesOn 0 0 := by
  rcases Nat.eq_zero_or_pos ins.place with zero | positive
  · exact .inr ⟨zero.symm, zero.symm⟩
  · exact .inl (ins.move_of_lt positive).symm

theorem shift_succ (line : Nat) : ins.shift line + 1 = renumber ins.first ins.lines (line + 1) := by
  unfold shift renumber first
  split <;> split <;> omega

theorem position_move (index : Nat) :
    shifted.position (ins.move index) = (source.position index).renumber ins.first ins.lines := by
  have start := ins.reads.lineStart_le index
  have side : ins.place ≤ index → ins.place ≤ source.lineStart index := ins.place_le_lineStart
  have column : ins.move index - ins.move (source.lineStart index) = index - source.lineStart index := by
    unfold move
    split <;> split <;> omega
  rw [position, position, Position.renumber, ins.lineOf_move, ins.lineStart_move, ins.shift_succ, column]

/-- A line that ends at the insertion is an empty one there. -/
theorem lineEnd_eq_place {index : Nat} (ends : source.lineEnd index = ins.place) : ins.place ≤ index := by
  refine Nat.le_of_not_lt fun before => ?_
  have := ins.lineEnd_lt before
  omega

theorem cut?_masked_move {start stop : Nat} (apart : stop < ins.place ∨ ins.place ≤ start) :
    cut? shifted.masked (ins.move start) (ins.move stop) = cut? source.masked start stop := by
  rw [cut?, cut?, ins.isBoundary_masked_move, ins.isBoundary_masked_move,
    ins.charsOf_masked_move apart, decide_eq_decide.2 ins.move_le_move]

theorem cut?_text_move {start stop : Nat} (apart : stop < ins.place ∨ ins.place ≤ start) :
    cut? shifted.text (ins.move start) (ins.move stop) = cut? source.text start stop := by
  rw [cut?, cut?, ins.isBoundary_text_move, ins.isBoundary_text_move, ins.charsOf_text_move apart,
    decide_eq_decide.2 ins.move_le_move]

/-- A location goes with its stretch, which ends at the insertion only if it starts there. -/
theorem location?_rel {start stop : Nat} (inside : stop ≤ source.size)
    (apart : stop = ins.place → ins.place ≤ start) :
    Option.Rel (Location.Renumbered ins.first ins.lines) (source.location? start stop)
      (shifted.location? (ins.move start) (ins.move stop)) := by
  have stop_eq : max (min (ins.move stop) shifted.size) (ins.move start) =
      ins.move (max (min stop source.size) start) := by
    rw [ins.size_move, ← ins.move_min, ← ins.move_max]
  have last_eq : max (ins.move (max (min stop source.size) start) - 1) (ins.move start) =
      ins.move (max (max (min stop source.size) start - 1) start) := by
    unfold move
    split <;> split <;> split <;> omega
  rw [location?, location?, stop_eq, cut?, cut?, ins.isBoundary_text_move, ins.isBoundary_text_move,
    decide_eq_true (Nat.le_max_right _ start), decide_eq_true (ins.move_le_move.2 (Nat.le_max_right _ start))]
  split
  · refine .some ⟨ins.path_eq, ins.position_move start, ?_⟩
    dsimp only
    rw [last_eq, ins.position_move]
  · exact .none

/-! ## Lines -/

/-- A location that reaches from some place to the end of its line. -/
theorem toLineEnd_rel {index start : Nat} (reached : index ≤ start) :
    Option.Rel (Location.Renumbered ins.first ins.lines) (source.location? start (source.lineEnd index))
      (shifted.location? (ins.move start) (shifted.lineEnd (ins.move index))) := by
  rw [ins.lineEnd_move]
  exact ins.location?_rel (ins.reads.lineEnd_le_size index)
    fun same => Nat.le_trans (ins.lineEnd_eq_place same) reached

theorem lineLocation?_rel {start : Nat} (begins : start ∈ source.lineStarts) :
    Option.Rel (Location.Renumbered ins.first ins.lines) (source.lineLocation? start)
      (shifted.lineLocation? (ins.move start)) := by
  rw [lineLocation?, lineLocation?, ins.indent_move, ← ins.move_add_indent begins]
  exact ins.toLineEnd_rel (Nat.le_add_right _ _)

/-- A character of a line that is known to be in ASCII moves with the line. -/
theorem byte_of_line {start offset : Nat} {c : Char} (begins : start ∈ source.lineStarts)
    (stands : StandsAt (source.maskedLine start) offset c) (ascii : c.toNat < 0x80) :
    source.masked[start + offset]? = some (UInt8.ofNat c.toNat) ∧
      ins.move (start + offset) = ins.move start + offset := by
  obtain ⟨front, back, hidden, first, last⟩ := ins.reads.exists_maskedLine start
  obtain ⟨byte, inside⟩ := getElem?_of_standsAt ins.reads hidden stands ascii
  have distance := ins.move_lineStart_add
    (show source.lineStart start + offset ≤ source.lineEnd start by omega)
  rw [ins.reads.lineStart_of_mem begins] at first distance
  rw [first] at byte
  exact ⟨byte, distance⟩

/-! ## Segments -/

section Segments

variable {pos limit : Nat} {segment : List Char}

theorem segment?_move (pos limit : Nat) :
    shifted.segment? (ins.move pos) (ins.move limit) = source.segment? pos limit := by
  rw [segment?, segment?, ins.lineEnd_move, ← ins.move_min, ← ins.move_max]
  refine ins.cut?_masked_move ?_
  rcases Nat.lt_or_ge pos ins.place with before | after
  · have := ins.lineEnd_lt before
    exact .inl (by omega)
  · exact .inr after

/-- A place in a segment keeps its distance from where the segment starts. -/
theorem move_segment_add {distance : Nat} (looked : source.segment? pos limit = some segment)
    (inside : distance ≤ byteLength segment) : ins.move (pos + distance) = ins.move pos + distance := by
  obtain ⟨front, back, -, start, stop⟩ := exists_segment ins.reads looked
  refine ins.move_add fun before => ?_
  have := ins.lineEnd_lt before
  omega

/-- What a segment says of a stretch of it stays the same. -/
theorem apart_of_segment {distance : Nat} (looked : source.segment? pos limit = some segment)
    (inside : distance ≤ byteLength segment) : pos + distance < ins.place ∨ ins.place ≤ pos := by
  obtain ⟨front, back, -, start, stop⟩ := exists_segment ins.reads looked
  rcases Nat.lt_or_ge pos ins.place with before | after
  · have := ins.lineEnd_lt before
    exact .inl (by omega)
  · exact .inr after

theorem move_codeStart (looked : source.segment? pos limit = some segment) :
    ins.move (codeStart pos segment) = codeStart (ins.move pos) segment := by
  have inside := Reads.codeStart_le_add 0 segment
  rw [codeStart, Nat.zero_add, Nat.zero_add] at inside
  exact ins.move_segment_add looked inside

/-- A character of a segment that is known to be in ASCII moves with the segment. -/
theorem byte_of_segment (looked : source.segment? pos limit = some segment) {offset : Nat} {c : Char}
    (stands : StandsAt segment offset c) (ascii : c.toNat < 0x80) :
    source.masked[pos + offset]? = some (UInt8.ofNat c.toNat) ∧
      ins.move (pos + offset) = ins.move pos + offset := by
  obtain ⟨front, back, hidden, start, stop⟩ := exists_segment ins.reads looked
  obtain ⟨byte, inside⟩ := getElem?_of_standsAt ins.reads hidden stands ascii
  rw [start] at byte
  exact ⟨byte, ins.move_segment_add looked (Nat.le_of_lt inside)⟩

end Segments

/-! ## Blocks -/

section Turns

variable {ins} (admits : source.Admits ins.place ins.inserted)

include admits

/-- No block ends at the insertion. -/
theorem blockEnd_ne_place {brace : Nat} (margin : Nat) (byte : source.masked[brace]? = some 123) :
    source.blockEnd brace margin ≠ ins.place := by
  intro same
  rcases source.blockEnd_cases brace margin with ⟨place, -, closing, eq⟩ | eq
  · have newline := ins.masked_before (eq.symm.trans same)
    rw [closing] at newline
    cases newline
  · have := admits.blocks (same.symm.trans eq) brace margin byte
    omega

theorem block_rel (start margin : Nat) {brace : Nat} (byte : source.masked[brace]? = some 123) :
    Option.Rel (Location.Renumbered ins.first ins.lines)
        (source.location? start (source.blockEnd brace margin))
        (shifted.location? (ins.move start) (shifted.blockEnd (ins.move brace) margin)) ∧
      (ins.move brace + 1, shifted.blockEnd (ins.move brace) margin - 1) =
        (ins.move (brace + 1), ins.move (source.blockEnd brace margin - 1)) := by
  have other := blockEnd_ne_place admits margin byte
  have inFile : brace < source.size := (Array.getElem?_eq_some_iff.1 byte).1
  have after : brace < source.blockEnd brace margin := lt_blockEnd (Nat.le_refl brace) inFile
  rw [ins.blockEnd_move, ins.move_succ byte (by decide), ins.move_sub_one other (by omega)]
  exact ⟨ins.location?_rel (blockEnd_le_size brace margin) fun same => absurd same other, rfl⟩

theorem blockTurn?_rel {kind kind' : Nat → Kind}
    (kinds : ∀ line, Kind.Renumbered ins.first ins.lines (kind line)
      (kind' (renumber ins.first ins.lines line)))
    (flat : ∀ line, (kind line).isProperty = false) {start pos brace : Nat}
    (byte : source.masked[brace]? = some 123) :
    Option.Rel ins.TurnMoved (source.blockTurn? kind start pos brace)
      (shifted.blockTurn? kind' (ins.move start) (ins.move pos) (ins.move brace)) := by
  obtain ⟨located, inside⟩ := block_rel admits start (source.indent pos) byte
  rw [blockTurn?, blockTurn?, ins.indent_move, ins.lineOf_move, ins.shift_succ]
  refine rel_bind located fun location location' places => ?_
  rw [inside]
  refine .some (.found ⟨kinds _, places, rfl, fun property => ?_⟩ .nil (.inl (ins.blockEnd_move _ _)))
  rw [flat] at property
  cases property

variable {pos limit : Nat} {segment : List Char}

theorem classTurn?_rel (looked : source.segment? pos limit = some segment) :
    Option.Rel (Option.Rel ins.TurnMoved) (source.classTurn? pos segment)
      (shifted.classTurn? (ins.move pos) segment) := by
  have short : decide (ins.move pos + byteLength segment < shifted.lineEnd (ins.move pos)) =
      decide (pos + byteLength segment < source.lineEnd pos) := by
    rw [ins.lineEnd_move, ← ins.move_segment_add looked (Nat.le_refl _),
      decide_eq_decide.2 ins.move_lt_move]
  unfold classTurn?
  cases read : classHeader? segment with
  | none => exact .some .none
  | some header =>
      have brace_eq : header.brace.map (ins.move pos + ·) = (header.brace.map (pos + ·)).map ins.move := by
        cases opened : header.brace with
        | none => rfl
        | some offset =>
            have stands := classHeader?_brace read opened
            exact congrArg some (ins.byte_of_segment looked stands (by decide)).2.symm
      dsimp only
      rw [short, brace_eq, ins.braceAfter?_move, ← ins.move_codeStart looked]
      split
      · exact .some .none
      cases opening : source.braceAfter? pos (header.brace.map (pos + ·)) with
      | none => exact .some .none
      | some brace =>
          have byte : source.masked[brace]? = some 123 := by
            refine byte_of_braceAfter? (fun offset same => ?_) opening
            obtain ⟨inner, opened, rfl⟩ := Option.map_eq_some_iff.1 same
            exact (ins.byte_of_segment looked (classHeader?_brace read opened) (by decide)).1
          exact rel_map_some (blockTurn?_rel admits (fun line => .classDef _ _ line) (fun _ => rfl) byte)

omit admits

variable (ins) in
/-- What follows a parameter list, moved. -/
def moveBody : FunctionBody → FunctionBody
  | .arrow => .arrow
  | .block brace => .block (brace.map ins.move)

variable (ins) in
theorem functionBody?_move {paren headerEnd : Nat} (byte : source.masked[paren]? = some 41)
    (after : paren < headerEnd) (inLine : headerEnd ≤ source.lineEnd paren)
    (boundary : isBoundary source.masked headerEnd = true) :
    shifted.functionBody? (ins.move paren) (ins.move headerEnd) =
      (source.functionBody? paren headerEnd).map ins.moveBody := by
  have next := ins.move_succ byte (by decide)
  have apart : headerEnd < ins.place ∨ ins.place ≤ paren := by
    rcases Nat.lt_or_ge paren ins.place with before | le
    · have := ins.lineEnd_lt before
      exact .inl (by omega)
    · exact .inr le
  have rest : charsOf shifted.masked (ins.move paren + 1) (ins.move headerEnd) =
      charsOf source.masked (paren + 1) headerEnd := by
    rw [← next]
    exact ins.charsOf_masked_move (by omega)
  have inner {offset : Nat}
      (found : source.functionBody? paren headerEnd = some (.block (some offset))) :
      paren < offset ∧ offset < headerEnd :=
    (functionBody?_brace ins.reads byte after boundary found).2
  have last : (ins.move headerEnd == shifted.lineEnd (ins.move paren)) =
      (headerEnd == source.lineEnd paren) := by
    rw [ins.lineEnd_move, Bool.eq_iff_iff, beq_iff_eq, beq_iff_eq, ins.move_inj]
  unfold functionBody? at inner ⊢
  rw [rest, last]
  dsimp only at inner ⊢
  split
  · rfl
  next more brace =>
    rw [brace] at inner
    obtain ⟨le, lt⟩ := inner rfl
    rw [Option.map_some, moveBody, Option.map_some, ins.move_add (by omega), next]
  · split <;> rfl

variable (ins) in
/-- A function without a block reaches to the end of its header. -/
theorem arrow_rel {start paren : Nat} (byte : source.masked[paren]? = some 41) (inside : paren < limit) :
    Option.Rel (Location.Renumbered ins.first ins.lines)
        (source.location? start (min (source.lineEnd paren) limit))
        (shifted.location? (ins.move start) (ins.move (min (source.lineEnd paren) limit))) ∧
      ins.GoesOn (source.nextLineStart (max (min (source.lineEnd paren) limit - 1) paren))
        (shifted.nextLineStart
          (max (ins.move (min (source.lineEnd paren) limit) - 1) (ins.move paren))) := by
  have inLine := ins.reads.lt_lineEnd byte (by decide) (by decide)
  have size := ins.reads.lineEnd_le_size paren
  have other : min (source.lineEnd paren) limit ≠ ins.place := by
    rcases Nat.lt_or_ge paren ins.place with before | after
    · have := ins.lineEnd_lt before
      omega
    · omega
  have last : max (ins.move (min (source.lineEnd paren) limit) - 1) (ins.move paren) =
      ins.move (max (min (source.lineEnd paren) limit - 1) paren) := by
    rw [ins.move_max, ins.move_sub_one other (by omega)]
  rw [last]
  exact ⟨ins.location?_rel (by omega) fun same => absurd same other, ins.goesOn_nextLineStart _⟩

include admits

theorem functionTurn?_rel (looked : source.segment? pos limit = some segment) :
    Option.Rel (Option.Rel ins.TurnMoved) (source.functionTurn? pos limit segment)
      (shifted.functionTurn? (ins.move pos) (ins.move limit) segment) := by
  unfold functionTurn?
  cases read : functionHeader? segment with
  | none => exact .some .none
  | some header =>
      have parenAt := (ins.byte_of_segment looked (functionHeader?_paren read) (by decide)).2
      dsimp only
      rw [ins.isBoundary_masked_move, ← parenAt, ins.closingParen?_move, ← ins.move_codeStart looked]
      split
      · exact .some .none
      split
      · exact .none
      next whole =>
        rw [Bool.not_eq_true', Bool.not_eq_false] at whole
        cases closing : closingParen? 0 (pos + header.paren)
            (source.masked.extract (pos + header.paren) limit).toList with
        | none => exact .some .none
        | some paren =>
            obtain ⟨-, inside, byte⟩ := closingParen?_masked closing
            have inLine := ins.reads.lt_lineEnd byte (by decide) (by decide)
            have boundary := isBoundary_headerEnd ins.reads paren whole
            dsimp only [Option.map_some]
            rw [ins.lineEnd_move, ← ins.move_min,
              ins.functionBody?_move byte (by omega) (Nat.min_le_left _ limit) boundary]
            cases follows : source.functionBody? paren (min (source.lineEnd paren) limit) with
            | none => exact .some .none
            | some body =>
                cases body with
                | arrow =>
                    obtain ⟨located, goes⟩ := ins.arrow_rel byte inside
                    exact rel_bind located fun location location' places =>
                      .some (.some (.found ⟨.function _ _ _ _ none, places, rfl, fun _ => rfl⟩ .nil goes))
                | block sameLine =>
                    dsimp only [Option.map_some, moveBody]
                    rw [ins.braceAfter?_move]
                    cases opening : source.braceAfter? paren sameLine with
                    | none => exact .some .none
                    | some brace =>
                        have byte : source.masked[brace]? = some 123 := by
                          refine byte_of_braceAfter? (fun offset same => ?_) opening
                          subst same
                          exact (functionBody?_brace ins.reads byte (by omega) boundary follows).1
                        exact rel_map_some (blockTurn?_rel admits
                          (fun line => .function _ _ _ _ (some line)) (fun _ => rfl) byte)

/-! ## Properties -/

omit admits

/-- A blank line is no header of an accessor. -/
theorem accessorHeader?_blank {line : List Char} (blank : ∀ c ∈ line, Mask.separates c) :
    accessorHeader? line = none := by
  have suffix := skipIndent_suffix line
  unfold accessorHeader?
  cases code : skipIndent line with
  | nil => rfl
  | cons c rest =>
      rw [code] at suffix
      have kind := blank c (suffix.subset List.mem_cons_self)
      simp only [Mask.separates, Bool.or_eq_true, beq_iff_eq] at kind
      rcases kind with ((rfl | rfl) | rfl) | rfl <;> rfl

variable (ins) in
/-- An accessor and where its property goes on, and those at the place to which it has moved. -/
def StepMoved (step step' : Opener × Nat) : Prop := ins.Moved step.1 step'.1 ∧ ins.GoesOn step.2 step'.2

variable (ins) in
theorem accessor?_inserted {start : Nat} (after : ins.place ≤ start)
    (before : start < ins.place + ins.count) : shifted.accessor? start = some none := by
  rw [accessor?, accessorHeader?_blank (ins.maskedLine_inserted after before)]

include admits in
/-- An accessor with a block, from the first code of its line on. -/
theorem accessorBlock_rel (name : String) {first margin brace : Nat}
    (byte : source.masked[brace]? = some 123) :
    Option.Rel (Option.Rel ins.StepMoved)
      (do
        let stop := source.blockEnd brace margin
        return some (⟨Kind.function name false "" (some (source.lineOf brace + 1)),
          ← source.location? first stop, some (brace + 1, stop - 1)⟩, source.nextLineStart (stop - 1)))
      (do
        let stop := shifted.blockEnd (ins.move brace) margin
        return some (⟨Kind.function name false "" (some (shifted.lineOf (ins.move brace) + 1)),
          ← shifted.location? (ins.move first) stop, some (ins.move brace + 1, stop - 1)⟩,
          shifted.nextLineStart (stop - 1))) := by
  obtain ⟨located, inside⟩ := block_rel admits first margin byte
  have last := congrArg Prod.snd inside
  dsimp only at last ⊢
  rw [inside, last, ins.lineOf_move, ins.shift_succ]
  exact rel_bind located fun location location' places => .some (.some
    ⟨⟨.function _ _ _ _ (some _), places, rfl, (absurd · Bool.false_ne_true)⟩,
      ins.goesOn_nextLineStart _⟩)

include admits in
theorem accessor?_rel {start : Nat} (begins : start ∈ source.lineStarts) :
    Option.Rel (Option.Rel ins.StepMoved) (source.accessor? start)
      (shifted.accessor? (ins.move start)) := by
  unfold accessor?
  rw [ins.maskedLine_move]
  cases read : accessorHeader? (source.maskedLine start) with
  | none => exact .some .none
  | some header =>
      obtain ⟨name, ending⟩ := header
      dsimp only
      rw [ins.indent_move, ← ins.move_add_indent begins]
      cases ending with
      | arrow =>
          refine rel_bind (ins.toLineEnd_rel (Nat.le_add_right start _)) fun location location' places => ?_
          exact .some (.some ⟨⟨.function _ _ _ _ none, places, rfl, fun _ => rfl⟩,
            ins.goesOn_nextLineStart start⟩)
      | brace offset =>
          obtain ⟨byte, moved⟩ := ins.byte_of_line begins (accessorHeader?_brace read) (by decide)
          dsimp only [braceAfter?]
          rw [← moved]
          exact accessorBlock_rel admits _ byte
      | line =>
          have opened := ins.braceAfter?_move start none
          dsimp only [Option.map_none] at opened ⊢
          rw [opened]
          cases opening : source.braceAfter? start none with
          | none => exact .some .none
          | some brace =>
              exact accessorBlock_rel admits _ (byte_of_braceAfter? (by rintro _ ⟨⟩) opening)

/-- What lies before the place where a scan goes on lies before it when it has moved. -/
theorem GoesOn.lt_iff {next next' : Nat} (goes : ins.GoesOn next next') (index : Nat) :
    ins.move index < next' ↔ index < next := by
  rcases goes with rfl | ⟨rfl, rfl⟩
  · exact ins.move_lt_move
  · unfold move
    split <;> omega

include admits

theorem accessorsFrom_rel {starts starts' : List Nat} (spread : ins.Spread starts starts')
    (begin : ∀ start ∈ starts, start ∈ source.lineStarts) {resume resume' : Nat}
    (resumes : ins.GoesOn resume resume') :
    Option.Rel (List.Forall₂ ins.Moved) (source.accessorsFrom resume starts)
      (shifted.accessorsFrom resume' starts') := by
  induction spread generalizing resume resume' with
  | nil => exact .some .nil
  | @inserted start starts starts' after before rest ih =>
      have passed : shifted.accessorsFrom resume' (start :: starts') =
          shifted.accessorsFrom resume' starts' := by
        rw [accessorsFrom, ins.accessor?_inserted after before]
        exact ite_self _
      rw [passed]
      exact ih begin resumes
  | moved start rest ih =>
      rw [List.forall_mem_cons] at begin
      rw [accessorsFrom, accessorsFrom, if_congr (resumes.lt_iff start) rfl rfl]
      split
      · exact ih begin.2 resumes
      · refine rel_bind (accessor?_rel admits begin.1) fun step step' same => ?_
        cases same with
        | none => exact ih begin.2 resumes
        | some here =>
            exact rel_bind (ih begin.2 here.2) fun others others' each => .some (.cons here.1 each)

theorem accessors?_rel {brace margin : Nat} (byte : source.masked[brace]? = some 123) :
    Option.Rel (List.Forall₂ ins.Moved) (source.accessors? brace (source.blockEnd brace margin))
      (shifted.accessors? (ins.move brace) (shifted.blockEnd (ins.move brace) margin)) := by
  have inFile : brace < source.size := (Array.getElem?_eq_some_iff.1 byte).1
  have after : brace < source.blockEnd brace margin := lt_blockEnd (Nat.le_refl brace) inFile
  have last := ins.move_sub_one (blockEnd_ne_place admits margin byte) (by omega)
  refine accessorsFrom_rel admits (ins.spread_lineStarts.filter fun start _ => ?_)
    (fun start member => Array.mem_toList_iff.1 (List.mem_filter.1 member).1) ins.goesOn_zero
  rw [ins.blockEnd_move, ← last, ins.lineOf_move, ins.lineOf_move,
    decide_eq_decide.2 ins.move_lt_move, decide_eq_decide.2 ins.shift_lt_shift]

omit admits in
/-- The parameters of a property stand between brackets of its segment. -/
theorem params_move (looked : source.segment? pos limit = some segment) {header : PropertyHeader}
    (read : propertyHeader? segment = some header) :
    (header.params.map fun range => String.ofList
        (charsOf shifted.text (ins.move pos + range.1) (ins.move pos + range.2))) =
      header.params.map fun range => String.ofList
        (charsOf source.text (pos + range.1) (pos + range.2)) := by
  cases params : header.params with
  | none => rfl
  | some range =>
      obtain ⟨before, inner, after, split, rfl⟩ := (propertyHeader?_parts read).1 range params
      have length : byteLength (before ++ '[' :: (inner ++ [']'])) ≤ byteLength segment := by
        rw [split]
        simp only [byteLength_append, byteLength_cons, byteLength_nil]
        omega
      have ordered : byteLength before ≤ byteLength (before ++ '[' :: (inner ++ [']'])) := by
        rw [byteLength_append]
        omega
      have apart := ins.apart_of_segment looked length
      simp only [Option.map_some]
      rw [← ins.move_segment_add looked length,
        ← ins.move_segment_add looked (Nat.le_trans ordered length), ins.charsOf_text_move (by omega)]

/-- A property with a block. -/
theorem propertyBlock_rel {kind : Option Nat → Kind}
    (kinds : ∀ line, Kind.Renumbered ins.first ins.lines (kind line)
      (kind (line.map (renumber ins.first ins.lines)))) {start margin brace : Nat}
    (byte : source.masked[brace]? = some 123) :
    Option.Rel (Option.Rel ins.TurnMoved)
      (do
        let stop := source.blockEnd brace margin
        return some (.found ⟨kind (some (source.lineOf brace + 1)), ← source.location? start stop, none⟩
          (← source.accessors? brace stop) stop))
      (do
        let stop := shifted.blockEnd (ins.move brace) margin
        return some (.found ⟨kind (some (shifted.lineOf (ins.move brace) + 1)),
          ← shifted.location? (ins.move start) stop, none⟩
          (← shifted.accessors? (ins.move brace) stop) stop)) := by
  obtain ⟨located, -⟩ := block_rel admits start margin byte
  dsimp only
  rw [ins.lineOf_move, ins.shift_succ]
  refine rel_bind located fun location location' places => ?_
  exact rel_bind (accessors?_rel admits byte) fun accessors accessors' each =>
    .some (.some (.found ⟨kinds (some _), places, rfl, fun _ => rfl⟩ each (.inl (ins.blockEnd_move _ _))))

theorem propertyTurn?_rel (looked : source.segment? pos limit = some segment) :
    Option.Rel (Option.Rel ins.TurnMoved) (source.propertyTurn? pos limit segment)
      (shifted.propertyTurn? (ins.move pos) (ins.move limit) segment) := by
  unfold propertyTurn?
  rw [ins.lineEnd_move, if_congr ins.move_lt_move rfl rfl]
  split
  · exact .some .none
  cases read : propertyHeader? segment with
  | none => exact .some .none
  | some header =>
      dsimp only
      split
      · exact .some .none
      rw [params_move looked read, ← ins.move_codeStart looked, ins.indent_move]
      cases ends : header.ending with
      | arrow =>
          rw [← ins.lineEnd_move]
          refine rel_bind (ins.toLineEnd_rel (Nat.le_add_right pos _)) fun location location' places => ?_
          exact .some (.some (.found ⟨.property _ _ _ none, places, rfl, fun _ => rfl⟩ .nil
            (ins.goesOn_nextLineStart pos)))
      | brace offset =>
          obtain ⟨byte, moved⟩ :=
            ins.byte_of_segment looked ((propertyHeader?_parts read).2 offset ends) (by decide)
          dsimp only [braceAfter?]
          rw [← moved]
          exact propertyBlock_rel admits (.property _ _ _) byte
      | line =>
          have opened := ins.braceAfter?_move pos none
          dsimp only [Option.map_none] at opened ⊢
          rw [opened]
          cases opening : source.braceAfter? pos none with
          | none => exact .some .none
          | some brace =>
              exact propertyBlock_rel admits (.property _ _ _)
                (byte_of_braceAfter? (by rintro _ ⟨⟩) opening)

theorem declarationTurn?_rel (looked : source.segment? pos limit = some segment) (inClass : Bool) :
    Option.Rel ins.TurnMoved (source.declarationTurn? pos limit inClass segment)
      (shifted.declarationTurn? (ins.move pos) (ins.move limit) inClass segment) := by
  have pass : Option.Rel ins.TurnMoved (some (.pass (source.nextLineStart pos)))
      (some (.pass (shifted.nextLineStart (ins.move pos)))) :=
    .some (.pass (ins.goesOn_nextLineStart pos))
  refine rel_bind (classTurn?_rel admits looked) fun turn turn' same => ?_
  cases same with
  | some same => exact .some same
  | none =>
      refine rel_bind (functionTurn?_rel admits looked) fun turn turn' same => ?_
      cases same with
      | some same => exact .some same
      | none =>
          cases inClass with
          | false => exact pass
          | true =>
              refine rel_bind (propertyTurn?_rel admits looked) fun turn turn' same => ?_
              cases same with
              | some same => exact .some same
              | none => exact pass

/-! ## Comments and directives -/

omit admits in
variable (ins) in
theorem not_endsComment_inserted (none : ¬ ['*', '/'] <:+: ins.inserted) {index : Nat}
    (after : ins.place ≤ index) (before : index < ins.place + ins.count) :
    ¬ shifted.EndsComment index := by
  intro ends
  have upper : index + 1 < ins.place + ins.count := by
    refine Nat.lt_of_le_of_ne before fun last => ?_
    rcases ins.reads'.mem_lineStarts.1 ins.next_mem with zero | ⟨place, newline, eq⟩
    · omega
    · obtain rfl : place = index := by omega
      rw [← ins.reads'.newline_iff, ends.1] at newline
      cases newline
  exact none (infix_of_endsComment ins.reads'.text_eq ends after upper)

theorem commentEnd_move {start : Nat} (begins : start ∈ source.lineStarts) (inFile : start < source.size)
    (opens : opensComment (source.rawLine start) = true) :
    (shifted.commentEnd? (ins.move (start + source.indent start))).getD shifted.size =
        ins.move ((source.commentEnd? (start + source.indent start)).getD source.size) ∧
      (source.commentEnd? (start + source.indent start)).getD source.size ≠ ins.place := by
  have notPlace {stop : Nat} (found : source.commentEnd? (start + source.indent start) = some stop) :
      stop ≠ ins.place := by
    obtain ⟨place, rfl, slash⟩ := commentEndFrom_spec found
    rw [List.getElem?_drop, Array.getElem?_toList] at slash
    intro same
    have newline := ins.text_before (show start + source.indent start + (place + 1) + 1 = ins.place by omega)
    rw [slash] at newline
    cases newline
  have settled (closed : ins.place = source.size →
      source.commentEnd? (start + source.indent start) ≠ none) :
      (source.commentEnd? (start + source.indent start)).getD source.size ≠ ins.place := by
    cases found : source.commentEnd? (start + source.indent start) with
    | some stop => exact notPlace found
    | none => exact fun same => closed same.symm found
  have moved (clear : start + source.indent start < ins.place → ∀ index, ins.place ≤ index →
      index < ins.place + ins.count → ¬ shifted.EndsComment index) :
      (shifted.commentEnd? (ins.move (start + source.indent start))).getD shifted.size =
        ins.move ((source.commentEnd? (start + source.indent start)).getD source.size) := by
    rw [ins.commentEnd?_move clear, ins.size_move]
    cases source.commentEnd? (start + source.indent start) <;> rfl
  rcases Nat.lt_or_ge start ins.place with before | after
  · rcases admits.comments start begins before opens with ⟨stop, le, found⟩ | ⟨none, closed⟩
    · have other := notPlace found
      have stays := ins.commentEnd?_stays found le
      have code := (ins.reads.between_indent start).2
      rw [ins.reads.lineStart_of_mem begins] at code
      have early := ins.lineEnd_lt before
      rw [ins.move_of_lt (by omega), found, stays, Option.getD_some, Option.getD_some,
        ins.move_of_lt (by omega)]
      exact ⟨rfl, other⟩
    · exact ⟨moved fun _ _ => ins.not_endsComment_inserted none, settled closed⟩
  · exact ⟨moved fun early => by omega, settled fun same => by omega⟩

theorem commentTurn?_rel (begins : pos ∈ source.lineStarts) (inFile : pos < source.size)
    (opens : opensComment (source.rawLine pos) = true) :
    Option.Rel ins.TurnMoved (source.commentTurn? pos) (shifted.commentTurn? (ins.move pos)) := by
  obtain ⟨stop_eq, stop_ne⟩ := commentEnd_move admits begins inFile opens
  have inside := commentEnd_le_size ins.reads (pos + source.indent pos)
  rw [commentTurn?_eq, commentTurn?_eq]
  dsimp only
  rw [ins.indent_move, ← ins.move_add_indent begins, stop_eq]
  generalize (source.commentEnd? (pos + source.indent pos)).getD source.size = stop at *
  have last : max (ins.move stop - 1) (ins.move (pos + source.indent pos)) =
      ins.move (max (stop - 1) (pos + source.indent pos)) := by
    unfold move
    split <;> split <;> split <;> omega
  rw [last]
  exact rel_bind (ins.location?_rel inside fun same => absurd same stop_ne)
    fun location location' places =>
      .some (.found ⟨.skip, places, rfl, fun _ => rfl⟩ .nil (ins.goesOn_nextLineStart _))

omit admits

variable (ins) in
theorem directiveTurn?_rel (begins : pos ∈ source.lineStarts) :
    Option.Rel ins.TurnMoved (source.directiveTurn? pos) (shifted.directiveTurn? (ins.move pos)) :=
  rel_bind (ins.lineLocation?_rel begins) fun _ _ places =>
    .some (.found ⟨.skip, places, rfl, fun _ => rfl⟩ .nil (ins.goesOn_nextLineStart pos))

variable (ins) in
theorem inclusionTurn?_rel {header : Inclusion} (begins : pos ∈ source.lineStarts)
    (read : inclusion? (source.maskedLine pos) = some header) :
    Option.Rel ins.TurnMoved (source.inclusionTurn? pos header)
      (shifted.inclusionTurn? (ins.move pos) header) := by
  obtain ⟨front, back, -, first, last⟩ := ins.reads.exists_maskedLine pos
  obtain ⟨before, split, offset, -⟩ := inclusion?_argument read
  obtain ⟨blanks, whole, -⟩ := exists_trimEnd header.argument
  have short := congrArg byteLength whole
  have length := congrArg byteLength split
  have begun := ins.reads.lineStart_of_mem begins
  rw [byteLength_append] at short length
  have start := ins.move_lineStart_add
    (show source.lineStart pos + header.offset ≤ source.lineEnd pos by omega)
  have stop := ins.move_lineStart_add (show source.lineStart pos +
    (header.offset + byteLength (trimEnd header.argument)) ≤ source.lineEnd pos by omega)
  rw [begun, ← Nat.add_assoc, ← Nat.add_assoc] at stop
  rw [begun] at start
  have apart : pos + header.offset + byteLength (trimEnd header.argument) < ins.place ∨
      ins.place ≤ pos + header.offset := by
    rcases Nat.lt_or_ge pos ins.place with early | late
    · have := ins.lineEnd_lt early
      exact .inl (by omega)
    · exact .inr (by omega)
  rw [inclusionTurn?, inclusionTurn?]
  dsimp only
  rw [← stop, ← start, ins.cut?_text_move apart]
  cases cut? source.text (pos + header.offset)
      (pos + header.offset + byteLength (trimEnd header.argument)) with
  | none => exact .none
  | some argument =>
      simp only [Option.bind_eq_bind, Option.bind_some]
      exact rel_bind (ins.lineLocation?_rel begins) fun location location' places =>
        .some (.found ⟨.inclusion _ _ _, places, rfl, fun _ => rfl⟩ .nil (ins.goesOn_nextLineStart pos))

include admits

/-- What a turn of a scan finds, it finds where its place has moved. -/
theorem turnAt?_rel (inFile : pos < source.size) (inClass : Bool) :
    Option.Rel ins.TurnMoved (source.turnAt? pos limit inClass)
      (shifted.turnAt? (ins.move pos) (ins.move limit) inClass) := by
  have startsLine : (ins.move pos == shifted.lineStart (ins.move pos)) =
      (pos == source.lineStart pos) := by
    rw [ins.lineStart_move, Bool.eq_iff_iff, beq_iff_eq, beq_iff_eq, ins.move_inj]
  have member (starts : pos = source.lineStart pos) : pos ∈ source.lineStarts :=
    starts ▸ ins.reads.lineStart_mem pos
  rw [turnAt?, turnAt?, ins.segment?_move]
  cases looked : source.segment? pos limit with
  | none => exact .none
  | some segment =>
      simp only [Option.bind_eq_bind, Option.bind_some]
      rw [startsLine, ins.rawLine_move, ins.maskedLine_move]
      split
      next comment =>
        rw [Bool.and_eq_true, beq_iff_eq] at comment
        exact commentTurn?_rel admits (member comment.1) inFile comment.2
      next =>
        split
        · exact .some (.pass (ins.goesOn_nextLineStart pos))
        split
        next starts =>
          rw [beq_iff_eq] at starts
          cases read : inclusion? (source.maskedLine pos) with
          | some header => exact ins.inclusionTurn?_rel (member starts) read
          | none =>
              dsimp only
              split
              · exact ins.directiveTurn?_rel (member starts)
              · exact declarationTurn?_rel admits looked inClass
        next => exact declarationTurn?_rel admits looked inClass

theorem exists_turnAt?_move {inClass : Bool} {turn : Turn} (inFile : pos < source.size)
    (found : source.turnAt? pos limit inClass = some turn) :
    ∃ turn', shifted.turnAt? (ins.move pos) (ins.move limit) inClass = some turn' ∧
      ins.TurnMoved turn turn' := by
  have turns : Option.Rel ins.TurnMoved (source.turnAt? pos limit inClass)
      (shifted.turnAt? (ins.move pos) (ins.move limit) inClass) := turnAt?_rel admits inFile inClass
  rw [found] at turns
  generalize shifted.turnAt? (ins.move pos) (ins.move limit) inClass = there at turns ⊢
  cases turns with
  | some moved => exact ⟨_, rfl, moved⟩

end Turns

end Insertion
end Source
end DebugBridge
