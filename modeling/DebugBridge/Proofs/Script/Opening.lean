import DebugBridge.Proofs.Script.Extent
import DebugBridge.Script.Scan

/-!
# What opens at a place

A turn of a scan that finds something finds a construct of one of five shapes: a comment, a line of
its own, an expression after a double arrow, a block, or the block of a property with accessors.
Each shape says where the construct stands, where its inside lies and where the scan goes on.
-/

namespace DebugBridge

/-- The line of the opening brace, if there is one. -/
def Kind.braceLine? : Kind → Option Nat
  | .skip | .inclusion _ _ _ => none
  | .classDef _ _ braceLine => some braceLine
  | .function _ _ _ braceLine | .property _ _ _ braceLine => braceLine

namespace Source

open Text Header

/-- How a header that starts at an offset comes to its brace: before the place where the scan stops,
or on a line after one that ends before that place. -/
def Reaches (source : Source) (pos limit brace : Nat) : Prop :=
  brace < limit ∨ ∃ index, pos ≤ index ∧ index < limit ∧ source.lineEnd index ≤ limit ∧
    source.braceAfter? index none = some brace

/-- An accessor of a property that starts with a line, and where the accessors go on. -/
inductive AccessorAt (source : Source) (start : Nat) : Opener → Nat → Prop
  | arrow {kind : Kind} {location : Location} (flat : kind.braceLine? = none)
      (located : source.location? (start + source.indent start) (source.lineEnd start) =
        some location) :
      AccessorAt source start ⟨kind, location, none⟩ (source.nextLineStart start)
  | block {kind : Kind} {location : Location} {brace : Nat}
      (lined : kind.braceLine? = some (source.lineOf brace + 1))
      (byte : source.masked[brace]? = some 123) (first : start + source.indent start ≤ brace)
      (reached : brace < source.lineEnd start ∨ source.braceAfter? start none = some brace)
      (located : source.location? (start + source.indent start)
        (source.blockEnd brace (source.indent start)) = some location) :
      AccessorAt source start
        ⟨kind, location, some (brace + 1, source.blockEnd brace (source.indent start) - 1)⟩
        (source.nextLineStart (source.blockEnd brace (source.indent start) - 1))

/-- A construct that opens at a place of a scan, its accessors, and where the scan goes on. -/
inductive Opens (source : Source) (pos limit : Nat) (segment : List Char) :
    Opener → List Opener → Nat → Prop
  | comment {location : Location} {stop : Nat} (begins : source.lineStart pos = pos)
      (ends : stop = (commentEndFrom (pos + source.indent pos)
        (source.text.extract (pos + source.indent pos) source.text.size).toList).getD source.size)
      (located : source.location? (pos + source.indent pos) stop = some location) :
      Opens source pos limit segment ⟨.skip, location, none⟩ []
        (source.nextLineStart (max (stop - 1) (pos + source.indent pos)))
  | line {kind : Kind} {location : Location} (begins : source.lineStart pos = pos)
      (code : allBlank segment = false) (flat : kind.braceLine? = none)
      (located : source.lineLocation? pos = some location) :
      Opens source pos limit segment ⟨kind, location, none⟩ [] (source.nextLineStart pos)
  | arrow {kind : Kind} {location : Location} {stop index : Nat} (flat : kind.braceLine? = none)
      (first : codeStart pos segment ≤ stop) (last : stop ≤ limit)
      (further : stop ≤ source.nextLineStart index)
      (located : source.location? (codeStart pos segment) stop = some location) :
      Opens source pos limit segment ⟨kind, location, none⟩ [] (source.nextLineStart index)
  | block {kind : Kind} {location : Location} {brace : Nat}
      (lined : kind.braceLine? = some (source.lineOf brace + 1))
      (byte : source.masked[brace]? = some 123) (first : codeStart pos segment ≤ brace)
      (reached : source.Reaches pos limit brace)
      (located : source.location? (codeStart pos segment)
        (source.blockEnd brace (source.indent pos)) = some location) :
      Opens source pos limit segment
        ⟨kind, location, some (brace + 1, source.blockEnd brace (source.indent pos) - 1)⟩ []
        (source.blockEnd brace (source.indent pos))
  | property {kind : Kind} {location : Location} {brace : Nat} {accessors : List Opener}
      (lined : kind.braceLine? = some (source.lineOf brace + 1))
      (byte : source.masked[brace]? = some 123) (first : codeStart pos segment ≤ brace)
      (reached : source.Reaches pos limit brace)
      (located : source.location? (codeStart pos segment)
        (source.blockEnd brace (source.indent pos)) = some location)
      (accessed : source.accessors? brace (source.blockEnd brace (source.indent pos)) =
        some accessors) :
      Opens source pos limit segment ⟨kind, location, none⟩ accessors
        (source.blockEnd brace (source.indent pos))

/-! ## What a turn finds -/

/-- A class that a turn finds. -/
inductive ClassAt (source : Source) (pos : Nat) (segment : List Char) : Turn → Prop
  | block {header : ClassHeader} {location : Location} {brace : Nat}
      (read : classHeader? segment = some header)
      (whole : header.brace = none → source.lineEnd pos ≤ pos + byteLength segment)
      (opening : source.braceAfter? pos (header.brace.map (pos + ·)) = some brace)
      (located : source.location? (codeStart pos segment)
        (source.blockEnd brace (source.indent pos)) = some location) :
      ClassAt source pos segment
        (.found ⟨.classDef (String.ofList header.name) (header.base.map String.ofList)
            (source.lineOf brace + 1), location,
          some (brace + 1, source.blockEnd brace (source.indent pos) - 1)⟩ []
          (source.blockEnd brace (source.indent pos)))

/-- A function that a turn finds. -/
inductive FunctionAt (source : Source) (pos limit : Nat) (segment : List Char) : Turn → Prop
  | arrow {header : FunctionHeader} {params : String} {location : Location} {paren : Nat}
      (read : functionHeader? segment = some header)
      (closing : closingParen? 0 (pos + header.paren)
        (source.masked.extract (pos + header.paren) limit).toList = some paren)
      (located : source.location? (codeStart pos segment) (min (source.lineEnd paren) limit) =
        some location) :
      FunctionAt source pos limit segment
        (.found ⟨.function (String.ofList header.name) header.isStatic params none, location, none⟩ []
          (source.nextLineStart (max (min (source.lineEnd paren) limit - 1) paren)))
  | block {header : FunctionHeader} {params : String} {location : Location} {paren brace : Nat}
      {sameLine : Option Nat} (read : functionHeader? segment = some header)
      (boundary : isBoundary source.masked limit = true)
      (closing : closingParen? 0 (pos + header.paren)
        (source.masked.extract (pos + header.paren) limit).toList = some paren)
      (body : source.functionBody? paren (min (source.lineEnd paren) limit) = some (.block sameLine))
      (opening : source.braceAfter? paren sameLine = some brace)
      (located : source.location? (codeStart pos segment)
        (source.blockEnd brace (source.indent pos)) = some location) :
      FunctionAt source pos limit segment
        (.found ⟨.function (String.ofList header.name) header.isStatic params
            (some (source.lineOf brace + 1)), location,
          some (brace + 1, source.blockEnd brace (source.indent pos) - 1)⟩ []
          (source.blockEnd brace (source.indent pos)))

/-- A property that a turn finds. -/
inductive PropertyAt (source : Source) (pos limit : Nat) (segment : List Char) : Turn → Prop
  | arrow {header : PropertyHeader} {params : Option String} {location : Location}
      (whole : source.lineEnd pos ≤ limit) (read : propertyHeader? segment = some header)
      (located : source.location? (codeStart pos segment) (source.lineEnd pos) = some location) :
      PropertyAt source pos limit segment
        (.found ⟨.property (String.ofList header.name) header.isStatic params none, location, none⟩ []
          (source.nextLineStart pos))
  | block {header : PropertyHeader} {params : Option String} {location : Location} {brace : Nat}
      {sameLine : Option Nat} {accessors : List Opener} (whole : source.lineEnd pos ≤ limit)
      (read : propertyHeader? segment = some header)
      (same : ∀ offset, sameLine = some offset →
        ∃ inner, header.ending = .brace inner ∧ offset = pos + inner)
      (opening : source.braceAfter? pos sameLine = some brace)
      (located : source.location? (codeStart pos segment)
        (source.blockEnd brace (source.indent pos)) = some location)
      (accessed : source.accessors? brace (source.blockEnd brace (source.indent pos)) =
        some accessors) :
      PropertyAt source pos limit segment
        (.found ⟨.property (String.ofList header.name) header.isStatic params
            (some (source.lineOf brace + 1)), location, none⟩ accessors
          (source.blockEnd brace (source.indent pos)))

/-- What a turn finds, in the order in which it looks for it. -/
inductive TurnsTo (source : Source) (pos limit : Nat) (inClass : Bool) (segment : List Char) :
    Turn → Prop
  | comment {location : Location} {stop : Nat} (begins : source.lineStart pos = pos)
      (ends : stop = (commentEndFrom (pos + source.indent pos)
        (source.text.extract (pos + source.indent pos) source.text.size).toList).getD source.size)
      (located : source.location? (pos + source.indent pos) stop = some location) :
      TurnsTo source pos limit inClass segment (.found ⟨.skip, location, none⟩ []
        (source.nextLineStart (max (stop - 1) (pos + source.indent pos))))
  | inclusion {directive : Directive} {again : Bool} {location : Location}
      (begins : source.lineStart pos = pos) (code : allBlank segment = false)
      (located : source.lineLocation? pos = some location) :
      TurnsTo source pos limit inClass segment
        (.found ⟨.inclusion directive again none, location, none⟩ [] (source.nextLineStart pos))
  | directive {location : Location} (begins : source.lineStart pos = pos)
      (code : allBlank segment = false) (located : source.lineLocation? pos = some location) :
      TurnsTo source pos limit inClass segment
        (.found ⟨.skip, location, none⟩ [] (source.nextLineStart pos))
  | classDef {turn : Turn} (found : source.ClassAt pos segment turn) :
      TurnsTo source pos limit inClass segment turn
  | function {turn : Turn} (found : source.FunctionAt pos limit segment turn) :
      TurnsTo source pos limit inClass segment turn
  | property {turn : Turn} (code : allBlank segment = false)
      (found : source.PropertyAt pos limit segment turn) :
      TurnsTo source pos limit inClass segment turn
  | pass : TurnsTo source pos limit inClass segment (.pass (source.nextLineStart pos))

section Found

variable {source : Source} {pos limit : Nat} {inClass : Bool} {segment : List Char} {turn : Turn}

theorem exists_of_blockTurn? {kind : Nat → Kind} {start brace : Nat}
    (found : source.blockTurn? kind start pos brace = some turn) :
    ∃ location, source.location? start (source.blockEnd brace (source.indent pos)) = some location ∧
      turn = .found ⟨kind (source.lineOf brace + 1), location,
        some (brace + 1, source.blockEnd brace (source.indent pos) - 1)⟩ []
        (source.blockEnd brace (source.indent pos)) := by
  simp only [blockTurn?, Option.pure_def, Option.bind_eq_bind, Option.bind_eq_some_iff,
    Option.some.injEq] at found
  obtain ⟨location, located, rfl⟩ := found
  exact ⟨location, located, rfl⟩

theorem classAt_of_classTurn? (found : source.classTurn? pos segment = some (some turn)) :
    source.ClassAt pos segment turn := by
  unfold classTurn? at found
  split at found
  · cases found
  next header read =>
    split at found
    · cases found
    next whole =>
      split at found
      · cases found
      next brace opening =>
        obtain ⟨turn', found, same⟩ := Option.map_eq_some_iff.1 found
        cases same
        obtain ⟨location, located, rfl⟩ := exists_of_blockTurn? found
        refine .block read (fun none_ => ?_) opening located
        simpa [none_] using whole

theorem functionAt_of_functionTurn?
    (found : source.functionTurn? pos limit segment = some (some turn)) :
    source.FunctionAt pos limit segment turn := by
  unfold functionTurn? at found
  split at found
  · cases found
  next header read =>
    split at found
    · cases found
    split at found
    · cases found
    next boundary =>
      rw [Bool.not_eq_true', Bool.not_eq_false] at boundary
      dsimp only at found
      split at found
      · cases found
      next paren closing =>
        split at found
        · cases found
        · simp only [Option.pure_def, Option.bind_eq_bind, Option.bind_eq_some_iff,
            Option.some.injEq] at found
          obtain ⟨location, located, rfl⟩ := found
          exact .arrow read closing located
        next sameLine body =>
          split at found
          · cases found
          next brace opening =>
            obtain ⟨turn', found, same⟩ := Option.map_eq_some_iff.1 found
            cases same
            obtain ⟨location, located, rfl⟩ := exists_of_blockTurn? found
            exact .block read boundary closing body opening located

theorem propertyAt_of_propertyTurn?
    (found : source.propertyTurn? pos limit segment = some (some turn)) :
    source.PropertyAt pos limit segment turn := by
  unfold propertyTurn? at found
  split at found
  · cases found
  next whole =>
    rw [Nat.not_lt] at whole
    split at found
    · cases found
    next header read =>
      split at found
      · cases found
      dsimp only at found
      split at found
      · simp only [Option.pure_def, Option.bind_eq_bind, Option.bind_eq_some_iff,
          Option.some.injEq] at found
        obtain ⟨location, located, rfl⟩ := found
        exact .arrow whole read located
      · split at found
        · cases found
        next brace opening =>
          simp only [Option.pure_def, Option.bind_eq_bind, Option.bind_eq_some_iff,
            Option.some.injEq] at found
          obtain ⟨location, located, accessors, accessed, rfl⟩ := found
          refine .block whole read (fun offset same => ?_) opening located accessed
          split at same
          next inner ends =>
            cases same
            exact ⟨inner, ends, rfl⟩
          next => cases same

theorem turnsTo_of_declarationTurn? (code : allBlank segment = false)
    (found : source.declarationTurn? pos limit inClass segment = some turn) :
    source.TurnsTo pos limit inClass segment turn := by
  simp only [declarationTurn?, Option.pure_def, Option.bind_eq_bind,
    Option.bind_eq_some_iff] at found
  obtain ⟨classTurn, inClassTurn, found⟩ := found
  split at found
  · cases found
    exact .classDef (classAt_of_classTurn? inClassTurn)
  simp only [Option.bind_eq_some_iff] at found
  obtain ⟨functionTurn, inFunctionTurn, found⟩ := found
  split at found
  · cases found
    exact .function (functionAt_of_functionTurn? inFunctionTurn)
  split at found
  · simp only [Option.bind_eq_some_iff] at found
    obtain ⟨propertyTurn, inPropertyTurn, found⟩ := found
    split at found
    · cases found
      exact .property code (propertyAt_of_propertyTurn? inPropertyTurn)
    · cases found
      exact .pass
  · cases found
    exact .pass

/-- A turn finds something in a segment, or passes on. -/
theorem exists_turnsTo (found : source.turnAt? pos limit inClass = some turn) :
    ∃ segment, source.segment? pos limit = some segment ∧
      source.TurnsTo pos limit inClass segment turn := by
  simp only [turnAt?, Option.pure_def, Option.bind_eq_bind, Option.bind_eq_some_iff] at found
  obtain ⟨segment, looked, found⟩ := found
  refine ⟨segment, looked, ?_⟩
  split at found
  next comment =>
    rw [Bool.and_eq_true, beq_iff_eq] at comment
    simp only [commentTurn?, Option.pure_def, Option.bind_eq_bind, Option.bind_eq_some_iff,
      Option.some.injEq] at found
    obtain ⟨location, located, rfl⟩ := found
    exact .comment comment.1.symm rfl located
  split at found
  · cases found
    exact .pass
  next code =>
  rw [Bool.not_eq_true] at code
  split at found
  next begins =>
    rw [beq_iff_eq] at begins
    split at found
    · simp only [inclusionTurn?, Option.pure_def, Option.bind_eq_bind, Option.bind_eq_some_iff,
        Option.some.injEq] at found
      obtain ⟨argument, _, location, located, rfl⟩ := found
      exact .inclusion begins.symm code located
    split at found
    · simp only [directiveTurn?, Option.pure_def, Option.bind_eq_bind, Option.bind_eq_some_iff,
        Option.some.injEq] at found
      obtain ⟨location, located, rfl⟩ := found
      exact .directive begins.symm code located
    · exact turnsTo_of_declarationTurn? code found
  next => exact turnsTo_of_declarationTurn? code found

end Found

/-! ## What opens -/

section Turns

variable {source : Source} {text masked : List Char} {pos limit : Nat} {segment : List Char}
  (reads : source.Reads text masked)

include reads

/-- A header finds its brace on its last line or on a later one. -/
theorem reaches_of_braceAfter? {index brace first : Nat} {sameLine : Option Nat}
    (found : source.braceAfter? index sameLine = some brace)
    (same : ∀ offset, sameLine = some offset →
      source.masked[offset]? = some 123 ∧ first ≤ offset ∧ offset < limit)
    (other : sameLine = none → pos ≤ index ∧ index < limit ∧ source.lineEnd index ≤ limit ∧
      first ≤ max (source.lineEnd index) index) :
    source.masked[brace]? = some 123 ∧ first ≤ brace ∧ source.Reaches pos limit brace := by
  cases sameLine with
  | some offset =>
      cases found
      obtain ⟨byte, le, lt⟩ := same brace rfl
      exact ⟨byte, le, .inl lt⟩
  | none =>
      obtain ⟨after, before, ends, le⟩ := other rfl
      obtain ⟨start, line, eq, byte⟩ := braceAfter?_none found
      obtain ⟨member, later, -⟩ := codeLineAfter?_spec reads line
      have further := reads.lineEnd_lt member later
      exact ⟨byte, by omega, .inr ⟨index, after, before, ends, found⟩⟩

theorem ClassAt.opens {turn : Turn} (before : pos < limit)
    (looked : source.segment? pos limit = some segment) (found : source.ClassAt pos segment turn) :
    ∃ opener accessors next, turn = .found opener accessors next ∧
      source.Opens pos limit segment opener accessors next := by
  obtain ⟨front, back, hidden, start, stop⟩ := exists_segment reads looked
  have inside := Reads.codeStart_le_add pos segment
  cases found with
  | @block header location brace read whole opening located =>
      have reached : source.masked[brace]? = some 123 ∧ codeStart pos segment ≤ brace ∧
          source.Reaches pos limit brace := by
        refine reaches_of_braceAfter? reads opening ?_ ?_
        · intro offset same
          obtain ⟨inner, opened, rfl⟩ := Option.map_eq_some_iff.1 same
          have stands := classHeader?_brace read opened
          obtain ⟨byte, short⟩ := getElem?_of_standsAt reads hidden stands (by decide)
          rw [start] at byte
          exact ⟨byte, codeStart_le stands (by decide) pos, by omega⟩
        · intro none_
          have whole := whole (Option.map_eq_none_iff.1 none_)
          exact ⟨Nat.le_refl _, before, by omega, by omega⟩
      obtain ⟨byte, first, reached⟩ := reached
      exact ⟨_, _, _, rfl, .block rfl byte first reached located⟩

/-- A header ends between characters, with its line or where the scan stops. -/
theorem isBoundary_headerEnd (paren : Nat) (boundary : isBoundary source.masked limit = true) :
    isBoundary source.masked (min (source.lineEnd paren) limit) = true := by
  rcases Nat.le_total (source.lineEnd paren) limit with le | le
  · rw [Nat.min_eq_left le]
    exact (reads.between_lineEnd paren).masked
  · rwa [Nat.min_eq_right le]

/-- A brace after a parameter list stands in the rest of the line. -/
theorem functionBody?_brace {paren headerEnd offset : Nat} (byte : source.masked[paren]? = some 41)
    (after : paren < headerEnd) (boundary : isBoundary source.masked headerEnd = true)
    (found : source.functionBody? paren headerEnd = some (.block (some offset))) :
    source.masked[offset]? = some 123 ∧ paren < offset ∧ offset < headerEnd := by
  have next := (reads.between_of_byte byte (by decide) (by decide)).2.masked
  obtain ⟨front, rest, back, hidden, start, stop, chars⟩ :=
    reads.exists_part_masked after next boundary
  unfold functionBody? at found
  rw [chars] at found
  dsimp only at found
  split at found
  · cases found
  next more brace =>
    cases found
    have stands : StandsAt rest (offsetOf rest ('{' :: more)) '{' :=
      standsAt_offsetOf (brace ▸ skipIndent_suffix rest)
    obtain ⟨byte, short⟩ := getElem?_of_standsAt reads hidden stands (by decide)
    rw [start] at byte
    exact ⟨byte, by omega, by omega⟩
  · split at found <;> cases found

omit reads in
/-- Without a brace the rest of the line is the end of it. -/
theorem functionBody?_none {paren headerEnd : Nat}
    (found : source.functionBody? paren headerEnd = some (.block none)) :
    headerEnd = source.lineEnd paren := by
  unfold functionBody? at found
  dsimp only at found
  split at found
  · cases found
  · cases found
  · split at found
    next whole =>
      rw [Bool.and_eq_true, beq_iff_eq] at whole
      exact whole.2
    next => cases found

theorem FunctionAt.opens {turn : Turn} (found : source.FunctionAt pos limit segment turn) :
    ∃ opener accessors next, turn = .found opener accessors next ∧
      source.Opens pos limit segment opener accessors next := by
  cases found with
  | @arrow header params location paren read closing located =>
      have first := codeStart_le (functionHeader?_paren read) (by decide) pos
      obtain ⟨after, inside, byte⟩ := closingParen?_masked closing
      have lineEnd := reads.lt_lineEnd byte (by decide) (by decide)
      have size := reads.lineEnd_le_size paren
      have next := lt_nextLineStart (Nat.le_refl (max (min (source.lineEnd paren) limit - 1) paren))
        (show max (min (source.lineEnd paren) limit - 1) paren < source.size by omega)
      exact ⟨_, _, _, rfl, .arrow rfl (by omega) (by omega) (by omega) located⟩
  | @block header params location paren brace sameLine read boundary closing body opening located =>
      have first := codeStart_le (functionHeader?_paren read) (by decide) pos
      obtain ⟨after, inside, byte⟩ := closingParen?_masked closing
      have lineEnd := reads.lt_lineEnd byte (by decide) (by decide)
      have reached : source.masked[brace]? = some 123 ∧ codeStart pos segment ≤ brace ∧
          source.Reaches pos limit brace := by
        refine reaches_of_braceAfter? reads opening ?_ ?_
        · rintro offset rfl
          obtain ⟨byte, after, inside⟩ := functionBody?_brace reads byte (by omega)
            (isBoundary_headerEnd reads paren boundary) body
          exact ⟨byte, by omega, by omega⟩
        · rintro rfl
          have whole := functionBody?_none body
          exact ⟨by omega, inside, by omega, by omega⟩
      obtain ⟨byte, first, reached⟩ := reached
      exact ⟨_, _, _, rfl, .block rfl byte first reached located⟩

theorem accessorAt_of_accessor? {start resume : Nat} {accessor : Opener}
    (begins : start ∈ source.lineStarts)
    (found : source.accessor? start = some (some (accessor, resume))) :
    source.AccessorAt start accessor resume := by
  obtain ⟨front, back, hidden, place, stop⟩ := reads.exists_maskedLine start
  rw [reads.lineStart_of_mem begins] at place
  have code := (reads.between_indent start).2
  rw [reads.lineStart_of_mem begins] at code
  unfold accessor? at found
  split at found
  · cases found
  next name ending read =>
    dsimp only at found
    split at found
    · simp only [Option.pure_def, Option.bind_eq_bind, Option.bind_eq_some_iff, Option.some.injEq,
        Prod.mk.injEq] at found
      obtain ⟨location, located, rfl, rfl⟩ := found
      exact .arrow rfl located
    · split at found
      · cases found
      next brace opening =>
        simp only [Option.pure_def, Option.bind_eq_bind, Option.bind_eq_some_iff,
          Option.some.injEq, Prod.mk.injEq] at found
        obtain ⟨location, located, rfl, rfl⟩ := found
        cases ending with
        | brace offset =>
            cases opening
            have stands := accessorHeader?_brace read
            obtain ⟨byte, short⟩ := getElem?_of_standsAt reads hidden stands (by decide)
            rw [place] at byte
            have first := codeStart_le stands (by decide) start
            exact .block rfl byte first (.inl (by omega)) located
        | line | arrow =>
            obtain ⟨line, found, eq, byte⟩ := braceAfter?_none opening
            obtain ⟨member, later, -⟩ := codeLineAfter?_spec reads found
            have further := reads.lineEnd_lt member later
            exact .block rfl byte (by omega) (.inr opening) located

theorem PropertyAt.opens {turn : Turn} (before : pos < limit)
    (looked : source.segment? pos limit = some segment) (code : allBlank segment = false)
    (found : source.PropertyAt pos limit segment turn) :
    ∃ opener accessors next, turn = .found opener accessors next ∧
      source.Opens pos limit segment opener accessors next := by
  obtain ⟨front, back, hidden, start, stop⟩ := exists_segment reads looked
  have inside := Reads.codeStart_le_add pos segment
  cases found with
  | arrow whole read located =>
      have nonempty : 0 < byteLength segment := by
        cases segment with
        | nil => cases code
        | cons c segment =>
            have := c.utf8Size_pos
            rw [byteLength_cons]
            omega
      have next := reads.lineEnd_le_nextLineStart pos
      exact ⟨_, _, _, rfl, .arrow rfl (by omega) (by omega) next located⟩
  | @block header params location brace sameLine accessors whole read same opening located accessed =>
      have reached : source.masked[brace]? = some 123 ∧ codeStart pos segment ≤ brace ∧
          source.Reaches pos limit brace := by
        refine reaches_of_braceAfter? reads opening ?_ ?_
        · intro offset here
          obtain ⟨inner, ends, rfl⟩ := same offset here
          have stands := (propertyHeader?_parts read).2 inner ends
          obtain ⟨byte, short⟩ := getElem?_of_standsAt reads hidden stands (by decide)
          rw [start] at byte
          exact ⟨byte, codeStart_le stands (by decide) pos, by omega⟩
        · intro _
          exact ⟨Nat.le_refl _, before, by omega, by omega⟩
      obtain ⟨byte, first, reached⟩ := reached
      exact ⟨_, _, _, rfl, .property rfl byte first reached located accessed⟩

/-- What a turn of a scan finds. -/
theorem opens_of_turnAt? {inClass : Bool} {turn : Turn} (before : pos < limit)
    (found : source.turnAt? pos limit inClass = some turn) :
    turn = .pass (source.nextLineStart pos) ∨
      ∃ segment opener accessors next, source.segment? pos limit = some segment ∧
        turn = .found opener accessors next ∧
        source.Opens pos limit segment opener accessors next := by
  obtain ⟨segment, looked, turns⟩ := exists_turnsTo found
  cases turns with
  | comment begins ends located =>
      exact .inr ⟨segment, _, _, _, looked, rfl, .comment begins ends located⟩
  | inclusion begins code located | directive begins code located =>
      exact .inr ⟨segment, _, _, _, looked, rfl, .line begins code rfl located⟩
  | classDef found =>
      obtain ⟨opener, accessors, next, opens⟩ := found.opens reads before looked
      exact .inr ⟨segment, opener, accessors, next, looked, opens⟩
  | function found =>
      obtain ⟨opener, accessors, next, opens⟩ := found.opens reads
      exact .inr ⟨segment, opener, accessors, next, looked, opens⟩
  | property code found =>
      obtain ⟨opener, accessors, next, opens⟩ := found.opens reads before looked code
      exact .inr ⟨segment, opener, accessors, next, looked, opens⟩
  | pass => exact .inl rfl

/-- A construct that a turn finds opens there. -/
theorem opens_of_found {inClass : Bool} {opener : Opener} {accessors : List Opener} {next : Nat}
    (before : pos < limit)
    (found : source.turnAt? pos limit inClass = some (.found opener accessors next)) :
    ∃ segment, source.segment? pos limit = some segment ∧
      source.Opens pos limit segment opener accessors next := by
  rcases opens_of_turnAt? reads before found with pass | ⟨segment, _, _, _, looked, same, opens⟩
  · cases pass
  · cases same
    exact ⟨segment, looked, opens⟩

end Turns

end Source
end DebugBridge
