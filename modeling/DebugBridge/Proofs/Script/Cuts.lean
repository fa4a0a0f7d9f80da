import DebugBridge.Proofs.Script.Tree
import DebugBridge.Proofs.Text.Trim

/-!
# Cuts between characters

Every offset at which the scanner cuts the text or the masked text lies between two characters, so no
cut fails.  The places of a scan are ends of lines, places next to ASCII characters and the ends of
blocks.  Only the last kind can fail: the inside of a block that is never closed stops one byte before
the end of the file, which is inside the last character unless that is an ASCII character.
-/

namespace DebugBridge

/-- The constructs that a turn finds. -/
def Turn.openers : Turn → List Opener
  | .pass _ => []
  | .found opener accessors _ => opener :: accessors

namespace Source

open Text Header

/-- A range of a byte string whose ends lie between characters. -/
structure Whole (bytes : Array UInt8) (start stop : Nat) : Prop where
  ordered : start ≤ stop
  inside : stop ≤ bytes.size
  first : isBoundary bytes start = true
  last : isBoundary bytes stop = true

/-- A file whose blocks all end between characters, less their last byte: it ends with an ASCII
character, or every opening brace is closed before the end. -/
def Closable (source : Source) (text : List Char) : Prop :=
  (∀ c ∈ text.getLast?, c.toNat < 0x80) ∨
    ∀ brace margin, source.masked[brace]? = some 123 → source.blockEnd brace margin < source.size

/-- The places of the scan of a file, each with where its scan stops. -/
inductive Visits (source : Source) : Nat → Nat → Bool → Prop
  | file : Visits source 0 source.size false
  | next {pos limit : Nat} {inClass : Bool} {turn : Turn} (here : Visits source pos limit inClass)
      (before : pos < limit) (found : source.turnAt? pos limit inClass = some turn) :
      Visits source turn.next limit inClass
  | inside {pos limit next : Nat} {inClass : Bool} {opener : Opener} {accessors : List Opener}
      {range : Nat × Nat} (here : Visits source pos limit inClass) (before : pos < limit)
      (found : source.turnAt? pos limit inClass = some (.found opener accessors next))
      (enters : opener.inside = some range) :
      Visits source range.1 range.2 opener.kind.isClass
  | accessor {pos limit next : Nat} {inClass : Bool} {opener accessor : Opener}
      {accessors : List Opener} {range : Nat × Nat} (here : Visits source pos limit inClass)
      (before : pos < limit)
      (found : source.turnAt? pos limit inClass = some (.found opener accessors next))
      (member : accessor ∈ accessors) (enters : accessor.inside = some range) :
      Visits source range.1 range.2 false

/-- The cuts of a turn of a scan: the segment that it looks at, the rest of the file after the start
of a comment, the argument of an include, what precedes the limit, a parameter list and what follows
it on its line, the parameters of a property, and the places of what is found. -/
structure Cuts (source : Source) (pos limit : Nat) (inClass : Bool) : Prop where
  segment : Whole source.masked pos (max (min (source.lineEnd pos) limit) pos)
  comment : source.lineStart pos = pos →
    Whole source.text (pos + source.indent pos) source.text.size
  argument : ∀ header, source.lineStart pos = pos →
    inclusion? (source.maskedLine pos) = some header →
    Whole source.text (pos + header.offset)
      (pos + header.offset + byteLength (trimEnd header.argument))
  front : Whole source.masked 0 limit
  parameters : ∀ segment header paren, source.segment? pos limit = some segment →
    functionHeader? segment = some header →
    closingParen? 0 (pos + header.paren) (source.masked.extract (pos + header.paren) limit).toList =
      some paren →
    Whole source.text (pos + header.paren + 1) paren ∧
      Whole source.masked (paren + 1) (min (source.lineEnd paren) limit)
  brackets : ∀ segment header range, source.segment? pos limit = some segment →
    propertyHeader? segment = some header → header.params = some range →
    Whole source.text (pos + range.1) (pos + range.2)
  found : ∃ turn, source.turnAt? pos limit inClass = some turn ∧
    ∀ opener ∈ turn.openers, Whole source.text opener.location.start opener.location.stop

section Places

variable {source : Source} {text masked : List Char} (reads : source.Reads text masked)

protected theorem Between.min {index other : Nat} (first : source.Between index)
    (second : source.Between other) : source.Between (min index other) := by
  rcases Nat.le_total index other with le | le
  · rwa [Nat.min_eq_left le]
  · rwa [Nat.min_eq_right le]

protected theorem Between.max {index other : Nat} (first : source.Between index)
    (second : source.Between other) : source.Between (max index other) := by
  rcases Nat.le_total index other with le | le
  · rwa [Nat.max_eq_right le]
  · rwa [Nat.max_eq_left le]

theorem Between.whole_text {start stop : Nat} (first : source.Between start)
    (last : source.Between stop) (ordered : start ≤ stop) : Whole source.text start stop :=
  ⟨ordered, le_size_of_isBoundary last.text, first.text, last.text⟩

theorem Between.whole_masked {start stop : Nat} (first : source.Between start)
    (last : source.Between stop) (ordered : start ≤ stop) : Whole source.masked start stop :=
  ⟨ordered, le_size_of_isBoundary last.masked, first.masked, last.masked⟩

theorem Between.exists_location {start stop : Nat} (first : source.Between start)
    (last : source.Between stop) : ∃ location, source.location? start stop = some location := by
  have inside : min stop source.size = stop := Nat.min_eq_left (le_size_of_isBoundary last.masked)
  have cut := cut?_eq (Nat.le_max_right stop start) first.text (last.max first).text
  rw [location?, inside, cut]
  exact ⟨_, rfl⟩

theorem whole_of_location {start stop : Nat} {location : Location}
    (located : source.location? start stop = some location) :
    Whole source.text location.start location.stop := by
  obtain ⟨start_eq, stop_eq, -, -, first, last⟩ := location?_spec located
  exact ⟨by omega, le_size_of_isBoundary last, first, last⟩

include reads

/-- A place next to an ASCII character of the text. -/
theorem between_after_text {index : Nat} {b : UInt8} (byte : source.text[index]? = some b)
    (ascii : b.toNat < 0x80) : source.Between (index + 1) := by
  have bytes := byte
  rw [reads.text_eq, List.getElem?_toArray] at bytes
  obtain ⟨before, c, after, plain, place, code⟩ := exists_split_of_byte bytes ascii
  have size : c.utf8Size = 1 := by
    rw [← String.length_utf8EncodeChar, utf8EncodeChar_of_le (by omega)]
    rfl
  refine reads.between_of_text ?_
  have boundary := isBoundary_utf8 (before ++ [c]) after
  rwa [List.append_assoc, List.singleton_append, ← plain, ← reads.text_eq, byteLength_append, place,
    byteLength_cons, byteLength_nil, size] at boundary

/-- A comment ends between characters. -/
theorem between_commentEnd (start : Nat) : source.Between ((commentEndFrom start
    (source.text.extract start source.text.size).toList).getD source.size) := by
  cases found : commentEndFrom start (source.text.extract start source.text.size).toList with
  | none => exact reads.between_size
  | some stop =>
      obtain ⟨place, rfl, byte⟩ := commentEndFrom_spec found
      rw [Array.getElem?_toList, Array.getElem?_extract] at byte
      split at byte
      · exact between_after_text reads byte (by decide)
      · cases byte

theorem between_blockEnd (brace margin : Nat) : source.Between (source.blockEnd brace margin) := by
  rcases source.blockEnd_cases brace margin with ⟨place, -, byte, eq⟩ | eq
  · rw [eq]
    exact (reads.between_of_byte byte (by decide) (by decide)).2
  · rw [eq]
    exact reads.between_size

/-- The inside of a block stops between characters. -/
theorem between_blockEnd_pred {brace margin : Nat} (closable : source.Closable text)
    (byte : source.masked[brace]? = some 123) :
    source.Between (source.blockEnd brace margin - 1) := by
  rcases source.blockEnd_cases brace margin with ⟨place, -, byte, eq⟩ | eq
  · rw [eq]
    exact (reads.between_of_byte byte (by decide) (by decide)).1
  · rcases closable with ascii | closed
    · rcases List.eq_nil_or_concat' text with rfl | ⟨before, c, rfl⟩
      · have empty : source.size = 0 := by
          rw [← reads.text_size_eq, reads.text_eq]
          rfl
        rw [eq, empty]
        exact reads.between_zero
      · have code : c.toNat < 0x80 := ascii c (by simp)
        have one : c.utf8Size = 1 := by
          rw [← String.length_utf8EncodeChar, utf8EncodeChar_of_le (by omega)]
          rfl
        have size := reads.size_eq
        rw [reads.masks.byteLength_eq, byteLength_append, byteLength_cons, byteLength_nil, one] at size
        have boundary := isBoundary_utf8 before [c]
        rw [← reads.text_eq] at boundary
        have place : source.blockEnd brace margin - 1 = byteLength before := by omega
        rw [place]
        exact reads.between_of_text boundary
    · exact absurd eq (Nat.ne_of_lt (closed brace margin byte))

/-! ## Turns that succeed -/

variable {pos limit : Nat} {segment : List Char}

theorem exists_blockTurn? (kind : Nat → Kind) {start : Nat} (pos brace : Nat)
    (first : source.Between start) : ∃ turn, source.blockTurn? kind start pos brace = some turn := by
  obtain ⟨location, located⟩ :=
    first.exists_location (between_blockEnd reads brace (source.indent pos))
  rw [blockTurn?, located]
  exact ⟨_, rfl⟩

theorem exists_lineLocation? (begins : source.lineStart pos = pos) :
    ∃ location, source.lineLocation? pos = some location := by
  have first := (reads.between_indent pos).1
  rw [begins] at first
  exact first.exists_location (reads.between_lineEnd pos)

theorem exists_classTurn? (first : source.Between (codeStart pos segment)) :
    ∃ turn, source.classTurn? pos segment = some turn := by
  unfold classTurn?
  split
  · exact ⟨none, rfl⟩
  next header read =>
    split
    · exact ⟨none, rfl⟩
    · split
      · exact ⟨none, rfl⟩
      next brace opening =>
        obtain ⟨turn, eq⟩ := exists_blockTurn? reads
          (.classDef (String.ofList header.name) (header.base.map String.ofList)) pos brace first
        rw [eq]
        exact ⟨some turn, rfl⟩

theorem exists_functionTurn? (first : source.Between (codeStart pos segment))
    (last : source.Between limit) : ∃ turn, source.functionTurn? pos limit segment = some turn := by
  unfold functionTurn?
  split
  · exact ⟨none, rfl⟩
  next header read =>
    split
    · exact ⟨none, rfl⟩
    · rw [last.masked]
      split
      next split => cases split
      · dsimp only
        split
        · exact ⟨none, rfl⟩
        next paren closing =>
          split
          · exact ⟨none, rfl⟩
          · obtain ⟨location, located⟩ :=
              first.exists_location ((reads.between_lineEnd paren).min last)
            rw [located]
            exact ⟨_, rfl⟩
          · split
            · exact ⟨none, rfl⟩
            next brace opening =>
              obtain ⟨turn, eq⟩ := exists_blockTurn? reads (Kind.function (String.ofList header.name)
                header.isStatic (String.ofList (trim (charsOf source.text (pos + header.paren + 1)
                  paren))) ∘ some) pos brace first
              rw [eq]
              exact ⟨some turn, rfl⟩

theorem exists_accessor? {start : Nat} (begins : start ∈ source.lineStarts) :
    ∃ found, source.accessor? start = some found := by
  have first := (reads.between_indent start).1
  rw [reads.lineStart_of_mem begins] at first
  unfold accessor?
  split
  · exact ⟨none, rfl⟩
  next name ending read =>
    dsimp only
    split
    · obtain ⟨location, located⟩ := first.exists_location (reads.between_lineEnd start)
      rw [located]
      exact ⟨_, rfl⟩
    · split
      · exact ⟨none, rfl⟩
      next brace opening =>
        obtain ⟨location, located⟩ :=
          first.exists_location (between_blockEnd reads brace (source.indent start))
        rw [located]
        exact ⟨_, rfl⟩

theorem exists_accessorsFrom {starts : List Nat} (resume : Nat)
    (begin : ∀ start ∈ starts, start ∈ source.lineStarts) :
    ∃ found, source.accessorsFrom resume starts = some found := by
  induction starts generalizing resume with
  | nil => exact ⟨[], rfl⟩
  | cons start rest ih =>
      rw [List.forall_mem_cons] at begin
      rw [accessorsFrom]
      split
      · exact ih resume begin.2
      · obtain ⟨found, head⟩ := exists_accessor? reads begin.1
        rw [head]
        cases found with
        | none => exact ih resume begin.2
        | some step =>
            obtain ⟨others, tail⟩ := ih step.2 begin.2
            exact ⟨step.1 :: others, by simp [tail]⟩

theorem exists_propertyTurn? (first : source.Between (codeStart pos segment)) :
    ∃ turn, source.propertyTurn? pos limit segment = some turn := by
  unfold propertyTurn?
  split
  · exact ⟨none, rfl⟩
  · split
    · exact ⟨none, rfl⟩
    next header read =>
      split
      · exact ⟨none, rfl⟩
      · dsimp only
        split
        · obtain ⟨location, located⟩ := first.exists_location (reads.between_lineEnd pos)
          rw [located]
          exact ⟨_, rfl⟩
        · split
          · exact ⟨none, rfl⟩
          next brace opening =>
            obtain ⟨location, located⟩ :=
              first.exists_location (between_blockEnd reads brace (source.indent pos))
            obtain ⟨accessors, accessed⟩ :
                ∃ accessors, source.accessors? brace (source.blockEnd brace (source.indent pos)) =
                  some accessors :=
              exists_accessorsFrom reads 0 fun start member =>
                Array.mem_toList_iff.1 (List.mem_filter.1 member).1
            rw [located, accessed]
            exact ⟨_, rfl⟩

theorem exists_declarationTurn? (inClass : Bool) (first : source.Between (codeStart pos segment))
    (last : source.Between limit) :
    ∃ turn, source.declarationTurn? pos limit inClass segment = some turn := by
  obtain ⟨classTurn, classEq⟩ := exists_classTurn? reads first
  obtain ⟨functionTurn, functionEq⟩ := exists_functionTurn? reads first last
  obtain ⟨propertyTurn, propertyEq⟩ :
      ∃ turn, source.propertyTurn? pos limit segment = some turn := exists_propertyTurn? reads first
  rw [declarationTurn?, classEq, functionEq, propertyEq]
  cases classTurn with
  | some turn => exact ⟨turn, rfl⟩
  | none =>
      cases functionTurn with
      | some turn => exact ⟨turn, rfl⟩
      | none =>
          cases inClass with
          | false => exact ⟨_, rfl⟩
          | true =>
              cases propertyTurn with
              | some turn => exact ⟨turn, rfl⟩
              | none => exact ⟨_, rfl⟩

/-- The argument of an include lies between characters. -/
theorem between_argument {header : Inclusion} (begins : source.lineStart pos = pos)
    (read : inclusion? (source.maskedLine pos) = some header) :
    source.Between (pos + header.offset) ∧
      source.Between (pos + header.offset + byteLength (trimEnd header.argument)) := by
  obtain ⟨front, back, hidden, start, -⟩ := reads.exists_maskedLine pos
  obtain ⟨before, split, offset, visible⟩ := inclusion?_argument read
  obtain ⟨blanks, whole, -⟩ := exists_trimEnd header.argument
  have ends := getLast?_trimEnd header.argument
  have whole' : masked = (front ++ before) ++ (header.argument ++ back) := by
    rw [hidden, split]
    simp
  have length : byteLength (front ++ before) = pos + header.offset := by
    rw [byteLength_append, start, begins, offset]
  have first : source.Between (pos + header.offset) := by
    rcases List.eq_nil_or_concat' before with rfl | ⟨before, c, rfl⟩
    · rw [offset, byteLength_nil, Nat.add_zero, ← begins]
      exact reads.between_lineStart pos
    · rw [← length]
      exact reads.between_of_masked whole' (.inl (by simpa using visible))
  refine ⟨first, ?_⟩
  rcases List.eq_nil_or_concat' (trimEnd header.argument) with empty | ⟨argument, c, eq⟩
  · rwa [empty, byteLength_nil, Nat.add_zero]
  · have after : masked = (front ++ before ++ trimEnd header.argument) ++ (blanks ++ back) := by
      rw [whole', List.append_assoc (front ++ before), ← List.append_assoc _ blanks, ← whole]
    have other : c ≠ ' ' := by
      rintro rfl
      have := ends ' ' (by simp [eq])
      cases this
    have place := reads.between_of_masked after (.inl (by simpa [eq] using other))
    rwa [byteLength_append, length] at place

/-- The segment of a turn, and where its code begins. -/
theorem exists_segment? (first : source.Between pos) (last : source.Between limit) :
    ∃ segment, source.segment? pos limit = some segment ∧
      source.Between (codeStart pos segment) := by
  have stop := ((reads.between_lineEnd pos).min last).max first
  have looked : source.segment? pos limit =
      some (charsOf source.masked pos (max (min (source.lineEnd pos) limit) pos)) :=
    cut?_eq (Nat.le_max_right _ _) first.masked stop.masked
  obtain ⟨front, back, hidden, start, length⟩ := exists_segment reads looked
  have code := reads.between_codeStart hidden (by rwa [length])
  rw [start] at code
  exact ⟨_, looked, code⟩

theorem exists_turnAt? (inClass : Bool) (first : source.Between pos) (last : source.Between limit) :
    ∃ turn, source.turnAt? pos limit inClass = some turn := by
  obtain ⟨segment, looked, code⟩ := exists_segment? reads first last
  have declared := exists_declarationTurn? reads inClass code last
  rw [turnAt?, looked, Option.bind_eq_bind, Option.bind_some]
  dsimp only
  split
  next comment =>
    rw [Bool.and_eq_true, beq_iff_eq] at comment
    have start := (reads.between_indent pos).1
    rw [← comment.1] at start
    obtain ⟨location, located⟩ :=
      start.exists_location (between_commentEnd reads (pos + source.indent pos))
    rw [commentTurn?, located]
    exact ⟨_, rfl⟩
  next =>
    split
    · exact ⟨_, rfl⟩
    · split
      next begins =>
        rw [beq_iff_eq] at begins
        obtain ⟨location, located⟩ := exists_lineLocation? reads begins.symm
        split
        next header read =>
          obtain ⟨start, stop⟩ := between_argument reads begins.symm read
          rw [inclusionTurn?, cut?_eq (Nat.le_add_right _ _) start.text stop.text, located]
          exact ⟨_, rfl⟩
        next =>
          split
          · rw [directiveTurn?, located]
            exact ⟨_, rfl⟩
          · exact declared
      next => exact declared

end Places

/-! ## Scans that succeed -/

section Scans

variable {source : Source} {text masked : List Char} (reads : source.Reads text masked)

include reads

/-- From where it goes on, and within what it has found, a scan goes between characters. -/
theorem between_of_turnAt? {pos limit : Nat} {inClass : Bool} {turn : Turn}
    (closable : source.Closable text) (before : pos < limit)
    (found : source.turnAt? pos limit inClass = some turn) :
    source.Between turn.next ∧
      ∀ range ∈ turn.insides, source.Between range.1 ∧ source.Between range.2 := by
  have block {brace margin : Nat} (byte : source.masked[brace]? = some 123) :
      source.Between (brace + 1) ∧ source.Between (source.blockEnd brace margin - 1) :=
    ⟨(reads.between_of_byte byte (by decide) (by decide)).2,
      between_blockEnd_pred reads closable byte⟩
  rcases opens_of_turnAt? reads before found with
    rfl | ⟨segment, opener, accessors, next, looked, rfl, opens⟩
  · exact ⟨reads.between_nextLineStart pos, by simp [Turn.insides]⟩
  · cases opens with
    | comment begins ends located | line begins code flat located
    | arrow flat first last further located =>
        exact ⟨reads.between_nextLineStart _, by simp [Turn.insides]⟩
    | block lined byte first reached located =>
        refine ⟨between_blockEnd reads _ _, fun range member => ?_⟩
        obtain rfl : range = _ := by simpa [Turn.insides] using member
        exact block byte
    | property lined byte first reached located accessed =>
        refine ⟨between_blockEnd reads _ _, fun range member => ?_⟩
        obtain ⟨accessor, place, inside⟩ : ∃ accessor ∈ accessors, accessor.inside = some range := by
          simpa [Turn.insides] using member
        obtain ⟨start, begins, next, after, earlier, found⟩ :=
          (accessors_of_accessors? reads accessed).2 accessor place
        cases found with
        | arrow flat located => cases inside
        | block lined byte first reached located =>
            cases inside
            exact block byte

theorem Visits.between {pos limit : Nat} {inClass : Bool} (closable : source.Closable text)
    (visits : source.Visits pos limit inClass) : source.Between pos ∧ source.Between limit := by
  induction visits with
  | file => exact ⟨reads.between_zero, reads.between_size⟩
  | next here before found ih => exact ⟨(between_of_turnAt? reads closable before found).1, ih.2⟩
  | inside here before found enters ih =>
      refine (between_of_turnAt? reads closable before found).2 _ ?_
      simp [Turn.insides, enters]
  | @accessor pos limit next inClass opener accessor accessors range here before found member enters =>
      refine (between_of_turnAt? reads closable before found).2 range ?_
      simp only [Turn.insides, List.mem_append, List.mem_filterMap]
      exact .inr ⟨accessor, member, enters⟩

omit reads in
theorem exists_mapM {α β : Type} {f : α → Option β} {inputs : List α}
    (each : ∀ input ∈ inputs, ∃ output, f input = some output) :
    ∃ outputs, inputs.mapM f = some outputs := by
  induction inputs with
  | nil => exact ⟨[], rfl⟩
  | cons input rest ih =>
      rw [List.forall_mem_cons] at each
      obtain ⟨output, head⟩ := each.1
      obtain ⟨outputs, tail⟩ := ih each.2
      exact ⟨output :: outputs, by simp [List.mapM_cons, head, tail]⟩

omit reads in
theorem exists_within? {inside : Option (Nat × Nat)} {scope : List String} {inClass : Bool}
    (enter : ∀ range, inside = some range →
      ∃ nodes, source.scan? range.1 range.2 scope inClass = some nodes) :
    ∃ nodes, source.within? inside scope inClass = some nodes := by
  cases inside with
  | none => exact ⟨[], rfl⟩
  | some range => exact enter range rfl

/-- A scan between characters succeeds. -/
theorem exists_scan? {pos limit : Nat} (closable : source.Closable text) (scope : List String)
    (inClass : Bool) (first : source.Between pos) (last : source.Between limit) :
    ∃ nodes, source.scan? pos limit scope inClass = some nodes := by
  induction size : source.size - pos using Nat.strong_induction_on
    generalizing pos limit scope inClass with
  | h size ih =>
      by_cases inFile : pos < limit ∧ pos < source.size
      · obtain ⟨turn, found⟩ := exists_turnAt? reads inClass first last
        obtain ⟨further, deeper⟩ := turnAt?_advances inFile.2 found
        obtain ⟨goesOn, ranges⟩ := between_of_turnAt? reads closable inFile.1 found
        obtain ⟨others, rest⟩ := ih _ (by omega) scope inClass goesOn last rfl
        have enter {range : Nat × Nat} (inner : List String) (inClass : Bool)
            (member : range ∈ turn.insides) :
            ∃ nodes, source.scan? range.1 range.2 inner inClass = some nodes := by
          have := deeper range member
          exact ih _ (by omega) inner inClass (ranges range member).1 (ranges range member).2 rfl
        cases turn with
        | pass next =>
            rw [scan?_pass inFile found]
            exact ⟨others, rest⟩
        | found opener accessors next =>
            obtain ⟨inside, entered⟩ : ∃ inside, source.within? opener.inside
                (scope ++ opener.kind.name?.toList) opener.kind.isClass = some inside :=
              exists_within? fun range inside => enter _ _ (by simp [Turn.insides, inside])
            obtain ⟨nested, accessed⟩ : ∃ nested, accessors.mapM (source.accessorNode?
                (scope ++ opener.kind.name?.toList)) = some nested := by
              refine exists_mapM fun accessor member => ?_
              have place (range : Nat × Nat) (inside : accessor.inside = some range) :
                  range ∈ (Turn.found opener accessors next).insides := by
                simp only [Turn.insides, List.mem_append, List.mem_filterMap]
                exact .inr ⟨accessor, member, inside⟩
              obtain ⟨inside, entered⟩ : ∃ inside, source.within? accessor.inside
                  (scope ++ opener.kind.name?.toList ++ accessor.kind.name?.toList) false =
                    some inside :=
                exists_within? fun range inside => enter _ _ (place range inside)
              rw [accessorNode?, entered]
              exact ⟨_, rfl⟩
            rw [Turn.next] at rest
            rw [scan?_found inFile found entered accessed, rest]
            exact ⟨_, rfl⟩
      · rw [scan?_outside inFile]
        exact ⟨[], rfl⟩

/-- Parentheses that close each other enclose whole characters, and so does the rest of the line. -/
theorem whole_parameters {pos limit paren : Nat} {segment : List Char} {header : FunctionHeader}
    (last : source.Between limit) (looked : source.segment? pos limit = some segment)
    (read : functionHeader? segment = some header)
    (closing : closingParen? 0 (pos + header.paren)
      (source.masked.extract (pos + header.paren) limit).toList = some paren) :
    Whole source.text (pos + header.paren + 1) paren ∧
      Whole source.masked (paren + 1) (min (source.lineEnd paren) limit) := by
  obtain ⟨front, back, hidden, start, -⟩ := exists_segment reads looked
  obtain ⟨opening, -⟩ :=
    getElem?_of_standsAt reads hidden (functionHeader?_paren read) (by decide)
  rw [start] at opening
  obtain ⟨le, before, byte⟩ := closingParen?_masked closing
  have after : pos + header.paren ≠ paren := by
    intro same
    rw [same, byte] at opening
    cases opening
  have inLine := reads.lt_lineEnd byte (by decide) (by decide)
  have inner := (reads.between_of_byte opening (by decide) (by decide)).2
  obtain ⟨first, next⟩ := reads.between_of_byte byte (by decide) (by decide)
  exact ⟨inner.whole_text first (by omega),
    next.whole_masked ((reads.between_lineEnd paren).min last) (by omega)⟩

/-- The brackets of a property enclose whole characters. -/
theorem whole_brackets {pos limit : Nat} {segment : List Char} {header : PropertyHeader}
    {range : Nat × Nat} (looked : source.segment? pos limit = some segment)
    (read : propertyHeader? segment = some header) (params : header.params = some range) :
    Whole source.text (pos + range.1) (pos + range.2) := by
  obtain ⟨front, back, hidden, start, -⟩ := exists_segment reads looked
  obtain ⟨before, inner, after, split, rfl⟩ := (propertyHeader?_parts read).1 range params
  have opening : masked = (front ++ before) ++ ('[' :: (inner ++ ']' :: after) ++ back) := by
    rw [hidden, split]
    simp
  have closing :
      masked = (front ++ (before ++ '[' :: (inner ++ [']']))) ++ (after ++ back) := by
    rw [hidden, split]
    simp
  have first := reads.between_of_masked opening (.inr (by simp))
  have ends : (front ++ (before ++ '[' :: (inner ++ [']']))).getLast? = some ']' := by
    rw [← List.append_assoc, ← List.cons_append, ← List.append_assoc, List.getLast?_concat]
  have last := reads.between_of_masked closing (.inl (by rw [ends]; decide))
  rw [byteLength_append, start] at first last
  refine first.whole_text last ?_
  rw [byteLength_append before]
  omega

/-- The cuts of a turn between characters. -/
theorem cuts_of_between {pos limit : Nat} (inClass : Bool) (before : pos < limit)
    (first : source.Between pos) (last : source.Between limit) : source.Cuts pos limit inClass where
  segment := first.whole_masked (((reads.between_lineEnd pos).min last).max first)
    (Nat.le_max_right _ _)
  comment begins := by
    have code := (reads.between_indent pos).1
    rw [begins] at code
    have size := reads.between_size
    rw [reads.text_size_eq]
    exact code.whole_text size (le_size_of_isBoundary code.masked)
  argument header begins read := by
    obtain ⟨start, stop⟩ := between_argument reads begins read
    exact start.whole_text stop (Nat.le_add_right _ _)
  front := reads.between_zero.whole_masked last (Nat.zero_le limit)
  parameters segment header paren looked read closing :=
    whole_parameters reads last looked read closing
  brackets segment header range looked read params := whole_brackets reads looked read params
  found := by
    obtain ⟨turn, found⟩ := exists_turnAt? reads inClass first last
    refine ⟨turn, found, ?_⟩
    rcases opens_of_turnAt? reads before found with
      rfl | ⟨segment, opener, accessors, next, looked, rfl, opens⟩
    · exact List.forall_mem_nil _
    · cases opens with
      | comment begins ends located => exact List.forall_mem_singleton.2 (whole_of_location located)
      | line begins code flat located => exact List.forall_mem_singleton.2 (whole_of_location located)
      | arrow flat first last further located =>
          exact List.forall_mem_singleton.2 (whole_of_location located)
      | block lined byte first reached located =>
          exact List.forall_mem_singleton.2 (whole_of_location located)
      | property lined byte first reached located accessed =>
          refine List.forall_mem_cons.2 ⟨whole_of_location located, fun accessor member => ?_⟩
          obtain ⟨start, begins, next, after, earlier, found⟩ :=
            (accessors_of_accessors? reads accessed).2 accessor member
          cases found with
          | arrow flat located => exact whole_of_location located
          | block lined byte first reached located => exact whole_of_location located

end Scans

end Source

namespace IncludeContext

open Source

/-- The scan of a file whose blocks end between characters succeeds, and every cut on its way is
between characters: of the lines, at every place of the scan, and around every node. -/
theorem cuts_of_closable (context : IncludeContext) (host : Host) (path : String) {text : List Char}
    (closable : (Source.ofText context.version path text).Closable text) :
    let source := Source.ofText context.version path text
    (∃ file, context.scanSource host path text = .ok file) ∧
      (∀ index, Whole source.masked (source.lineStart index) (source.lineEnd index) ∧
        Whole source.text (source.lineStart index) (source.lineEnd index)) ∧
      ∀ pos limit inClass, source.Visits pos limit inClass → pos < limit →
        source.Cuts pos limit inClass := by
  have reads := reads_ofText context.version path text
  refine ⟨?_, fun index => ?_, fun pos limit inClass visits before => ?_⟩
  · obtain ⟨nodes, scanned⟩ :=
      exists_scan? reads closable [] false reads.between_zero reads.between_size
    obtain ⟨linked, found⟩ : ∃ linked, Node.linkAll (context.follower host path stay) false
        ⟨[], context.initialBase path⟩ nodes = some linked :=
      Follower.exists_linkAll (fun _ _ _ _ => ⟨_, rfl⟩) nodes false _
    rw [scanSource, scanText]
    dsimp only
    rw [scanned, Option.bind_eq_bind, Option.bind_some, found]
    exact ⟨_, rfl⟩
  · have first := reads.between_lineStart index
    have last := reads.between_lineEnd index
    have le := reads.lineStart_le_lineEnd index
    exact ⟨first.whole_masked last le, first.whole_text last le⟩
  · obtain ⟨first, last⟩ := visits.between reads closable
    exact cuts_of_between reads inClass before first last

/-- A block that is left open in a text that ends with an ASCII character. -/
theorem cuts_of_closable_open :
    (Source.ofText .v2 "a.ahk" "F() \x7b\ne".toList).Closable "F() \x7b\ne".toList ∧
      ∃ file, scanSource ⟨.v2, "a.ahk", none, "/", none⟩ ⟨⟨[], []⟩, ⟨[]⟩⟩ "a.ahk"
        "F() \x7b\ne".toList = .ok file := by
  have closable : (Source.ofText .v2 "a.ahk" "F() \x7b\ne".toList).Closable
      "F() \x7b\ne".toList := .inl (by simp)
  exact ⟨closable, (cuts_of_closable ⟨.v2, "a.ahk", none, "/", none⟩ ⟨⟨[], []⟩, ⟨[]⟩⟩ "a.ahk"
    closable).1⟩

/-- A block that is left open is cut inside the last character. -/
theorem splitCharacter_of_open :
    scanSource ⟨.v2, "a.ahk", none, "/", none⟩ ⟨⟨[], []⟩, ⟨[]⟩⟩ "a.ahk" "F() \x7b\né".toList =
      .error .splitCharacter := by
  have stuck : scanText ⟨.v2, "a.ahk", none, "/", none⟩ ⟨⟨[], []⟩, ⟨[]⟩⟩ stay [] "a.ahk"
      "F() \x7b\né".toList [] false = none := by
    rw [← Option.isNone_iff_eq_none]
    decide +kernel
  rw [scanSource, stuck]

end IncludeContext
end DebugBridge
