import DebugBridge.Script.Header
import DebugBridge.Script.Source
import DebugBridge.Script.Directive

/-!
The structure of one file.  A scan goes through the file from top to bottom; at the start of each
line, and again right after a block that closes within a line, it looks for a construct that opens
there.  The inside of a block is scanned in the same way.

Every turn of a scan moves forward, and what is nested starts after what opens it
(`turnAt?_advances`), so a scan ends.  A scan has no result when a block that is never closed
would have to be cut inside a character.
-/

namespace DebugBridge

/-- A construct that opens at some place, before its inside is scanned. -/
structure Opener where
  /-- What opens. -/
  kind : Kind
  /-- Where it stands. -/
  location : Location
  /-- Where its inside starts and stops, if it has one. -/
  inside : Option (Nat × Nat)

/-- What a scan finds at a place, with the place where it goes on. -/
inductive Turn where
  /-- Nothing. -/
  | pass (next : Nat)
  /-- A construct, with the accessors of a property. -/
  | found (opener : Opener) (accessors : List Opener) (next : Nat)

/-- Where the scan goes on. -/
def Turn.next : Turn → Nat
  | .pass next => next
  | .found _ _ next => next

/-- The insides of a turn's construct and of its accessors. -/
def Turn.insides : Turn → List (Nat × Nat)
  | .pass _ => []
  | .found opener accessors _ => opener.inside.toList ++ accessors.filterMap (·.inside)

namespace Source

/-- The offset of the first end of a block comment in the bytes from `index` on. -/
def commentEndFrom (index : Nat) : List UInt8 → Option Nat
  | 42 :: 47 :: _ => some (index + 2)
  | _ :: rest => commentEndFrom (index + 1) rest
  | [] => none

/-- A block comment on the line that starts at `pos`.  The comment reaches from the first code on
the line, or the end of the line, to the next end of a comment. -/
def commentTurn? (source : Source) (pos : Nat) : Option Turn := do
  let start := pos + source.indent pos
  let after := (source.text.extract start source.text.size).toList
  let stop := (commentEndFrom start after).getD source.size
  return .found ⟨.skip, ← source.location? start stop, none⟩ []
    (source.nextLineStart (max (stop - 1) start))

/-- The location of the line that starts at `pos`, without its indentation. -/
def lineLocation? (source : Source) (pos : Nat) : Option Location :=
  source.location? (pos + source.indent pos) (source.lineEnd pos)

/-- The include directive on the line that starts at `pos`. -/
def inclusionTurn? (source : Source) (pos : Nat) (header : Header.Inclusion) : Option Turn := do
  let start := pos + header.offset
  let stop := start + Text.byteLength (Text.trimEnd header.argument)
  let directive := Directive.parse (← cut? source.text start stop)
  return .found ⟨.inclusion directive header.again none, ← source.lineLocation? pos, none⟩ []
    (source.nextLineStart pos)

/-- A directive other than an include on the line that starts at `pos`. -/
def directiveTurn? (source : Source) (pos : Nat) : Option Turn := do
  return .found ⟨.skip, ← source.lineLocation? pos, none⟩ [] (source.nextLineStart pos)

/-- The masked text from an offset to the end of its line or to `limit`. -/
def segment? (source : Source) (pos limit : Nat) : Option (List Char) :=
  cut? source.masked pos (max (min (source.lineEnd pos) limit) pos)

/-- The offset of the first character of a segment that is no blank and no tab. -/
def codeStart (pos : Nat) (segment : List Char) : Nat :=
  pos + (segment.takeWhile Text.isIndent).length

/-- A construct with a block from an opening brace on. -/
def blockTurn? (source : Source) (kind : Nat → Kind) (start pos brace : Nat) : Option Turn := do
  let stop := source.blockEnd brace (source.indent pos)
  return .found
    ⟨kind (source.lineOf brace + 1), ← source.location? start stop, some (brace + 1, stop - 1)⟩ []
    stop

/-- A class whose header starts at an offset; an inner `none` stands for no class. -/
def classTurn? (source : Source) (pos : Nat) (segment : List Char) : Option (Option Turn) :=
  match Header.classHeader? segment with
  | none => some none
  | some header =>
    if header.brace.isNone && pos + Text.byteLength segment < source.lineEnd pos then some none
    else
      match source.braceAfter? pos (header.brace.map (pos + ·)) with
      | none => some none
      | some brace =>
        (source.blockTurn?
          (.classDef (String.ofList header.name) (header.base.map String.ofList))
          (codeStart pos segment) pos brace).map some

/-- What follows the parameter list of a function header. -/
inductive FunctionBody where
  /-- An expression. -/
  | arrow
  /-- A block whose brace is at an offset of the same line, or else on a later line. -/
  | block (brace : Option Nat)

/-- What follows the parameter list that closes at `paren`, in the rest of the header's line, cut
at `headerEnd`. -/
def functionBody? (source : Source) (paren headerEnd : Nat) : Option FunctionBody :=
  let rest := charsOf source.masked (paren + 1) headerEnd
  match Header.skipIndent rest with
  | '=' :: '>' :: _ => some .arrow
  | '{' :: more => some (.block (some (paren + 1 + Header.offsetOf rest ('{' :: more))))
  | trimmed =>
    if Text.allBlank trimmed && headerEnd == source.lineEnd paren then some (.block none) else none

/-- A function whose header starts at an offset; an inner `none` stands for no function. -/
def functionTurn? (source : Source) (pos limit : Nat) (segment : List Char) :
    Option (Option Turn) :=
  match Header.functionHeader? segment with
  | none => some none
  | some header =>
    if Header.isKeyword header.name then some none
    else if !isBoundary source.masked limit then none
    else
      let openParen := pos + header.paren
      match closingParen? 0 openParen (source.masked.extract openParen limit).toList with
      | none => some none
      | some paren =>
        let params := Text.trim (charsOf source.text (openParen + 1) paren)
        let headerEnd := min (source.lineEnd paren) limit
        let kind := Kind.function (String.ofList header.name) header.isStatic (String.ofList params)
        let start := codeStart pos segment
        match source.functionBody? paren headerEnd with
        | none => some none
        | some .arrow => do
          return some (.found ⟨kind none, ← source.location? start headerEnd, none⟩ []
            (source.nextLineStart (max (headerEnd - 1) paren)))
        | some (.block sameLine) =>
          match source.braceAfter? paren sameLine with
          | none => some none
          | some brace => (source.blockTurn? (kind ∘ some) start pos brace).map some

/-- The accessor on the line that starts at `start`, if there is one, with the place where its
property goes on. -/
def accessor? (source : Source) (start : Nat) : Option (Option (Opener × Nat)) :=
  match Header.accessorHeader? (source.maskedLine start) with
  | none => some none
  | some (name, ending) =>
    let kind := Kind.function (String.ofList name) false ""
    let first := start + source.indent start
    match ending with
    | .arrow => do
      return some (⟨kind none, ← source.location? first (source.lineEnd start), none⟩,
        source.nextLineStart start)
    | ending =>
      let sameLine := match ending with
        | .brace offset => some (start + offset)
        | _ => none
      match source.braceAfter? start sameLine with
      | none => some none
      | some brace => do
        let stop := source.blockEnd brace (source.indent start)
        return some (⟨kind (some (source.lineOf brace + 1)), ← source.location? first stop,
          some (brace + 1, stop - 1)⟩, source.nextLineStart (stop - 1))

/-- The accessors on lines that start at the given offsets; those before `resume` lie inside an
accessor that was found already. -/
def accessorsFrom (source : Source) (resume : Nat) : List Nat → Option (List Opener)
  | [] => some []
  | start :: rest =>
    if start < resume then source.accessorsFrom resume rest
    else do
      match ← source.accessor? start with
      | none => source.accessorsFrom resume rest
      | some (accessor, resume) => return accessor :: (← source.accessorsFrom resume rest)

/-- The accessors of the property whose block lies between a brace and `stop`. -/
def accessors? (source : Source) (brace stop : Nat) : Option (List Opener) :=
  source.accessorsFrom 0 (source.lineStarts.toList.filter fun start =>
    brace < start && source.lineOf start < source.lineOf (stop - 1))

/-- A property whose header starts at an offset; an inner `none` stands for no property. -/
def propertyTurn? (source : Source) (pos limit : Nat) (segment : List Char) :
    Option (Option Turn) :=
  if limit < source.lineEnd pos then some none
  else
    match Header.propertyHeader? segment with
    | none => some none
    | some header =>
      if Header.isKeyword header.name then some none
      else
        let params := header.params.map fun range =>
          String.ofList (charsOf source.text (pos + range.1) (pos + range.2))
        let kind := Kind.property (String.ofList header.name) header.isStatic params
        let start := codeStart pos segment
        match header.ending with
        | .arrow => do
          return some (.found ⟨kind none, ← source.location? start (source.lineEnd pos), none⟩ []
            (source.nextLineStart pos))
        | ending =>
          let sameLine := match ending with
            | .brace offset => some (pos + offset)
            | _ => none
          match source.braceAfter? pos sameLine with
          | none => some none
          | some brace => do
            let stop := source.blockEnd brace (source.indent pos)
            return some (.found
              ⟨kind (some (source.lineOf brace + 1)), ← source.location? start stop, none⟩
              (← source.accessors? brace stop) stop)

/-- A class, function or, inside a class, property at an offset; else the scan passes on. -/
def declarationTurn? (source : Source) (pos limit : Nat) (inClass : Bool) (segment : List Char) :
    Option Turn := do
  if let some turn ← source.classTurn? pos segment then return turn
  if let some turn ← source.functionTurn? pos limit segment then return turn
  if inClass then
    if let some turn ← source.propertyTurn? pos limit segment then return turn
  return .pass (source.nextLineStart pos)

/-- What a scan that stops at `limit` finds at an offset. -/
def turnAt? (source : Source) (pos limit : Nat) (inClass : Bool) : Option Turn := do
  let segment ← source.segment? pos limit
  let startsLine := pos == source.lineStart pos
  if startsLine && Header.opensComment (source.rawLine pos) then source.commentTurn? pos
  else if Text.allBlank segment then return .pass (source.nextLineStart pos)
  else if startsLine then
    let line := source.maskedLine pos
    match Header.inclusion? line with
    | some header => source.inclusionTurn? pos header
    | none =>
      if Header.isDirective line && !Text.occursIn [':', ':'] line then source.directiveTurn? pos
      else source.declarationTurn? pos limit inClass segment
  else source.declarationTurn? pos limit inClass segment

end Source
end DebugBridge
