import DebugBridge.Script.Mask
import DebugBridge.Script.Node

/-!
A script file as bytes beside its masked form, with the table of its lines.  Offsets count bytes
from zero and mean the same place in both forms.  A line's text leaves out the line break and a
carriage return before it.
-/

namespace DebugBridge

/-- A script file. -/
structure Source where
  /-- Path of the file. -/
  path : String
  /-- Bytes of the text. -/
  text : Array UInt8
  /-- Bytes of the masked text, as many as of the text. -/
  masked : Array UInt8
  /-- Offsets at which lines start, increasing and beginning with zero. -/
  lineStarts : Array Nat

namespace Source

/-- Offsets just past the line breaks of a byte string whose first byte is at `index`. -/
def breaksFrom (index : Nat) : List UInt8 → List Nat
  | [] => []
  | b :: rest =>
    if b == 10 then (index + 1) :: breaksFrom (index + 1) rest else breaksFrom (index + 1) rest

/-- A file with a given text. -/
def ofText (version : Version) (path : String) (text : List Char) : Source :=
  let bytes := Text.utf8 text
  { path
    text := bytes.toArray
    masked := (Text.utf8 (maskSource version text)).toArray
    lineStarts := (0 :: breaksFrom 0 bytes).toArray }

/-- Number of bytes. -/
def size (source : Source) : Nat := source.masked.size

/-- Number of lines, a last line without a line break included. -/
def lineCount (source : Source) : Nat := source.lineStarts.size

/-- The line that holds an offset, counted from zero. -/
def lineOf (source : Source) (index : Nat) : Nat :=
  source.lineStarts.findIdx (fun start => index < start) - 1

/-- Where the line that holds an offset starts. -/
def lineStart (source : Source) (index : Nat) : Nat :=
  source.lineStarts.getD (source.lineOf index) 0

/-- Where the line after the one that holds an offset starts; without one, the end of the file. -/
def nextLineStart (source : Source) (index : Nat) : Nat :=
  (source.lineStarts.find? fun start => index < start).getD source.size

/-- The byte of the masked text at an offset. -/
def byteAt (source : Source) (index : Nat) : UInt8 := source.masked.getD index 0

/-- Where the text of a line ends, for a line that starts at `start` and whose successor, if it
has one, starts at `next?`. -/
def lineStop (source : Source) (start : Nat) (next? : Option Nat) : Nat :=
  let stop := match next? with
    | some next => next - 1
    | none => source.size
  if start < stop && source.byteAt (stop - 1) == 13 then stop - 1 else stop

/-- Where the text of the line that holds an offset ends. -/
def lineEnd (source : Source) (index : Nat) : Nat :=
  source.lineStop (source.lineStart index) (source.lineStarts.find? fun start => index < start)

/-- The characters of a byte range. -/
def charsOf (bytes : Array UInt8) (start stop : Nat) : List Char :=
  Text.utf8Lossy (bytes.extract start stop).toList

/-- Whether an offset lies between two characters of a byte string. -/
def isBoundary (bytes : Array UInt8) (index : Nat) : Bool :=
  match bytes[index]? with
  | some b => !Text.isTail b
  | none => index == bytes.size

/-- The characters of a byte range whose ends lie between characters. -/
def cut? (bytes : Array UInt8) (start stop : Nat) : Option (List Char) :=
  if start ≤ stop && isBoundary bytes start && isBoundary bytes stop then
    some (charsOf bytes start stop)
  else none

/-- The masked text of the line that holds an offset. -/
def maskedLine (source : Source) (index : Nat) : List Char :=
  charsOf source.masked (source.lineStart index) (source.lineEnd index)

/-- The text of the line that holds an offset. -/
def rawLine (source : Source) (index : Nat) : List Char :=
  charsOf source.text (source.lineStart index) (source.lineEnd index)

/-- The masked text of a line by its number, counted from one. -/
def lineText? (source : Source) (line : Nat) : Option String :=
  if line == 0 then none
  else
    (source.lineStarts[line - 1]?).map fun start =>
      String.ofList (charsOf source.masked start
        (source.lineStop start (source.lineStarts[line]?)))

/-- Number of blanks and tabs before the first other byte of the masked line that holds an
offset. -/
def indent (source : Source) (index : Nat) : Nat :=
  ((source.maskedLine index).takeWhile Text.isIndent).length

/-- The position of an offset. -/
def position (source : Source) (index : Nat) : Position :=
  { line := source.lineOf index + 1, column := index - source.lineStart index + 1 }

/-- The location of a byte range whose ends lie between characters. -/
def location? (source : Source) (start stop : Nat) : Option Location := do
  let stop := max (min stop source.size) start
  let text ← cut? source.text start stop
  return {
    file := source.path
    start := start
    stop := stop
    first := source.position start
    last := source.position (max (stop - 1) start)
    text := String.ofList text }

/-- Where the first line after an offset starts that has code on it. -/
def codeLineAfter? (source : Source) (index : Nat) : Option Nat :=
  source.lineStarts.find? fun start => index < start && !Text.allBlank (source.maskedLine start)

/-- Where the brace is that opens the block of a header: at a known offset on the header's line,
or at the start of the next line with code. -/
def braceAfter? (source : Source) (index : Nat) (sameLine : Option Nat) : Option Nat :=
  match sameLine with
  | some brace => some brace
  | none => do
    let start ← source.codeLineAfter? index
    let brace := start + source.indent start
    if source.byteAt brace == 123 then some brace else none

/-- Whether the byte at an offset leads its line and is indented by at most `depth`. -/
def leadsLine (source : Source) (depth index : Nat) : Bool :=
  let indent := source.indent index
  index == source.lineStart index + indent && indent ≤ depth

/-- Follows braces from an offset on.  The block ends at a brace that brings the depth to zero
and either stands on the line of the opening brace or leads its own line; failing that, `settled`
is where the depth first came to zero. -/
def closingFrom (source : Source) (braceLine margin : Nat) (depth : Nat) (settled : Option Nat)
    (index : Nat) : List UInt8 → Sum Nat (Option Nat)
  | [] => .inr settled
  | b :: rest =>
    if b == 123 then
      source.closingFrom braceLine margin (depth + 1) settled (index + 1) rest
    else if b == 125 && depth - 1 == 0 then
      if source.lineOf index == braceLine || source.leadsLine margin index then .inl (index + 1)
      else
        source.closingFrom braceLine margin 0 (settled <|> some (index + 1)) (index + 1) rest
    else if b == 125 then
      source.closingFrom braceLine margin (depth - 1) settled (index + 1) rest
    else source.closingFrom braceLine margin depth settled (index + 1) rest

/-- The offset just past the end of the block whose brace is at an offset and whose header is
indented by `margin`.  Where the braces never settle, the block ends at the first closing brace
that leads a later line, or else where the depth first came to zero, or else with the file. -/
def blockEnd (source : Source) (brace margin : Nat) : Nat :=
  let after := (source.masked.extract brace source.size).toList
  match source.closingFrom (source.lineOf brace) margin 0 none brace after with
  | .inl stop => stop
  | .inr settled =>
    let leading := (source.lineStarts.filter (brace < ·)).map fun start =>
      start + source.indent start
    let candidate := leading.find? fun index =>
      source.byteAt index == 125 && source.indent index ≤ margin
    ((candidate.map (· + 1)) <|> settled).getD source.size

/-- Where the parenthesis is that closes the one at `index`, in the bytes from there on. -/
def closingParen? (depth index : Nat) : List UInt8 → Option Nat
  | [] => none
  | b :: rest =>
    if b == 40 then closingParen? (depth + 1) (index + 1) rest
    else if b == 41 then
      if depth ≤ 1 then some index else closingParen? (depth - 1) (index + 1) rest
    else closingParen? depth (index + 1) rest

end Source
end DebugBridge
