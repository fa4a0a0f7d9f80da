import DebugBridge.Script.Program

/-!
Lines that can hold a breakpoint.  A line is executable when it has code other than a lone brace
and belongs neither to a skipped region, nor to an include directive, nor to the header of a
class, function, property or accessor.  A requested line resolves to the first executable line at
or after it.
-/

namespace DebugBridge

/-- The lines from `first` to `last`. -/
def linesBetween (first last : Nat) : List Nat := List.range' first (last + 1 - first)

/-- The header lines of a construct with an opening brace. -/
def headerLines (location : Location) : Option Nat → List Nat
  | some braceLine => linesBetween location.first.line braceLine
  | none => []

mutual

/-- Lines of a node's own file that are never executed because of the node. -/
def Node.blockedLines : Node → List Nat
  | .mk kind _ location nested =>
    match kind with
    | .skip => linesBetween location.first.line location.last.line
    | .inclusion _ _ _ => [location.first.line]
    | .classDef _ _ braceLine =>
      headerLines location (some braceLine) ++ Node.blockedLinesAll nested
    | .function _ _ _ braceLine => headerLines location braceLine ++ Node.blockedLinesAll nested
    | .property _ _ _ braceLine =>
      headerLines location braceLine ++ Node.blockedAccessorLines nested

/-- Lines that are never executed because of one of the nodes. -/
def Node.blockedLinesAll : List Node → List Nat
  | [] => []
  | node :: rest => node.blockedLines ++ Node.blockedLinesAll rest

/-- Lines that are never executed because of the accessors that count, the last ones of a kind. -/
def Node.blockedAccessorLines : List Node → List Nat
  | [] => []
  | accessor :: rest =>
    let isGetter := fun node : Node => node.name? == some "get"
    (if rest.any fun later => isGetter later == isGetter accessor then []
      else accessor.blockedLines) ++ Node.blockedAccessorLines rest

end

/-- Where a line breakpoint goes. -/
structure LineResolution where
  /-- The line: the requested one if it is not verified. -/
  line : Nat
  /-- Whether the line is executable. -/
  verified : Bool
  deriving DecidableEq, Repr

namespace ScannedFile

/-- Number of lines. -/
def lineCount (file : ScannedFile) : Nat := file.source.lineCount

/-- Lines that are never executed because of the structure of the file. -/
def blockedLines (file : ScannedFile) : List Nat := Node.blockedLinesAll file.nodes

/-- Whether a line has code on it other than a lone brace. -/
def hasCode (file : ScannedFile) (line : Nat) : Bool :=
  match file.source.lineText? line with
  | none => false
  | some text =>
    let code := Text.trim text.toList
    !(code.isEmpty || code == ['\x7b'] || code == ['\x7d'])

/-- The first executable line at or after a requested one. -/
def resolveLine (file : ScannedFile) (requested : Nat) : LineResolution :=
  let blocked := file.blockedLines
  let candidate := (linesBetween (max requested 1) file.lineCount).find? fun line =>
    !blocked.contains line && file.hasCode line
  match candidate with
  | some line => ⟨line, true⟩
  | none => ⟨requested, false⟩

end ScannedFile
end DebugBridge
