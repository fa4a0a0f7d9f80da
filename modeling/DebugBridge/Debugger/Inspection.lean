import DebugBridge.Debugger.Basic
import DebugBridge.Text.Word

/-!
Looking at a script that has stopped: its stack, its variables, the values of expressions, and the
names that complete a text.
-/

namespace DebugBridge
namespace Link

/-- The name of a frame outside of functions. -/
def autoExecute : String := "[auto-execute]"

/-- Hands out a number for a frame. -/
def describeFrame (frame : EngineFrame) : LinkOperation StackFrame := do
  let link ← get
  let (id, frameNumbers) := link.frameNumbers.create frame.level
  set { link with frameNumbers }
  return { id := Int64.ofInt id
           name := if frame.location.isEmpty then autoExecute else frame.location
           source := if frame.fileUri.isEmpty then none
             else some (SourceInfo.ofPath (Uri.toPath frame.fileUri))
           line := UInt32.ofNat frame.line
           column := 1 }

/-- The frames of the stack, the innermost first. -/
def stackTrace : LinkOperation (List StackFrame) := do
  let response ← Operation.command (Command.named "stack_get")
  response.frames.mapM describeFrame

/-- Hands out a number for something with variables in it. -/
def referTo (scope : VariableScope) : LinkOperation Int := do
  let link ← get
  let (reference, scopeNumbers) := link.scopeNumbers.create scope
  set { link with scopeNumbers }
  return reference

/-- Hands out a number for a group of variables. -/
def describeContext (depth : Nat) (context : VariableContext) : LinkOperation Scope := do
  let reference ← referTo (.context depth context.id)
  return { name := context.name, reference := Int64.ofInt reference
           expensive := Text.equalIgnoringCase context.name "global" }

/-- The groups of variables that there are at a depth. -/
def contexts (depth : Nat) : LinkOperation (List VariableContext) := do
  return (← Operation.command ((Command.named "context_names").argNat 'd' depth)).contexts

/-- The groups of variables of a frame. -/
def scopes (frame : Int) : LinkOperation (List Scope) := do
  match (← get).frameNumbers.get? frame with
  | none => throw (.unknownReference frame)
  | some depth => (← contexts depth).mapM (describeContext depth)

/-- The properties that a command asks for. -/
def properties (command : Command) : LinkOperation (List Property) := do
  Operation.orThrow (← Operation.command command).properties

/-- The variables of a group. -/
def contextVariables (depth contextId : Nat) : LinkOperation (List Property) :=
  properties (((Command.named "context_get").argNat 'd' depth).argNat 'c' contextId)

/-- The command for a page of the children of a property. -/
def pageCommand (depth : Nat) (contextId : Option Nat) (fullName : String) (page : Nat) : Command :=
  ((((Command.named "property_get").argNat 'd' depth).arg? 'c' (contextId.map toString)).argNat 'p'
    page).arg 'n' fullName

/-- The page after another one. -/
def pageAfter (page : Nat) : Nat := (page + 1) % (Text.maxWord + 1)

/-- The children of a property: those found so far, on the pages up to `page`, and those on at most
`pages` further pages, until there are `total` of them or a page is empty. -/
def addPages (command : Nat → Command) (total : Nat) :
    (pages page : Nat) → (children : List Property) → LinkOperation (List Property)
  | 0, _, children => return children
  | pages + 1, page, children => do
    if total ≤ children.length then return children
    else
      let next := pageAfter page
      let more := match (← properties (command next)).head? with
        | some property => property.children
        | none => []
      if more.isEmpty then return children
      else addPages command total pages next (children ++ more)

/-- All children of a property. -/
def propertyChildren (depth : Nat) (contextId : Option Nat) (fullName : String) :
    LinkOperation (List Property) := do
  let command := pageCommand depth contextId fullName
  match (← properties (command 0)).head? with
  | none => return []
  | some property =>
    let missing := property.childCount - property.children.length
    addPages command property.childCount missing property.page property.children

/-- Hands out a number for the children of a property, if it has any. -/
def describeProperty (depth : Nat) (contextId : Option Nat) (property : Property) :
    LinkOperation Variable := do
  let reference ←
    if property.hasChildren then referTo (.property depth contextId property.fullName) else pure 0
  return { name := property.name
           value := property.displayValue
           kind := some (property.className.getD property.kind)
           evaluateName := some property.fullName
           reference := Int64.ofInt reference
           childCount :=
             if property.hasChildren then some (UInt32.ofNat property.childCount) else none }

/-- The variables in something. -/
def variablesIn (reference : Int) : LinkOperation (List Variable) := do
  match (← get).scopeNumbers.get? reference with
  | none => throw (.unknownReference reference)
  | some (.context depth contextId) =>
    (← contextVariables depth contextId).mapM (describeProperty depth (some contextId))
  | some (.property depth contextId fullName) =>
    (← propertyChildren depth contextId fullName).mapM (describeProperty depth contextId)

/-- The depth of a frame, the innermost one if none is given. -/
def frameDepth : Option Int → LinkOperation Nat
  | none => return 0
  | some frame => do
    match (← get).frameNumbers.get? frame with
    | some depth => return depth
    | none => throw (.unknownReference frame)

/-- The value of an expression. -/
def evaluate (request : EvaluateRequest) : LinkOperation EvaluateResult := do
  let depth ← frameDepth (request.frameId.map Int64.toInt)
  let expression := Text.trimmed request.expression
  let command := ((Command.named "property_get").argNat 'd' depth).arg 'n' expression
  match (← properties command).head? with
  | none => throw (.unresolved ("\x60" ++ expression ++ "\x60"))
  | some property =>
    let found ← describeProperty depth none property
    return { result := found.value, kind := found.kind, reference := found.reference }

/-- Whether a character may stand in the word that is completed. -/
def isCompletionChar (c : Char) : Bool :=
  Text.isAlphanumeric c || c == '_' || c == '.' || c == '#' || c == '@' || c == '$'

/-- The word at the end of a text, dots included. -/
def completionWord (text : List Char) : List Char :=
  (text.reverse.takeWhile isCompletionChar).reverse

/-- The names of the variables of some groups, in order. -/
def variableNames (depth : Nat) : List VariableContext → LinkOperation (List String)
  | [] => return []
  | context :: rest => do
    let found ← contextVariables depth context.id
    return found.map Property.name ++ (← variableNames depth rest)

/-- The names of the members of what an expression names; none if the engine has none. -/
def memberNames (depth : Nat) (expression : String) : LinkOperation (List String) := do
  try
    return (← propertyChildren depth none expression).map Property.name
  catch
    | .engine _ => return []
    | error => throw error

/-- The first name of each spelling, upper and lower case aside, `seen` being spellings of names
before them. -/
def distinctNames (seen : List (List Char)) : List String → List String
  | [] => []
  | name :: rest =>
    let spelling := Text.lower name.toList
    if seen.contains spelling then distinctNames seen rest
    else name :: distinctNames (spelling :: seen) rest

/-- The names that start with a text, upper and lower case aside, each once. -/
def matchingNames (start : List Char) (names : List String) : List String :=
  distinctNames [] (names.filter fun name =>
    (Text.afterStart (Text.lower start) (Text.lower name.toList)).isSome)

/-- The names that complete the word at the end of a text: after a dot the members of what precedes
it, otherwise variables. -/
def completions (text : String) (frame : Option Int) : LinkOperation (List CompletionItem) := do
  let depth ← frameDepth frame
  let word := completionWord text.toList
  match Text.splitLast '.' word with
  | some (owner, start) =>
    let names ← memberNames depth (String.ofList owner)
    return (matchingNames start names).map fun label => { label, kind := some "property" }
  | none =>
    let names ← variableNames depth (← contexts depth)
    return (matchingNames word names).map fun label => { label, kind := some "variable" }

end Link

namespace Debugger

/-- The path of an included file, if it is one. -/
def includedFile? (host : Host) (node : Node) : Option String :=
  match node.kind with
  | .inclusion _ _ (some path) => if host.files.isFile path then some path else none
  | _ => none

/-- Paths without those that name the same file as an earlier one. -/
def distinctFiles (seen : List String) : List String → List String
  | [] => []
  | path :: rest =>
    if seen.any fun other => Path.sameFile other path then distinctFiles seen rest
    else path :: distinctFiles (seen ++ [path]) rest

/-- The main script and the files that it includes. -/
def loadedSources (debugger : Debugger) : Except DebugError (List SourceInfo) := do
  let script := debugger.script
  let nodes ← (script.includes.findProgram script.host script.program).mapError .scan
  let included := (Node.flattenAll nodes).filterMap (includedFile? debugger.host)
  return (distinctFiles [] (script.program :: included)).map SourceInfo.ofPath

end Debugger
end DebugBridge
