import DebugBridge.Debugger.Breakpoint.Basic
import DebugBridge.Debugger.Talk
import DebugBridge.Script.Resolution

/-!
The table of breakpoints.  A breakpoint is bound to a place in the script and given to the engine
before it is recorded; it is taken back from the engine before it is forgotten.  What cannot be
bound or is not taken by the engine is recorded all the same, with the reason.
-/

namespace DebugBridge

/-- What is known of the script when breakpoints are bound. -/
structure ScriptContext where
  /-- The files. -/
  host : Host
  /-- How includes are found. -/
  includes : IncludeContext
  /-- The main script. -/
  program : String

namespace ScriptContext

/-- The executable line at or after a line of a file. -/
def resolveLine (context : ScriptContext) (file : String) (line : Nat) : LineResolution :=
  match context.includes.scanFile context.host file with
  | .ok scanned => scanned.resolveLine line
  | .error _ => ⟨line, false⟩

/-- File and line where a function is entered or returns. -/
def resolveFunction? (context : ScriptContext) (name : String) (onReturn : Bool) :
    Option (String × Nat) := do
  let nodes ← (context.includes.findProgram context.host context.program).toOption
  let function ← Node.findFunction? nodes name
  let file := function.location.file
  if onReturn then return (file, function.returnLine)
  else return (file, (context.resolveLine file function.location.first.line).line)

/-- What a breakpoint is bound to, and why it cannot be. -/
def bind (context : ScriptContext) : BreakpointTarget → BreakpointKind × Option String
  | .line file line column logMessage =>
    let resolution := context.resolveLine file line
    let target : LineTarget :=
      { file, line := resolution.line, column, verified := resolution.verified
        requestedLine := line }
    (match logMessage with
      | some message => .log target message
      | none => .line target,
      if resolution.verified then none
      else some ("no executable code at or after line " ++ toString line))
  | .function name onReturn =>
    let location := context.resolveFunction? name onReturn
    let target : FunctionTarget := { name, location }
    (if onReturn then .return target else .function target,
      if location.isSome then none
      else some (DebugError.unresolved ("function \x60" ++ name ++ "\x60")).message)
  | .exception => (.exception, none)

end ScriptContext

/-- Breakpoints in the order of their ids. -/
structure BreakpointTable where
  /-- The breakpoints. -/
  breakpoints : List Breakpoint
  /-- The id of the next breakpoint. -/
  nextId : Nat

/-- An operation on the table. -/
abbrev TableOperation (α : Type) := Operation BreakpointTable α

namespace BreakpointTable

/-- A table without breakpoints. -/
def empty : BreakpointTable := { breakpoints := [], nextId := 1 }

/-- The breakpoint with an id. -/
def get? (table : BreakpointTable) (id : Nat) : Option Breakpoint :=
  table.breakpoints.find? fun breakpoint => breakpoint.id == id

/-- The breakpoints that are bound to a line of a file. -/
def atLine (table : BreakpointTable) (file : String) (line : Nat) : List Breakpoint :=
  table.breakpoints.filter fun breakpoint => breakpoint.isAt file line

/-- The breakpoint on exceptions, if there is one. -/
def exception? (table : BreakpointTable) : Option Breakpoint :=
  table.breakpoints.find? fun breakpoint => breakpoint.kind == .exception

/-- The table with one more breakpoint. -/
def add (table : BreakpointTable) (breakpoint : Breakpoint) : BreakpointTable :=
  { table with breakpoints := table.breakpoints ++ [breakpoint] }

/-- The table without a breakpoint. -/
def without (table : BreakpointTable) (id : Nat) : BreakpointTable :=
  { table with breakpoints := table.breakpoints.filter fun breakpoint => breakpoint.id != id }

/-- Takes the next id. -/
def takeId : TableOperation Nat := do
  let table ← get
  set { table with nextId := table.nextId + 1 }
  return table.nextId

/-- The line to which the engine has bound a breakpoint, if it says so. -/
def engineLine? (engineId : Nat) : TableOperation (Option Nat) := do
  match ← Operation.attempt ((Command.named "breakpoint_get").argNat 'd' engineId) with
  | .ok response => return response.breakpoints.head?.bind EngineBreakpoint.line
  | .error _ => return none

/-- Gives a breakpoint to the engine. -/
def install (breakpoint : Breakpoint) (hit : Option HitCondition) : TableOperation Breakpoint := do
  match ← Operation.attempt (breakpoint.setCommand hit) with
  | .error error => return breakpoint.rejected error.text
  | .ok response =>
    match response.breakpointId? with
    | none => return breakpoint.rejected "engine did not return a breakpoint id"
    | some engineId =>
      let breakpoint := { breakpoint with engineId := some engineId }
      match ← engineLine? engineId with
      | some line => return { breakpoint with kind := breakpoint.kind.movedTo line }
      | none => return breakpoint

/-- Gives a breakpoint to the engine if there is a place for it and its conditions can be said. -/
def offer (breakpoint : Breakpoint) : TableOperation Breakpoint := do
  if !breakpoint.kind.isInstallable then return breakpoint
  else
    match HitCondition.parse (breakpoint.hitCondition.getD "") with
    | .ok hit => install breakpoint hit
    | .error error => return breakpoint.rejected error.message

/-- Makes a new breakpoint. -/
def create (context : ScriptContext) (request : BreakpointRequest) : TableOperation Breakpoint := do
  let id ← takeId
  let (kind, message) := context.bind request.target
  let breakpoint ← offer
    { id, engineId := none, enabled := request.enabled, temporary := request.temporary
      condition := request.condition, hitCondition := request.hitCondition, kind, message }
  modify fun table => table.add breakpoint
  return breakpoint

/-- Sets a breakpoint.  There is never more than one on exceptions. -/
def setBreakpoint (context : ScriptContext) (request : BreakpointRequest) :
    TableOperation Breakpoint := do
  let table ← get
  match if request.target == .exception then table.exception? else none with
  | some existing => return existing
  | none => create context request

/-- Sets breakpoints in order. -/
def setAll (context : ScriptContext) : List BreakpointRequest → TableOperation (List Breakpoint)
  | [] => return []
  | request :: rest => do
    let breakpoint ← setBreakpoint context request
    return breakpoint :: (← setAll context rest)

/-- Removes a breakpoint; an id that no breakpoint has is no failure.  That the engine no longer
knows it is none either. -/
def removeById (id : Nat) : TableOperation (List Breakpoint) := do
  let table ← get
  match table.get? id with
  | none => return []
  | some breakpoint =>
    if let some engineId := breakpoint.engineId then
      match ← Operation.attempt ((Command.named "breakpoint_remove").argNat 'd' engineId) with
      | .ok _ => pure ()
      | .error error =>
        if error.code != EngineError.noSuchBreakpoint then throw (.engine error)
    modify fun table => table.without id
    return [breakpoint]

/-- Removes breakpoints in order. -/
def removeAll : List Nat → TableOperation (List Breakpoint)
  | [] => return []
  | id :: rest => do
    let removed ← removeById id
    return removed ++ (← removeAll rest)

/-- Removes the breakpoints of which something holds. -/
def removeWhere (p : BreakpointKind → Bool) : TableOperation (List Breakpoint) := do
  removeAll (((← get).breakpoints.filter fun breakpoint => p breakpoint.kind).map Breakpoint.id)

/-- Removes the breakpoints on lines of a file. -/
def removeByFile (file : String) : TableOperation (List Breakpoint) :=
  removeWhere fun kind => kind.isIn file

/-- Removes the breakpoints on functions. -/
def removeFunctions : TableOperation (List Breakpoint) := removeWhere BreakpointKind.isFunction

/-- Replaces the breakpoints on lines of a file. -/
def setLines (context : ScriptContext) (file : String) (requests : List BreakpointRequest) :
    TableOperation (List Breakpoint) := do
  let _ ← removeByFile file
  setAll context requests

/-- Turns stopping on exceptions on or off. -/
def setException (context : ScriptContext) (enable : Bool) :
    TableOperation (Option Breakpoint) := do
  let table ← get
  match enable, table.exception? with
  | true, some existing => return some existing
  | true, none => return some (← setBreakpoint context (.plain .exception))
  | false, some existing =>
    let _ ← removeById existing.id
    return none
  | false, none => return none

end BreakpointTable
end DebugBridge
