import DebugBridge.Debugger.Connection
import DebugBridge.Debugger.Inspection

/-!
What a front end asks of a debugger.
-/

namespace DebugBridge
namespace Debugger

/-- What is wanted by a front end for a line of a file. -/
def sourceRequest (path : String) (wanted : SourceBreakpoint) : BreakpointRequest :=
  let request := (BreakpointRequest.line path wanted.line.toNat).withCondition wanted.condition
  ((request.withHitCondition wanted.hitCondition).withColumn
    (wanted.column.map UInt32.toNat)).withLogMessage wanted.logMessage

/-- Replaces the breakpoints on lines of a source. -/
def setBreakpoints (request : BreakpointsRequest) : DebuggerOperation (List BreakpointReport) := do
  match request.source.path with
  | none => throw (.unresolved "a source without a path")
  | some path =>
    let context := (← get).script
    let requests := request.breakpoints.map (sourceRequest path)
    let set ← whenConnected "set breakpoints"
      (Link.onBreakpoints (BreakpointTable.setLines context path requests))
    return set.map Breakpoint.report

/-- What is wanted by a front end for a function; a name with a pair of parentheses at its end means
its return. -/
def namedRequest (wanted : FunctionBreakpoint) : BreakpointRequest :=
  let name := Text.trim wanted.name.toList
  let request := match Text.beforeEnd "()".toList name with
    | some name => BreakpointRequest.function (String.ofList (Text.trim name)) true
    | none => BreakpointRequest.function (String.ofList name) false
  (request.withCondition wanted.condition).withHitCondition wanted.hitCondition

/-- Replaces the breakpoints on functions. -/
def setFunctionBreakpoints (wanted : List FunctionBreakpoint) :
    DebuggerOperation (List BreakpointReport) := do
  let context := (← get).script
  let set ← whenConnected "set function breakpoints" (Link.onBreakpoints do
    let _ ← BreakpointTable.removeFunctions
    BreakpointTable.setAll context (wanted.map namedRequest))
  return set.map Breakpoint.report

/-- Turns stopping on exceptions on or off. -/
def setExceptionBreakpoints (filters : List String) :
    DebuggerOperation (List BreakpointReport) := do
  let context := (← get).script
  let set ← whenConnected "set exception breakpoints"
    (Link.onBreakpoints (BreakpointTable.setException context (filters.contains exceptionFilter)))
  return set.toList.map Breakpoint.report

/-- The frames of the stack. -/
def stackTrace : DebuggerOperation (List StackFrame) :=
  whenConnected "read the stack" Link.stackTrace

/-- The groups of variables of a frame. -/
def scopes (frame : Int) : DebuggerOperation (List Scope) :=
  whenConnected "read scopes" (Link.scopes frame)

/-- The variables in something. -/
def variablesIn (reference : Int) : DebuggerOperation (List Variable) :=
  whenConnected "read variables" (Link.variablesIn reference)

/-- The value of an expression. -/
def evaluate (request : EvaluateRequest) : DebuggerOperation EvaluateResult :=
  whenConnected "evaluate" (Link.evaluate request)

/-- The names that complete the word at the end of a text. -/
def completions (text : String) (frame : Option Int) : DebuggerOperation (List CompletionItem) :=
  whenConnected "complete" (Link.completions text frame)

end Debugger
end DebugBridge
