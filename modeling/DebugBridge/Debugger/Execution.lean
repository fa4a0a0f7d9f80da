import DebugBridge.Debugger.Basic
import DebugBridge.Debugger.LogMessage

/-!
Letting the script go on.  A continuation ends when the engine reports a state.  Where the script
stops at nothing but logpoints, their messages are printed and it goes on at once.
-/

namespace DebugBridge
namespace Link

/-- Takes back all numbers that were handed out: they mean nothing once the script goes on. -/
def forgetStop : LinkOperation Unit :=
  modify fun link => { link with frameNumbers := .empty, scopeNumbers := .empty, lastStop := none }

/-- The element that tells of an exception, whatever its namespace. -/
def exceptionElement? (element : Element) : Option Element :=
  element.children.find? fun child =>
    child.name == "message" || (Text.beforeEnd ":message".toList child.name.toList).isSome

/-- File and line of the innermost frame. -/
def topLocation? : LinkOperation (Option (String × Nat)) := do
  match ← Operation.attempt ((Command.named "stack_get").argNat 'd' 0) with
  | .ok response =>
    return response.frames.head?.map fun frame => (Uri.toPath frame.fileUri, frame.line)
  | .error _ => return none

/-- The text of a part of a message. -/
def segmentText : LogSegment → LinkOperation String
  | .text content => return content
  | .expression source => do
    match ← Operation.attempt (((Command.named "property_get").argNat 'd' 0).arg 'n' source) with
    | .ok response =>
      let properties ← Operation.orThrow response.properties
      return (properties.head?.map Property.displayValue).getD ""
    | .error error => return "<" ++ error.text ++ ">"

/-- The text of a message, its expressions being replaced by their values. -/
def segmentsText : List LogSegment → LinkOperation String
  | [] => return ""
  | segment :: rest => do
    let first ← segmentText segment
    return first ++ (← segmentsText rest)

/-- A text that ends with a line break. -/
def endedLine (text : String) : String :=
  if text.toList.getLast? == some '\n' then text else text ++ "\n"

/-- Prints messages. -/
def printMessages : List String → LinkOperation Unit
  | [] => return ()
  | message :: rest => do
    let text ← segmentsText (LogMessage.parse message)
    Operation.report (.message (endedLine text))
    printMessages rest

/-- What is found where the script has stopped. -/
structure Stop where
  /-- Where it is. -/
  status : ExecutionStatus
  /-- Whether an exception was raised. -/
  isException : Bool
  /-- Messages of the logpoints there. -/
  messages : List String
  /-- The other breakpoints there. -/
  hits : List Breakpoint

/-- What is found where the script has stopped, according to an answer. -/
def findStop (response : Response) (state : RunState) (reason : StatusReason) :
    LinkOperation Stop := do
  let message := (exceptionElement? response.element).map fun element => Text.trimmed element.text
  let location ← topLocation?
  let link ← get
  let found := match location with
    | some (file, line) => link.breakpoints.atLine file line
    | none => []
  let hits := found.filter fun breakpoint => breakpoint.kind.logMessage?.isNone
  return {
    status := { state, reason, stopReason := none, location
                hitBreakpointIds := hits.map Breakpoint.id, exceptionMessage := message }
    isException := message.isSome || reason == .exception
    messages := found.filterMap fun breakpoint => breakpoint.kind.logMessage?
    hits }

/-- Why the script has stopped. -/
def Stop.reason (stop : Stop) (continuation : Continuation) : StopReason :=
  if stop.isException then .exception
  else if continuation == .continue && !stop.hits.isEmpty then
    if stop.hits.all fun breakpoint => breakpoint.kind.isFunction then .functionBreakpoint
    else .breakpoint
  else
    match continuation with
    | .continue | .pause => .pause
    | _ => .step

/-- Lets the script go on until it stops for good, going on at logpoints at most `turns` times. -/
def execute (continuation : Continuation) : (turns : Nat) → LinkOperation ExecutionStatus
  | 0 => Operation.stuck
  | turns + 1 => do
    forgetStop
    let response ← Operation.command (Command.named continuation.commandName)
    match response.status? with
    | none => throw (.session (.protocol (.missingAttribute "response" "status")))
    | some state =>
      let reason := response.reason?.getD .ok
      if state != .break then
        return { state, reason, stopReason := none, location := none, hitBreakpointIds := []
                 exceptionMessage := none }
      else
        let stop ← findStop response state reason
        let logging := continuation == .continue && !stop.isException && !stop.messages.isEmpty
        if logging then printMessages stop.messages
        if logging && stop.hits.isEmpty then execute continuation turns
        else
          modify fun link => { link with lastStop := some response }
          return { stop.status with stopReason := some (stop.reason continuation) }

end Link

namespace Debugger

/-- How often the script goes on at logpoints: more often than any script does. -/
def turnLimit : Nat := 0x10000000000000000

/-- Lets the script go on.  The phase afterwards is the state that the engine reported; if it
failed to report one, the state from before. -/
def execute (continuation : Continuation) : DebuggerOperation ExecutionStatus := do
  let state ← connectedState continuation.operation
  if state == .stopped || (state == .stopping && continuation != .stop) then
    throw (.wrongPhase continuation.operation (← currentPhase).text)
  let link ← knownLink
  setPhase (.connected .running)
  try
    let status ← onLink link (Link.execute continuation turnLimit)
    setPhase (.connected status.state)
    return status
  catch error =>
    setPhase (if error.isClosed then .closed else .connected state)
    throw error

/-- Starts the script once the front end is ready, possibly only to its first line. -/
def configurationDone : DebuggerOperation ExecutionStatus := do
  let debugger ← get
  if !debugger.config.stopOnEntry then execute .continue
  else
    let status ← execute .stepIn
    return if status.stopReason == some .step then { status with stopReason := some .entry }
      else status

/-- Breaks into a script that is running.  An engine that reads no interrupts reads the command
when the one before has been answered. -/
def breakIn (supportsAsync : Bool) : Operation σ Unit := do
  let command := Command.named Continuation.pause.commandName
  let result : Except SessionError Response ←
    if supportsAsync then Operation.ask (.interrupt command)
    else Operation.ask (.submit command none)
  match result with
  | .ok _ => return ()
  | .error error => throw (.ofSession error)

/-- The exception on which the script has stopped, if it has. -/
def exceptionDetails? (debugger : Debugger) : Option ExceptionDetails := do
  let response ← (← debugger.link).lastStop
  match Link.exceptionElement? response.element with
  | some element =>
    return { kind := element.attr? "exception", message := Text.trimmed element.text
             location := (element.attr? "filename").map fun uri =>
               (Uri.toPath uri, (element.word? "lineno").getD 0) }
  | none =>
    if response.reason? == some .exception then
      return { kind := none, message := "", location := none }
    else none

end Debugger
end DebugBridge
