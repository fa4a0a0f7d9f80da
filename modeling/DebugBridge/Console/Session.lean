import DebugBridge.Console.Command
import DebugBridge.Console.Line
import DebugBridge.Debugger.Course
import DebugBridge.Debugger.Requests

/-!
A session at the console.  It starts the debugger, lets the script go on, and then performs one
command after another until the script has ended, the debugging is ended, or no more lines come.
While the script runs, a line can do nothing but break into it.
-/

namespace DebugBridge

/-- What an operation of the session comes to. -/
inductive ConsoleOutcome where
  /-- The debugger has started, or failed to. -/
  | started (result : Except DebugError Unit)
  /-- The script has stopped, or could not go on. -/
  | stopped (result : Except DebugError ExecutionStatus)
  /-- A command has been answered. -/
  | answered (line : ConsoleLine)
  /-- The debugging has been ended by a command. -/
  | parted
  /-- Everything is over. -/
  | closed

/-- An operation of the session on its way. -/
abbrev ConsoleCourse := Course (ConsoleOutcome × Debugger)

/-- What the session is doing. -/
inductive ConsoleActivity where
  /-- It performs an operation.  Where that can be broken into, it is known whether the engine reads
  interrupts. -/
  | busy (course : ConsoleCourse) (pauser : Option Bool)
  /-- It breaks into an operation, which goes on afterwards. -/
  | pausing (course : ConsoleCourse) (pauser : Bool)
      (pause : Course (Except DebugError Unit × Unit))
  /-- It waits for a line. -/
  | reading (debugger : Debugger)
  /-- It has ended, with an error if the debugger could not be started. -/
  | over (failure : Option DebugError)

/-- A session at the console. -/
structure ConsoleSession where
  /-- What it is doing. -/
  activity : ConsoleActivity
  /-- What surrounds the debugger. -/
  surroundings : Surroundings
  /-- The lines that have not been read yet. -/
  unread : List String
  /-- Whether more lines may come. -/
  isOpen : Bool
  /-- The lines that have been written. -/
  written : List ConsoleLine

namespace ConsoleSession

/-- An operation with what it comes to. -/
def outcomeOf (operation : DebuggerOperation α) (make : Except DebugError α → ConsoleOutcome)
    (debugger : Debugger) : Talk (ConsoleOutcome × Debugger) := do
  let (result, debugger) ← operation.run.run debugger
  return (make result, debugger)

/-- An operation whose result answers a command. -/
def answering (command : ConsoleCommand) (operation : DebuggerOperation α) (write : α → Value) :
    Debugger → Talk (ConsoleOutcome × Debugger) :=
  outcomeOf operation fun result =>
    .answered (.answer command.name ((result.map write).mapError DebugError.message))

/-- A list as the only member of a body. -/
def listBody (name : String) (write : α → Value) (items : List α) : Value :=
  .record [(name, .listOf write items)]

/-- The stack as a body. -/
def stackBody (frames : List StackFrame) : Value :=
  .record [("stackFrames", .listOf StackFrame.toValue frames),
    ("totalFrames", .natural frames.length)]

/-- An exception as a body. -/
def exceptionBody (details : ExceptionDetails) : Value :=
  .record [("exceptionId", .ofOption .text details.kind), ("description", .text details.message),
    ("breakMode", .text "always")]

/-- Breakpoints on lines of a file. -/
def linesRequest (file : String) (lines : List UInt32) : BreakpointsRequest :=
  { source := SourceInfo.ofPath file
    breakpoints := lines.map fun line =>
      { line, column := none, condition := none, hitCondition := none, logMessage := none } }

/-- A function to break on. -/
def functionRequest (name : String) : FunctionBreakpoint :=
  { name, condition := none, hitCondition := none }

/-- What is asked to evaluate an expression. -/
def evaluateRequest (expression : String) : EvaluateRequest :=
  { expression, frameId := none, context := some "repl" }

/-- The continuation that a command means, if it does. -/
def continuation? : ConsoleCommand → Option Continuation
  | .continue => some .continue
  | .next => some .next
  | .stepIn => some .stepIn
  | .stepOut => some .stepOut
  | .pause => some .pause
  | _ => none

/-- Performs a command. -/
def perform (command : ConsoleCommand) : Debugger → Talk (ConsoleOutcome × Debugger) :=
  let answer := fun {α : Type} => answering (α := α) command
  let reports := listBody "breakpoints" BreakpointReport.toValue
  match command with
  | .continue => outcomeOf (Debugger.execute .continue) .stopped
  | .next => outcomeOf (Debugger.execute .next) .stopped
  | .stepIn => outcomeOf (Debugger.execute .stepIn) .stopped
  | .stepOut => outcomeOf (Debugger.execute .stepOut) .stopped
  | .pause => outcomeOf (Debugger.execute .pause) .stopped
  | .disconnect => outcomeOf Debugger.close fun _ => .parted
  | .threads => answer (return Debugger.threads) (listBody "threads" ThreadInfo.toValue)
  | .stackTrace => answer Debugger.stackTrace stackBody
  | .scopes frame => answer (Debugger.scopes frame.toInt) (listBody "scopes" Scope.toValue)
  | .variablesIn reference =>
    answer (Debugger.variablesIn reference.toInt) (listBody "variables" Variable.toValue)
  | .evaluate expression =>
    answer (Debugger.evaluate (evaluateRequest expression)) EvaluateResult.toValue
  | .completions text =>
    answer (Debugger.completions text none) (listBody "targets" CompletionItem.toValue)
  | .loadedSources =>
    answer (do ExceptT.mk (return (← get).loadedSources)) (listBody "sources" SourceInfo.toValue)
  | .exceptionInfo =>
    answer (return (← get).exceptionDetails?) (Value.ofOption exceptionBody)
  | .breakpoints => answer (return (← get).breakpoints.map Breakpoint.report) reports
  | .setBreakpoints file lines => answer (Debugger.setBreakpoints (linesRequest file lines)) reports
  | .setFunctionBreakpoints names =>
    answer (Debugger.setFunctionBreakpoints (names.map functionRequest)) reports
  | .setExceptionBreakpoints filters => answer (Debugger.setExceptionBreakpoints filters) reports

/-- Writes a line. -/
def write (session : ConsoleSession) (line : ConsoleLine) : ConsoleSession :=
  { session with written := session.written ++ [line] }

/-- Writes lines for the events that were reported. -/
def writeEvents (session : ConsoleSession) : ConsoleSession :=
  let surroundings := session.surroundings
  { session with
    surroundings := { surroundings with events := [] }
    written := session.written ++ surroundings.events.filterMap ConsoleLine.ofEvent? }

/-- Starts an operation. -/
def start (session : ConsoleSession) (talk : Talk (ConsoleOutcome × Debugger))
    (pauser : Option Bool) : ConsoleSession :=
  let (course, surroundings) := Course.start talk session.surroundings
  { session with activity := .busy course pauser, surroundings }

/-- Whether the engine of a debugger reads interrupts, if there is one. -/
def pauserOf (debugger : Debugger) : Option Bool :=
  debugger.link.map fun link => link.features.supportsAsync

/-- Ends the debugging. -/
def finish (session : ConsoleSession) (debugger : Debugger) : ConsoleSession :=
  session.start (outcomeOf Debugger.close (fun _ => .closed) debugger) none

/-- Goes on after the script has stopped, or after it could not go on. -/
def afterStop (session : ConsoleSession) (debugger : Debugger) :
    Except DebugError ExecutionStatus → ConsoleSession
  | .ok status =>
    let session := match status.stoppedEvent? with
      | some event => session.write (.event "stopped" (some event.toValue))
      | none => session
    if status.state == .stopping || status.state == .stopped then session.finish debugger
    else { session with activity := .reading debugger }
  | .error error =>
    if error.isClosed then session.finish debugger
    else
      { session.write (.answer "continue" (.error error.message)) with
        activity := .reading debugger }

/-- Goes on after an operation. -/
def after (session : ConsoleSession) (debugger : Debugger) : ConsoleOutcome → ConsoleSession
  | .started (.error error) => { session with activity := .over (some error) }
  | .started (.ok ()) =>
    session.start (outcomeOf Debugger.configurationDone .stopped debugger) (pauserOf debugger)
  | .stopped result => session.afterStop debugger result
  | .answered line => { session.write line with activity := .reading debugger }
  | .parted => (session.write (.done ConsoleCommand.disconnect.name)).finish debugger
  | .closed => { session with activity := .over none }

/-- The first word of a line. -/
def firstWord (line : String) : String :=
  String.ofList ((Text.words line.toList).headD [])

/-- Reads a line while nothing is being performed. -/
def readLine (session : ConsoleSession) (debugger : Debugger) (line : String) : ConsoleSession :=
  if Text.isBlankText line then session
  else
    match ConsoleCommand.parse line with
    | .error fault => session.write (.answer (firstWord line) (.error fault.message))
    | .ok command =>
      let pauser := match command with
        | .continue | .next | .stepIn | .stepOut => pauserOf debugger
        | _ => none
      session.start (perform command debugger) pauser

/-- Reads a line while the script is running. -/
def readWhileRunning (session : ConsoleSession) (course : ConsoleCourse) (pauser : Bool)
    (line : String) : ConsoleSession :=
  match ConsoleCommand.parse line with
  | .error fault => session.write (.answer "" (.error fault.message))
  | .ok .pause =>
    let talk := (Debugger.breakIn pauser : Operation Unit Unit).run.run ()
    let (pause, surroundings) := Course.start talk session.surroundings
    { session with activity := .pausing course pauser pause, surroundings }
  | .ok command => session.write (.answer command.name (.error "the script is running"))

/-- The answer to a command that breaks in. -/
def pauseLine (result : Except DebugError Unit) : ConsoleLine :=
  match result with
  | .ok () => .done ConsoleCommand.pause.name
  | .error error => .answer ConsoleCommand.pause.name (.error error.message)

/-- Reads the next line, if there is one and it can be read. -/
def takeLine (session : ConsoleSession) : ConsoleSession :=
  match session.activity, session.unread with
  | .reading debugger, line :: rest => { session with unread := rest }.readLine debugger line
  | .reading debugger, [] => if session.isOpen then session else session.finish debugger
  | .busy course (some pauser), line :: rest =>
    { session with unread := rest }.readWhileRunning course pauser line
  | _, _ => session

/-- Lets everything go on once. -/
def turn (session : ConsoleSession) : ConsoleSession :=
  let session := { session with surroundings := session.surroundings.supervise }.writeEvents
  match session.activity with
  | .busy course pauser =>
    let (course, surroundings) := course.resume session.surroundings
    let session := { session with surroundings, activity := .busy course pauser }.writeEvents
    match course.result? with
    | some (outcome, debugger) => session.after debugger outcome
    | none => session.takeLine
  | .pausing course pauser pause =>
    let (pause, surroundings) := pause.resume session.surroundings
    let session := { session with surroundings }.writeEvents
    match pause.result? with
    | some (result, ()) =>
      { session.write (pauseLine result) with activity := .busy course (some pauser) }
    | none => { session with activity := .pausing course pauser pause }
  | .reading _ => session.takeLine
  | .over _ => session

/-- Lets everything go on for a number of turns. -/
def turns : (count : Nat) → ConsoleSession → ConsoleSession
  | 0, session => session
  | count + 1, session => session.turn.turns count

/-- Lets everything go on until nothing more can happen at this moment.  A line takes no more than
a few turns, and so do the beginning and the end. -/
def settle (session : ConsoleSession) : ConsoleSession :=
  session.turns (4 * session.unread.length + 12)

/-- A session for some settings, which has written its first line and is starting the debugger. -/
def begin (host : Host) (config : DebugConfig) : ConsoleSession :=
  let (course, surroundings) := Course.start
    (outcomeOf Debugger.start .started (Debugger.new config host)) (Surroundings.initial host)
  settle {
    activity := .busy course none, surroundings, unread := [], isOpen := true
    written := [.event "initialized" (some Debugger.capabilities.toValue)] }

/-- A line comes. -/
def giveLine (session : ConsoleSession) (line : String) : ConsoleSession :=
  settle { session with unread := session.unread ++ [line] }

/-- No more lines come. -/
def closeInput (session : ConsoleSession) : ConsoleSession :=
  settle { session with isOpen := false }

/-- Whether the session has ended. -/
def isOver (session : ConsoleSession) : Bool :=
  match session.activity with
  | .over _ => true
  | _ => false

/-- The earliest time at which waiting is over for someone. -/
def nextDeadline? (session : ConsoleSession) : Option Nat :=
  let own := match session.activity with
    | .busy course _ => course.deadline?.toList
    | .pausing course _ pause => course.deadline?.toList ++ pause.deadline?.toList
    | _ => []
  let surroundings := session.surroundings
  (own ++ surroundings.supervisionDeadline?.toList ++ surroundings.processDeadline?.toList ++
    surroundings.client.callers.filterMap Caller.deadline).min?

/-- Moves the clock to a time. -/
def moveTo (session : ConsoleSession) (time : Nat) : ConsoleSession :=
  let surroundings := session.surroundings
  settle { session with surroundings := surroundings.advance (time - surroundings.clock) }

/-- Lets time pass until the session has ended or only a line can help; at most a number of
times. -/
def await : (times : Nat) → ConsoleSession → ConsoleSession
  | 0, session => session
  | times + 1, session =>
    if session.isOver then session
    else
      match session.nextDeadline? with
      | some time => (session.moveTo time).await times
      | none => session

end ConsoleSession
end DebugBridge
