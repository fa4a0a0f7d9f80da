import DebugBridge.Config.Basic
import DebugBridge.Debugger.Breakpoint.Table
import DebugBridge.Debugger.Features
import DebugBridge.Debugger.Handles

/-!
The debugger of one script.  It goes through phases: idle at first, then starting or attaching,
then connected with a state that the engine reported, and closed in the end.  What it knows of the
engine while it is connected is its link.
-/

namespace DebugBridge

/-- Where the debugger is in its life. -/
inductive Phase where
  /-- Nothing has happened. -/
  | idle
  /-- The interpreter is being started. -/
  | launching
  /-- A running script is being asked to connect. -/
  | attaching
  /-- Connected, with the state that the engine reported last. -/
  | connected (state : RunState)
  /-- Over. -/
  | closed
  deriving DecidableEq, Repr

/-- A phase in words. -/
def Phase.text : Phase → String
  | .idle => "idle"
  | .launching => "launching"
  | .attaching => "attaching"
  | .connected state => "connected (" ++ state.name ++ ")"
  | .closed => "closed"

/-- A command that lets the script go on, or ends it. -/
inductive Continuation where
  /-- On to the next breakpoint. -/
  | continue
  /-- On to the next line. -/
  | next
  /-- On to the next line, also in another function. -/
  | stepIn
  /-- Out of the function. -/
  | stepOut
  /-- Stop where it is. -/
  | pause
  /-- End. -/
  | stop
  deriving DecidableEq, Repr

namespace Continuation

/-- The engine's name for the command. -/
def commandName : Continuation → String
  | .continue => "run"
  | .next => "step_over"
  | .stepIn => "step_into"
  | .stepOut => "step_out"
  | .pause => "break"
  | .stop => "stop"

/-- The command in words. -/
def operation : Continuation → String
  | .continue => "continue"
  | .next => "step over"
  | .stepIn => "step in"
  | .stepOut => "step out"
  | .pause => "pause"
  | .stop => "stop"

end Continuation

/-- Where the script is after a continuation. -/
structure ExecutionStatus where
  /-- The state that the engine reported. -/
  state : RunState
  /-- The reason that the engine gave. -/
  reason : StatusReason
  /-- Why it has stopped, if it has. -/
  stopReason : Option StopReason
  /-- File and line where it has stopped. -/
  location : Option (String × Nat)
  /-- The breakpoints that made it stop. -/
  hitBreakpointIds : List Nat
  /-- The message of the exception that made it stop. -/
  exceptionMessage : Option String
  deriving DecidableEq, Repr

/-- The number of the only thread. -/
def threadId : Int64 := 1

/-- The event that tells the front end that the script has stopped. -/
def ExecutionStatus.stoppedEvent? (status : ExecutionStatus) : Option StoppedEvent :=
  status.stopReason.map fun reason =>
    { reason, description := none, threadId := some threadId, text := status.exceptionMessage
      hitBreakpointIds := status.hitBreakpointIds.map UInt32.ofNat }

/-- The exception on which the script has stopped. -/
structure ExceptionDetails where
  /-- Its class. -/
  kind : Option String
  /-- Its message. -/
  message : String
  /-- File and line. -/
  location : Option (String × Nat)
  deriving DecidableEq, Repr

/-- Something with variables in it. -/
inductive VariableScope where
  /-- A group of variables of a frame. -/
  | context (depth contextId : Nat)
  /-- The children of a property; without a group the engine chooses one. -/
  | property (depth : Nat) (contextId : Option Nat) (fullName : String)
  deriving DecidableEq, Repr

/-- What is known of an engine that is connected. -/
structure Link where
  /-- Whether the script was started for debugging. -/
  mode : RequestKind
  /-- Whether there is a process of its own. -/
  launched : Bool
  /-- The engine's greeting. -/
  init : InitPacket
  /-- What the engine can do. -/
  features : EngineFeatures
  /-- The breakpoints. -/
  breakpoints : BreakpointTable
  /-- Depths of the frames that have been handed out. -/
  frameNumbers : Handles Nat
  /-- The variables that have been handed out. -/
  scopeNumbers : Handles VariableScope
  /-- The answer with which the script stopped. -/
  lastStop : Option Response

/-- A debugger. -/
structure Debugger where
  /-- The settings. -/
  config : DebugConfig
  /-- The files. -/
  host : Host
  /-- The phase, as long as the session lasts. -/
  phase : Phase
  /-- What is known of the engine. -/
  link : Option Link

/-- An operation on what is known of the engine. -/
abbrev LinkOperation (α : Type) := Operation Link α

/-- An operation of the debugger. -/
abbrev DebuggerOperation (α : Type) := Operation Debugger α

namespace Link

/-- An operation on the breakpoints. -/
def onBreakpoints (operation : TableOperation α) : LinkOperation α :=
  operation.within Link.breakpoints fun breakpoints link => { link with breakpoints }

end Link

namespace Debugger

/-- A debugger with given settings. -/
def new (config : DebugConfig) (host : Host) : Debugger :=
  { config, host, phase := .idle, link := none }

/-- The version of the language that the settings name. -/
def version (debugger : Debugger) : Version := .ofMajor debugger.config.engineVersion

/-- What is known of the script. -/
def script (debugger : Debugger) : ScriptContext :=
  let config := debugger.config
  let includes := IncludeContext.forScript debugger.host config.program debugger.version
  { host := debugger.host
    includes := { includes with runtimePath := some config.runtime }
    program := config.program }

/-- The exception filter of the debugger. -/
def exceptionFilter : String := "exceptions"

/-- What the debugger can do. -/
def capabilities : Capabilities :=
  { configurationDone := some true, functionBreakpoints := some true
    conditionalBreakpoints := some true, hitConditions := some true, logPoints := some true
    hovers := some true, completions := some true, loadedSources := some true
    exceptionInfo := some true, terminate := some true
    exceptionFilters := some [{ filter := exceptionFilter, label := "Thrown exceptions"
                                default := some false }] }

/-- The phase: a connected debugger whose session has ended is closed. -/
def currentPhase : DebuggerOperation Phase := do
  let debugger ← get
  match debugger.phase, debugger.link with
  | .connected state, some _ =>
    if ← Operation.ask .isClosed then return .closed else return .connected state
  | phase, _ => return phase

/-- Sets the phase. -/
def setPhase (phase : Phase) : DebuggerOperation Unit :=
  modify fun debugger => { debugger with phase }

/-- An operation on what is known of the engine, where that is at hand. -/
def onLink (link : Link) (operation : LinkOperation α) : DebuggerOperation α :=
  ExceptT.mk fun debugger => do
    let (result, link) ← operation.run link
    return (result, { debugger with link := some link })

/-- The state of a connected engine. -/
def connectedState (operation : String) : DebuggerOperation RunState := do
  match ← currentPhase with
  | .connected state => return state
  | .closed => throw .notConnected
  | phase => throw (.wrongPhase operation phase.text)

/-- What is known of the engine. -/
def knownLink : DebuggerOperation Link := do
  match (← get).link with
  | some link => return link
  | none => throw .notConnected

/-- An operation that needs a connected engine. -/
def whenConnected (name : String) (operation : LinkOperation α) : DebuggerOperation α := do
  let _ ← connectedState name
  onLink (← knownLink) operation

/-- The breakpoints, in the order of their ids. -/
def breakpoints (debugger : Debugger) : List Breakpoint :=
  match debugger.link with
  | some link => link.breakpoints.breakpoints
  | none => []

/-- The threads of the script. -/
def threads : List ThreadInfo := [{ id := threadId, name := "Main Thread" }]

end Debugger
end DebugBridge
