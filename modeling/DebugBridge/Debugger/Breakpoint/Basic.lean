import DebugBridge.Debugger.HitCondition
import DebugBridge.FrontEnd.Shapes
import DebugBridge.Protocol.Uri

/-!
Breakpoints, what they are bound to, and the command by which the engine is told of them.
-/

namespace DebugBridge

/-- A line that a breakpoint is bound to. -/
structure LineTarget where
  /-- The file. -/
  file : String
  /-- The line. -/
  line : Nat
  /-- The column. -/
  column : Option Nat
  /-- Whether there is code on the line. -/
  verified : Bool
  /-- The line that was asked for. -/
  requestedLine : Nat
  deriving DecidableEq, Repr

/-- A function that a breakpoint is bound to. -/
structure FunctionTarget where
  /-- Name of the function, with or without its class. -/
  name : String
  /-- File and line, if there is such a function. -/
  location : Option (String × Nat)
  deriving DecidableEq, Repr

/-- What a breakpoint is bound to. -/
inductive BreakpointKind where
  /-- A line. -/
  | line (target : LineTarget)
  /-- A line, where a message is printed instead of stopping. -/
  | log (target : LineTarget) (message : String)
  /-- The entry of a function. -/
  | function (target : FunctionTarget)
  /-- The return of a function. -/
  | return (target : FunctionTarget)
  /-- Any exception. -/
  | exception
  deriving DecidableEq, Repr

/-- A breakpoint. -/
structure Breakpoint where
  /-- Its id, which no other breakpoint ever has. -/
  id : Nat
  /-- The engine's id for it, once the engine has it. -/
  engineId : Option Nat
  /-- Whether it is enabled. -/
  enabled : Bool
  /-- Whether it goes away when it is hit. -/
  temporary : Bool
  /-- The condition. -/
  condition : Option String
  /-- The condition on the number of hits. -/
  hitCondition : Option String
  /-- What it is bound to. -/
  kind : BreakpointKind
  /-- Why it cannot be hit. -/
  message : Option String
  deriving DecidableEq, Repr

/-- What a wanted breakpoint is to be bound to. -/
inductive BreakpointTarget where
  /-- A line, where a message may be printed instead of stopping. -/
  | line (file : String) (line : Nat) (column : Option Nat) (logMessage : Option String)
  /-- The entry or the return of a function. -/
  | function (name : String) (onReturn : Bool)
  /-- Any exception. -/
  | exception
  deriving DecidableEq, Repr

/-- A breakpoint that is wanted. -/
structure BreakpointRequest where
  /-- What it is to be bound to. -/
  target : BreakpointTarget
  /-- The condition. -/
  condition : Option String
  /-- The condition on the number of hits. -/
  hitCondition : Option String
  /-- Whether it is to go away when it is hit. -/
  temporary : Bool
  /-- Whether it is enabled. -/
  enabled : Bool
  deriving DecidableEq, Repr

/-- The line target as if nothing were known about it. -/
def LineTarget.unverified (target : LineTarget) : LineTarget :=
  { target with verified := false, line := target.requestedLine }

/-- A line target on the line that the engine chose, if there is code at all. -/
def LineTarget.movedTo (target : LineTarget) (line : Nat) : LineTarget :=
  if target.verified then { target with line } else target

/-- A function target on the line that the engine chose. -/
def FunctionTarget.movedTo (target : FunctionTarget) (line : Nat) : FunctionTarget :=
  { target with location := target.location.map fun (file, _) => (file, line) }

namespace BreakpointKind

/-- The line that a breakpoint on a line is bound to. -/
def lineTarget? : BreakpointKind → Option LineTarget
  | .line target => some target
  | .log target _ => some target
  | _ => none

/-- The function that a breakpoint on a function is bound to. -/
def functionTarget? : BreakpointKind → Option FunctionTarget
  | .function target => some target
  | .return target => some target
  | _ => none

/-- File and line. -/
def location? : BreakpointKind → Option (String × Nat)
  | .line target => some (target.file, target.line)
  | .log target _ => some (target.file, target.line)
  | .function target => target.location
  | .return target => target.location
  | .exception => none

/-- Whether there is something to bind to. -/
def isBound : BreakpointKind → Bool
  | .line target => target.verified
  | .log target _ => target.verified
  | .function target => target.location.isSome
  | .return target => target.location.isSome
  | .exception => true

/-- The message that is printed instead of stopping. -/
def logMessage? : BreakpointKind → Option String
  | .log _ message => some message
  | _ => none

/-- Whether it is a breakpoint on a function. -/
def isFunction (kind : BreakpointKind) : Bool := kind.functionTarget?.isSome

/-- Whether it is a breakpoint on a line of a file. -/
def isIn (kind : BreakpointKind) (file : String) : Bool :=
  kind.lineTarget?.any fun target => Path.sameFile target.file file

/-- Whether the engine can be told of it at all: not of a function that does not exist. -/
def isInstallable (kind : BreakpointKind) : Bool :=
  kind.functionTarget?.all fun target => target.location.isSome

/-- The kind after the engine did not take the breakpoint. -/
def unverified : BreakpointKind → BreakpointKind
  | .line target => .line target.unverified
  | .log target message => .log target.unverified message
  | kind => kind

/-- The kind on the line that the engine chose. -/
def movedTo (kind : BreakpointKind) (line : Nat) : BreakpointKind :=
  match kind with
  | .line target => .line (target.movedTo line)
  | .log target message => .log (target.movedTo line) message
  | .function target => .function (target.movedTo line)
  | .return target => .return (target.movedTo line)
  | .exception => .exception

end BreakpointKind

namespace Breakpoint

/-- Whether the breakpoint can be hit: it is bound and the engine has it. -/
def verified (breakpoint : Breakpoint) : Bool :=
  breakpoint.kind.isBound && breakpoint.engineId.isSome

/-- File and line. -/
def location? (breakpoint : Breakpoint) : Option (String × Nat) := breakpoint.kind.location?

/-- Whether it is bound to a line of a file. -/
def isAt (breakpoint : Breakpoint) (file : String) (line : Nat) : Bool :=
  breakpoint.location?.any fun (other, bound) => bound == line && Path.sameFile other file

/-- The breakpoint as it is reported. -/
def report (breakpoint : Breakpoint) : BreakpointReport :=
  { id := some (UInt32.ofNat breakpoint.id)
    verified := breakpoint.verified
    message := breakpoint.message
    source := breakpoint.location?.map fun (file, _) => SourceInfo.ofPath file
    line := breakpoint.location?.map fun (_, line) => UInt32.ofNat line
    column := (breakpoint.kind.lineTarget?.bind LineTarget.column).map UInt32.ofNat }

/-- The breakpoint after the engine did not take it, with the reason. -/
def rejected (breakpoint : Breakpoint) (reason : String) : Breakpoint :=
  { breakpoint with message := some reason, kind := breakpoint.kind.unverified }

/-- The command that sets the breakpoint. -/
def setCommand (breakpoint : Breakpoint) (hit : Option HitCondition) : Command :=
  let command := Command.named "breakpoint_set"
  let command := match breakpoint.location? with
    | some (file, line) =>
      ((command.arg 't' (if breakpoint.condition.isSome then "conditional" else "line")).arg 'f'
        (Uri.ofPath file)).argNat 'n' line
    | none => command.arg 't' "exception"
  let command := command.arg 's' (if breakpoint.enabled then "enabled" else "disabled")
  let command := if breakpoint.temporary then command.argNat 'r' 1 else command
  let command := match hit with
    | some hit => (command.argNat 'h' hit.value).arg 'o' hit.operator.symbol
    | none => command
  match breakpoint.condition with
  | some condition => command.withData condition
  | none => command

end Breakpoint

namespace BreakpointRequest

/-- An enabled breakpoint without conditions. -/
def plain (target : BreakpointTarget) : BreakpointRequest :=
  { target, condition := none, hitCondition := none, temporary := false, enabled := true }

/-- A breakpoint on a line. -/
def line (file : String) (line : Nat) : BreakpointRequest := plain (.line file line none none)

/-- A breakpoint on a function. -/
def function (name : String) (onReturn : Bool) : BreakpointRequest :=
  plain (.function name onReturn)

/-- A text that is not blank. -/
def unlessBlank (text : String) : Option String := if Text.isBlankText text then none else some text

/-- The request with a condition, if there is one; a blank one is none. -/
def withCondition (request : BreakpointRequest) : Option String → BreakpointRequest
  | some condition => { request with condition := unlessBlank condition }
  | none => request

/-- The request with a condition on the number of hits, if there is one; a blank one is none. -/
def withHitCondition (request : BreakpointRequest) : Option String → BreakpointRequest
  | some condition => { request with hitCondition := unlessBlank condition }
  | none => request

/-- The request with a message instead of stopping; only for lines. -/
def withLogMessage (request : BreakpointRequest) : Option String → BreakpointRequest
  | none => request
  | some message =>
    match request.target with
    | .line file line column _ => { request with target := .line file line column (some message) }
    | _ => request

/-- The request with a column; only for lines. -/
def withColumn (request : BreakpointRequest) : Option Nat → BreakpointRequest
  | none => request
  | some column =>
    match request.target with
    | .line file line _ message => { request with target := .line file line (some column) message }
    | _ => request

end BreakpointRequest
end DebugBridge
