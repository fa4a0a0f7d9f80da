import DebugBridge.Debugger.Basic
import DebugBridge.Protocol.View

/-!
What the debugger knows as data, for those who want to look at it.
-/

namespace DebugBridge

/-- A file and a line as data. -/
def Value.place : Option (String × Nat) → Value :=
  .ofOption fun (file, line) => .list [.text file, .natural line]

/-- What an engine says about itself as members of a record. -/
def EngineFeatures.members (features : EngineFeatures) : List (String × Value) :=
  [("supports_async", .boolean features.supportsAsync),
    ("language_version", .ofOption .text features.languageVersion),
    ("breakpoint_types", .texts features.breakpointTypes),
    ("engine_version", .ofOption .text (features.version?.map fun
      | .v1 => "V1"
      | .v2 => "V2"))]

namespace BreakpointKind

/-- The name of a kind. -/
def name : BreakpointKind → String
  | .line _ => "line"
  | .log _ _ => "log"
  | .function _ => "function"
  | .return _ => "return"
  | .exception => "exception"

/-- What a kind says of its target. -/
def members (kind : BreakpointKind) : List (String × Value) :=
  match kind.lineTarget?, kind.functionTarget? with
  | some target, _ => [("bound", .boolean target.verified),
      ("unverified_line", .natural target.requestedLine),
      ("character", .ofOption .natural target.column)]
  | none, some target => [("name", .text target.name)]
  | none, none => []

end BreakpointKind

/-- A breakpoint as data. -/
def Breakpoint.toValue (breakpoint : Breakpoint) : Value :=
  .record ([("id", .natural breakpoint.id), ("engine_id", .ofOption .natural breakpoint.engineId),
    ("state", .text (if breakpoint.enabled then "enabled" else "disabled")),
    ("temporary", .boolean breakpoint.temporary),
    ("condition", .ofOption .text breakpoint.condition),
    ("hit_condition", .ofOption .text breakpoint.hitCondition),
    ("message", .ofOption .text breakpoint.message), ("verified", .boolean breakpoint.verified),
    ("location", .place breakpoint.location?),
    ("log_message", .ofOption .text breakpoint.kind.logMessage?),
    ("response", breakpoint.report.toValue), ("kind", .text breakpoint.kind.name)] ++
    breakpoint.kind.members)

/-- Where the script is, as data. -/
def ExecutionStatus.toValue (status : ExecutionStatus) : Value :=
  .record [("state", .text status.state.name), ("reason", .text status.reason.name),
    ("stop_reason", .ofOption .text (status.stopReason.map StopReason.name)),
    ("location", .place status.location),
    ("hit_breakpoint_ids", .list (status.hitBreakpointIds.map Value.natural)),
    ("exception_message", .ofOption .text status.exceptionMessage),
    ("stopped_event", .ofOption StoppedEvent.toValue status.stoppedEvent?)]

/-- Details of an exception as data. -/
def ExceptionDetails.toValue (details : ExceptionDetails) : Value :=
  .record [("exception_id", .ofOption .text details.kind), ("message", .text details.message),
    ("location", .place details.location)]

end DebugBridge
