import DebugBridge.Data.Value
import DebugBridge.Protocol.Command
import DebugBridge.Protocol.Packet

/-!
What goes over the connection as data, for those who want to look at it.  How a fault is shown is up
to them.
-/

namespace DebugBridge

/-- A pair of texts as data. -/
def Value.pair (first second : String) : Value := .texts [first, second]

namespace Element

mutual

/-- An element as data. -/
def toValue : Element → Value
  | ⟨name, attributes, children, text⟩ =>
    .record [("name", .text name), ("text", .text text),
      ("attributes", .list (attributes.map fun entry => Value.pair entry.1 entry.2)),
      ("children", .list (toValues children))]

/-- Elements as data. -/
def toValues : List Element → List Value
  | [] => []
  | element :: rest => toValue element :: toValues rest

end

end Element

/-- A command as data. -/
def Command.toValue (command : Command) : Value :=
  .record [("name", .text command.name),
    ("args", .list (command.args.map fun arg => Value.pair (String.singleton arg.1) arg.2)),
    ("data", .ofOption .text command.data)]

/-- The name of a class of errors. -/
def ErrorClass.name : ErrorClass → String
  | .commandParsing => "CommandParsing"
  | .file => "File"
  | .breakpoint => "Breakpoint"
  | .data => "Data"
  | .protocol => "Protocol"
  | .unknown => "Unknown"

/-- An engine's error as data. -/
def EngineError.toValue (error : EngineError) : Value :=
  .record [("command", .text error.command), ("code", .natural error.code),
    ("message", .text error.text), ("class", .text error.errorClass.name),
    ("display", .text error.message)]

/-- A state as data. -/
def RunState.toValue (state : RunState) : Value :=
  .record [("name", .text state.name), ("terminal", .boolean state.isTerminal)]

/-- The name of a reason. -/
def StatusReason.name : StatusReason → String
  | .ok => "Ok"
  | .error => "Error"
  | .aborted => "Aborted"
  | .exception => "Exception"

namespace Property

mutual

/-- A property with everything below it as data. -/
def toValue : Property → Value
  | ⟨name, fullName, kind, className, facet, size, page, pageSize, hasChildren, childCount, value,
      children⟩ =>
    .record [("name", .text name), ("full_name", .text fullName), ("kind", .text kind),
      ("class_name", .ofOption .text className), ("facet", .text facet),
      ("size", .ofOption .natural size),
      ("page", .natural page), ("page_size", .natural pageSize),
      ("has_children", .boolean hasChildren), ("num_children", .natural childCount),
      ("value", .ofOption .text value),
      ("display", .text (displayValue ⟨name, fullName, kind, className, facet, size, page, pageSize,
        hasChildren, childCount, value, children⟩)),
      ("children", .list (toValues children))]

/-- Properties as data. -/
def toValues : List Property → List Value
  | [] => []
  | property :: rest => toValue property :: toValues rest

end

end Property

/-- A breakpoint of the engine as data. -/
def EngineBreakpoint.toValue (breakpoint : EngineBreakpoint) : Value :=
  .record [("id", .natural breakpoint.id), ("kind", .text breakpoint.kind),
    ("state", .text breakpoint.state), ("file_uri", .ofOption .text breakpoint.fileUri),
    ("line", .ofOption .natural breakpoint.line), ("function", .ofOption .text breakpoint.function),
    ("exception", .ofOption .text breakpoint.exception),
    ("hit_value", .ofOption .natural breakpoint.hitValue),
    ("hit_condition", .ofOption .text breakpoint.hitCondition),
    ("hit_count", .ofOption .natural breakpoint.hitCount),
    ("temporary", .boolean breakpoint.temporary),
    ("expression", .ofOption .text breakpoint.expression)]

/-- A frame of the engine as data. -/
def EngineFrame.toValue (frame : EngineFrame) : Value :=
  .record [("level", .natural frame.level), ("kind", .text frame.kind),
    ("file_uri", .text frame.fileUri), ("line", .natural frame.line),
    ("location", .text frame.location)]

/-- A context as data. -/
def VariableContext.toValue (context : VariableContext) : Value :=
  .record [("name", .text context.name), ("id", .natural context.id)]

/-- An answer as data. -/
def Response.toValue (showFault : ProtocolError → Value) (response : Response) : Value :=
  .record [("packet", .text "response"), ("command", .text response.command),
    ("transaction_id", .natural response.id),
    ("engine_error", .ofOption EngineError.toValue response.error),
    ("ok", .boolean response.error.isNone),
    ("status", .ofOption RunState.toValue response.status?),
    ("reason", .ofOption .text (response.reason?.map StatusReason.name)),
    ("success", .boolean response.success),
    ("breakpoint_id", .ofOption .natural response.breakpointId?),
    ("breakpoints", .list (response.breakpoints.map EngineBreakpoint.toValue)),
    ("stack", .list (response.frames.map EngineFrame.toValue)),
    ("contexts", .list (response.contexts.map VariableContext.toValue)),
    ("properties", match response.properties with
      | .ok properties => .list (Property.toValues properties)
      | .error error => showFault error),
    ("feature_value", .ofOption .text response.featureValue?)]

/-- A greeting as data. -/
def InitPacket.toValue (packet : InitPacket) : Value :=
  .record [("packet", .text "init"), ("app_id", .text packet.appId),
    ("ide_key", .text packet.ideKey), ("session", .text packet.session),
    ("thread", .text packet.thread), ("parent", .text packet.parent),
    ("language", .text packet.language), ("protocol_version", .text packet.protocolVersion),
    ("file_uri", .text packet.fileUri)]

/-- The name of a kind of output. -/
def StreamKind.name : StreamKind → String
  | .stdout => "Stdout"
  | .stderr => "Stderr"

/-- Output as data. -/
def StreamPacket.toValue (packet : StreamPacket) : Value :=
  .record [("packet", .text "stream"), ("kind", .text packet.kind.name),
    ("encoding", .text packet.encoding), ("data", .text packet.data)]

/-- A packet as data. -/
def Packet.toValue (showFault : ProtocolError → Value) : Packet → Value
  | .init packet => packet.toValue
  | .stream packet => packet.toValue
  | .notify element => .record [("packet", .text "notify"), ("name", .text (element.attr "name")),
      ("element", element.toValue)]
  | .response answer => answer.toValue showFault

end DebugBridge
