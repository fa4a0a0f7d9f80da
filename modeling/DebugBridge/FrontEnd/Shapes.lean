import DebugBridge.Data.Value
import DebugBridge.File.Path

/-!
What is exchanged with a front end.  Each shape is a record whose absent members are left out; when
it is read, members that it does not have are passed over.
-/

namespace DebugBridge

/-- A member that is written if there is a value for it. -/
def Value.present (name : String) (write : α → Value) : Option α → List (String × Value)
  | some value => [(name, write value)]
  | none => []

/-- An unsigned 32-bit number as data. -/
def Value.word32 (value : UInt32) : Value := .integer value.toNat

/-- A signed 64-bit number as data. -/
def Value.int64 (value : Int64) : Value := .integer value.toInt

/-- The unsigned 32-bit number that data holds. -/
def Value.word32? (value : Value) : Option UInt32 := value.word?.map UInt32.ofNat

/-- The signed 64-bit number that data holds. -/
def Value.int64? (value : Value) : Option Int64 := value.long?.map Int64.ofInt

/-- A list as data, every element being written. -/
def Value.listOf (write : α → Value) (items : List α) : Value := .list (items.map write)

/-- Why the script has stopped. -/
inductive StopReason where
  /-- A step is done. -/
  | step
  /-- A breakpoint on a line was hit. -/
  | breakpoint
  /-- An exception was raised. -/
  | exception
  /-- It was asked to. -/
  | pause
  /-- It has just started. -/
  | entry
  /-- A breakpoint on a function was hit. -/
  | functionBreakpoint
  deriving DecidableEq, Repr

namespace StopReason

/-- The name of a reason. -/
def name : StopReason → String
  | .step => "step"
  | .breakpoint => "breakpoint"
  | .exception => "exception"
  | .pause => "pause"
  | .entry => "entry"
  | .functionBreakpoint => "function breakpoint"

/-- The reason as data. -/
def toValue (reason : StopReason) : Value := .text reason.name

/-- The reason in data. -/
def ofValue? (value : Value) : Option StopReason := do
  match ← value.choice? .json with
  | "step" => some .step
  | "breakpoint" => some .breakpoint
  | "exception" => some .exception
  | "pause" => some .pause
  | "entry" => some .entry
  | "function breakpoint" => some .functionBreakpoint
  | _ => none

end StopReason

/-- A kind of exception that can be broken on. -/
structure ExceptionFilter where
  /-- Its id. -/
  filter : String
  /-- Its label. -/
  label : String
  /-- Whether it is on at first. -/
  default : Option Bool
  deriving DecidableEq, Repr

namespace ExceptionFilter

/-- The shape as data. -/
def toValue (kind : ExceptionFilter) : Value :=
  .record ([("filter", .text kind.filter), ("label", .text kind.label)] ++
    Value.present "default" .boolean kind.default)

/-- The shape in data. -/
def ofValue? (value : Value) : Option ExceptionFilter := do
  let members ← value.members? .json [("filter", false), ("label", false), ("default", false)]
  return { filter := ← members.required "filter" Value.text?
           label := ← members.required "label" Value.text?
           default := ← members.optional "default" Value.boolean? }

end ExceptionFilter

/-- What the debugger can do. -/
structure Capabilities where
  /-- It is told when configuration is done. -/
  configurationDone : Option Bool
  /-- Breakpoints on functions. -/
  functionBreakpoints : Option Bool
  /-- Conditions on breakpoints. -/
  conditionalBreakpoints : Option Bool
  /-- Conditions on the number of hits. -/
  hitConditions : Option Bool
  /-- Breakpoints that log. -/
  logPoints : Option Bool
  /-- Evaluation of what the pointer is on. -/
  hovers : Option Bool
  /-- Completions. -/
  completions : Option Bool
  /-- The list of sources. -/
  loadedSources : Option Bool
  /-- Details of exceptions. -/
  exceptionInfo : Option Bool
  /-- Ending the script. -/
  terminate : Option Bool
  /-- The kinds of exceptions. -/
  exceptionFilters : Option (List ExceptionFilter)
  deriving DecidableEq, Repr

namespace Capabilities

/-- The shape as data. -/
def toValue (capabilities : Capabilities) : Value :=
  .record (
    Value.present "supportsConfigurationDoneRequest" .boolean capabilities.configurationDone ++
    Value.present "supportsFunctionBreakpoints" .boolean capabilities.functionBreakpoints ++
    Value.present "supportsConditionalBreakpoints" .boolean capabilities.conditionalBreakpoints ++
    Value.present "supportsHitConditionalBreakpoints" .boolean capabilities.hitConditions ++
    Value.present "supportsLogPoints" .boolean capabilities.logPoints ++
    Value.present "supportsEvaluateForHovers" .boolean capabilities.hovers ++
    Value.present "supportsCompletionsRequest" .boolean capabilities.completions ++
    Value.present "supportsLoadedSourcesRequest" .boolean capabilities.loadedSources ++
    Value.present "supportsExceptionInfoRequest" .boolean capabilities.exceptionInfo ++
    Value.present "supportTerminateDebuggee" .boolean capabilities.terminate ++
    Value.present "exceptionBreakpointFilters" (Value.listOf ExceptionFilter.toValue)
      capabilities.exceptionFilters)

/-- The shape in data. -/
def ofValue? (value : Value) : Option Capabilities := do
  let members ← value.members? .json [("supportsConfigurationDoneRequest", false),
    ("supportsFunctionBreakpoints", false), ("supportsConditionalBreakpoints", false),
    ("supportsHitConditionalBreakpoints", false), ("supportsLogPoints", false),
    ("supportsEvaluateForHovers", false), ("supportsCompletionsRequest", false),
    ("supportsLoadedSourcesRequest", false), ("supportsExceptionInfoRequest", false),
    ("supportTerminateDebuggee", false), ("exceptionBreakpointFilters", false)]
  return { configurationDone :=
             ← members.optional "supportsConfigurationDoneRequest" Value.boolean?
           functionBreakpoints :=
             ← members.optional "supportsFunctionBreakpoints" Value.boolean?
           conditionalBreakpoints :=
             ← members.optional "supportsConditionalBreakpoints" Value.boolean?
           hitConditions :=
             ← members.optional "supportsHitConditionalBreakpoints" Value.boolean?
           logPoints := ← members.optional "supportsLogPoints" Value.boolean?
           hovers := ← members.optional "supportsEvaluateForHovers" Value.boolean?
           completions :=
             ← members.optional "supportsCompletionsRequest" Value.boolean?
           loadedSources :=
             ← members.optional "supportsLoadedSourcesRequest" Value.boolean?
           exceptionInfo :=
             ← members.optional "supportsExceptionInfoRequest" Value.boolean?
           terminate := ← members.optional "supportTerminateDebuggee" Value.boolean?
           exceptionFilters :=
             ← members.optional "exceptionBreakpointFilters"
               (Value.listOf? ExceptionFilter.ofValue?) }

end Capabilities

/-- A source file. -/
structure SourceInfo where
  /-- Its name. -/
  name : Option String
  /-- Its path. -/
  path : Option String
  deriving DecidableEq, Repr

namespace SourceInfo

/-- The shape as data. -/
def toValue (source : SourceInfo) : Value :=
  .record (Value.present "name" .text source.name ++
    Value.present "path" .text source.path)

/-- The shape in data. -/
def ofValue? (value : Value) : Option SourceInfo := do
  let members ← value.members? .json [("name", false), ("path", false)]
  return { name := ← members.optional "name" Value.text?
           path := ← members.optional "path" Value.text? }

/-- The source with a path, named after its last component. -/
def ofPath (path : String) : SourceInfo := { name := Path.fileName? path, path := some path }

end SourceInfo

/-- A breakpoint that is wanted on a line. -/
structure SourceBreakpoint where
  /-- The line. -/
  line : UInt32
  /-- The column. -/
  column : Option UInt32
  /-- The condition. -/
  condition : Option String
  /-- The condition on the number of hits. -/
  hitCondition : Option String
  /-- The message that is logged instead of stopping. -/
  logMessage : Option String
  deriving DecidableEq, Repr

namespace SourceBreakpoint

/-- The shape as data. -/
def toValue (wanted : SourceBreakpoint) : Value :=
  .record ([("line", .word32 wanted.line)] ++
    Value.present "column" .word32 wanted.column ++
    Value.present "condition" .text wanted.condition ++
    Value.present "hitCondition" .text wanted.hitCondition ++
    Value.present "logMessage" .text wanted.logMessage)

/-- The shape in data. -/
def ofValue? (value : Value) : Option SourceBreakpoint := do
  let members ← value.members? .json [("line", false), ("column", false), ("condition", false),
    ("hitCondition", false), ("logMessage", false)]
  return { line := ← members.required "line" Value.word32?
           column := ← members.optional "column" Value.word32?
           condition := ← members.optional "condition" Value.text?
           hitCondition := ← members.optional "hitCondition" Value.text?
           logMessage := ← members.optional "logMessage" Value.text? }

end SourceBreakpoint

/-- The breakpoints that are wanted in a source, all others going away. -/
structure BreakpointsRequest where
  /-- The source. -/
  source : SourceInfo
  /-- The breakpoints. -/
  breakpoints : List SourceBreakpoint
  deriving DecidableEq, Repr

namespace BreakpointsRequest

/-- The shape as data. -/
def toValue (request : BreakpointsRequest) : Value :=
  .record [("source", request.source.toValue),
    ("breakpoints", .listOf SourceBreakpoint.toValue request.breakpoints)]

/-- The shape in data. -/
def ofValue? (value : Value) : Option BreakpointsRequest := do
  let members ← value.members? .json [("source", false), ("breakpoints", true)]
  return { source := ← members.required "source" SourceInfo.ofValue?
           breakpoints :=
             ← members.defaulted "breakpoints" (Value.listOf? SourceBreakpoint.ofValue?) [] }

end BreakpointsRequest

/-- A breakpoint that is wanted on a function. -/
structure FunctionBreakpoint where
  /-- Name of the function; with a pair of parentheses its return is meant. -/
  name : String
  /-- The condition. -/
  condition : Option String
  /-- The condition on the number of hits. -/
  hitCondition : Option String
  deriving DecidableEq, Repr

namespace FunctionBreakpoint

/-- The shape as data. -/
def toValue (wanted : FunctionBreakpoint) : Value :=
  .record ([("name", .text wanted.name)] ++
    Value.present "condition" .text wanted.condition ++
    Value.present "hitCondition" .text wanted.hitCondition)

/-- The shape in data. -/
def ofValue? (value : Value) : Option FunctionBreakpoint := do
  let members ← value.members? .json [("name", false), ("condition", false),
    ("hitCondition", false)]
  return { name := ← members.required "name" Value.text?
           condition := ← members.optional "condition" Value.text?
           hitCondition := ← members.optional "hitCondition" Value.text? }

end FunctionBreakpoint

/-- A breakpoint as it was set. -/
structure BreakpointReport where
  /-- Its id. -/
  id : Option UInt32
  /-- Whether it can be hit. -/
  verified : Bool
  /-- Why it cannot be hit. -/
  message : Option String
  /-- Its source. -/
  source : Option SourceInfo
  /-- Its line. -/
  line : Option UInt32
  /-- Its column. -/
  column : Option UInt32
  deriving DecidableEq, Repr

namespace BreakpointReport

/-- The shape as data. -/
def toValue (report : BreakpointReport) : Value :=
  .record (Value.present "id" .word32 report.id ++
    [("verified", .boolean report.verified)] ++
    Value.present "message" .text report.message ++
    Value.present "source" SourceInfo.toValue report.source ++
    Value.present "line" .word32 report.line ++
    Value.present "column" .word32 report.column)

/-- The shape in data. -/
def ofValue? (value : Value) : Option BreakpointReport := do
  let members ← value.members? .json [("id", false), ("verified", false), ("message", false),
    ("source", false), ("line", false), ("column", false)]
  return { id := ← members.optional "id" Value.word32?
           verified := ← members.required "verified" Value.boolean?
           message := ← members.optional "message" Value.text?
           source := ← members.optional "source" SourceInfo.ofValue?
           line := ← members.optional "line" Value.word32?
           column := ← members.optional "column" Value.word32? }

end BreakpointReport

/-- A thread of the script. -/
structure ThreadInfo where
  /-- Its id. -/
  id : Int64
  /-- Its name. -/
  name : String
  deriving DecidableEq, Repr

namespace ThreadInfo

/-- The shape as data. -/
def toValue (thread : ThreadInfo) : Value :=
  .record [("id", .int64 thread.id), ("name", .text thread.name)]

/-- The shape in data. -/
def ofValue? (value : Value) : Option ThreadInfo := do
  let members ← value.members? .json [("id", false), ("name", false)]
  return { id := ← members.required "id" Value.int64?
           name := ← members.required "name" Value.text? }

end ThreadInfo

/-- A frame of the call stack. -/
structure StackFrame where
  /-- Its id. -/
  id : Int64
  /-- The function, or that there is none. -/
  name : String
  /-- Its source. -/
  source : Option SourceInfo
  /-- Its line. -/
  line : UInt32
  /-- Its column. -/
  column : UInt32
  deriving DecidableEq, Repr

namespace StackFrame

/-- The shape as data. -/
def toValue (frame : StackFrame) : Value :=
  .record ([("id", .int64 frame.id), ("name", .text frame.name)] ++
    Value.present "source" SourceInfo.toValue frame.source ++
    [("line", .word32 frame.line), ("column", .word32 frame.column)])

/-- The shape in data. -/
def ofValue? (value : Value) : Option StackFrame := do
  let members ← value.members? .json [("id", false), ("name", false), ("source", false),
    ("line", false), ("column", false)]
  return { id := ← members.required "id" Value.int64?
           name := ← members.required "name" Value.text?
           source := ← members.optional "source" SourceInfo.ofValue?
           line := ← members.required "line" Value.word32?
           column := ← members.required "column" Value.word32? }

end StackFrame

/-- A group of variables of a frame. -/
structure Scope where
  /-- Its name. -/
  name : String
  /-- The reference for its variables. -/
  reference : Int64
  /-- Whether there are many. -/
  expensive : Bool
  deriving DecidableEq, Repr

namespace Scope

/-- The shape as data. -/
def toValue (scope : Scope) : Value :=
  .record [("name", .text scope.name), ("variablesReference", .int64 scope.reference),
    ("expensive", .boolean scope.expensive)]

/-- The shape in data. -/
def ofValue? (value : Value) : Option Scope := do
  let members ← value.members? .json [("name", false), ("variablesReference", false),
    ("expensive", false)]
  return { name := ← members.required "name" Value.text?
           reference := ← members.required "variablesReference" Value.int64?
           expensive := ← members.required "expensive" Value.boolean? }

end Scope

/-- A variable. -/
structure Variable where
  /-- Its name. -/
  name : String
  /-- Its value. -/
  value : String
  /-- Its type. -/
  kind : Option String
  /-- The expression for it. -/
  evaluateName : Option String
  /-- The reference for its children; zero if there are none. -/
  reference : Int64
  /-- How many children there are. -/
  childCount : Option UInt32
  deriving DecidableEq, Repr

namespace Variable

/-- The shape as data. -/
def toValue (found : Variable) : Value :=
  .record ([("name", .text found.name), ("value", .text found.value)] ++
    Value.present "type" .text found.kind ++
    Value.present "evaluateName" .text found.evaluateName ++
    [("variablesReference", .int64 found.reference)] ++
    Value.present "namedVariables" .word32 found.childCount)

/-- The shape in data. -/
def ofValue? (value : Value) : Option Variable := do
  let members ← value.members? .json [("name", false), ("value", false), ("type", false),
    ("evaluateName", false), ("variablesReference", false), ("namedVariables", false)]
  return { name := ← members.required "name" Value.text?
           value := ← members.required "value" Value.text?
           kind := ← members.optional "type" Value.text?
           evaluateName := ← members.optional "evaluateName" Value.text?
           reference := ← members.required "variablesReference" Value.int64?
           childCount := ← members.optional "namedVariables" Value.word32? }

end Variable

/-- An expression to evaluate. -/
structure EvaluateRequest where
  /-- The expression. -/
  expression : String
  /-- The frame to evaluate it in. -/
  frameId : Option Int64
  /-- What it is evaluated for. -/
  context : Option String
  deriving DecidableEq, Repr

namespace EvaluateRequest

/-- The shape as data. -/
def toValue (request : EvaluateRequest) : Value :=
  .record ([("expression", .text request.expression)] ++
    Value.present "frameId" .int64 request.frameId ++
    Value.present "context" .text request.context)

/-- The shape in data. -/
def ofValue? (value : Value) : Option EvaluateRequest := do
  let members ← value.members? .json [("expression", false), ("frameId", false),
    ("context", false)]
  return { expression := ← members.required "expression" Value.text?
           frameId := ← members.optional "frameId" Value.int64?
           context := ← members.optional "context" Value.text? }

end EvaluateRequest

/-- The value of an expression. -/
structure EvaluateResult where
  /-- The value. -/
  result : String
  /-- Its type. -/
  kind : Option String
  /-- The reference for its children; zero if there are none. -/
  reference : Int64
  deriving DecidableEq, Repr

namespace EvaluateResult

/-- The shape as data. -/
def toValue (answer : EvaluateResult) : Value :=
  .record ([("result", .text answer.result)] ++
    Value.present "type" .text answer.kind ++
    [("variablesReference", .int64 answer.reference)])

/-- The shape in data. -/
def ofValue? (value : Value) : Option EvaluateResult := do
  let members ← value.members? .json [("result", false), ("type", false),
    ("variablesReference", false)]
  return { result := ← members.required "result" Value.text?
           kind := ← members.optional "type" Value.text?
           reference := ← members.required "variablesReference" Value.int64? }

end EvaluateResult

/-- A completion. -/
structure CompletionItem where
  /-- The text. -/
  label : String
  /-- What it names. -/
  kind : Option String
  deriving DecidableEq, Repr

namespace CompletionItem

/-- The shape as data. -/
def toValue (item : CompletionItem) : Value :=
  .record ([("label", .text item.label)] ++
    Value.present "type" .text item.kind)

/-- The shape in data. -/
def ofValue? (value : Value) : Option CompletionItem := do
  let members ← value.members? .json [("label", false), ("type", false)]
  return { label := ← members.required "label" Value.text?
           kind := ← members.optional "type" Value.text? }

end CompletionItem

/-- That the script has stopped. -/
structure StoppedEvent where
  /-- Why. -/
  reason : StopReason
  /-- A description. -/
  description : Option String
  /-- The thread. -/
  threadId : Option Int64
  /-- The message of an exception. -/
  text : Option String
  /-- The breakpoints that were hit. -/
  hitBreakpointIds : List UInt32
  deriving DecidableEq, Repr

namespace StoppedEvent

/-- The shape as data. -/
def toValue (event : StoppedEvent) : Value :=
  .record ([("reason", event.reason.toValue)] ++
    Value.present "description" .text event.description ++
    Value.present "threadId" .int64 event.threadId ++
    Value.present "text" .text event.text ++
    (if event.hitBreakpointIds.isEmpty then [] else
      [("hitBreakpointIds", .listOf Value.word32 event.hitBreakpointIds)]))

/-- The shape in data. -/
def ofValue? (value : Value) : Option StoppedEvent := do
  let members ← value.members? .json [("reason", false), ("description", false), ("threadId", false),
    ("text", false), ("hitBreakpointIds", true)]
  return { reason := ← members.required "reason" StopReason.ofValue?
           description := ← members.optional "description" Value.text?
           threadId := ← members.optional "threadId" Value.int64?
           text := ← members.optional "text" Value.text?
           hitBreakpointIds :=
             ← members.defaulted "hitBreakpointIds" (Value.listOf? Value.word32?) [] }

end StoppedEvent

/-- Output. -/
structure OutputEvent where
  /-- What kind of output. -/
  category : Option String
  /-- The output. -/
  output : String
  deriving DecidableEq, Repr

namespace OutputEvent

/-- The shape as data. -/
def toValue (event : OutputEvent) : Value :=
  .record (Value.present "category" .text event.category ++
    [("output", .text event.output)])

/-- The shape in data. -/
def ofValue? (value : Value) : Option OutputEvent := do
  let members ← value.members? .json [("category", false), ("output", false)]
  return { category := ← members.optional "category" Value.text?
           output := ← members.required "output" Value.text? }

end OutputEvent

/-- That the script has ended. -/
structure ExitedEvent where
  /-- The exit code. -/
  exitCode : Int64
  deriving DecidableEq, Repr

namespace ExitedEvent

/-- The shape as data. -/
def toValue (event : ExitedEvent) : Value :=
  .record [("exitCode", .int64 event.exitCode)]

/-- The shape in data. -/
def ofValue? (value : Value) : Option ExitedEvent := do
  let members ← value.members? .json [("exitCode", false)]
  return { exitCode := ← members.required "exitCode" Value.int64? }

end ExitedEvent

end DebugBridge
