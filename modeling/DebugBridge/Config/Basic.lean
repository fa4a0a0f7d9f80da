import DebugBridge.Data.Value
import DebugBridge.File.Path

/-!
The settings of a debug session, their defaults, and how they are read from and written as data.
-/

namespace DebugBridge

/-- What is done with the script. -/
inductive RequestKind where
  /-- It is started. -/
  | launch
  /-- It runs already and is asked to connect. -/
  | attach
  deriving DecidableEq, Repr

/-- Who opens the connection when the script is started. -/
inductive LaunchTransport where
  /-- The engine does. -/
  | listen
  /-- The engine waits for it. -/
  | connect
  deriving DecidableEq, Repr

/-- How much is logged. -/
inductive LogLevel where
  /-- Everything. -/
  | trace
  /-- Details. -/
  | debug
  /-- What is of interest. -/
  | info
  /-- What may be wrong. -/
  | warn
  /-- What is wrong. -/
  | error
  deriving DecidableEq, Repr

/-- Settings of the log. -/
structure LogSettings where
  /-- How much is logged. -/
  level : LogLevel
  /-- The log file, if it is not the usual one. -/
  file : Option String
  deriving DecidableEq, Repr

/-- A breakpoint on a line that is there from the start. -/
structure LineEntry where
  /-- The file. -/
  file : String
  /-- The line. -/
  line : Nat
  /-- The condition. -/
  condition : Option String
  /-- The condition on the number of hits. -/
  hitCondition : Option String
  /-- The message that is logged instead of stopping. -/
  logMessage : Option String
  deriving DecidableEq, Repr

/-- A breakpoint on a function that is there from the start. -/
structure FunctionEntry where
  /-- Name of the function, with or without its class. -/
  name : String
  /-- The condition. -/
  condition : Option String
  /-- The condition on the number of hits. -/
  hitCondition : Option String
  /-- Whether it stops when the function returns and not when it is entered. -/
  onReturn : Bool
  deriving DecidableEq, Repr

/-- Settings of a debug session. -/
structure DebugConfig where
  /-- What is done with the script. -/
  request : RequestKind
  /-- The interpreter. -/
  runtime : String
  /-- Arguments of the interpreter. -/
  runtimeArgs : List String
  /-- The script. -/
  program : String
  /-- Arguments of the script. -/
  args : List String
  /-- The directory that the interpreter runs in. -/
  cwd : Option String
  /-- Further environment variables of the interpreter. -/
  env : List (String × String)
  /-- The host of the connection. -/
  host : String
  /-- The port of the connection; zero stands for any free one when waiting for the engine. -/
  port : Nat
  /-- Version of the engine. -/
  engineVersion : Nat
  /-- Who opens the connection. -/
  launchTransport : LaunchTransport
  /-- How many milliseconds to wait for the connection. -/
  connectTimeout : Nat
  /-- Whether the script stops before its first line. -/
  stopOnEntry : Bool
  /-- How many children of a property the engine sends at once. -/
  maxChildren : Nat
  /-- How deep the engine sends properties. -/
  maxDepth : Nat
  /-- How much of a value the engine sends. -/
  maxData : Nat
  /-- Whether the output of the script comes through the engine. -/
  redirectOutput : Bool
  /-- Whether exceptions stop the script. -/
  breakOnException : Bool
  /-- Breakpoints on lines. -/
  breakpoints : List LineEntry
  /-- Breakpoints on functions. -/
  functionBreakpoints : List FunctionEntry
  /-- Settings of the log. -/
  log : LogSettings
  deriving DecidableEq, Repr

namespace RequestKind

/-- The name of a kind. -/
def name : RequestKind → String
  | .launch => "launch"
  | .attach => "attach"

/-- The kind with a name. -/
def ofValue? (format : DataFormat) (value : Value) : Option RequestKind := do
  match ← value.choice? format with
  | "launch" => some .launch
  | "attach" => some .attach
  | _ => none

end RequestKind

namespace LaunchTransport

/-- The name of a transport. -/
def name : LaunchTransport → String
  | .listen => "listen"
  | .connect => "connect"

/-- The transport with a name. -/
def ofValue? (format : DataFormat) (value : Value) : Option LaunchTransport := do
  match ← value.choice? format with
  | "listen" => some .listen
  | "connect" => some .connect
  | _ => none

end LaunchTransport

namespace LogLevel

/-- The name of a level. -/
def name : LogLevel → String
  | .trace => "trace"
  | .debug => "debug"
  | .info => "info"
  | .warn => "warn"
  | .error => "error"

/-- The level with a name. -/
def ofValue? (format : DataFormat) (value : Value) : Option LogLevel := do
  match ← value.choice? format with
  | "trace" => some .trace
  | "debug" => some .debug
  | "info" => some .info
  | "warn" => some .warn
  | "error" => some .error
  | _ => none

end LogLevel

namespace LogSettings

/-- The usual settings. -/
def default : LogSettings := { level := .info, file := none }

/-- The settings as data. -/
def toValue (settings : LogSettings) : Value :=
  .record [("level", .text settings.level.name), ("file", .ofOption .text settings.file)]

/-- The settings in data. -/
def ofValue? (format : DataFormat) (value : Value) : Option LogSettings := do
  let members ← value.members? format [("level", true), ("file", true)]
  return { level := ← members.defaulted "level" (LogLevel.ofValue? format) .info
           file := ← members.optional "file" Value.text? }

end LogSettings

namespace LineEntry

/-- The breakpoint as data. -/
def toValue (entry : LineEntry) : Value :=
  .record [("file", .text entry.file), ("line", .natural entry.line),
    ("condition", .ofOption .text entry.condition),
    ("hit_condition", .ofOption .text entry.hitCondition),
    ("log_message", .ofOption .text entry.logMessage)]

/-- The breakpoint in data. -/
def ofValue? (format : DataFormat) (value : Value) : Option LineEntry := do
  let members ← value.members? format [("file", false), ("line", false), ("condition", true),
    ("hit_condition", true), ("log_message", true)]
  return { file := ← members.required "file" Value.text?
           line := ← members.required "line" Value.word?
           condition := ← members.optional "condition" Value.text?
           hitCondition := ← members.optional "hit_condition" Value.text?
           logMessage := ← members.optional "log_message" Value.text? }

end LineEntry

namespace FunctionEntry

/-- The breakpoint as data. -/
def toValue (entry : FunctionEntry) : Value :=
  .record [("name", .text entry.name), ("condition", .ofOption .text entry.condition),
    ("hit_condition", .ofOption .text entry.hitCondition), ("on_return", .boolean entry.onReturn)]

/-- The breakpoint in data. -/
def ofValue? (format : DataFormat) (value : Value) : Option FunctionEntry := do
  let members ← value.members? format [("name", false), ("condition", true),
    ("hit_condition", true), ("on_return", true)]
  return { name := ← members.required "name" Value.text?
           condition := ← members.optional "condition" Value.text?
           hitCondition := ← members.optional "hit_condition" Value.text?
           onReturn := ← members.defaulted "on_return" Value.boolean? false }

end FunctionEntry

namespace DebugConfig

/-- The settings for a script where nothing else is said. -/
def forProgram (program : String) : DebugConfig :=
  { request := .launch, runtime := "AutoHotkey64.exe", runtimeArgs := [], program, args := []
    cwd := none, env := [], host := "127.0.0.1", port := 9002, engineVersion := 2
    launchTransport := .listen, connectTimeout := 10000, stopOnEntry := false, maxChildren := 10000
    maxDepth := 1, maxData := 1048576, redirectOutput := true, breakOnException := false
    breakpoints := [], functionBreakpoints := [], log := .default }

/-- Names of the settings in their order, each with whether it may be left out. -/
def layout : List (String × Bool) :=
  [("request", true), ("runtime", true), ("runtime_args", true), ("program", false), ("args", true),
    ("cwd", true), ("env", true), ("host", true), ("port", true), ("engine_version", true),
    ("launch_transport", true), ("connect_timeout_ms", true), ("stop_on_entry", true),
    ("max_children", true), ("max_depth", true), ("max_data", true), ("redirect_output", true),
    ("break_on_exception", true), ("breakpoints", true), ("function_breakpoints", true),
    ("log", true)]

/-- The settings in data. -/
def ofValue? (format : DataFormat) (value : Value) : Option DebugConfig := do
  let members ← value.members? format layout
  let usual := forProgram (← members.required "program" Value.text?)
  let texts := Value.listOf? Value.text?
  return {
    program := usual.program
    request := ← members.defaulted "request" (RequestKind.ofValue? format) usual.request
    runtime := ← members.defaulted "runtime" Value.text? usual.runtime
    runtimeArgs := ← members.defaulted "runtime_args" texts usual.runtimeArgs
    args := ← members.defaulted "args" texts usual.args
    cwd := ← members.optional "cwd" Value.text?
    env := ← members.defaulted "env" Value.textRecord? usual.env
    host := ← members.defaulted "host" Value.text? usual.host
    port := ← members.defaulted "port" (Value.natural? Text.maxPort) usual.port
    engineVersion :=
      ← members.defaulted "engine_version" (Value.natural? Text.maxByte) usual.engineVersion
    launchTransport := ← members.defaulted "launch_transport" (LaunchTransport.ofValue? format)
      usual.launchTransport
    connectTimeout :=
      ← members.defaulted "connect_timeout_ms" (Value.natural? Text.maxLong) usual.connectTimeout
    stopOnEntry := ← members.defaulted "stop_on_entry" Value.boolean? usual.stopOnEntry
    maxChildren := ← members.defaulted "max_children" Value.word? usual.maxChildren
    maxDepth := ← members.defaulted "max_depth" Value.word? usual.maxDepth
    maxData := ← members.defaulted "max_data" Value.word? usual.maxData
    redirectOutput := ← members.defaulted "redirect_output" Value.boolean? usual.redirectOutput
    breakOnException :=
      ← members.defaulted "break_on_exception" Value.boolean? usual.breakOnException
    breakpoints := ← members.defaulted "breakpoints"
      (Value.listOf? (LineEntry.ofValue? format)) usual.breakpoints
    functionBreakpoints := ← members.defaulted "function_breakpoints"
      (Value.listOf? (FunctionEntry.ofValue? format)) usual.functionBreakpoints
    log := ← members.defaulted "log" (LogSettings.ofValue? format) usual.log }

/-- The settings as data. -/
def toValue (config : DebugConfig) : Value :=
  .record [("request", .text config.request.name), ("runtime", .text config.runtime),
    ("runtime_args", .texts config.runtimeArgs), ("program", .text config.program),
    ("args", .texts config.args), ("cwd", .ofOption .text config.cwd),
    ("env", .record (config.env.map fun (name, value) => (name, .text value))),
    ("host", .text config.host), ("port", .natural config.port),
    ("engine_version", .natural config.engineVersion),
    ("launch_transport", .text config.launchTransport.name),
    ("connect_timeout_ms", .natural config.connectTimeout),
    ("stop_on_entry", .boolean config.stopOnEntry), ("max_children", .natural config.maxChildren),
    ("max_depth", .natural config.maxDepth), ("max_data", .natural config.maxData),
    ("redirect_output", .boolean config.redirectOutput),
    ("break_on_exception", .boolean config.breakOnException),
    ("breakpoints", .list (config.breakpoints.map LineEntry.toValue)),
    ("function_breakpoints", .list (config.functionBreakpoints.map FunctionEntry.toValue)),
    ("log", config.log.toValue)]

/-- The directory that the interpreter runs in: by default the one that holds the script. -/
def workingDirectory (config : DebugConfig) : String :=
  match config.cwd with
  | some directory => directory
  | none =>
    match (Path.parent? config.program).filter (fun parent => !parent.isEmpty) with
    | some parent => parent
    | none => "."

/-- A host and a port as one text. -/
def addressOf (host : String) (port : Nat) : String := host ++ ":" ++ toString port

/-- Where the connection is made. -/
def address (config : DebugConfig) : String := addressOf config.host config.port

end DebugConfig
end DebugBridge
