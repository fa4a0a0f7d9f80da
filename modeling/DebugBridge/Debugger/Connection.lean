import DebugBridge.Debugger.Execution
import DebugBridge.Debugger.Launch

/-!
How a debugger is connected to an engine and parts from it.  It starts the interpreter or asks a
running script to connect, waits for the greeting, asks what the engine can do, and sets the
breakpoints that are there from the start.  When it is closed, a script that it started is ended,
and any other one is let go.
-/

namespace DebugBridge

/-- How long a script may take to end by itself once its engine is gone, in milliseconds. -/
def exitGrace : Nat := 2000

/-- How long to wait before trying to connect again, in milliseconds. -/
def connectPause : Nat := 100

/-- How long to wait for a script to be ended, in milliseconds. -/
def stopLimit : Nat := 1000

namespace Supervision

/-- What is reported of a session's event. -/
def reports : SessionEvent → List DebugEvent
  | .stream packet =>
    match packet.kind with
    | .stdout => [.stdout packet.data]
    | .stderr => [.stderr packet.data]
  | .fault error => [.warning ("malformed engine message: " ++ error.message)]
  | .notify _ | .init _ | .closed => []

/-- Reports an event. -/
def report (event : DebugEvent) : Talk Unit := Talk.ask (.report event)

/-- The end of a process that was started, which is ended if it takes too long. -/
def endProcess : Talk Unit := do
  if ← Talk.ask .isLetGo then return ()
  match ← Talk.ask (.awaitExit (some exitGrace)) with
  | some code => report (.processClose code)
  | none =>
    Talk.ask .kill
    let code ← Talk.ask (.awaitExit none)
    report (.processClose (code.getD none))

/-- What happens once the session has ended. -/
def ending (launched listening : Bool) : Talk Unit := do
  if launched then endProcess
  report .socketClose
  if listening then report .serverClose

end Supervision

/-- A connection that was made. -/
structure Established where
  /-- Whether there is a process of its own. -/
  launched : Bool
  /-- Whether engines are still waited for. -/
  listening : Bool

namespace Debugger

/-- Sets the first phase; the debugger must be idle. -/
def begin (operation : String) (next : Phase) : DebuggerOperation Unit := do
  let debugger ← get
  if debugger.phase != .idle then throw (.wrongPhase operation (← currentPhase).text)
  setPhase next

/-- How the interpreter is started. -/
def processCall (config : DebugConfig) (arguments : List String) : ProcessCall :=
  { program := config.runtime, arguments, directory := config.workingDirectory
    bindings := config.env }

/-- Starts the interpreter. -/
def spawn (arguments : List String) : DebuggerOperation Unit := do
  let config := (← get).config
  if !(← Operation.ask (.spawn (processCall config arguments))) then
    throw (.process (.notStarted config.runtime))

/-- Waits for engines no longer. -/
def release : DebuggerOperation Unit := Operation.report .serverClose

/-- Waits for engines at the address of the settings. -/
def listen : DebuggerOperation SocketAddress := do
  let config := (← get).config
  match ← Operation.ask (.listen config.host config.port) with
  | .ok address => return address
  | .error fault => throw (.system fault)

/-- Starts the interpreter and waits for its engine. -/
def launchListening : DebuggerOperation Established := do
  let config := (← get).config
  let address ← listen
  try
    spawn (Launch.arguments config address.text)
  catch error =>
    release
    throw error
  let fail := fun (error : DebugError) => do
    Operation.ask .kill
    release
    throw error
  match ← Operation.ask (.awaitEngine config.connectTimeout true) with
  | .connected => return { launched := true, listening := true }
  | .timedOut => fail (.connectTimeout config.connectTimeout)
  | .refused => fail (.system .connectionGone)
  | .exited code =>
    Operation.report (.processClose code)
    fail (.process (.endedUnconnected code))

/-- Tries to connect until it succeeds, the process has ended, or the time is over; at most
`attempts` times. -/
def dial (deadline : Nat) : (attempts : Nat) → DebuggerOperation Established
  | 0 => Operation.stuck
  | attempts + 1 => do
    let config := (← get).config
    if ← Operation.ask (.connect config.host config.port) then
      return { launched := true, listening := false }
    match ← Operation.ask .exitCode with
    | some code =>
      Operation.report (.processClose code)
      throw (.process (.endedUnreachable code))
    | none =>
      if deadline ≤ (← Operation.ask .now) then
        Operation.ask .kill
        throw (.connectTimeout config.connectTimeout)
      else
        Operation.ask (.sleep connectPause)
        dial deadline attempts

/-- Starts the interpreter and connects to its engine. -/
def launchConnecting : DebuggerOperation Established := do
  let config := (← get).config
  spawn (Launch.arguments config config.address)
  let start ← Operation.ask .now
  dial (start + config.connectTimeout) (config.connectTimeout / connectPause + 2)

/-- Asks a running script to connect to an address. -/
def postRequest (address : SocketAddress) : DebuggerOperation Unit := do
  let debugger ← get
  let config := debugger.config
  match Launch.requestScript debugger.version config.program address with
  | .error error => throw error
  | .ok script =>
    let call := processCall config (Launch.helperArguments config)
    match ← Operation.ask (.consult call script config.connectTimeout) with
    | .notStarted => throw (.process (.notStarted config.runtime))
    | .broken => throw (.system .nobodyReads)
    | .stuck => throw (.process .helperStuck)
    | .ended code output =>
      if code != some 0 then
        throw (.process (.noScript config.program code (Text.trimmed output)))

/-- Asks a running script to connect, and waits for its engine. -/
def attachListening : DebuggerOperation Established := do
  let config := (← get).config
  let address ← listen
  try
    postRequest address
    match ← Operation.ask (.awaitEngine config.connectTimeout false) with
    | .connected => return { launched := false, listening := true }
    | .timedOut => throw (.connectTimeout config.connectTimeout)
    | _ => throw (.system .connectionGone)
  catch error =>
    release
    throw error

/-- The text of a warning that a breakpoint of the settings cannot be hit. -/
def unsetWarning (breakpoint : Breakpoint) : String :=
  let name := match breakpoint.kind with
    | .function target | .return target => "\x60" ++ target.name ++ "\x60"
    | .exception => "on exceptions"
    | .line target | .log target _ => target.file ++ ":" ++ toString target.requestedLine
  "breakpoint " ++ name ++ " not set: " ++ breakpoint.message.getD "not verified"

/-- Adds a request to those for its file; files are in the order of their paths. -/
def addToGroup (file : String) (request : BreakpointRequest) :
    List (String × List BreakpointRequest) → List (String × List BreakpointRequest)
  | [] => [(file, [request])]
  | (other, requests) :: rest =>
    match Path.order file other with
    | .lt => (file, [request]) :: (other, requests) :: rest
    | .eq => (other, requests ++ [request]) :: rest
    | .gt => (other, requests) :: addToGroup file request rest

/-- What is wanted by an entry of the settings for a line. -/
def lineRequest (entry : LineEntry) : BreakpointRequest :=
  (((BreakpointRequest.line entry.file entry.line).withCondition entry.condition).withHitCondition
    entry.hitCondition).withLogMessage entry.logMessage

/-- What is wanted by an entry of the settings for a function. -/
def functionRequest (entry : FunctionEntry) : BreakpointRequest :=
  ((BreakpointRequest.function entry.name entry.onReturn).withCondition
    entry.condition).withHitCondition entry.hitCondition

/-- The entries of the settings for lines, file by file. -/
def lineGroups (entries : List LineEntry) : List (String × List BreakpointRequest) :=
  entries.foldl (fun groups entry => addToGroup entry.file (lineRequest entry) groups) []

/-- Sets breakpoints file by file. -/
def seedLines (context : ScriptContext) :
    List (String × List BreakpointRequest) → TableOperation (List Breakpoint)
  | [] => return []
  | (file, requests) :: rest => do
    let set ← BreakpointTable.setLines context file requests
    return set ++ (← seedLines context rest)

/-- Sets the breakpoints of the settings. -/
def seed (context : ScriptContext) (config : DebugConfig) : TableOperation (List Breakpoint) := do
  let lines ← seedLines context (lineGroups config.breakpoints)
  let functions ← BreakpointTable.setAll context (config.functionBreakpoints.map functionRequest)
  let exceptions ←
    if config.breakOnException then BreakpointTable.setException context true else pure none
  return lines ++ functions ++ exceptions.toList

/-- The commands that prepare an engine. -/
def setupCommands (config : DebugConfig) : List Command :=
  config.featureCommands ++
    if config.redirectOutput then
      [(Command.named "stdout").argNat 'c' 1, (Command.named "stderr").argNat 'c' 1]
    else []

/-- Sends commands in order, warning of those that fail. -/
def prepare : List Command → Operation σ Unit
  | [] => return ()
  | command :: rest => do
    match ← Operation.ask (.submit command none) with
    | .ok _ => pure ()
    | .error error => Operation.report (.warning (command.name ++ " failed: " ++ error.message))
    prepare rest

/-- A warning if an engine is of another version than the settings say. -/
def versionWarning? (config : DebugConfig) (features : EngineFeatures) : Option String := do
  let reported ← features.version?
  if reported == Version.ofMajor config.engineVersion then none
  else
    return "engine reports version " ++ features.languageVersion.getD "" ++
      " but engine_version is " ++ toString config.engineVersion

/-- Prepares an engine that has greeted. -/
def negotiate : DebuggerOperation Unit := do
  let debugger ← get
  let config := debugger.config
  let features ← onLink (← knownLink) EngineFeatures.query
  onLink (← knownLink) (modify fun link => { link with features })
  if let some warning := versionWarning? config features then Operation.report (.warning warning)
  prepare (setupCommands config)
  if ← Operation.ask .isClosed then throw (.session .closed)
  let seeded ← onLink (← knownLink) (Link.onBreakpoints (seed debugger.script config))
  for breakpoint in seeded do
    if !breakpoint.verified then Operation.report (.warning (unsetWarning breakpoint))

/-- Parts from an engine: a script that was started for debugging is ended, any other one is let
go.  Afterwards the end of the session has been reported. -/
def shutdown (link : Link) : Operation σ Unit := do
  if !(← Operation.ask .isClosed) then
    if link.mode == .launch && !(← Operation.ask .isLetGo) then
      let stop := Command.named Continuation.stop.commandName
      let _ ← Operation.ask (.submit stop (some stopLimit))
      Operation.ask .close
    else
      Operation.ask .letGo
      let _ ← Operation.ask .detach
  Operation.ask .awaitEnd
  if link.launched && !(← Operation.ask .isLetGo) then Operation.ask .kill

/-- Ends the debugging.  Doing so again changes nothing. -/
def close : DebuggerOperation Unit := do
  let debugger ← get
  set { debugger with phase := .closed, link := none }
  match debugger.link with
  | some link => shutdown link
  | none => return ()

/-- Lets the script run on without the debugger. -/
def detach : DebuggerOperation Unit := do
  let _ ← connectedState "detach"
  let link ← knownLink
  Operation.ask .letGo
  let result ← Operation.ask .detach
  modify fun debugger => { debugger with phase := .closed, link := none }
  shutdown link
  match result with
  | .ok _ => return ()
  | .error error => throw (.ofSession error)

/-- Gives up a connection whose engine has not greeted. -/
def abandon (established : Established) (error : DebugError) : DebuggerOperation Unit := do
  setPhase .closed
  Operation.ask .close
  if established.launched then Operation.ask .kill
  if established.listening then release
  throw error

/-- Waits for the greeting of an engine that is connected, and prepares it. -/
def greet (mode : RequestKind) (established : Established) : DebuggerOperation Unit := do
  let config := (← get).config
  match ← Operation.ask (.awaitInit config.connectTimeout) with
  | .failed error => abandon established (.ofSession error)
  | .timedOut => abandon established (.connectTimeout config.connectTimeout)
  | .init init =>
    Operation.ask (.supervise established.launched established.listening)
    modify fun debugger => { debugger with
      phase := .connected .starting
      link := some {
        mode, launched := established.launched, init, features := .unknown
        breakpoints := .empty, frameNumbers := .empty, scopeNumbers := .empty, lastStop := none } }
    try
      negotiate
    catch error =>
      close
      throw error

/-- Makes a connection in some way and goes on with it. -/
def connectBy (mode : RequestKind) (way : DebuggerOperation Established) :
    DebuggerOperation Unit := do
  let established ←
    try way
    catch error =>
      setPhase .closed
      throw error
  greet mode established

/-- Starts the script. -/
def launch : DebuggerOperation Unit := do
  begin "launch" .launching
  match (← get).config.launchTransport with
  | .listen => connectBy .launch launchListening
  | .connect => connectBy .launch launchConnecting

/-- Asks a running script to connect. -/
def attach : DebuggerOperation Unit := do
  begin "attach" .attaching
  connectBy .attach attachListening

/-- Uses a connection that there is already. -/
def attachStream : DebuggerOperation Unit := do
  begin "attach" .attaching
  greet .attach { launched := false, listening := false }

/-- Starts the script or asks it to connect, as the settings say. -/
def start : DebuggerOperation Unit := do
  match (← get).config.request with
  | .launch => launch
  | .attach => attach

end Debugger
end DebugBridge
