import DebugBridge.Script.Include
import DebugBridge.Session.Basic

/-!
Why an operation of the debugger fails.
-/

namespace DebugBridge

/-- What goes wrong with the interpreter's process.  The system's own wording is left open. -/
inductive ProcessFault where
  /-- It cannot be started. -/
  | notStarted (program : String)
  /-- The address of the debugger is of the wrong kind. -/
  | addressKind (host : String)
  /-- The helper that asks a script to connect does not end. -/
  | helperStuck
  /-- The helper found no script, with its exit code and its output. -/
  | noScript (program : String) (code : Option Int) (detail : String)
  /-- It ended before the engine connected. -/
  | endedUnconnected (code : Option Int)
  /-- It ended before the engine could be connected to. -/
  | endedUnreachable (code : Option Int)
  deriving DecidableEq, Repr

/-- An exit code in words. -/
def exitCodeText : Option Int → String
  | some code => "Some(" ++ toString code ++ ")"
  | none => "None"

/-- The wording of a process fault. -/
def ProcessFault.message : ProcessFault → String
  | .notStarted program => "cannot start " ++ program ++ ": *"
  | .addressKind host => "attach needs an IPv4 address, got " ++ host
  | .helperStuck => "attach helper did not finish"
  | .noScript program code detail =>
    "no running script matches " ++ program ++
      " (helper exited with " ++ exitCodeText code ++ ")" ++
      if detail.isEmpty then "" else ": " ++ detail
  | .endedUnconnected code =>
    "interpreter exited with code " ++ exitCodeText code ++ " before the engine connected"
  | .endedUnreachable code =>
    "interpreter exited with code " ++ exitCodeText code ++ " before accepting a connection (*)"

/-- What the system refuses. -/
inductive SystemFault where
  /-- No host has a name. -/
  | unknownHost
  /-- An address is not one of this host. -/
  | foreignAddress
  /-- Nobody reads what is written. -/
  | nobodyReads
  /-- A connection that was about to be made is gone. -/
  | connectionGone
  deriving DecidableEq, Repr

/-- The wording of a refusal. -/
def SystemFault.message : SystemFault → String
  | .unknownHost => "failed to lookup address information: Temporary failure in name resolution"
  | .foreignAddress => "Cannot assign requested address (os error 99)"
  | .nobodyReads => "Broken pipe (os error 32)"
  | .connectionGone => "Software caused connection abort (os error 103)"

/-- Why an operation of the debugger fails. -/
inductive DebugError where
  /-- The session failed; the engine's own errors are apart. -/
  | session (error : SessionError)
  /-- The engine refused a command. -/
  | engine (error : EngineError)
  /-- Something is wrong with the interpreter's process. -/
  | process (fault : ProcessFault)
  /-- A target does not exist. -/
  | unresolved (target : String)
  /-- The engine did not connect within a number of milliseconds. -/
  | connectTimeout (limit : Nat)
  /-- A reference is not valid, or no longer so. -/
  | unknownReference (reference : Int)
  /-- A hit condition cannot be expressed. -/
  | hitCondition (text : String)
  /-- The operation is not for this phase. -/
  | wrongPhase (operation phase : String)
  /-- The script cannot be scanned. -/
  | scan (error : ScanError)
  /-- No engine is connected. -/
  | notConnected
  /-- The system refused something. -/
  | system (fault : SystemFault)
  deriving DecidableEq, Repr

namespace DebugError

/-- A session's error as one of the debugger. -/
def ofSession : SessionError → DebugError
  | .engine error => .engine error
  | error => .session error

/-- The wording of an error. -/
def message : DebugError → String
  | .session error => "debugger session error: " ++ error.message
  | .engine error => error.message
  | .process fault => "debuggee process error: " ++ fault.message
  | .unresolved target => "cannot resolve " ++ target
  | .connectTimeout limit => "engine did not connect within " ++ toString limit ++ " ms"
  | .unknownReference reference => "unknown or expired reference " ++ toString reference
  | .hitCondition text => "unsupported hit condition `" ++ text ++ "`"
  | .wrongPhase operation phase => "cannot " ++ operation ++ ": runtime is " ++ phase
  | .scan error => error.message
  | .notConnected => "no debugger engine is connected"
  | .system fault => fault.message

/-- What lies behind an error, the nearest cause first. -/
def causes : DebugError → List String
  | .session (.protocol error) => [SessionError.message (.protocol error), error.message]
  | .session error => [error.message]
  | _ => []

/-- The wording of an error with what lies behind it. -/
def report (error : DebugError) : String := ": ".intercalate (error.message :: error.causes)

/-- Whether the connection to the engine is gone. -/
def isClosed : DebugError → Bool
  | .session .closed => true
  | .notConnected => true
  | _ => false

end DebugError
end DebugBridge
