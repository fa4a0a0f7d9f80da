import DebugBridge.FrontEnd.Shapes

/-!
What the debugger reports to its front end besides answers.
-/

namespace DebugBridge

/-- Something that is reported. -/
inductive DebugEvent where
  /-- Output of the script. -/
  | stdout (text : String)
  /-- Error output of the script. -/
  | stderr (text : String)
  /-- Output of a logpoint. -/
  | message (text : String)
  /-- A problem that can be lived with. -/
  | warning (text : String)
  /-- A failure. -/
  | failure (text : String)
  /-- The interpreter has ended, with its exit code if it was not killed. -/
  | processClose (code : Option Int)
  /-- The connection to the engine is gone. -/
  | socketClose
  /-- The debugger no longer waits for engines. -/
  | serverClose
  deriving DecidableEq, Repr

namespace DebugEvent

/-- The output that an event with text means for the front end. -/
def output? : DebugEvent → Option OutputEvent
  | .stdout text => some { category := some "stdout", output := text }
  | .stderr text => some { category := some "stderr", output := text }
  | .message text => some { category := some "console", output := text }
  | .warning text => some { category := some "console", output := text }
  | .failure text => some { category := some "important", output := text }
  | _ => none

/-- The end of the script that an event means for the front end; the exit code of an interpreter
that was killed is minus one. -/
def exited? : DebugEvent → Option ExitedEvent
  | .processClose code => some { exitCode := Int64.ofInt (code.getD (-1)) }
  | _ => none

end DebugEvent
end DebugBridge
