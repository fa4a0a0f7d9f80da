import DebugBridge.Config.Basic
import DebugBridge.Text.Blank

/-!
What settings have to satisfy.  Each violation names the setting and says what is wrong with it;
violations are listed in a fixed order.
-/

namespace DebugBridge

/-- A setting that a session cannot work with. -/
structure Violation where
  /-- Name of the setting, with the position in a list where there is one. -/
  setting : String
  /-- What is wrong. -/
  fault : String
  deriving DecidableEq, Repr

namespace Violation

/-- The violation in words. -/
def message (violation : Violation) : String :=
  "invalid \x60" ++ violation.setting ++ "\x60: " ++ violation.fault

/-- A violation if a condition is broken. -/
def unlessHolds (holds : Bool) (setting fault : String) : List Violation :=
  if holds then [] else [⟨setting, fault⟩]

end Violation

/-- What is said of a setting that is left empty. -/
def emptyFault : String := "must not be empty"

/-- The name of a member of a list element. -/
def elementName (list : String) (index : Nat) (member : String) : String :=
  list ++ "[" ++ toString index ++ "]." ++ member

/-- Violations of a breakpoint on a line. -/
def LineEntry.violations (entry : LineEntry) (index : Nat) : List Violation :=
  Violation.unlessHolds (entry.line != 0) (elementName "breakpoints" index "line")
      "lines are 1-based" ++
    Violation.unlessHolds (!entry.file.isEmpty) (elementName "breakpoints" index "file") emptyFault

/-- Violations of a breakpoint on a function. -/
def FunctionEntry.violations (entry : FunctionEntry) (index : Nat) : List Violation :=
  Violation.unlessHolds (!Text.isBlankText entry.name)
    (elementName "function_breakpoints" index "name") emptyFault

namespace DebugConfig

/-- Whether this side opens the connection. -/
def dialsOut (config : DebugConfig) : Bool :=
  config.request == .launch && config.launchTransport == .connect

/-- Everything that is wrong with some settings. -/
def violations (config : DebugConfig) : List Violation :=
  Violation.unlessHolds (!config.program.isEmpty) "program" emptyFault ++
    Violation.unlessHolds (!config.runtime.isEmpty) "runtime" emptyFault ++
    Violation.unlessHolds (config.engineVersion == 1 || config.engineVersion == 2) "engine_version"
      ("must be 1 or 2, got " ++ toString config.engineVersion) ++
    Violation.unlessHolds (!Text.isBlankText config.host) "host" emptyFault ++
    Violation.unlessHolds (!(config.dialsOut && config.port == 0)) "port"
      "must be non-zero when launch_transport is \"connect\"" ++
    Violation.unlessHolds (config.connectTimeout != 0) "connect_timeout_ms"
      "must be greater than 0" ++
    Violation.unlessHolds (config.maxDepth != 0) "max_depth" "must be at least 1" ++
    Violation.unlessHolds (config.maxChildren != 0) "max_children" "must be at least 1" ++
    (config.breakpoints.zipIdx.flatMap fun (entry, index) => entry.violations index) ++
    (config.functionBreakpoints.zipIdx.flatMap fun (entry, index) => entry.violations index)

end DebugConfig
end DebugBridge
