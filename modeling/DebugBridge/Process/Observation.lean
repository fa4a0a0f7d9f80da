import DebugBridge.Process.Basic
import DebugBridge.Shell.Machine

/-!
What comes of starting a process: nothing if there is no such program or directory, and otherwise
what the process does until its end, or as long as it is looked at.
-/

namespace DebugBridge
namespace ProcessCall

/-- How long a process is looked at, in milliseconds. -/
def horizon : Nat := 30000

/-- How deep scripts may be nested. -/
def depthLimit : Nat := 10000

/-- How many units of a script's clock make a millisecond. -/
def clockRate : Nat := 1000

/-- The number of a process. -/
def processNumber : Nat := 4321

/-- Where programs are looked for. -/
def searchPath : String := "/usr/local/bin:/usr/bin:/bin"

/-- Whether the parts of a call can be handed to the system, which takes no zero characters. -/
def isSound (call : ProcessCall) : Bool :=
  let texts := call.program :: call.directory ::
    (call.arguments ++ call.bindings.flatMap fun (name, value) => [name, value])
  texts.all fun text => !text.toList.contains '\x00'

/-- The environment variables of the process. -/
def environment (call : ProcessCall) (host : Host) : List Shell.Variable :=
  let inherited := host.environment.bindings ++ [("PATH", searchPath)]
  let others := inherited.filter fun entry => call.bindings.all fun own => own.1 != entry.1
  (call.bindings ++ others).map fun (name, value) => { name, value, exported := true }

/-- The state in which the process starts, at a place; it can read some bytes, if any. -/
def opening (call : ProcessCall) (host : Host) (place : Place) (input : Option (List UInt8)) :
    Shell.State :=
  { files := { host.files with workingPlace := place }
    clock := 0, limit := horizon * clockRate, process := processNumber
    bindings := call.environment host, name := call.program, arguments := [], status := 0
    descriptors :=
      [(0, if input.isSome then .supplied 0 else .nothing), (1, .watched false), (2, .watched true)]
    collections := [], supplies := input.toList, printed := [], changes := [], functions := []
    traps := [], strict := false, guarded := false, backgroundEnd := 0 }

/-- The exit code that an outcome means; nothing if the process goes on. -/
def codeOf : Except Shell.Halt Nat → Option (Option Int)
  | .ok code | .error (.exit code) => some (some code)
  | .error (.signalled _ _) => some none
  | .error .timeUp => none
  | .error _ => some (some 0)

/-- Moments of a script's clock in milliseconds, in order. -/
def inOrder (moments : List (Nat × α)) : List (Nat × α) :=
  (moments.reverse.map fun (time, what) => (time / clockRate, what)).mergeSort fun first second =>
    first.1 ≤ second.1

/-- What the process does, if it can be started. -/
def timeline? (call : ProcessCall) (host : Host) (input : Option (List UInt8)) : Option Timeline :=
  match host.files.find call.directory with
  | .ok (place, .directory) =>
    if call.isSound && Shell.isProgram call.program then
      let run := Shell.program depthLimit call.program call.arguments
      let (outcome, state) := run.run.run (call.opening host place input)
      let time := state.clock / clockRate
      some {
        printed := inOrder state.printed
        finish := (codeOf outcome).map fun code => { time, code }
        silence := max time (state.backgroundEnd / clockRate)
        changes := inOrder state.changes }
    else none
  | _ => none

end ProcessCall
end DebugBridge
