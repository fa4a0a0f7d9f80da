import DebugBridge.File.Host
import DebugBridge.Shell.Syntax
import DebugBridge.Text.Utf8

/-!
The state of a running script and the steps that change it.  Every step takes time, in microseconds,
and at a given time the run is broken off.
-/

namespace DebugBridge
namespace Shell

/-- Where a file descriptor leads. -/
inductive Channel where
  /-- Nowhere. -/
  | nothing
  /-- To those who watch the process, as its output or its error output. -/
  | watched (isError : Bool)
  /-- To the end of a file. -/
  | file (place : Place)
  /-- To a collection of output. -/
  | collected (number : Nat)
  /-- From a supply of input. -/
  | supplied (number : Nat)
  deriving DecidableEq, Repr

/-- Why a run does not go on with the next command. -/
inductive Halt where
  /-- It is over, with an exit code. -/
  | exit (code : Nat)
  /-- A signal has ended a process. -/
  | signalled (process : Nat) (signal : Nat)
  /-- Its time is over. -/
  | timeUp
  /-- A number of loops are left. -/
  | leave (loops : Nat)
  /-- The next round of a loop is started, after a number of inner loops are left. -/
  | again (loops : Nat)
  /-- A function is left. -/
  | return
  deriving DecidableEq, Repr

/-- A variable. -/
structure Variable where
  /-- Its name. -/
  name : String
  /-- Its value. -/
  value : String
  /-- Whether programs that are started get it. -/
  exported : Bool
  deriving DecidableEq, Repr

/-- The state of a run. -/
structure State where
  /-- The files; the working directory is that of the run. -/
  files : FileTree
  /-- The time. -/
  clock : Nat
  /-- The time at which the run is broken off. -/
  limit : Nat
  /-- The number of the process. -/
  process : Nat
  /-- The variables. -/
  bindings : List Variable
  /-- The name of the script. -/
  name : String
  /-- The arguments. -/
  arguments : List String
  /-- The exit code of the last command. -/
  status : Nat
  /-- The file descriptors. -/
  descriptors : List (Nat × Channel)
  /-- Collections of output. -/
  collections : List (List UInt8)
  /-- Supplies of input. -/
  supplies : List (List UInt8)
  /-- What watchers have seen, the latest first, with the time and whether it is error output. -/
  printed : List (Nat × Bool × List UInt8)
  /-- The files after each change, the latest first, with the time. -/
  changes : List (Nat × FileTree)
  /-- Functions. -/
  functions : List (String × Command)
  /-- Commands for signals; the end of the script is signal zero. -/
  traps : List (Nat × String)
  /-- Whether a command that fails ends the script. -/
  strict : Bool
  /-- Whether a failure is being looked at, so that it does not end the script. -/
  guarded : Bool
  /-- When the commands that nobody waits for are over. -/
  backgroundEnd : Nat

/-- A step of a run. -/
abbrev Run (α : Type) := ExceptT Halt (StateM State) α

namespace Run

/-- How long a step takes that starts no program. -/
def stepTime : Nat := 5

/-- How long it takes to start a program. -/
def startTime : Nat := 1000

/-- Lets time pass. -/
def spend (time : Nat) : Run Unit := do
  let state ← get
  if state.limit < state.clock + time then
    set { state with clock := state.limit }
    throw .timeUp
  else set { state with clock := state.clock + time }

/-- The channel of a descriptor. -/
def channel (descriptor : Nat) : Run Channel := do
  let found := (← get).descriptors.find? fun entry => entry.1 == descriptor
  return (found.map Prod.snd).getD .nothing

/-- Changes files. -/
def setFiles (files : FileTree) : Run Unit :=
  modify fun state => { state with files, changes := (state.clock, files) :: state.changes }

/-- The list with its element at an index changed. -/
def changeAt (f : α → α) : Nat → List α → List α
  | _, [] => []
  | 0, item :: rest => f item :: rest
  | index + 1, item :: rest => item :: changeAt f index rest

/-- Writes bytes to a descriptor. -/
def write (descriptor : Nat) (bytes : List UInt8) : Run Unit := do
  match ← channel descriptor with
  | .nothing | .supplied _ => return ()
  | .watched isError =>
    modify fun state => { state with printed := (state.clock, isError, bytes) :: state.printed }
  | .collected number =>
    modify fun state =>
      { state with collections := changeAt (· ++ bytes) number state.collections }
  | .file place =>
    let files := (← get).files
    match files.at? place with
    | some (.file old) => setFiles (files.put place (.file (old ++ bytes)))
    | _ => return ()

/-- Writes a text to a descriptor. -/
def writeText (descriptor : Nat) (text : String) : Run Unit := write descriptor (Text.bytesOf text)

/-- A complaint of a program, which then fails. -/
def complain (text : String) (status : Nat) : Run Nat := do
  writeText 2 (text ++ "\n")
  return status

/-- All that can be read from a descriptor. -/
def readAll (descriptor : Nat) : Run (List UInt8) := do
  match ← channel descriptor with
  | .supplied number =>
    let state ← get
    set { state with supplies := changeAt (fun _ => []) number state.supplies }
    return (state.supplies[number]?).getD []
  | _ => return []

/-- The next line that can be read from a descriptor, without its end, if there is one. -/
def readLine (descriptor : Nat) : Run (Option (List UInt8)) := do
  match ← channel descriptor with
  | .supplied number =>
    let state ← get
    let supply := (state.supplies[number]?).getD []
    let line := supply.takeWhile (· != 10)
    set { state with
      supplies := changeAt (fun bytes => bytes.drop (line.length + 1)) number state.supplies }
    return if supply.length == line.length then none else some line
  | _ => return none

/-- A channel to a new collection of output. -/
def newCollection : Run Nat := do
  let state ← get
  set { state with collections := state.collections ++ [[]] }
  return state.collections.length

/-- A channel from a new supply of input. -/
def newSupply (bytes : List UInt8) : Run Nat := do
  let state ← get
  set { state with supplies := state.supplies ++ [bytes] }
  return state.supplies.length

/-- Gives a descriptor a channel. -/
def assign (descriptor : Nat) (channel : Channel) : Run Unit :=
  modify fun state =>
    let others := state.descriptors.filter fun entry => entry.1 != descriptor
    { state with descriptors := (descriptor, channel) :: others }

/-- The value of a variable. -/
def variableValue? (name : String) : Run (Option String) := do
  return ((← get).bindings.find? fun entry => entry.name == name).map Variable.value

/-- Gives a variable a value. -/
def setVariable (name value : String) (exported : Bool) : Run Unit :=
  modify fun state =>
    let old := state.bindings.find? fun entry => entry.name == name
    let exported := exported || (old.map Variable.exported).getD false
    { state with
      bindings := state.bindings.filter (fun entry => entry.name != name) ++
        [{ name, value, exported }] }

/-- Runs something, giving its outcome whatever that is. -/
def outcome (run : Run α) : Run (Except Halt α) :=
  ExceptT.mk do return .ok (← run.run)

/-- Goes on with an outcome. -/
def resume (result : Except Halt α) : Run α := ExceptT.mk (return result)

/-- Runs something and puts a part of the state back afterwards. -/
def restoring (restore : State → State → State) (run : Run α) : Run α := do
  let before ← get
  let result ← outcome run
  modify (restore before)
  resume result

/-- Runs something with descriptors of its own. -/
def withDescriptors (run : Run α) : Run α :=
  restoring (fun before after => { after with descriptors := before.descriptors }) run

/-- Runs something in an environment of its own: afterwards all is as before but for what others
can see. -/
def apart (run : Run α) : Run α :=
  restoring (fun before after => { before with
    files := { after.files with workingPlace := before.files.workingPlace }
    clock := after.clock, collections := after.collections, supplies := after.supplies
    printed := after.printed, changes := after.changes
    backgroundEnd := after.backgroundEnd }) run

/-- Runs something again and again as long as it says so. -/
def whileTrue (run : Run Bool) : (fuel : Nat) → Run Unit
  | 0 => return ()
  | fuel + 1 => do
    if ← run then whileTrue run fuel

end Run
end Shell
end DebugBridge
