import DebugBridge.Debugger.Course

/-!
Operations performed against an engine that plays from a script.  The engine reads one command at a
time and answers it with the next entry of the script, some frames; where the script is over, it
answers in the usual way.  After every frame everything that can happen happens before the next one
is sent, and time passes only where nothing else can happen.
-/

namespace DebugBridge

/-- What a scripted engine does. -/
inductive Cue where
  /-- It sends a payload.  Placeholders in it stand for the id of the command that it answers, the
  id of the command before, and the name of the command. -/
  | payload (text : String)
  /-- It sends bytes. -/
  | bytes (bytes : List UInt8)
  /-- It answers in the usual way. -/
  | usual
  /-- It does nothing. -/
  | rest
  /-- It drops the connection. -/
  | leave

/-- A command that a scripted engine answers. -/
structure Asked where
  /-- Its id. -/
  id : String
  /-- The id of the command before. -/
  previous : String
  /-- The command. -/
  command : Command

namespace Asked

/-- A text with its placeholders replaced. -/
def fill (asked : Asked) (text : String) : String :=
  ((text.replace "\x7btid\x7d" asked.id).replace "\x7bprev\x7d" asked.previous).replace
    "\x7bcmd\x7d" asked.command.name

/-- The payload of the usual answer: success, and for breakpoints one whose id is that of the
command. -/
def usualPayload (asked : Asked) : String :=
  let front := "<response command=\"\x7bcmd\x7d\" transaction_id=\"\x7btid\x7d\""
  asked.fill (match asked.command.name with
    | "breakpoint_set" => front ++ " state=\"enabled\" id=\"\x7btid\x7d\"/>"
    | "breakpoint_get" =>
      front ++ "><breakpoint id=\"" ++ (asked.command.get? 'd').getD "" ++
        "\" type=\"line\" state=\"enabled\"/></response>"
    | _ => front ++ " success=\"1\"/>")

end Asked

/-- The engine's side of a connection. -/
structure ScriptedEngine where
  /-- Whether it is connected. -/
  connected : Bool
  /-- The id of the command that it read last. -/
  lastId : String

namespace ScriptedEngine

/-- An engine that is connected and has read nothing. -/
def fresh : ScriptedEngine := { connected := true, lastId := "" }

/-- What an engine refers to when it speaks without being asked. -/
def unasked (engine : ScriptedEngine) : Asked :=
  { id := engine.lastId, previous := engine.lastId, command := .named "" }

end ScriptedEngine

/-- An operation, and one that may start at its side, on their way. -/
structure Rehearsal (α β : Type) where
  /-- The operations with their surroundings. -/
  scene : Scene α β
  /-- The engine. -/
  engine : ScriptedEngine
  /-- What the engine answers next. -/
  script : List (List Cue)
  /-- The command lines that the engine has read. -/
  wire : List String
  /-- The operation that starts once the first command has been answered. -/
  later : Option (Talk β)

namespace Rehearsal

/-- How long a scripted engine waits before it sends something, in milliseconds. -/
def settleTime : Nat := 2

/-- Lets a little time pass. -/
def wait (rehearsal : Rehearsal α β) : Rehearsal α β :=
  let time := rehearsal.scene.surroundings.clock + settleTime
  { rehearsal with scene := rehearsal.scene.moveTo time }

/-- Changes the surroundings, and lets happen what comes of it. -/
def change (rehearsal : Rehearsal α β) (f : Surroundings → Surroundings) : Rehearsal α β :=
  let scene := rehearsal.scene
  { rehearsal with scene := { scene with surroundings := f scene.surroundings }.settle }

/-- The engine does something. -/
def act (asked : Asked) (rehearsal : Rehearsal α β) (cue : Cue) : Rehearsal α β :=
  let rehearsal := rehearsal.wait
  let send := fun (text : String) =>
    rehearsal.change (·.receive (Frame.encode (Text.bytesOf (asked.fill text))))
  if !rehearsal.engine.connected then rehearsal
  else
    match cue with
    | .payload text => send text
    | .bytes bytes => rehearsal.change (·.receive bytes)
    | .usual => send asked.usualPayload
    | .rest => rehearsal
    | .leave =>
      { rehearsal.change (·.feed .disconnected) with
        engine := { rehearsal.engine with connected := false } }

/-- The next command that the engine reads, if one has been written. -/
def readCommand? (rehearsal : Rehearsal α β) : Option ((Nat × Command) × Rehearsal α β) :=
  let scene := rehearsal.scene
  let client := scene.surroundings.client
  match client.written with
  | [] => none
  | first :: rest =>
    if rehearsal.engine.connected then
      let surroundings := { scene.surroundings with client := { client with written := rest } }
      some (first, { rehearsal with scene := { scene with surroundings } })
    else none

/-- Starts the operation at the side, if it has not been started. -/
def startLater (rehearsal : Rehearsal α β) : Rehearsal α β :=
  match rehearsal.later with
  | none => rehearsal
  | some talk =>
    let (side, surroundings) := Course.start talk rehearsal.scene.surroundings
    { rehearsal with
      later := none
      scene := { rehearsal.scene with side := some side, surroundings }.settle }

/-- The engine answers a command. -/
def reply (rehearsal : Rehearsal α β) (id : Nat) (command : Command) : Rehearsal α β :=
  let asked := { id := toString id, previous := rehearsal.engine.lastId, command }
  let cues := rehearsal.script.headD [.usual]
  let heard : Rehearsal α β :=
    { rehearsal with
      script := rehearsal.script.drop 1
      engine := { rehearsal.engine with lastId := asked.id }
      wire := rehearsal.wire ++ [String.ofList (command.line id)] }
  (cues.foldl (act asked) heard).startLater

/-- Goes on, for a number of turns, until everything is over or nothing can happen any more. -/
def goOn : (turns : Nat) → Rehearsal α β → Rehearsal α β
  | 0, rehearsal => rehearsal
  | turns + 1, rehearsal =>
    match rehearsal.readCommand? with
    | some ((id, command), rehearsal) => (rehearsal.reply id command).goOn turns
    | none =>
      if rehearsal.scene.main.result?.isSome && rehearsal.later.isSome then
        rehearsal.startLater.goOn turns
      else if rehearsal.scene.isOver then rehearsal
      else
        match rehearsal.scene.nextDeadline? with
        | some time => { rehearsal with scene := rehearsal.scene.moveTo time }.goOn turns
        | none => rehearsal

/-- Performs an operation.  The engine first does some things without being asked, and then answers
from a script. -/
def perform (surroundings : Surroundings) (engine : ScriptedEngine) (first : List Cue)
    (script : List (List Cue)) (main : Talk α) (later : Option (Talk β)) : Rehearsal α β :=
  let (main, surroundings) := Course.start main surroundings
  let scene := Scene.settle { main, side := none, surroundings }
  let opening : Rehearsal α β := { scene, engine, script, wire := [], later }
  ((first.foldl (act engine.unasked) opening).goOn Debugger.turnLimit).wait

/-- Lets time pass until `target`, with everything happening at its time; at most a number of
turns. -/
def linger (target : Nat) : (turns : Nat) → Rehearsal α β → Rehearsal α β
  | 0, rehearsal => rehearsal
  | turns + 1, rehearsal =>
    match rehearsal.scene.nextDeadline? with
    | some time =>
      if rehearsal.scene.surroundings.clock < time && time < target then
        { rehearsal with scene := rehearsal.scene.moveTo time }.linger target turns
      else { rehearsal with scene := rehearsal.scene.moveTo target }
    | none => { rehearsal with scene := rehearsal.scene.moveTo target }

/-- The surroundings afterwards, with nothing left to look at. -/
def aftermath (rehearsal : Rehearsal α β) : Surroundings :=
  let surroundings := rehearsal.scene.surroundings
  { surroundings with events := [], client := { surroundings.client with written := [] } }

end Rehearsal
end DebugBridge
