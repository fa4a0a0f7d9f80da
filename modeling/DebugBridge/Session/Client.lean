import DebugBridge.Session.Basic

/-!
The callers of a session.  A caller waits for the answer to its command, possibly for a limited
time; a caller that detaches ends the session once its command is answered.  Time is a number of
milliseconds that only moves when it is told to.
-/

namespace DebugBridge

/-- A caller that waits. -/
structure Caller where
  /-- The call. -/
  call : Nat
  /-- Name of the command that it waits for. -/
  command : String
  /-- When it stops waiting. -/
  deadline : Option Nat
  /-- Whether the session ends with the answer. -/
  detaching : Bool
  deriving DecidableEq, Repr

/-- A session with its callers, and what has happened since that was last looked at. -/
structure Client where
  /-- The session. -/
  session : Session
  /-- The time in milliseconds. -/
  clock : Nat
  /-- Callers that wait. -/
  callers : List Caller
  /-- Command lines that were written. -/
  written : List (Nat × Command)
  /-- Calls that have finished; a caller that detaches gets no answer of its own. -/
  finished : List (Nat × Except SessionError (Option Response))
  /-- Events that were not read yet. -/
  events : List SessionEvent

namespace Client

/-- A client of a new session. -/
def initial : Client :=
  { session := .initial, clock := 0, callers := [], written := [], finished := [], events := [] }

/-- The result of a detaching call: that the session is gone or the engine does not know the
command is no failure. -/
def detachResult : Except SessionError Response → Except SessionError (Option Response)
  | .ok _ => .ok none
  | .error .closed => .ok none
  | .error (.engine error) =>
    if error.code == EngineError.unimplemented then .ok none else .error (.engine error)
  | .error error => .error error

/-- Notes effects of the session.  Also gives the detaching calls that were answered. -/
def note (client : Client) : List Effect → Client × List (Nat × Except SessionError Response)
  | [] => (client, [])
  | .write _ _ id command :: rest =>
    { client with written := client.written ++ [(id, command)] }.note rest
  | .event event :: rest => { client with events := client.events ++ [event] }.note rest
  | .answered _ _ :: rest => client.note rest
  | .returned _ :: rest => client.note rest
  | .reply call result :: rest =>
    match client.callers.find? fun caller => caller.call == call with
    | none => client.note rest
    | some caller =>
      let client := { client with callers := client.callers.filter fun other => other.call != call }
      if caller.detaching then
        let (client, detached) := client.note rest
        (client, (call, result) :: detached)
      else
        { client with finished := client.finished ++ [(call, result.map some)] }.note rest

/-- Ends the session for callers that were answered while they detach. -/
def finishDetaching (client : Client) :
    List (Nat × Except SessionError Response) → Client
  | [] => client
  | (call, result) :: rest =>
    let (session, effects) := client.session.respond .close
    let (client, _) := { client with session }.note effects
    let finished := client.finished ++ [(call, detachResult result)]
    { client with finished }.finishDetaching rest

/-- Lets the callers take what the session has done. -/
def take (client : Client) (next : Session × List Effect) : Client :=
  let (client, detached) := { client with session := next.1 }.note next.2
  client.finishDetaching detached

/-- Gives the session an input and lets its callers take what comes of it. -/
def feed (client : Client) (input : Input) : Client := client.take (client.session.respond input)

/-- A caller goes away without a result. -/
def abort (client : Client) (call : Nat) : Client :=
  { client with callers := client.callers.filter fun caller => caller.call != call }.feed
    (.abandon call)

/-- A caller stops waiting and gets the result that its command was cancelled. -/
def cancel (client : Client) (call : Nat) : Client :=
  match client.callers.find? fun caller => caller.call == call with
  | none => client
  | some caller =>
    let client := client.abort call
    { client with finished := client.finished ++ [(call, .error (.cancelled caller.command))] }

/-- The client with one more caller, the one of the next call. -/
def addCaller (client : Client) (command : String) (deadline : Option Nat) (detaching : Bool) :
    Client :=
  let caller := { call := client.session.nextCall, command, deadline, detaching }
  { client with callers := client.callers ++ [caller] }

/-- Sends a command, waiting at most `limit` milliseconds.  A caller that does not wait at all
gives up before the session takes up its command. -/
def submit (client : Client) (command : Command) (limit : Option Nat) : Client × Nat :=
  let call := client.session.nextCall
  let client := client.addCaller command.name (limit.map (client.clock + ·)) false
  if limit == some 0 then ((client.take (client.session.step (.submit command))).cancel call, call)
  else (client.feed (.submit command), call)

/-- Sends an interrupt. -/
def interrupt (client : Client) (command : Command) : Client × Nat :=
  let call := client.session.nextCall
  ((client.addCaller command.name none false).feed (.interrupt command), call)

/-- Asks the engine to detach, and ends the session when that is answered. -/
def detach (client : Client) : Client × Nat :=
  let command := Command.named "detach"
  let call := client.session.nextCall
  ((client.addCaller command.name none true).feed (.submit command), call)

/-- Lets time pass: callers whose time is over stop waiting. -/
def advance (client : Client) (ms : Nat) : Client :=
  let clock := client.clock + ms
  let late := client.callers.filter fun caller => caller.deadline.any (· ≤ clock)
  late.foldl (fun client caller => client.cancel caller.call) { client with clock }

/-- The largest number of bytes that are read at once. -/
def readSize : Nat := 4096

/-- Bytes in portions of the size in which they are read. -/
def portions (bytes : List UInt8) : List (List UInt8) :=
  if bytes.isEmpty then []
  else bytes.take readSize :: portions (bytes.drop readSize)
termination_by bytes.length
decreasing_by
  rename_i nonempty
  have : 0 < bytes.length := List.length_pos_iff.2 (by simpa using nonempty)
  simp only [List.length_drop, readSize]
  omega

/-- Bytes arrive from the engine. -/
def receive (client : Client) (bytes : List UInt8) : Client :=
  (portions bytes).foldl (fun client portion => client.feed (.received portion)) client

/-- Reads events until the engine's greeting; without an event left to read there is no result. -/
def takeInit? : List SessionEvent → Option (Except SessionError InitPacket × List SessionEvent)
  | [] => none
  | .init packet :: rest => some (.ok packet, rest)
  | .closed :: rest => some (.error .closed, rest)
  | _ :: rest => takeInit? rest

/-- Waits for the engine's greeting.  No result means that it waits for ever. -/
def waitForInit (client : Client) : Option (Except SessionError InitPacket) × Client :=
  match takeInit? client.events with
  | some (result, rest) => (some result, { client with events := rest })
  | none =>
    let result := if client.session.isOpen then none else some (.error .closed)
    (result, { client with events := [] })

end Client
end DebugBridge
