import DebugBridge.Protocol.Command
import DebugBridge.Protocol.Frame

/-!
A session with an engine over one connection.  Commands of callers are written one at a time: the
next one only when the one in flight has been answered.  An interrupt is written at once.  Answers
are matched to commands by transaction id, everything else that arrives becomes an event, and when
the session ends every caller that is still waiting is told so.

The session is a machine: `step` takes one input and gives the changed session with what it does.
Callers and the engine only leave something for the session, in its mailbox and with what is
incoming; it takes up one thing at a time, from either side, so a run of inputs is one of the orders
in which all of them may move.
-/

namespace DebugBridge

/-- Why a caller gets no answer. -/
inductive SessionError where
  /-- A fault on the wire. -/
  | protocol (error : ProtocolError)
  /-- The engine answered with an error. -/
  | engine (error : EngineError)
  /-- The connection is gone. -/
  | closed
  /-- The caller stopped waiting for a command. -/
  | cancelled (command : String)
  deriving DecidableEq, Repr

/-- The wording of a session error. -/
def SessionError.message : SessionError → String
  | .protocol error => "protocol error: " ++ error.message
  | .engine error => error.message
  | .closed => "session closed"
  | .cancelled command => "command `" ++ command ++ "` cancelled before its response arrived"

/-- What a session reports besides answers. -/
inductive SessionEvent where
  /-- The engine's greeting. -/
  | init (packet : InitPacket)
  /-- Output of the script. -/
  | stream (packet : StreamPacket)
  /-- A notification. -/
  | notify (element : Element)
  /-- Something that could not be used. -/
  | fault (error : ProtocolError)
  /-- The session has ended. -/
  | closed

/-- How a command goes out. -/
inductive Lane where
  /-- In its turn, when the commands before it have been answered. -/
  | turn
  /-- At once. -/
  | urgent
  deriving DecidableEq, Repr

/-- A command that was written and not yet answered. -/
structure Pending where
  /-- Its transaction id. -/
  id : Nat
  /-- The call that it belongs to. -/
  call : Nat
  deriving DecidableEq, Repr

/-- A command that waits to be written. -/
structure Queued where
  /-- The call that it belongs to. -/
  call : Nat
  /-- The command. -/
  command : Command
  deriving DecidableEq, Repr

/-- What is asked of a session. -/
inductive Message where
  /-- To write a command. -/
  | send (lane : Lane) (queued : Queued)
  /-- To end, and then to let a call return. -/
  | close (call : Nat)
  /-- Nothing any more: nobody can ask for anything. -/
  | released
  deriving DecidableEq, Repr

/-- What comes from the engine. -/
inductive Incoming where
  /-- Something that was taken off the buffer. -/
  | item (item : Frame.Item)
  /-- The end of the connection. -/
  | ended

/-- A session. -/
structure Session where
  /-- Number of the next call. -/
  nextCall : Nat
  /-- Transaction id of the next command. -/
  nextId : Nat
  /-- The command that was written last in its turn, until it is answered. -/
  inFlight : Option Pending
  /-- Commands that wait for their turn. -/
  queue : List Queued
  /-- Interrupts that were not answered yet. -/
  interrupts : List Pending
  /-- Calls whose callers have stopped waiting. -/
  givenUp : List Nat
  /-- What was asked of the session and not taken up yet. -/
  mailbox : List Message
  /-- What has come from the engine and was not taken up yet. -/
  incoming : List Incoming
  /-- Bytes that were received and not decoded yet. -/
  buffer : List UInt8
  /-- Whether bytes are read from the connection. -/
  readable : Bool
  /-- Whether bytes can be written to the connection. -/
  writable : Bool
  /-- Whether the session goes on. -/
  isOpen : Bool

/-- What happens to a session. -/
inductive Input where
  /-- A call submits a command. -/
  | submit (command : Command)
  /-- A call sends an interrupt. -/
  | interrupt (command : Command)
  /-- A call asks the session to end. -/
  | close
  /-- The last one who could make calls is gone. -/
  | released
  /-- The caller of a call stops waiting. -/
  | abandon (call : Nat)
  /-- Bytes arrive. -/
  | received (bytes : List UInt8)
  /-- The engine closes the connection. -/
  | disconnected
  /-- The engine can no longer be written to. -/
  | jammed
  /-- The session takes up the next message. -/
  | attend
  /-- The session takes up the next thing that has come from the engine. -/
  | listen

/-- What a session does. -/
inductive Effect where
  /-- It writes the command of a call with a transaction id. -/
  | write (lane : Lane) (call id : Nat) (command : Command)
  /-- It takes an answer of the engine for the one to the command of a call. -/
  | answered (call : Nat) (response : Response)
  /-- It gives a call its result. -/
  | reply (call : Nat) (result : Except SessionError Response)
  /-- It lets a call return that asked it to end. -/
  | returned (call : Nat)
  /-- It reports an event. -/
  | event (event : SessionEvent)

namespace Session

/-- A new session. -/
def initial : Session :=
  { nextCall := 1, nextId := 1, inFlight := none, queue := [], interrupts := [], givenUp := []
    mailbox := [], incoming := [], buffer := [], readable := true, writable := true
    isOpen := true }

/-- The transaction id after another one: ids start again at one after the largest. -/
def idAfter (id : Nat) : Nat := if id == Text.maxWord then 1 else id + 1

/-- Whether the caller of a call has stopped waiting. -/
def hasGivenUp (session : Session) (call : Nat) : Bool := session.givenUp.contains call

/-- Gives a call its result, if its caller still waits. -/
def tell (session : Session) (result : Except SessionError Response) (call : Nat) : List Effect :=
  if session.hasGivenUp call then [] else [.reply call result]

/-- Tells a call that the session has ended. -/
def tellClosed (session : Session) (call : Nat) : List Effect := session.tell (.error .closed) call

/-- Answers a message that comes too late. -/
def turnAway (session : Session) : Message → List Effect
  | .send _ queued => session.tellClosed queued.call
  | .close call => [.returned call]
  | .released => []

/-- Ends the session: every caller is told, and the end is reported. -/
def teardown (session : Session) : Session × List Effect :=
  ({ session with
      inFlight := none, queue := [], interrupts := [], mailbox := [], incoming := [], buffer := []
      readable := false, isOpen := false },
    (session.inFlight.toList ++ session.interrupts).flatMap
        (fun pending => session.tellClosed pending.call) ++
      session.queue.flatMap (fun queued => session.tellClosed queued.call) ++
      session.mailbox.flatMap session.turnAway ++ [.event .closed])

/-- Goes on after some effects. -/
def andThen (before : List Effect) (next : Session × List Effect) : Session × List Effect :=
  (next.1, before ++ next.2)

/-- Puts an interrupt into the table of those not answered; one with the same id leaves it. -/
def addInterrupt (session : Session) (pending : Pending) : Session × List Effect :=
  ({ session with
      interrupts := session.interrupts.filter (fun other => other.id != pending.id) ++ [pending] },
    (session.interrupts.filter fun other => other.id == pending.id).flatMap fun other =>
      session.tellClosed other.call)

/-- Notes that a command was written. -/
def keep (session : Session) (lane : Lane) (pending : Pending) : Session × List Effect :=
  match lane with
  | .turn => ({ session with inFlight := some pending }, [])
  | .urgent => session.addInterrupt pending

/-- Writes a command.  If that is not possible the session ends. -/
def write (session : Session) (lane : Lane) (queued : Queued) : Session × List Effect :=
  if session.writable then
    andThen [.write lane queued.call session.nextId queued.command]
      ({ session with nextId := idAfter session.nextId }.keep lane ⟨session.nextId, queued.call⟩)
  else andThen (session.tellClosed queued.call) session.teardown

/-- Writes the first command of the queue whose caller still waits, if none is in flight. -/
def pump (session : Session) : Session × List Effect :=
  match session.inFlight with
  | some _ => (session, [])
  | none =>
    match session.queue.dropWhile fun queued => session.hasGivenUp queued.call with
    | [] => ({ session with queue := [] }, [])
    | queued :: rest => { session with queue := rest }.write .turn queued

/-- The pending command with a transaction id, and the session without it. -/
def take? (session : Session) (id : Nat) : Option (Pending × Session) :=
  match session.inFlight.filter fun pending => pending.id == id with
  | some pending => some (pending, { session with inFlight := none })
  | none =>
    (session.interrupts.find? fun pending => pending.id == id).map fun pending =>
      (pending, { session with
        interrupts := session.interrupts.filter fun other => other.id != id })

/-- The outcome that an answer means for its caller. -/
def outcome (response : Response) : Except SessionError Response :=
  match response.error with
  | some error => .error (.engine error)
  | none => .ok response

/-- Handles an answer of the engine. -/
def handleResponse (session : Session) (response : Response) : Session × List Effect :=
  match session.take? response.id with
  | some (pending, session) =>
    andThen (.answered pending.call response :: session.tell (outcome response) pending.call)
      session.pump
  | none => (session, [.event (.fault (.unmatchedTransaction response.id))])

/-- Handles something that was taken off the buffer. -/
def handleItem (session : Session) : Frame.Item → Session × List Effect
  | .fault error => (session, [.event (.fault error)])
  | .packet (.init packet) => (session, [.event (.init packet)])
  | .packet (.stream packet) => (session, [.event (.stream packet)])
  | .packet (.notify element) => (session, [.event (.notify element)])
  | .packet (.response response) => session.handleResponse response

/-- Handles a message. -/
def handleMessage (session : Session) : Message → Session × List Effect
  | .send .turn queued => { session with queue := session.queue ++ [queued] }.pump
  | .send .urgent queued => session.write .urgent queued
  | .close call =>
    let (session, effects) := session.teardown
    (session, effects ++ [.returned call])
  | .released => session.teardown

/-- Handles something that has come from the engine. -/
def handleIncoming (session : Session) : Incoming → Session × List Effect
  | .item item => session.handleItem item
  | .ended => session.teardown

/-- Takes up the next message, if the session goes on. -/
def attend (session : Session) : Session × List Effect :=
  match session.isOpen, session.mailbox with
  | true, message :: rest => { session with mailbox := rest }.handleMessage message
  | _, _ => (session, [])

/-- Takes up the next thing that has come from the engine, if the session goes on. -/
def listen (session : Session) : Session × List Effect :=
  match session.isOpen, session.incoming with
  | true, incoming :: rest => { session with incoming := rest }.handleIncoming incoming
  | _, _ => (session, [])

/-- Leaves a message for the session.  One that has ended answers at once. -/
def post (session : Session) (message : Message) : Session × List Effect :=
  if session.isOpen then ({ session with mailbox := session.mailbox ++ [message] }, [])
  else (session, session.turnAway message)

/-- Makes a call, which leaves a message with its number. -/
def call (session : Session) (message : Nat → Message) : Session × List Effect :=
  { session with nextCall := session.nextCall + 1 }.post (message session.nextCall)

/-- Forgets the caller of a call that was made. -/
def abandon (session : Session) (call : Nat) : Session :=
  if call < session.nextCall then { session with givenUp := call :: session.givenUp } else session

/-- Decodes bytes that arrive, after those in the buffer. -/
def receive (session : Session) (bytes : List UInt8) : Session :=
  if session.readable then
    let (items, rest) := Frame.drain (session.buffer ++ bytes)
    { session with
      incoming := session.incoming ++ items.map fun entry => .item entry.1
      buffer := rest }
  else session

/-- Notes that the connection has come to its end; bytes that make no whole frame are lost. -/
def endOfBytes (session : Session) : Session :=
  if session.readable then
    { session with incoming := session.incoming ++ [.ended], buffer := [], readable := false }
  else session

/-- One input. -/
def step (session : Session) : Input → Session × List Effect
  | .submit command => session.call fun call => .send .turn ⟨call, command⟩
  | .interrupt command => session.call fun call => .send .urgent ⟨call, command⟩
  | .close => session.call .close
  | .released => session.post .released
  | .abandon call => (session.abandon call, [])
  | .received bytes => (session.receive bytes, [])
  | .disconnected => (session.endOfBytes, [])
  | .jammed => ({ session with writable := false }, [])
  | .attend => session.attend
  | .listen => session.listen

/-- A run of inputs, with everything that the session does. -/
def run (session : Session) : List Input → Session × List Effect
  | [] => (session, [])
  | input :: rest =>
    let (session, effects) := session.step input
    andThen effects (session.run rest)

/-- Takes up everything that is there, messages first. -/
def settle (session : Session) : Session × List Effect :=
  session.run (List.replicate session.mailbox.length .attend ++
    List.replicate session.incoming.length .listen)

/-- One input, and everything that comes of it. -/
def respond (session : Session) (input : Input) : Session × List Effect :=
  let (session, effects) := session.step input
  andThen effects session.settle

end Session
end DebugBridge
