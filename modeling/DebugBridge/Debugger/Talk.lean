import DebugBridge.Debugger.Event
import DebugBridge.Debugger.Error
import DebugBridge.Net.Address
import DebugBridge.Process.Basic

/-!
What the debugger does, as a dialogue with its surroundings.  A talk ends with a result or makes a
request and goes on with the answer to it; what surrounds the debugger, the engine above all, may
answer each request as it likes.  An operation is a talk that changes a state and may fail, the
changes made before a failure being kept.
-/

namespace DebugBridge

/-- What becomes of waiting for an engine that is being started. -/
inductive Arrival where
  /-- It is connected. -/
  | connected
  /-- Its process has ended. -/
  | exited (code : Option Int)
  /-- The time is over. -/
  | timedOut
  /-- The system refuses to go on waiting. -/
  | refused
  deriving DecidableEq, Repr

/-- What becomes of waiting for the engine's greeting. -/
inductive Greeting where
  /-- It came. -/
  | init (packet : InitPacket)
  /-- The session has failed. -/
  | failed (error : SessionError)
  /-- The time is over. -/
  | timedOut

/-- What becomes of a process that is given a text to read. -/
inductive HelperOutcome where
  /-- It cannot be started. -/
  | notStarted
  /-- It does not take the text. -/
  | broken
  /-- It does not end in time. -/
  | stuck
  /-- It ended, with its exit code and its output. -/
  | ended (code : Option Int) (output : String)
  deriving DecidableEq, Repr

/-- What the debugger asks of its surroundings. -/
inductive Request where
  /-- Send the engine a command in its turn, waiting at most so many milliseconds for the answer. -/
  | submit (command : Command) (limit : Option Nat)
  /-- Send the engine a command at once. -/
  | interrupt (command : Command)
  /-- Ask the engine to go its own way, and end the session. -/
  | detach
  /-- Whether the session has ended. -/
  | isClosed
  /-- End the session. -/
  | close
  /-- Wait for the engine's greeting. -/
  | awaitInit (limit : Nat)
  /-- Report an event. -/
  | report (event : DebugEvent)
  /-- From now on report what the session does and how it ends; `launched` and `listening` tell
  whether there are a process and a listener to care for. -/
  | supervise (launched listening : Bool)
  /-- Wait until the end of the session has been reported. -/
  | awaitEnd
  /-- Let the process run on when the session ends. -/
  | letGo
  /-- Whether the process is to run on when the session ends. -/
  | isLetGo
  /-- Wait for engines at an address. -/
  | listen (host : String) (port : Nat)
  /-- Start the interpreter. -/
  | spawn (call : ProcessCall)
  /-- Wait for the engine, or for the end of its process. -/
  | awaitEngine (limit : Nat) (launched : Bool)
  /-- Connect to an engine that waits at an address. -/
  | connect (host : String) (port : Nat)
  /-- The exit code of the process, if it has ended. -/
  | exitCode
  /-- Wait for the end of the process, at most so many milliseconds. -/
  | awaitExit (limit : Option Nat)
  /-- End the process. -/
  | kill
  /-- Run a process to its end, giving it a text to read. -/
  | consult (call : ProcessCall) (input : String) (limit : Nat)
  /-- The time in milliseconds. -/
  | now
  /-- Let so many milliseconds pass. -/
  | sleep (time : Nat)

/-- What a request is answered with. -/
abbrev Request.Answer : Request → Type
  | .submit _ _ => Except SessionError Response
  | .interrupt _ => Except SessionError Response
  | .detach => Except SessionError Unit
  | .isClosed => Bool
  | .close => Unit
  | .awaitInit _ => Greeting
  | .report _ => Unit
  | .supervise _ _ => Unit
  | .awaitEnd => Unit
  | .letGo => Unit
  | .isLetGo => Bool
  | .listen _ _ => Except SystemFault SocketAddress
  | .spawn _ => Bool
  | .awaitEngine _ _ => Arrival
  | .connect _ _ => Bool
  | .exitCode => Option (Option Int)
  | .awaitExit _ => Option (Option Int)
  | .kill => Unit
  | .consult _ _ _ => HelperOutcome
  | .now => Nat
  | .sleep _ => Unit

/-- A dialogue with the surroundings. -/
inductive Talk (α : Type) where
  /-- It is over. -/
  | done (result : α)
  /-- It makes a request and goes on with the answer. -/
  | call (request : Request) (next : request.Answer → Talk α)
  /-- It never ends. -/
  | stuck

namespace Talk

/-- Goes on after a talk. -/
def andThen : Talk α → (α → Talk β) → Talk β
  | .done result, next => next result
  | .call request rest, next => .call request fun answer => (rest answer).andThen next
  | .stuck, _ => .stuck

instance : Monad Talk where
  pure := .done
  bind := andThen

/-- A single request. -/
def ask (request : Request) : Talk request.Answer := .call request .done

/-- The result of a talk, if it ends, where each request is answered by a rule that may depend on a
state of the surroundings. -/
def run (answer : (request : Request) → σ → request.Answer × σ) : Talk α → σ → Option α × σ
  | .done result, state => (some result, state)
  | .call request next, state =>
    let (reply, state) := answer request state
    (next reply).run answer state
  | .stuck, state => (none, state)

end Talk

/-- A talk that changes a state and may fail. -/
abbrev Operation (σ α : Type) := ExceptT DebugError (StateT σ Talk) α

namespace Operation

/-- A request in an operation. -/
def ask (request : Request) : Operation σ request.Answer :=
  ExceptT.lift (StateT.lift (Talk.ask request))

/-- Reports an event. -/
def report (event : DebugEvent) : Operation σ Unit := ask (.report event)

/-- Sends the engine a command; the engine's own errors are no failure. -/
def attempt (command : Command) : Operation σ (Except EngineError Response) := do
  match ← ask (.submit command none) with
  | .ok response => return .ok response
  | .error (.engine error) => return .error error
  | .error error => throw (.session error)

/-- Sends the engine a command that has to succeed. -/
def command (command : Command) : Operation σ Response := do
  match ← attempt command with
  | .ok response => return response
  | .error error => throw (.engine error)

/-- The result of reading an answer. -/
def orThrow (result : Except ProtocolError α) : Operation σ α :=
  match result with
  | .ok value => return value
  | .error error => throw (.session (.protocol error))

/-- An operation that never ends. -/
def stuck : Operation σ α := ExceptT.mk fun _ => Talk.stuck

/-- An operation on a part of a state. -/
def within (get : τ → σ) (set : σ → τ → τ) (operation : Operation σ α) : Operation τ α :=
  ExceptT.mk fun state => do
    let (result, part) ← operation.run (get state)
    return (result, set part state)

end Operation
end DebugBridge
