import DebugBridge.Debugger.Connection
import DebugBridge.Process.Observation
import DebugBridge.Session.Client

/-!
Surroundings that answer a debugger's requests, on a clock that is moved from outside.  A talk that
has been started is a course: it is over, or it waits for the answer to a request.  Besides the
talks that others start, the surroundings hold the process that was started and the supervision of
the session, which reports what the session does and in the end how it ends.  They are isolated:
the network takes listeners but carries no connections, so that an engine is one whose connection
is there from the start.
-/

namespace DebugBridge

/-- What the answer to a request depends on. -/
inductive Token where
  /-- Nothing but the moment. -/
  | now
  /-- A call of the session. -/
  | call (number : Nat)
  /-- A time, if there is one, after which waiting is over. -/
  | deadline (time : Option Nat)
  /-- What a helper comes to, at a time, and the files afterwards. -/
  | helper (time : Nat) (outcome : HelperOutcome) (files : FileTree)

/-- A talk that has been started. -/
inductive Course (α : Type) where
  /-- It is over. -/
  | over (result : α)
  /-- It waits for an answer. -/
  | waiting (request : Request) (token : Token) (next : request.Answer → Talk α)
  /-- It never ends. -/
  | stuck

/-- The result of a course that is over. -/
def Course.result? : Course α → Option α
  | .over result => some result
  | _ => none

/-- When a course stops waiting, if it ever does. -/
def Course.deadline? : Course α → Option Nat
  | .waiting _ (.deadline time) _ => time
  | .waiting _ (.helper time _ _) _ => some time
  | _ => none

/-- What becomes of a session's events. -/
inductive Supervision.State where
  /-- They are kept. -/
  | absent
  /-- They are reported. -/
  | present (launched listening : Bool)
  /-- The session has ended, and that is being reported. -/
  | ending (course : Course Unit)

/-- A process that was started. -/
structure StartedProcess where
  /-- When it was started. -/
  start : Nat
  /-- What it does. -/
  timeline : Timeline
  /-- The lines of output that have not been seen yet. -/
  unseen : List (Nat × Bool × String)

namespace StartedProcess

/-- A process that is started at a time. -/
def begin (start : Nat) (timeline : Timeline) : StartedProcess :=
  { start, timeline, unseen := timeline.lines }

/-- When its end is reported. -/
def endTime? (process : StartedProcess) : Option Nat :=
  process.timeline.reportedEnd?.map fun finish => process.start + finish.time

/-- Its exit code, if its end has been reported at a time. -/
def endedBy? (process : StartedProcess) (time : Nat) : Option (Option Int) :=
  (process.timeline.reportedEnd?.filter fun finish => process.start + finish.time ≤ time).map
    ProcessEnd.code

/-- The process ended from outside at a time. -/
def kill (process : StartedProcess) (time : Nat) : StartedProcess :=
  let age := time - process.start
  { process with
    timeline := process.timeline.endedAt age
    unseen := process.unseen.filter fun line => line.1 ≤ age }

/-- The event that reports a line. -/
def eventOf (line : Nat × Bool × String) : DebugEvent :=
  if line.2.1 then .stderr line.2.2 else .stdout line.2.2

/-- Reports the lines that are there at a time. -/
def takeLines (process : StartedProcess) (time : Nat) : List DebugEvent × StartedProcess :=
  let seen := process.unseen.takeWhile fun line => process.start + line.1 ≤ time
  (seen.map eventOf, { process with unseen := process.unseen.drop seen.length })

end StartedProcess

/-- The surroundings of a debugger. -/
structure Surroundings where
  /-- Files and environment. -/
  host : Host
  /-- The session, its callers and the clock. -/
  client : Client
  /-- Supervision of the session. -/
  supervision : Supervision.State
  /-- The process that was started. -/
  process : Option StartedProcess
  /-- Whether it is to run on when the session ends. -/
  letGo : Bool
  /-- What was reported and not looked at yet. -/
  events : List DebugEvent

namespace Surroundings

/-- Surroundings in which nothing has happened. -/
def initial (host : Host) : Surroundings :=
  { host, client := .initial, supervision := .absent, process := none, letGo := false
    events := [] }

/-- The time. -/
def clock (surroundings : Surroundings) : Nat := surroundings.client.clock

/-- Gives the session an input. -/
def feed (surroundings : Surroundings) (input : Input) : Surroundings :=
  { surroundings with client := surroundings.client.feed input }

/-- The address at which engines are waited for. -/
def listenAt (host : String) (port : Nat) : Except SystemFault SocketAddress :=
  match HostAddress.named? host with
  | none => .error .unknownHost
  | some address =>
    if address.isOwn then
      .ok { host := address, port := if port == 0 then SocketAddress.firstFreePort else port }
    else .error .foreignAddress

/-- What becomes of a helper that is given a text to read.  One that takes too long is ended. -/
def consult (surroundings : Surroundings) (call : ProcessCall) (input : String) (limit : Nat) :
    Token :=
  let host := surroundings.host
  let clock := surroundings.clock
  match call.timeline? host (some (Text.bytesOf input)) with
  | none => .helper clock .notStarted host.files
  | some timeline =>
    let stuck := .helper (clock + limit) .stuck (timeline.filesAt host.files limit)
    match timeline.finish with
    | none => stuck
    | some finish =>
      let time := timeline.silence
      let output := Text.textOf (timeline.outputOf false)
      if time ≤ limit then
        .helper (clock + time) (.ended finish.code output) (timeline.filesAt host.files time)
      else stuck

/-- Starts the interpreter, if that is possible. -/
def spawn (surroundings : Surroundings) (call : ProcessCall) : Bool × Surroundings :=
  match call.timeline? surroundings.host none with
  | none => (false, surroundings)
  | some timeline =>
    (true, { surroundings with process := some (.begin surroundings.clock timeline) })

/-- The exit code of the interpreter, if it has ended. -/
def exitCode? (surroundings : Surroundings) : Option (Option Int) :=
  surroundings.process.bind fun process => process.endedBy? surroundings.clock

/-- Ends the interpreter. -/
def kill (surroundings : Surroundings) : Surroundings :=
  let clock := surroundings.clock
  { surroundings with process := surroundings.process.map (·.kill clock) }

/-- Takes up a request. -/
def takeUp (surroundings : Surroundings) : Request → Token × Surroundings
  | .submit command limit =>
    let (client, call) := surroundings.client.submit command limit
    (.call call, { surroundings with client })
  | .interrupt command =>
    let (client, call) := surroundings.client.interrupt command
    (.call call, { surroundings with client })
  | .detach =>
    let (client, call) := surroundings.client.detach
    (.call call, { surroundings with client })
  | .close => (.now, surroundings.feed .close)
  | .report event => (.now, { surroundings with events := surroundings.events ++ [event] })
  | .supervise launched listening =>
    (.now, { surroundings with supervision := .present launched listening })
  | .letGo => (.now, { surroundings with letGo := true })
  | .awaitInit limit => (.deadline (some (surroundings.clock + limit)), surroundings)
  | .awaitEngine limit _ => (.deadline (some (surroundings.clock + limit)), surroundings)
  | .awaitExit limit => (.deadline (limit.map (surroundings.clock + ·)), surroundings)
  | .sleep time => (.deadline (some (surroundings.clock + time)), surroundings)
  | .kill => (.now, surroundings.kill)
  | .consult call input limit => (surroundings.consult call input limit, surroundings)
  | _ => (.now, surroundings)

/-- Whether a token's time is over. -/
def isLate (surroundings : Surroundings) : Token → Bool
  | .deadline (some time) => time ≤ surroundings.clock
  | _ => false

/-- The outcome of a call that has finished, which is then forgotten. -/
def takeFinished? (surroundings : Surroundings) :
    Token → Option (Except SessionError (Option Response) × Surroundings)
  | .call number => do
    let client := surroundings.client
    let (_, result) ← client.finished.find? fun entry => entry.1 == number
    return (result, { surroundings with
      client := { client with finished := client.finished.filter fun entry => entry.1 != number } })
  | _ => none

/-- The answer to a command. -/
def takeResponse? (surroundings : Surroundings) (token : Token) :
    Option (Except SessionError Response × Surroundings) := do
  match ← surroundings.takeFinished? token with
  | (.ok (some response), surroundings) => return (.ok response, surroundings)
  | (.ok none, surroundings) => return (.error .closed, surroundings)
  | (.error error, surroundings) => return (.error error, surroundings)

/-- The greeting, once it is there, and that there is none if time is over. -/
def takeGreeting? (surroundings : Surroundings) (token : Token) :
    Option (Greeting × Surroundings) :=
  let (greeting, client) := surroundings.client.waitForInit
  match greeting with
  | some (.ok packet) => some (.init packet, { surroundings with client })
  | some (.error error) => some (.failed error, { surroundings with client })
  | none =>
    if surroundings.isLate token then some (.timedOut, { surroundings with client }) else none

/-- What a helper comes to, if it is time for that. -/
def takeOutcome? (surroundings : Surroundings) : Token → Option (HelperOutcome × Surroundings)
  | .helper time outcome files =>
    if time ≤ surroundings.clock then
      some (outcome, { surroundings with host := { surroundings.host with files } })
    else none
  | _ => none

/-- What becomes of waiting for an engine, if anything has. -/
def arrival? (surroundings : Surroundings) (token : Token) (launched : Bool) : Option Arrival :=
  match if launched then surroundings.exitCode? else none with
  | some code => some (.exited code)
  | none => if surroundings.isLate token then some .timedOut else none

/-- The exit code once there is one, and that there is none if time is over. -/
def awaitedExit? (surroundings : Surroundings) (token : Token) : Option (Option (Option Int)) :=
  match surroundings.exitCode? with
  | some code => some (some code)
  | none => if surroundings.isLate token then some none else none

/-- The answer to a request, if it can be given now. -/
def answer? (surroundings : Surroundings) (token : Token) :
    (request : Request) → Option (request.Answer × Surroundings)
  | .submit _ _ => surroundings.takeResponse? token
  | .interrupt _ => surroundings.takeResponse? token
  | .detach => do
    let (result, surroundings) ← surroundings.takeFinished? token
    return (result.map fun _ => (), surroundings)
  | .isClosed => some (!surroundings.client.session.isOpen, surroundings)
  | .close | .report _ | .supervise _ _ | .letGo | .kill => some ((), surroundings)
  | .awaitInit _ => surroundings.takeGreeting? token
  | .awaitEnd =>
    match surroundings.supervision with
    | .absent | .ending (.over ()) => some ((), surroundings)
    | _ => none
  | .isLetGo => some (surroundings.letGo, surroundings)
  | .listen host port => some (listenAt host port, surroundings)
  | .spawn call => some (surroundings.spawn call)
  | .awaitEngine _ launched =>
    (surroundings.arrival? token launched).map fun arrival => (arrival, surroundings)
  | .connect _ _ => some (false, surroundings)
  | .exitCode => some (surroundings.exitCode?, surroundings)
  | .awaitExit _ => (surroundings.awaitedExit? token).map fun code => (code, surroundings)
  | .consult _ _ _ => surroundings.takeOutcome? token
  | .now => some (surroundings.clock, surroundings)
  | .sleep _ => if surroundings.isLate token then some ((), surroundings) else none

end Surroundings

namespace Course

/-- Starts a talk, which goes on as long as its requests can be answered. -/
def start : Talk α → Surroundings → Course α × Surroundings
  | .done result, surroundings => (.over result, surroundings)
  | .stuck, surroundings => (.stuck, surroundings)
  | .call request next, surroundings =>
    let (token, surroundings) := surroundings.takeUp request
    match surroundings.answer? token request with
    | some (answer, surroundings) => start (next answer) surroundings
    | none => (.waiting request token next, surroundings)

/-- Goes on with a course if what it waits for is there. -/
def resume : Course α → Surroundings → Course α × Surroundings
  | .waiting request token next, surroundings =>
    match surroundings.answer? token request with
    | some (answer, surroundings) => start (next answer) surroundings
    | none => (.waiting request token next, surroundings)
  | course, surroundings => (course, surroundings)

end Course

namespace Surroundings

/-- Reports events of the session until it ends, and then its end. -/
def reportAll (surroundings : Surroundings) (launched listening : Bool) :
    List SessionEvent → Surroundings
  | [] => surroundings
  | .closed :: _ =>
    let (course, surroundings) := Course.start (Supervision.ending launched listening) surroundings
    { surroundings with supervision := .ending course }
  | event :: rest =>
    { surroundings with events := surroundings.events ++ Supervision.reports event }.reportAll
      launched listening rest

/-- Lets supervision go on. -/
def supervise (surroundings : Surroundings) : Surroundings :=
  match surroundings.supervision with
  | .absent => surroundings
  | .present launched listening =>
    let client := surroundings.client
    { surroundings with client := { client with events := [] } }.reportAll launched listening
      client.events
  | .ending course =>
    let (course, surroundings) := course.resume surroundings
    { surroundings with supervision := .ending course }

/-- When supervision stops waiting, if it ever does. -/
def supervisionDeadline? (surroundings : Surroundings) : Option Nat :=
  match surroundings.supervision with
  | .ending course => course.deadline?
  | _ => none

/-- Reports what the interpreter has printed. -/
def reportLines (surroundings : Surroundings) : Surroundings :=
  match surroundings.process with
  | none => surroundings
  | some process =>
    let (events, process) := process.takeLines surroundings.clock
    { surroundings with process := some process, events := surroundings.events ++ events }

/-- Lets time pass. -/
def advance (surroundings : Surroundings) (time : Nat) : Surroundings :=
  reportLines { surroundings with client := surroundings.client.advance time }

/-- When the interpreter ends, if that is still to come. -/
def processDeadline? (surroundings : Surroundings) : Option Nat :=
  (surroundings.process.bind StartedProcess.endTime?).filter (surroundings.clock < ·)

/-- Bytes arrive from the engine. -/
def receive (surroundings : Surroundings) (bytes : List UInt8) : Surroundings :=
  { surroundings with client := surroundings.client.receive bytes }

end Surroundings

/-- An operation at work, with another one that may go on at its side. -/
structure Scene (α β : Type) where
  /-- The operation. -/
  main : Course α
  /-- The one at its side. -/
  side : Option (Course β)
  /-- Their surroundings. -/
  surroundings : Surroundings

namespace Scene

/-- Lets everything go on once. -/
def pass (scene : Scene α β) : Scene α β :=
  let surroundings := scene.surroundings.supervise
  let (main, surroundings) := scene.main.resume surroundings
  match scene.side with
  | none => { main, side := none, surroundings }
  | some side =>
    let (side, surroundings) := side.resume surroundings
    { main, side := some side, surroundings }

/-- Lets everything go on until nothing more can happen at this moment.  An operation may wait for
the end of the session to be reported, and that for nothing else but time, so that it takes no more
than a few turns. -/
def settle (scene : Scene α β) : Scene α β := scene.pass.pass.pass.pass

/-- The earliest time at which waiting is over for someone. -/
def nextDeadline? (scene : Scene α β) : Option Nat :=
  let callers := scene.surroundings.client.callers.filterMap Caller.deadline
  (scene.main.deadline?.toList ++ (scene.side.bind Course.deadline?).toList ++
    scene.surroundings.supervisionDeadline?.toList ++ scene.surroundings.processDeadline?.toList ++
    callers).min?

/-- Moves the clock to a time. -/
def moveTo (scene : Scene α β) (time : Nat) : Scene α β :=
  { scene with surroundings := scene.surroundings.advance (time - scene.surroundings.clock) }.settle

/-- Whether everything that was started is over. -/
def isOver (scene : Scene α β) : Bool :=
  scene.main.result?.isSome && scene.side.all fun side => side.result?.isSome

end Scene
end DebugBridge
