import DebugBridge.Proofs.Debugger.Supervision
import DebugBridge.Proofs.Session.Delivery

/-!
# How the end is reported

When supervision of a session is over, all that the session delivered after the greeting has been
forwarded in order, and then the end of the interpreter, of the connection and of the listening has
been reported, each once and only where there is such a thing.  A debugger that has parted from its
engine has seen to that, unless it has given up on the engine and ended the interpreter itself.
-/

namespace DebugBridge

/-- Whether the interpreter was started. -/
def isStarted (deeds : List Deed) : Bool := (exchangesIn deeds).any Exchange.starts

/-- Whether engines were waited for. -/
def isListening (deeds : List Deed) : Bool := (exchangesIn deeds).any Exchange.listens

/-- Whether a connection to an engine was made. -/
def isConnected (deeds : List Deed) : Bool := (exchangesIn deeds).any Exchange.connects

/-- What is told of the setup by all that was exchanged. -/
theorem setup_foldl (exchanges : List Exchange) (setup : Setup) :
    (exchanges.foldl Setup.next setup).started =
        (setup.started || exchanges.any Exchange.starts) ∧
      (exchanges.foldl Setup.next setup).listening =
        (setup.listening || exchanges.any Exchange.listens) ∧
      (exchanges.foldl Setup.next setup).connected =
        (setup.connected || exchanges.any Exchange.connects) := by
  induction exchanges generalizing setup with
  | nil => simp
  | cons exchange rest ih =>
      obtain ⟨started, listening, connected⟩ := ih (setup.next exchange)
      exact ⟨started.trans (Bool.or_assoc _ _ _), listening.trans (Bool.or_assoc _ _ _),
        connected.trans (Bool.or_assoc _ _ _)⟩

theorem setupAfter_started (deeds : List Deed) : (setupAfter deeds).started = isStarted deeds :=
  (setup_foldl _ _).1.trans (Bool.false_or _)

theorem setupAfter_listening (deeds : List Deed) :
    (setupAfter deeds).listening = isListening deeds :=
  (setup_foldl _ _).2.1.trans (Bool.false_or _)

theorem setupAfter_connected (deeds : List Deed) :
    (setupAfter deeds).connected = isConnected deeds :=
  (setup_foldl _ _).2.2.trans (Bool.false_or _)

/-- A session delivers nothing after its end. -/
theorem Session.eq_nil_of_closed {inputs : List Input} {before after : List SessionEvent}
    (split : (initial.run inputs).2.filterMap Effect.event? = before ++ .closed :: after) :
    after = [] := by
  obtain ⟨front, back, log, -, rest⟩ := List.filterMap_eq_append_iff.1 split
  obtain ⟨skipped, effect, tail, rfl, -, closed, rfl⟩ := List.filterMap_eq_cons_iff.1 rest
  obtain rfl : effect = .event .closed := by
    cases effect <;> cases closed
    rfl
  rw [← List.append_assoc] at log
  refine List.filterMap_eq_nil_iff.2 fun late member => ?_
  have answer := (late_of_reported inputs log).2 late member
  cases late with
  | event => cases answer
  | _ => rfl

namespace Ensemble

variable {config : DebugConfig} {host : Host} {moves : List Move} {ensemble : Ensemble}

/-- What has become of it when supervision is over. -/
structure Finished (ensemble : Ensemble) (packet : InitPacket) (front body : List SessionEvent)
    (code : Option Int) : Prop where
  /-- The session has delivered a greeting, something after it, and its end. -/
  delivered : ensemble.delivered = front ++ .init packet :: (body ++ [.closed])
  /-- It is the first greeting. -/
  first : ∀ event ∈ front, event.isInit = false
  /-- It is the only end. -/
  goesOn : .closed ∉ body
  /-- Supervision has forwarded what came after the greeting, and then reported the end. -/
  forwarded : forwardedIn ensemble.deeds = body.flatMap Supervision.reports ++
    farewell (isStarted ensemble.deeds) (isDetached ensemble.deeds) (isListening ensemble.deeds)
      code
  /-- Nobody else has reported the end of anything. -/
  farewells : farewellsIn ensemble.deeds =
    farewell (isStarted ensemble.deeds) (isDetached ensemble.deeds) (isListening ensemble.deeds)
      code

theorem Orderly.finished (orderly : Orderly ensemble)
    (ended : ensemble.supervisor = .ending (.done ())) :
    ∃ packet front body code, Finished ensemble packet front body code := by
  obtain ⟨-, ⟨inputs, -, delivered⟩, attended, -⟩ := orderly
  rw [ended] at attended
  cases attended with
  | @ending launched listening taken _ parting employed greeted goesOn parts farewells forwarded
      unseen seen =>
      obtain ⟨front, packet, eq, first⟩ := greeted
      obtain ⟨looked, code, reports⟩ := parts
      have nothing : ensemble.queue = [] := by
        have split : (Session.initial.run inputs).2.filterMap Effect.event? =
            (front ++ .init packet :: taken) ++ .closed :: ensemble.queue := by
          rw [← delivered, eq]
          simp
        exact Session.eq_nil_of_closed split
      have reports : parting.reports = farewell (isStarted ensemble.deeds)
          (isDetached ensemble.deeds) (isListening ensemble.deeds) code := by
        rw [reports, ← setupAfter_started, ← setupAfter_listening, employed.started,
          employed.listens]
        cases look : parting.look with
        | none =>
            cases launched with
            | false => rfl
            | true => cases look ▸ looked rfl
        | some letGo => rw [(seen letGo look).truth]; rfl
      refine ⟨packet, front, taken, code, ?_, first, goesOn, ?_, farewells.trans reports⟩
      · rw [eq, nothing, List.append_nil]
      · rw [forwarded, reports]

/-! ## Parting -/

/-- A script that was never let go was not let go before supervision looked. -/
theorem not_detached {deeds : List Deed} (attached : isLetGo deeds = false) :
    isDetached deeds = false := by
  refine List.any_eq_false.2 fun deed member => ?_
  exact List.any_eq_false.1 attached deed ((List.takeWhile_prefix _).subset member)

/-- What a debugger has seen to that has parted from its engine, or that never had one. -/
structure Settled (deeds : List Deed) : Prop where
  /-- That engines are waited for no longer is reported once. -/
  released : isListening deeds = true → (farewellsIn deeds).countP DebugEvent.isServerClose = 1
  /-- So is the end of the interpreter, unless the debugger has given up. -/
  exited : isStarted deeds = true → (setupAfter deeds).gaveUp = false →
    (farewellsIn deeds).countP DebugEvent.isProcessClose = 1
  /-- So is the end of the connection. -/
  disconnected : isStarted deeds = true → (setupAfter deeds).gaveUp = false →
    isConnected deeds = true → (farewellsIn deeds).count .socketClose = 1

theorem Orderly.settled (orderly : Orderly ensemble)
    {result : Except DebugError Unit} {debugger : Debugger}
    (rests : ensemble.main = .done (result, debugger)) (parted : debugger.link = none)
    (attached : isLetGo ensemble.deeds = false) : Settled ensemble.deeds := by
  have sound := orderly.main
  rw [rests] at sound
  have settled : (setupAfter ensemble.deeds).isSettled = true := sound.parted parted
  unfold Setup.isSettled at settled
  split at settled
  · next supervised =>
      obtain ⟨packet, front, body, code, finished⟩ := orderly.finished (orderly.awaited settled)
      have farewells := finished.farewells
      rw [not_detached attached] at farewells
      refine ⟨fun listening => ?_, fun started _ => ?_, fun started _ _ => ?_⟩
      · rw [farewells, listening]
        cases isStarted ensemble.deeds <;> rfl
      · rw [farewells, started]
        cases isListening ensemble.deeds <;> rfl
      · rw [farewells, started]
        cases isListening ensemble.deeds <;> rfl
  · next alone =>
      have attended := orderly.attended
      revert attended
      cases ensemble.supervisor with
      | watching =>
          intro attended
          cases attended with
          | watching employed => exact absurd employed.supervised alone
      | ending =>
          intro attended
          cases attended with
          | ending employed => exact absurd employed.supervised alone
      | absent =>
          intro attended
          cases attended with
          | absent _ _ _ announced =>
              obtain ⟨processes, servers, -⟩ := announced
              rw [setupAfter_listening, setupAfter_started, setupAfter_connected] at settled
              simp only [Bool.and_eq_true, Bool.or_eq_true, Bool.not_eq_true'] at settled
              refine ⟨fun listening => ?_, fun started stays => ?_,
                fun started stays connected => ?_⟩
              · have released : (setupAfter ensemble.deeds).released = true := by
                  simpa [listening] using settled.1.1
                rw [servers, released]
                rfl
              · have exited : (setupAfter ensemble.deeds).exited = true := by
                  simpa [started, stays] using settled.1.2
                rw [processes, exited]
                rfl
              · simp [started, connected, stays] at settled

/-! ## Runs -/

theorem perform_append (moves more : List Move) :
    ensemble.perform (moves ++ more) =
      (ensemble.perform moves).bind fun next => next.perform more := by
  induction moves generalizing ensemble with
  | nil => rfl
  | cons move rest ih =>
      rw [List.cons_append, perform, perform]
      cases ensemble.move? move with
      | none => rfl
      | some next => exact ih

/-- What the session does without anybody else. -/
theorem perform_feed (inputs : List Input) :
    ensemble.perform (inputs.map .feed) = some { ensemble with
      session := (ensemble.session.run inputs).1
      delivered := ensemble.delivered ++
        (ensemble.session.run inputs).2.filterMap Effect.event?
      queue := ensemble.queue ++ (ensemble.session.run inputs).2.filterMap Effect.event? } := by
  induction inputs generalizing ensemble with
  | nil => simp [perform, Session.run]
  | cons input rest ih =>
      rw [List.map_cons, perform, move?, Option.bind_some, ih]
      simp [feed, Session.run, Session.andThen]

/-- Whether the debugger is at rest and has no engine. -/
def isParted (ensemble : Ensemble) : Bool :=
  match ensemble.main with
  | .done (_, debugger) => debugger.link.isNone
  | _ => false

theorem exists_parted (parted : ensemble.isParted = true) :
    ∃ result debugger, ensemble.main = .done (result, debugger) ∧ debugger.link = none := by
  unfold isParted at parted
  split at parted
  · next result debugger rests =>
      exact ⟨result, debugger, rests, Option.isNone_iff_eq_none.1 parted⟩
  · cases parted

/-- Whether supervision is over. -/
def isOver (ensemble : Ensemble) : Bool :=
  match ensemble.supervisor with
  | .ending (.done ()) => true
  | _ => false

/-- A world in which the interpreter connects in time or not, no command is answered, and the
interpreter ends by itself. -/
def passing (arrival : Arrival) : (request : Request) → request.Answer
  | .listen _ port => .ok { host := .v4 127 0 0 1, port }
  | .spawn _ => true
  | .awaitEngine _ _ => arrival
  | .awaitExit _ => some (some 0)
  | request => request.idleAnswer

/-- An engine that greets, prints something and goes. -/
def brief : List Input :=
  [.received (Frame.encode (Text.bytesOf "<init/>") ++ Frame.encode Session.printed),
    .disconnected, .listen, .listen, .listen]

/-- The greeting, as a session reports it. -/
def greeting : InitPacket :=
  .ofElement { name := "init", attributes := [], children := [], text := "" }

/-- The greeting that a packet is. -/
def greeting? : Packet → Option InitPacket
  | .init packet => some packet
  | _ => none

theorem packetOf_greeting : Frame.packetOf (Text.bytesOf "<init/>") = .ok (.init greeting) := by
  have greets : (Frame.packetOf (Text.bytesOf "<init/>")).toOption.bind greeting? =
      some greeting := by decide +kernel
  obtain ⟨packet, parsed, found⟩ := Option.bind_eq_some_iff.1 greets
  rw [ok_of_toOption parsed]
  cases packet <;> cases found
  rfl

theorem run_brief : Session.initial.run brief =
    ({ Session.initial with readable := false, isOpen := false },
      [.event (.init greeting), .event (.stream Session.output), .event .closed]) := by
  have small : ∀ payload ∈ [Text.bytesOf "<init/>", Session.printed] ++ [],
      payload.length ≤ Frame.maxSize := by decide +kernel
  have none : Frame.Partial [] [] := rfl
  have drained :
      Frame.drain (Frame.encode (Text.bytesOf "<init/>") ++ Frame.encode Session.printed) =
      ([Frame.taken (Text.bytesOf "<init/>"), Frame.taken Session.printed], []) := by
    simpa using Frame.drain_stream small none
  simp [brief, Session.run, Session.step, Session.initial, Session.receive, drained,
    Session.endOfBytes, Session.listen, Session.handleIncoming, Frame.taken, Frame.itemOf,
    packetOf_greeting, Session.packetOf_printed, Session.handleItem, Session.teardown,
    Session.andThen]

/-- The interpreter is started and connects to the debugger that waits for it. -/
def connecting : List Move :=
  .call .launch :: List.replicate 3 (.ask (passing .connected))

/-- The debugger takes up the greeting, and finds that the engine has gone; supervision tells so. -/
def parting : List Move :=
  List.replicate 4 (.ask (passing .connected)) ++ List.replicate 7 (.watch (passing .connected)) ++
    List.replicate 3 (.ask (passing .connected))

/-- Everything that happens when the engine connects. -/
def launched : List Move := connecting ++ (brief.map .feed ++ parting)

/-- An idle debugger with a new session. -/
def idle : Ensemble := initial (.forProgram "main.ahk") Debugger.fresh.host

/-- What can be seen of an ensemble. -/
structure View where
  /-- Whether supervision is over. -/
  ended : Bool
  /-- Whether the debugger is at rest and has no engine. -/
  parted : Bool
  /-- Whether the script was let go. -/
  letGo : Bool
  /-- Whether the interpreter was started. -/
  started : Bool
  /-- Whether engines were waited for. -/
  listening : Bool
  /-- Whether a connection was made. -/
  connected : Bool
  /-- Whether the debugger has given up. -/
  gaveUp : Bool
  /-- What supervision has reported. -/
  forwarded : List DebugEvent
  /-- What was reported of the end of something. -/
  farewells : List DebugEvent
  deriving DecidableEq

/-- What can be seen now. -/
def view (ensemble : Ensemble) : View where
  ended := ensemble.isOver
  parted := ensemble.isParted
  letGo := isLetGo ensemble.deeds
  started := isStarted ensemble.deeds
  listening := isListening ensemble.deeds
  connected := isConnected ensemble.deeds
  gaveUp := (setupAfter ensemble.deeds).gaveUp
  forwarded := forwardedIn ensemble.deeds
  farewells := farewellsIn ensemble.deeds

/-- The engine has greeted, printed something and gone, and nobody has taken that up yet. -/
def afterBrief (ensemble : Ensemble) : Ensemble :=
  { ensemble with
    session := { Session.initial with readable := false, isOpen := false }
    delivered := ensemble.delivered ++ [.init greeting, .stream Session.output, .closed]
    queue := ensemble.queue ++ [.init greeting, .stream Session.output, .closed] }

theorem perform_brief (fresh : ensemble.session = .initial) :
    ensemble.perform (brief.map .feed) = some (afterBrief ensemble) := by
  rw [perform_feed, fresh, run_brief]
  rfl

/-- What can be seen in the end. -/
def launchedView : View :=
  { ended := true, parted := true, letGo := false, started := true, listening := true
    connected := true, gaveUp := false
    forwarded := [.stdout "hi", .processClose (some 0), .socketClose, .serverClose]
    farewells := [.processClose (some 0), .socketClose, .serverClose] }

theorem perform_launched : (idle.perform launched).map view = some launchedView := by
  have untouched : (idle.perform connecting).map Ensemble.session = some .initial := rfl
  have same : idle.perform launched = (idle.perform connecting).bind fun ensemble =>
      (afterBrief ensemble).perform parting := by
    rw [launched, perform_append]
    cases found : idle.perform connecting with
    | none => rfl
    | some ensemble =>
        rw [found] at untouched
        rw [Option.bind_some, perform_append, perform_brief (Option.some.inj untouched)]
        rfl
  rw [same]
  decide +kernel

/-! ## Whatever happens -/

/-- Whatever happens, and in whatever order: when a debugger has parted from its engine, or has not
got as far as that, and has not let the script go, the end of the listening has been reported once
if there was any, and so have the ends of an interpreter that was started and of its connection,
unless the debugger has given up and ended the interpreter without supervision. -/
theorem settled_of_parted (run : (initial config host).perform moves = some ensemble)
    {result : Except DebugError Unit} {debugger : Debugger}
    (rests : ensemble.main = .done (result, debugger)) (parted : debugger.link = none)
    (attached : isLetGo ensemble.deeds = false) : Settled ensemble.deeds :=
  ((orderly_initial config host).perform run).settled rests parted attached

/-- The engine is gone before it is prepared. -/
theorem settled_of_parted_launched :
    ∃ ensemble result debugger, idle.perform launched = some ensemble ∧
      ensemble.view = launchedView ∧ ensemble.main = .done (result, debugger) ∧
      debugger.link = none ∧ isLetGo ensemble.deeds = false ∧ Settled ensemble.deeds := by
  obtain ⟨ensemble, run, seen⟩ := Option.map_eq_some_iff.1 perform_launched
  obtain ⟨result, debugger, rests, parted⟩ := exists_parted (congrArg View.parted seen)
  have attached : isLetGo ensemble.deeds = false := congrArg View.letGo seen
  exact ⟨ensemble, result, debugger, run, seen, rests, parted, attached,
    settled_of_parted run rests parted attached⟩

/-- The interpreter is started and does not connect in time. -/
def unanswered : List Move := .call .launch :: List.replicate 5 (.ask (passing .timedOut))

/-- It connects, and its engine does not greet in time. -/
def ungreeted : List Move := .call .launch :: List.replicate 7 (.ask (passing .connected))

/-- What can be seen of a debugger that has given up. -/
def gaveUpView (connected : Bool) : View :=
  { ended := false, parted := true, letGo := false, started := true, listening := true
    connected, gaveUp := true, forwarded := [], farewells := [.serverClose] }

/-- A debugger that gives up reports the end neither of the interpreter that it has started nor of
the connection, if there was one. -/
theorem unreported_of_gaveUp :
    (∃ ensemble result debugger, idle.perform unanswered = some ensemble ∧
      ensemble.main = .done (result, debugger) ∧ debugger.link = none ∧
      ensemble.view = gaveUpView false ∧
      (farewellsIn ensemble.deeds).countP DebugEvent.isProcessClose ≠ 1) ∧
    ∃ ensemble result debugger, idle.perform ungreeted = some ensemble ∧
      ensemble.main = .done (result, debugger) ∧ debugger.link = none ∧
      ensemble.view = gaveUpView true ∧
      (farewellsIn ensemble.deeds).countP DebugEvent.isProcessClose ≠ 1 ∧
      (farewellsIn ensemble.deeds).count .socketClose ≠ 1 := by
  have first : (idle.perform unanswered).map view = some (gaveUpView false) := by decide +kernel
  have second : (idle.perform ungreeted).map view = some (gaveUpView true) := by decide +kernel
  obtain ⟨ensemble, run, seen⟩ := Option.map_eq_some_iff.1 first
  obtain ⟨other, runs, sees⟩ := Option.map_eq_some_iff.1 second
  have told : farewellsIn ensemble.deeds = [.serverClose] := congrArg View.farewells seen
  have tells : farewellsIn other.deeds = [.serverClose] := congrArg View.farewells sees
  obtain ⟨result, debugger, rests, parted⟩ := exists_parted (congrArg View.parted seen)
  obtain ⟨ends, also, stays, parts⟩ := exists_parted (congrArg View.parted sees)
  refine ⟨⟨ensemble, result, debugger, run, rests, parted, seen, ?_⟩,
    other, ends, also, runs, stays, parts, sees, ?_, ?_⟩
  · rw [told]
    decide
  · rw [tells]
    decide
  · rw [tells]
    decide

end Ensemble

end DebugBridge
