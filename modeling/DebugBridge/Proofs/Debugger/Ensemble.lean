import DebugBridge.Debugger.Course
import DebugBridge.Proofs.Debugger.Setup
import DebugBridge.Proofs.Session.Shutdown
import Mathlib.Data.List.TakeWhile

/-!
# The debugger, its session and their supervision

A debugger, its session and the supervision of the session are at work at the same time, each at its
own pace, while the engine, the interpreter and everybody else may do as they like.  What they do is
put down in the order in which it is done.
-/

namespace DebugBridge

/-! ## What is done -/

/-- Something that was done. -/
inductive Deed where
  /-- The debugger has exchanged something. -/
  | asked (exchange : Exchange)
  /-- Supervision has exchanged something. -/
  | watched (exchange : Exchange)
  /-- The interpreter has printed a line. -/
  | printed (line : Nat × Bool × String)

namespace Deed

/-- What the debugger has exchanged, if it has. -/
def asked? : Deed → Option Exchange
  | .asked exchange => some exchange
  | _ => none

/-- The event that was reported, if one was. -/
def report? : Deed → Option DebugEvent
  | .asked exchange | .watched exchange => exchange.report?
  | .printed line => some (StartedProcess.eventOf line)

/-- The event that supervision has reported, if it has. -/
def forwarded? : Deed → Option DebugEvent
  | .watched exchange => exchange.report?
  | _ => none

/-- Whether the debugger has let the script go. -/
def letsGo : Deed → Bool
  | .asked exchange => exchange.letsGo
  | _ => false

/-- Whether supervision has looked if the script was let go. -/
def looks : Deed → Bool
  | .watched ⟨.isLetGo, _⟩ => true
  | _ => false

end Deed

/-- All that the debugger has exchanged. -/
def exchangesIn (deeds : List Deed) : List Exchange := deeds.filterMap Deed.asked?

/-- How far the debugger has got. -/
def setupAfter (deeds : List Deed) : Setup := (exchangesIn deeds).foldl Setup.next .blank

/-- All that was reported. -/
def reportsIn (deeds : List Deed) : List DebugEvent := deeds.filterMap Deed.report?

/-- What was reported of the end of something, by whomever. -/
def farewellsIn (deeds : List Deed) : List DebugEvent :=
  (reportsIn deeds).filter DebugEvent.isFarewell

/-- What supervision has reported. -/
def forwardedIn (deeds : List Deed) : List DebugEvent := deeds.filterMap Deed.forwarded?

/-- Whether the script was let go. -/
def isLetGo (deeds : List Deed) : Bool := deeds.any Deed.letsGo

/-- Whether the script was let go before supervision looked. -/
def isDetached (deeds : List Deed) : Bool :=
  isLetGo (deeds.takeWhile fun deed => !deed.looks)

/-! ## Who does it -/

/-- The event that an effect reports, if it does. -/
def Effect.event? : Effect → Option SessionEvent
  | .event told => some told
  | _ => none

/-- Whether an event is a greeting. -/
def SessionEvent.isInit : SessionEvent → Bool
  | .init _ => true
  | _ => false

/-- Supervision of a session. -/
inductive Supervisor where
  /-- There is none yet. -/
  | absent
  /-- It takes the events of the session. -/
  | watching (launched listening : Bool)
  /-- The session has ended, and that is being reported. -/
  | ending (talk : Talk Unit)

/-- Whether supervision has begun and is not over. -/
def Supervisor.isBusy : Supervisor → Bool
  | .absent | .ending (.done ()) => false
  | _ => true

/-- A debugger, its session and the supervision of the session. -/
structure Ensemble where
  /-- What the debugger is about to do. -/
  main : Talk (Except DebugError Unit × Debugger)
  /-- The session. -/
  session : Session
  /-- The events that the session has delivered. -/
  delivered : List SessionEvent
  /-- Those of them that nobody has taken yet. -/
  queue : List SessionEvent
  /-- Supervision. -/
  supervisor : Supervisor
  /-- All that was done. -/
  deeds : List Deed

/-- What may happen next. -/
inductive Move where
  /-- Something is asked of the debugger. -/
  | call (call : Debugger.Call)
  /-- The debugger's request is answered; `answers` are those of the outer world. -/
  | ask (answers : (request : Request) → request.Answer)
  /-- Supervision takes an event, or its request is answered. -/
  | watch (answers : (request : Request) → request.Answer)
  /-- Something happens to the session. -/
  | feed (input : Input)
  /-- The interpreter prints a line. -/
  | print (line : Nat × Bool × String)

namespace Ensemble

/-- An idle debugger with a new session. -/
def initial (config : DebugConfig) (host : Host) : Ensemble :=
  { main := .done (.ok (), .new config host), session := .initial, delivered := [], queue := []
    supervisor := .absent, deeds := [] }

/-- What becomes of waiting for a greeting, with the events that are left; `answer` is what becomes
of it if there is neither a greeting nor an end of the session.  Without a result it goes on. -/
def takeGreeting? (queue : List SessionEvent) (answer : Greeting) :
    Option (Greeting × List SessionEvent) :=
  match Client.takeInit? queue, answer with
  | some (.ok packet, rest), _ => some (.init packet, rest)
  | some (.error error, rest), _ => some (.failed error, rest)
  | none, .init _ => none
  | none, answer => some (answer, [])

/-- The answer to a request.  Without a result there is none yet. -/
def answer? (ensemble : Ensemble) (answers : (request : Request) → request.Answer) :
    (request : Request) → Option (request.Answer × Ensemble)
  | .isClosed => some (!ensemble.session.isOpen, ensemble)
  | .isLetGo => some (DebugBridge.isLetGo ensemble.deeds, ensemble)
  | .awaitInit limit =>
    (takeGreeting? ensemble.queue (answers (.awaitInit limit))).map fun (greeting, queue) =>
      (greeting, { ensemble with queue })
  | .awaitEnd => if ensemble.supervisor.isBusy then none else some ((), ensemble)
  | .supervise launched listening =>
    some ((), { ensemble with supervisor := .watching launched listening })
  | request => some (answers request, ensemble)

/-- The debugger's request is answered. -/
def ask? (ensemble : Ensemble) (answers : (request : Request) → request.Answer) :
    Option Ensemble :=
  match ensemble.main with
  | .call request next =>
    (ensemble.answer? answers request).map fun (answer, after) =>
      { after with main := next answer, deeds := ensemble.deeds ++ [.asked ⟨request, answer⟩] }
  | _ => none

/-- Supervision takes an event, or its request is answered. -/
def watch? (ensemble : Ensemble) (answers : (request : Request) → request.Answer) :
    Option Ensemble :=
  match ensemble.supervisor, ensemble.queue with
  | .watching launched listening, .closed :: rest =>
    some { ensemble with
      queue := rest, supervisor := .ending (Supervision.ending launched listening) }
  | .watching _ _, event :: rest =>
    some { ensemble with
      queue := rest
      deeds := ensemble.deeds ++ (Supervision.reports event).map fun event =>
        .watched ⟨.report event, ()⟩ }
  | .ending (.call request next), _ =>
    (ensemble.answer? answers request).map fun (answer, after) =>
      { after with
        supervisor := .ending (next answer)
        deeds := ensemble.deeds ++ [.watched ⟨request, answer⟩] }
  | _, _ => none

/-- Something happens to the session. -/
def feed (ensemble : Ensemble) (input : Input) : Ensemble :=
  let (session, effects) := ensemble.session.step input
  let events := effects.filterMap Effect.event?
  { ensemble with
    session, delivered := ensemble.delivered ++ events, queue := ensemble.queue ++ events }

/-- One thing happens, if it can. -/
def move? (ensemble : Ensemble) : Move → Option Ensemble
  | .call call =>
    match ensemble.main with
    | .done (_, debugger) => some { ensemble with main := call.operation.run.run debugger }
    | _ => none
  | .ask answers => ensemble.ask? answers
  | .watch answers => ensemble.watch? answers
  | .feed input => some (ensemble.feed input)
  | .print line => some { ensemble with deeds := ensemble.deeds ++ [.printed line] }

/-- One thing happens after the other, if they can. -/
def perform (ensemble : Ensemble) : List Move → Option Ensemble
  | [] => some ensemble
  | move :: rest => (ensemble.move? move).bind fun next => next.perform rest

end Ensemble

/-! ## How deeds add up -/

section Deeds

variable (deeds : List Deed) (exchange : Exchange) (line : Nat × Bool × String)

@[simp]
theorem setupAfter_asked :
    setupAfter (deeds ++ [.asked exchange]) = (setupAfter deeds).next exchange := by
  simp [setupAfter, exchangesIn, Deed.asked?]

@[simp]
theorem setupAfter_watched : setupAfter (deeds ++ [.watched exchange]) = setupAfter deeds := by
  simp [setupAfter, exchangesIn, Deed.asked?, List.filterMap_cons]

@[simp]
theorem setupAfter_printed : setupAfter (deeds ++ [.printed line]) = setupAfter deeds := by
  simp [setupAfter, exchangesIn, Deed.asked?, List.filterMap_cons]

@[simp]
theorem farewellsIn_asked :
    farewellsIn (deeds ++ [.asked exchange]) =
      farewellsIn deeds ++ exchange.report?.toList.filter DebugEvent.isFarewell := by
  cases told : exchange.report? <;> simp [farewellsIn, reportsIn, Deed.report?, told]

@[simp]
theorem farewellsIn_watched :
    farewellsIn (deeds ++ [.watched exchange]) =
      farewellsIn deeds ++ exchange.report?.toList.filter DebugEvent.isFarewell := by
  cases told : exchange.report? <;> simp [farewellsIn, reportsIn, Deed.report?, told]

@[simp]
theorem farewellsIn_printed : farewellsIn (deeds ++ [.printed line]) = farewellsIn deeds := by
  have quiet : (StartedProcess.eventOf line).isFarewell = false := by
    unfold StartedProcess.eventOf
    split <;> rfl
  simp [farewellsIn, reportsIn, Deed.report?, quiet]

@[simp]
theorem forwardedIn_asked : forwardedIn (deeds ++ [.asked exchange]) = forwardedIn deeds := by
  simp [forwardedIn, Deed.forwarded?]

@[simp]
theorem forwardedIn_watched :
    forwardedIn (deeds ++ [.watched exchange]) =
      forwardedIn deeds ++ exchange.report?.toList := by
  cases told : exchange.report? <;> simp [forwardedIn, Deed.forwarded?, told]

@[simp]
theorem forwardedIn_printed : forwardedIn (deeds ++ [.printed line]) = forwardedIn deeds := by
  simp [forwardedIn, Deed.forwarded?]

end Deeds

/-- Supervision has not looked if the script was let go. -/
def Unseen (deeds : List Deed) : Prop := ∀ deed ∈ deeds, deed.looks = false

theorem Unseen.concat {deeds : List Deed} {deed : Deed} (unseen : Unseen deeds)
    (blind : deed.looks = false) : Unseen (deeds ++ [deed]) :=
  List.forall_mem_append.2 ⟨unseen, List.forall_mem_singleton.2 blind⟩

/-- Supervision has looked if the script was let go, and that is what it has seen. -/
structure Seen (deeds : List Deed) (letGo : Bool) : Prop where
  looked : ∃ deed ∈ deeds, deed.looks = true
  truth : isDetached deeds = letGo

/-- What is done after supervision has looked does not matter. -/
theorem Seen.concat {deeds : List Deed} {letGo : Bool} (seen : Seen deeds letGo) (deed : Deed) :
    Seen (deeds ++ [deed]) letGo where
  looked := by
    obtain ⟨look, member, looked⟩ := seen.looked
    exact ⟨look, List.mem_append_left _ member, looked⟩
  truth := by
    obtain ⟨look, member, looked⟩ := seen.looked
    have stops : (deeds.takeWhile fun deed => !deed.looks).length ≠ deeds.length := by
      intro all
      have blind := List.takeWhile_eq_self_iff.1 ((List.takeWhile_prefix _).eq_of_length all)
      simpa [looked] using blind look member
    rw [← seen.truth, isDetached, isDetached, List.takeWhile_append, if_neg stops]

theorem Unseen.looked {deeds : List Deed} (unseen : Unseen deeds) :
    Seen (deeds ++ [.watched ⟨.isLetGo, isLetGo deeds⟩]) (isLetGo deeds) where
  looked := ⟨_, List.mem_concat_self, rfl⟩
  truth := by
    have all : (deeds.takeWhile fun deed => !deed.looks) = deeds :=
      List.takeWhile_eq_self_iff.2 fun deed member => by rw [unseen deed member]; rfl
    rw [isDetached, List.takeWhile_append, if_pos (congrArg List.length all)]
    simp [Deed.looks]

/-! ## What answers mean -/

namespace Ensemble

/-- Whether a request is answered by the outer world or tells something of the moment only. -/
def isForeign : Request → Bool
  | .awaitInit _ | .supervise _ _ | .isLetGo | .awaitEnd => false
  | _ => true

/-- An exchange with what is left of an ensemble by it. -/
inductive Answers (ensemble : Ensemble) : Exchange → Ensemble → Prop
  /-- A greeting is taken. -/
  | greeted {limit : Nat} {packet : InitPacket} {before rest : List SessionEvent}
      (taken : ensemble.queue = before ++ .init packet :: rest)
      (first : ∀ event ∈ before, event.isInit = false) :
      Answers ensemble ⟨.awaitInit limit, .init packet⟩ { ensemble with queue := rest }
  /-- There is none among the events that are taken. -/
  | ungreeted {limit : Nat} {greeting : Greeting} {before rest : List SessionEvent}
      (none : ∀ packet, greeting ≠ .init packet) (taken : ensemble.queue = before ++ rest)
      (first : ∀ event ∈ before, event.isInit = false) :
      Answers ensemble ⟨.awaitInit limit, greeting⟩ { ensemble with queue := rest }
  /-- Supervision begins. -/
  | supervised {launched listening : Bool} :
      Answers ensemble ⟨.supervise launched listening, ()⟩
        { ensemble with supervisor := .watching launched listening }
  /-- Whether the script was let go is answered as it is. -/
  | looked : Answers ensemble ⟨.isLetGo, DebugBridge.isLetGo ensemble.deeds⟩ ensemble
  /-- Supervision is waited for. -/
  | awaited (ended : ensemble.supervisor.isBusy = false) :
      Answers ensemble ⟨.awaitEnd, ()⟩ ensemble
  /-- Nothing becomes of it here. -/
  | foreign {request : Request} {answer : request.Answer} (foreign : isForeign request = true) :
      Answers ensemble ⟨request, answer⟩ ensemble

/-- What is skipped before a greeting or the end is no greeting. -/
theorem takeInit?_cases (queue : List SessionEvent) :
    match Client.takeInit? queue with
    | some (.ok packet, rest) => ∃ before, queue = before ++ .init packet :: rest ∧
        ∀ event ∈ before, event.isInit = false
    | some (.error _, rest) => ∃ before, queue = before ++ rest ∧
        ∀ event ∈ before, event.isInit = false
    | none => ∀ event ∈ queue, event.isInit = false := by
  induction queue with
  | nil => exact List.forall_mem_nil _
  | cons event rest ih =>
      have skipped (plain : event.isInit = false)
          (same : Client.takeInit? (event :: rest) = Client.takeInit? rest) :
          match Client.takeInit? (event :: rest) with
          | some (.ok packet, after) => ∃ before, event :: rest = before ++ .init packet :: after ∧
              ∀ event ∈ before, event.isInit = false
          | some (.error _, after) => ∃ before, event :: rest = before ++ after ∧
              ∀ event ∈ before, event.isInit = false
          | none => ∀ other ∈ event :: rest, other.isInit = false := by
        rw [same]
        revert ih
        cases Client.takeInit? rest with
        | none => exact fun ih => List.forall_mem_cons.2 ⟨plain, ih⟩
        | some found =>
            obtain ⟨error | packet, after⟩ := found
            all_goals
              rintro ⟨before, rfl, first⟩
              exact ⟨event :: before, rfl, List.forall_mem_cons.2 ⟨plain, first⟩⟩
      cases event with
      | init packet => exact ⟨[], rfl, List.forall_mem_nil _⟩
      | closed => exact ⟨[.closed], rfl, List.forall_mem_singleton.2 rfl⟩
      | stream | notify | fault => exact skipped rfl rfl

theorem answers_of_greeting {ensemble : Ensemble} {limit : Nat} {wish greeting : Greeting}
    {queue : List SessionEvent}
    (given : takeGreeting? ensemble.queue wish = some (greeting, queue)) :
    Answers ensemble ⟨.awaitInit limit, greeting⟩ { ensemble with queue } := by
  have found := takeInit?_cases ensemble.queue
  unfold takeGreeting? at given
  split at given
  · next packet rest _ taken =>
      cases given
      rw [taken] at found
      obtain ⟨before, eq, first⟩ := found
      exact .greeted eq first
  · next error rest _ taken =>
      cases given
      rw [taken] at found
      obtain ⟨before, eq, first⟩ := found
      exact .ungreeted nofun eq first
  · cases given
  · next taken other =>
      cases given
      rw [taken] at found
      exact .ungreeted (fun packet same => other packet same) (List.append_nil _).symm found

theorem answers_of_answer? {ensemble after : Ensemble}
    {answers : (request : Request) → request.Answer} {request : Request} {answer : request.Answer}
    (given : ensemble.answer? answers request = some (answer, after)) :
    Answers ensemble ⟨request, answer⟩ after := by
  cases request with
  | awaitInit limit =>
      obtain ⟨⟨greeting, queue⟩, taken, same⟩ := Option.map_eq_some_iff.1 given
      cases same
      exact answers_of_greeting taken
  | awaitEnd =>
      simp only [answer?] at given
      split at given
      · cases given
      · next ended =>
          cases given
          exact .awaited (Bool.not_eq_true _ ▸ ended)
  | supervise =>
      cases given
      exact .supervised
  | isLetGo =>
      cases given
      exact .looked
  | _ =>
      cases given
      exact .foreign rfl

end Ensemble

end DebugBridge
