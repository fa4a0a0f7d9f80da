import DebugBridge.Proofs.Debugger.Setup
import DebugBridge.Proofs.Session.Shutdown

/-!
# A debugger at work with its session

A debugger makes one request after the other.  Those that are for the engine are left with the
session as calls; the debugger waits for what becomes of them, and sometimes no longer than it
likes.  Meanwhile others may break into the script, bytes may come from the engine or come to an
end, and the session takes up one thing after the other.  All of this may happen in any order.
-/

namespace DebugBridge

/-! ## Calls of the session -/

/-- What a request leaves with the session, if it is for the session. -/
def Request.input? : Request → Option Input
  | .submit command _ => some (.submit command)
  | .interrupt command => some (.interrupt command)
  | .detach => some (.submit (.named "detach"))
  | .close => some .close
  | _ => none

/-- The command that a request wants to be written, if it wants one. -/
def Request.command? : Request → Option Command
  | .submit command _ | .interrupt command => some command
  | .detach => some (.named "detach")
  | _ => none

/-- A quiet request wants no command after which the script is no longer where it was. -/
theorem Request.name_of_isQuiet {request : Request} {command : Command}
    (quiet : request.isQuiet = true) (wanted : request.command? = some command) :
    command.name ∉ Continuation.movingNames := by
  cases request with
  | submit other limit =>
      cases limit with
      | some limit => cases quiet
      | none =>
          cases wanted
          simpa [isQuiet] using quiet
  | interrupt other | detach => cases quiet
  | _ => cases wanted

/-- The result that an effect gives to a call, if it does. -/
def Effect.resultFor? (number : Nat) : Effect → Option (Except SessionError Response)
  | .reply call result => if call = number then some result else none
  | _ => none

/-- Whether an effect lets a call return. -/
def Effect.letsReturn (number : Nat) : Effect → Bool
  | .returned call => call == number
  | _ => false

/-- A request that was left with the session. -/
structure Posting where
  /-- The number of the call. -/
  number : Nat
  /-- What the debugger was asked for at that time. -/
  task : Option Debugger.Call
  /-- The request. -/
  request : Request

/-- What becomes of the request of a debugger. -/
inductive Stage where
  /-- It was not taken up yet. -/
  | free
  /-- It waits for a call of the session. -/
  | waiting (number : Nat)
  /-- The engine's answer to its command is there, and it waits for another call that ends the
  session. -/
  | parting (number : Nat) (result : Except SessionError Response)

/-! ## What happens -/

/-- A debugger at work with its session. -/
structure Interplay (α : Type) where
  /-- What the debugger is about to do. -/
  main : Talk α
  /-- What has become of its request. -/
  stage : Stage
  /-- What the debugger was asked for. -/
  calls : List Debugger.Call
  /-- All that has happened to the session. -/
  inputs : List Input
  /-- All that the debugger has exchanged. -/
  exchanges : List Exchange
  /-- The requests that it has left with the session. -/
  postings : List Posting
  /-- Numbers of the calls by which others break into the script. -/
  pauses : List Nat

namespace Interplay

variable {α : Type}

/-- A debugger at the beginning of a talk, when something has already happened to the session. -/
def start (talk : Talk α) (calls : List Debugger.Call) (inputs : List Input) : Interplay α :=
  { main := talk, stage := .free, calls, inputs, exchanges := [], postings := [], pauses := [] }

/-- The session. -/
def session (play : Interplay α) : Session := (Session.initial.run play.inputs).1

/-- All that the session has done. -/
def effects (play : Interplay α) : List Effect := (Session.initial.run play.inputs).2

/-- What the debugger was asked for last. -/
def task (play : Interplay α) : Option Debugger.Call := play.calls.getLast?

/-- The result that a call of the session was given. -/
def result? (play : Interplay α) (number : Nat) : Option (Except SessionError Response) :=
  play.effects.findSome? (Effect.resultFor? number)

/-- Whether a call that asked the session to end has returned. -/
def hasReturned (play : Interplay α) (number : Nat) : Bool :=
  play.effects.any (Effect.letsReturn number)

/-- Whether the debugger has let the script go. -/
def isLetGo (play : Interplay α) : Bool := play.exchanges.any Exchange.letsGo

/-- Whether the debugger has started the interpreter. -/
def isStarted (play : Interplay α) : Bool := play.exchanges.any Exchange.starts

/-- Something happens to the session. -/
def feed (play : Interplay α) (input : Input) : Interplay α :=
  { play with inputs := play.inputs ++ [input] }

/-- The debugger goes on with the answer to its request. -/
def answer (play : Interplay α) (request : Request) (next : request.Answer → Talk α)
    (answer : request.Answer) : Interplay α :=
  { play with
    main := next answer, stage := .free
    exchanges := play.exchanges ++ [⟨request, answer⟩] }

/-- The answer to a request that is not for the session; `answers` are those of the outer world. -/
def answerTo (play : Interplay α) (answers : (request : Request) → request.Answer) :
    (request : Request) → request.Answer
  | .isClosed => !play.session.isOpen
  | .isLetGo => play.isLetGo
  | request => answers request

/-- The debugger's request is left with the session, with the number of the next call. -/
def post (play : Interplay α) (request : Request) (input : Input) : Interplay α :=
  { play.feed input with
    stage := .waiting play.session.nextCall
    postings := play.postings ++ [⟨play.session.nextCall, play.task, request⟩] }

/-- The debugger's request is taken up. -/
def ask? (play : Interplay α) (answers : (request : Request) → request.Answer) :
    Option (Interplay α) :=
  match play.stage, play.main with
  | .free, .call request next =>
    match request.input? with
    | some input => some (play.post request input)
    | none => some (play.answer request next (play.answerTo answers request))
  | _, _ => none

/-- The debugger takes what has become of its request.  To detach is to have that command written
and to end the session when it is answered, whatever the answer is. -/
def take? (play : Interplay α) : Option (Interplay α) :=
  match play.stage, play.main with
  | .waiting number, .call (.submit command limit) next =>
    (play.result? number).map fun result => play.answer (.submit command limit) next result
  | .waiting number, .call (.interrupt command) next =>
    (play.result? number).map fun result => play.answer (.interrupt command) next result
  | .waiting number, .call .detach _ =>
    (play.result? number).map fun result =>
      { play.feed .close with stage := .parting play.session.nextCall result }
  | .parting number result, .call .detach next =>
    if play.hasReturned number then
      some (play.answer .detach next ((Client.detachResult result).map fun _ => ()))
    else none
  | .waiting number, .call .close next =>
    if play.hasReturned number then some (play.answer .close next ()) else none
  | _, _ => none

/-- The debugger no longer waits for the answer to a command that it sent for a limited time. -/
def expire? (play : Interplay α) : Option (Interplay α) :=
  match play.stage, play.main with
  | .waiting number, .call (.submit command (some limit)) next =>
    some ((play.feed (.abandon number)).answer (.submit command (some limit)) next
      (.error (.cancelled command.name)))
  | _, _ => none

/-- How others break into the script: at once, or when the commands before have been answered. -/
def breakInput (supportsAsync : Bool) : Input :=
  let command := Command.named Continuation.pause.commandName
  if supportsAsync then .interrupt command else .submit command

/-- Someone breaks into the script. -/
def pause (play : Interplay α) (supportsAsync : Bool) : Interplay α :=
  { play.feed (breakInput supportsAsync) with pauses := play.pauses ++ [play.session.nextCall] }

/-- Whether something may happen to the session that is not for the debugger to do. -/
def isOuter (play : Interplay α) : Input → Bool
  | .submit _ | .interrupt _ | .close => false
  | .abandon call => play.pauses.contains call
  | _ => true

/-- What may happen next. -/
inductive Step where
  /-- The debugger's request is taken up; `answers` are those of the outer world. -/
  | ask (answers : (request : Request) → request.Answer)
  /-- The debugger takes what has become of its request. -/
  | take
  /-- The debugger no longer waits. -/
  | expire
  /-- Someone breaks into the script. -/
  | pause (supportsAsync : Bool)
  /-- Something else happens to the session. -/
  | feed (input : Input)

/-- One thing happens, if it can. -/
def step? (play : Interplay α) : Step → Option (Interplay α)
  | .ask answers => play.ask? answers
  | .take => play.take?
  | .expire => play.expire?
  | .pause supportsAsync => some (play.pause supportsAsync)
  | .feed input => if play.isOuter input then some (play.feed input) else none

/-- One thing happens after the other, if they can. -/
def perform (play : Interplay α) (steps : List Step) : Option (Interplay α) :=
  steps.foldlM step? play

/-- The command and the lane of those who break into the script are those of the debugger's own
operation for it. -/
theorem breakIn_input {σ : Type} (supportsAsync : Bool) (state : σ) :
    ∃ request next, (Debugger.breakIn supportsAsync).run.run state = .call request next ∧
      request.input? = some (breakInput supportsAsync) := by
  cases supportsAsync <;> exact ⟨_, _, rfl, rfl⟩

/-! ## What one step can do -/

/-- Whether an answer tells the truth about the session and the debugger. -/
def IsTrue (play : Interplay α) : Exchange → Prop
  | ⟨.isClosed, closed⟩ => closed = !play.session.isOpen
  | ⟨.isLetGo, letGo⟩ => letGo = play.isLetGo
  | ⟨.detach, _⟩ | ⟨.close, _⟩ => play.session.isOpen = false
  | _ => True

/-- What one step can do. -/
inductive Goes (play : Interplay α) : Interplay α → Prop
  /-- A request is left with the session. -/
  | posts {request : Request} {next : request.Answer → Talk α} {input : Input}
      (free : play.stage = .free) (main : play.main = .call request next)
      (leaves : request.input? = some input) : Goes play (play.post request input)
  /-- A request is answered; if it was not taken up yet it is not for the session. -/
  | hears {request : Request} {next : request.Answer → Talk α} {answer : request.Answer}
      (main : play.main = .call request next)
      (silent : play.stage = .free → request.input? = none)
      (truth : play.IsTrue ⟨request, answer⟩) : Goes play (play.answer request next answer)
  /-- The command to detach was answered, and the session is to end. -/
  | parts {number : Nat} {result : Except SessionError Response}
      {next : Request.detach.Answer → Talk α} (waits : play.stage = .waiting number)
      (main : play.main = .call .detach next) :
      Goes play { play.feed .close with stage := .parting play.session.nextCall result }
  /-- The debugger no longer waits for an answer. -/
  | expires {number limit : Nat} {command : Command}
      {next : (Request.submit command (some limit)).Answer → Talk α}
      (waits : play.stage = .waiting number)
      (main : play.main = .call (.submit command (some limit)) next) :
      Goes play ((play.feed (.abandon number)).answer (.submit command (some limit)) next
        (.error (.cancelled command.name)))
  /-- Someone breaks into the script. -/
  | pauses (supportsAsync : Bool) : Goes play (play.pause supportsAsync)
  /-- Something else happens to the session. -/
  | feeds {input : Input} (outer : play.isOuter input = true) : Goes play (play.feed input)

variable {play after : Interplay α}

theorem goes_of_ask? {answers : (request : Request) → request.Answer}
    (asked : play.ask? answers = some after) : play.Goes after := by
  rw [ask?] at asked
  split at asked
  · next request next free main =>
    split at asked
    · next input leaves =>
      cases asked
      exact .posts free main leaves
    · next silent =>
      cases asked
      refine .hears main (fun _ => silent) ?_
      cases request with
      | isClosed | isLetGo => rfl
      | detach | close => cases silent
      | _ => trivial
  · cases asked

theorem ended_of_hasReturned {number : Nat} (returned : play.hasReturned number = true) :
    play.session.isOpen = false := by
  obtain ⟨effect, member, lets⟩ := List.any_eq_true.1 returned
  cases effect with
  | returned call => exact Session.ended_of_returned member
  | write | answered | reply | event => cases lets

theorem goes_of_take? (taken : play.take? = some after) : play.Goes after := by
  have busy {number : Nat} (stage : play.stage = .waiting number) {silent : Prop} :
      play.stage = .free → silent := fun free => by cases stage.symm.trans free
  rw [take?] at taken
  split at taken
  · next stage main =>
    obtain ⟨result, -, rfl⟩ := Option.map_eq_some_iff.1 taken
    exact .hears main (busy stage) trivial
  · next stage main =>
    obtain ⟨result, -, rfl⟩ := Option.map_eq_some_iff.1 taken
    exact .hears main (busy stage) trivial
  · next stage main =>
    obtain ⟨result, -, rfl⟩ := Option.map_eq_some_iff.1 taken
    exact .parts stage main
  · next stage main =>
    split at taken
    · next returned =>
      cases taken
      exact .hears main (fun free => by cases stage.symm.trans free) (ended_of_hasReturned returned)
    · cases taken
  · next stage main =>
    split at taken
    · next returned =>
      cases taken
      exact .hears main (busy stage) (ended_of_hasReturned returned)
    · cases taken
  · cases taken

theorem goes_of_step? {step : Step} (stepped : play.step? step = some after) :
    play.Goes after := by
  cases step with
  | ask answers => exact goes_of_ask? stepped
  | take => exact goes_of_take? stepped
  | expire =>
      rw [step?, expire?] at stepped
      split at stepped
      · next waits main =>
        cases stepped
        exact .expires waits main
      · cases stepped
  | pause supportsAsync =>
      cases stepped
      exact .pauses supportsAsync
  | feed input =>
      simp only [step?] at stepped
      split at stepped
      · next outer =>
        cases stepped
        exact .feeds outer
      · cases stepped

/-- What is kept by one thing after the other is kept by all of them. -/
theorem foldlM_invariant {σ ι : Type} {step? : σ → ι → Option σ} {motive : σ → Prop}
    (kept : ∀ {state next : σ} {event : ι}, motive state → step? state event = some next →
      motive next)
    {state last : σ} {events : List ι} (holds : motive state)
    (run : events.foldlM step? state = some last) : motive last := by
  induction events generalizing state with
  | nil =>
      cases run
      exact holds
  | cons event rest ih =>
      obtain ⟨middle, stepped, run⟩ := Option.bind_eq_some_iff.1 run
      exact ih (kept holds stepped) run

/-- What every step keeps is kept by all of them. -/
theorem perform_invariant {motive : Interplay α → Prop} {steps : List Step}
    (kept : ∀ {play after : Interplay α}, motive play → play.Goes after → motive after)
    (holds : motive play) (performed : play.perform steps = some after) : motive after :=
  foldlM_invariant (fun holds stepped => kept holds (goes_of_step? stepped)) holds performed

theorem perform_append (front back : List Step) :
    play.perform (front ++ back) = (play.perform front).bind fun middle => middle.perform back :=
  List.foldlM_append

/-! ## The session goes on -/

theorem session_feed (input : Input) :
    (play.feed input).session = (play.session.step input).1 := by
  simp [session, feed, Session.run_append, Session.andThen, Session.run]

theorem effects_feed (input : Input) :
    (play.feed input).effects = play.effects ++ (play.session.step input).2 := by
  simp [effects, session, feed, Session.run_append, Session.andThen, Session.run]

/-- The messages that were left with the session. -/
def messages (play : Interplay α) : List Message := asked 1 play.inputs

theorem messages_feed (input : Input) :
    (play.feed input).messages = play.messages ++ asked play.session.nextCall [input] := by
  have append (front back : List Input) (call : Nat) : asked call (front ++ back) =
      asked call front ++ asked (call + (asked call front).countP Message.isCall) back := by
    induction front generalizing call with
    | nil => rfl
    | cons first rest ih =>
        rw [List.cons_append, asked_cons, ih, asked_cons call first rest, List.append_assoc,
          List.countP_append, Nat.add_assoc]
  have next := Session.nextCall_of_moves (Session.run_moves .initial play.inputs)
  rw [messages, feed, append, session, next]
  rfl

theorem nextCall_feed (input : Input) :
    (play.feed input).session.nextCall = play.session.nextCall +
      (asked play.session.nextCall [input]).countP Message.isCall := by
  rw [session_feed]
  exact Session.nextCall_of_moves (Session.step_moves _ input)

/-! ## Who has asked for a command -/

/-- A command belongs to a request of the debugger, or to someone who breaks into the script. -/
inductive Belongs (play : Interplay α) (queued : Queued) : Prop
  /-- It belongs to a request. -/
  | posting {posting : Posting} (member : posting ∈ play.postings)
      (number : posting.number = queued.call)
      (command : posting.request.command? = some queued.command)
  /-- It belongs to someone else. -/
  | pause (member : queued.call ∈ play.pauses)
      (command : queued.command = .named Continuation.pause.commandName)

/-- Calls of the session are kept track of from a number on. -/
structure Ledger (base : Nat) (play : Interplay α) : Prop where
  /-- Every command belongs to someone. -/
  belongs : ∀ {lane : Lane} {queued : Queued}, .send lane queued ∈ play.messages →
    base ≤ queued.call → play.Belongs queued
  /-- Requests were left with the session in the order of their numbers. -/
  increasing : play.postings.Pairwise fun first second => first.number < second.number
  /-- Their numbers have been given out. -/
  below : ∀ posting ∈ play.postings, posting.number < play.session.nextCall
  /-- So have the numbers of those who break into the script. -/
  paused : ∀ number ∈ play.pauses, number < play.session.nextCall
  /-- Nobody else has the number of a request. -/
  apart : ∀ posting ∈ play.postings, posting.number ∉ play.pauses

variable {base : Nat}

/-- The calls of inputs have the numbers that are given out to them. -/
theorem lt_of_asked {call : Nat} {inputs : List Input} {lane : Lane} {queued : Queued}
    (sent : .send lane queued ∈ asked call inputs) :
    queued.call < call + (asked call inputs).countP Message.isCall := by
  induction inputs generalizing call with
  | nil => cases sent
  | cons input rest ih =>
      rw [asked_cons] at sent ⊢
      rw [List.countP_append, ← Nat.add_assoc]
      rcases List.mem_append.1 sent with first | later
      · refine Nat.lt_add_right _ ?_
        cases input with
        | submit command | interrupt command =>
            cases List.mem_singleton.1 first
            exact Nat.lt_succ_self call
        | close | released => simp [asked] at first
        | abandon | received | disconnected | jammed | attend | listen => cases first
      · exact ih later

theorem lt_nextCall {lane : Lane} {queued : Queued} (sent : .send lane queued ∈ play.messages) :
    queued.call < play.session.nextCall := by
  rw [session, Session.nextCall_of_moves (Session.run_moves .initial play.inputs)]
  exact lt_of_asked sent

/-- Nothing has been asked for yet with a number that is still to come. -/
theorem ledger_start (talk : Talk α) (calls : List Debugger.Call) (inputs : List Input) :
    (start talk calls inputs).Ledger (start talk calls inputs).session.nextCall where
  belongs sent late := absurd (lt_nextCall sent) (Nat.not_lt.2 late)
  increasing := .nil
  below := List.forall_mem_nil _
  paused := List.forall_mem_nil _
  apart := List.forall_mem_nil _

/-- One may keep track from any time on. -/
theorem Ledger.afresh (ledger : play.Ledger base) : play.Ledger play.session.nextCall :=
  { ledger with belongs := fun sent late => absurd (lt_nextCall sent) (Nat.not_lt.2 late) }

/-- A request is known by its number. -/
theorem Ledger.eq_of_number (ledger : play.Ledger base) {first second : Posting}
    (member : first ∈ play.postings) (other : second ∈ play.postings)
    (same : first.number = second.number) : first = second := by
  have apart : (play.postings.map Posting.number).Nodup :=
    List.pairwise_map.2 (ledger.increasing.imp Nat.ne_of_lt)
  exact List.inj_on_of_nodup_map apart member other same

theorem Belongs.mono {queued : Queued} (belongs : play.Belongs queued)
    (postings : play.postings ⊆ after.postings) (pauses : play.pauses ⊆ after.pauses) :
    after.Belongs queued := by
  cases belongs with
  | posting member number command => exact .posting (postings member) number command
  | pause member command => exact .pause (pauses member) command

/-- Where no command is asked for, everything is kept track of. -/
theorem Ledger.feed (ledger : play.Ledger base) {input : Input}
    (submits : ∀ command, input ≠ .submit command)
    (interrupts : ∀ command, input ≠ .interrupt command) : (play.feed input).Ledger base where
  belongs := by
    intro lane queued sent late
    rw [messages_feed] at sent
    rcases List.mem_append.1 sent with earlier | now
    · exact (ledger.belongs earlier late).mono (List.Subset.refl _) (List.Subset.refl _)
    · cases input with
      | submit command => exact absurd rfl (submits command)
      | interrupt command => exact absurd rfl (interrupts command)
      | close | released => simp [asked] at now
      | abandon | received | disconnected | jammed | attend | listen => cases now
  increasing := ledger.increasing
  below posting member := by
    rw [nextCall_feed]
    exact Nat.lt_add_right _ (ledger.below posting member)
  paused number member := by
    rw [nextCall_feed]
    exact Nat.lt_add_right _ (ledger.paused number member)
  apart := ledger.apart

/-- A request that is left with the session gets the next number, and so does its command. -/
theorem asked_of_input? {request : Request} {input : Input} (leaves : request.input? = some input)
    (call : Nat) :
    (asked call [input]).countP Message.isCall = 1 ∧ ∀ {lane : Lane} {queued : Queued},
      .send lane queued ∈ asked call [input] →
        queued.call = call ∧ request.command? = some queued.command := by
  cases request with
  | submit command | interrupt command | detach =>
      cases leaves
      refine ⟨rfl, fun sent => ?_⟩
      cases List.mem_singleton.1 sent
      exact ⟨rfl, rfl⟩
  | close =>
      cases leaves
      exact ⟨rfl, fun sent => by simp [asked] at sent⟩
  | _ => cases leaves

theorem Ledger.post (ledger : play.Ledger base) {request : Request} {input : Input}
    (leaves : request.input? = some input) : (play.post request input).Ledger base := by
  obtain ⟨one, asks⟩ := asked_of_input? leaves play.session.nextCall
  have next : (play.post request input).session.nextCall = play.session.nextCall + 1 :=
    (nextCall_feed input).trans (congrArg _ one)
  refine ⟨fun {lane queued} sent late => ?_, ?_, ?_, ?_, ?_⟩
  · have sent : .send lane queued ∈ (play.feed input).messages := sent
    rw [messages_feed] at sent
    rcases List.mem_append.1 sent with earlier | now
    · exact (ledger.belongs earlier late).mono (List.subset_append_left _ _) (List.Subset.refl _)
    · obtain ⟨number, command⟩ := asks now
      exact .posting List.mem_concat_self number.symm command
  · refine List.pairwise_append.2 ⟨ledger.increasing, List.pairwise_singleton _ _, ?_⟩
    intro first member second last
    cases List.mem_singleton.1 last
    exact ledger.below first member
  · intro posting member
    rw [next]
    rcases List.mem_append.1 member with earlier | now
    · exact Nat.lt_succ_of_lt (ledger.below posting earlier)
    · cases List.mem_singleton.1 now
      exact Nat.lt_succ_self _
  · intro number member
    rw [next]
    exact Nat.lt_succ_of_lt (ledger.paused number member)
  · intro posting member paused
    rcases List.mem_append.1 member with earlier | now
    · exact ledger.apart posting earlier paused
    · cases List.mem_singleton.1 now
      exact Nat.lt_irrefl _ (ledger.paused _ paused)

theorem Ledger.pause (ledger : play.Ledger base) (supportsAsync : Bool) :
    (play.pause supportsAsync).Ledger base := by
  have next : (play.pause supportsAsync).session.nextCall = play.session.nextCall + 1 := by
    refine (nextCall_feed _).trans (congrArg _ ?_)
    cases supportsAsync <;> rfl
  refine ⟨fun {lane queued} sent late => ?_, ledger.increasing, ?_, ?_, ?_⟩
  · have sent : .send lane queued ∈ (play.feed (breakInput supportsAsync)).messages := sent
    rw [messages_feed] at sent
    rcases List.mem_append.1 sent with earlier | now
    · exact (ledger.belongs earlier late).mono (List.Subset.refl _) (List.subset_append_left _ _)
    · cases supportsAsync <;>
        (cases List.mem_singleton.1 now
         exact .pause List.mem_concat_self rfl)
  · intro posting member
    rw [next]
    exact Nat.lt_succ_of_lt (ledger.below posting member)
  · intro number member
    rw [next]
    rcases List.mem_append.1 member with earlier | now
    · exact Nat.lt_succ_of_lt (ledger.paused number earlier)
    · cases List.mem_singleton.1 now
      exact Nat.lt_succ_self _
  · intro posting member paused
    rcases List.mem_append.1 paused with earlier | now
    · exact ledger.apart posting member earlier
    · exact Nat.ne_of_lt (ledger.below posting member) (List.mem_singleton.1 now)

/-- Whatever happens, everything is kept track of. -/
theorem Ledger.goes (ledger : play.Ledger base) (goes : play.Goes after) : after.Ledger base := by
  have told {play : Interplay α} (ledger : play.Ledger base) (request : Request)
      (next : request.Answer → Talk α) (answer : request.Answer) :
      (play.answer request next answer).Ledger base :=
    { ledger with
      belongs := fun sent late =>
        (ledger.belongs sent late).mono (List.Subset.refl _) (List.Subset.refl _) }
  cases goes with
  | posts _ _ leaves => exact ledger.post leaves
  | hears => exact told ledger _ _ _
  | parts =>
      have closing : (play.feed .close).Ledger base := ledger.feed nofun nofun
      exact { closing with
        belongs := fun sent late =>
          (closing.belongs sent late).mono (List.Subset.refl _) (List.Subset.refl _) }
  | @expires number =>
      have abandoned : (play.feed (.abandon number)).Ledger base := ledger.feed nofun nofun
      exact told abandoned _ _ _
  | pauses supportsAsync => exact ledger.pause supportsAsync
  | feeds outer =>
      refine ledger.feed ?_ ?_ <;>
        (rintro command rfl
         cases outer)

/-- What is written for a call that was kept track of belongs to someone. -/
theorem Ledger.belongs_of_written (ledger : play.Ledger base) {lane : Lane} {call id : Nat}
    {command : Command} (written : .write lane call id command ∈ play.effects)
    (late : base ≤ call) : play.Belongs ⟨call, command⟩ :=
  ledger.belongs (Session.asked_of_written written) late

/-! ## What a debugger does that goes by a rule -/

variable {π : Type} {conduct : Conduct π} {outcome : α → π → Prop} {point : π}
  {origin : Interplay α} {more : List Exchange} {later : List Posting}

/-- What a debugger has done since some time that goes by a rule. -/
structure Since (conduct : Conduct π) (outcome : α → π → Prop) (point : π)
    (origin play : Interplay α) (more : List Exchange) (later : List Posting) : Prop where
  /-- It has exchanged something more. -/
  exchanged : play.exchanges = origin.exchanges ++ more
  /-- It has left more requests with the session. -/
  posted : play.postings = origin.postings ++ later
  /-- It will go on by the rule. -/
  obeys : play.main.Obeys conduct outcome (more.foldl conduct.next point)
  /-- What was answered was allowed. -/
  heard : ∀ front exchange, front ++ [exchange] <+: more →
    conduct.allows (front.foldl conduct.next point) exchange.request
  /-- What was left with the session was allowed, after all that had been left there before. -/
  left : ∀ posting ∈ later, ∃ front, front <+: more ∧ (origin.stage ≠ .free → front ≠ []) ∧
    conduct.allows (front.foldl conduct.next point) posting.request
  /-- A request that had been taken up still is, unless it was answered. -/
  waits : origin.stage ≠ .free → more = [] → play.stage ≠ .free
  /-- Until something is answered it is about to do the same. -/
  main : more = [] → play.main = origin.main
  /-- What is answered first is what it was about to ask for. -/
  first : ∀ exchange ∈ more.head?, ∃ next, origin.main = .call exchange.request next

theorem Since.answer (since : Since conduct outcome point origin play more later)
    {request : Request} {next : request.Answer → Talk α} {answer : request.Answer}
    (main : play.main = .call request next) :
    Since conduct outcome point origin (play.answer request next answer)
      (more ++ [⟨request, answer⟩]) later := by
  have obeys := since.obeys
  rw [main] at obeys
  constructor
  · exact (congrArg (· ++ _) since.exchanged).trans (List.append_assoc _ _ _)
  · exact since.posted
  · rw [List.foldl_concat]
    exact obeys.2 answer
  · intro front exchange within
    rcases List.prefix_concat_iff.1 within with now | before
    · obtain ⟨rfl, last⟩ := List.append_inj' now rfl
      cases List.singleton_inj.1 last
      exact obeys.1
    · exact since.heard front exchange before
  · intro posting member
    obtain ⟨front, before, begun, allows⟩ := since.left posting member
    exact ⟨front, before.trans (List.prefix_append _ _), begun, allows⟩
  · intro _ none
    cases (List.append_eq_nil_iff.1 none).2
  · intro none
    cases (List.append_eq_nil_iff.1 none).2
  · intro exchange begins
    cases more with
    | nil =>
        cases begins
        exact ⟨next, (since.main rfl).symm.trans main⟩
    | cons earlier rest => exact since.first exchange begins

theorem Since.post (since : Since conduct outcome point origin play more later)
    {request : Request} {next : request.Answer → Talk α} {input : Input}
    (free : play.stage = .free) (main : play.main = .call request next) :
    Since conduct outcome point origin (play.post request input) more
      (later ++ [⟨play.session.nextCall, play.task, request⟩]) := by
  have obeys := since.obeys
  rw [main] at obeys
  refine ⟨since.exchanged, ?_, since.obeys, since.heard, ?_, fun _ _ => nofun, since.main,
    since.first⟩
  · exact (congrArg (· ++ _) since.posted).trans (List.append_assoc _ _ _)
  · intro posting member
    rcases List.mem_append.1 member with earlier | now
    · exact since.left posting earlier
    · cases List.mem_singleton.1 now
      exact ⟨more, List.prefix_rfl, fun busy none => since.waits busy none free, obeys.1⟩

theorem Since.goes (since : Since conduct outcome point origin play more later)
    (goes : play.Goes after) :
    ∃ more later, Since conduct outcome point origin after more later := by
  cases goes with
  | posts free main => exact ⟨_, _, since.post free main⟩
  | hears main => exact ⟨_, _, since.answer main⟩
  | parts => exact ⟨more, later, { since with waits := fun _ _ => nofun }⟩
  | expires _ main =>
      have fed (input : Input) : Since conduct outcome point origin (play.feed input) more later :=
        { since with }
      exact ⟨_, _, (fed _).answer main⟩
  | pauses | feeds => exact ⟨more, later, { since with }⟩

/-- Whatever happens, a debugger that goes by a rule has done so and will do so. -/
theorem since_perform {steps : List Step} (obeys : origin.main.Obeys conduct outcome point)
    (performed : origin.perform steps = some play) :
    ∃ more later, Since conduct outcome point origin play more later := by
  have begun : Since conduct outcome point origin origin [] [] := by
    refine ⟨(List.append_nil _).symm, (List.append_nil _).symm, obeys,
      fun front exchange within => ?_, List.forall_mem_nil _, fun busy _ => busy, fun _ => rfl, nofun⟩
    cases (List.append_eq_nil_iff.1 (List.prefix_nil.1 within)).2
  refine perform_invariant (motive := fun play =>
    ∃ more later, Since conduct outcome point origin play more later) ?_ ⟨_, _, begun⟩ performed
  rintro play after ⟨more, later, since⟩ goes
  exact since.goes goes

/-- What is written for a call of a later time belongs to a request that was left with the session
since, or to someone who breaks into the script. -/
theorem Since.wanted_of_written (since : Since conduct outcome point origin play more later)
    (known : origin.Ledger base) (ledger : play.Ledger origin.session.nextCall) {lane : Lane}
    {call id : Nat} {command : Command} (written : .write lane call id command ∈ play.effects)
    (late : origin.session.nextCall ≤ call) :
    (∃ posting ∈ later, posting.request.command? = some command) ∨
      command = .named Continuation.pause.commandName := by
  cases ledger.belongs_of_written written late with
  | @posting posting member number wanted =>
      rw [since.posted] at member
      rcases List.mem_append.1 member with before | after
      · exact absurd (known.below posting before) (Nat.not_lt.2 (number ▸ late))
      · exact .inl ⟨posting, after, wanted⟩
  | pause _ breaks => exact .inr breaks

/-! ## An engine that answers -/

/-- The engine answers the command with an id, and the session takes that up. -/
def answered (id : Nat) (attributes body : String) : List Step :=
  let text := "<response transaction_id=\"" ++ toString id ++ "\"" ++ attributes ++ ">" ++ body ++
    "</response>"
  [.feed (.received (Frame.encode (Text.bytesOf text))), .feed .listen]

/-- The debugger's request is written with an id, and answered. -/
def exchanged (answers : (request : Request) → request.Answer) (id : Nat)
    (attributes body : String) : List Step :=
  [.ask answers, .feed .attend] ++ answered id attributes body ++ [.take]

/-- The names of the commands that are written, in order. -/
def namesWritten (effects : List Effect) : List String :=
  effects.filterMap fun
    | .write _ _ _ command => some command.name
    | _ => none

end Interplay

end DebugBridge
