import DebugBridge.Session.Basic

/-!
# The moves of a session

A step of a session is a chain of moves.  A move changes one thing at a time: a message comes or is
taken up, a command leaves the queue or is written, an answer is matched, or everything ends.  What
every move keeps is kept by every run, so the theory of sessions argues about moves alone.

Calls are numbered in the order in which they are made, and `asked` lists the messages that a run of
inputs leaves, with those numbers.
-/

namespace DebugBridge

/-- The messages that inputs leave for a session whose next call has number `call`. -/
def asked (call : Nat) : List Input → List Message
  | [] => []
  | .submit command :: rest => .send .turn ⟨call, command⟩ :: asked (call + 1) rest
  | .interrupt command :: rest => .send .urgent ⟨call, command⟩ :: asked (call + 1) rest
  | .close :: rest => .close call :: asked (call + 1) rest
  | .released :: rest => .released :: asked call rest
  | _ :: rest => asked call rest

/-- Whether a message comes from a call, which has a number. -/
def Message.isCall : Message → Bool
  | .send _ _ | .close _ => true
  | .released => false

theorem asked_cons (call : Nat) (input : Input) (rest : List Input) :
    asked call (input :: rest) =
      asked call [input] ++ asked (call + (asked call [input]).countP Message.isCall) rest := by
  cases input <;> rfl

/-- The call and the command of a message that asks for a command to be written in a lane. -/
def Message.queued? (lane : Lane) : Message → Option Queued
  | .send other queued => if other = lane then some queued else none
  | _ => none

/-- The call and the command that an effect writes in a lane. -/
def Effect.written? (lane : Lane) : Effect → Option Queued
  | .write other call _ command => if other = lane then some ⟨call, command⟩ else none
  | _ => none

/-- Whether an effect only tells someone something. -/
def Effect.isNotice : Effect → Bool
  | .reply _ _ | .returned _ | .event _ => true
  | .write _ _ _ _ | .answered _ _ => false

/-- What is no notice is not among notices. -/
theorem not_mem_of_isNotice {effect : Effect} {effects : List Effect}
    (notices : ∀ effect ∈ effects, effect.isNotice = true) (other : effect.isNotice = false) :
    effect ∉ effects := by
  intro member
  rw [notices effect member] at other
  cases other

/-- Nothing is found in notices by looking for something else. -/
theorem filterMap_of_isNotice {α : Type} {find : Effect → Option α} {effects : List Effect}
    (blind : ∀ effect, effect.isNotice = true → find effect = none)
    (notices : ∀ effect ∈ effects, effect.isNotice = true) : effects.filterMap find = [] := by
  rw [List.filterMap_eq_nil_iff]
  intro effect member
  exact blind effect (notices effect member)

theorem filterMap_written?_of_isNotice {lane : Lane} {effects : List Effect}
    (notices : ∀ effect ∈ effects, effect.isNotice = true) :
    effects.filterMap (Effect.written? lane) = [] := by
  apply filterMap_of_isNotice _ notices
  intro effect notice
  cases effect with
  | write | answered => cases notice
  | reply | returned | event => rfl

namespace Session

variable {session after : Session}

/-- What stays the same for all commands while something else changes; callers may give up. -/
structure SameCommands (session after : Session) : Prop where
  /-- The same command is in flight. -/
  inFlight : after.inFlight = session.inFlight
  /-- The same commands wait for their turn. -/
  queue : after.queue = session.queue
  /-- The same interrupts are pending. -/
  interrupts : after.interrupts = session.interrupts
  /-- The same messages wait. -/
  mailbox : after.mailbox = session.mailbox
  /-- The next call has the same number. -/
  nextCall : after.nextCall = session.nextCall
  /-- The next transaction id is the same. -/
  nextId : after.nextId = session.nextId
  /-- The session goes on if it did so before. -/
  isOpen : after.isOpen = session.isOpen
  /-- Whoever has given up has still given up. -/
  givenUp : ∀ call ∈ session.givenUp, call ∈ after.givenUp

/-- One thing that happens in a session, with the messages that come and the effects it has. -/
inductive Move (session : Session) : List Message → List Effect → Session → Prop
  /-- Something changes that is no matter of commands. -/
  | outside {after : Session} (same : SameCommands session after) : Move session [] [] after
  /-- An event is reported. -/
  | report (event : SessionEvent) : Move session [] [.event event] session
  /-- A call that asked for the end returns. -/
  | letReturn (call : Nat) (ended : session.isOpen = false) :
      Move session [] [.returned call] session
  /-- A message comes. -/
  | post (message : Message) (isOpen : session.isOpen = true) :
      Move session [message] []
        { session with
          nextCall := session.nextCall + [message].countP Message.isCall
          mailbox := session.mailbox ++ [message] }
  /-- A message comes too late. -/
  | refuse (message : Message) (ended : session.isOpen = false) :
      Move session [message] (session.turnAway message)
        { session with nextCall := session.nextCall + [message].countP Message.isCall }
  /-- A command goes from the mailbox to the end of the queue. -/
  | enqueue {queued : Queued} {rest : List Message}
      (mailbox : session.mailbox = .send .turn queued :: rest) :
      Move session [] [] { session with mailbox := rest, queue := session.queue ++ [queued] }
  /-- A command without a caller leaves the queue. -/
  | skip {queued : Queued} {rest : List Queued} (queue : session.queue = queued :: rest)
      (givenUp : queued.call ∈ session.givenUp) : Move session [] [] { session with queue := rest }
  /-- The first command of the queue is written. -/
  | writeTurn {queued : Queued} {rest : List Queued} (isOpen : session.isOpen = true)
      (free : session.inFlight = none) (queue : session.queue = queued :: rest)
      (waiting : queued.call ∉ session.givenUp) :
      Move session [] [.write .turn queued.call session.nextId queued.command]
        { session with
          nextId := idAfter session.nextId
          inFlight := some ⟨session.nextId, queued.call⟩
          queue := rest }
  /-- An interrupt is written. -/
  | writeUrgent {queued : Queued} {rest : List Message} (isOpen : session.isOpen = true)
      (mailbox : session.mailbox = .send .urgent queued :: rest) :
      Move session []
        (.write .urgent queued.call session.nextId queued.command ::
          (session.addInterrupt ⟨session.nextId, queued.call⟩).2)
        ({ session with nextId := idAfter session.nextId, mailbox := rest }.addInterrupt
          ⟨session.nextId, queued.call⟩).1
  /-- The command in flight is answered. -/
  | answerTurn {pending : Pending} {response : Response}
      (inFlight : session.inFlight = some pending) (same : pending.id = response.id) :
      Move session []
        (.answered pending.call response :: session.tell (outcome response) pending.call)
        { session with inFlight := none }
  /-- An interrupt is answered. -/
  | answerUrgent {pending : Pending} {response : Response}
      (other : ∀ first, session.inFlight = some first → first.id ≠ response.id)
      (interrupt : pending ∈ session.interrupts) (same : pending.id = response.id) :
      Move session []
        (.answered pending.call response :: session.tell (outcome response) pending.call)
        { session with
          interrupts := session.interrupts.filter fun other => other.id != response.id }
  /-- A message that asks for no command is taken up. -/
  | takeUp {message : Message} {rest : List Message} (mailbox : session.mailbox = message :: rest)
      (plain : ∀ lane, message.queued? lane = none) :
      Move session [] [] { session with mailbox := rest }
  /-- The first command of the queue cannot be written. -/
  | loseTurn {queued : Queued} {rest : List Queued} (queue : session.queue = queued :: rest) :
      Move session [] (session.tellClosed queued.call) { session with queue := rest }
  /-- An interrupt cannot be written. -/
  | loseUrgent {queued : Queued} {rest : List Message}
      (mailbox : session.mailbox = .send .urgent queued :: rest) :
      Move session [] (session.tellClosed queued.call) { session with mailbox := rest }
  /-- Everything ends. -/
  | teardown : Move session [] session.teardown.2 session.teardown.1

/-- A chain of moves, with all messages that come and all effects. -/
inductive Moves (session : Session) : List Message → List Effect → Session → Prop
  /-- Nothing happens. -/
  | refl : Moves session [] [] session
  /-- One more thing happens. -/
  | tail {messages more : List Message} {log effects : List Effect} {middle after : Session}
      (moves : Moves session messages log middle) (move : Move middle more effects after) :
      Moves session (messages ++ more) (log ++ effects) after

theorem Move.moves {messages : List Message} {log : List Effect}
    (move : Move session messages log after) : Moves session messages log after := by
  simpa using Moves.refl.tail move

theorem Moves.trans {middle : Session} {messages more : List Message} {log effects : List Effect}
    (first : Moves session messages log middle) (second : Moves middle more effects after) :
    Moves session (messages ++ more) (log ++ effects) after := by
  induction second with
  | refl => simpa using first
  | tail _ move ih => simpa only [List.append_assoc] using ih.tail move

/-- Chains without messages follow each other. -/
theorem Moves.andThen {middle : Session} {log : List Effect} {next : Session × List Effect}
    (first : Moves session [] log middle) (second : Moves middle [] next.2 next.1) :
    Moves session [] (andThen log next).2 (andThen log next).1 :=
  first.trans second

theorem hasGivenUp_iff {call : Nat} : session.hasGivenUp call = true ↔ call ∈ session.givenUp := by
  simp [hasGivenUp]

/-- Commands without callers leave the front of the queue. -/
theorem skip_moves (session : Session) :
    Moves session [] []
      { session with
        queue := session.queue.dropWhile fun queued => session.hasGivenUp queued.call } := by
  induction eq : session.queue generalizing session with
  | nil =>
      rw [List.dropWhile_nil, ← eq]
      exact Moves.refl
  | cons queued rest ih =>
      by_cases givenUp : session.hasGivenUp queued.call = true
      · rw [List.dropWhile_cons, if_pos givenUp]
        exact (Move.skip eq (hasGivenUp_iff.1 givenUp)).moves.trans
          (ih { session with queue := rest } rfl)
      · rw [List.dropWhile_cons, if_neg givenUp, ← eq]
        exact Moves.refl

theorem writeTurn_moves {queued : Queued} {rest : List Queued} (isOpen : session.isOpen = true)
    (free : session.inFlight = none) (queue : session.queue = queued :: rest)
    (waiting : queued.call ∉ session.givenUp) :
    Moves session [] ({ session with queue := rest }.write .turn queued).2
      ({ session with queue := rest }.write .turn queued).1 := by
  rw [write]
  split
  · exact (Move.writeTurn isOpen free queue waiting).moves
  · exact (Move.loseTurn queue).moves.andThen Move.teardown.moves

theorem writeUrgent_moves {queued : Queued} {rest : List Message} (isOpen : session.isOpen = true)
    (mailbox : session.mailbox = .send .urgent queued :: rest) :
    Moves session [] ({ session with mailbox := rest }.write .urgent queued).2
      ({ session with mailbox := rest }.write .urgent queued).1 := by
  rw [write]
  split
  · exact (Move.writeUrgent isOpen mailbox).moves
  · exact (Move.loseUrgent mailbox).moves.andThen Move.teardown.moves

theorem pump_moves (isOpen : session.isOpen = true) :
    Moves session [] session.pump.2 session.pump.1 := by
  rw [pump]
  split
  · exact Moves.refl
  · rename_i free
    have skipped := session.skip_moves
    split
    · rename_i queue
      rwa [queue] at skipped
    · rename_i queued rest queue
      have waiting : queued.call ∉ session.givenUp := by
        have head := List.head?_dropWhile_not
          (fun queued : Queued => session.hasGivenUp queued.call) session.queue
        rw [queue] at head
        simpa [hasGivenUp] using head
      rw [queue] at skipped
      exact skipped.trans (writeTurn_moves isOpen free rfl waiting)

theorem handleResponse_moves (isOpen : session.isOpen = true) (response : Response) :
    Moves session [] (session.handleResponse response).2 (session.handleResponse response).1 := by
  rw [handleResponse]
  split
  · rename_i pending next taken
    rw [take?] at taken
    split at taken
    · rename_i first found
      obtain ⟨inFlight, same⟩ := Option.filter_eq_some_iff.1 found
      obtain ⟨rfl, rfl⟩ := taken
      exact (Move.answerTurn inFlight (beq_iff_eq.1 same)).moves.andThen (pump_moves isOpen)
    · rename_i other
      obtain ⟨found, eq, taken⟩ := Option.map_eq_some_iff.1 taken
      obtain ⟨rfl, rfl⟩ := Prod.mk.inj taken
      have same := List.find?_some eq
      refine (Move.answerUrgent ?_ (List.mem_of_find?_eq_some eq) (beq_iff_eq.1 same)).moves.andThen
        (pump_moves isOpen)
      intro first inFlight
      simpa [inFlight] using other
  · exact (Move.report _).moves

/-- What was taken off the buffer is an answer, or it is only reported. -/
theorem handleItem_cases (session : Session) (item : Frame.Item) :
    (∃ response, item = .packet (.response response)) ∨
      ∃ event, session.handleItem item = (session, [.event event]) := by
  cases item with
  | fault error => exact Or.inr ⟨_, rfl⟩
  | packet packet =>
      cases packet with
      | init _ | stream _ | notify _ => exact Or.inr ⟨_, rfl⟩
      | response response => exact Or.inl ⟨response, rfl⟩

theorem handleItem_moves (session : Session) (isOpen : session.isOpen = true) (item : Frame.Item) :
    Moves session [] (session.handleItem item).2 (session.handleItem item).1 := by
  obtain ⟨response, rfl⟩ | ⟨event, eq⟩ := session.handleItem_cases item
  · exact handleResponse_moves isOpen response
  · rw [eq]
    exact (Move.report event).moves

theorem attend_moves (session : Session) : Moves session [] session.attend.2 session.attend.1 := by
  rw [attend]
  split
  · rename_i message rest isOpen mailbox
    cases message with
    | send lane queued =>
        cases lane with
        | turn => exact (Move.enqueue mailbox).moves.trans (pump_moves isOpen)
        | urgent => exact writeUrgent_moves isOpen mailbox
    | close call =>
        have taken := (Move.takeUp mailbox fun _ => rfl).moves
        exact (taken.trans Move.teardown.moves).trans (Move.letReturn call rfl).moves
    | released => exact (Move.takeUp mailbox fun _ => rfl).moves.trans Move.teardown.moves
  · exact Moves.refl

theorem listen_moves (session : Session) : Moves session [] session.listen.2 session.listen.1 := by
  rw [listen]
  split
  · rename_i incoming rest isOpen _
    have same : SameCommands session { session with incoming := rest } :=
      ⟨rfl, rfl, rfl, rfl, rfl, rfl, rfl, fun _ => id⟩
    have taken := (Move.outside same).moves
    cases incoming with
    | item item =>
        exact taken.trans (handleItem_moves { session with incoming := rest } isOpen item)
    | ended => exact taken.trans Move.teardown.moves
  · exact Moves.refl

/-- A message comes while the session goes on or too late. -/
theorem post_moves (session : Session) (message : Message) :
    Moves session [message]
      ({ session with
        nextCall := session.nextCall + [message].countP Message.isCall }.post message).2
      ({ session with
        nextCall := session.nextCall + [message].countP Message.isCall }.post message).1 := by
  rw [post]
  split
  · rename_i isOpen
    exact Move.moves (.post message isOpen)
  · rename_i ended
    exact Move.moves (.refuse message (Bool.eq_false_iff.2 ended))

theorem sameCommands_abandon (session : Session) (call : Nat) :
    SameCommands session (session.abandon call) := by
  rw [abandon]
  split
  · exact ⟨rfl, rfl, rfl, rfl, rfl, rfl, rfl, fun _ => List.mem_cons_of_mem call⟩
  · exact ⟨rfl, rfl, rfl, rfl, rfl, rfl, rfl, fun _ => id⟩

theorem sameCommands_receive (session : Session) (bytes : List UInt8) :
    SameCommands session (session.receive bytes) := by
  rw [receive]
  split <;> exact ⟨rfl, rfl, rfl, rfl, rfl, rfl, rfl, fun _ => id⟩

theorem sameCommands_endOfBytes (session : Session) :
    SameCommands session session.endOfBytes := by
  rw [endOfBytes]
  split <;> exact ⟨rfl, rfl, rfl, rfl, rfl, rfl, rfl, fun _ => id⟩

/-- A step is a chain of moves. -/
theorem step_moves (session : Session) (input : Input) :
    Moves session (asked session.nextCall [input]) (session.step input).2
      (session.step input).1 := by
  cases input with
  | submit command => exact session.post_moves (.send .turn ⟨session.nextCall, command⟩)
  | interrupt command => exact session.post_moves (.send .urgent ⟨session.nextCall, command⟩)
  | close => exact session.post_moves (.close session.nextCall)
  | released => exact session.post_moves .released
  | abandon call => exact (Move.outside (session.sameCommands_abandon call)).moves
  | received bytes => exact (Move.outside (session.sameCommands_receive bytes)).moves
  | disconnected => exact (Move.outside session.sameCommands_endOfBytes).moves
  | jammed =>
      have same : SameCommands session { session with writable := false } :=
        ⟨rfl, rfl, rfl, rfl, rfl, rfl, rfl, fun _ => id⟩
      exact (Move.outside same).moves
  | attend => exact session.attend_moves
  | listen => exact session.listen_moves

/-- Who has given up stays so. -/
theorem givenUp_of_move {messages : List Message} {effects : List Effect}
    (move : Move session messages effects after) {call : Nat} (givenUp : call ∈ session.givenUp) :
    call ∈ after.givenUp := by
  cases move with
  | outside same => exact same.givenUp call givenUp
  | _ => exact givenUp

theorem givenUp_of_moves {messages : List Message} {log : List Effect}
    (moves : Moves session messages log after) {call : Nat} (givenUp : call ∈ session.givenUp) :
    call ∈ after.givenUp := by
  induction moves with
  | refl => exact givenUp
  | tail _ move ih => exact givenUp_of_move move ih

theorem mem_givenUp_abandon {call : Nat} (made : call < session.nextCall) :
    call ∈ (session.abandon call).givenUp := by
  rw [abandon, if_pos made]
  exact List.mem_cons_self

/-! ## Notices -/

theorem isNotice_tell {result : Except SessionError Response} {call : Nat} :
    ∀ effect ∈ session.tell result call, effect.isNotice = true := by
  rw [tell]
  split <;> simp [Effect.isNotice]

theorem isNotice_tellClosed {call : Nat} :
    ∀ effect ∈ session.tellClosed call, effect.isNotice = true :=
  isNotice_tell

theorem isNotice_turnAway {message : Message} :
    ∀ effect ∈ session.turnAway message, effect.isNotice = true := by
  cases message with
  | send lane queued => exact isNotice_tell
  | close call => simp [turnAway, Effect.isNotice]
  | released => simp [turnAway]

theorem isNotice_teardown : ∀ effect ∈ session.teardown.2, effect.isNotice = true := by
  intro effect member
  simp only [teardown, List.mem_append, List.mem_flatMap, List.mem_singleton] at member
  rcases member with ((⟨_, _, told⟩ | ⟨_, _, told⟩) | ⟨_, _, told⟩) | rfl
  · exact isNotice_tellClosed effect told
  · exact isNotice_tellClosed effect told
  · exact isNotice_turnAway effect told
  · rfl

theorem isNotice_addInterrupt {pending : Pending} :
    ∀ effect ∈ (session.addInterrupt pending).2, effect.isNotice = true := by
  intro effect member
  obtain ⟨_, _, told⟩ := List.mem_flatMap.1 member
  exact isNotice_tellClosed effect told

/-! ## Runs -/

theorem nextCall_of_moves {messages : List Message} {log : List Effect}
    (moves : Moves session messages log after) :
    after.nextCall = session.nextCall + messages.countP Message.isCall := by
  induction moves with
  | refl => rfl
  | tail _ move ih =>
      rw [List.countP_append, ← Nat.add_assoc, ← ih]
      cases move with
      | outside same => exact same.nextCall
      | _ => rfl

theorem run_append (session : Session) (front back : List Input) :
    session.run (front ++ back) =
      andThen (session.run front).2 ((session.run front).1.run back) := by
  induction front generalizing session with
  | nil => rfl
  | cons input front ih => simp only [List.cons_append, run, ih, andThen, List.append_assoc]

/-- A run is a chain of moves. -/
theorem run_moves (session : Session) (inputs : List Input) :
    Moves session (asked session.nextCall inputs) (session.run inputs).2
      (session.run inputs).1 := by
  induction inputs generalizing session with
  | nil => exact Moves.refl
  | cons input rest ih =>
      have first := session.step_moves input
      rw [asked_cons, ← nextCall_of_moves first]
      exact first.trans (ih (session.step input).1)

/-- A session that has ended stays so. -/
theorem isOpen_of_moves {messages : List Message} {log : List Effect}
    (moves : Moves session messages log after) (isOpen : after.isOpen = true) :
    session.isOpen = true := by
  induction moves with
  | refl => exact isOpen
  | tail _ move ih =>
      apply ih
      cases move with
      | outside same => exact same.isOpen ▸ isOpen
      | teardown => cases isOpen
      | _ => exact isOpen

theorem isOpen_of_run {inputs : List Input} (isOpen : (session.run inputs).1.isOpen = true) :
    session.isOpen = true :=
  isOpen_of_moves (session.run_moves inputs) isOpen

/-- What holds in the beginning and is kept by every move holds after every run. -/
theorem run_invariant {motive : Session → List Message → List Effect → Prop}
    (start : motive initial [] [])
    (kept : ∀ {session after : Session} {messages more : List Message} {log effects : List Effect},
      motive session messages log → Move session more effects after →
        motive after (messages ++ more) (log ++ effects))
    (inputs : List Input) :
    motive (initial.run inputs).1 (asked 1 inputs) (initial.run inputs).2 := by
  have chain : ∀ {messages log after}, Moves initial messages log after →
      motive after messages log := by
    intro messages log after moves
    induction moves with
    | refl => exact start
    | tail _ move ih => exact kept ih move
  exact chain (initial.run_moves inputs)

end Session
end DebugBridge
