import DebugBridge.Proofs.Session.Move

/-!
# What a session handles

A session takes up one thing at a time, a message or what has come from the engine, and whatever it
is, one of two things comes of it: the session goes on and everything else that waits is as it was,
or there is a teardown and nothing waits any more.  What is always true of a session follows from
that, and so does what becomes of it when a write fails.
-/

namespace DebugBridge

/-- Whether an effect answers someone who has come too late. -/
def Effect.isLate : Effect → Bool
  | .reply _ (.error .closed) | .returned _ => true
  | _ => false

theorem Effect.isNotice_of_isLate {effect : Effect} (late : effect.isLate = true) :
    effect.isNotice = true := by
  cases effect with
  | reply | returned => rfl
  | write | answered | event => cases late

theorem Effect.not_event_of_isLate {event : SessionEvent} : ¬ (Effect.event event).isLate = true :=
  Bool.false_ne_true

namespace Session

variable {session after : Session}

/-! ## Late answers -/

theorem isLate_tellClosed {call : Nat} :
    ∀ effect ∈ session.tellClosed call, effect.isLate = true := by
  rw [tellClosed, tell]
  split <;> simp [Effect.isLate]

theorem isLate_turnAway {message : Message} :
    ∀ effect ∈ session.turnAway message, effect.isLate = true := by
  cases message with
  | send lane queued => exact isLate_tellClosed
  | close call => simp [turnAway, Effect.isLate]
  | released => simp [turnAway]

/-- A teardown answers everyone who waits and then reports the end. -/
theorem teardown_eq (session : Session) :
    ∃ told, session.teardown.2 = told ++ [.event .closed] ∧
      ∀ effect ∈ told, effect.isLate = true := by
  refine ⟨_, rfl, ?_⟩
  intro effect member
  simp only [List.mem_append, List.mem_flatMap] at member
  obtain (⟨_, _, told⟩ | ⟨_, _, told⟩) | ⟨_, _, told⟩ := member
  · exact isLate_tellClosed effect told
  · exact isLate_tellClosed effect told
  · exact isLate_turnAway effect told

theorem not_closed_of_isLate {effects : List Effect}
    (late : ∀ effect ∈ effects, effect.isLate = true) : .event .closed ∉ effects :=
  fun member => Effect.not_event_of_isLate (late _ member)

/-! ## What a session handles -/

/-- What stays the same while a session handles something and goes on. -/
structure SameWaiting (session after : Session) : Prop where
  /-- The same messages wait. -/
  mailbox : after.mailbox = session.mailbox
  /-- The same things from the engine wait. -/
  incoming : after.incoming = session.incoming
  /-- The same bytes wait to be decoded. -/
  buffer : after.buffer = session.buffer
  /-- Bytes are read as before. -/
  readable : after.readable = session.readable
  /-- Bytes can be written as before. -/
  writable : after.writable = session.writable
  /-- The session goes on as before. -/
  isOpen : after.isOpen = session.isOpen
  /-- The next call has the same number. -/
  nextCall : after.nextCall = session.nextCall
  /-- The same callers have given up. -/
  givenUp : after.givenUp = session.givenUp

/-- What comes of handling something: the session goes on, with what waits as it was, or it ends
by a teardown that everyone hears of who still waits. -/
inductive Handled (session : Session) : Session × List Effect → Prop
  /-- The session goes on. -/
  | goesOn {after : Session} {effects : List Effect} (same : SameWaiting session after)
      (unannounced : .event .closed ∉ effects) : Handled session (after, effects)
  /-- The session ends. -/
  | ends {before answers : List Effect} {last : Session} (same : SameWaiting session last)
      (unannounced : .event .closed ∉ before)
      (late : ∀ effect ∈ answers, effect.isLate = true) :
      Handled session (last.teardown.1, before ++ last.teardown.2 ++ answers)

theorem SameWaiting.refl (session : Session) : SameWaiting session session :=
  ⟨rfl, rfl, rfl, rfl, rfl, rfl, rfl, rfl⟩

theorem SameWaiting.trans {middle : Session} (first : SameWaiting session middle)
    (second : SameWaiting middle after) : SameWaiting session after where
  mailbox := second.mailbox.trans first.mailbox
  incoming := second.incoming.trans first.incoming
  buffer := second.buffer.trans first.buffer
  readable := second.readable.trans first.readable
  writable := second.writable.trans first.writable
  isOpen := second.isOpen.trans first.isOpen
  nextCall := second.nextCall.trans first.nextCall
  givenUp := second.givenUp.trans first.givenUp

/-- Something may change first that nobody waits for. -/
theorem Handled.of_same {middle : Session} {next : Session × List Effect}
    (handled : Handled middle next) (same : SameWaiting session middle) : Handled session next := by
  cases handled with
  | goesOn same' unannounced => exact .goesOn (same.trans same') unannounced
  | ends same' unannounced late => exact .ends (same.trans same') unannounced late

/-- Something may be done first, as long as it reports no end. -/
theorem Handled.andThen {next : Session × List Effect} {effects : List Effect}
    (handled : Handled session next) (unannounced : .event .closed ∉ effects) :
    Handled session (andThen effects next) := by
  cases handled with
  | goesOn same unannounced' => exact .goesOn same (by simp [unannounced, unannounced'])
  | @ends before answers last same unannounced' late =>
      have eq : Session.andThen effects
          (last.teardown.1, before ++ last.teardown.2 ++ answers) =
          (last.teardown.1, (effects ++ before) ++ last.teardown.2 ++ answers) := by
        simp only [Session.andThen, List.append_assoc]
      rw [eq]
      exact .ends same (by simp [unannounced, unannounced']) late

theorem Handled.same_of_isOpen {next : Session × List Effect} (handled : Handled session next)
    (isOpen : next.1.isOpen = true) : SameWaiting session next.1 := by
  cases handled with
  | goesOn same _ => exact same
  | ends _ _ _ => cases isOpen

theorem Handled.writable {next : Session × List Effect} (handled : Handled session next) :
    next.1.writable = session.writable := by
  cases handled with
  | goesOn same _ | ends same _ _ => exact same.writable

theorem handled_teardown (session : Session) : Handled session session.teardown := by
  have handled : Handled session (session.teardown.1, [] ++ session.teardown.2 ++ []) :=
    .ends (.refl session) List.not_mem_nil (by simp)
  simpa using handled

theorem not_closed_tell {result : Except SessionError Response} {call : Nat} :
    .event .closed ∉ session.tell result call := by
  rw [tell]
  split <;> simp

theorem sameWaiting_keep (session : Session) (lane : Lane) (pending : Pending) :
    SameWaiting session (session.keep lane pending).1 := by
  cases lane <;> exact ⟨rfl, rfl, rfl, rfl, rfl, rfl, rfl, rfl⟩

theorem isLate_keep {lane : Lane} {pending : Pending} :
    ∀ effect ∈ (session.keep lane pending).2, effect.isLate = true := by
  cases lane with
  | turn => simp [keep]
  | urgent =>
      intro effect member
      obtain ⟨_, _, told⟩ := List.mem_flatMap.1 member
      exact isLate_tellClosed effect told

theorem handled_write (session : Session) (lane : Lane) (queued : Queued) :
    Handled session (session.write lane queued) := by
  rw [write]
  split
  · have same : SameWaiting session { session with nextId := idAfter session.nextId } :=
      ⟨rfl, rfl, rfl, rfl, rfl, rfl, rfl, rfl⟩
    exact Handled.andThen
      (.goesOn (same.trans (sameWaiting_keep _ lane _)) (not_closed_of_isLate isLate_keep))
      (by simp)
  · exact session.handled_teardown.andThen not_closed_tell

theorem handled_pump (session : Session) : Handled session session.pump := by
  rw [pump]
  split
  · exact .goesOn (.refl session) List.not_mem_nil
  · split
    · exact .goesOn ⟨rfl, rfl, rfl, rfl, rfl, rfl, rfl, rfl⟩ List.not_mem_nil
    · rename_i queued rest _
      exact (handled_write { session with queue := rest } .turn queued).of_same
        ⟨rfl, rfl, rfl, rfl, rfl, rfl, rfl, rfl⟩

/-- A command that is taken out of those pending leaves everything else. -/
theorem sameWaiting_take? {id : Nat} {pending : Pending}
    (taken : session.take? id = some (pending, after)) : SameWaiting session after := by
  rw [take?] at taken
  split at taken
  · obtain ⟨-, rfl⟩ := Prod.mk.inj (Option.some.inj taken)
    exact ⟨rfl, rfl, rfl, rfl, rfl, rfl, rfl, rfl⟩
  · obtain ⟨_, -, eq⟩ := Option.map_eq_some_iff.1 taken
    obtain ⟨-, rfl⟩ := Prod.mk.inj eq
    exact ⟨rfl, rfl, rfl, rfl, rfl, rfl, rfl, rfl⟩

theorem handled_handleResponse (session : Session) (response : Response) :
    Handled session (session.handleResponse response) := by
  rw [handleResponse]
  split
  · rename_i taken
    exact ((handled_pump _).of_same (sameWaiting_take? taken)).andThen (by simp [not_closed_tell])
  · exact .goesOn (.refl session) (by simp)

theorem handled_handleItem (session : Session) (item : Frame.Item) :
    Handled session (session.handleItem item) := by
  cases item with
  | fault error => exact .goesOn (.refl session) (by simp)
  | packet packet =>
      cases packet with
      | init _ | stream _ | notify _ => exact .goesOn (.refl session) (by simp)
      | response response => exact handled_handleResponse session response

theorem handled_handleMessage (session : Session) (message : Message) :
    Handled session (session.handleMessage message) := by
  cases message with
  | send lane queued =>
      cases lane with
      | turn =>
          have same : SameWaiting session { session with queue := session.queue ++ [queued] } :=
            ⟨rfl, rfl, rfl, rfl, rfl, rfl, rfl, rfl⟩
          exact (handled_pump _).of_same same
      | urgent => exact handled_write session .urgent queued
  | close call =>
      have late : ∀ effect ∈ [Effect.returned call], effect.isLate = true := by
        simp [Effect.isLate]
      have handled : Handled session
          (session.teardown.1, [] ++ session.teardown.2 ++ [.returned call]) :=
        .ends (.refl session) List.not_mem_nil late
      exact handled
  | released => exact session.handled_teardown

theorem handled_handleIncoming (session : Session) (incoming : Incoming) :
    Handled session (session.handleIncoming incoming) := by
  cases incoming with
  | item item => exact handled_handleItem session item
  | ended => exact session.handled_teardown

theorem attend_of_cons {message : Message} {rest : List Message} (isOpen : session.isOpen = true)
    (mailbox : session.mailbox = message :: rest) :
    session.attend = { session with mailbox := rest }.handleMessage message := by
  rw [attend, isOpen, mailbox]

theorem listen_of_cons {incoming : Incoming} {rest : List Incoming}
    (isOpen : session.isOpen = true) (waits : session.incoming = incoming :: rest) :
    session.listen = { session with incoming := rest }.handleIncoming incoming := by
  rw [listen, isOpen, waits]

/-- A session that goes on takes up the first message, if there is one. -/
theorem attend_cases (session : Session) :
    (session.attend = (session, []) ∧ (session.isOpen = true → session.mailbox = [])) ∨
      ∃ message rest, session.isOpen = true ∧ session.mailbox = message :: rest ∧
        session.attend = { session with mailbox := rest }.handleMessage message := by
  rw [attend]
  split
  · rename_i message rest isOpen mailbox
    exact Or.inr ⟨message, rest, isOpen, mailbox, rfl⟩
  · rename_i none
    refine Or.inl ⟨rfl, fun isOpen => ?_⟩
    cases mailbox : session.mailbox with
    | nil => rfl
    | cons message rest => exact absurd mailbox (none message rest isOpen)

/-- A session that goes on takes up what has come first from the engine, if anything has. -/
theorem listen_cases (session : Session) :
    (session.listen = (session, []) ∧ (session.isOpen = true → session.incoming = [])) ∨
      ∃ incoming rest, session.isOpen = true ∧ session.incoming = incoming :: rest ∧
        session.listen = { session with incoming := rest }.handleIncoming incoming := by
  rw [listen]
  split
  · rename_i incoming rest isOpen waits
    exact Or.inr ⟨incoming, rest, isOpen, waits, rfl⟩
  · rename_i none
    refine Or.inl ⟨rfl, fun isOpen => ?_⟩
    cases waits : session.incoming with
    | nil => rfl
    | cons incoming rest => exact absurd waits (none incoming rest isOpen)

/-! ## What waits -/

/-- What is always true of a session, whatever its callers and the engine do. -/
structure Orderly (session : Session) : Prop where
  /-- Nothing waits in a session that has ended, and nothing more comes. -/
  tidy : session.isOpen = false →
    session.mailbox = [] ∧ session.incoming = [] ∧ session.readable = false
  /-- Once bytes are no longer read, the end of the connection waits. -/
  listening : session.isOpen = true → session.readable = false → .ended ∈ session.incoming
  /-- Who has given up has made a call. -/
  numbered : ∀ call ∈ session.givenUp, call < session.nextCall

theorem orderly_teardown (orderly : Orderly session) : Orderly session.teardown.1 where
  tidy := fun _ => ⟨rfl, rfl, rfl⟩
  listening := fun isOpen => absurd isOpen Bool.false_ne_true
  numbered := orderly.numbered

theorem SameWaiting.orderly (same : SameWaiting session after) (orderly : Orderly session) :
    Orderly after := by
  refine ⟨?_, ?_, ?_⟩
  · rw [same.isOpen, same.mailbox, same.incoming, same.readable]
    exact orderly.tidy
  · rw [same.isOpen, same.incoming, same.readable]
    exact orderly.listening
  · rw [same.givenUp, same.nextCall]
    exact orderly.numbered

theorem Handled.orderly {next : Session × List Effect} (handled : Handled session next)
    (orderly : Orderly session) : Orderly next.1 := by
  cases handled with
  | goesOn same _ => exact same.orderly orderly
  | ends same _ _ => exact orderly_teardown (same.orderly orderly)

theorem orderly_initial : Orderly initial where
  tidy := fun ended => absurd ended.symm Bool.false_ne_true
  listening := fun _ unread => absurd unread.symm Bool.false_ne_true
  numbered := by simp [initial]

/-! ## Writes that fail -/

/-- Whether a command is written. -/
def Writes (effects : List Effect) : Prop :=
  ∃ lane call id command, .write lane call id command ∈ effects

/-- The same session on a connection that can be written to. -/
def unjammed (session : Session) : Session := { session with writable := true }

/-- The session cannot write at an input at which it would write if it could. -/
def FailsToWrite (session : Session) (input : Input) : Prop :=
  session.writable = false ∧ Writes (session.unjammed.step input).2

theorem not_writes_of_isNotice {effects : List Effect}
    (notices : ∀ effect ∈ effects, effect.isNotice = true) : ¬ Writes effects := by
  rintro ⟨lane, call, id, command, member⟩
  exact not_mem_of_isNotice notices rfl member

theorem writes_append {effects more : List Effect} :
    Writes (effects ++ more) ↔ Writes effects ∨ Writes more := by
  simp only [Writes, List.mem_append, exists_or]

theorem writes_write (isWritable : session.writable = true) (lane : Lane) (queued : Queued) :
    Writes (session.write lane queued).2 := by
  rw [write, if_pos isWritable]
  exact ⟨lane, queued.call, session.nextId, queued.command, List.mem_cons_self⟩

theorem ended_write_iff (isOpen : session.isOpen = true) (lane : Lane) (queued : Queued) :
    (session.write lane queued).1.isOpen = false ↔ session.writable = false := by
  rw [write]
  split
  · rename_i isWritable
    rw [andThen, (sameWaiting_keep _ lane _).isOpen]
    simp [isOpen, isWritable]
  · rename_i jammed
    exact iff_of_true rfl (Bool.eq_false_iff.2 jammed)

theorem ended_pump_iff (isOpen : session.isOpen = true) :
    session.pump.1.isOpen = false ↔
      session.writable = false ∧ Writes session.unjammed.pump.2 := by
  have silent : ¬ Writes [] := not_writes_of_isNotice (by simp)
  simp only [pump, unjammed, hasGivenUp]
  cases session.inFlight with
  | some pending => simp [isOpen, silent]
  | none =>
      cases session.queue.dropWhile fun queued : Queued => session.givenUp.contains queued.call with
      | nil => simp [isOpen, silent]
      | cons queued rest =>
          refine (ended_write_iff ?_ .turn queued).trans (and_iff_left (writes_write ?_ _ _)).symm
          · exact isOpen
          · rfl

theorem take?_unjammed (session : Session) (id : Nat) :
    session.unjammed.take? id =
      (session.take? id).map fun taken => (taken.1, taken.2.unjammed) := by
  simp only [take?, unjammed]
  cases session.inFlight.filter fun pending : Pending => pending.id == id with
  | some pending => rfl
  | none =>
      rw [Option.map_map]
      rfl

theorem ended_handleResponse_iff (isOpen : session.isOpen = true) (response : Response) :
    (session.handleResponse response).1.isOpen = false ↔
      session.writable = false ∧ Writes (session.unjammed.handleResponse response).2 := by
  rw [handleResponse, handleResponse, take?_unjammed]
  cases taken : session.take? response.id with
  | none =>
      have silent : ¬ Writes [.event (.fault (.unmatchedTransaction response.id))] :=
        not_writes_of_isNotice (by simp [Effect.isNotice])
      simp [isOpen, silent]
  | some entry =>
      obtain ⟨pending, after⟩ := entry
      have same := sameWaiting_take? taken
      have quiet : ¬ Writes
          (.answered pending.call response :: after.tell (outcome response) pending.call) := by
        rintro ⟨lane, call, id, command, member⟩
        rcases List.mem_cons.1 member with other | told
        · cases other
        · exact not_mem_of_isNotice isNotice_tell rfl told
      have pumped := ended_pump_iff (same.isOpen.trans isOpen)
      rw [same.writable] at pumped
      refine pumped.trans (and_congr_right fun _ => ?_)
      rw [Option.map_some]
      exact (writes_append.trans (or_iff_right quiet)).symm

theorem ended_handleItem_iff (isOpen : session.isOpen = true) (item : Frame.Item) :
    (session.handleItem item).1.isOpen = false ↔
      session.writable = false ∧ Writes (session.unjammed.handleItem item).2 := by
  have silent : ∀ event, ¬ Writes [.event event] := fun event =>
    not_writes_of_isNotice (by simp [Effect.isNotice])
  cases item with
  | fault error => simp [handleItem, isOpen, silent]
  | packet packet =>
      cases packet with
      | init _ | stream _ | notify _ => simp [handleItem, isOpen, silent]
      | response response => exact ended_handleResponse_iff isOpen response

/-- A command that is taken up ends the session if it would be written and cannot be. -/
theorem ended_send_iff (isOpen : session.isOpen = true) (lane : Lane) (queued : Queued) :
    (session.handleMessage (.send lane queued)).1.isOpen = false ↔
      session.writable = false ∧ Writes (session.unjammed.handleMessage (.send lane queued)).2 := by
  cases lane with
  | turn =>
      refine ended_pump_iff ?_
      exact isOpen
  | urgent =>
      exact (ended_write_iff isOpen .urgent queued).trans
        (and_iff_left (writes_write rfl .urgent queued)).symm

end Session
end DebugBridge
