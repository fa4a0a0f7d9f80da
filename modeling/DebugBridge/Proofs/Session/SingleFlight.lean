import DebugBridge.Proofs.Session.Move

/-!
# One command at a time

Commands that wait for their turn share one slot.  The log of a run, read from its beginning, tells
who has the slot: a command takes it when it is written and leaves it with its answer.  The main
statement says that no run writes to a slot that is taken, that commands are written in the order in
which they were submitted, that giving up takes a command out of the queue but never out of the
slot, and that no command waits while the slot is free.
-/

namespace DebugBridge
namespace Session

variable {session after : Session}

/-- The slot after an effect.  There is none if a command is written while the slot is taken. -/
def slotAfter? (slot : Option Pending) : Effect → Option (Option Pending)
  | .write .turn call id _ => if slot = none then some (some ⟨id, call⟩) else none
  | .answered call response => some (if slot = some ⟨response.id, call⟩ then none else slot)
  | _ => some slot

theorem foldlM_slotAfter?_of_isNotice {slot : Option Pending} {effects : List Effect}
    (notices : ∀ effect ∈ effects, effect.isNotice = true) :
    effects.foldlM slotAfter? slot = some slot := by
  induction effects with
  | nil => rfl
  | cons effect effects ih =>
      have notice := notices effect List.mem_cons_self
      have same : slotAfter? slot effect = some slot := by
        cases effect with
        | write | answered => cases notice
        | reply | returned | event => rfl
      rw [List.foldlM_cons, same]
      exact ih fun other member => notices other (List.mem_cons_of_mem effect member)

/-- Whoever has the slot keeps it until the answer. -/
theorem slot_kept_or_answered {pending : Pending} {slot : Option Pending} {log : List Effect}
    (paced : log.foldlM slotAfter? (some pending) = some slot) :
    slot = some pending ∨
      ∃ response, response.id = pending.id ∧ .answered pending.call response ∈ log := by
  induction log with
  | nil =>
      simp only [List.foldlM_nil, Option.pure_def, Option.some.injEq] at paced
      exact Or.inl paced.symm
  | cons effect log ih =>
      rw [List.foldlM_cons] at paced
      by_cases same : slotAfter? (some pending) effect = some (some pending)
      · rw [same] at paced
        obtain kept | ⟨response, id, member⟩ := ih paced
        · exact Or.inl kept
        · exact Or.inr ⟨response, id, List.mem_cons_of_mem effect member⟩
      · cases effect with
        | write lane =>
            cases lane with
            | turn => simp [slotAfter?] at paced
            | urgent => exact absurd rfl same
        | reply | returned | event => exact absurd rfl same
        | answered call response =>
            by_cases own : some pending = some ⟨response.id, call⟩
            · obtain rfl := Option.some.inj own
              exact Or.inr ⟨response, rfl, List.mem_cons_self⟩
            · exact absurd (congrArg some (if_neg own)) same

/-- The log never writes to a slot that is taken, and tells what is in flight. -/
def Paced (session : Session) (log : List Effect) : Prop :=
  ∃ slot, log.foldlM slotAfter? none = some slot ∧ (session.isOpen = true → session.inFlight = slot)

theorem Paced.append {log effects : List Effect} (paced : Paced session log)
    (next : ∀ slot, (session.isOpen = true → session.inFlight = slot) →
      ∃ slot', effects.foldlM slotAfter? slot = some slot' ∧
        (after.isOpen = true → after.inFlight = slot')) :
    Paced after (log ++ effects) := by
  obtain ⟨slot, eq, current⟩ := paced
  obtain ⟨slot', eq', current'⟩ := next slot current
  refine ⟨slot', ?_, current'⟩
  rw [List.foldlM_append, eq]
  exact eq'

theorem Paced.append_notices {log effects : List Effect} (paced : Paced session log)
    (notices : ∀ effect ∈ effects, effect.isNotice = true)
    (isOpen : after.isOpen = true → session.isOpen = true)
    (inFlight : after.isOpen = true → after.inFlight = session.inFlight) :
    Paced after (log ++ effects) :=
  paced.append fun slot current =>
    ⟨slot, foldlM_slotAfter?_of_isNotice notices,
      fun going => (inFlight going).trans (current (isOpen going))⟩

theorem Paced.move {messages : List Message} {log effects : List Effect} (paced : Paced session log)
    (move : Move session messages effects after) : Paced after (log ++ effects) := by
  cases move with
  | outside same =>
      exact paced.append_notices (by simp) (fun isOpen => same.isOpen ▸ isOpen)
        fun _ => same.inFlight
  | report | letReturn => exact paced.append_notices (by simp [Effect.isNotice]) id fun _ => rfl
  | post | enqueue | skip | takeUp => exact paced.append_notices (by simp) id fun _ => rfl
  | refuse => exact paced.append_notices isNotice_turnAway id fun _ => rfl
  | loseTurn | loseUrgent => exact paced.append_notices isNotice_tell id fun _ => rfl
  | teardown =>
      exact paced.append_notices isNotice_teardown
        (fun isOpen => absurd isOpen Bool.false_ne_true)
        fun isOpen => absurd isOpen Bool.false_ne_true
  | writeTurn isOpen free queue waiting =>
      refine paced.append fun slot current => ⟨_, ?_, fun _ => rfl⟩
      obtain rfl : none = slot := free.symm.trans (current isOpen)
      rfl
  | writeUrgent isOpen mailbox =>
      refine paced.append fun slot current => ⟨slot, ?_, current⟩
      rw [List.foldlM_cons]
      exact foldlM_slotAfter?_of_isNotice isNotice_addInterrupt
  | @answerTurn pending response inFlight same =>
      refine paced.append fun slot current => ?_
      rw [List.foldlM_cons]
      refine ⟨_, foldlM_slotAfter?_of_isNotice isNotice_tell, fun isOpen => ?_⟩
      obtain rfl := inFlight.symm.trans (current isOpen)
      exact (if_pos (by rw [← same])).symm
  | @answerUrgent pending response other interrupt same =>
      refine paced.append fun slot current => ?_
      rw [List.foldlM_cons]
      refine ⟨_, foldlM_slotAfter?_of_isNotice isNotice_tell, fun isOpen => ?_⟩
      obtain rfl := current isOpen
      refine (if_neg fun own => ?_).symm
      exact other _ own rfl

theorem paced_run (inputs : List Input) :
    Paced (initial.run inputs).1 (initial.run inputs).2 :=
  run_invariant (motive := fun session _ log => Paced session log) ⟨none, rfl, fun _ => rfl⟩
    Paced.move inputs

/-! ## The order of commands -/

/-- Commands that wait for a lane, in the queue of that lane and behind it in the mailbox. -/
def waiting (session : Session) (lane : Lane) : List Queued :=
  (match lane with
    | .turn => session.queue
    | .urgent => []) ++
  session.mailbox.filterMap (Message.queued? lane)

/-- A move writes the command that waits in front or none, and lets no command overtake another. -/
theorem sublist_of_move {messages : List Message} {effects : List Effect}
    (move : Move session messages effects after) (lane : Lane) :
    (effects.filterMap (Effect.written? lane) ++ after.waiting lane).Sublist
      (session.waiting lane ++ messages.filterMap (Message.queued? lane)) := by
  cases move with
  | outside same => simp [waiting, same.queue, same.mailbox]
  | report | letReturn => simp [Effect.written?, List.filterMap_cons]
  | post message isOpen => simp [waiting]
  | refuse message ended =>
      rw [filterMap_written?_of_isNotice isNotice_turnAway]
      exact List.sublist_append_left _ _
  | enqueue mailbox => cases lane <;> simp [waiting, mailbox, Message.queued?]
  | skip queue givenUp => cases lane <;> simp [waiting, queue]
  | writeTurn isOpen free queue waits => cases lane <;> simp [waiting, queue, Effect.written?]
  | writeUrgent isOpen mailbox =>
      rw [← List.singleton_append, List.filterMap_append,
        filterMap_written?_of_isNotice isNotice_addInterrupt, List.append_nil]
      cases lane <;> simp [waiting, mailbox, Message.queued?, Effect.written?, addInterrupt]
  | answerTurn inFlight same =>
      rw [List.filterMap_cons_none rfl, filterMap_written?_of_isNotice isNotice_tell]
      simp [waiting]
  | answerUrgent other interrupt same =>
      rw [List.filterMap_cons_none rfl, filterMap_written?_of_isNotice isNotice_tell]
      simp [waiting]
  | takeUp mailbox plain => simp [waiting, mailbox, plain]
  | loseTurn queue =>
      rw [filterMap_written?_of_isNotice isNotice_tellClosed]
      cases lane <;> simp [waiting, queue]
  | loseUrgent mailbox =>
      rw [filterMap_written?_of_isNotice isNotice_tellClosed]
      cases lane <;> simp [waiting, mailbox, Message.queued?]
  | teardown =>
      rw [filterMap_written?_of_isNotice isNotice_teardown]
      cases lane <;> simp [waiting, teardown]

/-- Commands of a lane are written in the order in which they were asked for, each at most once. -/
theorem sublist_run (inputs : List Input) (lane : Lane) :
    ((initial.run inputs).2.filterMap (Effect.written? lane)).Sublist
      ((asked 1 inputs).filterMap (Message.queued? lane)) := by
  -- The commands that still wait come after those that were written.
  have kept := run_invariant
    (motive := fun session messages log =>
      (log.filterMap (Effect.written? lane) ++ session.waiting lane).Sublist
        (messages.filterMap (Message.queued? lane)))
    (by cases lane <;> simp [waiting, initial])
    (by
      intro session after messages more log effects inOrder move
      have first := (sublist_of_move move lane).append_left (log.filterMap (Effect.written? lane))
      have second := inOrder.append_right (more.filterMap (Message.queued? lane))
      rw [List.append_assoc] at second
      simpa only [List.filterMap_append, List.append_assoc] using first.trans second)
    inputs
  exact (List.sublist_append_left _ _).trans kept

/-! ## Callers that give up -/

/-- What a move writes in its turn is a command whose caller waits. -/
theorem not_givenUp_of_move {messages : List Message} {effects : List Effect}
    (move : Move session messages effects after) {call id : Nat} {command : Command}
    (written : .write .turn call id command ∈ effects) : call ∉ session.givenUp := by
  cases move with
  | outside | report | letReturn | post | enqueue | skip | takeUp => simp at written
  | refuse => exact absurd written (not_mem_of_isNotice isNotice_turnAway rfl)
  | loseTurn | loseUrgent => exact absurd written (not_mem_of_isNotice isNotice_tellClosed rfl)
  | teardown => exact absurd written (not_mem_of_isNotice isNotice_teardown rfl)
  | writeTurn isOpen free queue waits =>
      obtain ⟨-, rfl, -, -⟩ := Effect.write.inj (List.mem_singleton.1 written)
      exact waits
  | writeUrgent isOpen mailbox =>
      rcases List.mem_cons.1 written with other | told
      · cases other
      · exact absurd told (not_mem_of_isNotice isNotice_addInterrupt rfl)
  | answerTurn | answerUrgent =>
      rcases List.mem_cons.1 written with other | told
      · cases other
      · exact absurd told (not_mem_of_isNotice isNotice_tell rfl)

/-- A command whose caller has given up is not written in its turn any more. -/
theorem not_written_of_givenUp {messages : List Message} {log : List Effect}
    (moves : Moves session messages log after) {call : Nat} (givenUp : call ∈ session.givenUp)
    (id : Nat) (command : Command) : .write .turn call id command ∉ log := by
  induction moves with
  | refl => exact List.not_mem_nil
  | tail moves move ih =>
      intro written
      rcases List.mem_append.1 written with earlier | now
      · exact ih earlier
      · exact not_givenUp_of_move move now (givenUp_of_moves moves givenUp)

/-! ## The free slot -/

/-- Nothing waits in the queue while the slot is free. -/
def Drained (session : Session) : Prop :=
  session.isOpen = true → session.inFlight = none → session.queue = []

theorem drained_teardown : Drained session.teardown.1 :=
  fun isOpen => absurd isOpen Bool.false_ne_true

theorem drained_write_turn {queued : Queued} : Drained (session.write .turn queued).1 := by
  rw [write]
  split
  · intro _ free
    cases free
  · exact drained_teardown

theorem drained_write_urgent {queued : Queued} (drained : Drained session) :
    Drained (session.write .urgent queued).1 := by
  rw [write]
  split
  · exact drained
  · exact drained_teardown

/-- After pumping nothing waits in vain, whatever was there before. -/
theorem drained_pump : Drained session.pump.1 := by
  rw [pump]
  split
  · rename_i taken
    intro _ free
    cases taken.symm.trans free
  · split
    · exact fun _ _ => rfl
    · exact drained_write_turn

theorem drained_handleResponse {response : Response} (drained : Drained session) :
    Drained (session.handleResponse response).1 := by
  rw [handleResponse]
  split
  · exact drained_pump
  · exact drained

theorem drained_attend (drained : Drained session) : Drained session.attend.1 := by
  rw [attend]
  split
  · rename_i message rest _ _
    cases message with
    | send lane queued =>
        cases lane with
        | turn => exact drained_pump
        | urgent => exact drained_write_urgent drained
    | close | released => exact drained_teardown
  · exact drained

theorem drained_listen (drained : Drained session) : Drained session.listen.1 := by
  rw [listen]
  split
  · rename_i incoming rest _ _
    cases incoming with
    | item item =>
        obtain ⟨response, rfl⟩ | ⟨event, eq⟩ :=
          handleItem_cases { session with incoming := rest } item
        · exact drained_handleResponse drained
        · rw [handleIncoming, eq]
          exact drained
    | ended => exact drained_teardown
  · exact drained

theorem SameCommands.drained (same : SameCommands session after) (drained : Drained session) :
    Drained after := by
  unfold Drained
  rw [same.isOpen, same.inFlight, same.queue]
  exact drained

theorem drained_post {message : Message} (drained : Drained session) :
    Drained (session.post message).1 := by
  rw [post]
  split <;> exact drained

theorem drained_step (drained : Drained session) (input : Input) :
    Drained (session.step input).1 := by
  cases input with
  | submit _ | interrupt _ | close | released => exact drained_post drained
  | abandon call => exact (session.sameCommands_abandon call).drained drained
  | received bytes => exact (session.sameCommands_receive bytes).drained drained
  | disconnected => exact session.sameCommands_endOfBytes.drained drained
  | jammed => exact drained
  | attend => exact drained_attend drained
  | listen => exact drained_listen drained

theorem drained_run (drained : Drained session) (inputs : List Input) :
    Drained (session.run inputs).1 := by
  induction inputs generalizing session with
  | nil => exact drained
  | cons input rest ih => exact ih (drained_step drained input)

/-! ## The statement -/

/-- The slot after a command was written in its turn and some more effects have happened. -/
theorem slot_after_write {session : Session} {before rest : List Effect} {call id : Nat}
    {command : Command} (paced : Paced session (before ++ .write .turn call id command :: rest)) :
    ∃ slot, rest.foldlM slotAfter? (some ⟨id, call⟩) = some slot ∧
      (session.isOpen = true → session.inFlight = slot) := by
  obtain ⟨slot, eq, current⟩ := paced
  rw [List.foldlM_append] at eq
  obtain ⟨free, -, eq⟩ := Option.bind_eq_some_iff.1 eq
  rw [List.foldlM_cons] at eq
  obtain ⟨taken, written, eq⟩ := Option.bind_eq_some_iff.1 eq
  rw [slotAfter?] at written
  split at written
  · obtain rfl := Option.some.inj written
    exact ⟨slot, eq, current⟩
  · cases written

/-- What a session promises about the commands that wait for their turn, for a run of inputs. -/
structure SingleFlight (inputs : List Input) : Prop where
  /-- Between two commands that are written in their turn, the answer to the first is handled. -/
  answered : ∀ {before between rest : List Effect} {call call' id id' : Nat}
    {command command' : Command},
    (initial.run inputs).2 = before ++ .write .turn call id command ::
      (between ++ .write .turn call' id' command' :: rest) →
    ∃ response, response.id = id ∧ .answered call response ∈ between
  /-- The commands are written in the order in which they were submitted. -/
  inOrder : ((initial.run inputs).2.filterMap (Effect.written? .turn)).Sublist
    ((asked 1 inputs).filterMap (Message.queued? .turn))
  /-- A command is never written whose caller stops waiting before it was written. -/
  abandoned : ∀ {earlier later : List Input} {call : Nat},
    inputs = earlier ++ .abandon call :: later → call < (initial.run earlier).1.nextCall →
    (∀ id command, .write .turn call id command ∉ (initial.run earlier).2) →
    ∀ id command, .write .turn call id command ∉ (initial.run inputs).2
  /-- A command that was written is answered or still in flight, whoever waits for it, unless the
  session has ended. -/
  kept : ∀ {before rest : List Effect} {call id : Nat} {command : Command},
    (initial.run inputs).2 = before ++ .write .turn call id command :: rest →
    (initial.run inputs).1.isOpen = true →
    (initial.run inputs).1.inFlight = some ⟨id, call⟩ ∨
      ∃ response, response.id = id ∧ .answered call response ∈ rest
  /-- No command waits while none is in flight. -/
  drained : (initial.run inputs).1.isOpen = true → (initial.run inputs).1.inFlight = none →
    (initial.run inputs).1.queue = []

/-- Whatever callers and the engine do, in whatever order, commands are written one at a time. -/
theorem singleFlight (inputs : List Input) : SingleFlight inputs where
  answered := by
    intro before between rest call call' id id' command command' log
    have paced := paced_run inputs
    rw [log] at paced
    obtain ⟨slot, eq, -⟩ := slot_after_write paced
    rw [List.foldlM_append] at eq
    obtain ⟨free, between, eq⟩ := Option.bind_eq_some_iff.1 eq
    obtain rfl | answered := slot_kept_or_answered between
    · simp [slotAfter?] at eq
    · exact answered
  inOrder := sublist_run inputs .turn
  abandoned := by
    intro earlier later call inputs made unwritten id command written
    rw [inputs, run_append] at written
    rcases List.mem_append.1 written with before | after
    · exact unwritten id command before
    · have givenUp : call ∈ ((initial.run earlier).1.abandon call).givenUp :=
        mem_givenUp_abandon made
      exact not_written_of_givenUp (run_moves _ later) givenUp id command after
  kept := by
    intro before rest call id command log isOpen
    have paced := paced_run inputs
    rw [log] at paced
    obtain ⟨slot, eq, current⟩ := slot_after_write paced
    obtain rfl | answered := slot_kept_or_answered eq
    · exact Or.inl (current isOpen)
    · exact Or.inr answered
  drained := drained_run (fun _ _ => rfl) inputs

/-- The second command waits, also when the caller of the first one has given up. -/
example (first second : Command) :
    (initial.run [.submit first, .submit second, .attend, .abandon 1, .attend]).2 =
      [.write .turn 1 1 first] := rfl

end Session
end DebugBridge
