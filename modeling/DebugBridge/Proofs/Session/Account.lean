import DebugBridge.Proofs.Session.Move
import Mathlib.Data.List.Nodup

/-!
# One result for every command

A session owes a result to every call whose command it has: in flight, among the interrupts, in the
queue or still in the mailbox.  A move neither loses a debt nor pays one twice, so what was paid and
what is owed add up to the commands that were asked for.  A session that has ended owes nothing.
-/

namespace DebugBridge

/-- The call that a message is from, if it asks for a command to be written. -/
def Message.caller? : Message → Option Nat
  | .send _ queued => some queued.call
  | .close _ | .released => none

/-- The call that an effect gives its result. -/
def Effect.told? : Effect → Option Nat
  | .reply call _ => some call
  | _ => none

/-- How often effects give a call its result. -/
def results (call : Nat) (effects : List Effect) : Nat :=
  (effects.filterMap Effect.told?).count call

/-- How often messages ask for a command of a call. -/
def requests (call : Nat) (messages : List Message) : Nat :=
  (messages.filterMap Message.caller?).count call

/-- What is found in the first entry counts, and so does what is found in the others. -/
theorem count_filterMap_cons {α : Type} (find : α → Option Nat) (entry : α) (entries : List α)
    (call : Nat) :
    ((entry :: entries).filterMap find).count call =
      (find entry).toList.count call + (entries.filterMap find).count call := by
  rw [← List.count_append]
  cases found : find entry with
  | none => rw [List.filterMap_cons_none found, Option.toList_none, List.nil_append]
  | some caller => rw [List.filterMap_cons_some found, Option.toList_some, List.singleton_append]

@[simp] theorem results_nil (call : Nat) : results call [] = 0 := rfl

@[simp] theorem results_append (call : Nat) (effects more : List Effect) :
    results call (effects ++ more) = results call effects + results call more := by
  simp [results]

theorem results_cons (call : Nat) (effect : Effect) (effects : List Effect) :
    results call (effect :: effects) = effect.told?.toList.count call + results call effects :=
  count_filterMap_cons Effect.told? effect effects call

@[simp] theorem requests_nil (call : Nat) : requests call [] = 0 := rfl

theorem requests_cons (call : Nat) (message : Message) (messages : List Message) :
    requests call (message :: messages) =
      message.caller?.toList.count call + requests call messages :=
  count_filterMap_cons Message.caller? message messages call

@[simp] theorem requests_append (call : Nat) (messages more : List Message) :
    requests call (messages ++ more) = requests call messages + requests call more := by
  simp [requests]

/-- The callers of messages come in the order of their calls. -/
theorem pairwise_asked (call : Nat) (inputs : List Input) :
    (∀ caller ∈ (asked call inputs).filterMap Message.caller?, call ≤ caller) ∧
      ((asked call inputs).filterMap Message.caller?).Pairwise (· < ·) := by
  induction inputs generalizing call with
  | nil => simp [asked]
  | cons input rest ih =>
      cases input with
      | submit command | interrupt command =>
          have later := (ih (call + 1)).1
          refine ⟨?_, List.pairwise_cons.2 ⟨later, (ih (call + 1)).2⟩⟩
          intro caller member
          rcases List.mem_cons.1 member with rfl | member
          · exact Nat.le_refl caller
          · exact Nat.le_of_succ_le (later caller member)
      | close =>
          exact ⟨fun caller member => Nat.le_of_succ_le ((ih (call + 1)).1 caller member),
            (ih (call + 1)).2⟩
      | released | abandon | received | disconnected | jammed | attend | listen => exact ih call

/-- A call asks for one command at most. -/
theorem requests_asked_le_one (caller call : Nat) (inputs : List Input) :
    requests caller (asked call inputs) ≤ 1 := by
  have nodup := (pairwise_asked call inputs).2.imp Nat.ne_of_lt
  exact List.nodup_iff_count_le_one.1 nodup caller

namespace Session

variable {session after : Session}

/-- The commands that were written and not yet answered. -/
def pending (session : Session) : List Pending := session.inFlight.toList ++ session.interrupts

/-- The calls whose commands were not written yet. -/
def unwritten (session : Session) : List Nat :=
  session.queue.map Queued.call ++ session.mailbox.filterMap Message.caller?

/-- The calls that the session owes a result. -/
def owed (session : Session) : List Nat := session.pending.map Pending.call ++ session.unwritten

theorem results_tell {result : Except SessionError Response} {call : Nat}
    (waits : call ∉ session.givenUp) (caller : Nat) :
    results call (session.tell result caller) = [caller].count call := by
  rw [tell]
  split
  · rename_i givenUp
    have other : caller ≠ call := fun same => waits (same ▸ hasGivenUp_iff.1 givenUp)
    simp [other]
  · rfl

theorem results_tellClosed {call : Nat} (waits : call ∉ session.givenUp) (caller : Nat) :
    results call (session.tellClosed caller) = [caller].count call :=
  results_tell waits caller

theorem results_turnAway {call : Nat} (waits : call ∉ session.givenUp) (message : Message) :
    results call (session.turnAway message) = message.caller?.toList.count call := by
  cases message with
  | send lane queued => exact results_tellClosed waits queued.call
  | close caller | released => rfl

/-- Whoever tells everyone in a list gives each a result. -/
theorem results_flatMap {α : Type} {call : Nat} {tellOne : α → List Effect}
    (caller? : α → Option Nat)
    (one : ∀ entry, results call (tellOne entry) = (caller? entry).toList.count call)
    (entries : List α) :
    results call (entries.flatMap tellOne) = (entries.filterMap caller?).count call := by
  induction entries with
  | nil => rfl
  | cons entry entries ih =>
      rw [List.flatMap_cons, results_append, one, ih, count_filterMap_cons]

/-- The end of a session pays every debt. -/
theorem results_teardown {call : Nat} (waits : call ∉ session.givenUp) :
    results call session.teardown.2 = session.owed.count call := by
  have written := results_flatMap (fun entry : Pending => some entry.call)
    (fun entry => results_tellClosed waits entry.call) session.pending
  have queue := results_flatMap (fun entry : Queued => some entry.call)
    (fun entry => results_tellClosed waits entry.call) session.queue
  have mailbox := results_flatMap Message.caller? (results_turnAway waits) session.mailbox
  rw [List.filterMap_eq_map'] at written queue
  have event : results call [.event .closed] = 0 := rfl
  rw [pending] at written
  simp only [teardown, results_append, written, queue, mailbox, event]
  simp only [owed, unwritten, pending, List.count_append]
  omega

/-! ## Debts -/

/-- The interrupts that are not answered yet have different transaction ids. -/
def Keyed (session : Session) : Prop := (session.interrupts.map Pending.id).Nodup

theorem keyed_addInterrupt (keyed : Keyed session) (pending : Pending) :
    Keyed (session.addInterrupt pending).1 := by
  simp only [Keyed, addInterrupt, List.map_append, List.map_cons, List.map_nil]
  refine List.nodup_append.2 ⟨keyed.sublist (List.filter_sublist.map _), by simp, ?_⟩
  intro id member other same
  obtain ⟨interrupt, kept, rfl⟩ := List.mem_map.1 member
  rw [List.mem_singleton.1 same]
  simpa using (List.mem_filter.1 kept).2

theorem Keyed.move {messages : List Message} {effects : List Effect} (keyed : Keyed session)
    (move : Move session messages effects after) : Keyed after := by
  cases move with
  | outside same => rwa [Keyed, same.interrupts]
  | writeUrgent isOpen mailbox => exact keyed_addInterrupt keyed _
  | answerUrgent other interrupt same => exact keyed.sublist (List.filter_sublist.map _)
  | teardown => exact List.nodup_nil
  | _ => exact keyed

/-- The answer to an interrupt takes that interrupt out of the table and no other. -/
theorem count_interrupts (keyed : Keyed session) {pending : Pending}
    (interrupt : pending ∈ session.interrupts) (call : Nat) :
    ((session.interrupts.filter fun other => other.id != pending.id).map Pending.call).count call +
        [pending.call].count call =
      (session.interrupts.map Pending.call).count call := by
  obtain ⟨front, back, eq⟩ := List.append_of_mem interrupt
  rw [Keyed, eq, List.map_append, List.map_cons, List.nodup_middle, ← List.map_append] at keyed
  have others : (front ++ back).filter (fun other => other.id != pending.id) = front ++ back := by
    rw [List.filter_eq_self]
    intro other member
    have different := (List.nodup_cons.1 keyed).1
    simp only [bne_iff_ne, ne_eq]
    exact fun same => different (List.mem_map.2 ⟨other, member, same⟩)
  rw [List.filter_append] at others
  rw [eq, List.filter_append, List.filter_cons_of_neg (by simp), others]
  simp only [List.map_append, List.map_cons, List.count_append, List.count_cons, List.count_nil]
  omega

/-- What an interrupt with the same id loses when another one enters the table is paid at once. -/
theorem results_addInterrupt {call : Nat} (waits : call ∉ session.givenUp) (pending : Pending) :
    results call (session.addInterrupt pending).2 +
        ((session.addInterrupt pending).1.interrupts.map Pending.call).count call =
      (session.interrupts.map Pending.call).count call + [pending.call].count call := by
  have paid := results_flatMap (fun other : Pending => some other.call)
    (fun other => results_tellClosed waits other.call)
    (session.interrupts.filter fun other => other.id == pending.id)
  have split : (session.interrupts.filter (fun other => other.id == pending.id) ++
      session.interrupts.filter fun other => other.id != pending.id).Perm session.interrupts :=
    List.filter_append_perm _ _
  have counted := (split.map Pending.call).count_eq call
  rw [List.filterMap_eq_map'] at paid
  simp only [List.map_append, List.count_append] at counted
  simp only [addInterrupt, paid, List.map_append, List.count_append, List.map_cons, List.map_nil]
  omega

theorem count_owed (session : Session) (call : Nat) :
    session.owed.count call =
      (session.inFlight.toList.map Pending.call).count call +
        (session.interrupts.map Pending.call).count call +
        (session.queue.map Queued.call).count call + requests call session.mailbox := by
  simp only [owed, pending, unwritten, List.map_append, List.count_append, requests]
  omega

/-- A move neither loses a debt nor pays one twice. -/
theorem results_of_move {messages : List Message} {effects : List Effect} (keyed : Keyed session)
    (move : Move session messages effects after) {call : Nat} (waits : call ∉ session.givenUp) :
    results call effects + after.owed.count call =
      session.owed.count call + requests call messages := by
  cases move with
  | outside same =>
      simp [count_owed, same.inFlight, same.queue, same.interrupts, same.mailbox]
  | report | letReturn => simp [results_cons, Effect.told?]
  | post message isOpen => simp [count_owed, Nat.add_assoc]
  | refuse message ended =>
      rw [results_turnAway waits, requests_cons, requests_nil, Nat.add_comm, Nat.add_zero]
      rfl
  | enqueue mailbox =>
      simp only [count_owed, mailbox, requests_cons, Message.caller?, List.map_append,
        List.count_append, List.map_cons, List.map_nil, Option.toList_some, results_nil,
        requests_nil]
      omega
  | @skip queued rest queue givenUp =>
      have other : queued.call ≠ call := fun same => waits (same ▸ givenUp)
      simp [count_owed, queue, other]
  | writeTurn isOpen free queue waiting =>
      simp only [count_owed, free, queue, results_cons, Effect.told?, List.map_cons, List.map_nil,
        List.count_cons, List.count_nil, Option.toList_some, Option.toList_none, results_nil,
        requests_nil]
      omega
  | @writeUrgent queued rest isOpen mailbox =>
      have paid := results_addInterrupt waits ⟨session.nextId, queued.call⟩
      simp only [addInterrupt] at paid
      simp only [count_owed, mailbox, results_cons, requests_cons, Effect.told?, Message.caller?,
        addInterrupt, Option.toList_some, Option.toList_none, List.count_nil, requests_nil]
      omega
  | @answerTurn pending response inFlight same =>
      simp only [count_owed, inFlight, results_cons, Effect.told?, results_tell waits,
        List.map_cons, List.map_nil, Option.toList_some, Option.toList_none, List.count_nil,
        requests_nil]
      omega
  | @answerUrgent pending response other interrupt same =>
      have kept := count_interrupts keyed interrupt call
      simp only [count_owed, results_cons, Effect.told?, results_tell waits, same,
        Option.toList_none, List.count_nil, requests_nil] at kept ⊢
      omega
  | @takeUp message rest mailbox plain =>
      have silent : message.caller? = none := by
        cases message with
        | send lane queued => simpa [Message.queued?] using plain lane
        | close call | released => rfl
      simp [count_owed, mailbox, requests_cons, silent]
  | loseTurn queue =>
      simp only [count_owed, queue, results_tellClosed waits, List.map_cons, List.count_cons,
        List.count_nil, requests_nil]
      omega
  | loseUrgent mailbox =>
      simp only [count_owed, mailbox, results_tellClosed waits, requests_cons, Message.caller?,
        Option.toList_some, requests_nil]
      omega
  | teardown =>
      rw [results_teardown waits]
      rfl

/-! ## Where results come from -/

theorem mem_tell {given result : Except SessionError Response} {caller call : Nat} :
    .reply call result ∈ session.tell given caller ↔
      call ∉ session.givenUp ∧ call = caller ∧ result = given := by
  rw [tell]
  split
  · rename_i givenUp
    simp only [List.not_mem_nil, false_iff]
    rintro ⟨waits, rfl, -⟩
    exact waits (hasGivenUp_iff.1 givenUp)
  · rename_i waits
    rw [hasGivenUp_iff] at waits
    simp only [List.mem_singleton, Effect.reply.injEq, iff_and_self, and_imp]
    rintro rfl -
    exact waits

theorem closed_of_mem_tellClosed {result : Except SessionError Response} {caller call : Nat}
    (told : .reply call result ∈ session.tellClosed caller) :
    call ∉ session.givenUp ∧ result = .error .closed := by
  obtain ⟨waits, -, closed⟩ := mem_tell.1 told
  exact ⟨waits, closed⟩

theorem closed_of_mem_turnAway {result : Except SessionError Response} {message : Message}
    {call : Nat} (told : .reply call result ∈ session.turnAway message) :
    call ∉ session.givenUp ∧ result = .error .closed := by
  cases message with
  | send lane queued => exact closed_of_mem_tellClosed told
  | close caller | released => simp [turnAway] at told

theorem closed_of_mem_teardown {result : Except SessionError Response} {call : Nat}
    (told : .reply call result ∈ session.teardown.2) :
    call ∉ session.givenUp ∧ result = .error .closed := by
  simp only [teardown, List.mem_append, List.mem_flatMap, List.mem_singleton, reduceCtorEq,
    or_false] at told
  rcases told with (⟨_, _, told⟩ | ⟨_, _, told⟩) | ⟨_, _, told⟩
  · exact closed_of_mem_tellClosed told
  · exact closed_of_mem_tellClosed told
  · exact closed_of_mem_turnAway told

/-- A result goes to a caller that waits.  It says that the session has ended, or it is the answer
with the transaction id of the command of that call. -/
theorem reply_of_move {messages : List Message} {effects : List Effect}
    (move : Move session messages effects after) {call : Nat}
    {result : Except SessionError Response} (told : .reply call result ∈ effects) :
    call ∉ session.givenUp ∧ (result = .error .closed ∨
      ∃ response, ⟨response.id, call⟩ ∈ session.pending ∧ result = outcome response ∧
        .answered call response ∈ effects) := by
  cases move with
  | outside | report | letReturn | post | enqueue | skip | writeTurn | takeUp => simp at told
  | refuse => exact (closed_of_mem_turnAway told).imp_right Or.inl
  | loseTurn | loseUrgent => exact (closed_of_mem_tellClosed told).imp_right Or.inl
  | teardown => exact (closed_of_mem_teardown told).imp_right Or.inl
  | writeUrgent isOpen mailbox =>
      rcases List.mem_cons.1 told with other | told
      · cases other
      · obtain ⟨_, _, told⟩ := List.mem_flatMap.1 told
        exact (closed_of_mem_tellClosed told).imp_right Or.inl
  | @answerTurn pending response inFlight same =>
      rcases List.mem_cons.1 told with other | told
      · cases other
      · obtain ⟨waits, rfl, rfl⟩ := mem_tell.1 told
        have member : pending ∈ session.pending := by simp [Session.pending, inFlight]
        exact ⟨waits, Or.inr ⟨response, same ▸ member, rfl, List.mem_cons_self⟩⟩
  | @answerUrgent pending response other interrupt same =>
      rcases List.mem_cons.1 told with other | told
      · cases other
      · obtain ⟨waits, rfl, rfl⟩ := mem_tell.1 told
        have member : pending ∈ session.pending := List.mem_append_right _ interrupt
        exact ⟨waits, Or.inr ⟨response, same ▸ member, rfl, List.mem_cons_self⟩⟩

/-- A caller that has given up gets no result any more. -/
theorem results_of_givenUp {messages : List Message} {effects : List Effect}
    (move : Move session messages effects after) {call : Nat} (givenUp : call ∈ session.givenUp) :
    results call effects = 0 := by
  rw [results, List.count_eq_zero]
  intro member
  obtain ⟨effect, told, eq⟩ := List.mem_filterMap.1 member
  cases effect with
  | reply caller result =>
      obtain rfl := Option.some.inj eq
      exact (reply_of_move move told).1 givenUp
  | write | answered | returned | event => cases eq

theorem results_of_moves_of_givenUp {messages : List Message} {log : List Effect}
    (moves : Moves session messages log after) {call : Nat} (givenUp : call ∈ session.givenUp) :
    results call log = 0 := by
  induction moves with
  | refl => rfl
  | tail moves move ih =>
      rw [results_append, ih, results_of_givenUp move (givenUp_of_moves moves givenUp)]

/-! ## The account of a run -/

/-- What a session has paid and what it owes, after some messages have come and some effects have
happened. -/
structure Account (session : Session) (messages : List Message) (log : List Effect) : Prop where
  /-- The interrupts have different transaction ids. -/
  keyed : Keyed session
  /-- Who still waits has got a result or will get one for every request. -/
  balanced : ∀ call ∉ session.givenUp,
    results call log + session.owed.count call = requests call messages
  /-- Nobody gets more results than there were requests. -/
  bounded : ∀ call, results call log ≤ requests call messages
  /-- A session that has ended owes nothing. -/
  settled : session.isOpen = false → session.owed = []

theorem owed_of_move {messages : List Message} {effects : List Effect}
    (move : Move session messages effects after)
    (settled : session.isOpen = false → session.owed = []) (ended : after.isOpen = false) :
    after.owed = [] := by
  simp only [owed, pending, unwritten, List.append_eq_nil_iff, List.map_eq_nil_iff] at settled ⊢
  cases move with
  | outside same =>
      rw [same.inFlight, same.interrupts, same.queue, same.mailbox]
      exact settled (same.isOpen ▸ ended)
  | report | letReturn | refuse => exact settled ended
  | post message isOpen => cases isOpen.symm.trans ended
  | writeTurn isOpen free queue waiting => cases isOpen.symm.trans ended
  | writeUrgent isOpen mailbox => cases isOpen.symm.trans ended
  | enqueue mailbox => simpa [mailbox, Message.caller?] using settled ended
  | skip queue givenUp => simpa [queue] using settled ended
  | loseTurn queue => simpa [queue] using settled ended
  | loseUrgent mailbox => simpa [mailbox, Message.caller?] using settled ended
  | answerTurn inFlight same => simpa [inFlight] using settled ended
  | answerUrgent other interrupt same =>
      have none := (settled ended).1.2
      simp [none] at interrupt
  | takeUp mailbox plain =>
      obtain ⟨written, queue, silent⟩ := settled ended
      rw [mailbox, List.filterMap_eq_nil_iff] at silent
      refine ⟨written, queue, List.filterMap_eq_nil_iff.2 fun other member => ?_⟩
      exact silent other (List.mem_cons_of_mem _ member)
  | teardown => simp [Session.teardown]

theorem Account.move {messages more : List Message} {log effects : List Effect}
    (account : Account session messages log) (move : Move session more effects after) :
    Account after (messages ++ more) (log ++ effects) where
  keyed := account.keyed.move move
  balanced := by
    intro call waits
    have before : call ∉ session.givenUp := fun givenUp => waits (givenUp_of_move move givenUp)
    have kept := account.balanced call before
    have change := results_of_move account.keyed move before
    rw [results_append, requests_append]
    omega
  bounded := by
    intro call
    have kept := account.bounded call
    rw [results_append, requests_append]
    by_cases givenUp : call ∈ session.givenUp
    · rw [results_of_givenUp move givenUp]
      omega
    · have balanced := account.balanced call givenUp
      have change := results_of_move account.keyed move givenUp
      omega
  settled := owed_of_move move account.settled

theorem account_run (inputs : List Input) :
    Account (initial.run inputs).1 (asked 1 inputs) (initial.run inputs).2 :=
  run_invariant (motive := Account)
    ⟨List.nodup_nil, fun _ _ => rfl, fun _ => Nat.le_refl 0,
      fun ended => absurd ended.symm Bool.false_ne_true⟩
    Account.move inputs

end Session
end DebugBridge
