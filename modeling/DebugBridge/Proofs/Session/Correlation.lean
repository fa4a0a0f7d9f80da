import DebugBridge.Proofs.Session.Account
import DebugBridge.Proofs.Session.SingleFlight

/-!
# Answers and their commands

The engine answers in any order, twice, late or to ids that nobody has used.  The main statement
says what a session makes of it: while the ids have not started again the pending commands have
different ones, a call gets one result, which is the answer with the id of its own command or the
news that the session has ended, an answer to no pending command changes nothing, and in the end
everyone has been told.
-/

namespace DebugBridge

/-- The call whose command an effect writes. -/
def Effect.writer? : Effect → Option Nat
  | .write _ call _ _ => some call
  | _ => none

/-- The calls whose commands effects write, in order. -/
def writers (effects : List Effect) : List Nat := effects.filterMap Effect.writer?

@[simp] theorem writers_append (effects more : List Effect) :
    writers (effects ++ more) = writers effects ++ writers more :=
  List.filterMap_append

theorem writers_of_isNotice {effects : List Effect}
    (notices : ∀ effect ∈ effects, effect.isNotice = true) : writers effects = [] := by
  apply filterMap_of_isNotice _ notices
  intro effect notice
  cases effect with
  | write | answered => cases notice
  | reply | returned | event => rfl

theorem writers_answered {call : Nat} {response : Response} {effects : List Effect}
    (notices : ∀ effect ∈ effects, effect.isNotice = true) :
    writers (.answered call response :: effects) = [] := by
  rw [writers, List.filterMap_cons_none rfl]
  exact writers_of_isNotice notices

namespace Session

variable {session after : Session}

/-! ## Transaction ids -/

/-- As long as ids have not started again, the next one is new. -/
def Stamped (session : Session) (log : List Effect) : Prop :=
  (writers log).length < Text.maxWord →
    session.nextId = (writers log).length + 1 ∧
      (∀ pending ∈ session.pending, pending.id < session.nextId) ∧
      (session.pending.map Pending.id).Nodup

/-- Nothing is stamped anew while no command becomes pending. -/
theorem Stamped.sublist {log effects : List Effect} (stamped : Stamped session log)
    (unwritten : writers effects = []) (nextId : after.nextId = session.nextId)
    (fewer : after.pending.Sublist session.pending) : Stamped after (log ++ effects) := by
  intro few
  rw [writers_append, unwritten, List.append_nil] at few ⊢
  obtain ⟨next, below, nodup⟩ := stamped few
  rw [nextId]
  exact ⟨next, fun pending member => below pending (fewer.subset member),
    nodup.sublist (fewer.map Pending.id)⟩

/-- A command that is written gets an id that no pending command has. -/
theorem Stamped.write {log effects : List Effect} {lane : Lane} {call : Nat} {command : Command}
    (stamped : Stamped session log) (notices : ∀ effect ∈ effects, effect.isNotice = true)
    (nextId : after.nextId = idAfter session.nextId) {others : List Pending}
    (fewer : others.Sublist session.pending)
    (pending : after.pending.Perm (⟨session.nextId, call⟩ :: others)) :
    Stamped after (log ++ .write lane call session.nextId command :: effects) := by
  intro few
  have one : writers (.write lane call session.nextId command :: effects) = [call] :=
    congrArg (call :: ·) (writers_of_isNotice notices)
  rw [writers_append, one, List.length_append, List.length_singleton] at few ⊢
  obtain ⟨next, below, nodup⟩ := stamped (by omega)
  have advanced : after.nextId = session.nextId + 1 := by
    rw [nextId, idAfter, if_neg]
    simp only [beq_iff_eq]
    omega
  refine ⟨by omega, ?_, ?_⟩
  · intro entry member
    rcases List.mem_cons.1 (pending.subset member) with rfl | member
    · simp only
      omega
    · have earlier := below entry (fewer.subset member)
      omega
  · rw [(pending.map Pending.id).nodup_iff, List.map_cons, List.nodup_cons]
    refine ⟨?_, nodup.sublist (fewer.map Pending.id)⟩
    intro member
    obtain ⟨entry, other, same⟩ := List.mem_map.1 member
    have earlier := below entry (fewer.subset other)
    simp only at same
    omega

theorem Stamped.move {messages : List Message} {log effects : List Effect}
    (stamped : Stamped session log) (move : Move session messages effects after) :
    Stamped after (log ++ effects) := by
  cases move with
  | outside same =>
      refine stamped.sublist rfl same.nextId ?_
      rw [pending, same.inFlight, same.interrupts]
      exact List.Sublist.refl _
  | report | letReturn | post | enqueue | skip | takeUp =>
      exact stamped.sublist rfl rfl (List.Sublist.refl _)
  | refuse =>
      exact stamped.sublist (writers_of_isNotice isNotice_turnAway) rfl (List.Sublist.refl _)
  | loseTurn | loseUrgent =>
      exact stamped.sublist (writers_of_isNotice isNotice_tellClosed) rfl
        (List.Sublist.refl _)
  | teardown =>
      exact stamped.sublist (writers_of_isNotice isNotice_teardown) rfl
        (List.nil_sublist _)
  | answerTurn inFlight same =>
      exact stamped.sublist (writers_answered isNotice_tell) rfl (List.sublist_append_right _ _)
  | answerUrgent other interrupt same =>
      exact stamped.sublist (writers_answered isNotice_tell) rfl
        (List.filter_sublist.append_left _)
  | writeTurn isOpen free queue waiting =>
      refine stamped.write (by simp) rfl (List.Sublist.refl session.pending) ?_
      simp [pending, free]
  | writeUrgent isOpen mailbox =>
      have fewer : (session.inFlight.toList ++ session.interrupts.filter
          fun other => other.id != session.nextId).Sublist session.pending :=
        List.filter_sublist.append_left _
      refine stamped.write isNotice_addInterrupt rfl fewer ?_
      rw [pending, addInterrupt, ← List.append_assoc]
      exact List.perm_append_singleton _ _

theorem stamped_run (inputs : List Input) :
    Stamped (initial.run inputs).1 (initial.run inputs).2 :=
  run_invariant (motive := fun session _ log => Stamped session log)
    (fun _ => ⟨rfl, by simp [pending, initial], by simp [pending, initial]⟩) Stamped.move inputs

/-! ## Commands and their calls -/

theorem count_writers (call : Nat) (effects : List Effect) :
    (writers effects).count call =
      ((effects.filterMap (Effect.written? .turn)).map Queued.call).count call +
        ((effects.filterMap (Effect.written? .urgent)).map Queued.call).count call := by
  induction effects with
  | nil => rfl
  | cons effect effects ih =>
      cases effect with
      | answered | reply | returned | event => exact ih
      | write lane caller id command =>
          rw [writers] at ih ⊢
          cases lane <;>
            simp only [List.filterMap_cons, Effect.writer?, Effect.written?, if_true, reduceCtorEq,
              if_false, List.map_cons, List.count_cons, ih] <;>
            omega

theorem requests_by_lane (call : Nat) (messages : List Message) :
    requests call messages =
      ((messages.filterMap (Message.queued? .turn)).map Queued.call).count call +
        ((messages.filterMap (Message.queued? .urgent)).map Queued.call).count call := by
  induction messages with
  | nil => rfl
  | cons message messages ih =>
      cases message with
      | close | released => exact ih
      | send lane queued =>
          cases lane <;>
            simp only [requests_cons, Message.caller?, Option.toList_some, List.filterMap_cons,
              Message.queued?, if_true, reduceCtorEq, if_false, List.map_cons, List.count_cons,
              List.count_nil, ih] <;>
            omega

/-- A call has its command written at most once. -/
theorem writers_run_le_one (inputs : List Input) (call : Nat) :
    (writers (initial.run inputs).2).count call ≤ 1 := by
  have turn := ((sublist_run inputs .turn).map Queued.call).count_le call
  have urgent := ((sublist_run inputs .urgent).map Queued.call).count_le call
  have few := requests_asked_le_one call 1 inputs
  rw [requests_by_lane] at few
  rw [count_writers]
  omega

/-- What is written for a call is the command that the call asked for. -/
theorem asked_of_written {inputs : List Input} {lane : Lane} {call id : Nat} {command : Command}
    (written : .write lane call id command ∈ (initial.run inputs).2) :
    .send lane ⟨call, command⟩ ∈ asked 1 inputs := by
  have member : ⟨call, command⟩ ∈ (initial.run inputs).2.filterMap (Effect.written? lane) :=
    List.mem_filterMap.2 ⟨_, written, if_pos rfl⟩
  obtain ⟨message, asking, eq⟩ := List.mem_filterMap.1 ((sublist_run inputs lane).subset member)
  cases message with
  | close | released => cases eq
  | send other queued =>
      rw [Message.queued?] at eq
      split at eq
      · rename_i same
        obtain rfl := Option.some.inj eq
        rwa [← same]
      · cases eq

/-- A command becomes pending when it is written, with the id that it is written with. -/
theorem pending_of_move {messages : List Message} {effects : List Effect}
    (move : Move session messages effects after) {pending : Pending}
    (member : pending ∈ after.pending) :
    pending ∈ session.pending ∨
      ∃ lane command, .write lane pending.call pending.id command ∈ effects := by
  cases move with
  | outside same =>
      rw [Session.pending, same.inFlight, same.interrupts] at member
      exact Or.inl member
  | report | letReturn | post | refuse | enqueue | skip | takeUp | loseTurn | loseUrgent =>
      exact Or.inl member
  | teardown => cases member
  | answerTurn inFlight same => exact Or.inl (List.mem_append_right _ member)
  | answerUrgent other interrupt same =>
      exact Or.inl ((List.filter_sublist.append_left _).subset member)
  | @writeTurn queued rest isOpen free queue waiting =>
      rcases List.mem_append.1 member with new | old
      · obtain rfl := Option.some.inj (Option.mem_toList.1 new)
        exact Or.inr ⟨.turn, queued.command, List.mem_cons_self⟩
      · exact Or.inl (List.mem_append_right _ old)
  | @writeUrgent queued rest isOpen mailbox =>
      rw [Session.pending, addInterrupt, ← List.append_assoc] at member
      rcases List.mem_append.1 member with old | new
      · exact Or.inl ((List.filter_sublist.append_left _).subset old)
      · obtain rfl := List.mem_singleton.1 new
        exact Or.inr ⟨.urgent, queued.command, List.mem_cons_self⟩

/-- What the log tells about pending commands and about results. -/
structure Explained (session : Session) (log : List Effect) : Prop where
  /-- A pending command was written with its id. -/
  pending : ∀ pending ∈ session.pending,
    ∃ lane command, .write lane pending.call pending.id command ∈ log
  /-- A result tells of the end or is the answer with the id of the command of its call. -/
  results : ∀ {call : Nat} {result : Except SessionError Response}, .reply call result ∈ log →
    result = .error .closed ∨ ∃ response lane command, result = outcome response ∧
      .answered call response ∈ log ∧ .write lane call response.id command ∈ log

theorem Explained.move {messages : List Message} {log effects : List Effect}
    (explained : Explained session log) (move : Move session messages effects after) :
    Explained after (log ++ effects) where
  pending := by
    intro pending member
    rcases pending_of_move move member with old | ⟨lane, command, written⟩
    · obtain ⟨lane, command, written⟩ := explained.pending pending old
      exact ⟨lane, command, List.mem_append_left _ written⟩
    · exact ⟨lane, command, List.mem_append_right _ written⟩
  results := by
    intro call result told
    rcases List.mem_append.1 told with earlier | now
    · obtain closed | ⟨response, lane, command, eq, answered, written⟩ := explained.results earlier
      · exact Or.inl closed
      · exact Or.inr ⟨response, lane, command, eq, List.mem_append_left _ answered,
          List.mem_append_left _ written⟩
    · obtain closed | ⟨response, member, eq, answered⟩ := (reply_of_move move now).2
      · exact Or.inl closed
      · obtain ⟨lane, command, written⟩ := explained.pending _ member
        exact Or.inr ⟨response, lane, command, eq, List.mem_append_right _ answered,
          List.mem_append_left _ written⟩

theorem explained_run (inputs : List Input) :
    Explained (initial.run inputs).1 (initial.run inputs).2 :=
  run_invariant (motive := fun session _ log => Explained session log)
    ⟨by simp [pending, initial], by simp⟩ Explained.move inputs

/-! ## Answers -/

theorem not_answered_write {lane : Lane} {queued : Queued} {call : Nat} {response : Response} :
    .answered call response ∉ (session.write lane queued).2 := by
  rw [write]
  intro member
  split at member
  · rcases List.mem_cons.1 member with other | member
    · cases other
    · cases lane with
      | turn => cases member
      | urgent => exact not_mem_of_isNotice isNotice_addInterrupt rfl member
  · rcases List.mem_append.1 member with member | member
    · exact not_mem_of_isNotice isNotice_tellClosed rfl member
    · exact not_mem_of_isNotice isNotice_teardown rfl member

theorem not_answered_pump {call : Nat} {response : Response} :
    .answered call response ∉ session.pump.2 := by
  rw [pump]
  split
  · exact List.not_mem_nil
  · split
    · exact List.not_mem_nil
    · exact not_answered_write

theorem eq_of_answered_handleResponse {given response : Response} {call : Nat}
    (answered : .answered call response ∈ (session.handleResponse given).2) : response = given := by
  rw [handleResponse] at answered
  split at answered
  · rcases List.mem_append.1 answered with told | pumped
    · rcases List.mem_cons.1 told with eq | told
      · cases eq
        rfl
      · exact absurd told (not_mem_of_isNotice isNotice_tell rfl)
    · exact absurd pumped not_answered_pump
  · simp at answered

theorem not_answered_attend {call : Nat} {response : Response} :
    .answered call response ∉ session.attend.2 := by
  rw [attend]
  split
  · rename_i message rest _ _
    cases message with
    | send lane queued =>
        cases lane with
        | turn => exact not_answered_pump
        | urgent => exact not_answered_write
    | released => exact not_mem_of_isNotice isNotice_teardown rfl
    | close caller =>
        intro member
        rcases List.mem_append.1 member with member | member
        · exact not_mem_of_isNotice isNotice_teardown rfl member
        · simp at member
  · exact List.not_mem_nil

/-- An answer is handled when it is the next thing that has come from the engine. -/
theorem listen_of_answered {input : Input} {call : Nat} {response : Response}
    (answered : .answered call response ∈ (session.step input).2) :
    input = .listen ∧ session.incoming.head? = some (.item (.packet (.response response))) := by
  have post : ∀ {session : Session} {message : Message},
      .answered call response ∉ (session.post message).2 := by
    intro session message
    rw [Session.post]
    split
    · exact List.not_mem_nil
    · exact not_mem_of_isNotice isNotice_turnAway rfl
  cases input with
  | submit command | interrupt command | close | released => exact absurd answered post
  | abandon | received | disconnected | jammed => cases answered
  | attend => exact absurd answered not_answered_attend
  | listen =>
      refine ⟨rfl, ?_⟩
      rw [step, listen] at answered
      split at answered
      · rename_i incoming rest isOpen eq
        rw [eq]
        cases incoming with
        | item item =>
            obtain ⟨given, rfl⟩ | ⟨event, eq⟩ :=
              handleItem_cases { session with incoming := rest } item
            · rw [eq_of_answered_handleResponse answered]
              rfl
            · rw [handleIncoming, eq] at answered
              simp at answered
        | ended => exact absurd answered (not_mem_of_isNotice isNotice_teardown rfl)
      · cases answered

theorem listen_of_answered_run {session : Session} {inputs : List Input} {call : Nat}
    {response : Response} (answered : .answered call response ∈ (session.run inputs).2) :
    ∃ earlier later, inputs = earlier ++ .listen :: later ∧
      (session.run earlier).1.incoming.head? = some (.item (.packet (.response response))) := by
  induction inputs generalizing session with
  | nil => cases answered
  | cons input rest ih =>
      rcases List.mem_append.1 answered with first | next
      · obtain ⟨rfl, head⟩ := listen_of_answered first
        exact ⟨[], rest, rfl, head⟩
      · obtain ⟨earlier, later, rfl, head⟩ := ih next
        exact ⟨input :: earlier, later, rfl, head⟩

/-- An answer to no pending command is reported and changes nothing else. -/
theorem listen_unmatched {response : Response} {rest : List Incoming}
    (isOpen : session.isOpen = true)
    (incoming : session.incoming = .item (.packet (.response response)) :: rest)
    (unmatched : ∀ pending ∈ session.pending, pending.id ≠ response.id) :
    session.step .listen = ({ session with incoming := rest },
      [.event (.fault (.unmatchedTransaction response.id))]) := by
  have slot : session.inFlight.filter (fun pending => pending.id == response.id) = none := by
    rw [Option.filter_eq_none_iff]
    intro pending inFlight same
    exact unmatched pending (by simp [Session.pending, inFlight]) (beq_iff_eq.1 same)
  have table : session.interrupts.find? (fun pending => pending.id == response.id) = none := by
    rw [List.find?_eq_none]
    intro pending interrupt same
    exact unmatched pending (List.mem_append_right _ interrupt) (beq_iff_eq.1 same)
  simp [step, listen, isOpen, incoming, handleIncoming, handleItem, handleResponse, take?, slot,
    table]

/-! ## The statement -/

/-- What a session promises about results and answers, for a run of inputs. -/
structure Correlated (inputs : List Input) : Prop where
  /-- Pending commands have different ids while the ids have not started again. -/
  distinct : (writers (initial.run inputs).2).length < Text.maxWord →
    ((initial.run inputs).1.pending.map Pending.id).Nodup
  /-- No call gets two results. -/
  once : ∀ call, results call (initial.run inputs).2 ≤ 1
  /-- A call gets no result any more when its caller has stopped waiting. -/
  silent : ∀ {earlier later : List Input} {call : Nat}, inputs = earlier ++ .abandon call :: later →
    call < (initial.run earlier).1.nextCall →
    results call (initial.run inputs).2 = results call (initial.run earlier).2
  /-- No call has its command written twice. -/
  writtenOnce : ∀ call, (writers (initial.run inputs).2).count call ≤ 1
  /-- A result tells of the end, or it is an answer that has come from the engine and has the id
  with which the command of that call was written. -/
  explained : ∀ {call : Nat} {result : Except SessionError Response},
    .reply call result ∈ (initial.run inputs).2 →
    result = .error .closed ∨ ∃ response lane command, result = outcome response ∧
      .write lane call response.id command ∈ (initial.run inputs).2 ∧
      .send lane ⟨call, command⟩ ∈ asked 1 inputs ∧
      ∃ earlier later, inputs = earlier ++ .listen :: later ∧
        (initial.run earlier).1.incoming.head? = some (.item (.packet (.response response)))
  /-- An answer to no pending command is reported once and changes nothing else. -/
  unmatched : ∀ {response : Response} {rest : List Incoming},
    (initial.run inputs).1.isOpen = true →
    (initial.run inputs).1.incoming = .item (.packet (.response response)) :: rest →
    (∀ pending ∈ (initial.run inputs).1.pending, pending.id ≠ response.id) →
    (initial.run inputs).1.step .listen = ({ (initial.run inputs).1 with incoming := rest },
      [.event (.fault (.unmatchedTransaction response.id))])
  /-- When the session has ended, every call for a command whose caller waits has its result. -/
  settled : (initial.run inputs).1.isOpen = false → ∀ {lane : Lane} {queued : Queued},
    .send lane queued ∈ asked 1 inputs → queued.call ∉ (initial.run inputs).1.givenUp →
    results queued.call (initial.run inputs).2 = 1

/-- Whatever comes in whatever order, results and answers belong together. -/
theorem correlated (inputs : List Input) : Correlated inputs where
  distinct few := (stamped_run inputs few).2.2
  once call :=
    Nat.le_trans ((account_run inputs).bounded call) (requests_asked_le_one call 1 inputs)
  silent := by
    rintro earlier later call rfl made
    have givenUp : call ∈ ((initial.run earlier).1.abandon call).givenUp := mem_givenUp_abandon made
    have after := results_of_moves_of_givenUp (run_moves _ later) givenUp
    rw [run_append]
    simp only [andThen, results_append]
    exact Nat.add_eq_left.2 after
  writtenOnce := writers_run_le_one inputs
  explained := by
    intro call result told
    obtain closed | ⟨response, lane, command, eq, answered, written⟩ :=
      (explained_run inputs).results told
    · exact Or.inl closed
    · exact Or.inr ⟨response, lane, command, eq, written, asked_of_written written,
        listen_of_answered_run answered⟩
  unmatched := listen_unmatched
  settled := by
    intro ended lane queued sent waits
    have balanced := (account_run inputs).balanced queued.call waits
    rw [(account_run inputs).settled ended, List.count_nil, Nat.add_zero] at balanced
    have made : 0 < requests queued.call (asked 1 inputs) :=
      List.count_pos_iff.2 (List.mem_filterMap.2 ⟨_, sent, rfl⟩)
    have few := requests_asked_le_one queued.call 1 inputs
    omega

end Session
end DebugBridge
