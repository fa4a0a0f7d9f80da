import DebugBridge.Proofs.Session.Correlation
import DebugBridge.Proofs.Session.Handling
import DebugBridge.Session.Client

/-!
# The end of a session

A session ends by a single teardown, whatever the cause.  What it does until then reports no end,
and what it does afterwards is to answer those who come too late.  So the log of a session that has
ended has three parts, and the main statement reads everything off them: the end is reported once
and last, nothing is written any more, and nobody is left waiting.
-/

namespace DebugBridge

/-- Whether a message asks for no command but for the end of the session. -/
def Message.isFinal : Message → Bool
  | .send _ _ => false
  | .close _ | .released => true

/-- What answers a message that asks for no command, when the session has ended. -/
def Message.farewell : Message → List Effect
  | .close call => [.returned call]
  | .send _ _ | .released => []

namespace Session

variable {session after : Session}

/-! ## The shape of the log -/

/-- The log of a session that has ended: what it did before, its teardown and late answers. -/
structure Ended (log before : List Effect) (last : Session) (answers : List Effect) : Prop where
  /-- There is nothing else. -/
  eq : log = before ++ last.teardown.2 ++ answers
  /-- The session went on until then. -/
  isOpen : last.isOpen = true
  /-- Its end was not reported before. -/
  unannounced : .event .closed ∉ before
  /-- What follows answers those who come too late. -/
  late : ∀ effect ∈ answers, effect.isLate = true

/-- Whether a session goes on can be told from its log. -/
inductive Concluded (next : Session × List Effect) : Prop
  /-- It goes on and has not reported an end. -/
  | goesOn (isOpen : next.1.isOpen = true) (unannounced : .event .closed ∉ next.2)
  /-- It has ended. -/
  | ended {before answers : List Effect} {last : Session} (ended : next.1.isOpen = false)
      (log : Ended next.2 before last answers)

theorem Handled.concluded {next : Session × List Effect} (handled : Handled session next)
    (isOpen : session.isOpen = true) : Concluded next := by
  cases handled with
  | goesOn same unannounced => exact .goesOn (same.isOpen.trans isOpen) unannounced
  | ends same unannounced late =>
      exact .ended rfl ⟨rfl, same.isOpen.trans isOpen, unannounced, late⟩

theorem Concluded.andThen {next : Session × List Effect} {effects : List Effect}
    (concluded : Concluded next) (unannounced : .event .closed ∉ effects) :
    Concluded (andThen effects next) := by
  cases concluded with
  | goesOn isOpen silent => exact .goesOn isOpen (by simp [Session.andThen, unannounced, silent])
  | @ended before answers last ended log =>
      have later : Ended (effects ++ next.2) (effects ++ before) last answers :=
        ⟨by simp only [log.eq, List.append_assoc], log.isOpen,
          by simp [unannounced, log.unannounced], log.late⟩
      exact .ended ended later

/-- Late answers may follow an end. -/
theorem Concluded.append_late {next : Session × List Effect} {effects : List Effect}
    (concluded : Concluded next) (ended : next.1.isOpen = false) (stays : after.isOpen = false)
    (late : ∀ effect ∈ effects, effect.isLate = true) : Concluded (after, next.2 ++ effects) := by
  cases concluded with
  | goesOn isOpen _ => cases isOpen.symm.trans ended
  | @ended before answers last _ log =>
      have longer : Ended (next.2 ++ effects) before last (answers ++ effects) := by
        refine ⟨by rw [log.eq, List.append_assoc], log.isOpen, log.unannounced, ?_⟩
        intro effect member
        exact (List.mem_append.1 member).elim (log.late effect) (late effect)
      exact .ended stays longer

theorem concluded_step (isOpen : session.isOpen = true) (input : Input) :
    Concluded (session.step input) := by
  have posted : ∀ {session : Session} {message : Message}, session.isOpen = true →
      Concluded (session.post message) := by
    intro session message isOpen
    rw [post, if_pos isOpen]
    exact .goesOn isOpen List.not_mem_nil
  cases input with
  | submit _ | interrupt _ | close | released => exact posted isOpen
  | abandon call =>
      exact .goesOn ((session.sameCommands_abandon call).isOpen.trans isOpen) List.not_mem_nil
  | received bytes =>
      exact .goesOn ((session.sameCommands_receive bytes).isOpen.trans isOpen) List.not_mem_nil
  | disconnected =>
      exact .goesOn (session.sameCommands_endOfBytes.isOpen.trans isOpen) List.not_mem_nil
  | jammed => exact .goesOn isOpen List.not_mem_nil
  | attend =>
      rw [step]
      obtain ⟨eq, _⟩ | ⟨message, rest, _, _, eq⟩ := session.attend_cases
      · rw [eq]
        exact .goesOn isOpen List.not_mem_nil
      · rw [eq]
        exact (handled_handleMessage _ message).concluded isOpen
  | listen =>
      rw [step]
      obtain ⟨eq, _⟩ | ⟨incoming, rest, _, _, eq⟩ := session.listen_cases
      · rw [eq]
        exact .goesOn isOpen List.not_mem_nil
      · rw [eq]
        exact (handled_handleIncoming _ incoming).concluded isOpen

/-- A session that has ended stays so and only answers those who come too late. -/
theorem late_step (ended : session.isOpen = false) (input : Input) :
    (session.step input).1.isOpen = false ∧
      ∀ effect ∈ (session.step input).2, effect.isLate = true := by
  have posted : ∀ {session : Session} {message : Message}, session.isOpen = false →
      (session.post message).1.isOpen = false ∧
        ∀ effect ∈ (session.post message).2, effect.isLate = true := by
    intro session message ended
    rw [post, ended]
    exact ⟨ended, isLate_turnAway⟩
  cases input with
  | submit _ | interrupt _ | close | released => exact posted ended
  | abandon call => exact ⟨(session.sameCommands_abandon call).isOpen.trans ended, by simp [step]⟩
  | received bytes =>
      exact ⟨(session.sameCommands_receive bytes).isOpen.trans ended, by simp [step]⟩
  | disconnected => exact ⟨session.sameCommands_endOfBytes.isOpen.trans ended, by simp [step]⟩
  | jammed => exact ⟨ended, by simp [step]⟩
  | attend => simp [step, attend, ended]
  | listen => simp [step, listen, ended]

theorem late_run (ended : session.isOpen = false) (inputs : List Input) :
    (session.run inputs).1.isOpen = false ∧
      ∀ effect ∈ (session.run inputs).2, effect.isLate = true := by
  induction inputs generalizing session with
  | nil => exact ⟨ended, by simp [run]⟩
  | cons input rest ih =>
      obtain ⟨stays, late⟩ := late_step ended input
      obtain ⟨remains, later⟩ := ih stays
      refine ⟨remains, fun effect member => ?_⟩
      exact (List.mem_append.1 member).elim (late effect) (later effect)

/-- A run of a session that goes on ends at most once, and then only late answers follow. -/
theorem concluded_run (isOpen : session.isOpen = true) (inputs : List Input) :
    Concluded (session.run inputs) := by
  induction inputs generalizing session with
  | nil => exact .goesOn isOpen List.not_mem_nil
  | cons input rest ih =>
      have first := concluded_step isOpen input
      by_cases goesOn : (session.step input).1.isOpen = true
      · cases first with
        | goesOn _ unannounced => exact (ih goesOn).andThen unannounced
        | ended ended _ => cases goesOn.symm.trans ended
      · have ended := Bool.eq_false_iff.2 goesOn
        obtain ⟨stays, late⟩ := late_run ended rest
        exact first.append_late ended stays late

/-- Once the end is reported there are only late answers, and it was not reported before. -/
theorem late_of_reported (inputs : List Input) {before after : List Effect}
    (split : (initial.run inputs).2 = before ++ .event .closed :: after) :
    .event .closed ∉ before ∧ ∀ effect ∈ after, effect.isLate = true := by
  have isOpen : initial.isOpen = true := rfl
  cases concluded_run isOpen inputs with
  | goesOn _ unannounced => simp [split] at unannounced
  | @ended first answers last _ log =>
      obtain ⟨told, eq, late⟩ := last.teardown_eq
      have around : (first ++ told) ++ .event .closed :: answers =
          before ++ .event .closed :: after := by
        rw [← split, log.eq, eq]
        simp
      have front : .event .closed ∉ first ++ told := by
        simp [log.unannounced, not_closed_of_isLate late]
      obtain ⟨rfl, -, rfl⟩ :=
        (List.append_cons_inj_of_notMem front (not_closed_of_isLate log.late)).1 around
      exact ⟨front, log.late⟩

theorem Handled.length_le {next : Session × List Effect} (handled : Handled session next) :
    next.1.mailbox.length ≤ session.mailbox.length ∧
      next.1.incoming.length ≤ session.incoming.length := by
  cases handled with
  | goesOn same _ => simp [same.mailbox, same.incoming]
  | ends _ _ _ => simp [teardown]

/-- Bytes are not read any more once they are not. -/
theorem Handled.unread {next : Session × List Effect} (handled : Handled session next)
    (unread : session.readable = false) : next.1.readable = false := by
  cases handled with
  | goesOn same _ => exact same.readable.trans unread
  | ends _ _ _ => rfl

/-- Whoever asked for the end returns when the session has ended, not before. -/
theorem ended_of_returned {inputs : List Input} {call : Nat}
    (returned : .returned call ∈ (initial.run inputs).2) :
    (initial.run inputs).1.isOpen = false := by
  have told : ∀ {session : Session} {caller : Nat}, .returned call ∉ session.tellClosed caller := by
    intro session caller member
    rw [tellClosed, tell] at member
    split at member <;> simp at member
  refine run_invariant
    (motive := fun session _ log => .returned call ∈ log → session.isOpen = false)
    (fun member => by cases member) ?_ inputs returned
  intro session after _ _ log effects kept move member
  by_cases ended : session.isOpen = false
  · exact Bool.eq_false_iff.2 fun isOpen =>
      absurd (isOpen_of_moves move.moves isOpen) (by simp [ended])
  have now : .returned call ∈ effects := (List.mem_append.1 member).resolve_left (ended ∘ kept)
  cases move with
  | outside | report | post | enqueue | skip | writeTurn | takeUp => simp at now
  | letReturn _ closed | refuse _ closed => exact absurd closed ended
  | loseTurn | loseUrgent => exact absurd now told
  | teardown => rfl
  | writeUrgent =>
      obtain ⟨_, _, now⟩ := List.mem_flatMap.1 ((List.mem_cons.1 now).resolve_left (by simp))
      exact absurd now told
  | answerTurn | answerUrgent =>
      have now := (List.mem_cons.1 now).resolve_left (by simp)
      rw [tell] at now
      split at now <;> simp at now

/-- Two callers ask for the end while a third one waits and a fourth one detaches; the last one
comes too late. -/
example (command : Command) :
    (initial.run [.submit command, .attend, .close, .submit (.named "detach"), .close, .attend,
      .submit command]).2 =
      [.write .turn 1 1 command, .reply 1 (.error .closed), .reply 3 (.error .closed),
        .returned 4, .event .closed, .returned 2, .reply 5 (.error .closed)] := rfl

end Session
end DebugBridge
