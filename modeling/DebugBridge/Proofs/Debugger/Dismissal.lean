import DebugBridge.Proofs.Debugger.Interplay
import DebugBridge.Proofs.Debugger.Leave
import DebugBridge.Proofs.Debugger.Seeding
import DebugBridge.Proofs.Session.Correlation

/-!
# One leave at most

Things are asked of a debugger one after the other, while its session goes on in any way and others
break into the script.  However often it is told to let the script go and to end, one command at
most is written by which leave is taken: a script that the debugger has started and not let go is
ended, and any other one is let go.
-/

namespace DebugBridge

open Debugger

namespace Interplay

variable {play after : Interplay (Except DebugError Unit × Debugger)} {leave : Leave}

/-! ## One call after the other -/

/-- A debugger to which nothing has happened yet. -/
def fresh (config : DebugConfig) (host : Host) : Interplay (Except DebugError Unit × Debugger) :=
  start (.done (.ok (), .new config host)) [] []

/-- What may happen to a debugger: something is asked of it when it is at rest, or it goes on with
its session. -/
inductive Happening where
  /-- Something is asked of it. -/
  | call (call : Call)
  /-- It goes on. -/
  | step (step : Step)

/-- Something is asked of a debugger. -/
def charge (play : Interplay (Except DebugError Unit × Debugger)) (debugger : Debugger)
    (call : Call) : Interplay (Except DebugError Unit × Debugger) :=
  { play with main := call.operation.run.run debugger, calls := play.calls ++ [call] }

/-- One thing happens, if it can. -/
def happen? (play : Interplay (Except DebugError Unit × Debugger)) :
    Happening → Option (Interplay (Except DebugError Unit × Debugger))
  | .call call =>
    match play.main with
    | .done (_, debugger) => some (play.charge debugger call)
    | _ => none
  | .step step => play.step? step

/-- One thing happens after the other, if they can. -/
def live (play : Interplay (Except DebugError Unit × Debugger)) (happenings : List Happening) :
    Option (Interplay (Except DebugError Unit × Debugger)) :=
  happenings.foldlM happen? play

/-- What is kept whatever happens once is kept in the long run. -/
theorem live_invariant {motive : Interplay (Except DebugError Unit × Debugger) → Prop}
    {happenings : List Happening}
    (charged : ∀ {play call result debugger}, motive play → play.main = .done (result, debugger) →
      motive (play.charge debugger call))
    (goes : ∀ {play after}, motive play → play.Goes after → motive after)
    (holds : motive play) (lived : play.live happenings = some after) : motive after := by
  refine foldlM_invariant (fun {play after happening} holds happened => ?_) holds lived
  cases happening with
  | call call =>
      rw [happen?] at happened
      split at happened
      · next main =>
        cases happened
        exact charged holds main
      · cases happened
  | step step => exact goes holds (goes_of_step? happened)

/-! ## How far leave has been taken -/

/-- Whether leave is being taken. -/
def IsParting (play : Interplay (Except DebugError Unit × Debugger)) : Prop :=
  play.stage ≠ .free ∧ ∃ request next, play.main = .call request next ∧ request.parts = true

end Interplay

/-- Whether leave is taken as it fits: a script that was started and not let go is ended, and one
that was let go is told so. -/
def Posting.FitsLeave (leave : Leave) (posting : Posting) : Prop :=
  ∀ command, posting.request.command? = some command →
    command.name = "stop" ∧ leave.started = true ∧ leave.letGo = false ∨
      command.name = "detach" ∧ leave.letGo = true

/-- Whether a request that takes no leave does nothing of that kind, unless the debugger was asked
to stop the script. -/
def Posting.TakesNoLeave (posting : Posting) : Prop :=
  ∀ command, posting.request.command? = some command →
    command.name ≠ "detach" ∧ (command.name = "stop" → posting.task = some (.resume .stop)) ∧
      posting.task ≠ some .close ∧ posting.task ≠ some .detach

namespace Interplay

variable {play after : Interplay (Except DebugError Unit × Debugger)} {leave : Leave}

/-- A debugger at work agrees with how far it has got in taking leave. -/
structure Attends (play : Interplay (Except DebugError Unit × Debugger)) (leave : Leave) :
    Prop where
  /-- It will go on in that way. -/
  obeys : play.main.Obeys (Leave.conduct play.task) (fun entry point => entry.2.Agrees point)
    (some leave)
  /-- The interpreter was started or not. -/
  started : leave.started = play.isStarted
  /-- The script was let go or not. -/
  letGo : leave.letGo = play.isLetGo
  /-- If the session was ended it has ended. -/
  ended : leave.ended = true → play.session.isOpen = false
  /-- A script that was started is let go only if that was asked for. -/
  asked : leave.started = true → leave.letGo = true → .detach ∈ play.calls
  /-- Where leave was asked for, it was taken or is being taken. -/
  parts : ∀ posting ∈ play.postings, posting.request.parts = true →
    leave.parted = true ∨ play.IsParting
  /-- It was asked for as it fits. -/
  fits : ∀ posting ∈ play.postings, posting.request.parts = true → posting.FitsLeave leave
  /-- It was asked for once. -/
  once : ∀ first ∈ play.postings, ∀ second ∈ play.postings, first.request.parts = true →
    second.request.parts = true → first.number = second.number
  /-- All other requests take no leave. -/
  others : ∀ posting ∈ play.postings, posting.request.parts = false → posting.TakesNoLeave

/-- How far leave is taken after an exchange. -/
structure Proceeds (play : Interplay (Except DebugError Unit × Debugger)) (leave last : Leave)
    (exchange : Exchange) : Prop where
  /-- The interpreter may have been started. -/
  started : last.started = (leave.started || exchange.starts)
  /-- The script may have been let go. -/
  letGo : last.letGo = (leave.letGo || exchange.letsGo)
  /-- Leave may have been taken. -/
  parted : last.parted = (leave.parted || exchange.request.parts)
  /-- If the session was ended it has ended. -/
  ended : last.ended = true → play.session.isOpen = false

/-- True answers lead somewhere. -/
theorem exists_proceeds {exchange : Exchange} (truth : play.IsTrue exchange)
    (letGo : leave.letGo = play.isLetGo)
    (ended : leave.ended = true → play.session.isOpen = false) :
    ∃ last, leave.next exchange = some last ∧ play.Proceeds leave last exchange := by
  obtain ⟨request, answer⟩ := exchange
  have same (next : leave.next ⟨request, answer⟩ = some leave)
      (starts : Exchange.starts ⟨request, answer⟩ = false)
      (letsGo : Exchange.letsGo ⟨request, answer⟩ = false) (parts : request.parts = false) :
      ∃ last, leave.next ⟨request, answer⟩ = some last ∧
        play.Proceeds leave last ⟨request, answer⟩ :=
    ⟨leave, next, by simp [starts], by simp [letsGo], by simp [parts], ended⟩
  cases request with
  | spawn call =>
      refine ⟨_, rfl, ?_, (Bool.or_false _).symm, (Bool.or_false _).symm, ended⟩
      have told (started : Bool) : Exchange.starts ⟨.spawn call, started⟩ = started := by
        cases started <;> rfl
      exact congrArg (leave.started || ·) (told answer).symm
  | letGo =>
      exact ⟨_, rfl, (Bool.or_false _).symm, (Bool.or_true _).symm, (Bool.or_false _).symm, ended⟩
  | isLetGo =>
      refine same ?_ rfl rfl rfl
      rw [Leave.next, if_pos (truth.trans letGo.symm)]
  | isClosed =>
      have told : answer = !play.session.isOpen := truth
      refine same ?_ rfl rfl rfl
      rw [Leave.next, if_neg]
      intro untrue
      obtain ⟨done, goesOn⟩ := Bool.and_eq_true_iff.1 untrue
      rw [told, ended done] at goesOn
      cases goesOn
  | submit command limit =>
      cases limit with
      | none => exact same rfl rfl rfl rfl
      | some limit =>
          exact ⟨_, rfl, (Bool.or_false _).symm, (Bool.or_false _).symm, (Bool.or_true _).symm,
            ended⟩
  | detach =>
      exact ⟨_, rfl, (Bool.or_false _).symm, (Bool.or_false _).symm, (Bool.or_true _).symm,
        fun _ => truth⟩
  | close =>
      exact ⟨_, rfl, (Bool.or_false _).symm, (Bool.or_false _).symm, (Bool.or_false _).symm,
        fun _ => truth⟩
  | _ => exact same rfl rfl rfl rfl

end Interplay

namespace Leave

variable {leave : Leave} {task : Option Debugger.Call} {exchange : Exchange}

/-- The interpreter is started before leave is taken in any way. -/
theorem Allows.of_starts (allows : leave.Allows task exchange.request)
    (starts : exchange.starts = true) :
    leave.letGo = false ∧ leave.parted = false ∧ exchange.request.parts = false ∧
      exchange.letsGo = false := by
  obtain ⟨request, answer⟩ := exchange
  cases request with
  | spawn call => exact ⟨allows.1, allows.2, rfl, rfl⟩
  | _ => cases starts

/-- The script is let go before leave is taken. -/
theorem Allows.of_letsGo (allows : leave.Allows task exchange.request)
    (letsGo : exchange.letsGo = true) :
    leave.parted = false ∧ exchange.request.parts = false ∧
      (leave.started = true → task = some .detach) := by
  obtain ⟨request, answer⟩ := exchange
  cases request with
  | letGo => exact ⟨allows.1, rfl, allows.2⟩
  | _ => cases letsGo

/-- Once leave was asked for, nothing is started any more and nothing is let go. -/
theorem Allows.settled (allows : leave.Allows task exchange.request)
    (asked : leave.parted = true ∨ exchange.request.parts = true) :
    exchange.starts = false ∧ exchange.letsGo = false := by
  constructor
  · refine Bool.eq_false_iff.2 fun starts => ?_
    obtain ⟨-, still, other, -⟩ := allows.of_starts starts
    simp_all
  · refine Bool.eq_false_iff.2 fun letsGo => ?_
    obtain ⟨still, other, -⟩ := allows.of_letsGo letsGo
    simp_all

/-- Leave is taken once. -/
theorem Allows.not_parted {request : Request} (allows : leave.Allows task request)
    (parts : request.parts = true) : leave.parted = false := by
  cases request with
  | submit command limit =>
      cases limit with
      | none => cases parts
      | some limit => exact allows.2.2.2.2
  | detach => exact allows.2
  | _ => cases parts

/-- It is taken as it fits. -/
theorem Allows.fitsLeave {posting : Posting} (allows : leave.Allows task posting.request)
    (parts : posting.request.parts = true) : posting.FitsLeave leave := by
  obtain ⟨number, task, request⟩ := posting
  intro command wanted
  cases request with
  | submit other limit =>
      cases limit with
      | none => cases parts
      | some limit =>
          cases wanted
          exact .inl ⟨allows.1, allows.2.2.1, allows.2.2.2.1⟩
  | detach =>
      cases wanted
      exact .inr ⟨rfl, allows.1⟩
  | _ => cases parts

/-- All other requests take no leave. -/
theorem Allows.takesNoLeave {posting : Posting} (allows : leave.Allows posting.task posting.request)
    (quiet : posting.request.parts = false) : posting.TakesNoLeave := by
  obtain ⟨number, task, request⟩ := posting
  intro command wanted
  cases request with
  | submit other limit =>
      cases limit with
      | some limit => cases quiet
      | none =>
          cases wanted
          exact allows
  | interrupt other => exact allows.elim
  | detach => cases quiet
  | _ => cases wanted

end Leave

namespace Interplay

variable {play after : Interplay (Except DebugError Unit × Debugger)} {leave : Leave}

/-- What is asked next is allowed. -/
theorem Attends.allows (attends : play.Attends leave) {request : Request}
    {next : request.Answer → Talk (Except DebugError Unit × Debugger)}
    (main : play.main = .call request next) : leave.Allows play.task request := by
  have obeys := attends.obeys
  rw [main] at obeys
  exact obeys.1

/-- Where leave was asked for it was taken, or this is the answer to it. -/
theorem Attends.parted_or (attends : play.Attends leave) {request : Request}
    {next : request.Answer → Talk (Except DebugError Unit × Debugger)}
    (main : play.main = .call request next) {posting : Posting} (member : posting ∈ play.postings)
    (parts : posting.request.parts = true) : leave.parted = true ∨ request.parts = true := by
  refine (attends.parts posting member parts).imp_right ?_
  rintro ⟨-, other, rest, same, parts⟩
  cases main.symm.trans same
  exact parts

/-- A script that was started is let go only if that was asked for, whatever is answered. -/
theorem Attends.asked_of_proceeds (attends : play.Attends leave) {exchange : Exchange} {last : Leave}
    (allows : leave.Allows play.task exchange.request) (proceeds : play.Proceeds leave last exchange)
    (started : last.started = true) (letGo : last.letGo = true) : .detach ∈ play.calls := by
  rw [proceeds.started] at started
  rw [proceeds.letGo] at letGo
  cases starts : exchange.starts with
  | true =>
      obtain ⟨kept, -, -, stays⟩ := allows.of_starts starts
      rw [kept, stays] at letGo
      cases letGo
  | false =>
      rw [starts, Bool.or_false] at started
      cases letsGo : exchange.letsGo with
      | true =>
          obtain ⟨-, -, wanted⟩ := allows.of_letsGo letsGo
          exact List.mem_of_getLast? (wanted started)
      | false =>
          rw [letsGo, Bool.or_false] at letGo
          exact attends.asked started letGo

theorem Attends.answer (attends : play.Attends leave) {request : Request}
    {next : request.Answer → Talk (Except DebugError Unit × Debugger)} {answer : request.Answer}
    (main : play.main = .call request next) (truth : play.IsTrue ⟨request, answer⟩) :
    ∃ last, (play.answer request next answer).Attends last := by
  have allows := attends.allows main
  have obeys := attends.obeys
  rw [main] at obeys
  have goesOn := obeys.2 answer
  obtain ⟨last, found, proceeds⟩ := exists_proceeds truth attends.letGo attends.ended
  have point : (Leave.conduct play.task).next (some leave) ⟨request, answer⟩ = some last := found
  rw [point] at goesOn
  refine ⟨last, goesOn, ?_, ?_, proceeds.ended, attends.asked_of_proceeds allows proceeds, ?_, ?_,
    attends.once, attends.others⟩
  · rw [proceeds.started, attends.started]
    simp [isStarted, Interplay.answer]
  · rw [proceeds.letGo, attends.letGo]
    simp [isLetGo, Interplay.answer]
  · intro posting member parts
    rw [proceeds.parted]
    exact .inl (Bool.or_eq_true_iff.2 (attends.parted_or main member parts))
  · intro posting member parts
    obtain ⟨starts, letsGo⟩ : Exchange.starts ⟨request, answer⟩ = false ∧
        Exchange.letsGo ⟨request, answer⟩ = false :=
      allows.settled (attends.parted_or main member parts)
    have fits := attends.fits posting member parts
    rwa [Posting.FitsLeave, proceeds.started, proceeds.letGo, starts, letsGo, Bool.or_false,
      Bool.or_false]

/-- Whatever happens to the session, nothing changes. -/
theorem Attends.feed (attends : play.Attends leave) (input : Input) :
    (play.feed input).Attends leave :=
  { attends with
    ended := fun ended => by
      rw [session_feed]
      exact (Session.late_step (attends.ended ended) input).1 }

theorem Attends.post (attends : play.Attends leave) {request : Request}
    {next : request.Answer → Talk (Except DebugError Unit × Debugger)} {input : Input}
    (free : play.stage = .free) (main : play.main = .call request next) :
    (play.post request input).Attends leave := by
  have allows := attends.allows main
  have parted {posting : Posting} (member : posting ∈ play.postings)
      (parts : posting.request.parts = true) : leave.parted = true :=
    (attends.parts posting member parts).resolve_right fun parting => parting.1 free
  have fed := attends.feed input
  refine ⟨fed.obeys, fed.started, fed.letGo, fed.ended, fed.asked, ?_, ?_, ?_, ?_⟩
  · intro posting member parts
    rcases List.mem_append.1 member with earlier | now
    · exact .inl (parted earlier parts)
    · cases List.mem_singleton.1 now
      exact .inr ⟨nofun, request, next, main, parts⟩
  · intro posting member parts
    rcases List.mem_append.1 member with earlier | now
    · exact attends.fits posting earlier parts
    · cases List.mem_singleton.1 now
      exact allows.fitsLeave parts
  · intro first member second other parts also
    rcases List.mem_append.1 member with earlier | now <;>
      rcases List.mem_append.1 other with before | last
    · exact attends.once first earlier second before parts also
    · cases List.mem_singleton.1 last
      cases (parted earlier parts).symm.trans (allows.not_parted also)
    · cases List.mem_singleton.1 now
      cases (parted before also).symm.trans (allows.not_parted parts)
    · cases List.mem_singleton.1 now
      cases List.mem_singleton.1 last
      rfl
  · intro posting member quiet
    rcases List.mem_append.1 member with earlier | now
    · exact attends.others posting earlier quiet
    · cases List.mem_singleton.1 now
      exact allows.takesNoLeave quiet

theorem Attends.goes (attends : play.Attends leave) (goes : play.Goes after) :
    ∃ last, after.Attends last := by
  cases goes with
  | posts free main leaves => exact ⟨leave, attends.post free main⟩
  | hears main _ truth => exact attends.answer main truth
  | parts waits main =>
      have fed := attends.feed .close
      refine ⟨leave, { fed with parts := fun posting member parts => ?_ }⟩
      refine (fed.parts posting member parts).imp_right fun parting => ⟨nofun, parting.2⟩
  | expires waits main => exact (attends.feed _).answer main trivial
  | pauses supportsAsync =>
      have fed := attends.feed (breakInput supportsAsync)
      exact ⟨leave, { fed with }⟩
  | feeds => exact ⟨leave, attends.feed _⟩

theorem Attends.charge (attends : play.Attends leave) {call : Call}
    {result : Except DebugError Unit} {debugger : Debugger}
    (main : play.main = .done (result, debugger)) : (play.charge debugger call).Attends leave := by
  have agrees := attends.obeys
  rw [main] at agrees
  have task : (play.charge debugger call).task = some call := List.getLast?_concat
  refine { attends with
    obeys := ?_
    asked := fun started letGo => List.mem_append_left _ (attends.asked started letGo)
    parts := fun posting member parts => ?_ }
  · rw [task]
    exact abides_agrees call debugger (some leave) agrees
  · refine (attends.parts posting member parts).imp_right ?_
    rintro ⟨-, request, next, same, -⟩
    cases main.symm.trans same

theorem attends_fresh (config : DebugConfig) (host : Host) :
    (fresh config host).Attends (.untaken false) where
  obeys := ⟨fun _ => ⟨rfl, rfl⟩, nofun⟩
  started := rfl
  letGo := rfl
  ended := nofun
  asked := nofun
  parts := List.forall_mem_nil _
  fits := List.forall_mem_nil _
  once := List.forall_mem_nil _
  others := List.forall_mem_nil _

theorem Ledger.charge {base : Nat} (ledger : play.Ledger base) {call : Call}
    {debugger : Debugger} : (play.charge debugger call).Ledger base :=
  { ledger with
    belongs := fun sent late =>
      (ledger.belongs sent late).mono (List.Subset.refl _) (List.Subset.refl _) }

theorem ledger_fresh (config : DebugConfig) (host : Host) : (fresh config host).Ledger 0 :=
  { ledger_start _ _ _ with belongs := fun sent => by cases sent }

/-! ## Commands by which leave is taken -/

/-- Whether an effect writes a command that ends the script or lets it go, and that the debugger was
not asked for by stopping the script. -/
def IsFarewell (play : Interplay (Except DebugError Unit × Debugger)) : Effect → Prop
  | .write _ call _ command =>
    command.name ∈ ["stop", "detach"] ∧
      ∀ posting ∈ play.postings, posting.number = call → posting.task ≠ some (.resume .stop)
  | _ => False

/-- A debugger at work whose commands are all kept track of. -/
structure Serves (play : Interplay (Except DebugError Unit × Debugger)) (leave : Leave) :
    Prop where
  /-- It agrees with how far it has got in taking leave. -/
  attends : play.Attends leave
  /-- Its commands are kept track of. -/
  ledger : play.Ledger 0

theorem Serves.exists_parting (serves : play.Serves leave) {lane : Lane} {call id : Nat}
    {command : Command} (written : .write lane call id command ∈ play.effects)
    (farewell : play.IsFarewell (.write lane call id command)) :
    ∃ posting ∈ play.postings, posting.request.parts = true ∧ posting.number = call ∧
      posting.request.command? = some command := by
  obtain ⟨name, asked⟩ := farewell
  cases serves.ledger.belongs_of_written written (Nat.zero_le call) with
  | @posting posting member number wanted =>
      refine ⟨posting, member, ?_, number, wanted⟩
      refine Bool.not_eq_false _ ▸ fun quiet => ?_
      obtain ⟨other, stops, -⟩ := serves.attends.others posting member quiet command wanted
      rcases List.mem_pair.1 name with stop | detach
      · exact asked posting member number (stops stop)
      · exact other detach
  | pause _ breaks =>
      have named : command = .named "break" := breaks
      rw [named] at name
      exact absurd name (by decide)

end Interplay

/-! ## A debugger that was told to end -/

namespace Debugger

open Operation

variable {debugger : Debugger}

/-- A debugger that is closed and knows no engine. -/
structure IsParted (debugger : Debugger) : Prop where
  /-- It is closed. -/
  closed : debugger.phase = .closed
  /-- It knows no engine. -/
  unlinked : debugger.link = none

/-- The operation is refused, and nothing is done. -/
def Refused {α : Type} (operation : DebuggerOperation α) (debugger : Debugger) : Prop :=
  ∃ error, operation.run.run debugger = .done (.error error, debugger)

theorem Refused.bind {α β : Type} {operation : DebuggerOperation α}
    (refused : Refused operation debugger) (next : α → DebuggerOperation β) :
    Refused (operation >>= next) debugger := by
  obtain ⟨error, run⟩ := refused
  have after : (operation >>= next).run.run debugger =
      (operation.run.run debugger).andThen fun entry =>
        ExceptT.bindCont next entry.1 entry.2 := rfl
  exact ⟨error, by rw [after, run]; rfl⟩

theorem Refused.get_bind {α : Type} {next : Debugger → DebuggerOperation α}
    (refused : Refused (next debugger) debugger) : Refused (get >>= next) debugger := refused

/-- Whatever is asked of such a debugger is refused, other than to end once more. -/
theorem IsParted.refused (parted : debugger.IsParted) {call : Call} (stays : call ≠ .close) :
    Refused call.operation debugger := by
  obtain ⟨config, host, phase, link⟩ := debugger
  obtain ⟨rfl, rfl⟩ := parted
  cases call with
  | close => exact absurd rfl stays
  | start =>
      refine Refused.get_bind ?_
      cases config.request <;> exact ⟨_, rfl⟩
  | configurationDone =>
      refine Refused.bind (Refused.get_bind ?_) _
      split <;> exact ⟨_, rfl⟩
  | setBreakpoints request =>
      obtain ⟨⟨name, _ | path⟩, breakpoints⟩ := request <;> exact ⟨_, rfl⟩
  | _ => exact ⟨_, rfl⟩

/-- Such a debugger does nothing, whatever is asked of it. -/
theorem IsParted.run (parted : debugger.IsParted) (call : Call) :
    ∃ result, call.operation.run.run debugger = .done (result, debugger) := by
  by_cases ends : call = .close
  · obtain ⟨config, host, phase, link⟩ := debugger
    obtain ⟨rfl, rfl⟩ := parted
    rw [ends]
    exact ⟨_, rfl⟩
  · obtain ⟨error, run⟩ := parted.refused ends
    exact ⟨_, run⟩

/-- To part from an engine is to ask for something only. -/
theorem asks_shutdown (link : Link) :
    Asks (fun _ => True) id (shutdown link : DebuggerOperation Unit) := by
  have asks (request : Request) :
      Asks (fun _ => True) id (Operation.ask request : DebuggerOperation request.Answer) :=
    fun _ _ _ seen => ⟨trivial, fun _ => seen⟩
  have ending : Asks (fun _ => True) id (do
      Operation.ask .awaitEnd
      if link.launched && !(← Operation.ask .isLetGo) then Operation.ask .kill :
        DebuggerOperation Unit) := by
    refine (asks _).bind fun _ => (asks _).bind fun (letGo : Bool) => ?_
    split
    · exact asks _
    · exact .pure _
  refine (asks _).bind fun (closed : Bool) => ?_
  cases closed with
  | true => exact ending
  | false =>
      refine (asks _).bind fun (letGo : Bool) => ?_
      dsimp only
      split
      · exact (asks _).bind fun _ => (asks _).bind fun _ => ending
      · exact (asks _).bind fun _ => (asks _).bind fun _ => ending

theorem obeys_close :
    close.Obeys (.only fun _ => True) debugger () fun _ after _ => after.IsParted := by
  refine (obeys_bind _ _).2 (obeys_get.2 ((obeys_bind _ _).2 ((obeys_set _).2 ?_)))
  dsimp only
  cases debugger.link with
  | none => exact ⟨rfl, rfl⟩
  | some link =>
      refine (asks_shutdown link _ _ _ rfl).mono ?_
      rintro _ after _ rfl
      exact ⟨rfl, rfl⟩

end Debugger

namespace Interplay

variable {play after : Interplay (Except DebugError Unit × Debugger)} {leave : Leave}
  {happenings : List Happening}

/-- A debugger that was told to end will be parted. -/
def Closes (play : Interplay (Except DebugError Unit × Debugger)) : Prop :=
  .close ∈ play.calls →
    play.main.Obeys (.only fun _ => True) (fun entry _ => entry.2.IsParted) ()

theorem Closes.goes (closes : play.Closes) (goes : play.Goes after) : after.Closes := by
  cases goes with
  | hears main | expires _ main =>
      intro told
      have obeys := closes told
      rw [main] at obeys
      exact obeys.2 _
  | posts | parts | pauses | feeds => exact closes

theorem Closes.charge (closes : play.Closes) {call : Call} {result : Except DebugError Unit}
    {debugger : Debugger} (main : play.main = .done (result, debugger)) :
    (play.charge debugger call).Closes := by
  intro told
  rcases List.mem_append.1 told with earlier | now
  · have parted := closes earlier
    rw [main] at parted
    obtain ⟨result, run⟩ := IsParted.run parted call
    have done : (play.charge debugger call).main = .done (result, debugger) := run
    rw [done]
    exact parted
  · cases List.mem_singleton.1 now
    exact obeys_close

/-- At rest, it stays at rest. -/
theorem rests_of_parted {result : Except DebugError Unit} {debugger : Debugger}
    (parted : debugger.IsParted) (main : play.main = .done (result, debugger))
    (lived : play.live happenings = some after) :
    (∃ result, after.main = .done (result, debugger)) ∧ after.exchanges = play.exchanges ∧
      after.postings = play.postings := by
  refine live_invariant (motive := fun now => (∃ result, now.main = .done (result, debugger)) ∧
    now.exchanges = play.exchanges ∧ now.postings = play.postings) ?_ ?_
    ⟨⟨result, main⟩, rfl, rfl⟩ lived
  · rintro now call _ _ ⟨⟨result, main⟩, same⟩ done
    cases main.symm.trans done
    exact ⟨parted.run call, same⟩
  · rintro now next ⟨⟨result, main⟩, same⟩ goes
    cases goes with
    | posts _ busy | hears busy | parts _ busy | expires _ busy => cases main.symm.trans busy
    | pauses | feeds => exact ⟨⟨result, main⟩, same⟩

/-! ## The end of the session -/

/-- Nothing is written once the session has ended. -/
theorem silent_of_ended (ended : play.session.isOpen = false)
    (lived : play.live happenings = some after) :
    writers after.effects = writers play.effects := by
  refine (live_invariant (motive := fun now => now.session.isOpen = false ∧
    writers now.effects = writers play.effects) ?_ ?_ ⟨ended, rfl⟩ lived).2
  · exact fun kept _ => kept
  · rintro now next ⟨ended, same⟩ goes
    have fed (input : Input) : (now.feed input).session.isOpen = false ∧
        writers (now.feed input).effects = writers play.effects := by
      obtain ⟨stays, late⟩ := Session.late_step ended input
      rw [session_feed, effects_feed, writers_append, same, writers_of_isNotice fun effect member =>
        Effect.isNotice_of_isLate (late effect member), List.append_nil]
      exact ⟨stays, rfl⟩
    cases goes with
    | hears => exact ⟨ended, same⟩
    | posts | parts | expires | pauses | feeds => exact fed _

/-! ## Whatever happens -/

/-- How a debugger takes leave of a script. -/
structure TakesLeave (play : Interplay (Except DebugError Unit × Debugger)) : Prop where
  /-- No two commands are written by which leave is taken. -/
  once : play.effects.Pairwise fun first second =>
    ¬ (play.IsFarewell first ∧ play.IsFarewell second)
  /-- Such a command ends a script that was started and was not let go, and lets go any other. -/
  fits {lane : Lane} {call id : Nat} {command : Command}
    (written : .write lane call id command ∈ play.effects)
    (farewell : play.IsFarewell (.write lane call id command)) :
    command.name = if play.isStarted && !play.isLetGo then "stop" else "detach"
  /-- A script that was started is let go only where the debugger was asked to detach. -/
  asked : play.isStarted = true → play.isLetGo = true → .detach ∈ play.calls
  /-- A script that was not started is ended only where the debugger was asked to stop it. -/
  spares (attached : play.isStarted = false) {lane : Lane} {call id : Nat} {command : Command}
    (written : .write lane call id command ∈ play.effects) (ends : command.name = "stop") :
    ∃ posting ∈ play.postings, posting.number = call ∧ posting.task = some (.resume .stop)
  /-- All that is written where the debugger was told to let the script go or to end is such a
  command. -/
  only {posting : Posting} (member : posting ∈ play.postings)
    (told : posting.task = some .close ∨ posting.task = some .detach) {lane : Lane} {id : Nat}
    {command : Command} (written : .write lane posting.number id command ∈ play.effects) :
    play.IsFarewell (.write lane posting.number id command)
  /-- Once the session has ended nothing more is written, whatever happens. -/
  silent (ended : play.session.isOpen = false) {happenings : List Happening}
    {after : Interplay (Except DebugError Unit × Debugger)}
    (lived : play.live happenings = some after) : writers after.effects = writers play.effects
  /-- A debugger that was told to end and is at rest does nothing any more, whatever happens. -/
  rests (told : .close ∈ play.calls) {result : Except DebugError Unit} {debugger : Debugger}
    (main : play.main = .done (result, debugger)) {happenings : List Happening}
    {after : Interplay (Except DebugError Unit × Debugger)}
    (lived : play.live happenings = some after) :
    (∃ result, after.main = .done (result, debugger)) ∧ after.exchanges = play.exchanges ∧
      after.postings = play.postings

theorem Serves.fits (serves : play.Serves leave) {lane : Lane} {call id : Nat} {command : Command}
    (written : .write lane call id command ∈ play.effects)
    (farewell : play.IsFarewell (.write lane call id command)) :
    command.name = if play.isStarted && !play.isLetGo then "stop" else "detach" := by
  obtain ⟨posting, member, parts, -, wanted⟩ := serves.exists_parting written farewell
  rw [← serves.attends.started, ← serves.attends.letGo]
  rcases serves.attends.fits posting member parts command wanted with
    ⟨name, started, letGo⟩ | ⟨name, letGo⟩
  · rw [name, started, letGo]
    rfl
  · rw [name, letGo, Bool.not_true, Bool.and_false]
    rfl

theorem Serves.once (serves : play.Serves leave) :
    play.effects.Pairwise fun first second =>
      ¬ (play.IsFarewell first ∧ play.IsFarewell second) := by
  have calls : (writers play.effects).Nodup :=
    List.nodup_iff_count_le_one.2 (Session.writers_run_le_one play.inputs)
  refine (List.pairwise_filterMap.1 calls).imp_of_mem ?_
  rintro first second member other apart ⟨farewell, also⟩
  cases first with
  | write lane call id command =>
      cases second with
      | write lane' call' id' command' =>
          obtain ⟨posting, here, parts, number, -⟩ := serves.exists_parting member farewell
          obtain ⟨last, there, parts', number', -⟩ := serves.exists_parting other also
          refine apart call rfl call' rfl ?_
          rw [← number, ← number']
          exact serves.attends.once posting here last there parts parts'
      | answered | reply | returned | event => exact also
  | answered | reply | returned | event => exact farewell

theorem Serves.spares (serves : play.Serves leave) (attached : play.isStarted = false)
    {lane : Lane} {call id : Nat} {command : Command}
    (written : .write lane call id command ∈ play.effects) (ends : command.name = "stop") :
    ∃ posting ∈ play.postings, posting.number = call ∧ posting.task = some (.resume .stop) := by
  by_contra none
  push Not at none
  have farewell : play.IsFarewell (.write lane call id command) :=
    ⟨by rw [ends]; decide, none⟩
  have name := serves.fits written farewell
  rw [ends, attached, Bool.false_and] at name
  exact absurd name (by decide)

theorem Serves.only (serves : play.Serves leave) {posting : Posting}
    (member : posting ∈ play.postings)
    (told : posting.task = some .close ∨ posting.task = some .detach) {lane : Lane} {id : Nat}
    {command : Command} (written : .write lane posting.number id command ∈ play.effects) :
    play.IsFarewell (.write lane posting.number id command) := by
  have other : posting.task ≠ some (.resume .stop) := by
    rcases told with told | told <;> simp [told]
  cases serves.ledger.belongs_of_written written (Nat.zero_le _) with
  | @posting last there number wanted =>
      cases serves.ledger.eq_of_number there member number
      refine ⟨?_, fun last there same => ?_⟩
      · cases parts : posting.request.parts with
        | true =>
            rcases serves.attends.fits posting member parts command wanted with
              ⟨name, -⟩ | ⟨name, -⟩ <;> simp [name]
        | false =>
            obtain ⟨-, -, close, detach⟩ :=
              serves.attends.others posting member parts command wanted
            exact (told.elim close detach).elim
      · rwa [serves.ledger.eq_of_number there member same]
  | pause paused => exact absurd paused (serves.ledger.apart posting member)

/-- Whatever is asked of a debugger, one thing after the other, and whatever happens to its session
meanwhile, leave of the script is taken at most once, and as it fits. -/
theorem takesLeave {config : DebugConfig} {host : Host}
    (lived : (fresh config host).live happenings = some play) : play.TakesLeave := by
  obtain ⟨⟨leave, serves⟩, closes⟩ := live_invariant
    (motive := fun now => (∃ leave, now.Serves leave) ∧ now.Closes)
    (fun {now call _ _} ⟨⟨leave, serves⟩, closes⟩ main =>
      ⟨⟨leave, serves.attends.charge main, serves.ledger.charge⟩, closes.charge main⟩)
    (fun {now next} ⟨⟨leave, serves⟩, closes⟩ goes =>
      ⟨(serves.attends.goes goes).imp fun last attends => ⟨attends, serves.ledger.goes goes⟩,
        closes.goes goes⟩)
    ⟨⟨.untaken false, attends_fresh config host, ledger_fresh config host⟩, nofun⟩ lived
  refine ⟨serves.once, serves.fits, fun started letGo => ?_, serves.spares, serves.only,
    fun ended _ _ => silent_of_ended ended, fun told result debugger main _ _ => ?_⟩
  · exact serves.attends.asked (serves.attends.started.trans started)
      (serves.attends.letGo.trans letGo)
  · have parted := closes told
    rw [main] at parted
    exact rests_of_parted parted main

/-- A debugger that does not take notice of what the script prints. -/
def unheard : DebugConfig := { DebugConfig.forProgram "main.ahk" with redirectOutput := false }

/-- A world in which an engine greets. -/
def greeting : (request : Request) → request.Answer
  | .awaitInit _ => .init greeted.init
  | request => request.idleAnswer

/-- An engine that is connected already greets and answers the commands that prepare it. -/
def preparing : List Step :=
  [.ask greeting, .ask greeting] ++
    ([1, 2, 3, 4, 5, 6].flatMap fun id => exchanged greeting id "" "") ++ [.ask greeting]

/-- Leave is taken of it. -/
def leaving : List Step := List.replicate 4 (.ask greeting) ++ [.feed .attend]

/-- The debugger is attached to a script, and told to end. -/
def attached : List Happening :=
  .call .attachStream :: preparing.map .step ++ .call .close :: leaving.map .step

/-- A script that was attached to is let go. -/
theorem takesLeave_attached :
    ∃ play, (fresh unheard Debugger.fresh.host).live attached = some play ∧
      play.isStarted = false ∧ play.isLetGo = true ∧
      namesWritten play.effects = ["feature_get", "feature_get", "feature_get", "feature_set",
        "feature_set", "feature_set", "detach"] ∧ play.TakesLeave := by
  have seen : ((fresh unheard Debugger.fresh.host).live attached).map (fun play =>
      (play.isStarted, play.isLetGo, namesWritten play.effects)) =
        some (false, true, ["feature_get", "feature_get", "feature_get", "feature_set",
          "feature_set", "feature_set", "detach"]) := by decide +kernel
  obtain ⟨play, lived, seen⟩ := Option.map_eq_some_iff.1 seen
  obtain ⟨started, seen⟩ := Prod.mk.inj seen
  obtain ⟨letGo, written⟩ := Prod.mk.inj seen
  exact ⟨play, lived, started, letGo, written, takesLeave lived⟩

end Interplay
end DebugBridge
