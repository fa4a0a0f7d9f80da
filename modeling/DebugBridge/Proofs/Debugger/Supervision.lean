import DebugBridge.Proofs.Debugger.Ensemble

/-!
# Who supervises and who reports

Whatever the interleaving, a debugger, its session and the supervision of the session keep to what
the others rely on: the debugger's requests fit, supervision takes what the session has delivered
after the greeting, one event after the other, and nobody else reports the end of anything once
there is supervision.
-/

namespace DebugBridge

/-! ## What the debugger may do -/

/-- What was reported of the end of something before there is supervision. -/
structure Announced (setup : Setup) (farewells : List DebugEvent) : Prop where
  processes : farewells.countP DebugEvent.isProcessClose = setup.exited.toNat
  servers : farewells.countP DebugEvent.isServerClose = setup.released.toNat
  sockets : .socketClose ∉ farewells

theorem Announced.next {setup : Setup} {farewells : List DebugEvent} {request : Request}
    (announced : Announced setup farewells) (allows : setup.Allows request)
    (answer : request.Answer) :
    Announced (setup.next ⟨request, answer⟩)
      (farewells ++ (Exchange.report? ⟨request, answer⟩).toList.filter DebugEvent.isFarewell) := by
  obtain ⟨processes, servers, sockets⟩ := announced
  cases request with
  | report event =>
      cases event with
      | processClose code =>
          obtain ⟨-, -, exited⟩ := allows
          refine ⟨?_, ?_, ?_⟩
          · rw [List.countP_append, processes, exited]
            simp [Setup.next, Exchange.report?, List.filter_cons, DebugEvent.isFarewell,
              DebugEvent.isProcessClose]
          · rw [List.countP_append, servers]
            simp [Setup.next, Exchange.report?, List.filter_cons, DebugEvent.isServerClose]
          · simp [Exchange.report?, sockets, List.filter_cons]
      | serverClose =>
          obtain ⟨-, -, released⟩ := allows
          refine ⟨?_, ?_, ?_⟩
          · rw [List.countP_append, processes]
            simp [Setup.next, Exchange.report?, List.filter_cons, DebugEvent.isProcessClose]
          · rw [List.countP_append, servers, released]
            simp [Setup.next, Exchange.report?, List.filter_cons, DebugEvent.isFarewell,
              DebugEvent.isServerClose]
          · simp [Exchange.report?, sockets, List.filter_cons]
      | socketClose => exact allows.elim
      | _ =>
          refine ⟨?_, ?_, ?_⟩
          · simp [Setup.next, Exchange.report?, DebugEvent.isFarewell, DebugEvent.isProcessClose,
              processes]
          · simp [Setup.next, Exchange.report?, DebugEvent.isFarewell, DebugEvent.isServerClose,
              servers]
          · simp [Exchange.report?, DebugEvent.isFarewell, sockets]
  | _ =>
      refine ⟨?_, ?_, ?_⟩
      · simp [Setup.next, Exchange.report?, processes]
      · simp [Setup.next, Exchange.report?, servers]
      · simp [Exchange.report?, sockets]

/-- Before anything was reported of it, nothing has ended. -/
theorem Announced.eq_nil {setup : Setup} {deeds : List Deed}
    (announced : Announced setup (farewellsIn deeds)) (running : setup.exited = false)
    (listening : setup.released = false) : farewellsIn deeds = [] := by
  obtain ⟨processes, servers, sockets⟩ := announced
  rw [running] at processes
  rw [listening] at servers
  refine List.eq_nil_iff_forall_not_mem.2 fun event member => ?_
  have farewell : event.isFarewell = true := (List.mem_filter.1 member).2
  have process := List.countP_eq_zero.1 processes event member
  have server := List.countP_eq_zero.1 servers event member
  cases event with
  | processClose code => exact process rfl
  | serverClose => exact server rfl
  | socketClose => exact sockets member
  | _ => cases farewell

/-- Once there is supervision, the debugger sets nothing up and reports the end of nothing. -/
theorem Setup.next_of_supervised {setup : Setup} {request : Request}
    (supervised : setup.supervised = true) (allows : setup.Allows request)
    (answer : request.Answer) :
    setup.next ⟨request, answer⟩ =
      { setup with awaited := setup.awaited || Exchange.awaits ⟨request, answer⟩ } ∧
    (Exchange.report? ⟨request, answer⟩).toList.filter DebugEvent.isFarewell = [] := by
  obtain ⟨listening, started, connected, greeted, _, awaited, exited, released, gaveUp⟩ := setup
  cases supervised
  cases request with
  | report event =>
      cases event <;> simp_all [Setup.next, Setup.Allows, Exchange.report?, Exchange.listens,
        Exchange.starts, Exchange.connects, Exchange.greets, Exchange.supervises, Exchange.awaits,
        Exchange.kills, DebugEvent.isFarewell, DebugEvent.isProcessClose,
        DebugEvent.isServerClose]
  | _ => simp_all [Setup.next, Setup.Allows, Exchange.report?, Exchange.listens,
        Exchange.starts, Exchange.connects, Exchange.greets, Exchange.supervises, Exchange.awaits,
        Exchange.kills]

/-! ## What supervision does in the end -/

/-- What is reported when a session has ended. -/
def farewell (launched letGo listening : Bool) (code : Option Int) : List DebugEvent :=
  (if launched && !letGo then [.processClose code] else []) ++
    .socketClose :: if listening then [.serverClose] else []

/-- How far supervision has got when the session has ended. -/
structure Parting where
  /-- Whether the script was let go, once it has looked. -/
  look : Option Bool
  /-- What it has reported. -/
  reports : List DebugEvent

namespace Parting

/-- How far it has got after an exchange. -/
def next (parting : Parting) : Exchange → Parting
  | ⟨.isLetGo, letGo⟩ => { parting with look := some letGo }
  | ⟨.report event, _⟩ => { parting with reports := parting.reports ++ [event] }
  | _ => parting

/-- Whether a request is one that supervision makes when the session has ended. -/
def Allows (parting : Parting) : Request → Prop
  | .isLetGo => parting.look = none
  | .report event => event.isFarewell = true
  | .awaitExit _ | .kill => True
  | _ => False

/-- The rule that it makes no others. -/
def conduct : Conduct Parting where
  allows := Allows
  next := next

/-- Everything has been reported, and where there is a process supervision has looked if the script
was let go. -/
structure Complete (launched listening : Bool) (parting : Parting) : Prop where
  looked : launched = true → parting.look.isSome = true
  reports : ∃ code,
    parting.reports = farewell launched (parting.look.getD false) listening code

theorem obeys_ending (launched listening : Bool) :
    (Supervision.ending launched listening).Obeys conduct
      (fun _ parting => parting.Complete launched listening) ⟨none, []⟩ := by
  have rest (parting : Parting) (listening : Bool) (code : Option Int)
      (looked : launched = true → parting.look.isSome = true)
      (reports : parting.reports =
        if launched && !parting.look.getD false then [.processClose code] else []) :
      Talk.Obeys conduct (fun _ parting => parting.Complete launched listening)
        (do
          Supervision.report .socketClose
          if listening then Supervision.report .serverClose : Talk Unit) parting := by
    refine ⟨rfl, fun _ => ?_⟩
    cases listening with
    | false =>
        refine ⟨looked, code, ?_⟩
        show parting.reports ++ [.socketClose] = _
        rw [reports]
        rfl
    | true =>
        refine ⟨rfl, fun _ => ⟨looked, code, ?_⟩⟩
        show parting.reports ++ [.socketClose] ++ [.serverClose] = _
        rw [reports, List.append_assoc]
        rfl
  cases launched with
  | false => exact rest _ _ none nofun rfl
  | true =>
      refine ⟨rfl, fun (letGo : Bool) => ?_⟩
      cases letGo with
      | true => exact rest ⟨some true, []⟩ _ none (fun _ => rfl) rfl
      | false =>
          refine ⟨trivial, fun (code : Option (Option Int)) => ?_⟩
          cases code with
          | some code =>
              exact ⟨rfl, fun _ =>
                rest ⟨some false, [.processClose code]⟩ _ code (fun _ => rfl) rfl⟩
          | none =>
              refine ⟨trivial, fun _ => ⟨trivial, fun (code : Option (Option Int)) => ?_⟩⟩
              exact ⟨rfl, fun _ =>
                rest ⟨some false, [.processClose (code.getD none)]⟩ _ _ (fun _ => rfl) rfl⟩

end Parting

namespace Ensemble

/-! ## How the parts go together -/

/-- A greeting was taken, after it `taken` in order, and the rest waits. -/
def Greeted (delivered taken queue : List SessionEvent) : Prop :=
  ∃ front packet, delivered = front ++ .init packet :: (taken ++ queue) ∧
    ∀ event ∈ front, event.isInit = false

/-- The session is supervised, and supervision knows what was set up. -/
structure Employed (setup : Setup) (launched listening : Bool) : Prop where
  supervised : setup.supervised = true
  started : setup.started = launched
  listens : setup.listening = listening

/-- What supervision has come to. -/
inductive Attended (deeds : List Deed) (delivered queue : List SessionEvent) : Supervisor → Prop
  /-- There is none yet, and nobody but the debugger reports the end of anything. -/
  | absent (alone : (setupAfter deeds).supervised = false)
      (ungreeted : (setupAfter deeds).greeted = false → ∃ dropped,
        delivered = dropped ++ queue ∧ ∀ event ∈ dropped, event.isInit = false)
      (greeted : (setupAfter deeds).greeted = true → Greeted delivered [] queue)
      (announced : Announced (setupAfter deeds) (farewellsIn deeds))
      (silent : forwardedIn deeds = []) (unseen : Unseen deeds) :
      Attended deeds delivered queue .absent
  /-- It has reported what was taken, and the end of nothing has been reported. -/
  | watching {launched listening : Bool} {taken : List SessionEvent}
      (employed : Employed (setupAfter deeds) launched listening)
      (greeted : Greeted delivered taken queue) (goesOn : .closed ∉ taken)
      (silent : farewellsIn deeds = [])
      (forwarded : forwardedIn deeds = taken.flatMap Supervision.reports)
      (unseen : Unseen deeds) : Attended deeds delivered queue (.watching launched listening)
  /-- Then it has taken the end, and nobody else reports the end of anything. -/
  | ending {launched listening : Bool} {taken : List SessionEvent} {talk : Talk Unit}
      {parting : Parting} (employed : Employed (setupAfter deeds) launched listening)
      (greeted : Greeted delivered (taken ++ [.closed]) queue) (goesOn : .closed ∉ taken)
      (parts : talk.Obeys Parting.conduct
        (fun _ parting => parting.Complete launched listening) parting)
      (farewells : farewellsIn deeds = parting.reports)
      (forwarded : forwardedIn deeds = taken.flatMap Supervision.reports ++ parting.reports)
      (unseen : parting.look = none → Unseen deeds)
      (seen : ∀ letGo, parting.look = some letGo → Seen deeds letGo) :
      Attended deeds delivered queue (.ending talk)

/-- An ensemble is in order. -/
structure Orderly (ensemble : Ensemble) : Prop where
  main : ensemble.main.Obeys Setup.conduct
    (fun entry setup => Debugger.Sound (fun _ => True) entry.2 setup) (setupAfter ensemble.deeds)
  session : ∃ inputs, ensemble.session = (Session.initial.run inputs).1 ∧
    ensemble.delivered = (Session.initial.run inputs).2.filterMap Effect.event?
  attended : Attended ensemble.deeds ensemble.delivered ensemble.queue ensemble.supervisor
  awaited (awaited : (setupAfter ensemble.deeds).awaited = true) :
    ensemble.supervisor = .ending (.done ())

theorem orderly_initial (config : DebugConfig) (host : Host) : Orderly (initial config host) where
  main := Debugger.sound_new config host
  session := ⟨[], rfl, rfl⟩
  attended := .absent rfl (fun _ => ⟨[], rfl, List.forall_mem_nil _⟩) nofun
    ⟨rfl, rfl, List.not_mem_nil⟩ rfl (List.forall_mem_nil _)
  awaited := nofun

/-! ## The debugger goes on -/

theorem employed_next {setup : Setup} {launched listening : Bool} {request : Request}
    (employed : Employed setup launched listening) (allows : setup.Allows request)
    (answer : request.Answer) : Employed (setup.next ⟨request, answer⟩) launched listening := by
  rw [(Setup.next_of_supervised employed.supervised allows answer).1]
  exact ⟨employed.supervised, employed.started, employed.listens⟩

/-- Where there is supervision, nothing but what the debugger knows becomes of its requests. -/
theorem same_of_supervised {ensemble after : Ensemble} {request : Request}
    {answer : request.Answer} {setup : Setup} (supervised : setup.supervised = true)
    (allows : setup.Allows request) (answers : Answers ensemble ⟨request, answer⟩ after) :
    after = ensemble := by
  cases answers with
  | greeted | ungreeted => cases supervised.symm.trans allows.2
  | supervised => cases supervised.symm.trans allows.2.1
  | looked | awaited | foreign => rfl

/-- How things stand before there is supervision: nobody but the debugger reports the end of
anything, and the greeting is the first that was taken. -/
structure Alone (deeds : List Deed) (delivered queue : List SessionEvent) : Prop where
  unsupervised : (setupAfter deeds).supervised = false
  ungreeted : (setupAfter deeds).greeted = false → ∃ dropped,
    delivered = dropped ++ queue ∧ ∀ event ∈ dropped, event.isInit = false
  greeted : (setupAfter deeds).greeted = true → Greeted delivered [] queue
  announced : Announced (setupAfter deeds) (farewellsIn deeds)
  silent : forwardedIn deeds = []
  unseen : Unseen deeds

section Alone

variable {deeds : List Deed} {delivered queue later rest : List SessionEvent} {request : Request}
  {answer : request.Answer}

theorem Alone.attended (alone : Alone deeds delivered queue) :
    Attended deeds delivered queue .absent :=
  .absent alone.unsupervised alone.ungreeted alone.greeted alone.announced alone.silent
    alone.unseen

/-- A request that brings about no supervision leaves the debugger alone, with the greeting or
without. -/
theorem Alone.asked (alone : Alone deeds delivered queue)
    (allows : (setupAfter deeds).Allows request)
    (apart : Exchange.supervises ⟨request, answer⟩ = false)
    (ungreeted : (setupAfter deeds).greeted = false → Exchange.greets ⟨request, answer⟩ = false →
      ∃ dropped, later = dropped ++ rest ∧ ∀ event ∈ dropped, event.isInit = false)
    (greeted : (setupAfter deeds).greeted = true ∨ Exchange.greets ⟨request, answer⟩ = true →
      Greeted later [] rest) :
    Alone (deeds ++ [.asked ⟨request, answer⟩]) later rest where
  unsupervised := by simp [Setup.next, alone.unsupervised, apart]
  ungreeted none := by
    obtain ⟨before, nothing⟩ : (setupAfter deeds).greeted = false ∧
        Exchange.greets ⟨request, answer⟩ = false := by simpa [Setup.next] using none
    exact ungreeted before nothing
  greeted some := greeted (by simpa [Setup.next] using some)
  announced := by
    rw [setupAfter_asked, farewellsIn_asked]
    exact alone.announced.next allows answer
  silent := by rw [forwardedIn_asked, alone.silent]
  unseen := alone.unseen.concat rfl

/-- Most requests neither bring about supervision nor the greeting. -/
theorem Alone.stays (alone : Alone deeds delivered queue)
    (allows : (setupAfter deeds).Allows request)
    (apart : Exchange.supervises ⟨request, answer⟩ = false)
    (nothing : Exchange.greets ⟨request, answer⟩ = false) :
    Alone (deeds ++ [.asked ⟨request, answer⟩]) delivered queue :=
  alone.asked allows apart (fun before _ => alone.ungreeted before) fun some =>
    alone.greeted (some.resolve_right (by simp [nothing]))

/-- What was dropped before the greeting is followed by what is dropped in looking for it. -/
theorem Alone.dropped {before : List SessionEvent} (alone : Alone deeds delivered (before ++ rest))
    (waiting : (setupAfter deeds).greeted = false)
    (plain : ∀ event ∈ before, event.isInit = false) :
    ∃ dropped, delivered = dropped ++ rest ∧ ∀ event ∈ dropped, event.isInit = false := by
  obtain ⟨dropped, rfl, others⟩ := alone.ungreeted waiting
  exact ⟨dropped ++ before, (List.append_assoc ..).symm, List.forall_mem_append.2 ⟨others, plain⟩⟩

/-- Supervision starts out with nothing taken after the greeting. -/
theorem Alone.supervised {launched listening : Bool} {answer : Request.Answer _}
    (alone : Alone deeds delivered queue)
    (allows : (setupAfter deeds).Allows (.supervise launched listening)) :
    Attended (deeds ++ [.asked ⟨.supervise launched listening, answer⟩]) delivered queue
      (.watching launched listening) := by
  obtain ⟨met, -, running, quiet, started, listens⟩ := allows
  have nothing := alone.announced.eq_nil running quiet
  refine .watching ⟨?_, ?_, ?_⟩ (alone.greeted met) List.not_mem_nil ?_ ?_
    (alone.unseen.concat rfl)
  · simp [Setup.next, Exchange.supervises]
  · simp [Setup.next, Exchange.starts, started]
  · simp [Setup.next, Exchange.listens, listens]
  · simp [nothing, Exchange.report?]
  · rw [forwardedIn_asked, alone.silent]
    rfl

end Alone

/-- Before there is supervision, a request may bring it about, or the greeting. -/
theorem attended_asked_alone {ensemble after : Ensemble} {request : Request}
    {answer : request.Answer} (absent : ensemble.supervisor = .absent)
    (alone : Alone ensemble.deeds ensemble.delivered ensemble.queue)
    (allows : (setupAfter ensemble.deeds).Allows request)
    (answers : Answers ensemble ⟨request, answer⟩ after) :
    Attended (ensemble.deeds ++ [.asked ⟨request, answer⟩]) after.delivered after.queue
      after.supervisor := by
  cases answers with
  | @greeted limit packet before rest taken first =>
      rw [taken] at alone
      rw [absent]
      refine (alone.asked allows rfl (fun _ none => by cases none) fun _ => ?_).attended
      obtain ⟨dropped, delivered, plain⟩ := alone.ungreeted allows.1
      refine ⟨dropped ++ before, packet, ?_, List.forall_mem_append.2 ⟨plain, first⟩⟩
      rw [delivered, List.append_assoc]
      rfl
  | @ungreeted limit greeting before rest none taken first =>
      have nothing : Exchange.greets ⟨.awaitInit limit, greeting⟩ = false := by
        cases greeting with
        | init packet => exact absurd rfl (none packet)
        | failed | timedOut => rfl
      rw [taken] at alone
      rw [absent]
      refine (alone.asked allows rfl (fun waiting _ => alone.dropped waiting first)
        fun some => ?_).attended
      simp [nothing, allows.1] at some
  | supervised => exact alone.supervised allows
  | looked =>
      rw [absent]
      exact (alone.stays allows rfl rfl).attended
  | awaited =>
      rw [absent]
      exact (alone.stays allows rfl rfl).attended
  | foreign foreign =>
      rw [absent]
      refine (alone.stays allows ?_ ?_).attended
      · cases request <;> first | rfl | cases foreign
      · cases request <;> first | rfl | cases foreign

theorem attended_asked {ensemble after : Ensemble} {request : Request} {answer : request.Answer}
    (attended : Attended ensemble.deeds ensemble.delivered ensemble.queue ensemble.supervisor)
    (allows : (setupAfter ensemble.deeds).Allows request)
    (answers : Answers ensemble ⟨request, answer⟩ after) :
    Attended (ensemble.deeds ++ [.asked ⟨request, answer⟩]) after.delivered after.queue
      after.supervisor := by
  obtain ⟨main, session, delivered, queue, supervisor, deeds⟩ := ensemble
  have unseen (unseen : Unseen deeds) : Unseen (deeds ++ [.asked ⟨request, answer⟩]) :=
    unseen.concat rfl
  cases attended with
  | absent alone ungreeted greeted announced silent unlooked =>
      exact attended_asked_alone rfl ⟨alone, ungreeted, greeted, announced, silent, unlooked⟩ allows
        answers
  | watching employed greeted goesOn silent forwarded unlooked =>
      obtain rfl := same_of_supervised employed.supervised allows answers
      have quiet := (Setup.next_of_supervised employed.supervised allows answer).2
      refine .watching ?_ greeted goesOn ?_ ?_ (unseen unlooked)
      · rw [setupAfter_asked]
        exact employed_next employed allows answer
      · rw [farewellsIn_asked, quiet, silent]
        rfl
      · rw [forwardedIn_asked, forwarded]
  | ending employed greeted goesOn parts farewells forwarded unlooked seen =>
      obtain rfl := same_of_supervised employed.supervised allows answers
      have quiet := (Setup.next_of_supervised employed.supervised allows answer).2
      refine .ending ?_ greeted goesOn parts ?_ ?_ (fun none => unseen (unlooked none))
        fun letGo some => (seen letGo some).concat _
      · rw [setupAfter_asked]
        exact employed_next employed allows answer
      · rw [farewellsIn_asked, quiet, farewells, List.append_nil]
      · rw [forwardedIn_asked, forwarded]

variable {ensemble after : Ensemble} {answers : (request : Request) → request.Answer}

/-- The end of the session is waited for only where supervision is over. -/
theorem over_of_awaits {request : Request} {answer : request.Answer}
    (awaits : Exchange.awaits ⟨request, answer⟩ = true)
    (given : Answers ensemble ⟨request, answer⟩ after) : ensemble.supervisor.isBusy = false := by
  cases given with
  | awaited ended => exact ended
  | greeted | ungreeted | supervised | looked => cases awaits
  | @foreign request _ foreign =>
      cases request with
      | awaitEnd => cases foreign
      | _ => cases awaits

/-- Whoever waits for the end of a supervised session goes on when it has been reported. -/
theorem awaited_asked {request : Request} {answer : request.Answer} (orderly : Orderly ensemble)
    (allows : (setupAfter ensemble.deeds).Allows request)
    (given : Answers ensemble ⟨request, answer⟩ after)
    (waited : ((setupAfter ensemble.deeds).next ⟨request, answer⟩).awaited = true) :
    after.supervisor = .ending (.done ()) := by
  have watched : ensemble.supervisor = .ending (.done ()) ∧
      (setupAfter ensemble.deeds).supervised = true := by
    have attended := orderly.attended
    rcases Bool.or_eq_true_iff.1 waited with already | awaits
    · have ended := orderly.awaited already
      rw [ended] at attended
      cases attended with
      | ending employed => exact ⟨ended, employed.supervised⟩
    · obtain ⟨awaits, supervised⟩ := Bool.and_eq_true_iff.1 awaits
      refine ⟨?_, supervised⟩
      have ended := over_of_awaits awaits given
      revert attended ended
      cases ensemble.supervisor with
      | absent =>
          intro attended
          cases attended with
          | absent alone => cases alone.symm.trans supervised
      | watching => exact fun _ busy => by cases busy
      | ending talk =>
          cases talk with
          | done => exact fun _ _ => rfl
          | call | stuck => exact fun _ busy => by cases busy
  rw [same_of_supervised watched.2 allows given]
  exact watched.1

theorem Orderly.ask (orderly : Orderly ensemble) (move : ensemble.ask? answers = some after) :
    Orderly after := by
  unfold ask? at move
  split at move
  · next request next main =>
      obtain ⟨⟨answer, later⟩, given, rfl⟩ := Option.map_eq_some_iff.1 move
      have given := answers_of_answer? given
      have obeys := orderly.main
      rw [main] at obeys
      obtain ⟨allows, obeys⟩ := obeys
      obtain ⟨inputs, session, delivered⟩ := orderly.session
      have attended := attended_asked orderly.attended allows given
      refine ⟨?_, ⟨inputs, ?_, ?_⟩, attended, fun waited => ?_⟩
      · rw [setupAfter_asked]
        exact obeys answer
      · rw [← session]
        cases given <;> rfl
      · rw [← delivered]
        cases given <;> rfl
      · rw [setupAfter_asked] at waited
        have ended := awaited_asked orderly allows given waited
        exact ended
  · cases move

/-! ## Supervision goes on -/

/-- What is reported of an event, as long as it is not the end. -/
def forward (deeds : List Deed) (event : SessionEvent) : List Deed :=
  deeds ++ (Supervision.reports event).map fun event => .watched ⟨.report event, ()⟩

theorem forward_spec (deeds : List Deed) (event : SessionEvent) :
    setupAfter (forward deeds event) = setupAfter deeds ∧
      farewellsIn (forward deeds event) = farewellsIn deeds ∧
      forwardedIn (forward deeds event) = forwardedIn deeds ++ Supervision.reports event ∧
      (Unseen deeds → Unseen (forward deeds event)) := by
  have one (event : DebugEvent) (plain : event.isFarewell = false) :
      setupAfter (deeds ++ [.watched ⟨.report event, ()⟩]) = setupAfter deeds ∧
        farewellsIn (deeds ++ [.watched ⟨.report event, ()⟩]) = farewellsIn deeds ∧
        forwardedIn (deeds ++ [.watched ⟨.report event, ()⟩]) = forwardedIn deeds ++ [event] ∧
        (Unseen deeds → Unseen (deeds ++ [.watched ⟨.report event, ()⟩])) :=
    ⟨by simp, by simp [Exchange.report?, plain], by simp [Exchange.report?],
      fun unseen => unseen.concat rfl⟩
  unfold forward
  cases event with
  | stream packet =>
      cases kind : packet.kind <;> simp only [Supervision.reports, kind]
      · exact one _ rfl
      · exact one _ rfl
  | fault error => exact one _ rfl
  | notify | init | closed => simp [Supervision.reports]

/-- Supervision takes the next event. -/
theorem Greeted.concat {delivered taken rest : List SessionEvent} {event : SessionEvent}
    (greeted : Greeted delivered taken (event :: rest)) :
    Greeted delivered (taken ++ [event]) rest := by
  obtain ⟨front, packet, eq, first⟩ := greeted
  exact ⟨front, packet, by rw [eq, List.append_assoc]; rfl, first⟩

/-- A request of supervision is answered once the session has ended. -/
theorem attended_watched {delivered queue : List SessionEvent} {request : Request}
    {answer : request.Answer} {next : request.Answer → Talk Unit}
    (attended : Attended ensemble.deeds delivered queue (.ending (.call request next)))
    (given : Answers ensemble ⟨request, answer⟩ after) :
    after = ensemble ∧
      Attended (ensemble.deeds ++ [.watched ⟨request, answer⟩]) delivered queue
        (.ending (next answer)) := by
  cases attended with
  | @ending launched listening taken _ parting employed greeted goesOn parts farewells forwarded
      unseen seen =>
      obtain ⟨allows, parts⟩ := parts
      have parts := parts answer
      rw [← setupAfter_watched ensemble.deeds ⟨request, answer⟩] at employed
      have quiet (silent : Exchange.report? ⟨request, answer⟩ = none)
          (same : parting.next ⟨request, answer⟩ = parting)
          (blind : Deed.looks (.watched ⟨request, answer⟩) = false) :
          Attended (ensemble.deeds ++ [.watched ⟨request, answer⟩]) delivered queue
            (.ending (next answer)) := by
        rw [show Parting.conduct.next parting ⟨request, answer⟩ = parting from same] at parts
        refine .ending employed greeted goesOn parts ?_ ?_
          (fun none => (unseen none).concat blind) fun letGo some => (seen letGo some).concat _
        · rw [farewellsIn_watched, silent, farewells]
          exact List.append_nil _
        · rw [forwardedIn_watched, silent, forwarded]
          exact List.append_nil _
      cases request with
      | isLetGo =>
          cases given with
          | foreign foreign => cases foreign
          | looked =>
          have unseen := unseen allows
          refine ⟨rfl, .ending employed greeted goesOn parts ?_ ?_ nofun fun letGo same => ?_⟩
          · rw [farewellsIn_watched, farewells]
            exact List.append_nil _
          · rw [forwardedIn_watched, forwarded]
            exact List.append_nil _
          · cases same
            exact unseen.looked
      | report event =>
          cases given with
          | foreign =>
          have farewell : event.isFarewell = true := allows
          refine ⟨rfl, .ending employed greeted goesOn parts ?_ ?_
            (fun none => (unseen none).concat rfl) fun letGo some => (seen letGo some).concat _⟩
          · rw [farewellsIn_watched, farewells]
            simp [Exchange.report?, farewell, Parting.conduct, Parting.next]
          · rw [forwardedIn_watched, forwarded, List.append_assoc]
            rfl
      | awaitExit limit =>
          cases given with
          | foreign => exact ⟨rfl, quiet rfl rfl rfl⟩
      | kill =>
          cases given with
          | foreign => exact ⟨rfl, quiet rfl rfl rfl⟩
      | _ => exact allows.elim

theorem Orderly.watch (orderly : Orderly ensemble) (move : ensemble.watch? answers = some after) :
    Orderly after := by
  obtain ⟨main, ⟨inputs, session, delivered⟩, attended, awaited⟩ := orderly
  unfold watch? at move
  split at move
  · next launched listening rest supervisor queue =>
      cases move
      rw [supervisor, queue] at attended
      cases attended with
      | watching employed greeted goesOn silent forwarded unseen =>
      refine ⟨main, ⟨inputs, session, delivered⟩, ?_, fun waited => ?_⟩
      · exact .ending employed greeted.concat goesOn (Parting.obeys_ending launched listening)
          silent (forwarded.trans (List.append_nil _).symm) (fun _ => unseen) nofun
      · cases supervisor.symm.trans (awaited waited)
  · next launched listening event rest goesOn supervisor queue =>
      cases move
      rw [supervisor, queue] at attended
      obtain ⟨setup, farewells, forwards, blind⟩ := forward_spec ensemble.deeds event
      cases attended with
      | @watching _ _ taken employed greeted unended silent forwarded unseen =>
      refine ⟨?_, ⟨inputs, session, delivered⟩, ?_, fun waited => ?_⟩
      · show ensemble.main.Obeys _ _ (setupAfter (forward ensemble.deeds event))
        rw [setup]
        exact main
      · show Attended (forward ensemble.deeds event) _ _ ensemble.supervisor
        rw [supervisor]
        refine .watching ?_ greeted.concat ?_ ?_ ?_ (blind unseen)
        · rw [setup]
          exact employed
        · intro member
          rcases List.mem_append.1 member with before | new
          · exact unended before
          · exact goesOn (List.mem_singleton.1 new).symm
        · rw [farewells, silent]
        · rw [forwards, forwarded, List.flatMap_append, List.flatMap_singleton]
      · have waited : (setupAfter (forward ensemble.deeds event)).awaited = true := waited
        rw [setup] at waited
        cases supervisor.symm.trans (awaited waited)
  · next request next _ supervisor =>
      obtain ⟨⟨answer, later⟩, given, rfl⟩ := Option.map_eq_some_iff.1 move
      rw [supervisor] at attended
      obtain ⟨rfl, attended⟩ := attended_watched attended (answers_of_answer? given)
      refine ⟨?_, ⟨inputs, session, delivered⟩, attended, fun waited => ?_⟩
      · rw [setupAfter_watched]
        exact main
      · rw [setupAfter_watched] at waited
        cases supervisor.symm.trans (awaited waited)
  · cases move

/-! ## The rest of the world -/

/-- More events of the session wait to be taken. -/
theorem Attended.append {deeds : List Deed} {delivered queue : List SessionEvent}
    {supervisor : Supervisor} (attended : Attended deeds delivered queue supervisor)
    (events : List SessionEvent) :
    Attended deeds (delivered ++ events) (queue ++ events) supervisor := by
  have more {taken : List SessionEvent} (greeted : Greeted delivered taken queue) :
      Greeted (delivered ++ events) taken (queue ++ events) := by
    obtain ⟨front, packet, rfl, first⟩ := greeted
    exact ⟨front, packet, by simp, first⟩
  cases attended with
  | absent alone ungreeted greeted announced silent unseen =>
      refine .absent alone (fun none => ?_) (fun some => more (greeted some)) announced silent
        unseen
      obtain ⟨dropped, rfl, plain⟩ := ungreeted none
      exact ⟨dropped, List.append_assoc _ _ _, plain⟩
  | watching employed greeted goesOn silent forwarded unseen =>
      exact .watching employed (more greeted) goesOn silent forwarded unseen
  | ending employed greeted goesOn parts farewells forwarded unseen seen =>
      exact .ending employed (more greeted) goesOn parts farewells forwarded unseen seen

theorem Orderly.feed (orderly : Orderly ensemble) (input : Input) :
    Orderly (ensemble.feed input) where
  main := orderly.main
  session := by
    obtain ⟨inputs, session, delivered⟩ := orderly.session
    refine ⟨inputs ++ [input], ?_, ?_⟩
    · rw [Session.run_append, ← session]
      rfl
    · show ensemble.delivered ++ (ensemble.session.step input).2.filterMap Effect.event? = _
      rw [Session.run_append, ← session, delivered, ← List.filterMap_append]
      exact congrArg _ (congrArg _ (List.append_nil _).symm)
  attended := orderly.attended.append _
  awaited := orderly.awaited

/-- What the interpreter prints is no report of an end. -/
theorem Attended.printed {deeds : List Deed} {delivered queue : List SessionEvent}
    {supervisor : Supervisor} (attended : Attended deeds delivered queue supervisor)
    (line : Nat × Bool × String) :
    Attended (deeds ++ [.printed line]) delivered queue supervisor := by
  cases attended with
  | absent alone ungreeted greeted announced silent unseen =>
      refine .absent ?_ ?_ ?_ ?_ ?_ (unseen.concat rfl)
      all_goals simpa
  | watching employed greeted goesOn silent forwarded unseen =>
      refine .watching ?_ greeted goesOn ?_ ?_ (unseen.concat rfl)
      all_goals simpa
  | ending employed greeted goesOn parts farewells forwarded unseen seen =>
      refine .ending ?_ greeted goesOn parts ?_ ?_ (fun none => (unseen none).concat rfl)
        fun letGo some => (seen letGo some).concat _
      all_goals simpa

theorem Orderly.print (orderly : Orderly ensemble) (line : Nat × Bool × String) :
    Orderly { ensemble with deeds := ensemble.deeds ++ [.printed line] } where
  main := by
    rw [setupAfter_printed]
    exact orderly.main
  session := orderly.session
  attended := orderly.attended.printed line
  awaited waited := orderly.awaited (by rwa [setupAfter_printed] at waited)

/-- Whatever happens next, an ensemble stays in order. -/
theorem Orderly.move (orderly : Orderly ensemble) {move : Move}
    (moves : ensemble.move? move = some after) : Orderly after := by
  cases move with
  | call call =>
      simp only [move?] at moves
      split at moves
      · next result debugger rests =>
          cases moves
          have sound := orderly.main
          rw [rests] at sound
          have abides : Operation.Abides Setup.conduct (Debugger.Sound fun _ => True)
              call.operation :=
            Debugger.abides_operation call ⟨fun _ _ => trivial, fun _ _ => trivial⟩
              (fun _ _ _ _ => trivial) fun _ _ => trivial
          exact ⟨abides debugger _ sound, orderly.session, orderly.attended, orderly.awaited⟩
      · cases moves
  | ask answers => exact orderly.ask moves
  | watch answers => exact orderly.watch moves
  | feed input =>
      cases moves
      exact orderly.feed input
  | print line =>
      cases moves
      exact orderly.print line

/-- Whatever happens. -/
theorem Orderly.perform (orderly : Orderly ensemble) {moves : List Move}
    (run : ensemble.perform moves = some after) : Orderly after := by
  induction moves generalizing ensemble with
  | nil =>
      cases run
      exact orderly
  | cons move rest ih =>
      obtain ⟨next, moves, run⟩ := Option.bind_eq_some_iff.1 run
      exact ih (orderly.move moves) run

end Ensemble

end DebugBridge
