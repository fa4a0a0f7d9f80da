import DebugBridge.Proofs.Debugger.Interplay
import DebugBridge.Proofs.Debugger.Resumption
import DebugBridge.Proofs.Debugger.Seeding

/-!
# Breaking into a script that goes on

While a debugger waits for its script to stop, others may break into it, and the engine may answer
them before it reports the stop.  The debugger does not take notice of that: it looks at the place
where the script has stopped, and lets it go on from there if it finds logpoints and nothing else.
Everywhere else the script has stopped for good.
-/

namespace DebugBridge

/-- Whether the script goes on from a place by itself: no exception was raised, and there are
logpoints and no other breakpoints. -/
def BreakpointTable.goesOn (table : BreakpointTable) (response : Response)
    (place : Option (String × Nat)) : Bool :=
  !response.tellsException && !(table.atPlace place).isEmpty &&
    (table.atPlace place).all fun breakpoint => breakpoint.kind.logMessage?.isSome

/-! ## From stop to stop -/

/-- How far a script has got that goes on. -/
inductive Progress where
  /-- It goes on, or is about to. -/
  | going
  /-- It has stopped, and nobody has asked where. -/
  | stopped (response : Response)
  /-- It has stopped for good, in a state if one was told. -/
  | halted (state? : Option RunState)

namespace Progress

/-- How far it has got after an exchange. -/
def next (table : BreakpointTable) : Progress → Exchange → Progress
  | .going, ⟨.submit command none, answer⟩ =>
    if command.name = Continuation.continue.commandName then
      match answer with
      | .ok response =>
        if response.status? = some .break then .stopped response else .halted response.status?
      | .error _ => .halted none
    else .going
  | .stopped response, ⟨.submit _ none, answer⟩ =>
    if table.goesOn response (Link.placeOf answer) then .going else .halted (some .break)
  | progress, _ => progress

/-- Whether a request is made. -/
def Allows : Progress → Request → Prop
  | .going, _ => True
  | .stopped _, request => request = .submit Link.placeCommand none
  | .halted _, request => request.isQuiet = true

/-- The rule that a script which has stopped for good does not go on. -/
def conduct (table : BreakpointTable) : Conduct Progress where
  allows := Allows
  next := next table
  lasts progress := progress = .going

/-- What is returned of a script that goes on, and of one that has stopped for good. -/
def Returns (result : Except DebugError ExecutionStatus) : Progress → Prop
  | .going => True
  | .stopped _ => False
  | .halted state? => ∀ status, result = .ok status → state? = some status.state

/-- A script that goes on is not stopped by what lets it stay where it is. -/
theorem next_going_of_isQuiet {table : BreakpointTable} {request : Request}
    (quiet : request.isQuiet = true) (answer : request.Answer) :
    next table .going ⟨request, answer⟩ = .going := by
  cases request with
  | submit command limit =>
      cases limit with
      | some limit => rfl
      | none =>
          have other : command.name ∉ Continuation.movingNames := by
            simpa [Request.isQuiet] using quiet
          refine if_neg fun same => other ?_
          rw [same]
          decide
  | _ => rfl

theorem returns_error {error : DebugError} {progress : Progress}
    (settled : ∀ response, progress ≠ .stopped response) : Returns (.error error) progress := by
  cases progress with
  | going => trivial
  | stopped response => exact absurd rfl (settled response)
  | halted state? => rintro _ ⟨⟩

end Progress

namespace Link

open Operation

variable {table : BreakpointTable} {link : Link} {response : Response}

/-- A command and what is made of the answer to it. -/
theorem obeys_attempt {σ π : Type} {conduct : Conduct π} {state : σ} {point : π}
    {command : Command}
    {post : Except DebugError (Except EngineError Response) → σ → π → Prop} :
    (attempt command).Obeys conduct state point post ↔
      conduct.allows point (.submit command none) ∧ ∀ answer : Except SessionError Response,
        post (heard answer) state (conduct.next point ⟨.submit command none, answer⟩) := by
  refine obeys_ask_bind.trans (and_congr_right fun _ => forall_congr' fun answer => ?_)
  rcases answer with (error | response)
  · cases error <;> rfl
  · rfl

/-- What is found where the script has stopped decides whether it goes on by itself. -/
theorem Finds.goesOn_eq {state : RunState} {place : Option (String × Nat)} {stop : Stop}
    (finds : Finds table response state (response.reason?.getD .ok) place stop) :
    (!stop.isException && !stop.messages.isEmpty && stop.hits.isEmpty) =
      table.goesOn response place := by
  rw [finds.exception, finds.messages, finds.hits, BreakpointTable.goesOn,
    Response.tellsException, BreakpointTable.blamed, Bool.and_assoc, Bool.and_assoc]
  refine congrArg _ ?_
  generalize table.atPlace place = found
  rw [Bool.eq_iff_iff]
  simp only [Bool.and_eq_true, Bool.not_eq_true', List.isEmpty_eq_false_iff, List.isEmpty_iff,
    List.all_eq_true, List.filter_eq_nil_iff, ne_eq, List.filterMap_eq_nil_iff,
    Option.isNone_iff_eq_none, ← Option.isSome_iff_ne_none]
  constructor
  · rintro ⟨some, all⟩
    refine ⟨fun none => some (by simp [none]), all⟩
  · rintro ⟨some, all⟩
    obtain ⟨first, rest, rfl⟩ := List.exists_cons_of_ne_nil some
    refine ⟨fun none => ?_, all⟩
    have logs := all first List.mem_cons_self
    rw [none first List.mem_cons_self] at logs
    cases logs

/-- Somebody asks where the script has stopped. -/
theorem obeys_topLocation? :
    topLocation?.Obeys (Progress.conduct table) link (.stopped response)
      fun result other progress => other = link ∧
        ∃ answer, (∀ place, result = .ok place → place = placeOf answer) ∧
          progress = if table.goesOn response (placeOf answer) then .going
            else .halted (some .break) := by
  refine (obeys_bind _ _).2 (obeys_attempt.2 ⟨rfl, fun answer => ?_⟩)
  rcases answer with (error | reply)
  · cases error with
    | engine refusal =>
        refine ⟨rfl, .error (.engine refusal), ?_, rfl⟩
        rintro _ ⟨⟩
        rfl
    | _ => exact ⟨rfl, .error _, nofun, rfl⟩
  · refine ⟨rfl, .ok reply, ?_, rfl⟩
    rintro _ ⟨⟩
    rfl

theorem obeys_findStop (known : link.breakpoints = table) (state : RunState) :
    (findStop response state (response.reason?.getD .ok)).Obeys (Progress.conduct table) link
      (.stopped response) fun result other progress => other = link ∧
        (∀ response, progress ≠ .stopped response) ∧
        ∀ stop, result = .ok stop → stop.status.state = state ∧
          progress = if !stop.isException && !stop.messages.isEmpty && stop.hits.isEmpty then .going
            else .halted (some .break) := by
  have settled (place : Option (String × Nat)) (other : Response) :
      (if table.goesOn response place then Progress.going else .halted (some .break)) ≠
        .stopped other := by
    split <;> nofun
  refine (obeys_bind _ _).2 (obeys_topLocation?.mono ?_)
  rintro (error | place) other progress ⟨rfl, answer, same, rfl⟩
  · refine ⟨rfl, settled _, ?_⟩
    rintro _ ⟨⟩
  refine (obeys_bind _ _).2 (obeys_get.2 ⟨rfl, settled _, ?_⟩)
  rintro stop ⟨⟩
  cases same place rfl
  refine ⟨rfl, ?_⟩
  rw [@Finds.goesOn_eq table response state (placeOf answer)]
  subst known
  cases placeOf answer <;> exact ⟨rfl, rfl, rfl, rfl, rfl, by simp⟩

/-- The breakpoints are as before, and what is returned fits how far the script has got. -/
def EndsThere (table : BreakpointTable) (result : Except DebugError ExecutionStatus) (link : Link)
    (progress : Progress) : Prop :=
  link.breakpoints = table ∧ Progress.Returns result progress

theorem obeys_forgetStop {progress : Progress} (known : link.breakpoints = table) :
    forgetStop.Obeys (Progress.conduct table) link progress fun _ other later =>
      other.breakpoints = table ∧ later = progress := ⟨known, rfl⟩

/-- Where messages are printed, the script stays. -/
theorem obeys_printMessages {progress : Progress} (messages : List String)
    (known : link.breakpoints = table) (settled : ∀ response, progress ≠ .stopped response) :
    (printMessages messages).Obeys (Progress.conduct table) link progress fun _ other later =>
      other.breakpoints = table ∧ later = progress := by
  have stays (point : Progress) (here : point = progress) (request : Request)
      (quiet : request.isQuiet = true) : (Progress.conduct table).allows point request ∧
        ∀ answer, (Progress.conduct table).next point ⟨request, answer⟩ = progress := by
    subst here
    cases point with
    | stopped response => exact absurd rfl (settled response)
    | halted state => exact ⟨quiet, fun _ => rfl⟩
    | going => exact ⟨trivial, fun answer => Progress.next_going_of_isQuiet quiet answer⟩
  have lasts (point : Progress) (_ : point = progress) (request : Request)
      (quiet : request.isQuiet = true) (resumes : request.resumes = true) :
      (Progress.conduct table).lasts point := by
    rw [Request.resumes_of_isQuiet quiet] at resumes
    cases resumes
  have prints : (printMessages messages).Quiet Link.breakpoints := quiet_printMessages messages
  refine (prints.obeys stays lasts link rfl).mono ?_
  exact fun _ _ _ kept => ⟨kept.2.trans known, kept.1⟩

/-- A script that has stopped goes on or has stopped for good. -/
theorem obeys_stopped {turns : Nat}
    (goesOn : ∀ {link : Link}, link.breakpoints = table →
      (execute .continue turns).Obeys (Progress.conduct table) link .going (EndsThere table))
    (known : link.breakpoints = table) :
    Operation.Obeys (Progress.conduct table) (do
      let stop ← findStop response .break (response.reason?.getD .ok)
      let logging := Continuation.continue == .continue && !stop.isException &&
        !stop.messages.isEmpty
      if logging then printMessages stop.messages
      if logging && stop.hits.isEmpty then execute .continue turns
      else
        modify fun link => { link with lastStop := some response }
        return { stop.status with stopReason := some (stop.reason .continue) } :
      LinkOperation ExecutionStatus) link (.stopped response) (EndsThere table) := by
  refine (obeys_bind _ _).2 ((obeys_findStop known .break).mono ?_)
  rintro (error | stop) link progress ⟨rfl, settled, found⟩
  · exact ⟨known, Progress.returns_error settled⟩
  obtain ⟨state, there⟩ := found stop rfl
  have same : (Continuation.continue == Continuation.continue) = true := rfl
  dsimp only
  rw [same, Bool.true_and]
  have rest {link : Link} (known : link.breakpoints = table) :
      Operation.Obeys (Progress.conduct table)
        (if !stop.isException && !stop.messages.isEmpty && stop.hits.isEmpty then
          execute .continue turns
        else do
          modify fun link => { link with lastStop := some response }
          return { stop.status with stopReason := some (stop.reason .continue) } :
        LinkOperation ExecutionStatus) link progress (EndsThere table) := by
    rw [there]
    split
    · exact goesOn known
    · refine (obeys_bind _ _).2 ((obeys_modify _).2 ((obeys_pure _).2 ⟨known, ?_⟩))
      rintro _ ⟨⟩
      exact congrArg some state.symm
  split
  · refine (obeys_bind _ _).2 ((obeys_printMessages _ known settled).mono ?_)
    rintro (error | _) link _ ⟨known, rfl⟩
    · exact ⟨known, Progress.returns_error settled⟩
    · exact rest known
  · exact rest known

/-- The script goes on until it stops for good. -/
theorem obeys_execute (turns : Nat) (known : link.breakpoints = table) :
    (execute .continue turns).Obeys (Progress.conduct table) link .going (EndsThere table) := by
  induction turns generalizing link with
  | zero => exact obeys_stuck.2 rfl
  | succ turns ih =>
      refine (obeys_bind _ _).2 ((obeys_forgetStop known).mono ?_)
      rintro (error | _) link progress ⟨known, rfl⟩
      · exact ⟨known, trivial⟩
      refine (obeys_bind _ _).2 ((obeys_bind _ _).2 (obeys_attempt.2 ⟨trivial, fun answer => ?_⟩))
      rcases answer with (error | response)
      · cases error <;> exact ⟨known, Progress.returns_error nofun⟩
      have told : (Progress.conduct table).next .going
          ⟨.submit (.named Continuation.continue.commandName) none, .ok response⟩ =
            if response.status? = some .break then .stopped response
            else .halted response.status? := rfl
      refine (obeys_pure _).2 ?_
      rw [told]
      dsimp only
      cases response.status? with
      | none => exact ⟨known, Progress.returns_error nofun⟩
      | some state =>
          by_cases stopped : state = .break
          · subst stopped
            exact obeys_stopped ih known
          · rw [if_neg fun same => stopped (Option.some.inj same)]
            dsimp only
            rw [if_pos (bne_iff_ne.2 stopped)]
            refine (obeys_pure _).2 ⟨known, ?_⟩
            rintro _ ⟨⟩
            rfl

end Link

namespace Debugger

open Operation

variable {debugger : Debugger} {link : Link}

/-- A debugger lets its script go on until it stops for good. -/
theorem obeys_execute (linked : debugger.link = some link) :
    (execute .continue).Obeys (Progress.conduct link.breakpoints) debugger .going
      fun result _ progress => Progress.Returns result progress := by
  have stays : Abides (Progress.conduct link.breakpoints)
      (fun after progress => after = debugger ∧ progress = .going)
      (ask .isClosed : DebuggerOperation Bool) :=
    .ask fun after progress ⟨same, going⟩ => by
      cases going
      exact ⟨trivial, fun _ => ⟨same, rfl⟩⟩
  have goes (state : RunState) : Operation.Obeys (Progress.conduct link.breakpoints) (do
      let link ← knownLink
      setPhase (.connected .running)
      try
        let status ← onLink link (Link.execute .continue turnLimit)
        setPhase (.connected status.state)
        return status
      catch error =>
        setPhase (if error.isClosed then .closed else .connected state)
        throw error : DebuggerOperation ExecutionStatus) debugger .going
      fun result _ progress => Progress.Returns result progress := by
    rw [obeys_bind, knownLink, obeys_bind, obeys_get]
    dsimp only
    rw [linked]
    refine (obeys_pure _).2 ((obeys_bind _ _).2 ((obeys_modify _).2 ?_))
    refine (obeys_bind _ _).2 ((obeys_tryCatch _ _).2 ((obeys_bind _ _).2 (obeys_onLink.2 ?_)))
    refine (Link.obeys_execute turnLimit rfl).mono ?_
    rintro (error | status) other progress ⟨-, returns⟩
    · exact (obeys_bind _ _).2 ((obeys_modify _).2 returns)
    · exact (obeys_bind _ _).2 ((obeys_modify _).2 returns)
  refine (obeys_bind _ _).2 ((abides_connectedState stays _ _ _ ⟨rfl, rfl⟩).mono ?_)
  rintro (error | state) after progress ⟨rfl, rfl⟩
  · trivial
  dsimp only
  split
  · refine (obeys_bind _ _).2 ((abides_currentPhase stays _ _ ⟨rfl, rfl⟩).mono ?_)
    rintro (error | phase) _ _ ⟨rfl, rfl⟩ <;> trivial
  · exact goes state

end Debugger

/-! ## Whoever breaks in -/

namespace Progress

variable {table : BreakpointTable} {progress : Progress} {request : Request}

theorem foldl_halted (state? : Option RunState) (exchanges : List Exchange) :
    exchanges.foldl (conduct table).next (.halted state?) = .halted state? := by
  induction exchanges with
  | nil => rfl
  | cons exchange rest ih => exact ih

/-- How far a script has got that does not go on once the command for it was answered. -/
inductive Rests : Except SessionError Response → Progress → Prop
  /-- Nobody has asked yet where it has stopped. -/
  | stopped (response : Response) : Rests (.ok response) (.stopped response)
  /-- It has stopped for good, in the state that was told. -/
  | halted (response : Response) : Rests (.ok response) (.halted response.status?)
  /-- No state was told. -/
  | failed (error : SessionError) : Rests (.error error) (.halted none)

theorem Rests.ne_going {answer : Except SessionError Response} (rests : Rests answer progress) :
    progress ≠ .going := by
  cases rests <;> nofun

/-- A script that is not going on stays where it is. -/
theorem isQuiet_of_allows (allows : progress.Allows request) (stays : progress ≠ .going) :
    request.isQuiet = true := by
  cases progress with
  | going => exact absurd rfl stays
  | stopped response =>
      cases allows
      decide
  | halted state? => exact allows

end Progress

namespace Interplay

variable {middle last : Interplay (Except DebugError ExecutionStatus × Debugger)}
  {debugger : Debugger} {link : Link} {calls : List Debugger.Call} {earlier : List Input}
  {first second : List Step}

/-- The request that lets the script go on. -/
abbrev goOn : Request := .submit (.named Continuation.continue.commandName) none

/-- What has become of a debugger that waited for its script: it stops where the script stops. -/
structure StaysStopped (middle last : Interplay (Except DebugError ExecutionStatus × Debugger)) :
    Prop where
  /-- Once something was answered, all that was asked for leaves the script where it is. -/
  quiet {answered : Exchange} {rest : List Exchange}
    (told : last.exchanges = middle.exchanges ++ answered :: rest) :
    ∀ exchange ∈ rest, exchange.request.isQuiet = true
  /-- So does all that was left with the session. -/
  left : ∃ later, last.postings = middle.postings ++ later ∧
    ∀ posting ∈ later, posting.request.isQuiet = true
  /-- No command is written any more that lets it go on. -/
  unwritten {lane : Lane} {call id : Nat} {command : Command}
    (written : .write lane call id command ∈ last.effects)
    (late : middle.session.nextCall ≤ call) :
    command.name ≠ Continuation.continue.commandName
  /-- The debugger waits as before, or is about to ask for something else of that kind, or it has
  returned the state that the engine told, or an error. -/
  returns : match last.main with
    | .call request _ => last.exchanges = middle.exchanges ∨ request.isQuiet = true
    | .done (result, _) => ∀ status, result = .ok status → ∃ response rest,
        last.exchanges = middle.exchanges ++ ⟨goOn, .ok response⟩ :: rest ∧
          response.status? = some status.state
    | .stuck => False

section

variable {next : goOn.Answer → Talk (Except DebugError ExecutionStatus × Debugger)}
  {table : BreakpointTable} {more : List Exchange} {later : List Posting}
  (pending : middle.main = .call goOn next)
  (since : Since (Progress.conduct table) (fun entry progress => Progress.Returns entry.1 progress)
    .going middle last more later)
include pending since

/-- What is answered first is the command that lets the script go on. -/
theorem eq_goOn {answered : Exchange} {rest : List Exchange} (split : more = answered :: rest) :
    ∃ answer, answered = ⟨goOn, answer⟩ := by
  obtain ⟨request, answer⟩ := answered
  obtain ⟨_, same⟩ := since.first ⟨request, answer⟩ (by rw [split]; rfl)
  cases pending.symm.trans same
  exact ⟨answer, rfl⟩

variable (stays : ∀ response place back, last.exchanges = middle.exchanges ++
  ⟨goOn, .ok response⟩ :: ⟨.submit Link.placeCommand none, place⟩ :: back →
    table.goesOn response (Link.placeOf place) = false)
include stays

/-- A script that stops where it is to stay does not go on. -/
theorem exists_rests {front : List Exchange} (within : front <+: more) (begun : front ≠ []) :
    ∃ answer inner, front = ⟨goOn, answer⟩ :: inner ∧
      Progress.Rests answer (front.foldl (Progress.conduct table).next .going) := by
  obtain ⟨answered, inner, rfl⟩ := List.exists_cons_of_ne_nil begun
  obtain ⟨rest, split⟩ := within
  obtain ⟨answer, rfl⟩ := eq_goOn pending since split.symm
  refine ⟨answer, inner, rfl, ?_⟩
  rw [List.foldl_cons]
  rcases answer with (error | response)
  · have failed : (Progress.conduct table).next .going ⟨goOn, .error error⟩ = .halted none := rfl
    rw [failed, Progress.foldl_halted]
    exact .failed error
  have told : (Progress.conduct table).next .going ⟨goOn, .ok response⟩ =
      if response.status? = some .break then .stopped response
      else .halted response.status? := rfl
  by_cases stopped : response.status? = some .break
  · rw [if_pos stopped] at told
    rw [told]
    cases inner with
    | nil => exact .stopped response
    | cons asked inner =>
        obtain ⟨request, place⟩ := asked
        have allowed := since.heard [⟨goOn, .ok response⟩] ⟨request, place⟩ ⟨inner ++ rest, split⟩
        rw [List.foldl_cons, List.foldl_nil, told] at allowed
        obtain rfl : request = .submit Link.placeCommand none := allowed
        have looked : (Progress.conduct table).next (.stopped response)
            ⟨.submit Link.placeCommand none, place⟩ =
              if table.goesOn response (Link.placeOf place) then .going
              else .halted (some .break) := rfl
        have exchanged : last.exchanges = middle.exchanges ++ ⟨goOn, .ok response⟩ ::
            ⟨.submit Link.placeCommand none, place⟩ :: (inner ++ rest) :=
          since.exchanged.trans (congrArg _ split.symm)
        rw [stays response place _ exchanged, if_neg Bool.false_ne_true, ← stopped] at looked
        rw [List.foldl_cons, looked, Progress.foldl_halted]
        exact .halted response
  · rw [if_neg stopped] at told
    rw [told, Progress.foldl_halted]
    exact .halted response

/-- Once something was answered, all that may be asked for leaves the script where it is. -/
theorem isQuiet_of_begun {front : List Exchange} {request : Request} (within : front <+: more)
    (begun : front ≠ []) (allows : (Progress.conduct table).allows
      (front.foldl (Progress.conduct table).next .going) request) : request.isQuiet = true := by
  obtain ⟨_, _, _, rests⟩ := exists_rests pending since stays within begun
  exact Progress.isQuiet_of_allows allows rests.ne_going

/-- The debugger waits, or asks for something else, or returns what was told. -/
theorem returns_told :
    match last.main with
    | .call request _ => last.exchanges = middle.exchanges ∨ request.isQuiet = true
    | .done (result, _) => ∀ status, result = .ok status → ∃ response rest,
        last.exchanges = middle.exchanges ++ ⟨goOn, .ok response⟩ :: rest ∧
          response.status? = some status.state
    | .stuck => False := by
  have holds := since.obeys
  rcases List.eq_nil_or_concat more with rfl | ⟨front, exchange, rfl⟩
  · rw [since.main rfl, pending]
    exact .inl (since.exchanged.trans (List.append_nil _))
  obtain ⟨answer, inner, split, rests⟩ := exists_rests pending since stays List.prefix_rfl (by simp)
  revert rests holds
  generalize (front.concat exchange).foldl (Progress.conduct table).next .going = progress
  intro holds rests
  cases main : last.main with
  | call request rest =>
      rw [main] at holds
      exact .inr (Progress.isQuiet_of_allows holds.1 rests.ne_going)
  | stuck =>
      rw [main] at holds
      exact rests.ne_going holds
  | done value =>
      rw [main] at holds
      intro status ok
      cases rests with
      | stopped response => exact holds.elim
      | failed error => cases holds status ok
      | halted response =>
          exact ⟨response, inner, since.exchanged.trans (congrArg _ split), holds status ok⟩

end

/-- Whoever breaks into a script while a debugger waits for it to stop, and whatever they are told:
if the script has not stopped where there are logpoints and nothing else, the debugger does not let
it go on any more and returns the state that the engine told. -/
theorem staysStopped (linked : debugger.link = some link)
    (began : (start ((Debugger.execute .continue).run.run debugger) calls earlier).perform first =
      some middle)
    {next : goOn.Answer → Talk (Except DebugError ExecutionStatus × Debugger)}
    (pending : middle.main = .call goOn next) (waits : middle.stage ≠ .free)
    (went : middle.perform second = some last)
    (stays : ∀ response place back, last.exchanges = middle.exchanges ++
      ⟨goOn, .ok response⟩ :: ⟨.submit Link.placeCommand none, place⟩ :: back →
        link.breakpoints.goesOn response (Link.placeOf place) = false) :
    StaysStopped middle last := by
  have known := perform_invariant (fun ledger goes => ledger.goes goes) (ledger_start _ _ _) began
  have ledger : last.Ledger middle.session.nextCall :=
    perform_invariant (fun ledger goes => ledger.goes goes) known.afresh went
  have obeys : (start ((Debugger.execute .continue).run.run debugger) calls earlier).main.Obeys
      (Progress.conduct link.breakpoints) (fun entry progress => Progress.Returns entry.1 progress)
      .going := Debugger.obeys_execute linked
  obtain ⟨past, _, before⟩ := since_perform obeys began
  -- The script is going on where the command for that was asked for.
  have going : past.foldl (Progress.conduct link.breakpoints).next .going = .going := by
    by_contra halted
    have kept := before.obeys
    rw [pending] at kept
    have quiet := Progress.isQuiet_of_allows kept.1 halted
    exact absurd quiet (by decide)
  have kept := before.obeys
  rw [going] at kept
  obtain ⟨more, later, since⟩ := since_perform kept went
  have left (posting : Posting) (member : posting ∈ later) : posting.request.isQuiet = true := by
    obtain ⟨front, within, begun, allows⟩ := since.left posting member
    exact isQuiet_of_begun pending since stays within (begun waits) allows
  refine ⟨?_, ⟨later, since.posted, left⟩, ?_, returns_told pending since stays⟩
  · intro answered rest told exchange member
    obtain ⟨inner, back, rfl⟩ := List.append_of_mem member
    have split : more = answered :: (inner ++ exchange :: back) :=
      List.append_cancel_left (since.exchanged.symm.trans told)
    have within : answered :: inner ++ [exchange] <+: more := ⟨back, by simp [split]⟩
    exact isQuiet_of_begun pending since stays ((List.prefix_append _ _).trans within) nofun
      (since.heard _ exchange within)
  · intro lane call id command written late same
    rcases since.wanted_of_written known ledger written late with ⟨posting, member, wanted⟩ | rfl
    · exact Request.name_of_isQuiet (left posting member) wanted (same ▸ by decide)
    · exact absurd same (by decide)

/-- A table of breakpoints on a line. -/
def placed (kinds : List (LineTarget → BreakpointKind)) : BreakpointTable :=
  let target : LineTarget :=
    { file := "/main.ahk", line := 3, column := none, verified := true, requestedLine := 3 }
  { breakpoints := kinds.zipIdx.map fun (kind, index) =>
      { id := index + 1, engineId := some index, enabled := true, temporary := false
        condition := none, hitCondition := none, message := none, kind := kind target }
    nextId := kinds.length + 1 }

/-- A debugger that lets its script go on, with breakpoints on a line. -/
def resuming (kinds : List (LineTarget → BreakpointKind)) :
    Interplay (Except DebugError ExecutionStatus × Debugger) :=
  let debugger := Debugger.connectedTo { Debugger.greeted with breakpoints := placed kinds } []
  start ((Debugger.execute .continue).run.run debugger) [] []

/-- The script goes on; someone breaks into it, and is answered. -/
def breaking : List Step :=
  [.ask Request.idleAnswer, .ask Request.idleAnswer, .feed .attend, .pause true, .feed .attend] ++
    answered 2 " status=\"break\" reason=\"ok\"" ""

/-- Then its stop is told, and where it has stopped. -/
def stopping : List Step :=
  answered 1 " status=\"break\" reason=\"ok\"" "" ++ .take :: exchanged Request.idleAnswer 3 ""
    "<stack level=\"0\" type=\"file\" filename=\"file:///main.ahk\" lineno=\"3\" where=\"\"/>"

/-- Whether someone was told that the script was broken into. -/
def isBroken (play : Interplay α) : Bool :=
  play.pauses.any fun number => (play.result? number).any Except.isOk

/-- Whether the debugger waits for a script that goes on. -/
def isGoing (play : Interplay α) : Bool :=
  match play.stage, play.main with
  | .waiting _, .call (.submit command none) _ =>
    command == .named Continuation.continue.commandName
  | _, _ => false

theorem exists_going {play : Interplay α} (going : play.isGoing = true) :
    (∃ next, play.main = .call goOn next) ∧ play.stage ≠ .free := by
  unfold isGoing at going
  split at going
  · next stage main =>
    cases eq_of_beq going
    exact ⟨⟨_, main⟩, by rw [stage]; nofun⟩
  · cases going

/-- Where there is another breakpoint besides a logpoint, a script that was broken into stays. -/
theorem staysStopped_mixed :
    ∃ middle last next, (resuming [(.log · "here"), .line]).perform breaking = some middle ∧
      middle.main = .call goOn next ∧ middle.stage ≠ .free ∧ middle.isBroken = true ∧
      middle.perform (stopping ++ [.ask Request.idleAnswer]) = some last ∧
      statuses last.exchanges = [.break] ∧
      namesWritten last.effects = ["run", "break", "stack_get"] ∧ StaysStopped middle last := by
  have begins : ((resuming [(.log · "here"), .line]).perform breaking).map (fun play =>
      (play.isBroken, play.isGoing, play.exchanges.filterMap Exchange.place?)) =
        some (true, true, []) := by decide +kernel
  have ends : ((resuming [(.log · "here"), .line]).perform
      (breaking ++ (stopping ++ [.ask Request.idleAnswer]))).map (fun play =>
        (statuses play.exchanges, namesWritten play.effects,
          play.exchanges.filterMap Exchange.place?)) =
        some ([.break], ["run", "break", "stack_get"], [some ("/main.ahk", 3)]) := by
    decide +kernel
  obtain ⟨middle, began, seen⟩ := Option.map_eq_some_iff.1 begins
  rw [perform_append, began, Option.bind_some] at ends
  obtain ⟨last, went, told⟩ := Option.map_eq_some_iff.1 ends
  simp only [Prod.mk.injEq] at seen told
  obtain ⟨broken, going, nowhere⟩ := seen
  obtain ⟨state, written, places⟩ := told
  obtain ⟨⟨next, pending⟩, waits⟩ := exists_going going
  refine ⟨middle, last, next, began, pending, waits, broken, went, state, written, ?_⟩
  refine staysStopped rfl began pending waits went fun response place back exchanged => ?_
  have here : Exchange.place? ⟨.submit Link.placeCommand none, place⟩ =
      some (Link.placeOf place) := by cases place <;> rfl
  have elsewhere : Exchange.place? ⟨goOn, .ok response⟩ = none := rfl
  rw [exchanged, List.filterMap_append, nowhere, List.nil_append,
    List.filterMap_cons_none elsewhere, List.filterMap_cons_some here] at places
  rw [(List.cons.inj places).1]
  have another : ((placed [(.log · "here"), .line]).atPlace (some ("/main.ahk", 3))).all
      (fun breakpoint => breakpoint.kind.logMessage?.isSome) = false := by decide
  exact (congrArg _ another).trans (Bool.and_false _)

/-- Where there is nothing but a logpoint, it goes on as if nobody had broken into it. -/
theorem goes_on_broken :
    ∃ middle last next again, (resuming [(.log · "here")]).perform breaking = some middle ∧
      middle.main = .call goOn next ∧ middle.stage ≠ .free ∧ middle.isBroken = true ∧
      middle.perform (stopping ++ [.ask Request.idleAnswer, .ask Request.idleAnswer,
        .feed .attend]) = some last ∧
      statuses last.exchanges = [.break] ∧
      namesWritten last.effects = ["run", "break", "stack_get", "run"] ∧
      last.main = .call goOn again ∧ last.stage ≠ .free := by
  have begins : ((resuming [(.log · "here")]).perform breaking).map (fun play =>
      (play.isBroken, play.isGoing)) = some (true, true) := by decide +kernel
  have ends : ((resuming [(.log · "here")]).perform (breaking ++ (stopping ++
      [.ask Request.idleAnswer, .ask Request.idleAnswer, .feed .attend]))).map (fun play =>
        (statuses play.exchanges, namesWritten play.effects, play.isGoing)) =
        some ([.break], ["run", "break", "stack_get", "run"], true) := by
    decide +kernel
  obtain ⟨middle, began, seen⟩ := Option.map_eq_some_iff.1 begins
  rw [perform_append, began, Option.bind_some] at ends
  obtain ⟨last, went, told⟩ := Option.map_eq_some_iff.1 ends
  simp only [Prod.mk.injEq] at seen told
  obtain ⟨broken, going⟩ := seen
  obtain ⟨state, written, goes⟩ := told
  obtain ⟨⟨next, pending⟩, waits⟩ := exists_going going
  obtain ⟨⟨again, resumed⟩, still⟩ := exists_going goes
  exact ⟨middle, last, next, again, began, pending, waits, broken, went, state, written, resumed,
    still⟩

end Interplay
end DebugBridge
