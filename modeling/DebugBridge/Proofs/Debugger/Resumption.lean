import DebugBridge.Proofs.Debugger.Lasting
import DebugBridge.Proofs.Debugger.Messages

/-!
# Until the script stops

The script goes on turn by turn: the engine reports a state, says where the script has stopped, and
is asked for values while messages are printed.  What one turn does to all that has been exchanged
carries over to any number of them: the state that is returned is the one that was reported last,
the breakpoints are as before, those that are blamed are bound to the place that was reported, and
all that is printed is the message of a logpoint there.
-/

namespace DebugBridge

variable {σ : Type} {rule : AnswerRule σ}

/-! ## Messages -/

/-- A text is made of the segments of a message, some text standing for each expression. -/
inductive Filled : List LogSegment → String → Prop
  | nil : Filled [] ""
  | text {content tail : String} {rest : List LogSegment} (filled : Filled rest tail) :
      Filled (.text content :: rest) (content ++ tail)
  | expression {source tail : String} {rest : List LogSegment} (value : String)
      (filled : Filled rest tail) : Filled (.expression source :: rest) (value ++ tail)

/-- A text is what is printed for a message. -/
def Prints (message text : String) : Prop :=
  ∃ content, Filled (LogMessage.parse message) content ∧ text = Link.endedLine content

/-! ## What is warranted -/

namespace BreakpointTable

/-- There is a logpoint at the place that was reported last, and a text is printed for its message
if one is printed at all. -/
def Logs (table : BreakpointTable) (before : List Exchange) (text? : Option String) : Prop :=
  ∃ breakpoint ∈ table.atPlace (lastPlace? before), ∃ message,
    breakpoint.kind.logMessage? = some message ∧ ∀ text ∈ text?, Prints message text

/-- Whatever is printed belongs to a logpoint where the script has stopped, and unless there is one
it is not made to go on once more. -/
structure Warrants (table : BreakpointTable) (exchanges : List Exchange) : Prop where
  printed {before after : List Exchange} {exchange : Exchange} {text : String}
    (split : exchanges = before ++ exchange :: after) (prints : exchange.printed? = some text) :
    table.Logs before (some text)
  resumed {before after : List Exchange} {exchange earlier : Exchange}
    (split : exchanges = before ++ exchange :: after) (resumes : exchange.request.resumes = true)
    (again : earlier ∈ before) (began : earlier.request.resumes = true) : table.Logs before none

/-- What comes last may be looked at by itself. -/
theorem Warrants.concat {table : BreakpointTable} {exchanges : List Exchange} {last : Exchange}
    (warrants : table.Warrants exchanges)
    (printed : ∀ text, last.printed? = some text → table.Logs exchanges (some text))
    (resumed : ∀ earlier ∈ exchanges, last.request.resumes = true →
      earlier.request.resumes = true → table.Logs exchanges none) :
    table.Warrants (exchanges ++ [last]) := by
  have cases_split {before after : List Exchange} {exchange : Exchange}
      (split : exchanges ++ [last] = before ++ exchange :: after) :
      (exchanges = before ∧ last = exchange) ∨
        ∃ rest, exchanges = before ++ exchange :: rest := by
    rcases List.eq_nil_or_concat after with rfl | ⟨rest, final, rfl⟩
    · have parts := List.append_inj' split rfl
      exact .inl ⟨parts.1, List.singleton_inj.1 parts.2⟩
    · rw [List.concat_eq_append, ← List.cons_append, ← List.append_assoc] at split
      exact .inr ⟨rest, (List.append_inj' split rfl).1⟩
  constructor
  · intro before after exchange text split prints
    rcases cases_split split with ⟨rfl, rfl⟩ | ⟨rest, earlier⟩
    · exact printed text prints
    · exact warrants.printed earlier prints
  · intro before after exchange first split resumes again began
    rcases cases_split split with ⟨rfl, rfl⟩ | ⟨rest, earlier⟩
    · exact resumed first again resumes began
    · exact warrants.resumed earlier resumes again began

end BreakpointTable

/-! ## Single requests -/

/-- Neither does it let the script go on, nor ask for a place, nor print a message. -/
structure Exchange.Neutral (exchange : Exchange) : Prop where
  resumes : exchange.request.resumes = false
  place : exchange.place? = none
  printed : exchange.printed? = none

theorem Exchange.neutral_submit {command : Command} (other : command.name ∉ Continuation.names)
    (elsewhere : command.name ≠ "stack_get") (answer : Except SessionError Response) :
    Neutral ⟨.submit command none, answer⟩ where
  resumes := by simpa [Request.resumes] using other
  place := by simp [place?, elsewhere]
  printed := rfl

namespace Link

open Operation BreakpointTable

variable {table : BreakpointTable} {state : RunState} {place : Option (String × Nat)} {link : Link}
  {world after : σ} {exchanges : List Exchange} {exchange : Exchange}

/-! ## What is exchanged while the script has stopped -/

/-- What becomes of filling in segments of a message: neutral requests are made, and it fails only
where there is an expression. -/
structure Fills (segments : List LogSegment) (result : Except DebugError String)
    (exchanges later : List Exchange) : Prop where
  asks : ∃ added, later = exchanges ++ added ∧ ∀ exchange ∈ added, exchange.Neutral
  filled : ∀ text, result = .ok text → Filled segments text
  failed : ∀ error, result = .error error → ∃ source, .expression source ∈ segments

/-- To ask for the value of an expression is neutral. -/
theorem Word.neutral {segment : LogSegment} {asked : List Exchange} {result : Except DebugError String}
    (word : Word segment asked result) : ∀ exchange ∈ asked, exchange.Neutral := by
  cases word with
  | text => exact List.forall_mem_nil _
  | expression source answer =>
      exact List.forall_mem_singleton.2 (Exchange.neutral_submit
        (show "property_get" ∉ Continuation.names by decide)
        (show "property_get" ≠ "stack_get" by decide) answer)

theorem Word.filled {segment : LogSegment} {asked : List Exchange} {text : String}
    (word : Word segment asked (.ok text)) {segments : List LogSegment} {tail : String}
    (rest : Filled segments tail) : Filled (segment :: segments) (text ++ tail) := by
  generalize shows : Except.ok text = result at word
  cases word with
  | text content =>
      cases shows
      exact .text rest
  | expression source answer => exact .expression text rest

/-- Only an expression may have no value. -/
theorem Word.source {segment : LogSegment} {asked : List Exchange} {error : DebugError}
    (word : Word segment asked (.error error)) : ∃ source, segment = .expression source := by
  generalize fails : Except.error error = result at word
  cases word with
  | text => cases fails
  | expression source answer => exact ⟨source, rfl⟩

/-- Where there is a value for each expression, a message is filled in. -/
theorem Words.fills {segments : List LogSegment} {asked : List Exchange}
    {result : Except DebugError String} (words : Words segments asked result)
    (exchanges : List Exchange) : Fills segments result exchanges (exchanges ++ asked) := by
  refine ⟨⟨asked, rfl, ?_⟩, ?_, ?_⟩
  · induction words with
    | nil => exact List.forall_mem_nil _
    | cons first _ ih => exact List.forall_mem_append.2 ⟨first.neutral, ih⟩
    | failed _ first => exact first.neutral
  · induction words with
    | nil =>
        rintro _ ⟨⟩
        exact .nil
    | @cons _ _ _ _ text result first _ ih =>
        cases result with
        | error error => nofun
        | ok tail =>
            rintro _ ⟨⟩
            exact first.filled (ih tail rfl)
    | failed => nofun
  · induction words with
    | nil => nofun
    | @cons _ _ _ _ text result _ _ ih =>
        intro error failed
        cases result with
        | ok tail => cases failed
        | error error =>
            obtain ⟨source, member⟩ := ih error rfl
            exact ⟨source, List.mem_cons_of_mem _ member⟩
    | failed _ first =>
        obtain ⟨source, rfl⟩ := first.source
        exact fun _ _ => ⟨source, List.mem_cons_self⟩

/-- What is exchanged while messages are printed: besides neutral requests only their texts, all of
them unless an expression in one has no value. -/
structure Printing (messages : List String) (result : Except DebugError Unit)
    (added : List Exchange) : Prop where
  only : ∀ exchange ∈ added, exchange.Neutral ∨ ∃ message ∈ messages, ∃ text,
    Prints message text ∧ exchange = ⟨.report (.message text), ()⟩
  all : result = .ok () → ∀ message ∈ messages, ∃ text, Prints message text ∧
    ⟨.report (.message text), ()⟩ ∈ added
  failed : ∀ error, result = .error error →
    ∃ message ∈ messages, ∃ source, .expression source ∈ LogMessage.parse message

theorem Printing.quiet {messages : List String} {result : Except DebugError Unit}
    {added : List Exchange} (printing : Printing messages result added) :
    ∀ exchange ∈ added, exchange.request.resumes = false := by
  intro exchange member
  rcases printing.only exchange member with neutral | ⟨_, _, _, _, rfl⟩
  · exact neutral.resumes
  · rfl

theorem Spoken.printing {messages : List String} {said : List Exchange}
    {result : Except DebugError Unit} (spoken : Spoken messages said result) :
    Printing messages result said := by
  induction spoken with
  | nil =>
      exact ⟨List.forall_mem_nil _, fun _ => List.forall_mem_nil _, fun _ failed => by cases failed⟩
  | @cons message messages asked more text result words rest printing =>
      obtain ⟨⟨added, same, neutral⟩, filled, -⟩ := words.fills []
      obtain rfl : asked = added := same
      have prints : Prints message (endedLine text) := ⟨text, filled text rfl, rfl⟩
      refine ⟨?_, ?_, ?_⟩
      · intro exchange member
        rcases List.mem_append.1 member with before | after
        · exact .inl (neutral exchange before)
        rcases List.mem_cons.1 after with rfl | later
        · exact .inr ⟨message, List.mem_cons_self, _, prints, rfl⟩
        · exact (printing.only exchange later).imp_right fun ⟨other, listed, printed⟩ =>
            ⟨other, List.mem_cons_of_mem _ listed, printed⟩
      · intro ok other listed
        rcases List.mem_cons.1 listed with rfl | later
        · exact ⟨_, prints, List.mem_append_right _ List.mem_cons_self⟩
        · obtain ⟨text, printed, told⟩ := printing.all ok other later
          exact ⟨text, printed, List.mem_append_right _ (List.mem_cons_of_mem _ told)⟩
      · intro error fails
        obtain ⟨other, listed, source⟩ := printing.failed error fails
        exact ⟨other, List.mem_cons_of_mem _ listed, source⟩
  | @failed message messages asked error words =>
      obtain ⟨⟨added, same, neutral⟩, -, failed⟩ := words.fills []
      obtain rfl : asked = added := same
      exact ⟨fun exchange member => .inl (neutral exchange member), nofun,
        fun _ _ => ⟨message, List.mem_cons_self, failed error rfl⟩⟩

/-! ## Turn by turn -/

/-- The command that lets the script go on, with the answer to it. -/
def resumed (continuation : Continuation) (answer : Except SessionError Response) : Exchange :=
  ⟨.submit (.named continuation.commandName) none, answer⟩

theorem resumes_resumed (continuation : Continuation) (answer : Except SessionError Response) :
    (resumed continuation answer).request.resumes = true := by
  simpa [resumed, Request.resumes, Command.named] using continuation.commandName_mem_names

/-- What is known of the engine once the script is to go on: no number stands for anything. -/
def goingOn (link : Link) : Link :=
  { link with frameNumbers := .empty, scopeNumbers := .empty, lastStop := none }

@[simp]
theorem breakpoints_goingOn (link : Link) : link.goingOn.breakpoints = link.breakpoints := rfl

/-- Whether messages are printed where the script has stopped. -/
abbrev speaks (continuation : Continuation) (stop : Stop) : Bool :=
  continuation == .continue && !stop.isException && !stop.messages.isEmpty

/-- The engine reports a break, and tells where. -/
structure Halts (link : Link) (response : Response) (place : Except SessionError Response)
    (stop : Stop) : Prop where
  status : response.status? = some .break
  told : ∃ reply, heard place = .ok reply
  found : stop = stopAt link.breakpoints response .break (response.reason?.getD .ok) (placeOf place)

/-- What comes of one turn, with what is known of the engine afterwards and what is exchanged: the
script stops for good, or it is to go on once more. -/
inductive TurnDone (continuation : Continuation) (link : Link) :
    Option (Except DebugError ExecutionStatus) → Link → List Exchange → Prop
  /-- The script cannot be let go on. -/
  | refused {answer : Except SessionError Response} {error : DebugError}
      (fails : answer.mapError DebugError.ofSession = .error error) :
      TurnDone continuation link (some (.error error)) link.goingOn [resumed continuation answer]
  /-- The engine does not tell a state. -/
  | untold {response : Response} (status : response.status? = none) :
      TurnDone continuation link
        (some (.error (.session (.protocol (.missingAttribute "response" "status")))))
        link.goingOn [resumed continuation (.ok response)]
  /-- The engine tells another state than a break. -/
  | elsewhere {response : Response} {state : RunState} (status : response.status? = some state)
      (other : state ≠ .break) :
      TurnDone continuation link
        (some (.ok { state, reason := response.reason?.getD .ok, stopReason := none
                     location := none, hitBreakpointIds := [], exceptionMessage := none }))
        link.goingOn [resumed continuation (.ok response)]
  /-- The engine cannot be asked for the place. -/
  | unplaced {response : Response} {place : Except SessionError Response} {error : DebugError}
      (status : response.status? = some .break) (fails : heard place = .error error) :
      TurnDone continuation link (some (.error error)) link.goingOn
        [resumed continuation (.ok response), ⟨.submit placeCommand none, place⟩]
  /-- What stands in a message cannot be found out. -/
  | interrupted {response : Response} {place : Except SessionError Response} {stop : Stop}
      {said : List Exchange} {error : DebugError} (halts : link.Halts response place stop)
      (logs : speaks continuation stop = true) (spoken : Spoken stop.messages said (.error error)) :
      TurnDone continuation link (some (.error error)) link.goingOn
        (resumed continuation (.ok response) :: ⟨.submit placeCommand none, place⟩ :: said)
  /-- Messages are printed, and there is no other breakpoint. -/
  | goesOn {response : Response} {place : Except SessionError Response} {stop : Stop}
      {said : List Exchange} (halts : link.Halts response place stop)
      (logs : speaks continuation stop = true) (spoken : Spoken stop.messages said (.ok ()))
      (alone : stop.hits = []) :
      TurnDone continuation link none link.goingOn
        (resumed continuation (.ok response) :: ⟨.submit placeCommand none, place⟩ :: said)
  /-- Messages are printed, and the script stays: there are other breakpoints. -/
  | joined {response : Response} {place : Except SessionError Response} {stop : Stop}
      {said : List Exchange} (halts : link.Halts response place stop)
      (logs : speaks continuation stop = true) (spoken : Spoken stop.messages said (.ok ()))
      (others : stop.hits ≠ []) :
      TurnDone continuation link
        (some (.ok { stop.status with stopReason := some (stop.reason continuation) }))
        { link.goingOn with lastStop := some response }
        (resumed continuation (.ok response) :: ⟨.submit placeCommand none, place⟩ :: said)
  /-- The script stays, and nothing is printed. -/
  | silent {response : Response} {place : Except SessionError Response} {stop : Stop}
      (halts : link.Halts response place stop) (quiet : speaks continuation stop = false) :
      TurnDone continuation link
        (some (.ok { stop.status with stopReason := some (stop.reason continuation) }))
        { link.goingOn with lastStop := some response }
        [resumed continuation (.ok response), ⟨.submit placeCommand none, place⟩]

/-- What comes of at most so many turns: the last of them ends in a result, or there is none. -/
inductive TurnsDone (continuation : Continuation) :
    Nat → Link → Option (Except DebugError ExecutionStatus × Link) → List Exchange → Prop
  | out {link : Link} : TurnsDone continuation 0 link none []
  | ends {turns : Nat} {link after : Link} {result : Except DebugError ExecutionStatus}
      {told : List Exchange} (turn : TurnDone continuation link (some result) after told) :
      TurnsDone continuation (turns + 1) link (some (result, after)) told
  | goesOn {turns : Nat} {link between : Link}
      {outcome : Option (Except DebugError ExecutionStatus × Link)} {told more : List Exchange}
      (turn : TurnDone continuation link none between told)
      (rest : TurnsDone continuation turns between outcome more) :
      TurnsDone continuation (turns + 1) link outcome (told ++ more)

section Turns

variable {continuation : Continuation} {outcome : Option (Except DebugError ExecutionStatus)}
  {told : List Exchange} {last : Link}

/-- In each turn the script is let go on. -/
theorem TurnDone.resumes (turn : TurnDone continuation link outcome last told) :
    ∃ exchange ∈ told, exchange.request.resumes = true := by
  cases turn <;> exact ⟨_, List.mem_cons_self, resumes_resumed ..⟩

theorem TurnDone.breakpoints (turn : TurnDone continuation link outcome last told) :
    last.breakpoints = link.breakpoints := by
  cases turn <;> rfl

/-- Where the script has stopped, messages are printed or not, and it stays or goes on. -/
theorem gives_stop {turns : Nat} {response : Response} {place : Except SessionError Response}
    {stop : Stop} (halts : link.Halts response place stop)
    (ih : ∀ (link : Link) (world : σ) (exchanges : List Exchange),
      (execute continuation turns).Gives rule.recorded link (world, exchanges) fun outcome last =>
        ∃ told, last.2 = exchanges ++ told ∧ TurnsDone continuation turns link outcome told) :
    Operation.Gives rule.recorded (do
        if speaks continuation stop then printMessages stop.messages
        if speaks continuation stop && stop.hits.isEmpty then execute continuation turns
        else
          modify fun link => { link with lastStop := some response }
          return { stop.status with stopReason := some (stop.reason continuation) } :
        LinkOperation ExecutionStatus) link.goingOn (world, exchanges) fun outcome last =>
      ∃ said, last.2 = exchanges ++ said ∧ TurnsDone continuation (turns + 1) link outcome
        (resumed continuation (.ok response) :: ⟨.submit placeCommand none, place⟩ :: said) := by
  cases logs : speaks continuation stop with
  | false =>
      rw [Bool.false_and, if_neg Bool.false_ne_true, if_neg Bool.false_ne_true]
      exact Ensures.gives ((ensures_bind _ _).2 ((ensures_modify _).2
        ((ensures_pure _).2 ⟨[], (List.append_nil _).symm, .ends (.silent halts logs)⟩)))
  | true =>
      rw [Bool.true_and, if_pos rfl]
      refine Ensures.gives_bind ((printMessages_spoken _).mono ?_)
      rintro (error | _) _ ⟨world, _⟩ ⟨rfl, said, rfl, spoken⟩
      · exact ⟨said, rfl, .ends (.interrupted halts logs spoken)⟩
      dsimp only
      split
      · next alone =>
          refine (ih link.goingOn world _).mono ?_
          rintro outcome last ⟨more, same, rest⟩
          refine ⟨said ++ more, same.trans (List.append_assoc ..), ?_⟩
          exact .goesOn (.goesOn halts logs spoken (List.isEmpty_iff.1 alone)) rest
      · next others =>
          exact Ensures.gives ((ensures_bind _ _).2 ((ensures_modify _).2 ((ensures_pure _).2
            ⟨said, rfl, .ends (.joined halts logs spoken (mt List.isEmpty_iff.2 others))⟩)))

/-- Whatever the engine answers, the script goes on turn by turn. -/
theorem execute_turns (continuation : Continuation) (turns : Nat) (link : Link) (world : σ)
    (exchanges : List Exchange) :
    (execute continuation turns).Gives rule.recorded link (world, exchanges) fun outcome last =>
      ∃ told, last.2 = exchanges ++ told ∧ TurnsDone continuation turns link outcome told := by
  induction turns generalizing link world exchanges with
  | zero => exact gives_stuck ⟨[], (List.append_nil _).symm, .out⟩
  | succ turns ih =>
      refine Ensures.gives_bind ((ensures_modify _).2 ?_)
      refine Ensures.gives_bind ((command_mapError _ _ world exchanges).mono ?_)
      rintro _ _ ⟨world, _⟩ ⟨rfl, answer, rfl, rfl⟩
      rcases answer with (error | response)
      · exact ⟨_, rfl, .ends (.refused rfl)⟩
      dsimp only [Except.mapError]
      split
      · next untold => exact Ensures.gives ((ensures_throw _).2 ⟨_, rfl, .ends (.untold untold)⟩)
      next state status =>
      split
      · next other =>
          exact Ensures.gives ((ensures_pure _).2
            ⟨_, rfl, .ends (.elsewhere status (bne_iff_ne.1 other))⟩)
      next broke =>
      obtain rfl : state = .break := by simpa using broke
      refine Ensures.gives_bind ((findStop_heard response .break _).mono ?_)
      rintro _ _ ⟨world, _⟩ ⟨rfl, place, rfl, rfl⟩
      cases reply : heard place with
      | error error => exact ⟨_, List.append_assoc .., .ends (.unplaced status reply)⟩
      | ok reply =>
          have halts : link.Halts response place _ := ⟨status, ⟨_, reply⟩, rfl⟩
          refine (gives_stop halts ih).mono ?_
          rintro outcome last ⟨said, same, done⟩
          refine ⟨_, same.trans ?_, done⟩
          rw [List.append_assoc, List.append_assoc]
          rfl

/-- What one turn makes of how things stand carries over to any number of them. -/
theorem leaves_of_turn {P : Link → List Exchange → Prop}
    {Q : Except DebugError ExecutionStatus → Link → List Exchange → Prop}
    (goesOn : ∀ {link between : Link} {exchanges told : List Exchange}, P link exchanges →
      TurnDone continuation link none between told → P between (exchanges ++ told))
    (ends : ∀ {link after : Link} {exchanges told : List Exchange}
      {result : Except DebugError ExecutionStatus}, P link exchanges →
      TurnDone continuation link (some result) after told → Q result after (exchanges ++ told))
    (turns : Nat) (going : P link exchanges) :
    (execute continuation turns).Leaves rule.recorded link (world, exchanges)
      fun result after last => Q result after last.2 := by
  refine (execute_turns continuation turns link world exchanges).leaves.mono ?_
  rintro result after ⟨last, _⟩ ⟨told, rfl, done⟩
  generalize same : some (result, after) = outcome at done
  dsimp only
  induction done generalizing exchanges with
  | out => cases same
  | ends turn =>
      cases same
      exact ends going turn
  | goesOn turn _ ih =>
      rw [← List.append_assoc]
      exact ih (goesOn going turn) same

end Turns

/-! ## What is found -/

/-- What is found at a place. -/
structure Finds (table : BreakpointTable) (response : Response) (state : RunState)
    (reason : StatusReason) (place : Option (String × Nat)) (stop : Stop) : Prop where
  state : stop.status.state = state
  location : stop.status.location = place
  ids : stop.status.hitBreakpointIds = (table.blamed place).map Breakpoint.id
  hits : stop.hits = table.blamed place
  messages : stop.messages = (table.atPlace place).filterMap fun breakpoint =>
    breakpoint.kind.logMessage?
  exception : stop.isException =
    ((exceptionElement? response.element).isSome || reason == .exception)

theorem Halts.finds {response : Response} {place : Except SessionError Response} {stop : Stop}
    (halts : link.Halts response place stop) (breakpoints : link.breakpoints = table) :
    Finds table response .break (response.reason?.getD .ok) (placeOf place) stop := by
  subst breakpoints
  rw [halts.found]
  exact ⟨rfl, rfl, rfl, rfl, rfl, rfl⟩

/-! ## How things stand -/

/-- How things stand while the script has stopped: the breakpoints are as before, the engine has
reported a state and a place, and all that was exchanged is warranted. -/
structure Stands (table : BreakpointTable) (state : RunState) (place : Option (String × Nat))
    (link : Link) (last : σ × List Exchange) : Prop where
  breakpoints : link.breakpoints = table
  status : (statuses last.2).getLast? = some state
  place : lastPlace? last.2 = place
  warrants : table.Warrants last.2

/-- After a neutral request things stand as before. -/
theorem Stands.neutral (stands : Stands table state place link (world, exchanges))
    (neutral : exchange.Neutral) :
    Stands table state place link (after, exchanges ++ [exchange]) where
  breakpoints := stands.breakpoints
  status := by
    rw [statuses_concat_of_not_resumes exchanges neutral.resumes]
    exact stands.status
  place := (lastPlace?_concat_of_other _ neutral.place).trans stands.place
  warrants := by
    refine stands.warrants.concat (fun text prints => ?_) fun _ _ resumes => ?_
    · cases neutral.printed.symm.trans prints
    · cases neutral.resumes.symm.trans resumes

/-- After a message of a logpoint that is there was printed, too. -/
theorem Stands.report {text : String} (stands : Stands table state place link (world, exchanges))
    (logs : table.Logs exchanges (some text)) :
    Stands table state place link (after, exchanges ++ [⟨.report (.message text), ()⟩]) where
  breakpoints := stands.breakpoints
  status := by
    rw [statuses_concat_of_not_resumes exchanges rfl]
    exact stands.status
  place := (lastPlace?_concat_of_other _ rfl).trans stands.place
  warrants := by
    refine stands.warrants.concat (fun other prints => ?_) fun _ _ resumes => ?_
    · cases prints
      exact logs
    · cases resumes

/-- Messages may be printed where there are logpoints with them. -/
theorem Stands.printing {messages : List String} {added : List Exchange}
    (stands : Stands table state place link (world, exchanges))
    (logpoints : ∀ message ∈ messages, ∃ breakpoint ∈ table.atPlace place,
      breakpoint.kind.logMessage? = some message)
    {result : Except DebugError Unit} (printing : Printing messages result added) :
    Stands table state place link (after, exchanges ++ added) := by
  obtain ⟨only, -, -⟩ := printing
  induction added generalizing world exchanges with
  | nil =>
      rw [List.append_nil]
      exact ⟨stands.breakpoints, stands.status, stands.place, stands.warrants⟩
  | cons first rest ih =>
      obtain ⟨here, others⟩ := List.forall_mem_cons.1 only
      have once : Stands table state place link (world, exchanges ++ [first]) := by
        rcases here with neutral | ⟨message, listed, text, prints, rfl⟩
        · exact stands.neutral neutral
        · obtain ⟨breakpoint, bound, logs⟩ := logpoints message listed
          refine stands.report ⟨breakpoint, stands.place ▸ bound, message, logs, ?_⟩
          rintro _ ⟨⟩
          exact prints
      rw [← List.singleton_append, ← List.append_assoc]
      exact ih once others

/-- How things stand once the engine was asked where the script is. -/
theorem stands_of_place (breakpoints : link.breakpoints = table)
    (status : (statuses exchanges).getLast? = some state) (warrants : table.Warrants exchanges)
    (answer : Except SessionError Response) :
    Stands table state (placeOf answer) link (after,
      exchanges ++ [⟨.submit placeCommand none, answer⟩]) where
  breakpoints := breakpoints
  status := by
    rw [statuses_concat_of_not_resumes exchanges rfl]
    exact status
  place := lastPlace?_concat_of_place _ (by cases answer <;> rfl)
  warrants := by
    refine warrants.concat (fun text prints => ?_) fun _ _ resumes => ?_
    · cases prints
    · cases resumes

/-- What is to be said of the way in which the script goes on. -/
def Tells (table : BreakpointTable) (result : Except DebugError ExecutionStatus) (link : Link)
    (last : σ × List Exchange) : Prop :=
  link.breakpoints = table ∧ table.Warrants last.2 ∧
    ∀ status, result = .ok status → (statuses last.2).getLast? = some status.state ∧
      status.hitBreakpointIds = (table.blamed status.location).map Breakpoint.id ∧
        (status.location.isSome = true → lastPlace? last.2 = status.location)

theorem tells_error {last : σ × List Exchange} (breakpoints : link.breakpoints = table)
    (warrants : table.Warrants last.2) (error : DebugError) :
    Tells table (.error error) link last := by
  refine ⟨breakpoints, warrants, ?_⟩
  intro status same
  cases same

theorem Stands.tells {last : σ × List Exchange} (stands : Stands table state place link last)
    (error : DebugError) : Tells table (.error error) link last :=
  tells_error stands.breakpoints stands.warrants error

/-- The script may be made to go on if it is the first time, or if there is a logpoint where it has
stopped. -/
def MayGoOn (table : BreakpointTable) (exchanges : List Exchange) : Prop :=
  (∀ earlier ∈ exchanges, earlier.request.resumes = false) ∨ table.Logs exchanges none

theorem status?_resumed (continuation : Continuation) (response : Response) :
    Exchange.status? (resumed continuation (.ok response)) = response.status? :=
  if_pos (resumes_resumed continuation (.ok response))

/-- To let the script go on is warranted if it may go on. -/
theorem warrants_resumed {request : Request} {answer : request.Answer}
    (warrants : table.Warrants exchanges) (may : MayGoOn table exchanges)
    (silent : Exchange.printed? ⟨request, answer⟩ = none) :
    table.Warrants (exchanges ++ [⟨request, answer⟩]) := by
  refine warrants.concat (fun text prints => ?_) fun earlier before _ began => ?_
  · cases silent.symm.trans prints
  · rcases may with first | logs
    · cases (first earlier before).symm.trans began
    · exact logs

/-- Where a message is found there is a logpoint. -/
theorem Stands.logs (stands : Stands table state place link (world, exchanges))
    {messages : List String}
    (found : messages = (table.atPlace place).filterMap fun breakpoint =>
      breakpoint.kind.logMessage?) (some_ : messages ≠ []) : table.Logs exchanges none := by
  obtain ⟨message, member⟩ := List.exists_mem_of_ne_nil _ some_
  rw [found] at member
  obtain ⟨breakpoint, bound, logs⟩ := List.mem_filterMap.1 member
  exact ⟨breakpoint, stands.place ▸ bound, message, logs, nofun⟩

/-- The script is to go on, and may. -/
structure Going (table : BreakpointTable) (link : Link) (exchanges : List Exchange) : Prop where
  breakpoints : link.breakpoints = table
  warrants : table.Warrants exchanges
  may : MayGoOn table exchanges

section Going

variable {continuation : Continuation} {response : Response} {stop : Stop}
  {said told : List Exchange} {later : Link}

theorem Going.resumed (going : Going table link exchanges) (continuation : Continuation)
    (answer : Except SessionError Response) :
    table.Warrants (exchanges ++ [Link.resumed continuation answer]) :=
  warrants_resumed going.warrants going.may rfl

/-- The state that is reported is the last one. -/
theorem getLast?_statuses_resumed (continuation : Continuation) (exchanges : List Exchange)
    (told : response.status? = some state) :
    (statuses (exchanges ++ [resumed continuation (.ok response)])).getLast? = some state :=
  getLast?_statuses_concat exchanges ((status?_resumed continuation response).trans told)

/-- How things stand when the engine was asked for the place. -/
theorem Going.placed (going : Going table link exchanges) (continuation : Continuation)
    (status : response.status? = some .break) (place : Except SessionError Response) :
    Stands table .break (placeOf place) link.goingOn (after, exchanges ++
      [Link.resumed continuation (.ok response), ⟨.submit placeCommand none, place⟩]) := by
  have stands : Stands table .break (placeOf place) link.goingOn (after, exchanges ++
      [Link.resumed continuation (.ok response)] ++ [⟨.submit placeCommand none, place⟩]) :=
    stands_of_place (link.breakpoints_goingOn.trans going.breakpoints)
      (getLast?_statuses_resumed continuation exchanges status)
      (going.resumed continuation (.ok response)) place
  rwa [List.append_assoc] at stands

/-- How things stand when messages were printed as well. -/
theorem Going.spoken (going : Going table link exchanges) (continuation : Continuation)
    {place : Except SessionError Response} (halts : link.Halts response place stop)
    {result : Except DebugError Unit} (spoken : Spoken stop.messages said result) :
    Stands table .break (placeOf place) link.goingOn (after, exchanges ++
      Link.resumed continuation (.ok response) :: ⟨.submit placeCommand none, place⟩ :: said) := by
  have placed : Stands table .break (placeOf place) link.goingOn (after, exchanges ++
      [Link.resumed continuation (.ok response), ⟨.submit placeCommand none, place⟩]) :=
    going.placed continuation halts.status place
  have logpoints : ∀ message ∈ stop.messages, ∃ breakpoint ∈ table.atPlace (placeOf place),
      breakpoint.kind.logMessage? = some message := by
    intro message member
    rw [(halts.finds going.breakpoints).messages] at member
    exact List.mem_filterMap.1 member
  have stands : Stands table .break (placeOf place) link.goingOn (after, exchanges ++
      [Link.resumed continuation (.ok response), ⟨.submit placeCommand none, place⟩] ++ said) :=
    placed.printing logpoints spoken.printing
  rwa [List.append_assoc] at stands

/-- What is returned where the script stays agrees with what was reported. -/
theorem Stands.tells_status {place : Except SessionError Response} {last : σ × List Exchange}
    (stands : Stands table .break (placeOf place) link last)
    (found : Finds table response .break (response.reason?.getD .ok) (placeOf place) stop)
    (why : Option StopReason) (lastStop : Option Response) :
    Tells table (.ok { stop.status with stopReason := why }) { link with lastStop } last := by
  refine ⟨stands.breakpoints, stands.warrants, ?_⟩
  rintro _ ⟨⟩
  refine ⟨found.state ▸ stands.status, ?_, fun _ => stands.place.trans found.location.symm⟩
  rw [found.ids, found.location]

/-- Once it has gone on, the script may go on again: there is a logpoint. -/
theorem Going.goesOn (going : Going table link exchanges)
    (turn : TurnDone continuation link none later told) :
    Going table later (exchanges ++ told) := by
  cases turn with
  | @goesOn _ place _ _ halts logs spoken =>
      have stands : Stands table .break (placeOf place) link.goingOn ((), _) :=
        going.spoken continuation halts spoken
      refine ⟨stands.breakpoints, stands.warrants, .inr ?_⟩
      refine stands.logs (halts.finds going.breakpoints).messages fun nothing => ?_
      simp [speaks, nothing] at logs

/-- Once it has stopped for good, what was exchanged tells of what is returned. -/
theorem Going.tells {result : Except DebugError ExecutionStatus}
    (going : Going table link exchanges)
    (turn : TurnDone continuation link (some result) later told) (world : σ) :
    Tells table result later (world, exchanges ++ told) := by
  cases turn with
  | refused | untold => exact tells_error going.breakpoints (going.resumed continuation _) _
  | elsewhere status =>
      refine ⟨going.breakpoints, going.resumed continuation _, ?_⟩
      rintro _ ⟨⟩
      exact ⟨getLast?_statuses_resumed continuation exchanges status, rfl, nofun⟩
  | unplaced status => exact (going.placed continuation status _).tells _
  | interrupted halts _ spoken => exact (going.spoken continuation halts spoken).tells _
  | joined halts _ spoken =>
      have found := halts.finds going.breakpoints
      exact (going.spoken continuation halts spoken).tells_status found _ _
  | silent halts =>
      have found := halts.finds going.breakpoints
      exact (going.placed continuation halts.status _).tells_status found _ _

end Going

/-- What is exchanged until the script stops for good. -/
theorem execute_leaves (continuation : Continuation) (turns : Nat)
    (breakpoints : link.breakpoints = table) (warrants : table.Warrants exchanges)
    (may : MayGoOn table exchanges) :
    (execute continuation turns).Leaves rule.recorded link (world, exchanges) (Tells table) := by
  refine (leaves_of_turn (P := Going table)
    (Q := fun result after exchanges => ∀ world : σ, Tells table result after (world, exchanges))
    Going.goesOn Going.tells turns ⟨breakpoints, warrants, may⟩).mono ?_
  exact fun _ _ last told => told last.1

end Link

/-! ## The whole call -/

section Neutral

variable {exchanges : List Exchange}

theorem statuses_eq_nil (neutral : ∀ exchange ∈ exchanges, exchange.Neutral) :
    statuses exchanges = [] :=
  List.filterMap_eq_nil_iff.2 fun exchange member =>
    Exchange.status?_eq_none (neutral exchange member).resumes

theorem BreakpointTable.warrants_of_neutral (table : BreakpointTable)
    (neutral : ∀ exchange ∈ exchanges, exchange.Neutral) : table.Warrants exchanges where
  printed split prints := by
    cases (neutral _ (split ▸ List.mem_append_cons_self)).printed.symm.trans prints
  resumed split resumes _ _ := by
    cases (neutral _ (split ▸ List.mem_append_cons_self)).resumes.symm.trans resumes

/-- To ask whether the session has ended is neutral. -/
theorem neutral_of_asked {start last : σ × List Exchange}
    (neutral : ∀ exchange ∈ start.2, exchange.Neutral)
    (where_ : last = start ∨ last = (rule.recorded .isClosed start).2) :
    ∀ exchange ∈ last.2, exchange.Neutral := by
  rcases where_ with rfl | rfl
  · exact neutral
  · intro exchange member
    rcases List.mem_append.1 member with before | new
    · exact neutral exchange before
    · cases List.mem_singleton.1 new
      exact ⟨rfl, rfl, rfl⟩

end Neutral

namespace Debugger

open Operation

/-- What becomes of a debugger that is to let the script go on. -/
structure Proceeds (debugger : Debugger) (result : Except DebugError ExecutionStatus)
    (after : Debugger) (exchanges : List Exchange) : Prop where
  table : after.table = debugger.table
  warrants : debugger.table.Warrants exchanges
  stopped {status : ExecutionStatus} (ok : result = .ok status) :
    after.phase = .connected status.state ∧ (statuses exchanges).getLast? = some status.state ∧
      status.hitBreakpointIds = (debugger.table.blamed status.location).map Breakpoint.id ∧
        (status.location.isSome = true → lastPlace? exchanges = status.location)
  failed {error : DebugError} (failed : result = .error error) :
    after.phase = .closed ∨
      after.phase = debugger.phase ∧ (statuses exchanges = [] ∨ error.isClosed = false)

variable {debugger : Debugger} {exchanges : List Exchange} {world : σ}

/-- Nothing becomes of it where the engine is asked for nothing. -/
theorem proceeds_of_neutral (error : DebugError)
    (neutral : ∀ exchange ∈ exchanges, exchange.Neutral) :
    Proceeds debugger (.error error) debugger exchanges where
  table := rfl
  warrants := debugger.table.warrants_of_neutral neutral
  stopped ok := by cases ok
  failed _ := .inr ⟨rfl, .inl (statuses_eq_nil neutral)⟩

/-- The phase after a call has let the script go on, which was in a state before. -/
def phaseAfter (state : RunState) : Except DebugError ExecutionStatus → Phase
  | .ok status => .connected status.state
  | .error error => if error.isClosed then .closed else .connected state

/-- Either the engine is asked for nothing, or a connected one for what its link asks of it. -/
theorem execute_leaves (continuation : Continuation)
    {post : Except DebugError ExecutionStatus → Link → σ × List Exchange → Prop}
    (runs : ∀ link world exchanges, link.breakpoints = debugger.table →
      (∀ exchange ∈ exchanges, exchange.Neutral) →
        (Link.execute continuation turnLimit).Leaves rule.recorded link (world, exchanges) post) :
    (execute continuation).Leaves rule.recorded debugger (world, []) fun result after last =>
      (∃ error, result = .error error ∧ after = debugger ∧ ∀ exchange ∈ last.2, exchange.Neutral) ∨
        ∃ link state, debugger.phase = .connected state ∧ post result link last ∧
          after = { debugger with phase := phaseAfter state result, link := some link } := by
  have nothing : ∀ exchange ∈ ([] : List Exchange), exchange.Neutral := List.forall_mem_nil _
  refine Leaves.bind ((connectedState_ensures rfl _).leaves.mono ?_)
  rintro (error | state) debugger last ⟨connected, rfl, where_⟩
  · exact .inl ⟨error, rfl, rfl, neutral_of_asked nothing where_⟩
  have neutral := neutral_of_asked nothing where_
  have phase : debugger.phase = .connected state := phase_of_reportedState connected.symm
  dsimp only
  split
  · refine Leaves.bind ((currentPhase_ensures rfl).leaves.mono ?_)
    rintro _ debugger last ⟨rfl, rfl, where_⟩
    refine Leaves.bind ((ensures_throw _).2 ?_).leaves
    exact .inl ⟨_, rfl, rfl, neutral_of_asked neutral where_⟩
  refine Leaves.bind (knownLink_ensures.leaves.mono ?_)
  rintro result debugger last ⟨found, rfl, rfl⟩
  cases linked : debugger.link with
  | none =>
      rw [linked] at found
      cases found
      exact .inl ⟨_, rfl, rfl, neutral⟩
  | some link =>
      rw [linked] at found
      cases found
      have told : link.breakpoints = debugger.table := by rw [table, linked]
      refine Leaves.bind ((ensures_modify _).2 ?_).leaves
      refine Leaves.bind (Leaves.tryCatch (Leaves.bind ((leaves_onLink
        (runs link last.1 last.2 told neutral)).mono ?_)))
      rintro (error | status) after last ⟨link, rfl, holds⟩
      · refine Leaves.bind ((ensures_modify _).2 ?_).leaves
        refine Leaves.bind ((ensures_throw _).2 ?_).leaves
        exact .inr ⟨link, state, phase, holds, rfl⟩
      · refine Leaves.bind ((ensures_modify _).2 ?_).leaves
        refine ((ensures_pure _).2 ?_).leaves
        refine ((ensures_pure _).2 ?_).leaves
        exact .inr ⟨link, state, phase, holds, rfl⟩

theorem execute_proceeds (continuation : Continuation) :
    (execute continuation).Leaves rule.recorded debugger (world, []) fun result after last =>
      Proceeds debugger result after last.2 := by
  refine (execute_leaves continuation fun link world exchanges told neutral =>
    Link.execute_leaves continuation turnLimit told (debugger.table.warrants_of_neutral neutral)
      (.inl fun exchange member => (neutral exchange member).resumes)).mono ?_
  rintro result after last
    (⟨error, rfl, rfl, neutral⟩ | ⟨link, state, phase, ⟨same, warrants, told⟩, rfl⟩)
  · exact proceeds_of_neutral error neutral
  refine ⟨same, warrants, fun {status} ok => ?_, fun {error} failed => ?_⟩
  · rw [ok]
    exact ⟨rfl, told status ok⟩
  · rw [failed, phaseAfter]
    split
    · exact .inl rfl
    · next other => exact .inr ⟨phase.symm, .inr (Bool.not_eq_true _ ▸ other)⟩

theorem configurationDone_proceeds :
    configurationDone.Leaves rule.recorded debugger (world, []) fun result after last =>
      Proceeds debugger result after last.2 := by
  refine Leaves.bind (ensures_get.2 ?_).leaves
  dsimp only
  split
  · exact execute_proceeds _
  · refine Leaves.bind ((execute_proceeds .stepIn).mono ?_)
    rintro (error | status) after last proceeds
    · exact proceeds
    · refine ((ensures_pure _).2 ?_).leaves
      refine ⟨proceeds.table, proceeds.warrants, fun {_} ok => ?_, fun {_} failed => by cases failed⟩
      cases ok
      have stopped := proceeds.stopped rfl
      split
      · exact stopped
      · exact stopped

/-- The two ways to let the script go on. -/
inductive GoesOn : DebuggerOperation ExecutionStatus → Prop
  | execute (continuation : Continuation) : GoesOn (execute continuation)
  | configurationDone : GoesOn configurationDone

theorem GoesOn.proceeds {operation : DebuggerOperation ExecutionStatus} (goesOn : GoesOn operation)
    (debugger : Debugger) (world : σ) :
    operation.Leaves rule.recorded debugger (world, []) fun result after last =>
      Proceeds debugger result after last.2 := by
  cases goesOn with
  | execute continuation => exact execute_proceeds continuation
  | configurationDone => exact configurationDone_proceeds

end Debugger

end DebugBridge
