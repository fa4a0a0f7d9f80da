import DebugBridge.Proofs.Debugger.Blame
import DebugBridge.Proofs.Debugger.Sparing
import DebugBridge.Proofs.Protocol.Uri

/-!
# Stops at breakpoints

The engine is told of a breakpoint by a URI, and tells by a URI where the script has stopped.  If it
stops where a breakpoint is, this one is said to have made it stop, or its message is printed, as
long as the path of the breakpoint comes back from its URI.
-/

namespace DebugBridge

variable {σ : Type} {rule : AnswerRule σ}

/-! ## Stops -/

/-- The answer to letting the script go on, and what is exchanged after that, tell that it has
stopped without an exception, on a line of a file; what is exchanged after that is left. -/
structure Breaks (answer : Except SessionError Response) (exchanges : List Exchange)
    (uri : String) (line : Nat) (after : List Exchange) : Prop where
  status : ∃ response, answer = .ok response ∧ response.status? = some .break ∧
    Link.exceptionElement? response.element = none ∧ response.reason? ≠ some .exception
  place : ∃ response frame, exchanges = ⟨.submit Link.placeCommand none, .ok response⟩ :: after ∧
    response.frames.head? = some frame ∧ frame.fileUri = uri ∧ frame.line = line

/-- Letting the script go on, with the answer to it. -/
def Exchange.run (answer : Except SessionError Response) : Exchange :=
  ⟨.submit (.named Continuation.continue.commandName) none, answer⟩

/-- At some time the script was let go on and has stopped without an exception, on a line of a
file. -/
def StopsAt (exchanges : List Exchange) (uri : String) (line : Nat) (after : List Exchange) :
    Prop :=
  ∃ before answer rest, exchanges = before ++ .run answer :: rest ∧
    Breaks answer rest uri line after

variable {exchanges tail after : List Exchange} {answer : Except SessionError Response}
  {uri : String} {line : Nat}

theorem Exchange.run_injective : Function.Injective Exchange.run := by
  rintro answer other ⟨⟩
  rfl

/-- A stop was told before the script was let go on for the last time, or is told then. -/
theorem stopsAt_append (quiet : ∀ exchange ∈ tail, exchange.request.resumes = false)
    (stops : StopsAt (exchanges ++ .run answer :: tail) uri line after) :
    (∃ rest, StopsAt exchanges uri line rest ∧ after = rest ++ .run answer :: tail) ∨
      Breaks answer tail uri line after := by
  obtain ⟨before, other, rest, split, breaks⟩ := stops
  -- Letting the script go on tells no place, so a stop and its place are on the same side of it.
  rcases List.append_eq_append_iff.1 split with ⟨middle, -, whole⟩ | ⟨middle, rfl, whole⟩
  · cases middle with
    | nil =>
        obtain ⟨same, rfl⟩ := List.cons.inj whole
        exact .inr (Exchange.run_injective same ▸ breaks)
    | cons first middle =>
        obtain ⟨-, rfl⟩ := List.cons.inj whole
        have resumes : (Exchange.run other).request.resumes = true := rfl
        cases resumes.symm.trans (quiet _ (List.mem_append_right _ List.mem_cons_self))
  · cases middle with
    | nil =>
        obtain ⟨same, rfl⟩ := List.cons.inj whole
        exact .inr (Exchange.run_injective same ▸ breaks)
    | cons first middle =>
        obtain ⟨rfl, rfl⟩ := List.cons.inj whole
        obtain ⟨status, response, frame, place, told⟩ := breaks
        cases middle with
        | nil =>
            have resumes : true = false :=
              congrArg (fun exchange => exchange.request.resumes) (List.cons.inj place).1
            cases resumes
        | cons second middle =>
            obtain ⟨rfl, rfl⟩ := List.cons.inj place
            exact .inl ⟨middle, ⟨before, other, _, rfl, status, response, frame, rfl, told⟩, rfl⟩

/-! ## What becomes of the breakpoints at a stop -/

/-- The message of a breakpoint is printed. -/
def Printed (breakpoint : Breakpoint) (exchanges : List Exchange) : Prop :=
  ∃ message text, breakpoint.kind.logMessage? = some message ∧ Prints message text ∧
    ⟨.report (.message text), ()⟩ ∈ exchanges

theorem Printed.append {breakpoint : Breakpoint} (printed : Printed breakpoint exchanges)
    (more : List Exchange) : Printed breakpoint (exchanges ++ more) := by
  obtain ⟨message, text, logs, prints, told⟩ := printed
  exact ⟨message, text, logs, prints, List.mem_append_left more told⟩

/-- What becomes of a breakpoint where the script stops at some breakpoints, with what is exchanged
after that and the result of the call. -/
inductive Accounted (there : List Breakpoint) (breakpoint : Breakpoint)
    (result : Except DebugError ExecutionStatus) (after : List Exchange) : Prop
  /-- It is said to have made the script stop. -/
  | hit {status : ExecutionStatus} (stops : breakpoint.kind.logMessage? = none)
      (ok : result = .ok status) (blamed : breakpoint.id ∈ status.hitBreakpointIds)
  /-- Its message is printed. -/
  | printed (printed : Printed breakpoint after)
  /-- The call fails over an expression in a message that is to be printed there. -/
  | failed {other : Breakpoint} {message source : String} {error : DebugError}
      (member : other ∈ there) (logs : other.kind.logMessage? = some message)
      (expression : .expression source ∈ LogMessage.parse message) (fails : result = .error error)

namespace BreakpointTable

variable {table : BreakpointTable} {result : Except DebugError ExecutionStatus}
  {holds : List Breakpoint → Breakpoint → List Exchange → Prop}

/-- Something holds of all breakpoints where the script stopped, and of what was exchanged after
that. -/
def AtStops (table : BreakpointTable)
    (holds : List Breakpoint → Breakpoint → List Exchange → Prop) (exchanges : List Exchange) :
    Prop :=
  ∀ uri line after, StopsAt exchanges uri line after →
    ∀ breakpoint ∈ table.atLine (Uri.toPath uri) line,
      holds (table.atLine (Uri.toPath uri) line) breakpoint after

theorem atStops_of_quiet (quiet : ∀ exchange ∈ exchanges, exchange.request.resumes = false) :
    table.AtStops holds exchanges := by
  rintro uri line after ⟨before, answer, rest, rfl, -⟩
  have resumes : (Exchange.run answer).request.resumes = true := rfl
  cases resumes.symm.trans (quiet _ (List.mem_append_right _ List.mem_cons_self))

/-- Wherever the script stopped, all that was there were logpoints, whose messages were printed. -/
abbrev Settled (table : BreakpointTable) : List Exchange → Prop :=
  table.AtStops fun _ => Printed

/-- All breakpoints where the script stopped are accounted for. -/
abbrev Attributes (table : BreakpointTable) (result : Except DebugError ExecutionStatus) :
    List Exchange → Prop :=
  table.AtStops fun there breakpoint => Accounted there breakpoint result

/-- Once the script was let go on again, it remains to look where it stops then. -/
theorem Settled.append (settled : table.Settled exchanges)
    (printed : ∀ there breakpoint after, Printed breakpoint after → holds there breakpoint after)
    (quiet : ∀ exchange ∈ tail, exchange.request.resumes = false)
    (last : ∀ {uri line after}, Breaks answer tail uri line after →
      ∀ breakpoint ∈ table.atLine (Uri.toPath uri) line,
        holds (table.atLine (Uri.toPath uri) line) breakpoint after) :
    table.AtStops holds (exchanges ++ .run answer :: tail) := by
  intro uri line after stops breakpoint member
  rcases stopsAt_append quiet stops with ⟨rest, earlier, rfl⟩ | breaks
  · exact printed _ _ _ ((settled _ _ _ earlier breakpoint member).append _)
  · exact last breaks breakpoint member

/-- If the call ends before a place is told, nothing more is left to be accounted for. -/
theorem Settled.attributes_nil (settled : table.Settled exchanges) :
    table.Attributes result (exchanges ++ [.run answer]) := by
  refine settled.append (fun _ _ _ => .printed) (List.forall_mem_nil _) fun breaks => ?_
  obtain ⟨_, _, place, -⟩ := breaks.place
  cases place

end BreakpointTable

namespace Link

open Operation BreakpointTable

variable {table : BreakpointTable} {link : Link} {world : σ}

/-- What is found where the script stops without an exception. -/
theorem finds_of_breaks {response : Response} {state : RunState}
    {place : Except SessionError Response} {added : List Exchange} {stop : Stop}
    (breaks : Breaks (.ok response) (⟨.submit placeCommand none, place⟩ :: added) uri line after)
    (found : Finds table response state (response.reason?.getD .ok) (placeOf place) stop) :
    after = added ∧ stop.isException = false ∧
      (stop.messages = (table.atLine (Uri.toPath uri) line).filterMap fun breakpoint =>
        breakpoint.kind.logMessage?) ∧
      ∀ breakpoint ∈ table.atLine (Uri.toPath uri) line, breakpoint.kind.logMessage? = none →
        breakpoint ∈ stop.hits ∧ breakpoint.id ∈ stop.status.hitBreakpointIds := by
  obtain ⟨_, same, -, nothing, reason⟩ := breaks.status
  cases same
  obtain ⟨stack, frame, told, head, rfl, rfl⟩ := breaks.place
  cases told
  have where_ : placeOf (.ok stack) = some (Uri.toPath frame.fileUri, frame.line) := by
    rw [placeOf, head, Option.map_some]
  have messages := found.messages
  rw [where_] at found messages
  refine ⟨rfl, ?_, messages, fun breakpoint member stops => ?_⟩
  · rw [found.exception, nothing, Option.isSome_none, Bool.false_or, beq_eq_false_iff_ne]
    cases told : response.reason? with
    | none => nofun
    | some other => exact fun same => reason (told.trans (congrArg some same))
  · have blamed : breakpoint ∈ table.blamed (some (Uri.toPath frame.fileUri, frame.line)) :=
      List.mem_filter.2 ⟨member, Option.isNone_iff_eq_none.2 stops⟩
    rw [found.hits, found.ids]
    exact ⟨blamed, List.mem_map_of_mem blamed⟩

/-- The place is told without the script being let go on. -/
theorem quiet_place {added : List Exchange} (place : Except SessionError Response)
    (quiet : ∀ exchange ∈ added, exchange.request.resumes = false) :
    ∀ exchange ∈ (⟨.submit placeCommand none, place⟩ :: added : List Exchange),
      exchange.request.resumes = false :=
  List.forall_mem_cons.2 ⟨rfl, quiet⟩

/-- Once all messages are printed where the script has stopped, the breakpoints there that are no
logpoints are left. -/
theorem atStops_of_finds {response : Response} {state : RunState}
    {place : Except SessionError Response} {added : List Exchange} {stop : Stop}
    {holds : List Breakpoint → Breakpoint → List Exchange → Prop}
    (settled : table.Settled exchanges)
    (found : Finds table response state (response.reason?.getD .ok) (placeOf place) stop)
    (printed : ∀ there breakpoint after, Printed breakpoint after → holds there breakpoint after)
    (quiet : ∀ exchange ∈ added, exchange.request.resumes = false)
    (all : stop.isException = false → ∀ message ∈ stop.messages, ∃ text, Prints message text ∧
      ⟨.report (.message text), ()⟩ ∈ added)
    (hit : ∀ there, ∀ breakpoint ∈ stop.hits, breakpoint.kind.logMessage? = none →
      breakpoint.id ∈ stop.status.hitBreakpointIds → holds there breakpoint added) :
    table.AtStops holds
      (exchanges ++ .run (.ok response) :: ⟨.submit placeCommand none, place⟩ :: added) := by
  refine settled.append printed (quiet_place place quiet) fun breaks breakpoint member => ?_
  obtain ⟨rfl, clean, messages, hits⟩ := finds_of_breaks breaks found
  cases logs : breakpoint.kind.logMessage? with
  | none =>
      obtain ⟨stops, blamed⟩ := hits breakpoint member logs
      exact hit _ breakpoint stops logs blamed
  | some message =>
      have listed : message ∈ stop.messages :=
        messages ▸ List.mem_filterMap.2 ⟨breakpoint, member, logs⟩
      obtain ⟨text, prints, told⟩ := all clean message listed
      exact printed _ _ _ ⟨message, text, logs, prints, told⟩

/-- If a message cannot be printed, that is said of all breakpoints there. -/
theorem attributes_of_failed {response : Response} {state : RunState}
    {place : Except SessionError Response} {added : List Exchange} {stop : Stop}
    {error : DebugError} (settled : table.Settled exchanges)
    (found : Finds table response state (response.reason?.getD .ok) (placeOf place) stop)
    (printing : Printing stop.messages (.error error) added) :
    table.Attributes (.error error)
      (exchanges ++ .run (.ok response) :: ⟨.submit placeCommand none, place⟩ :: added) := by
  refine settled.append (fun _ _ _ => .printed) (quiet_place place printing.quiet)
    fun breaks breakpoint member => ?_
  obtain ⟨rfl, -, messages, -⟩ := finds_of_breaks breaks found
  obtain ⟨message, listed, source, expression⟩ := printing.failed error rfl
  rw [messages] at listed
  obtain ⟨other, there, logs⟩ := List.mem_filterMap.1 listed
  exact .failed there logs expression rfl

/-- If no place is told, no breakpoint is known to have made the script stop. -/
theorem attributes_of_unplaced {result : Except DebugError ExecutionStatus} {response : Response}
    {place : Except SessionError Response} {error : DebugError}
    (settled : table.Settled exchanges) (fails : heard place = .error error) :
    table.Attributes result
      (exchanges ++ [.run (.ok response), ⟨.submit placeCommand none, place⟩]) := by
  refine settled.append (fun _ _ _ => .printed) (quiet_place place (List.forall_mem_nil _))
    fun breaks => ?_
  obtain ⟨stack, _, same, -⟩ := breaks.place
  cases same
  cases fails

/-- Where nothing is printed there is an exception or no message. -/
theorem no_message_of_quiet {stop : Stop} (quiet : speaks .continue stop = false)
    (clean : stop.isException = false) : stop.messages = [] := by
  simpa [speaks, clean] using quiet

section Turn

variable {after : Link} {told : List Exchange}

/-- The script goes on only from logpoints whose messages were printed. -/
theorem TurnDone.settled (turn : TurnDone .continue link none after told)
    (breakpoints : link.breakpoints = table) (settled : table.Settled exchanges) :
    after.breakpoints = table ∧ table.Settled (exchanges ++ told) := by
  refine ⟨turn.breakpoints.trans breakpoints, ?_⟩
  cases turn with
  | goesOn halts logs spoken alone =>
      refine atStops_of_finds settled (halts.finds breakpoints) (fun _ _ _ => id)
        spoken.printing.quiet (fun _ => spoken.printing.all rfl) fun _ _ hit => ?_
      rw [alone] at hit
      cases hit

/-- When it stops for good, all breakpoints there are accounted for. -/
theorem TurnDone.attributes {result : Except DebugError ExecutionStatus}
    (turn : TurnDone .continue link (some result) after told)
    (breakpoints : link.breakpoints = table) (settled : table.Settled exchanges) :
    after.breakpoints = table ∧ table.Attributes result (exchanges ++ told) := by
  refine ⟨turn.breakpoints.trans breakpoints, ?_⟩
  cases turn with
  | refused | untold | elsewhere => exact settled.attributes_nil
  | unplaced _ fails => exact attributes_of_unplaced settled fails
  | interrupted halts _ spoken =>
      exact attributes_of_failed settled (halts.finds breakpoints) spoken.printing
  | joined halts _ spoken =>
      exact atStops_of_finds settled (halts.finds breakpoints) (fun _ _ _ => .printed)
        spoken.printing.quiet (fun _ => spoken.printing.all rfl)
        fun _ _ _ stops blamed => .hit stops rfl blamed
  | silent halts quiet =>
      refine atStops_of_finds settled (halts.finds breakpoints) (fun _ _ _ => .printed)
        (List.forall_mem_nil _) (fun clean message listed => ?_)
        fun _ _ _ stops blamed => .hit stops rfl blamed
      rw [no_message_of_quiet quiet clean] at listed
      cases listed

end Turn

/-- What becomes of the breakpoints where the script stops is accounted for when it stops for
good. -/
theorem execute_attributes (turns : Nat) (breakpoints : link.breakpoints = table)
    (settled : table.Settled exchanges) :
    (execute .continue turns).Leaves rule.recorded link (world, exchanges) fun result after last =>
      after.breakpoints = table ∧ table.Attributes result last.2 :=
  leaves_of_turn (P := fun link exchanges => link.breakpoints = table ∧ table.Settled exchanges)
    (Q := fun result after exchanges =>
      after.breakpoints = table ∧ table.Attributes result exchanges)
    (fun stands turn => turn.settled stands.1 stands.2)
    (fun stands turn => turn.attributes stands.1 stands.2) turns ⟨breakpoints, settled⟩

end Link

/-! ## Breakpoints that the engine is told of -/

/-- The engine has taken a breakpoint in the file of a URI under an id. -/
def Exchange.Sets (uri : String) (engineId : Nat) (exchange : Exchange) : Prop :=
  ∃ command response, exchange = ⟨.submit command none, .ok response⟩ ∧
    command.name = "breakpoint_set" ∧ command.get? 'f' = some uri ∧
      response.breakpointId? = some engineId

namespace Breakpoint

theorem get?_setCommand {breakpoint : Breakpoint} {file : String} {line : Nat}
    (hit : Option HitCondition) (located : breakpoint.location? = some (file, line)) :
    (breakpoint.setCommand hit).get? 'f' = some (Uri.ofPath file) := by
  unfold setCommand
  rw [located]
  cases breakpoint.temporary <;> cases hit <;> cases breakpoint.condition <;> rfl

/-- The file stays where the engine moves the line. -/
theorem location?_movedTo {kind : BreakpointKind} {file : String} {line moved : Nat}
    (located : (kind.movedTo moved).location? = some (file, line)) :
    ∃ asked, kind.location? = some (file, asked) := by
  cases kind with
  | line target | log target message =>
      simp only [BreakpointKind.movedTo, LineTarget.movedTo] at located
      split at located <;>
      · cases located
        exact ⟨_, rfl⟩
  | function target | «return» target =>
      obtain ⟨⟨other, asked⟩, bound, same⟩ := Option.map_eq_some_iff.1 located
      cases same
      exact ⟨asked, bound⟩
  | exception => cases located

/-- If the engine has a breakpoint, it was told of it by the URI of its file. -/
def Known (breakpoint : Breakpoint) (exchanges : List Exchange) : Prop :=
  ∀ file line, breakpoint.location? = some (file, line) → ∀ engineId ∈ breakpoint.engineId,
    ∃ exchange ∈ exchanges, exchange.Sets (Uri.ofPath file) engineId

theorem Known.append {breakpoint : Breakpoint} (known : breakpoint.Known exchanges)
    (more : List Exchange) : breakpoint.Known (exchanges ++ more) := by
  intro file line located engineId set
  obtain ⟨exchange, told, sets⟩ := known file line located engineId set
  exact ⟨exchange, List.mem_append_left more told, sets⟩

theorem known_of_engineId {breakpoint : Breakpoint} (unset : breakpoint.engineId = none) :
    breakpoint.Known exchanges := by
  intro file line _ engineId set
  cases unset.symm.trans set

end Breakpoint

namespace BreakpointTable

open Operation Breakpoint

variable {context : ScriptContext} {table : BreakpointTable} {world last : σ × List Exchange}

theorem known_of_offered {request : BreakpointRequest} {id : Nat} {breakpoint : Breakpoint}
    (offered : Offered rule.recorded (draft context request id) world (.ok breakpoint) last) :
    breakpoint.Known last.2 := by
  cases offered with
  | unplaced | unsaid | refused | unnumbered => exact known_of_engineId rfl
  | @taken hit response engineId _ _ reply answered number asked =>
      obtain ⟨answer, same, told⟩ := exchanges_of_answered answered
      obtain rfl : answer = .ok response := heard_injective same
      obtain ⟨_, -, toldLater⟩ := exchanges_of_answered asked
      rintro file line located _ ⟨⟩
      have located : ∃ asked, (draft context request id).location? = some (file, asked) := by
        cases chosen : boundLine reply with
        | none => exact ⟨line, by simpa [Breakpoint.location?, taken, chosen] using located⟩
        | some moved =>
            exact location?_movedTo (by simpa [Breakpoint.location?, taken, chosen] using located)
      obtain ⟨asked, located⟩ := located
      rw [toldLater, told]
      exact ⟨_, List.mem_append_left _ (List.mem_append_right _ (List.mem_singleton_self _)),
        _, response, rfl, setCommand_name _ hit, get?_setCommand hit located, number⟩

theorem kind_of_exception? {table : BreakpointTable} {breakpoint : Breakpoint}
    (found : table.exception? = some breakpoint) : breakpoint.kind = .exception :=
  beq_iff_eq.1 (List.find?_some (p := fun other : Breakpoint => other.kind == .exception) found)

/-- The engine is told of all breakpoints that are set. -/
theorem setAll_known (requests : List BreakpointRequest) :
    (setAll context requests).EnsuresOk rule.recorded table world fun set _ last =>
      (∃ more, last.2 = world.2 ++ more) ∧ ∀ breakpoint ∈ set, breakpoint.Known last.2 := by
  induction requests generalizing table world with
  | nil => exact EnsuresOk.pure ⟨⟨[], (List.append_nil _).symm⟩, List.forall_mem_nil _⟩
  | cons request rest ih =>
      have first : (setBreakpoint context request).EnsuresOk rule.recorded table world
          fun breakpoint _ last =>
            (∃ more, last.2 = world.2 ++ more) ∧ breakpoint.Known last.2 := by
        refine EnsuresOk.bind (EnsuresOk.get ?_)
        split
        · next existing found =>
          refine EnsuresOk.pure ⟨⟨[], (List.append_nil _).symm⟩, ?_⟩
          intro file line located
          split at found
          · rw [Breakpoint.location?, kind_of_exception? found] at located
            cases located
          · cases found
        · refine Ensures.mono (create_spec request) ?_
          rintro (error | breakpoint) later last created
          · trivial
          · cases created with
            | made offered => exact ⟨exchanges_of_offered offered, known_of_offered offered⟩
      refine EnsuresOk.bind (EnsuresOk.mono first ?_)
      rintro breakpoint between ⟨middle, _⟩ ⟨⟨more, rfl⟩, known⟩
      refine EnsuresOk.bind (EnsuresOk.mono ih ?_)
      rintro set later ⟨last, _⟩ ⟨⟨others, rfl⟩, all⟩
      refine EnsuresOk.pure ⟨⟨more ++ others, List.append_assoc _ _ _⟩, ?_⟩
      exact List.forall_mem_cons.2 ⟨known.append others, all⟩

end BreakpointTable

namespace Debugger

open Operation BreakpointTable

variable {debugger : Debugger} {world : σ}

theorem execute_attributes :
    (execute .continue).Leaves rule.recorded debugger (world, []) fun result _ last =>
      debugger.table.Attributes result last.2 := by
  refine (execute_leaves .continue fun link world exchanges told neutral =>
    Link.execute_attributes turnLimit told
      (atStops_of_quiet fun exchange member => (neutral exchange member).resumes)).mono ?_
  rintro result after last (⟨error, rfl, -, neutral⟩ | ⟨link, state, -, ⟨-, attributes⟩, -⟩)
  · exact atStops_of_quiet fun exchange member => (neutral exchange member).resumes
  · exact attributes

theorem target_sourceRequest (path : String) (wanted : SourceBreakpoint) :
    ∃ column message, (sourceRequest path wanted).target =
      .line path wanted.line.toNat column message := by
  obtain ⟨line, column, condition, hitCondition, message⟩ := wanted
  cases column <;> cases condition <;> cases hitCondition <;> cases message <;> exact ⟨_, _, rfl⟩

theorem location?_of_target {breakpoint : Breakpoint} {path : String} {line : Nat}
    {column : Option Nat} {message : Option String}
    (target : breakpoint.request.target = .line path line column message) :
    ∃ bound, breakpoint.location? = some (path, bound) := by
  rw [Breakpoint.request] at target
  unfold Breakpoint.location?
  cases kind : breakpoint.kind with
  | line bound | log bound text =>
      rw [kind] at target
      cases target
      exact ⟨bound.line, rfl⟩
  | function | «return» | exception =>
      rw [kind] at target
      cases target

theorem setLines_known (context : ScriptContext) (path : String) {wanted : List BreakpointRequest}
    (ordinary : ∀ request ∈ wanted, request.target ≠ .exception) {table : BreakpointTable}
    {world : σ × List Exchange} :
    (BreakpointTable.setLines context path wanted).EnsuresOk rule.recorded table world
      fun set later last => set.map Breakpoint.request = wanted ∧
        ∀ breakpoint ∈ set, breakpoint ∈ later.breakpoints ∧ breakpoint.Known last.2 := by
  refine EnsuresOk.bind ((walks_removeWhere (·.isIn path) table world).mono ?_)
  rintro (error | removed) between middle -
  · trivial
  · refine EnsuresOk.mono ((setAll_breakpoints wanted ordinary).and (setAll_known wanted)) ?_
    rintro set later last ⟨⟨recorded, same⟩, -, known⟩
    refine ⟨same, fun breakpoint member => ⟨?_, known breakpoint member⟩⟩
    rw [recorded]
    exact List.mem_append_right _ member

/-- What is set on lines of a source is recorded, and the engine is told of it by the URI of the
source. -/
theorem setBreakpoints_known {request : BreakpointsRequest} {path : String}
    (source : request.source.path = some path) :
    (setBreakpoints request).EnsuresOk rule.recorded debugger (world, ([] : List Exchange))
      fun reports after last => ∃ set : List Breakpoint, reports = set.map Breakpoint.report ∧
        set.map Breakpoint.request = request.breakpoints.map (sourceRequest path) ∧
        ∀ breakpoint ∈ set, breakpoint ∈ after.table.breakpoints ∧ breakpoint.Known last.2 := by
  have ordinary : ∀ wanted ∈ request.breakpoints.map (sourceRequest path),
      wanted.target ≠ .exception := by
    intro wanted member
    obtain ⟨one, -, rfl⟩ := List.mem_map.1 member
    obtain ⟨column, message, target⟩ := target_sourceRequest path one
    rw [target]
    nofun
  rw [setBreakpoints, source]
  refine (ensures_bind _ _).2 (ensures_get.2 ((ensures_bind _ _).2 ?_))
  refine (ensures_whenConnected_onBreakpoints _ (fun _ _ => trivial)
    fun world => setLines_known _ path ordinary).mono ?_
  rintro (error | set) after last told
  · trivial
  · exact (ensures_pure _).2 ⟨set, rfl, told⟩

/-- A stop at a breakpoint is put down to it, whatever is set on which lines of a source, and
whatever the engine answers, if the path of the source begins with a drive letter or with a slash
that stands before none.  What is set is recorded, the engine is told of it by the URI of the path,
and whenever the script is let go on later and stops without an exception in a frame with that URI,
on the line that a breakpoint is bound to, this one is among those that have made it stop, or its
message is printed, unless the call fails over an expression in a message that is to be printed
there. -/
theorem stops_attributed (rule : AnswerRule σ) (debugger : Debugger) (world : σ)
    (request : BreakpointsRequest) {path : String} (source : request.source.path = some path)
    (placed : Path.isPlaced path = true) :
    (setBreakpoints request).EnsuresOk rule.recorded debugger (world, ([] : List Exchange))
      fun reports after last => ∃ set : List Breakpoint, reports = set.map Breakpoint.report ∧
        set.map Breakpoint.request = request.breakpoints.map (sourceRequest path) ∧
        ∀ breakpoint ∈ set, breakpoint ∈ after.table.breakpoints ∧
          (∀ engineId ∈ breakpoint.engineId,
            ∃ exchange ∈ last.2, exchange.Sets (Uri.ofPath path) engineId) ∧
          ∃ line, breakpoint.location? = some (path, line) ∧
            ∀ {τ : Type} (rule : AnswerRule τ) (later : Debugger) (world : τ),
              breakpoint ∈ later.table.breakpoints →
                (execute .continue).Leaves rule.recorded later (world, []) fun result _ last =>
                  ∀ after, StopsAt last.2 (Uri.ofPath path) line after →
                    Accounted (later.table.atLine (Uri.toPath (Uri.ofPath path)) line) breakpoint
                      result after := by
  refine EnsuresOk.mono (setBreakpoints_known source) ?_
  rintro reports after last ⟨set, rfl, same, recorded⟩
  refine ⟨set, rfl, same, fun breakpoint member => ?_⟩
  obtain ⟨there, known⟩ := recorded breakpoint member
  obtain ⟨line, located⟩ : ∃ line, breakpoint.location? = some (path, line) := by
    have wanted : breakpoint.request ∈ request.breakpoints.map (sourceRequest path) :=
      same ▸ List.mem_map_of_mem member
    obtain ⟨one, -, asked⟩ := List.mem_map.1 wanted
    obtain ⟨column, message, target⟩ := target_sourceRequest path one
    exact location?_of_target (asked ▸ target)
  refine ⟨there, known path line located, line, located, fun rule later world kept => ?_⟩
  refine execute_attributes.mono fun result _ last attributes after stops => ?_
  refine attributes _ _ _ stops breakpoint (List.mem_filter.2 ⟨kept, ?_⟩)
  rw [Breakpoint.isAt, located]
  exact Bool.and_eq_true_iff.2
    ⟨beq_self_eq_true line, (Uri.sameFile_toPath_ofPath path).trans placed⟩

/-- A breakpoint is wanted on the third line of a source. -/
def onThird (path : String) : BreakpointsRequest where
  source := { name := none, path := some path }
  breakpoints :=
    [{ line := 3, column := none, condition := none, hitCondition := none, logMessage := none }]

/-- The breakpoint that is set there, which the engine has. -/
def third (path : String) : Breakpoint where
  id := 1
  engineId := some 1
  enabled := true
  temporary := false
  condition := none
  hitCondition := none
  message := some "no executable code at or after line 3"
  kind := .line { file := path, line := 3, column := none, verified := false, requestedLine := 3 }

/-- The debugger with the breakpoint that is set there. -/
def keeping (path : String) : Debugger :=
  storing { breakpoints := [third path], nextId := 2 }

/-- What is exchanged when the script goes on and stops. -/
def haltingOnce : List Exchange :=
  [⟨.isClosed, false⟩, .run (halting (.named "run")),
    ⟨.submit Link.placeCommand none, halting Link.placeCommand⟩]

/-- What is exchanged when the breakpoint is set. -/
def settingOnce (path : String) : List Exchange :=
  let set := (third path).setCommand none
  let get := (Command.named "breakpoint_get").argNat 'd' 1
  [⟨.isClosed, false⟩, ⟨.submit set none, halting set⟩, ⟨.submit get none, halting get⟩]

theorem sets_settingOnce (path : String) :
    ∃ exchange ∈ settingOnce path, exchange.Sets (Uri.ofPath path) 1 :=
  ⟨_, List.mem_cons_of_mem _ List.mem_cons_self, _, _, rfl, Breakpoint.setCommand_name _ none,
    Breakpoint.get?_setCommand none rfl, by with_unfolding_all rfl⟩

/-- Setting a breakpoint on the third line of a source, and letting the script go on with it: both
succeed, the engine takes the breakpoint, and the script stops where the engine has it. -/
def StopsThere (path : String) (reports : List BreakpointReport) (status : ExecutionStatus) :
    Prop :=
  ((setBreakpoints (onThird path)).run.run (storing .empty)).run (attended halting).rule.recorded
      ((), []) = (some (.ok reports, keeping path), ((), settingOnce path)) ∧
    (∃ exchange ∈ settingOnce path, exchange.Sets (Uri.ofPath path) 1) ∧
    StopsAt haltingOnce (Uri.ofPath path) 3 [] ∧
    ∃ after, ((execute .continue).run.run (keeping path)).run (attended halting).rule.recorded
      ((), []) = (some (.ok status, after), ((), haltingOnce))

theorem stopsAt_haltingOnce {uri : String} (same : uri = "file:///main.ahk") :
    StopsAt haltingOnce uri 3 [] := by
  subst same
  refine ⟨[_], _, _, rfl, ⟨_, rfl, ?_, ?_, ?_⟩, _, ?frame, rfl, ?head, ?uri, ?line⟩
  case head => with_unfolding_all rfl
  all_goals decide +kernel

/-- A path that begins with a slash comes back from its URI. -/
theorem stops_attributed_rooted :
    ∃ reports status, StopsThere "/main.ahk" reports status ∧
      (third "/main.ahk").id ∈ status.hitBreakpointIds := by
  obtain ⟨reports, status, there⟩ : ∃ reports status, StopsThere "/main.ahk" reports status := by
    refine ⟨?reports, ?status, ?set, sets_settingOnce _, ?stops, ?after, ?run⟩
    case set => with_unfolding_all rfl
    case stops => exact stopsAt_haltingOnce (by decide +kernel)
    case run => with_unfolding_all rfl
  refine ⟨reports, status, there, ?_⟩
  obtain ⟨setRun, -, stops, after, goRun⟩ := there
  obtain ⟨result, debugger, last, run, told⟩ :=
    stops_attributed (attended halting).rule (storing .empty) () (onThird "/main.ahk") rfl
      (by decide +kernel)
  cases run.symm.trans setRun
  obtain ⟨set, -, same, all⟩ := told
  obtain ⟨breakpoint, rfl⟩ : ∃ breakpoint, set = [breakpoint] :=
    List.length_eq_one_iff.1 ((List.length_map _).symm.trans (congrArg List.length same))
  obtain ⟨recorded, -, line, located, attributed⟩ := all breakpoint List.mem_cons_self
  obtain rfl : breakpoint = third "/main.ahk" := List.mem_singleton.1 recorded
  cases located
  cases attributed (attended halting).rule _ () recorded _ _ _ goRun _ stops with
  | hit stops ok blamed =>
      cases ok
      exact blamed
  | printed printed =>
      obtain ⟨message, -, logs, -⟩ := printed
      cases logs
  | failed member logs expression fails => cases fails

/-- A path that begins with a name comes back from its URI with a slash in front: no breakpoint is
said to have made the script stop. -/
theorem stops_unattributed_relative :
    ∃ reports status, StopsThere "main.ahk" reports status ∧ status.hitBreakpointIds = [] := by
  refine ⟨?reports, ?status, ⟨?set, sets_settingOnce _, ?stops, ?after, ?run⟩, ?none⟩
  case set => with_unfolding_all rfl
  case stops => exact stopsAt_haltingOnce (by decide +kernel)
  case run => with_unfolding_all rfl
  case none => decide +kernel

end Debugger

end DebugBridge
