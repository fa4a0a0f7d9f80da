import DebugBridge.Proofs.Debugger.Conduct
import DebugBridge.Proofs.Debugger.Phases

/-!
# Rules that care little

To prepare an engine, to set breakpoints, to look at a script and to let it go on takes requests
that a rule for debuggers need not care about.  Whatever such a rule keeps in order is kept by all
these operations, so that only to connect and to part have to be looked at, rule by rule.
-/

namespace DebugBridge
namespace Debugger

open Operation

variable {α π : Type} {conduct : Conduct π} {inOrder : Debugger → π → Prop}
  {debugger : Debugger} {point : π}

/-! ## What is known of the engine -/

theorem obeys_onLink {operation : LinkOperation α} {link : Link}
    {post : Except DebugError α → Debugger → π → Prop} :
    (onLink link operation).Obeys conduct debugger point post ↔
      operation.Obeys conduct link point fun result link point =>
        post result { debugger with link := some link } point := by
  have after : (onLink link operation).run.run debugger =
      (operation.run.run link).andThen fun entry =>
        .done (entry.1, { debugger with link := some entry.2 }) := rfl
  unfold Obeys
  rw [after, Talk.obeys_andThen]
  rfl

/-- What is known of the engine is at hand, or nothing happens. -/
theorem abides_knownLink_bind {operation : Link → DebuggerOperation α}
    (abides : ∀ debugger point link, inOrder debugger point → debugger.link = some link →
      (operation link).Obeys conduct debugger point fun _ after last => inOrder after last) :
    Abides conduct inOrder (do let link ← knownLink; operation link) := by
  intro debugger point holds
  rw [obeys_bind, knownLink, obeys_bind, obeys_get]
  dsimp only
  cases linked : debugger.link with
  | none => exact holds
  | some link => exact abides debugger point link holds linked

/-- What is done with what is known of the engine keeps everything in order. -/
def KeepsOrder (conduct : Conduct π) (inOrder : Debugger → π → Prop)
    (operation : LinkOperation α) : Prop :=
  ∀ debugger point link, inOrder debugger point → debugger.link = some link →
    operation.Obeys conduct link point fun _ other last =>
      inOrder { debugger with link := some other } last

theorem KeepsOrder.onLink {operation : LinkOperation α}
    (keeps : KeepsOrder conduct inOrder operation) :
    Abides conduct inOrder (do let link ← knownLink; onLink link operation) :=
  abides_knownLink_bind fun _ _ _ holds linked => obeys_onLink.2 (keeps _ _ _ holds linked)

theorem KeepsOrder.onLink_bind {β : Type} {operation : LinkOperation α}
    {next : α → DebuggerOperation β} (keeps : KeepsOrder conduct inOrder operation)
    (rest : ∀ value, Abides conduct inOrder (next value)) :
    Abides conduct inOrder
      (do let link ← knownLink; let value ← Debugger.onLink link operation; next value) := by
  refine abides_knownLink_bind fun _ _ _ holds linked =>
    (obeys_bind _ _).2 (obeys_onLink.2 ?_)
  refine (keeps _ _ _ holds linked).mono ?_
  rintro (error | value) other last holds
  · exact holds
  · exact rest value _ last holds

/-- To tell its phase a debugger asks for nothing but whether the session has ended. -/
theorem abides_currentPhase
    (asks : Abides conduct inOrder (ask .isClosed : DebuggerOperation Bool)) :
    Abides conduct inOrder currentPhase := by
  refine Abides.get.bind fun debugger => ?_
  split
  · refine asks.bind fun (closed : Bool) => ?_
    cases closed <;> exact .pure _
  · exact .pure _

theorem abides_connectedState
    (asks : Abides conduct inOrder (ask .isClosed : DebuggerOperation Bool)) (name : String) :
    Abides conduct inOrder (connectedState name) := by
  refine (abides_currentPhase asks).bind fun phase => ?_
  cases phase with
  | connected state => exact .pure _
  | closed => exact .throw _
  | idle | launching | attaching => exact .throw _

/-! ## Rules that take no notice -/

/-- A rule takes no notice of quiet requests, nor of what an engine can do and which breakpoints
there are. -/
structure Lenient (conduct : Conduct π) (inOrder : Debugger → π → Prop) : Prop where
  /-- Quiet requests are allowed. -/
  quiet {debugger : Debugger} {point : π} (holds : inOrder debugger point) (request : Request)
    (quiet : request.isQuiet = true) : conduct.allows point request ∧
      ∀ answer, inOrder debugger (conduct.next point ⟨request, answer⟩)
  /-- An engine may be able to do anything. -/
  features {debugger : Debugger} {point : π} {link : Link} (holds : inOrder debugger point)
    (linked : debugger.link = some link) (features : EngineFeatures) :
    inOrder { debugger with link := some { link with features } } point
  /-- There may be any breakpoints. -/
  breakpoints {debugger : Debugger} {point : π} {link : Link} (holds : inOrder debugger point)
    (linked : debugger.link = some link) (breakpoints : BreakpointTable) :
    inOrder { debugger with link := some { link with breakpoints } } point

/-- Nor does it take notice of how the script goes on and of what is seen of it. -/
structure Yielding (inOrder : Debugger → π → Prop) : Prop where
  /-- A debugger may see anything of a script, and that may be in any state. -/
  moved {debugger : Debugger} {point : π} {link other : Link} {phase : Phase}
    (holds : inOrder debugger point) (linked : debugger.link = some link)
    (busy : phase = .idle → debugger.phase = .idle) (mode : other.mode = link.mode) :
    inOrder { debugger with phase, link := some other } point

/-- The script may be let go on in a way, as long as it likes. -/
def LetsGoOn (conduct : Conduct π) (inOrder : Debugger → π → Prop)
    (continuation : Continuation) : Prop :=
  ∀ {debugger point}, inOrder debugger point →
    conduct.allows point (.submit (.named continuation.commandName) none) ∧
      conduct.lasts point ∧ ∀ answer, inOrder debugger
        (conduct.next point ⟨.submit (.named continuation.commandName) none, answer⟩)

section Lenient

variable (lenient : Lenient conduct inOrder)
include lenient

theorem abides_ask {request : Request} (quiet : request.isQuiet = true) :
    Abides conduct inOrder (ask request : DebuggerOperation request.Answer) :=
  .ask fun _ _ holds => lenient.quiet holds request quiet

theorem obeys_quiet {τ υ : Type} {operation : Operation τ α} {view : τ → υ}
    (quiet : operation.Quiet view) (holds : inOrder debugger point) (state : τ) :
    operation.Obeys conduct state point fun _ after last =>
      inOrder debugger last ∧ view after = view state :=
  quiet.obeys (fun _ holds request quiet => lenient.quiet holds request quiet)
    (fun _ _ request quiet resumes => by
      rw [Request.resumes_of_isQuiet quiet] at resumes
      cases resumes) state holds

/-! ## Breakpoints -/

theorem keepsOrder_onBreakpoints {operation : TableOperation α}
    (quiet : operation.Quiet fun _ => ()) :
    KeepsOrder conduct inOrder (Link.onBreakpoints operation) := by
  intro debugger point link holds linked
  refine (obeys_within _ _ _).2 ((obeys_quiet lenient quiet holds _).mono ?_)
  exact fun _ breakpoints _ kept => lenient.breakpoints kept.1 linked breakpoints

theorem abides_whenConnected {operation : LinkOperation α} (name : String)
    (keeps : KeepsOrder conduct inOrder operation) :
    Abides conduct inOrder (whenConnected name operation) :=
  (abides_connectedState (abides_ask lenient rfl) name).bind fun _ => keeps.onLink

theorem abides_setBreakpoints (request : BreakpointsRequest) :
    Abides conduct inOrder (setBreakpoints request) := by
  unfold setBreakpoints
  cases request.source.path with
  | none => exact .throw _
  | some path =>
      refine Abides.get.bind fun debugger => (abides_whenConnected lenient _ ?_).bind
        fun _ => .pure _
      exact keepsOrder_onBreakpoints lenient (BreakpointTable.quiet_setLines _ _ _)

theorem abides_setFunctionBreakpoints (wanted : List FunctionBreakpoint) :
    Abides conduct inOrder (setFunctionBreakpoints wanted) := by
  refine Abides.get.bind fun debugger => (abides_whenConnected lenient _ ?_).bind fun _ => .pure _
  refine keepsOrder_onBreakpoints lenient ((BreakpointTable.quiet_removeWhere _).bind fun _ => ?_)
  exact BreakpointTable.quiet_setAll _ _

theorem abides_setExceptionBreakpoints (filters : List String) :
    Abides conduct inOrder (setExceptionBreakpoints filters) := by
  refine Abides.get.bind fun debugger => (abides_whenConnected lenient _ ?_).bind fun _ => .pure _
  exact keepsOrder_onBreakpoints lenient (BreakpointTable.quiet_setException _ _)

/-! ## Preparing an engine -/

omit lenient in
theorem quiet_query : Quiet id (EngineFeatures.query : LinkOperation EngineFeatures) := by
  have value (name : String) :
      Quiet id (EngineFeatures.featureValue? name : LinkOperation (Option String)) := by
    refine (Quiet.attempt (show "feature_get" ∉ Continuation.movingNames by decide)).bind
      fun answer => ?_
    split <;> exact .pure _
  exact (value _).bind fun _ => (value _).bind fun _ => (value _).bind fun _ => .pure _

theorem keepsOrder_query : KeepsOrder conduct inOrder EngineFeatures.query := by
  intro debugger point link holds linked
  refine (obeys_quiet lenient quiet_query holds link).mono ?_
  rintro _ other last ⟨holds, same⟩
  rw [show other = link from same]
  exact lenient.features holds linked link.features

omit lenient in
theorem quiet_seed (context : ScriptContext) (config : DebugConfig) :
    Quiet (fun _ => ()) (seed context config) := by
  have lines (groups : List (String × List BreakpointRequest)) :
      Quiet (fun _ => ()) (seedLines context groups) := by
    induction groups with
    | nil => exact .pure _
    | cons group rest ih =>
        exact (BreakpointTable.quiet_setLines _ _ _).bind fun _ => ih.bind fun _ => .pure _
  refine (lines _).bind fun _ => (BreakpointTable.quiet_setAll _ _).bind fun _ => ?_
  dsimp only
  split
  · exact (BreakpointTable.quiet_setException _ _).bind fun _ => .pure _
  · exact (Asks.pure _).bind fun _ => .pure _

omit lenient in
theorem setupCommands_not_moving (config : DebugConfig) :
    ∀ command ∈ setupCommands config, command.name ∉ Continuation.movingNames := by
  intro command member
  rcases List.mem_append.1 member with feature | output
  · obtain ⟨entry, -, rfl⟩ := List.mem_map.1 feature
    exact show "feature_set" ∉ Continuation.movingNames by decide
  · split at output
    · rcases List.mem_cons.1 output with rfl | later
      · exact show "stdout" ∉ Continuation.movingNames by decide
      · rw [List.mem_singleton.1 later]
        exact show "stderr" ∉ Continuation.movingNames by decide
    · cases output

theorem abides_prepare {commands : List Command}
    (others : ∀ command ∈ commands, command.name ∉ Continuation.movingNames) :
    Abides conduct inOrder (prepare commands : DebuggerOperation Unit) := by
  induction commands with
  | nil => exact .pure _
  | cons command rest ih =>
      rw [List.forall_mem_cons] at others
      refine (abides_ask lenient (isQuiet_submit others.1)).bind
        fun (answer : Except SessionError Response) => ?_
      cases answer with
      | ok response => exact ih others.2
      | error error => exact (abides_ask lenient rfl).bind fun _ => ih others.2

/-- An engine is prepared. -/
theorem abides_negotiate : Abides conduct inOrder negotiate := by
  have reports (seeded : List Breakpoint) : Abides conduct inOrder (do
      for breakpoint in seeded do
        if !breakpoint.verified then Operation.report (.warning (unsetWarning breakpoint)) :
      DebuggerOperation Unit) := by
    refine (Abides.forIn fun breakpoint _ => ?_).bind fun _ => .pure _
    split
    · exact (abides_ask lenient rfl).bind fun _ => .pure _
    · exact .pure _
  have seeds (debugger : Debugger) : Abides conduct inOrder (do
      let seeded ← onLink (← knownLink)
        (Link.onBreakpoints (seed debugger.script debugger.config))
      for breakpoint in seeded do
        if !breakpoint.verified then Operation.report (.warning (unsetWarning breakpoint)) :
      DebuggerOperation Unit) :=
    (keepsOrder_onBreakpoints lenient (quiet_seed _ _)).onLink_bind reports
  have equips (debugger : Debugger) : Abides conduct inOrder (do
      prepare (setupCommands debugger.config)
      if ← Operation.ask .isClosed then throw (.session .closed)
      let seeded ← onLink (← knownLink)
        (Link.onBreakpoints (seed debugger.script debugger.config))
      for breakpoint in seeded do
        if !breakpoint.verified then Operation.report (.warning (unsetWarning breakpoint)) :
      DebuggerOperation Unit) := by
    refine (abides_prepare lenient (setupCommands_not_moving _)).bind fun _ =>
      (abides_ask lenient rfl).bind fun (closed : Bool) => ?_
    dsimp only
    split
    · exact (Abides.throw _).bind fun _ => seeds debugger
    · exact seeds debugger
  refine Abides.get.bind fun debugger =>
    (keepsOrder_query lenient).onLink_bind fun features => ?_
  refine KeepsOrder.onLink_bind (fun _ _ _ holds linked => lenient.features holds linked features)
    fun _ => ?_
  dsimp only
  split
  · exact (abides_ask lenient rfl).bind fun _ => equips debugger
  · exact equips debugger

/-! ## Looking at a script, and letting it go on -/

theorem keepsOrder_of_quiet (yields : Yielding inOrder) {operation : LinkOperation α}
    (quiet : operation.Quiet Link.mode) : KeepsOrder conduct inOrder operation := by
  intro debugger point link holds linked
  exact (obeys_quiet lenient quiet holds link).mono fun _ other _ kept =>
    yields.moved kept.1 linked id kept.2

theorem abides_execute (yields : Yielding inOrder) {continuation : Continuation}
    (goesOn : LetsGoOn conduct inOrder continuation) :
    Abides conduct inOrder (execute continuation) := by
  have moves {debugger : Debugger} (point : π) (holds : inOrder debugger point)
      (request : Request) (moves : Link.Moves continuation request) :
      conduct.allows point request ∧
        ∀ answer, inOrder debugger (conduct.next point ⟨request, answer⟩) := by
    rcases moves with quiet | rfl
    · exact lenient.quiet holds request quiet
    · exact ⟨(goesOn holds).1, (goesOn holds).2.2⟩
  have goes (state : RunState) : Abides conduct inOrder (do
      let link ← knownLink
      setPhase (.connected .running)
      try
        let status ← onLink link (Link.execute continuation turnLimit)
        setPhase (.connected status.state)
        return status
      catch error =>
        setPhase (if error.isClosed then .closed else .connected state)
        throw error : DebuggerOperation ExecutionStatus) := by
    refine abides_knownLink_bind fun debugger point link holds linked =>
      (obeys_bind _ _).2 ((obeys_modify _).2 ?_)
    have running :
        inOrder { debugger with phase := .connected .running, link := some link } point :=
      yields.moved holds linked nofun rfl
    refine (obeys_bind _ _).2 ((obeys_tryCatch _ _).2 ((obeys_bind _ _).2 (obeys_onLink.2 ?_)))
    have lasts (point : π) (holds : inOrder { debugger with
        phase := .connected .running, link := some link } point) (request : Request)
        (_ : Link.Moves continuation request) (_ : request.resumes = true) :
        conduct.lasts point := (goesOn holds).2.1
    refine ((Link.asks_execute continuation turnLimit).obeys moves lasts _ running).mono ?_
    rintro result other last ⟨holds, mode⟩
    have ended {phase : Phase} (busy : phase ≠ .idle) :
        inOrder { debugger with phase, link := some other } last := by
      have moved := yields.moved holds rfl (fun idle => absurd idle busy) mode
      exact moved
    cases result with
    | error error =>
        refine (obeys_bind _ _).2 ((obeys_modify _).2 ?_)
        dsimp only
        split <;> exact ended nofun
    | ok status => exact (obeys_bind _ _).2 ((obeys_modify _).2 (ended nofun))
  refine (abides_connectedState (abides_ask lenient rfl) _).bind fun state => ?_
  dsimp only
  split
  · exact (abides_currentPhase (abides_ask lenient rfl)).bind fun _ =>
      (Abides.throw _).bind fun _ => goes state
  · exact goes state

theorem abides_configurationDone (yields : Yielding inOrder)
    (goesOn : ∀ continuation, continuation = .continue ∨ continuation = .stepIn →
      LetsGoOn conduct inOrder continuation) :
    Abides conduct inOrder configurationDone := by
  refine Abides.get.bind fun debugger => ?_
  split
  · exact abides_execute lenient yields (goesOn _ (.inl rfl))
  · exact (abides_execute lenient yields (goesOn _ (.inr rfl))).bind fun _ => .pure _

end Lenient

/-! ## Connecting -/

/-- What comes of a way to make a connection: something is reached by that, or the debugger may be
closed. -/
def Arrives (inOrder : Debugger → π → Prop) (reached : Established → Debugger → π → Prop)
    (result : Except DebugError Established) (debugger : Debugger) (point : π) : Prop :=
  match result with
  | .ok established => reached established debugger point
  | .error _ => inOrder { debugger with phase := .closed } point

/-- What a rule has to say about connecting: where that begins, what is reached by making a
connection in each way, and that the greeting may be waited for then. -/
structure Connects (conduct : Conduct π) (inOrder begins : Debugger → π → Prop)
    (reached : RequestKind → Established → Debugger → π → Prop) : Prop where
  /-- An idle debugger may begin. -/
  idle {debugger : Debugger} {point : π} (holds : inOrder debugger point)
    (idle : debugger.phase = .idle) (phase : Phase) : begins { debugger with phase } point
  /-- The interpreter is started and waited for. -/
  listens {debugger : Debugger} {point : π} (begins : begins debugger point) :
    launchListening.Obeys conduct debugger point (Arrives inOrder (reached .launch))
  /-- The interpreter is started and dialled. -/
  dials {debugger : Debugger} {point : π} (begins : begins debugger point) :
    launchConnecting.Obeys conduct debugger point (Arrives inOrder (reached .launch))
  /-- A running script is waited for. -/
  waits {debugger : Debugger} {point : π} (begins : begins debugger point) :
    attachListening.Obeys conduct debugger point (Arrives inOrder (reached .attach))
  /-- There is a connection already. -/
  stands {debugger : Debugger} {point : π} (begins : begins debugger point) :
    reached .attach { launched := false, listening := false } debugger point
  /-- The greeting is waited for. -/
  greets {mode : RequestKind} {established : Established} {debugger : Debugger} {point : π}
    (reached : reached mode established debugger point) :
    (greet mode established).Obeys conduct debugger point fun _ after last => inOrder after last

namespace Connects

variable {begins : Debugger → π → Prop} {reached : RequestKind → Established → Debugger → π → Prop}
  (connects : Connects conduct inOrder begins reached)
include connects

theorem obeys_connectBy {mode : RequestKind} {way : DebuggerOperation Established}
    (arrives : way.Obeys conduct debugger point (Arrives inOrder (reached mode))) :
    (connectBy mode way).Obeys conduct debugger point fun _ after last => inOrder after last := by
  refine (obeys_bind _ _).2 ((obeys_tryCatch _ _).2 (arrives.mono ?_))
  rintro (error | established) debugger point arrived
  · exact (obeys_bind _ _).2 ((obeys_modify _).2 arrived)
  · exact connects.greets arrived

/-- Only an idle debugger begins. -/
theorem abides_begin_bind (lenient : Lenient conduct inOrder)
    {operation : DebuggerOperation Unit} (name : String) (next : Phase)
    (obeys : ∀ debugger point, begins debugger point →
      operation.Obeys conduct debugger point fun _ after last => inOrder after last) :
    Abides conduct inOrder (do begin name next; operation) := by
  intro debugger point holds
  refine (obeys_bind _ _).2 ((obeys_bind _ _).2 (obeys_get.2 ?_))
  dsimp only
  split
  · have asks : Abides conduct inOrder (ask .isClosed : DebuggerOperation Bool) :=
      abides_ask lenient rfl
    refine (obeys_bind _ _).2 ((abides_currentPhase asks _ _ holds).mono ?_)
    rintro (error | phase) debugger point holds <;> exact holds
  next idle =>
  exact (obeys_modify _).2 (obeys _ _ (connects.idle holds (by simpa using idle) next))

theorem abides_launch (lenient : Lenient conduct inOrder) : Abides conduct inOrder launch := by
  refine connects.abides_begin_bind lenient _ _ fun debugger point begins => ?_
  refine (obeys_bind _ _).2 (obeys_get.2 ?_)
  dsimp only
  split
  · exact connects.obeys_connectBy (connects.listens begins)
  · exact connects.obeys_connectBy (connects.dials begins)

theorem abides_attach (lenient : Lenient conduct inOrder) : Abides conduct inOrder attach :=
  connects.abides_begin_bind lenient _ _ fun _ _ begins =>
    connects.obeys_connectBy (connects.waits begins)

theorem abides_attachStream (lenient : Lenient conduct inOrder) :
    Abides conduct inOrder attachStream :=
  connects.abides_begin_bind lenient _ _ fun _ _ begins => connects.greets (connects.stands begins)

theorem abides_start (lenient : Lenient conduct inOrder) : Abides conduct inOrder start := by
  refine Abides.get.bind fun debugger => ?_
  split
  · exact connects.abides_launch lenient
  · exact connects.abides_attach lenient

end Connects

/-! ## Calls -/

/-- Whether a call looks at a script that has stopped or lets it go on. -/
def Call.usesNumbers : Call → Bool
  | .configurationDone | .resume _ | .stackTrace | .scopes _ | .variablesIn _ | .evaluate _
  | .completions _ _ => true
  | _ => false

/-- Whatever is asked of a debugger, a rule is kept that says what it has to say about connecting
and about parting and does not care about anything else. -/
theorem Lenient.abides (lenient : Lenient conduct inOrder) (call : Call)
    (yields : call.usesNumbers = true → Yielding inOrder)
    (goesOn : ∀ config continuation, call.continuation? config = some continuation →
      LetsGoOn conduct inOrder continuation)
    (connects : call.connects = true → ∃ begins reached, Connects conduct inOrder begins reached)
    (detaches : call = .detach → Abides conduct inOrder detach)
    (closes : call = .close → Abides conduct inOrder close) :
    Abides conduct inOrder call.operation := by
  have looks {name : String} {value : Type} {operation : LinkOperation value}
      (yields : Yielding inOrder) (quiet : operation.Quiet Link.mode) :
      Abides conduct inOrder (Call.silent (whenConnected name operation)) :=
    (abides_whenConnected lenient name (keepsOrder_of_quiet lenient yields quiet)).bind
      fun _ => .pure _
  cases call with
  | start =>
      obtain ⟨_, _, connects⟩ := connects rfl
      exact connects.abides_start lenient
  | launch =>
      obtain ⟨_, _, connects⟩ := connects rfl
      exact connects.abides_launch lenient
  | attach =>
      obtain ⟨_, _, connects⟩ := connects rfl
      exact connects.abides_attach lenient
  | attachStream =>
      obtain ⟨_, _, connects⟩ := connects rfl
      exact connects.abides_attachStream lenient
  | configurationDone =>
      refine (abides_configurationDone lenient (yields rfl) ?_).bind fun _ => .pure _
      rintro continuation (rfl | rfl)
      · exact goesOn { DebugConfig.forProgram "" with stopOnEntry := false } _ rfl
      · exact goesOn { DebugConfig.forProgram "" with stopOnEntry := true } _ rfl
  | resume continuation =>
      exact (abides_execute lenient (yields rfl)
        (goesOn (.forProgram "") continuation rfl)).bind fun _ => .pure _
  | setBreakpoints request => exact (abides_setBreakpoints lenient request).bind fun _ => .pure _
  | setFunctionBreakpoints wanted =>
      exact (abides_setFunctionBreakpoints lenient wanted).bind fun _ => .pure _
  | setExceptionBreakpoints filters =>
      exact (abides_setExceptionBreakpoints lenient filters).bind fun _ => .pure _
  | stackTrace => exact looks (yields rfl) Link.quiet_stackTrace
  | scopes frame => exact looks (yields rfl) (Link.quiet_scopes frame)
  | variablesIn reference => exact looks (yields rfl) (Link.quiet_variablesIn reference)
  | evaluate request => exact looks (yields rfl) (Link.quiet_evaluate request)
  | completions text frame => exact looks (yields rfl) (Link.quiet_completions text frame)
  | detach => exact detaches rfl
  | close => exact closes rfl

end Debugger
end DebugBridge
