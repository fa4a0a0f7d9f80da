import DebugBridge.Proofs.Debugger.Keeping
import DebugBridge.Proofs.Debugger.Seeding
import DebugBridge.Proofs.Debugger.Tolerance

/-!
# What lasts while the script does not go on

What no request breaks unless it lets the script go on, nor the making and the removing of a
breakpoint, is broken by no call of a debugger but those that let the script go on, whatever the
surroundings answer and however the call ends.
-/

namespace DebugBridge

variable {σ α β : Type} {rule : AnswerRule σ} {order : Order σ}

namespace Debugger

open Operation

theorem enabled_sourceRequest (path : String) (wanted : SourceBreakpoint) :
    (sourceRequest path wanted).enabled = true := by
  simp [sourceRequest, BreakpointRequest.line, BreakpointRequest.plain]

theorem enabled_namedRequest (wanted : FunctionBreakpoint) :
    (namedRequest wanted).enabled = true := by
  unfold namedRequest
  dsimp only
  split <;> simp [BreakpointRequest.function, BreakpointRequest.plain]

theorem enabled_lineRequest (entry : LineEntry) : (lineRequest entry).enabled = true := by
  simp [lineRequest, BreakpointRequest.line, BreakpointRequest.plain]

theorem enabled_functionRequest (entry : FunctionEntry) :
    (functionRequest entry).enabled = true := by
  simp [functionRequest, BreakpointRequest.function, BreakpointRequest.plain]

theorem enabled_of_mem_lineGroups {entries : List LineEntry} {group : String × List BreakpointRequest}
    (member : group ∈ lineGroups entries) : ∀ request ∈ group.2, request.enabled = true := by
  intro request wanted
  obtain ⟨entry, -, rfl, -⟩ :=
    (grouped_lineGroups entries).request_mem group member request wanted
  exact enabled_lineRequest entry

/-- What is known of the engine is at hand, or nothing happens. -/
theorem keeps_knownLink_bind {next : Link → DebuggerOperation α}
    (keeps : ∀ debugger link world, debugger.link = some link → order.OfDebugger debugger world →
      (next link).Leaves rule debugger world fun _ debugger world =>
        order.OfDebugger debugger world) :
    Keeps rule order.OfDebugger (do let link ← knownLink; next link) := by
  intro debugger world holds
  refine Leaves.bind (knownLink_ensures.leaves.mono ?_)
  rintro result debugger world ⟨found, rfl, rfl⟩
  cases linked : debugger.link with
  | none =>
      rw [linked] at found
      cases found
      exact holds
  | some link =>
      rw [linked] at found
      cases found
      exact keeps debugger link world linked holds

/-- What is done with what is known of the engine is done to that part of the debugger. -/
theorem leaves_onLink {operation : LinkOperation α} {debugger : Debugger} {link : Link} {world : σ}
    {post : Except DebugError α → Link → σ → Prop}
    (leaves : operation.Leaves rule link world post) :
    (onLink link operation).Leaves rule debugger world fun result after last =>
      ∃ link, after = { debugger with link := some link } ∧ post result link last := by
  refine Leaves.andThen (fun result link => .done (result, { debugger with link := some link }))
    (leaves.mono ?_) rfl
  intro result link world holds last after afterWorld ended
  cases ended
  exact ⟨link, rfl, holds⟩

theorem keeps_onLink_of_linked {operation : LinkOperation α}
    (keeps : Keeps rule order.OfLink operation) {debugger : Debugger} {link : Link} {world : σ}
    (linked : debugger.link = some link) (holds : order.OfDebugger debugger world) :
    (onLink link operation).Leaves rule debugger world fun _ debugger world =>
      order.OfDebugger debugger world := by
  have inside : order.OfLink link world := by
    have held := holds.2
    rw [table, linked] at held
    exact held
  refine (leaves_onLink (keeps link world inside)).mono ?_
  rintro _ _ _ ⟨link, rfl, kept⟩
  exact ⟨holds.1, kept⟩

theorem keeps_onLink {operation : LinkOperation α} (keeps : Keeps rule order.OfLink operation) :
    Keeps rule order.OfDebugger (do let link ← knownLink; onLink link operation) :=
  keeps_knownLink_bind fun _ _ _ linked holds => keeps_onLink_of_linked keeps linked holds

theorem keeps_onLink_bind {operation : LinkOperation α} {next : α → DebuggerOperation β}
    (keeps : Keeps rule order.OfLink operation)
    (rest : ∀ value, Keeps rule order.OfDebugger (next value)) :
    Keeps rule order.OfDebugger
      (do let link ← knownLink; let value ← onLink link operation; next value) := by
  refine keeps_knownLink_bind fun debugger link world linked holds => ?_
  refine Leaves.bind ((keeps_onLink_of_linked keeps linked holds).mono ?_)
  rintro (error | value) debugger world holds
  · exact holds
  · exact rest value debugger world holds

theorem keeps_setPhase {phase : Phase} (allowed : order.phase phase) :
    Keeps rule order.OfDebugger (setPhase phase) :=
  Keeps.modify fun _ _ holds => ⟨allowed, holds.2⟩

/-! ## Calls of a connected debugger -/

section Calls

variable (lasts : order.Lasts rule)
include lasts

theorem keeps_ask {request : Request} (other : request.resumes = false) :
    Keeps rule order.OfDebugger (ask request : DebuggerOperation request.Answer) :=
  .ask fun _ _ holds => ⟨holds.1, holds.2.1, lasts.ask other holds.2.2⟩

theorem keeps_currentPhase : Keeps rule order.OfDebugger currentPhase := by
  refine Keeps.get.bind fun debugger => ?_
  split
  · refine (keeps_ask lasts rfl).bind fun (closed : Bool) => ?_
    split <;> exact .pure _
  · exact .pure _

theorem keeps_connectedState (name : String) :
    Keeps rule order.OfDebugger (connectedState name) := by
  refine (keeps_currentPhase lasts).bind fun phase => ?_
  split
  · exact .pure _
  · exact .throw _
  · exact .throw _

theorem keeps_whenConnected {operation : LinkOperation α} (name : String)
    (keeps : Keeps rule order.OfLink operation) :
    Keeps rule order.OfDebugger (whenConnected name operation) :=
  (keeps_connectedState lasts name).bind fun _ => keeps_onLink keeps

theorem keeps_shutdown (link : Link) :
    Keeps rule order.OfDebugger (shutdown link : DebuggerOperation Unit) := by
  have ending : Keeps rule order.OfDebugger (do
      Operation.ask .awaitEnd
      if link.launched && !(← Operation.ask .isLetGo) then Operation.ask .kill :
        DebuggerOperation Unit) := by
    refine (keeps_ask lasts rfl).bind fun _ => (keeps_ask lasts rfl).bind fun _ => ?_
    split
    · exact keeps_ask lasts rfl
    · exact .pure _
  refine (keeps_ask lasts rfl).bind fun (closed : Bool) => ?_
  dsimp only
  split
  · refine (keeps_ask lasts rfl).bind fun (letGo : Bool) => ?_
    split
    · exact (keeps_ask lasts rfl).bind fun _ => (keeps_ask lasts rfl).bind fun _ => ending
    · exact (keeps_ask lasts rfl).bind fun _ => (keeps_ask lasts rfl).bind fun _ => ending
  · exact ending

theorem keeps_close : Keeps rule order.OfDebugger close := by
  refine Keeps.get_bind fun debugger world holds => ?_
  have closed : order.OfDebugger { debugger with phase := .closed, link := none } world :=
    ⟨lasts.closed, lasts.empty, holds.2.2⟩
  refine Leaves.bind ((ensures_set _).2 ?_).leaves
  cases debugger.link with
  | none => exact ((ensures_pure _).2 closed).leaves
  | some link => exact keeps_shutdown lasts link _ _ closed

theorem keeps_detach : Keeps rule order.OfDebugger detach := by
  refine (keeps_connectedState lasts _).bind fun _ => ?_
  refine Keeps.bind ?_ fun link => (keeps_ask lasts rfl).bind fun _ =>
    (keeps_ask lasts rfl).bind fun (answer : Except SessionError Unit) => ?_
  · refine Keeps.get.bind fun debugger => ?_
    split
    · exact .pure _
    · exact .throw _
  · refine Keeps.bind (Keeps.modify fun _ _ holds => ⟨lasts.closed, lasts.empty, holds.2.2⟩)
      fun _ => (keeps_shutdown lasts link).bind fun _ => ?_
    split
    · exact .pure _
    · exact .throw _

/-! ## Connecting -/

theorem keeps_release : Keeps rule order.OfDebugger release := keeps_ask lasts rfl

theorem keeps_spawn (arguments : List String) : Keeps rule order.OfDebugger (spawn arguments) := by
  refine Keeps.get.bind fun debugger => (keeps_ask lasts rfl).bind fun (spawned : Bool) => ?_
  split
  · exact .throw _
  · exact .pure _

theorem keeps_listen : Keeps rule order.OfDebugger listen := by
  refine Keeps.get.bind fun debugger => (keeps_ask lasts rfl).bind
    fun (address : Except SystemFault SocketAddress) => ?_
  split
  · exact .pure _
  · exact .throw _

theorem keeps_launchListening : Keeps rule order.OfDebugger launchListening := by
  have fail (error : DebugError) : Keeps rule order.OfDebugger (do
      Operation.ask .kill
      release
      throw error : DebuggerOperation Established) :=
    (keeps_ask lasts rfl).bind fun _ => (keeps_release lasts).bind fun _ => .throw _
  refine Keeps.get.bind fun debugger => (keeps_listen lasts).bind fun address => ?_
  refine Keeps.bind ((keeps_spawn lasts _).tryCatch fun error =>
    (keeps_release lasts).bind fun _ => .throw _) fun _ => ?_
  refine (keeps_ask lasts rfl).bind fun (arrival : Arrival) => ?_
  dsimp only
  split
  · exact .pure _
  · exact fail _
  · exact fail _
  · exact (keeps_ask lasts rfl).bind fun _ => fail _

theorem keeps_dial (deadline attempts : Nat) :
    Keeps rule order.OfDebugger (dial deadline attempts) := by
  induction attempts with
  | zero => exact .stuck
  | succ attempts ih =>
      refine Keeps.get.bind fun debugger => (keeps_ask lasts rfl).bind fun (connected : Bool) => ?_
      split
      · exact .pure _
      refine (keeps_ask lasts rfl).bind fun (exit : Option (Option Int)) => ?_
      split
      · exact (keeps_ask lasts rfl).bind fun _ => .throw _
      refine (keeps_ask lasts rfl).bind fun (time : Nat) => ?_
      split
      · exact (keeps_ask lasts rfl).bind fun _ => .throw _
      · exact (keeps_ask lasts rfl).bind fun _ => ih

theorem keeps_launchConnecting : Keeps rule order.OfDebugger launchConnecting :=
  Keeps.get.bind fun _ => (keeps_spawn lasts _).bind fun _ =>
    (keeps_ask lasts rfl).bind fun _ => keeps_dial lasts _ _

theorem keeps_postRequest (address : SocketAddress) :
    Keeps rule order.OfDebugger (postRequest address) := by
  refine Keeps.get.bind fun debugger => ?_
  dsimp only
  split
  · exact .throw _
  refine (keeps_ask lasts rfl).bind fun (outcome : HelperOutcome) => ?_
  split
  · exact .throw _
  · exact .throw _
  · exact .throw _
  · split
    · exact .throw _
    · exact .pure _

theorem keeps_attachListening : Keeps rule order.OfDebugger attachListening := by
  refine Keeps.get.bind fun debugger => (keeps_listen lasts).bind fun address => ?_
  refine Keeps.bind (Keeps.tryCatch ?_ fun error => ?_) fun established => ?_
  · refine (keeps_postRequest lasts _).bind fun _ =>
      (keeps_ask lasts rfl).bind fun (arrival : Arrival) => ?_
    split
    · exact .pure _
    · exact (Keeps.throw _).bind fun _ => .pure _
    · exact (Keeps.throw _).bind fun _ => .pure _
  · exact (keeps_release lasts).bind fun _ => (Keeps.throw _).bind fun _ => .pure _
  · cases established <;> exact .pure _

theorem keeps_query : Keeps rule order.OfLink (EngineFeatures.query : LinkOperation _) := by
  have value (name : String) :
      Keeps rule order.OfLink (EngineFeatures.featureValue? name : LinkOperation _) := by
    refine (Keeps.attempt fun _ _ holds => ⟨holds.1, lasts.ask rfl holds.2⟩).bind fun reply => ?_
    split <;> exact .pure _
  exact (value _).bind fun _ => (value _).bind fun _ => (value _).bind fun _ => .pure _

theorem keeps_prepare {commands : List Command}
    (others : ∀ command ∈ commands, command.name ∉ Continuation.names) :
    Keeps rule order.OfDebugger (prepare commands) := by
  induction commands with
  | nil => exact .pure _
  | cons command rest ih =>
      rw [List.forall_mem_cons] at others
      refine (keeps_ask lasts (by simpa [Request.resumes] using others.1)).bind
        fun (answer : Except SessionError Response) => ?_
      cases answer with
      | ok response => exact ih others.2
      | error error => exact (keeps_ask lasts rfl).bind fun _ => ih others.2

theorem keeps_seed (context : ScriptContext) (config : DebugConfig) :
    Keeps rule order.OfTable (seed context config) := by
  have lines : ∀ groups : Groups,
      (∀ group ∈ groups, ∀ request ∈ group.2, request.enabled = true) →
        Keeps rule order.OfTable (seedLines context groups) := by
    intro groups enabled
    induction groups with
    | nil => exact .pure _
    | cons group rest ih =>
        rw [List.forall_mem_cons] at enabled
        exact (BreakpointTable.keeps_setLines lasts _ enabled.1).bind fun _ =>
          (ih enabled.2).bind fun _ => .pure _
  have functions :
      ∀ request ∈ config.functionBreakpoints.map functionRequest, request.enabled = true := by
    intro request member
    obtain ⟨entry, -, rfl⟩ := List.mem_map.1 member
    exact enabled_functionRequest entry
  refine (lines _ fun group => enabled_of_mem_lineGroups).bind fun _ =>
    (BreakpointTable.keeps_setAll lasts functions).bind fun _ => ?_
  dsimp only
  split
  · exact (BreakpointTable.keeps_setException lasts true).bind fun _ => .pure _
  · exact (Keeps.pure _).bind fun _ => .pure _

/-- What is done with an engine once it is known what it can do. -/
theorem keeps_equip (debugger : Debugger) : Keeps rule order.OfDebugger (do
    prepare (setupCommands debugger.config)
    if ← Operation.ask .isClosed then throw (.session .closed)
    let seeded ← onLink (← knownLink)
      (Link.onBreakpoints (seed debugger.script debugger.config))
    for breakpoint in seeded do
      if !breakpoint.verified then Operation.report (.warning (unsetWarning breakpoint)) :
    DebuggerOperation Unit) := by
  have rest : Keeps rule order.OfDebugger (do
      let seeded ← onLink (← knownLink)
        (Link.onBreakpoints (seed debugger.script debugger.config))
      for breakpoint in seeded do
        if !breakpoint.verified then Operation.report (.warning (unsetWarning breakpoint)) :
      DebuggerOperation Unit) := by
    refine keeps_onLink_bind (Link.keeps_onBreakpoints (keeps_seed lasts _ _)) fun seeded => ?_
    refine (Keeps.forIn fun breakpoint _ => ?_).bind fun _ => .pure _
    split
    · exact (keeps_ask lasts rfl).bind fun _ => .pure _
    · exact .pure _
  have others (command : Command) (member : command ∈ setupCommands debugger.config) :
      command.name ∉ Continuation.names :=
    Continuation.not_mem_names (setupCommands_not_moving _ command member)
  refine (keeps_prepare lasts others).bind fun _ =>
    (keeps_ask lasts rfl).bind fun (closed : Bool) => ?_
  dsimp only
  split
  · exact (Keeps.throw _).bind fun _ => rest
  · exact rest

theorem keeps_negotiate : Keeps rule order.OfDebugger negotiate := by
  refine Keeps.get.bind fun debugger => keeps_onLink_bind (keeps_query lasts) fun features => ?_
  refine keeps_onLink_bind (Keeps.modify fun _ _ holds => holds) fun _ => ?_
  dsimp only
  split
  · exact (keeps_ask lasts rfl).bind fun _ => keeps_equip lasts debugger
  · exact keeps_equip lasts debugger

theorem keeps_abandon (established : Established) (error : DebugError) :
    Keeps rule order.OfDebugger (abandon established error) := by
  have throwing : Keeps rule order.OfDebugger (do
      if established.listening then release
      throw error : DebuggerOperation Unit) := by
    dsimp only
    split
    · exact (keeps_release lasts).bind fun _ => .throw _
    · exact .throw _
  refine (keeps_setPhase lasts.closed).bind fun _ => (keeps_ask lasts rfl).bind fun _ => ?_
  dsimp only
  split
  · exact (keeps_ask lasts rfl).bind fun _ => throwing
  · exact throwing

theorem keeps_begin (name : String) {next : Phase} (allowed : order.phase next) :
    Keeps rule order.OfDebugger (begin name next) := by
  refine Keeps.get.bind fun debugger => ?_
  dsimp only
  split
  · exact (keeps_currentPhase lasts).bind fun _ => (Keeps.throw _).bind fun _ =>
      keeps_setPhase allowed
  · exact keeps_setPhase allowed

section Opening

variable (connected : order.phase (.connected .starting))
include connected

theorem keeps_greet (mode : RequestKind) (established : Established) :
    Keeps rule order.OfDebugger (greet mode established) := by
  refine Keeps.get.bind fun debugger => (keeps_ask lasts rfl).bind fun (greeting : Greeting) => ?_
  split
  · exact keeps_abandon lasts _ _
  · exact keeps_abandon lasts _ _
  · refine (keeps_ask lasts rfl).bind fun _ => Keeps.bind
      (Keeps.modify fun _ _ holds => ⟨connected, lasts.empty, holds.2.2⟩) fun _ => ?_
    exact (keeps_negotiate lasts).tryCatch fun error =>
      (keeps_close lasts).bind fun _ => .throw _

theorem keeps_connectBy (mode : RequestKind) {way : DebuggerOperation Established}
    (keeps : Keeps rule order.OfDebugger way) :
    Keeps rule order.OfDebugger (connectBy mode way) :=
  (keeps.tryCatch fun _ => (keeps_setPhase lasts.closed).bind fun _ => .throw _).bind fun _ =>
    keeps_greet lasts connected _ _

theorem keeps_launch (launching : order.phase .launching) :
    Keeps rule order.OfDebugger launch := by
  refine (keeps_begin lasts _ launching).bind fun _ => Keeps.get.bind fun debugger => ?_
  split
  · exact keeps_connectBy lasts connected _ (keeps_launchListening lasts)
  · exact keeps_connectBy lasts connected _ (keeps_launchConnecting lasts)

theorem keeps_attach (attaching : order.phase .attaching) :
    Keeps rule order.OfDebugger attach :=
  (keeps_begin lasts _ attaching).bind fun _ =>
    keeps_connectBy lasts connected _ (keeps_attachListening lasts)

/-- While a connection is made the script does not go on. -/
theorem keeps_of_connects (launching : order.phase .launching) (attaching : order.phase .attaching)
    {call : Call} (connects : call.connects = true) :
    Keeps rule order.OfDebugger call.operation := by
  cases call with
  | start =>
      refine Keeps.get.bind fun debugger => ?_
      split
      · exact keeps_launch lasts connected launching
      · exact keeps_attach lasts connected attaching
  | launch => exact keeps_launch lasts connected launching
  | attach => exact keeps_attach lasts connected attaching
  | attachStream =>
      exact (keeps_begin lasts _ attaching).bind fun _ => keeps_greet lasts connected _ _
  | _ => cases connects

end Opening

/-! ## Calls -/

/-- Nor does it go on when anything else is asked of the debugger but that. -/
theorem keeps_of_not_connects {call : Call} (other : call.connects = false)
    (quiet : ∀ config, call.continuation? config = none) :
    Keeps rule order.OfDebugger call.operation := by
  have breakpoints {value : Type} {name : String} {operation : TableOperation value}
      (keeps : Keeps rule order.OfTable operation) :
      Keeps rule order.OfDebugger (whenConnected name (Link.onBreakpoints operation)) :=
    keeps_whenConnected lasts name (Link.keeps_onBreakpoints keeps)
  cases call with
  | start | launch | attach | attachStream => cases other
  | configurationDone | resume => cases quiet (.forProgram "")
  | setBreakpoints request =>
      refine Keeps.bind ?_ fun _ => .pure _
      unfold setBreakpoints
      cases request.source.path with
      | none => exact .throw _
      | some path =>
          refine Keeps.get.bind fun debugger => (breakpoints ?_).bind fun _ => .pure _
          refine BreakpointTable.keeps_setLines lasts path fun request member => ?_
          obtain ⟨wanted, -, rfl⟩ := List.mem_map.1 member
          exact enabled_sourceRequest path wanted
  | setFunctionBreakpoints wanted =>
      refine Keeps.bind (Keeps.get.bind fun debugger => (breakpoints ?_).bind fun _ => .pure _)
        fun _ => .pure _
      refine (BreakpointTable.keeps_removeWhere lasts _).bind fun _ =>
        BreakpointTable.keeps_setAll lasts fun request member => ?_
      obtain ⟨wanted, -, rfl⟩ := List.mem_map.1 member
      exact enabled_namedRequest wanted
  | setExceptionBreakpoints filters =>
      exact Keeps.bind (Keeps.get.bind fun debugger =>
        (breakpoints (BreakpointTable.keeps_setException lasts _)).bind fun _ => .pure _)
        fun _ => .pure _
  | stackTrace =>
      exact (keeps_whenConnected lasts _ (Link.keeps_stackTrace lasts)).bind fun _ => .pure _
  | scopes frame =>
      exact (keeps_whenConnected lasts _ (Link.keeps_scopes lasts _)).bind fun _ => .pure _
  | variablesIn reference =>
      exact (keeps_whenConnected lasts _ (Link.keeps_variablesIn lasts _)).bind fun _ => .pure _
  | evaluate request =>
      exact (keeps_whenConnected lasts _ (Link.keeps_evaluate lasts _)).bind fun _ => .pure _
  | completions text frame =>
      exact (keeps_whenConnected lasts _ (Link.keeps_completions lasts _ _)).bind fun _ => .pure _
  | detach => exact keeps_detach lasts
  | close => exact keeps_close lasts

end Calls

end Debugger

end DebugBridge
