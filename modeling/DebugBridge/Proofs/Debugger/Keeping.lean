import DebugBridge.Debugger.Requests
import DebugBridge.Proofs.Debugger.Agreement
import DebugBridge.Proofs.Debugger.Exchange

/-!
# What an operation keeps

An operation keeps an order of its state and of its surroundings if it leaves in order what it finds
in order.  Where no request breaks an order unless it lets the script go on, nor the making and the
removing of a breakpoint, no operation on the breakpoints breaks it, nor one that looks at a script
that has stopped.
-/

namespace DebugBridge

variable {σ τ υ α β : Type} {rule : AnswerRule σ}

namespace Operation

/-- Wherever it is done, the operation leaves in order what it finds in order, if it comes to an
end. -/
def Keeps (rule : AnswerRule σ) (inOrder : τ → σ → Prop) (operation : Operation τ α) : Prop :=
  ∀ state world, inOrder state world →
    operation.Leaves rule state world fun _ state world => inOrder state world

variable {inOrder : τ → σ → Prop}

theorem Keeps.pure (value : α) : Keeps rule inOrder (pure value : Operation τ α) :=
  fun _ _ holds => ((ensures_pure value).2 holds).leaves

theorem Keeps.throw (error : DebugError) : Keeps rule inOrder (throw error : Operation τ α) :=
  fun _ _ holds => ((ensures_throw error).2 holds).leaves

theorem Keeps.get : Keeps rule inOrder (get : Operation τ τ) :=
  fun _ _ holds => (ensures_get.2 holds).leaves

theorem Keeps.modify {change : τ → τ}
    (keeps : ∀ state world, inOrder state world → inOrder (change state) world) :
    Keeps rule inOrder (modify change : Operation τ PUnit) :=
  fun state world holds => ((ensures_modify change).2 (keeps state world holds)).leaves

theorem Keeps.stuck : Keeps rule inOrder (stuck : Operation τ α) := by
  rintro _ _ _ _ _ _ ⟨⟩

theorem Keeps.ask {request : Request}
    (keeps : ∀ state world, inOrder state world → inOrder state (rule request world).2) :
    Keeps rule inOrder (ask request : Operation τ request.Answer) :=
  fun state world holds => (ensures_ask.2 (keeps state world holds)).leaves

theorem Keeps.bind {operation : Operation τ α} {next : α → Operation τ β}
    (first : Keeps rule inOrder operation) (rest : ∀ value, Keeps rule inOrder (next value)) :
    Keeps rule inOrder (operation >>= next) := by
  intro state world holds
  refine Leaves.bind ((first state world holds).mono ?_)
  rintro (error | value) state world holds
  · exact holds
  · exact rest value state world holds

/-- A state may be looked at before it is changed. -/
theorem Keeps.get_bind {next : τ → Operation τ α}
    (keeps : ∀ state world, inOrder state world →
      (next state).Leaves rule state world fun _ state world => inOrder state world) :
    Keeps rule inOrder (MonadState.get >>= next) :=
  fun state world holds => Leaves.bind (ensures_get.2 (keeps state world holds)).leaves

theorem Keeps.tryCatch {operation : Operation τ α} {handle : DebugError → Operation τ α}
    (first : Keeps rule inOrder operation) (rest : ∀ error, Keeps rule inOrder (handle error)) :
    Keeps rule inOrder (tryCatch operation handle) := by
  intro state world holds
  refine Leaves.tryCatch ((first state world holds).mono ?_)
  rintro (error | value) state world holds
  · exact rest error state world holds
  · exact holds

theorem Keeps.mapM {entries : List α} {body : α → Operation τ β}
    (keeps : ∀ entry, Keeps rule inOrder (body entry)) :
    Keeps rule inOrder (entries.mapM body) := by
  have all : ∀ results, Keeps rule inOrder (List.mapM.loop body entries results) := by
    induction entries with
    | nil => exact fun _ => .pure _
    | cons entry rest ih => exact fun results => (keeps entry).bind fun result => ih _
  exact all []

theorem Keeps.forIn {entries : List β} {start : α} {body : β → α → Operation τ (ForInStep α)}
    (keeps : ∀ entry value, Keeps rule inOrder (body entry value)) :
    Keeps rule inOrder (forIn entries start body) := by
  induction entries generalizing start with
  | nil => exact .pure _
  | cons entry rest ih =>
      rw [List.forIn_cons]
      refine (keeps entry start).bind fun step => ?_
      cases step with
      | done value => exact .pure _
      | yield value => exact ih

/-- An operation on a part of a state keeps what it keeps of that part. -/
theorem Keeps.within {whole : υ → σ → Prop} {part : υ → τ} {put : τ → υ → υ}
    {operation : Operation τ α} (keeps : Keeps rule inOrder operation)
    (down : ∀ state world, whole state world → inOrder (part state) world)
    (up : ∀ state inner world after, whole state world → inOrder inner after →
      whole (put inner state) after) :
    Keeps rule whole (operation.within part put) := by
  intro state world holds
  have first := keeps (part state) world (down state world holds)
  refine Leaves.andThen (fun result inner => .done (result, put inner state)) (first.mono ?_) rfl
  intro result inner world kept last after afterWorld ended
  cases ended
  exact up state inner _ world holds kept

theorem Keeps.attempt {command : Command}
    (asks : ∀ state world, inOrder state world →
      inOrder state (rule (.submit command none) world).2) :
    Keeps rule inOrder (attempt command : Operation τ _) := by
  refine (Keeps.ask asks).bind fun answer => ?_
  split
  · exact .pure _
  · exact .pure _
  · exact .throw _

theorem Keeps.command {command : Command}
    (asks : ∀ state world, inOrder state world →
      inOrder state (rule (.submit command none) world).2) :
    Keeps rule inOrder (Operation.command command : Operation τ _) := by
  refine (Keeps.attempt asks).bind fun answer => ?_
  split
  · exact .pure _
  · exact .throw _

theorem Keeps.orThrow (result : Except ProtocolError α) :
    Keeps rule inOrder (orThrow result : Operation τ α) := by
  cases result with
  | ok value => exact .pure _
  | error error => exact .throw _

end Operation

/-! ## Orders -/

/-- What the breakpoints are of a debugger, none if it is not connected. -/
def Debugger.table (debugger : Debugger) : BreakpointTable :=
  match debugger.link with
  | some link => link.breakpoints
  | none => .empty

/-- Something that holds of a debugger's phase, of its breakpoints and of its surroundings. -/
structure Order (σ : Type) where
  /-- What holds of the phase. -/
  phase : Phase → Prop
  /-- What holds of the breakpoints. -/
  table : BreakpointTable → Prop
  /-- What holds of the surroundings. -/
  world : σ → Prop

namespace Order

variable (order : Order σ)

/-- A table and its surroundings are in order. -/
def OfTable (table : BreakpointTable) (world : σ) : Prop := order.table table ∧ order.world world

/-- What is known of the engine is in order. -/
def OfLink (link : Link) (world : σ) : Prop := order.OfTable link.breakpoints world

/-- A debugger is in order. -/
def OfDebugger (debugger : Debugger) (world : σ) : Prop :=
  order.phase debugger.phase ∧ order.OfTable debugger.table world

/-- No request breaks the order unless it lets the script go on, and nor does the making or the
removing of a breakpoint or the end. -/
structure Lasts (order : Order σ) (rule : AnswerRule σ) : Prop where
  closed : order.phase .closed
  empty : order.table .empty
  ask {request : Request} {world : σ} (other : request.resumes = false)
    (holds : order.world world) : order.world (rule request world).2
  create {context : ScriptContext} {request : BreakpointRequest} {table table' : BreakpointTable}
    {world world' : σ} {result : Except DebugError Breakpoint} (enabled : request.enabled = true)
    (created : BreakpointTable.Created rule context request table world result table' world')
    (holds : order.table table) : order.table table'
  remove {id : Nat} {table table' : BreakpointTable} {world world' : σ}
    {result : Except DebugError (List Breakpoint)}
    (removed : BreakpointTable.Removed rule id table world result table' world')
    (holds : order.table table) : order.table table'

end Order

variable {order : Order σ}

theorem Order.Lasts.answered (lasts : order.Lasts rule) {command : Command}
    (other : command.name ∉ Continuation.names) {world after : σ}
    {result : Except DebugError (Except EngineError Response)}
    (answered : Answered rule command world result after) (holds : order.world world) :
    order.world after := by
  have quiet : (Request.submit command none).resumes = false := by simpa [Request.resumes]
  have kept := lasts.ask quiet holds
  cases answered with
  | done answer | refused answer | lost _ answer =>
      rw [answer] at kept
      exact kept

/-! ## Breakpoints -/

namespace BreakpointTable

open Operation Breakpoint

variable {context : ScriptContext} {world after : σ}

section Breakpoints

variable (lasts : order.Lasts rule)
include lasts

theorem world_of_queried {engineId : Nat}
    {result : Except DebugError (Except EngineError Response)}
    (asked : Answered rule (queryCommand engineId) world result after)
    (holds : order.world world) : order.world after :=
  lasts.answered (show "breakpoint_get" ∉ Continuation.names by decide) asked holds

/-- The script does not go on while a breakpoint is offered to the engine. -/
theorem world_of_offered {breakpoint : Breakpoint} {result : Except DebugError Breakpoint}
    (offered : Offered rule breakpoint world result after) (holds : order.world world) :
    order.world after := by
  have set {hit : Option HitCondition} {after : σ}
      {reply : Except DebugError (Except EngineError Response)}
      (answered : Answered rule (breakpoint.setCommand hit) world reply after) :
      order.world after := by
    refine lasts.answered ?_ answered holds
    rw [setCommand_name]
    decide
  cases offered with
  | unplaced | unsaid => exact holds
  | refused answered | unnumbered answered | lost answered => exact set answered
  | taken answered _ asked | lostLater answered _ asked =>
      exact world_of_queried lasts asked (set answered)

theorem keeps_create {request : BreakpointRequest} (enabled : request.enabled = true) :
    Keeps rule order.OfTable (create context request) := by
  intro table world ⟨holds, orderly⟩
  refine (create_spec request).leaves.mono fun result table after created => ?_
  refine ⟨lasts.create enabled created holds, ?_⟩
  cases created with
  | made offered | failed offered => exact world_of_offered lasts offered orderly

theorem keeps_removeById (id : Nat) : Keeps rule order.OfTable (removeById id) := by
  intro table world ⟨holds, orderly⟩
  refine (removeById_spec id).leaves.mono fun result table after removed => ?_
  refine ⟨lasts.remove removed holds, ?_⟩
  cases removed with
  | absent | forgotten => exact orderly
  | dropped _ _ answered | gone _ _ answered | refused _ _ answered | lost _ _ answered =>
      exact lasts.answered (show "breakpoint_remove" ∉ Continuation.names by decide) answered orderly

theorem keeps_setBreakpoint {request : BreakpointRequest} (enabled : request.enabled = true) :
    Keeps rule order.OfTable (setBreakpoint context request) := by
  refine Keeps.get.bind fun table => ?_
  split
  · exact .pure _
  · exact keeps_create lasts enabled

theorem keeps_setAll {requests : List BreakpointRequest}
    (enabled : ∀ request ∈ requests, request.enabled = true) :
    Keeps rule order.OfTable (setAll context requests) := by
  induction requests with
  | nil => exact .pure _
  | cons request rest ih =>
      rw [List.forall_mem_cons] at enabled
      exact (keeps_setBreakpoint lasts enabled.1).bind fun _ => (ih enabled.2).bind fun _ => .pure _

theorem keeps_removeWhere (p : BreakpointKind → Bool) :
    Keeps rule order.OfTable (removeWhere p) := by
  have all (ids : List Nat) : Keeps rule order.OfTable (removeAll ids) := by
    induction ids with
    | nil => exact .pure _
    | cons first rest ih =>
        exact (keeps_removeById lasts first).bind fun _ => ih.bind fun _ => .pure _
  exact Keeps.get.bind fun _ => all _

theorem keeps_setLines (file : String) {requests : List BreakpointRequest}
    (enabled : ∀ request ∈ requests, request.enabled = true) :
    Keeps rule order.OfTable (setLines context file requests) :=
  (keeps_removeWhere lasts _).bind fun _ => keeps_setAll lasts enabled

theorem keeps_setException (enable : Bool) :
    Keeps rule order.OfTable (setException context enable) := by
  refine Keeps.get.bind fun table => ?_
  split
  · exact .pure _
  · exact (keeps_setBreakpoint lasts rfl).bind fun _ => .pure _
  · exact (keeps_removeById lasts _).bind fun _ => .pure _
  · exact .pure _

end Breakpoints

end BreakpointTable

namespace BreakpointRequest

variable (request : BreakpointRequest)

@[simp]
theorem enabled_withCondition (condition : Option String) :
    (request.withCondition condition).enabled = request.enabled := by
  cases condition <;> rfl

@[simp]
theorem enabled_withHitCondition (condition : Option String) :
    (request.withHitCondition condition).enabled = request.enabled := by
  cases condition <;> rfl

@[simp]
theorem enabled_withLogMessage (message : Option String) :
    (request.withLogMessage message).enabled = request.enabled := by
  unfold withLogMessage
  split
  · rfl
  · split <;> rfl

@[simp]
theorem enabled_withColumn (column : Option Nat) :
    (request.withColumn column).enabled = request.enabled := by
  unfold withColumn
  split
  · rfl
  · split <;> rfl

end BreakpointRequest

/-! ## What is asked of an engine -/

namespace Link

open Operation

theorem keeps_onBreakpoints {operation : TableOperation α}
    (keeps : Keeps rule order.OfTable operation) :
    Keeps rule order.OfLink (onBreakpoints operation) :=
  keeps.within (fun _ _ holds => holds) fun _ _ _ _ _ kept => kept

theorem keeps_describeFrame (frame : EngineFrame) :
    Keeps rule order.OfLink (describeFrame frame) := by
  refine Keeps.get_bind fun link world holds => ?_
  refine Leaves.bind ((ensures_set _).2 ?_).leaves
  exact ((ensures_pure _).2 holds).leaves

theorem keeps_referTo (scope : VariableScope) : Keeps rule order.OfLink (referTo scope) := by
  refine Keeps.get_bind fun link world holds => ?_
  refine Leaves.bind ((ensures_set _).2 ?_).leaves
  exact ((ensures_pure _).2 holds).leaves

theorem keeps_describeContext (depth : Nat) (context : VariableContext) :
    Keeps rule order.OfLink (describeContext depth context) :=
  (keeps_referTo _).bind fun _ => .pure _

theorem keeps_describeProperty (depth : Nat) (contextId : Option Nat) (property : Property) :
    Keeps rule order.OfLink (describeProperty depth contextId property) := by
  unfold describeProperty
  split
  · exact (keeps_referTo _).bind fun _ => .pure _
  · exact (Keeps.pure _).bind fun _ => .pure _

theorem keeps_frameDepth (frame : Option Int) :
    Keeps rule order.OfLink (frameDepth frame) := by
  cases frame with
  | none => exact .pure _
  | some frame =>
      refine Keeps.get.bind fun link => ?_
      split
      · exact .pure _
      · exact .throw _

section Asking

variable (lasts : order.Lasts rule)
include lasts

theorem keeps_command {command : Command} (other : command.name ∉ Continuation.names) :
    Keeps rule order.OfLink (Operation.command command) :=
  .command fun _ _ holds => ⟨holds.1, lasts.ask (by simpa [Request.resumes]) holds.2⟩

theorem keeps_contexts (depth : Nat) : Keeps rule order.OfLink (contexts depth) :=
  (keeps_command lasts (show "context_names" ∉ Continuation.names by decide)).bind fun _ => .pure _

theorem keeps_properties {command : Command} (other : command.name ∉ Continuation.names) :
    Keeps rule order.OfLink (properties command) :=
  (keeps_command lasts other).bind fun _ => .orThrow _

theorem keeps_contextVariables (depth contextId : Nat) :
    Keeps rule order.OfLink (contextVariables depth contextId) :=
  keeps_properties lasts (show "context_get" ∉ Continuation.names by decide)

theorem keeps_page (depth : Nat) (contextId : Option Nat) (fullName : String) (page : Nat) :
    Keeps rule order.OfLink (properties (pageCommand depth contextId fullName page)) := by
  apply keeps_properties lasts
  cases contextId <;> exact (show "property_get" ∉ Continuation.names by decide)

theorem keeps_propertyChildren (depth : Nat) (contextId : Option Nat) (fullName : String) :
    Keeps rule order.OfLink (propertyChildren depth contextId fullName) := by
  have more (total pages : Nat) : ∀ page children, Keeps rule order.OfLink
      (addPages (pageCommand depth contextId fullName) total pages page children) := by
    induction pages with
    | zero => exact fun _ _ => .pure _
    | succ pages ih =>
        intro page children
        unfold addPages
        split
        · exact .pure _
        · refine (keeps_page lasts depth contextId fullName _).bind fun found => ?_
          dsimp only
          split <;> split
          · exact .pure _
          · exact ih _ _
          · exact .pure _
          · exact ih _ _
  refine (keeps_page lasts depth contextId fullName 0).bind fun found => ?_
  split
  · exact .pure _
  · exact more _ _ _ _

theorem keeps_stackTrace : Keeps rule order.OfLink stackTrace :=
  (keeps_command lasts (show "stack_get" ∉ Continuation.names by decide)).bind fun _ =>
    .mapM keeps_describeFrame

theorem keeps_scopes (frame : Int) : Keeps rule order.OfLink (scopes frame) := by
  refine Keeps.get.bind fun link => ?_
  split
  · exact .throw _
  · exact (keeps_contexts lasts _).bind fun _ => .mapM (keeps_describeContext _)

theorem keeps_variablesIn (reference : Int) : Keeps rule order.OfLink (variablesIn reference) := by
  refine Keeps.get.bind fun link => ?_
  split
  · exact .throw _
  · exact (keeps_contextVariables lasts _ _).bind fun _ => .mapM (keeps_describeProperty _ _)
  · exact (keeps_propertyChildren lasts _ _ _).bind fun _ => .mapM (keeps_describeProperty _ _)

theorem keeps_evaluate (request : EvaluateRequest) :
    Keeps rule order.OfLink (evaluate request) := by
  refine (keeps_frameDepth _).bind fun depth => ?_
  refine (keeps_properties lasts (show "property_get" ∉ Continuation.names by decide)).bind
    fun found => ?_
  split
  · exact .throw _
  · exact (keeps_describeProperty _ _ _).bind fun _ => .pure _

theorem keeps_variableNames (depth : Nat) (contexts : List VariableContext) :
    Keeps rule order.OfLink (variableNames depth contexts) := by
  induction contexts with
  | nil => exact .pure _
  | cons context rest ih =>
      exact (keeps_contextVariables lasts _ _).bind fun _ => ih.bind fun _ => .pure _

theorem keeps_memberNames (depth : Nat) (expression : String) :
    Keeps rule order.OfLink (memberNames depth expression) := by
  refine Keeps.bind (Keeps.tryCatch ((keeps_propertyChildren lasts _ _ _).bind fun _ => .pure _)
    fun error => ?_) fun found => ?_
  · split
    · exact .pure _
    · exact (Keeps.throw _).bind fun _ => .pure _
  · cases found <;> exact .pure _

theorem keeps_completions (text : String) (frame : Option Int) :
    Keeps rule order.OfLink (completions text frame) := by
  refine (keeps_frameDepth _).bind fun depth => ?_
  dsimp only
  split
  · exact (keeps_memberNames lasts _ _).bind fun _ => .pure _
  · exact (keeps_contexts lasts _).bind fun _ =>
      (keeps_variableNames lasts _ _).bind fun _ => .pure _

end Asking

end Link

end DebugBridge
