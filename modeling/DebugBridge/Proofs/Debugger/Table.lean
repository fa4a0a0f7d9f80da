import DebugBridge.Debugger.Breakpoint.Table
import DebugBridge.Proofs.Debugger.Operation
import Mathlib.Data.List.Nodup
import Mathlib.Logic.Relation

/-!
# What becomes of breakpoints

Whatever the engine answers, a breakpoint that is made is recorded under the next id unless the
session fails, and one that is removed goes unless the engine refuses.  All else that is done to a
table is a chain of such moves, so what each move keeps is kept by every call.
-/

namespace DebugBridge

variable {σ τ α β : Type} {rule : AnswerRule σ}

/-- The engine's answer to a command, as an operation sees it. -/
inductive Answered (rule : AnswerRule σ) (command : Command) (world : σ) :
    Except DebugError (Except EngineError Response) → σ → Prop
  | done {response : Response} {after : σ}
      (answer : rule (.submit command none) world = (.ok response, after)) :
      Answered rule command world (.ok (.ok response)) after
  | refused {error : EngineError} {after : σ}
      (answer : rule (.submit command none) world = (.error (.engine error), after)) :
      Answered rule command world (.ok (.error error)) after
  | lost {error : SessionError} {after : σ} (fault : ∀ refusal, error ≠ .engine refusal)
      (answer : rule (.submit command none) world = (.error error, after)) :
      Answered rule command world (.error (.session error)) after

theorem Operation.attempt_spec (command : Command) (state : τ) (world : σ) :
    (attempt command).Ensures rule state world fun result state' world' =>
      state' = state ∧ Answered rule command world result world' := by
  rw [ensures_attempt]
  split
  · next answer => exact ⟨rfl, .done answer⟩
  · next answer => exact ⟨rfl, .refused answer⟩
  · next fault answer => exact ⟨rfl, .lost fault answer⟩

/-- The line that the engine says it has bound a breakpoint to. -/
def boundLine : Except EngineError Response → Option Nat
  | .ok response => response.breakpoints.head?.bind EngineBreakpoint.line
  | .error _ => none

namespace Breakpoint

/-- The command that asks the engine for a breakpoint. -/
def queryCommand (engineId : Nat) : Command :=
  (Command.named "breakpoint_get").argNat 'd' engineId

/-- The command that takes a breakpoint back from the engine. -/
def removeCommand (engineId : Nat) : Command :=
  (Command.named "breakpoint_remove").argNat 'd' engineId

/-- The breakpoint once the engine has it under an id of its own, on the line that it chose. -/
def taken (breakpoint : Breakpoint) (engineId : Nat) (line : Option Nat) : Breakpoint :=
  { breakpoint with
    engineId := some engineId
    kind := match line with
      | some line => breakpoint.kind.movedTo line
      | none => breakpoint.kind }

/-- What becomes of a breakpoint that is to be given to the engine. -/
inductive Offered (rule : AnswerRule σ) (breakpoint : Breakpoint) (world : σ) :
    Except DebugError Breakpoint → σ → Prop
  /-- There is no place for it. -/
  | unplaced (nowhere : breakpoint.kind.isInstallable = false) :
      Offered rule breakpoint world (.ok breakpoint) world
  /-- Its hit condition cannot be said. -/
  | unsaid {error : DebugError}
      (unparsed : HitCondition.parse (breakpoint.hitCondition.getD "") = .error error) :
      Offered rule breakpoint world (.ok (breakpoint.rejected error.message)) world
  /-- The engine does not take it. -/
  | refused {hit : Option HitCondition} {error : EngineError} {after : σ}
      (answer : Answered rule (breakpoint.setCommand hit) world (.ok (.error error))
        after) :
      Offered rule breakpoint world (.ok (breakpoint.rejected error.text)) after
  /-- The engine does not say under which id it has it. -/
  | unnumbered {hit : Option HitCondition} {response : Response} {after : σ}
      (answer : Answered rule (breakpoint.setCommand hit) world (.ok (.ok response))
        after)
      (number : response.breakpointId? = none) :
      Offered rule breakpoint world
        (.ok (breakpoint.rejected "engine did not return a breakpoint id")) after
  /-- The engine has it. -/
  | taken {hit : Option HitCondition} {response : Response} {engineId : Nat} {after last : σ}
      {reply : Except EngineError Response}
      (answer : Answered rule (breakpoint.setCommand hit) world (.ok (.ok response))
        after)
      (number : response.breakpointId? = some engineId)
      (asked : Answered rule (queryCommand engineId) after (.ok reply) last) :
      Offered rule breakpoint world (.ok (breakpoint.taken engineId (boundLine reply)))
        last
  /-- The session fails before the engine has it. -/
  | lost {hit : Option HitCondition} {error : DebugError} {after : σ}
      (answer : Answered rule (breakpoint.setCommand hit) world (.error error) after) :
      Offered rule breakpoint world (.error error) after
  /-- The session fails once the engine has it. -/
  | lostLater {hit : Option HitCondition} {response : Response} {engineId : Nat}
      {after last : σ} {error : DebugError}
      (answer : Answered rule (breakpoint.setCommand hit) world (.ok (.ok response))
        after)
      (number : response.breakpointId? = some engineId)
      (asked : Answered rule (queryCommand engineId) after (.error error) last) :
      Offered rule breakpoint world (.error error) last

end Breakpoint

namespace BreakpointTable

open Operation Breakpoint

variable {context : ScriptContext} {table : BreakpointTable} {world : σ}

theorem engineLine?_spec (engineId : Nat) :
    (engineLine? engineId).Ensures rule table world fun result table' world' =>
      table' = table ∧ ((∃ reply, result = .ok (boundLine reply) ∧
          Answered rule (queryCommand engineId) world (.ok reply) world') ∨
        ∃ error, result = .error error ∧
          Answered rule (queryCommand engineId) world (.error error) world') := by
  rw [engineLine?, ensures_bind]
  refine (attempt_spec _ table world).mono ?_
  rintro (error | reply) table' world' ⟨rfl, answered⟩
  · exact ⟨rfl, .inr ⟨error, rfl, answered⟩⟩
  · cases reply with
    | ok response => exact (ensures_pure _).2 ⟨rfl, .inl ⟨_, rfl, answered⟩⟩
    | error error => exact (ensures_pure _).2 ⟨rfl, .inl ⟨_, rfl, answered⟩⟩

theorem install_spec (breakpoint : Breakpoint) (hit : Option HitCondition) :
    (install breakpoint hit).Ensures rule table world fun result table' world' =>
      table' = table ∧ Offered rule breakpoint world result world' := by
  rw [install, ensures_bind]
  refine (attempt_spec _ table world).mono ?_
  rintro (error | reply) table after ⟨rfl, answered⟩
  · exact ⟨rfl, .lost answered⟩
  cases reply with
  | error error => exact (ensures_pure _).2 ⟨rfl, .refused answered⟩
  | ok response =>
      simp only
      split
      · next number => exact (ensures_pure _).2 ⟨rfl, .unnumbered answered number⟩
      · next engineId number =>
        rw [ensures_bind]
        refine (engineLine?_spec engineId).mono ?_
        rintro result table last ⟨rfl, ⟨reply, rfl, asked⟩ | ⟨error, rfl, asked⟩⟩
        · have offered := Offered.taken answered number asked
          cases line : boundLine reply <;> rw [line] at offered <;>
            exact (ensures_pure _).2 ⟨rfl, offered⟩
        · exact ⟨rfl, .lostLater answered number asked⟩

theorem offer_spec (breakpoint : Breakpoint) :
    (offer breakpoint).Ensures rule table world fun result table' world' =>
      table' = table ∧ Offered rule breakpoint world result world' := by
  rw [offer]
  split
  · next nowhere =>
      rw [Bool.not_eq_true'] at nowhere
      exact (ensures_pure _).2 ⟨rfl, .unplaced nowhere⟩
  · split
    · exact install_spec breakpoint _
    · next unparsed => exact (ensures_pure _).2 ⟨rfl, .unsaid unparsed⟩

/-- A breakpoint as it is wanted, before the engine knows of it. -/
def draft (context : ScriptContext) (request : BreakpointRequest) (id : Nat) : Breakpoint :=
  { id, engineId := none, enabled := request.enabled, temporary := request.temporary
    condition := request.condition, hitCondition := request.hitCondition
    kind := (context.bind request.target).1, message := (context.bind request.target).2 }

/-- What becomes of a breakpoint that is to be made. -/
inductive Created (rule : AnswerRule σ) (context : ScriptContext)
    (request : BreakpointRequest) (table : BreakpointTable) (world : σ) :
    Except DebugError Breakpoint → BreakpointTable → σ → Prop
  /-- It is recorded, whether the engine has it or not. -/
  | made {breakpoint : Breakpoint} {after : σ}
      (offered : Offered rule (draft context request table.nextId) world
        (.ok breakpoint) after) :
      Created rule context request table world (.ok breakpoint)
        (add { table with nextId := table.nextId + 1 } breakpoint) after
  /-- The session fails; the id is used up. -/
  | failed {error : DebugError} {after : σ}
      (offered : Offered rule (draft context request table.nextId) world
        (.error error) after) :
      Created rule context request table world (.error error)
        { table with nextId := table.nextId + 1 } after

theorem create_spec (request : BreakpointRequest) :
    (create context request).Ensures rule table world
      (Created rule context request table world) := by
  simp only [create, takeId, ensures_bind, ensures_get, ensures_set, ensures_pure]
  refine (offer_spec _).mono ?_
  rintro (error | breakpoint) table after ⟨rfl, offered⟩
  · exact .failed offered
  · simp only [ensures_modify]
    exact .made offered

/-- What becomes of a breakpoint that is to be removed. -/
inductive Removed (rule : AnswerRule σ) (id : Nat) (table : BreakpointTable)
    (world : σ) : Except DebugError (List Breakpoint) → BreakpointTable → σ → Prop
  /-- There is none. -/
  | absent (unknown : table.get? id = none) :
      Removed rule id table world (.ok []) table world
  /-- The engine never had it. -/
  | forgotten {breakpoint : Breakpoint} (known : table.get? id = some breakpoint)
      (unset : breakpoint.engineId = none) :
      Removed rule id table world (.ok [breakpoint]) (table.without id) world
  /-- The engine gives it back. -/
  | dropped {breakpoint : Breakpoint} {engineId : Nat} {response : Response} {after : σ}
      (known : table.get? id = some breakpoint) (set : breakpoint.engineId = some engineId)
      (answer : Answered rule (removeCommand engineId) world (.ok (.ok response))
        after) :
      Removed rule id table world (.ok [breakpoint]) (table.without id) after
  /-- The engine says that it has it no longer. -/
  | gone {breakpoint : Breakpoint} {engineId : Nat} {error : EngineError} {after : σ}
      (known : table.get? id = some breakpoint) (set : breakpoint.engineId = some engineId)
      (answer : Answered rule (removeCommand engineId) world (.ok (.error error)) after)
      (missing : error.code = EngineError.noSuchBreakpoint) :
      Removed rule id table world (.ok [breakpoint]) (table.without id) after
  /-- The engine refuses. -/
  | refused {breakpoint : Breakpoint} {engineId : Nat} {error : EngineError} {after : σ}
      (known : table.get? id = some breakpoint) (set : breakpoint.engineId = some engineId)
      (answer : Answered rule (removeCommand engineId) world (.ok (.error error)) after)
      (other : error.code ≠ EngineError.noSuchBreakpoint) :
      Removed rule id table world (.error (.engine error)) table after
  /-- The session fails. -/
  | lost {breakpoint : Breakpoint} {engineId : Nat} {error : DebugError} {after : σ}
      (known : table.get? id = some breakpoint) (set : breakpoint.engineId = some engineId)
      (answer : Answered rule (removeCommand engineId) world (.error error) after) :
      Removed rule id table world (.error error) table after

theorem removeById_spec (id : Nat) :
    (removeById id).Ensures rule table world
      (Removed rule id table world) := by
  simp only [removeById, ensures_bind, ensures_get]
  split
  · next unknown => exact (ensures_pure _).2 (.absent unknown)
  · next breakpoint known =>
    split
    · next engineId set =>
      simp only [ensures_bind]
      refine (attempt_spec _ table world).mono ?_
      rintro (error | reply) table after ⟨rfl, answered⟩
      · exact .lost known set answered
      cases reply with
      | ok response =>
          simp only [ensures_bind, ensures_pure, ensures_modify]
          exact .dropped known set answered
      | error error =>
          simp only
          split
          · next other =>
              simp only [ensures_bind, ensures_throw]
              exact .refused known set answered (bne_iff_ne.1 other)
          · next missing =>
              simp only [ensures_bind, ensures_pure, ensures_modify]
              exact .gone known set answered (by simpa using missing)
    · next unset =>
      simp only [ensures_bind, ensures_pure, ensures_modify]
      exact .forgotten known (Option.eq_none_iff_forall_ne_some.2 unset)

/-! ## Operations as chains of steps -/

section Walks

variable {step next : BreakpointTable × σ → BreakpointTable × σ → Prop}

/-- The operation comes to an end, and takes the table and the surroundings along a chain of
steps. -/
def Walks (rule : AnswerRule σ) (step : BreakpointTable × σ → BreakpointTable × σ → Prop)
    (operation : TableOperation α) : Prop :=
  ∀ table world, operation.Ensures rule table world fun _ table' world' =>
    Relation.ReflTransGen step (table, world) (table', world')

/-- What a step keeps, a chain of steps keeps. -/
theorem keeps_of_steps {before after : BreakpointTable × σ}
    (steps : Relation.ReflTransGen step before after) (keeps : BreakpointTable → σ → Prop)
    (start : keeps before.1 before.2)
    (kept : ∀ {before after : BreakpointTable × σ}, step before after →
      keeps before.1 before.2 → keeps after.1 after.2) : keeps after.1 after.2 := by
  induction steps with
  | refl => exact start
  | tail _ last ih => exact kept last ih

theorem Walks.pure (value : α) : Walks rule step (pure value : TableOperation α) :=
  fun _ _ => (ensures_pure _).2 .refl

theorem Walks.get : Walks rule step (get : TableOperation BreakpointTable) :=
  fun _ _ => ensures_get.2 .refl

theorem Walks.bind {operation : TableOperation α} {next : α → TableOperation β}
    (first : Walks rule step operation) (rest : ∀ value, Walks rule step (next value)) :
    Walks rule step (operation >>= next) := by
  intro table world
  rw [ensures_bind]
  refine (first table world).mono ?_
  rintro (error | value) between middle steps
  · exact steps
  · exact (rest value between middle).mono fun _ _ _ more => steps.trans more

theorem Walks.tryCatch {operation : TableOperation α} {handle : DebugError → TableOperation α}
    (first : Walks rule step operation) (rest : ∀ error, Walks rule step (handle error)) :
    Walks rule step (tryCatch operation handle) := by
  intro table world
  rw [ensures_tryCatch]
  refine (first table world).mono ?_
  rintro (error | value) between middle steps
  · exact (rest error between middle).mono fun _ _ _ more => steps.trans more
  · exact steps

theorem Walks.mono {operation : TableOperation α} (walks : Walks rule step operation)
    (weaker : ∀ before after, step before after → next before after) :
    Walks rule next operation :=
  fun table world => (walks table world).mono fun _ _ _ steps =>
    Relation.ReflTransGen.mono weaker _ _ steps

end Walks

/-- What an operation may make and what it may remove. -/
structure Remit where
  /-- The breakpoints that it may make. -/
  makes : BreakpointRequest → Prop
  /-- The breakpoints that it may remove. -/
  removes : Breakpoint → Prop

/-- Anything may be made and removed. -/
def Remit.all : Remit := { makes := fun _ => True, removes := fun _ => True }

/-- A breakpoint of a remit is made or removed.  None is made on exceptions where there is one. -/
inductive Step (rule : AnswerRule σ) (remit : Remit) :
    BreakpointTable × σ → BreakpointTable × σ → Prop
  | create {context : ScriptContext} {request : BreakpointRequest} {table table' : BreakpointTable}
      {world world' : σ} {result : Except DebugError Breakpoint} (makes : remit.makes request)
      (single : request.target = .exception → table.exception? = none)
      (created : Created rule context request table world result table' world') :
      Step rule remit (table, world) (table', world')
  | remove {id : Nat} {table table' : BreakpointTable} {world world' : σ}
      {result : Except DebugError (List Breakpoint)}
      (removes : ∀ breakpoint, table.get? id = some breakpoint → remit.removes breakpoint)
      (removed : Removed rule id table world result table' world') :
      Step rule remit (table, world) (table', world')

/-- Some steps one after the other. -/
abbrev Steps (rule : AnswerRule σ) (remit : Remit) :
    BreakpointTable × σ → BreakpointTable × σ → Prop :=
  Relation.ReflTransGen (Step rule remit)

section Steps

variable {remit : Remit}

theorem walks_setBreakpoint (context : ScriptContext) {request : BreakpointRequest}
    (makes : remit.makes request) : Walks rule (Step rule remit) (setBreakpoint context request) := by
  intro table world
  refine (ensures_bind _ _).2 (ensures_get.2 ?_)
  dsimp only
  split
  · exact (ensures_pure _).2 .refl
  · next unset =>
    refine (create_spec request).mono fun _ _ _ created => .single (.create makes ?_ created)
    intro exception
    rwa [exception, if_pos (beq_self_eq_true _)] at unset

theorem walks_setAll (context : ScriptContext) {requests : List BreakpointRequest}
    (makes : ∀ request ∈ requests, remit.makes request) :
    Walks rule (Step rule remit) (setAll context requests) := by
  induction requests with
  | nil => exact .pure _
  | cons request rest ih =>
      rw [List.forall_mem_cons] at makes
      apply (walks_setBreakpoint context makes.1).bind
      exact fun breakpoint => (ih makes.2).bind fun rest => .pure _

/-- A breakpoint that is found under an id is recorded and has it. -/
theorem mem_of_get? {id : Nat} {breakpoint : Breakpoint} (known : table.get? id = some breakpoint) :
    breakpoint ∈ table.breakpoints ∧ breakpoint.id = id := by
  have same := List.find?_some (p := fun other : Breakpoint => other.id == id) known
  exact ⟨List.mem_of_find?_eq_some known, beq_iff_eq.1 same⟩

/-- What is removed is left out, and nothing is put in. -/
theorem breakpoints_of_removed {id : Nat} {table' : BreakpointTable} {after : σ}
    {result : Except DebugError (List Breakpoint)}
    (removed : Removed rule id table world result table' after) :
    table'.breakpoints ⊆ table.breakpoints := by
  cases removed with
  | absent | refused | lost => exact List.Subset.refl _
  | forgotten | dropped | gone => exact List.filter_subset_self _

theorem steps_removeAll (ids : List Nat)
    (removes : ∀ breakpoint ∈ table.breakpoints, breakpoint.id ∈ ids →
      remit.removes breakpoint) :
    (removeAll ids).Ensures rule table world fun _ table' world' =>
      Steps rule remit (table, world) (table', world') := by
  induction ids generalizing table world with
  | nil => exact (ensures_pure _).2 .refl
  | cons first rest ih =>
      refine (ensures_bind _ _).2 ((removeById_spec first).mono ?_)
      intro result between middle removed
      have step : Step rule remit (table, world) (between, middle) := by
        refine .remove (fun breakpoint known => ?_) removed
        obtain ⟨member, rfl⟩ := mem_of_get? known
        exact removes breakpoint member List.mem_cons_self
      cases result with
      | error error => exact .single step
      | ok value =>
          refine (ensures_bind _ _).2 ((ih fun breakpoint member known => removes breakpoint
            (breakpoints_of_removed removed member) (List.mem_cons_of_mem _ known)).mono ?_)
          rintro (error | others) last final steps
          · exact .head step steps
          · exact (ensures_pure _).2 (.head step steps)

end Steps

theorem walks_removeById (id : Nat) : Walks rule (Step rule .all) (removeById id) :=
  fun _ _ => (removeById_spec id).mono fun _ _ _ removed => .single (.remove (fun _ _ => trivial) removed)

theorem walks_removeWhere (p : BreakpointKind → Bool) :
    Walks rule (Step rule .all) (removeWhere p) :=
  Walks.get.bind fun _ _ _ => steps_removeAll _ fun _ _ _ => trivial

theorem walks_setLines (context : ScriptContext) (file : String)
    (requests : List BreakpointRequest) :
    Walks rule (Step rule .all) (setLines context file requests) :=
  (walks_removeWhere _).bind fun _ => walks_setAll context fun _ _ => trivial

theorem walks_setException (context : ScriptContext) (enable : Bool) :
    Walks rule (Step rule .all) (setException context enable) := by
  apply Walks.get.bind
  intro table
  split
  · exact .pure _
  · exact (walks_setBreakpoint context trivial).bind fun _ => .pure _
  · exact (walks_removeById _).bind fun _ => .pure _
  · exact .pure _

/-- A call of an operation on the table, with all that it is given. -/
inductive Call where
  /-- Sets a breakpoint. -/
  | set (request : BreakpointRequest)
  /-- Replaces the breakpoints on lines of a file. -/
  | setLines (file : String) (requests : List BreakpointRequest)
  /-- Turns stopping on exceptions on or off. -/
  | setException (enable : Bool)
  /-- Removes a breakpoint. -/
  | removeById (id : Nat)
  /-- Removes the breakpoints on lines of a file. -/
  | removeByFile (file : String)
  /-- Removes the breakpoints on functions. -/
  | removeFunctions

/-- What a call does, with what is known of the script at its time. -/
def Call.perform (context : ScriptContext) : Call → TableOperation Unit
  | .set request => do let _ ← setBreakpoint context request
  | .setLines file requests => do let _ ← BreakpointTable.setLines context file requests
  | .setException enable => do let _ ← BreakpointTable.setException context enable
  | .removeById bound => do let _ ← BreakpointTable.removeById bound
  | .removeByFile file => do let _ ← BreakpointTable.removeByFile file
  | .removeFunctions => do let _ ← BreakpointTable.removeFunctions

theorem Call.walks (context : ScriptContext) (call : Call) :
    Walks rule (Step rule .all) (call.perform context) := by
  cases call with
  | set request => exact (walks_setBreakpoint context trivial).bind fun _ => .pure _
  | setLines file requests => exact (walks_setLines context file requests).bind fun _ => .pure _
  | setException enable => exact (walks_setException context enable).bind fun _ => .pure _
  | removeById id => exact (walks_removeById id).bind fun _ => .pure _
  | removeByFile file => exact (walks_removeWhere _).bind fun _ => .pure _
  | removeFunctions => exact (walks_removeWhere _).bind fun _ => .pure _

/-! ## Moves -/

/-- A breakpoint is made or removed. -/
inductive Move (rule : AnswerRule σ) : BreakpointTable × σ → BreakpointTable × σ → Prop
  | create {context : ScriptContext} {request : BreakpointRequest} {table table' : BreakpointTable}
      {world world' : σ} {result : Except DebugError Breakpoint}
      (created : Created rule context request table world result table' world') :
      Move rule (table, world) (table', world')
  | remove {id : Nat} {table table' : BreakpointTable} {world world' : σ}
      {result : Except DebugError (List Breakpoint)}
      (removed : Removed rule id table world result table' world') :
      Move rule (table, world) (table', world')

theorem Step.move {remit : Remit} (before after : BreakpointTable × σ)
    (step : Step rule remit before after) : Move rule before after := by
  cases step with
  | create _ _ created => exact .create created
  | remove _ removed => exact .remove removed

/-- Some moves one after the other. -/
abbrev Moves (rule : AnswerRule σ) : BreakpointTable × σ → BreakpointTable × σ → Prop :=
  Relation.ReflTransGen (Move rule)

/-- What a move keeps, a chain of moves keeps. -/
theorem Moves.keeps {before after : BreakpointTable × σ} (moves : Moves rule before after)
    (keeps : BreakpointTable → σ → Prop) (start : keeps before.1 before.2)
    (step : ∀ {before after : BreakpointTable × σ}, Move rule before after →
      keeps before.1 before.2 → keeps after.1 after.2) : keeps after.1 after.2 :=
  keeps_of_steps moves keeps start step

/-- The operation comes to an end and does no more to the table than some moves. -/
def Moving (rule : AnswerRule σ) (operation : TableOperation α) : Prop :=
  ∀ table world, operation.Ensures rule table world fun _ table' world' =>
    Moves rule (table, world) (table', world')

theorem moving_setLines (context : ScriptContext) (file : String)
    (requests : List BreakpointRequest) : Moving rule (setLines context file requests) :=
  (walks_setLines context file requests).mono Step.move

/-- Calls one after the other, each made whatever has become of those before it. -/
def serve : List (ScriptContext × Call) → TableOperation Unit
  | [] => return ()
  | (context, call) :: rest => do
    tryCatch (call.perform context) fun _ => return ()
    serve rest

theorem moving_serve (calls : List (ScriptContext × Call)) :
    Moving rule (serve calls) := by
  induction calls with
  | nil => exact Walks.pure _
  | cons entry rest ih =>
      have first : Walks rule (Move rule) (entry.2.perform entry.1) :=
        (Call.walks entry.1 entry.2).mono Step.move
      exact (first.tryCatch fun _ => .pure _).bind fun _ => ih

/-! ## Ids -/

/-- Each breakpoint has an id of its own, which was given out before the next one. -/
structure Numbered (table : BreakpointTable) : Prop where
  ids_lt : ∀ breakpoint ∈ table.breakpoints, breakpoint.id < table.nextId
  ids_nodup : (table.breakpoints.map Breakpoint.id).Nodup

theorem numbered_empty : Numbered .empty := by
  refine ⟨?_, List.nodup_nil⟩
  intro breakpoint member
  cases member

/-- The only breakpoint that is left out is the one with the id. -/
theorem Numbered.breakpoints_without (numbered : Numbered table) {bound : Nat}
    {breakpoint : Breakpoint} (known : table.get? bound = some breakpoint) :
    ∃ before after, table.breakpoints = before ++ breakpoint :: after ∧
      (table.without bound).breakpoints = before ++ after := by
  obtain ⟨same, before, after, split, earlier⟩ := List.find?_eq_some_iff_append.1 known
  have nodup := numbered.ids_nodup
  rw [split, List.map_append, List.map_cons, List.nodup_middle, List.nodup_cons] at nodup
  refine ⟨before, after, split, ?_⟩
  have others : ∀ other ∈ before ++ after, (other.id != bound) = true := by
    intro other member
    rw [← beq_iff_eq.1 same, bne_iff_ne]
    intro equal
    exact nodup.1 (List.map_append ▸ List.mem_map.2 ⟨other, member, equal⟩)
  rw [List.forall_mem_append] at others
  simp only [without, split, List.filter_append, List.filter_cons]
  rw [List.filter_eq_self.2 others.1, List.filter_eq_self.2 others.2]
  simp [beq_iff_eq.1 same]

theorem Numbered.without (numbered : Numbered table) (bound : Nat) :
    Numbered (table.without bound) :=
  ⟨fun breakpoint member => numbered.ids_lt breakpoint (List.mem_filter.1 member |>.1),
    numbered.ids_nodup.sublist (List.filter_sublist.map _)⟩

theorem Numbered.add (numbered : Numbered table) {breakpoint : Breakpoint}
    (next : breakpoint.id = table.nextId) :
    Numbered (add { table with nextId := table.nextId + 1 } breakpoint) := by
  constructor
  · intro other member
    rcases List.mem_append.1 member with old | new
    · exact Nat.lt_succ_of_lt (numbered.ids_lt other old)
    · rw [List.mem_singleton.1 new, next]
      exact Nat.lt_succ_self _
  · rw [BreakpointTable.add, List.map_append, List.nodup_append]
    refine ⟨numbered.ids_nodup, List.nodup_singleton _, ?_⟩
    intro old member new last
    obtain ⟨other, recorded, rfl⟩ := List.mem_map.1 member
    rw [List.mem_singleton.1 last, next]
    exact Nat.ne_of_lt (numbered.ids_lt other recorded)

theorem Numbered.skip (numbered : Numbered table) :
    Numbered { table with nextId := table.nextId + 1 } :=
  ⟨fun breakpoint member => Nat.lt_succ_of_lt (numbered.ids_lt breakpoint member),
    numbered.ids_nodup⟩

theorem id_of_offered {breakpoint result : Breakpoint} {world after : σ}
    (offered : Offered rule breakpoint world (.ok result) after) :
    result.id = breakpoint.id := by
  cases offered <;> rfl

theorem Numbered.move {before after : BreakpointTable × σ} (move : Move rule before after)
    (numbered : Numbered before.1) : Numbered after.1 := by
  cases move with
  | create created =>
      cases created with
      | made offered => exact numbered.add (id_of_offered offered)
      | failed => exact numbered.skip
  | remove removed =>
      cases removed with
      | absent | refused | lost => exact numbered
      | forgotten | dropped | gone => exact numbered.without _

theorem Moving.numbered {operation : TableOperation α} (moving : Moving rule operation)
    (numbered : Numbered table) :
    operation.Ensures rule table world fun _ table' _ => Numbered table' :=
  (moving table world).mono fun _ _ _ moves =>
    moves.keeps (fun table _ => Numbered table) numbered Numbered.move

end BreakpointTable
end DebugBridge
