import DebugBridge.Debugger.Execution
import DebugBridge.Debugger.Requests
import DebugBridge.Proofs.Debugger.Operation
import DebugBridge.Proofs.Session.Move
import Mathlib.Logic.Relation

/-!
# The phases of a debugger

What a debugger reports as its phase depends on what it has stored and on whether the session goes
on.  Whatever is asked of it, and whatever its surroundings answer, the phase only moves forward,
and a debugger whose script has stopped or whose session is over asks the engine for nothing more.
-/

namespace DebugBridge

/-- What surrounds a debugger: how its requests are answered, and the session that it has, which may
take any course meanwhile. -/
structure Environs (σ : Type) where
  /-- How requests are answered. -/
  rule : AnswerRule σ
  /-- The session. -/
  session : σ → Session
  /-- Whether the session has ended is answered as it is. -/
  isClosed_eq (world : σ) : (rule .isClosed world).1 = !(session world).isOpen
  /-- While a request is answered the session goes on as sessions do. -/
  answers (request : Request) (world : σ) :
    ∃ inputs, session (rule request world).2 = ((session world).run inputs).1

namespace Environs

variable {σ : Type} (env : Environs σ)

/-- Whether the session has ended. -/
def ended (world : σ) : Bool := !(env.session world).isOpen

/-- Between two worlds the session goes on as sessions do. -/
def Passes (world after : σ) : Prop :=
  ∃ inputs, env.session after = ((env.session world).run inputs).1

variable {env} {world after : σ}

theorem Passes.refl : env.Passes world world := ⟨[], rfl⟩

theorem Passes.trans {last : σ} (first : env.Passes world after) (second : env.Passes after last) :
    env.Passes world last := by
  obtain ⟨front, first⟩ := first
  obtain ⟨back, second⟩ := second
  exact ⟨front ++ back, by rw [Session.run_append, second, first]; rfl⟩

/-- What has ended stays so. -/
theorem Passes.ended (passes : env.Passes world after) (ended : env.ended world = true) :
    env.ended after = true := by
  obtain ⟨inputs, runs⟩ := passes
  unfold Environs.ended at *
  rw [Bool.not_eq_true'] at *
  rw [← Bool.not_eq_true] at *
  rw [runs]
  exact fun isOpen => ended (Session.isOpen_of_run isOpen)

theorem passes_run {α : Type} (talk : Talk α) (world : σ) :
    env.Passes world (talk.run env.rule world).2 := by
  induction talk generalizing world with
  | done result => exact .refl
  | call request next ih =>
      have first : env.Passes world (env.rule request world).2 := env.answers request world
      exact first.trans (ih _ _)
  | stuck => exact .refl

end Environs

namespace Phase

/-- How far a phase is on the way. -/
def rank : Phase → Nat
  | .idle => 0
  | .launching | .attaching => 1
  | .connected _ => 2
  | .closed => 3

/-- Whether one phase may be followed by another, at once or later: the way goes forward only, and
the engine's last state is that the script has stopped. -/
def Precedes (phase later : Phase) : Prop :=
  later = phase ∨ phase.rank < later.rank ∨
    ∃ state next, phase = .connected state ∧ later = .connected next ∧ state ≠ .stopped

variable {phase later last : Phase}

theorem Precedes.refl : phase.Precedes phase := .inl rfl

theorem rank_le_of_precedes (precedes : phase.Precedes later) : phase.rank ≤ later.rank := by
  rcases precedes with rfl | less | ⟨state, next, rfl, rfl, _⟩
  · exact Nat.le_refl _
  · exact Nat.le_of_lt less
  · exact Nat.le_refl _

theorem Precedes.trans (first : phase.Precedes later) (second : later.Precedes last) :
    phase.Precedes last := by
  rcases first with rfl | less | ⟨state, next, rfl, rfl, runs⟩
  · exact second
  · exact .inr (.inl (Nat.lt_of_lt_of_le less (rank_le_of_precedes second)))
  · rcases second with rfl | less | ⟨other, final, same, rfl, _⟩
    · exact .inr (.inr ⟨state, next, rfl, rfl, runs⟩)
    · exact .inr (.inl less)
    · exact .inr (.inr ⟨state, final, rfl, rfl, runs⟩)

theorem precedes_closed : phase.Precedes .closed := by
  cases phase with
  | closed => exact .refl
  | _ => exact .inr (.inl (by simp [rank]))

theorem idle_precedes : Precedes .idle later := by
  cases later with
  | idle => exact .refl
  | _ => exact .inr (.inl (by simp [rank]))

/-- Nothing comes after the end. -/
theorem eq_closed_of_precedes (precedes : Precedes .closed later) : later = .closed := by
  rcases precedes with rfl | less | ⟨state, next, same, _⟩
  · rfl
  · cases later <;> simp [rank] at less
  · cases same

/-- A script that has stopped does not go on. -/
theorem eq_stopped_or_closed_of_precedes (precedes : Precedes (.connected .stopped) later) :
    later = .connected .stopped ∨ later = .closed := by
  rcases precedes with rfl | less | ⟨state, next, same, _, runs⟩
  · exact .inl rfl
  · cases later with
    | closed => exact .inr rfl
    | _ => simp [rank] at less
  · cases same
    exact absurd rfl runs

end Phase

namespace Debugger

variable {σ α : Type}

/-- The phase that is reported of a debugger whose session has ended or not. -/
def reported (debugger : Debugger) (ended : Bool) : Phase :=
  match debugger.phase, debugger.link with
  | .connected state, some _ => if ended then .closed else .connected state
  | phase, _ => phase

/-- A debugger that is reported connected has stored so. -/
theorem phase_of_reported {debugger : Debugger} {ended : Bool} {state : RunState}
    (connected : debugger.reported ended = .connected state) :
    debugger.phase = .connected state := by
  obtain ⟨config, host, phase, link⟩ := debugger
  cases phase with
  | connected other =>
      cases link <;> cases ended <;> simp_all [reported]
  | _ => cases connected

/-- What is asked of a debugger. -/
inductive Call where
  /-- To start the script or to ask it to connect, as the settings say. -/
  | start
  /-- To start the script. -/
  | launch
  /-- To ask a running script to connect. -/
  | attach
  /-- To use a connection that there is already. -/
  | attachStream
  /-- To start the script once the front end is ready. -/
  | configurationDone
  /-- To let the script go on. -/
  | resume (continuation : Continuation)
  /-- To replace the breakpoints on lines of a source. -/
  | setBreakpoints (request : BreakpointsRequest)
  /-- To replace the breakpoints on functions. -/
  | setFunctionBreakpoints (wanted : List FunctionBreakpoint)
  /-- To turn stopping on exceptions on or off. -/
  | setExceptionBreakpoints (filters : List String)
  /-- For the frames of the stack. -/
  | stackTrace
  /-- For the groups of variables of a frame. -/
  | scopes (frame : Int)
  /-- For the variables in something. -/
  | variablesIn (reference : Int)
  /-- For the value of an expression. -/
  | evaluate (request : EvaluateRequest)
  /-- For the names that complete a text. -/
  | completions (text : String) (frame : Option Int)
  /-- To let the script run on. -/
  | detach
  /-- To end. -/
  | close

namespace Call

/-- An operation without its result. -/
def silent (operation : DebuggerOperation α) : DebuggerOperation Unit := do
  let _ ← operation

/-- What the debugger does. -/
def operation : Call → DebuggerOperation Unit
  | .start => Debugger.start
  | .launch => Debugger.launch
  | .attach => Debugger.attach
  | .attachStream => Debugger.attachStream
  | .configurationDone => silent Debugger.configurationDone
  | .resume continuation => silent (Debugger.execute continuation)
  | .setBreakpoints request => silent (Debugger.setBreakpoints request)
  | .setFunctionBreakpoints wanted => silent (Debugger.setFunctionBreakpoints wanted)
  | .setExceptionBreakpoints filters => silent (Debugger.setExceptionBreakpoints filters)
  | .stackTrace => silent Debugger.stackTrace
  | .scopes frame => silent (Debugger.scopes frame)
  | .variablesIn reference => silent (Debugger.variablesIn reference)
  | .evaluate request => silent (Debugger.evaluate request)
  | .completions text frame => silent (Debugger.completions text frame)
  | .detach => Debugger.detach
  | .close => Debugger.close

/-- Whether a call makes a connection. -/
def connects : Call → Bool
  | .start | .launch | .attach | .attachStream => true
  | _ => false

/-- How a call lets the script go on, under given settings. -/
def continuation? (config : DebugConfig) : Call → Option Continuation
  | .configurationDone => some (if config.stopOnEntry then .stepIn else .continue)
  | .resume continuation => some continuation
  | _ => none

/-- Whether a call needs a connected engine; breakpoints are set on a source with a path only. -/
def needsEngine : Call → Bool
  | .start | .launch | .attach | .attachStream | .close => false
  | .setBreakpoints request => request.source.path.isSome
  | _ => true

end Call

/-- One thing that happens to a debugger in its world: it does what is asked of it, or the world
goes on by itself. -/
inductive Step (env : Environs σ) : Debugger × σ → Debugger × σ → Prop
  /-- A call is done. -/
  | call (call : Call) {debugger after : Debugger} {world afterWorld : σ}
      {result : Except DebugError Unit}
      (run : (call.operation.run.run debugger).run env.rule world =
        (some (result, after), afterWorld)) :
      Step env (debugger, world) (after, afterWorld)
  /-- Time passes. -/
  | passes {debugger : Debugger} {world afterWorld : σ} (passes : env.Passes world afterWorld) :
      Step env (debugger, world) (debugger, afterWorld)

/-! ## What an operation does to the phase -/

/-- What an operation may make of a debugger. -/
inductive Advance (debugger after : Debugger) : Prop
  /-- It keeps the phase and the connection. -/
  | kept (phase : after.phase = debugger.phase)
      (link : after.link.isSome = debugger.link.isSome)
  /-- It is the first one. -/
  | first (idle : debugger.phase = .idle)
  /-- It is the last one. -/
  | last (closed : after.phase = .closed)
  /-- The engine reports another state. -/
  | moved {state next : RunState} (phase : debugger.phase = .connected state)
      (runs : state ≠ .stopped) (reported : after.phase = .connected next)
      (link : after.link.isSome = true)

theorem Advance.refl {debugger : Debugger} : Advance debugger debugger := .kept rfl rfl

/-- What is reported moves forward. -/
theorem Advance.reported {debugger after : Debugger} {ended later : Bool}
    (advance : Advance debugger after) (lasts : ended = true → later = true) :
    (debugger.reported ended).Precedes (after.reported later) := by
  obtain ⟨config, host, phase, link⟩ := debugger
  obtain ⟨afterConfig, afterHost, afterPhase, afterLink⟩ := after
  cases advance with
  | kept samePhase sameLink =>
      cases samePhase
      cases phase with
      | connected state =>
          cases link <;> cases afterLink <;> cases ended <;> cases later <;>
            simp_all [Debugger.reported, Phase.precedes_closed, Phase.Precedes.refl]
      | _ => exact .refl
  | first idle =>
      cases idle
      exact Phase.idle_precedes
  | last closed =>
      cases closed
      exact Phase.precedes_closed
  | @moved state next same runs reported linked =>
      cases same
      cases reported
      have forward : Phase.Precedes (.connected state) (.connected next) :=
        .inr (.inr ⟨state, next, rfl, rfl, runs⟩)
      cases link <;> cases afterLink <;> cases ended <;> cases later <;>
        simp_all [Debugger.reported, Phase.precedes_closed, Phase.Precedes.refl]

section Operations

variable {rule : AnswerRule σ} {debugger : Debugger} {world : σ} {closed : Bool}

/-- Asking for the phase changes nothing, whether or not the session has to be asked. -/
theorem currentPhase_ensures (told : (rule .isClosed world).1 = closed) :
    currentPhase.Ensures rule debugger world fun result after last =>
      result = .ok (debugger.reported closed) ∧ after = debugger ∧
        (last = world ∨ last = (rule .isClosed world).2) := by
  obtain ⟨config, host, phase, link⟩ := debugger
  unfold currentPhase
  cases phase with
  | connected state =>
      cases link with
      | none => simp [reported]
      | some link =>
          simp only [Operation.ensures_bind, Operation.ensures_get]
          refine Operation.ensures_ask.2 ?_
          simp only [told]
          cases closed <;> simp [reported]
  | _ => simp [reported]

/-- The state of a connected engine, as it is reported. -/
def reportedState (debugger : Debugger) (name : String) (ended : Bool) :
    Except DebugError RunState :=
  match debugger.reported ended with
  | .connected state => .ok state
  | .closed => .error .notConnected
  | phase => .error (.wrongPhase name phase.text)

theorem phase_of_reportedState {name : String} {state : RunState}
    (connected : debugger.reportedState name closed = .ok state) :
    debugger.phase = .connected state := by
  unfold reportedState at connected
  split at connected
  · next reported =>
      cases connected
      exact phase_of_reported reported
  · cases connected
  · cases connected

/-- Only a connected engine has a state. -/
theorem connectedState_ensures (told : (rule .isClosed world).1 = closed) (name : String) :
    (connectedState name).Ensures rule debugger world fun result after last =>
      result = debugger.reportedState name closed ∧ after = debugger ∧
        (last = world ∨ last = (rule .isClosed world).2) := by
  unfold connectedState reportedState
  rw [Operation.ensures_bind]
  refine (currentPhase_ensures told).mono ?_
  rintro _ after last ⟨rfl, rfl, where_⟩
  dsimp only
  cases after.reported closed <;> simp [where_]

/-- Only an idle debugger can begin. -/
theorem begin_ensures (told : (rule .isClosed world).1 = closed) (busy : debugger.phase ≠ .idle)
    (name : String) (next : Phase) :
    (begin name next).Ensures rule debugger world fun result after last =>
      result = .error (.wrongPhase name (debugger.reported closed).text) ∧ after = debugger ∧
        (last = world ∨ last = (rule .isClosed world).2) := by
  unfold begin
  simp only [Operation.ensures_bind, Operation.ensures_get, bne_iff_ne, ne_eq, busy,
    not_false_eq_true, if_true]
  refine (currentPhase_ensures told).mono ?_
  rintro _ after last ⟨rfl, rfl, where_⟩
  simp [where_]

/-- Whatever is done with what is known of the engine, the rest of the debugger stays. -/
theorem onLink_leaves (link : Link) (operation : LinkOperation α) :
    (onLink link operation).Leaves rule debugger world fun _ after _ =>
      ∃ link, after = { debugger with link := some link } := by
  have first : operation.Leaves rule link world fun _ _ _ => True := fun _ _ _ _ => trivial
  refine Operation.Leaves.andThen
    (fun result link => .done (result, { debugger with link := some link }))
    (first.mono ?_) rfl
  intro result link world _ last after afterWorld ended
  cases ended
  exact ⟨link, rfl⟩

/-- What is known of the engine is looked up. -/
theorem knownLink_ensures :
    knownLink.Ensures rule debugger world fun result after last =>
      result = (match debugger.link with
        | some link => .ok link
        | none => .error .notConnected) ∧ after = debugger ∧ last = world := by
  obtain ⟨config, host, phase, link⟩ := debugger
  cases link <;> exact ⟨_, _, _, rfl, rfl, rfl, rfl⟩

/-- What is known of the engine is at hand, or nothing happens. -/
theorem leaves_knownLink_bind {operation : Link → DebuggerOperation α} {post : Debugger → Prop}
    (start : post debugger)
    (leaves : ∀ link, debugger.link = some link →
      (operation link).Leaves rule debugger world fun _ after _ => post after) :
    Operation.Leaves rule (do let link ← knownLink; operation link) debugger world
      fun _ after _ => post after := by
  refine Operation.Leaves.bind (knownLink_ensures.leaves.mono ?_)
  rintro result after last ⟨found, rfl, rfl⟩
  cases linked : after.link with
  | none =>
      rw [linked] at found
      cases found
      exact start
  | some link =>
      rw [linked] at found
      cases found
      exact leaves link linked

/-- Whether an operation only moves debuggers forward, wherever the session has come to. -/
def Advances (env : Environs σ) (operation : DebuggerOperation α) : Prop :=
  ∀ debugger world, operation.Leaves env.rule debugger world fun _ after _ => Advance debugger after

end Operations

section Advances

variable {env : Environs σ} {debugger : Debugger} {world : σ}

theorem Advances.bind_pure {β : Type} {operation : DebuggerOperation α}
    (advances : Advances env operation) (change : α → β) :
    Advances env (do let value ← operation; return change value) := by
  intro debugger world
  refine Operation.Leaves.bind ((advances debugger world).mono ?_)
  rintro (error | value) after afterWorld advance
  · exact advance
  · exact ((Operation.ensures_pure _).2 advance).leaves

theorem Advances.get_bind {operation : Debugger → DebuggerOperation α}
    (advances : ∀ debugger, Advances env (operation debugger)) :
    Advances env (do let debugger ← get; operation debugger) :=
  fun debugger world =>
    Operation.Leaves.bind (Operation.ensures_get.2 (advances debugger debugger world)).leaves

/-- Operations on what is known of the engine keep the phase. -/
theorem advances_whenConnected (name : String) (operation : LinkOperation α) :
    Advances env (whenConnected name operation) := by
  intro debugger world
  refine Operation.Leaves.bind
    ((connectedState_ensures (env.isClosed_eq world) name).leaves.mono ?_)
  rintro (error | state) debugger connectedWorld ⟨_, rfl, _⟩
  · exact .refl
  refine leaves_knownLink_bind .refl fun link linked => ?_
  refine (onLink_leaves link operation).mono ?_
  rintro _ _ _ ⟨link, rfl⟩
  exact .kept rfl (by rw [linked]; rfl)

/-- Only an idle debugger does anything when it begins. -/
theorem Advances.begin_bind {operation : DebuggerOperation α} (name : String) (next : Phase) :
    Advances env (do begin name next; operation) := by
  intro debugger world
  by_cases idle : debugger.phase = .idle
  · exact fun _ _ _ _ => .first idle
  · refine Operation.Leaves.bind
      ((begin_ensures (env.isClosed_eq world) idle name next).leaves.mono ?_)
    rintro _ _ _ ⟨rfl, rfl, _⟩
    exact .refl

theorem advances_launch : Advances env launch := Advances.begin_bind _ _

theorem advances_attach : Advances env attach := Advances.begin_bind _ _

theorem advances_attachStream : Advances env attachStream := Advances.begin_bind _ _

theorem advances_start : Advances env start := by
  refine Advances.get_bind fun debugger => ?_
  cases debugger.config.request
  · exact advances_launch
  · exact advances_attach

/-- Parting from an engine concerns nothing but the engine. -/
theorem still_shutdown {rule : AnswerRule σ} (link : Link) :
    Operation.Still rule (shutdown link : DebuggerOperation Unit) := by
  have ending : Operation.Still rule (do
      Operation.ask .awaitEnd
      if link.launched && !(← Operation.ask .isLetGo) then Operation.ask .kill :
        DebuggerOperation Unit) := by
    refine (Operation.Still.ask _).bind fun _ => (Operation.Still.ask _).bind fun _ => ?_
    split
    · exact .ask _
    · exact .pure _
  refine (Operation.Still.ask _).bind fun (closed : Bool) => ?_
  dsimp only
  split
  · refine (Operation.Still.ask _).bind fun (letGo : Bool) => ?_
    split
    · exact (Operation.Still.ask _).bind fun _ => (Operation.Still.ask _).bind fun _ => ending
    · exact (Operation.Still.ask _).bind fun _ => (Operation.Still.ask _).bind fun _ => ending
  · exact ending

theorem advances_close : Advances env close := by
  refine Advances.get_bind fun debugger first world => ?_
  refine Operation.Leaves.bind ((Operation.ensures_set _).2 ?_).leaves
  cases debugger.link with
  | none => exact ((Operation.ensures_pure _).2 (.last rfl)).leaves
  | some link =>
      refine ((still_shutdown link _ world).mono ?_).leaves
      rintro _ _ _ rfl
      exact .last rfl

theorem advances_detach : Advances env detach := by
  intro debugger world
  refine Operation.Leaves.bind
    ((connectedState_ensures (env.isClosed_eq world) _).leaves.mono ?_)
  rintro (error | state) debugger connectedWorld ⟨_, rfl, _⟩
  · exact .refl
  refine leaves_knownLink_bind .refl fun link _ => ?_
  refine Operation.Leaves.bind (Operation.ensures_ask.2 ?_).leaves
  refine Operation.Leaves.bind (Operation.ensures_ask.2 ?_).leaves
  refine Operation.Leaves.bind ((Operation.ensures_modify _).2 ?_).leaves
  refine Operation.Leaves.bind ((still_shutdown link _ _).leaves.mono ?_)
  rintro (error | _) _ _ rfl
  · exact .last rfl
  dsimp only
  split
  · exact ((Operation.ensures_pure _).2 (.last rfl)).leaves
  · exact ((Operation.ensures_throw _).2 (.last rfl)).leaves

theorem advances_execute (continuation : Continuation) : Advances env (execute continuation) := by
  intro debugger world
  unfold execute
  refine Operation.Leaves.bind
    ((connectedState_ensures (env.isClosed_eq world) _).leaves.mono ?_)
  rintro (error | state) debugger connectedWorld ⟨connected, rfl, _⟩
  · exact .refl
  dsimp only
  split
  · refine Operation.Leaves.bind
      ((currentPhase_ensures (env.isClosed_eq connectedWorld)).leaves.mono ?_)
    rintro _ _ _ ⟨rfl, rfl, _⟩
    exact ((Operation.ensures_throw _).2 .refl).leaves
  next goes =>
  have phase : debugger.phase = .connected state := phase_of_reportedState connected.symm
  have runs : state ≠ .stopped := by
    rintro rfl
    exact goes rfl
  refine leaves_knownLink_bind .refl fun link _ => ?_
  refine Operation.Leaves.bind ((Operation.ensures_modify _).2 ?_).leaves
  refine Operation.Leaves.bind (Operation.Leaves.tryCatch
    (Operation.Leaves.bind ((onLink_leaves link _).mono ?_)))
  rintro (error | status) _ afterWorld ⟨link, rfl⟩
  · refine Operation.Leaves.bind ((Operation.ensures_modify _).2 ?_).leaves
    refine ((Operation.ensures_bind _ _).2 ((Operation.ensures_throw _).2 ?_)).leaves
    dsimp only
    split
    · exact .last rfl
    · exact .moved phase runs rfl rfl
  · refine Operation.Leaves.bind ((Operation.ensures_modify _).2 ?_).leaves
    refine Operation.Ensures.leaves ((Operation.ensures_pure _).2 ?_)
    exact ((Operation.ensures_pure _).2 (.moved phase runs rfl rfl)).leaves

theorem advances_configurationDone : Advances env configurationDone := by
  refine Advances.get_bind fun debugger => ?_
  split
  · exact advances_execute _
  · exact (advances_execute _).bind_pure fun status =>
      if status.stopReason == some .step then { status with stopReason := some .entry } else status

/-- Whatever is asked of a debugger, it only moves forward. -/
theorem advances_operation (call : Call) : Advances env call.operation := by
  cases call with
  | start => exact advances_start
  | launch => exact advances_launch
  | attach => exact advances_attach
  | attachStream => exact advances_attachStream
  | configurationDone => exact advances_configurationDone.bind_pure _
  | resume continuation => exact (advances_execute continuation).bind_pure _
  | setBreakpoints request =>
      refine Advances.bind_pure ?_ _
      unfold setBreakpoints
      cases request.source.path with
      | none => exact fun _ _ => ((Operation.ensures_throw _).2 .refl).leaves
      | some path => exact .get_bind fun _ => (advances_whenConnected _ _).bind_pure _
  | setFunctionBreakpoints wanted =>
      exact (Advances.get_bind fun _ => (advances_whenConnected _ _).bind_pure _).bind_pure _
  | setExceptionBreakpoints filters =>
      exact (Advances.get_bind fun _ => (advances_whenConnected _ _).bind_pure _).bind_pure _
  | stackTrace | scopes | variablesIn | evaluate | completions =>
      exact (advances_whenConnected _ _).bind_pure _
  | detach => exact advances_detach
  | close => exact advances_close

end Advances

/-! ## What is refused -/

/-- An operation is refused: it fails with an error of a kind, the debugger is as it was, and the
surroundings have been asked at most whether the session has ended. -/
def Refuses (env : Environs σ) (operation : DebuggerOperation α) (debugger : Debugger) (world : σ)
    (kind : DebugError → Prop) : Prop :=
  operation.Ensures env.rule.logged debugger (world, []) fun result after last =>
    (∃ error, result = .error error ∧ kind error) ∧ after = debugger ∧
      ∀ request ∈ last.2, request = .isClosed

section Refusals

variable {env : Environs σ} {debugger : Debugger} {world : σ} {kind : DebugError → Prop}

theorem Refuses.bind {β : Type} {operation : DebuggerOperation α}
    (refuses : Refuses env operation debugger world kind) (next : α → DebuggerOperation β) :
    Refuses env (operation >>= next) debugger world kind := by
  refine (Operation.ensures_bind _ _).2 (refuses.mono ?_)
  rintro _ after last ⟨⟨error, rfl, holds⟩, rest⟩
  exact ⟨⟨error, rfl, holds⟩, rest⟩

theorem Refuses.get_bind {operation : Debugger → DebuggerOperation α}
    (refuses : Refuses env (operation debugger) debugger world kind) :
    Refuses env (do let debugger ← get; operation debugger) debugger world kind :=
  (Operation.ensures_bind _ _).2 (Operation.ensures_get.2 refuses)

/-- With the requests noted the session is told of as before. -/
theorem isClosed_logged (start : σ × List Request) :
    (env.rule.logged .isClosed start).1 = env.ended start.1 := env.isClosed_eq start.1

/-- Who has asked at most whether the session has ended may ask that once more. -/
theorem eq_isClosed_of_logged {start last : σ × List Request}
    (asked : ∀ request ∈ start.2, request = .isClosed)
    (where_ : last = start ∨ last = (env.rule.logged .isClosed start).2) :
    ∀ request ∈ last.2, request = .isClosed := by
  rcases where_ with rfl | rfl
  · exact asked
  · intro request member
    rcases List.mem_append.1 member with before | new
    · exact asked request before
    · exact List.mem_singleton.1 new

/-- Without a connected engine there is no state of it. -/
theorem refuses_connectedState (closed : debugger.reported (env.ended world) = .closed)
    (name : String) : Refuses env (connectedState name) debugger world (· = .notConnected) := by
  refine (connectedState_ensures (isClosed_logged (world, [])) name).mono ?_
  rintro _ after last ⟨rfl, rfl, where_⟩
  refine ⟨⟨.notConnected, ?_, rfl⟩, rfl, eq_isClosed_of_logged (by simp) where_⟩
  unfold reportedState
  rw [closed]

/-- What needs an engine is refused once the debugger is closed. -/
theorem refuses_of_needsEngine {call : Call} (needs : call.needsEngine = true)
    (closed : debugger.reported (env.ended world) = .closed) :
    Refuses env call.operation debugger world (· = .notConnected) := by
  have whenConnected (name : String) {β : Type} (operation : LinkOperation β) :
      Refuses env (whenConnected name operation) debugger world (· = .notConnected) :=
    (refuses_connectedState closed name).bind _
  have execute (continuation : Continuation) :
      Refuses env (execute continuation) debugger world (· = .notConnected) :=
    (refuses_connectedState closed _).bind _
  cases call with
  | start | launch | attach | attachStream | close => cases needs
  | configurationDone =>
      refine Refuses.bind (Refuses.get_bind ?_) _
      split
      · exact execute _
      · exact (execute _).bind _
  | resume continuation => exact (execute continuation).bind _
  | setBreakpoints request =>
      refine Refuses.bind ?_ _
      unfold setBreakpoints
      obtain ⟨path, given⟩ := Option.isSome_iff_exists.1 needs
      rw [given]
      exact Refuses.get_bind ((whenConnected _ _).bind _)
  | setFunctionBreakpoints wanted | setExceptionBreakpoints filters =>
      exact (Refuses.get_bind ((whenConnected _ _).bind _)).bind _
  | stackTrace | scopes | variablesIn | evaluate | completions => exact (whenConnected _ _).bind _
  | detach => exact (refuses_connectedState closed _).bind _

/-- A debugger that is not idle makes no connection. -/
theorem refuses_begin (busy : debugger.phase ≠ .idle) (name : String) (next : Phase) :
    Refuses env (begin name next) debugger world
      (· = .wrongPhase name (debugger.reported (env.ended world)).text) := by
  refine (begin_ensures (isClosed_logged (world, [])) busy name next).mono ?_
  rintro _ after last ⟨rfl, rfl, where_⟩
  exact ⟨⟨_, rfl, rfl⟩, rfl, eq_isClosed_of_logged (by simp) where_⟩

/-- The name under which a connecting call is refused. -/
def Call.connecting (config : DebugConfig) : Call → String
  | .launch => "launch"
  | .start => if config.request = .launch then "launch" else "attach"
  | _ => "attach"

/-- Nothing is connected once the debugger is closed. -/
theorem refuses_of_connects {call : Call} (connects : call.connects = true)
    (closed : debugger.reported (env.ended world) = .closed) :
    Refuses env call.operation debugger world
      (· = .wrongPhase (call.connecting debugger.config) Phase.closed.text) := by
  have busy : debugger.phase ≠ .idle := by
    intro idle
    unfold reported at closed
    rw [idle] at closed
    cases closed
  have begin_ (name : String) (next : Phase) (operation : DebuggerOperation Unit) :
      Refuses env (do begin name next; operation) debugger world
        (· = .wrongPhase name Phase.closed.text) := by
    rw [← closed]
    exact (refuses_begin busy name next).bind _
  cases call with
  | launch | attach | attachStream => exact begin_ _ _ _
  | start =>
      refine Refuses.get_bind ?_
      unfold Call.connecting
      cases debugger.config.request
      · exact begin_ _ _ _
      · exact begin_ _ _ _
  | _ => cases connects

/-- Whether the engine that is in a state is not to be let go on in a way. -/
def finished (state : RunState) (continuation : Continuation) : Bool :=
  state == .stopped || state == .stopping && continuation != .stop

/-- A script that has come to its end is not let go on; meanwhile the session may end. -/
theorem refuses_execute {state : RunState} {continuation : Continuation}
    (connected : debugger.reported (env.ended world) = .connected state)
    (settled : finished state continuation = true) :
    Refuses env (execute continuation) debugger world fun error =>
      ∃ phase ∈ [Phase.connected state, .closed],
        error = .wrongPhase continuation.operation phase.text := by
  unfold execute
  refine (Operation.ensures_bind _ _).2
    ((connectedState_ensures (isClosed_logged (world, [])) _).mono ?_)
  rintro _ debugger start ⟨rfl, rfl, where_⟩
  have asked := eq_isClosed_of_logged (by simp) where_
  unfold reportedState
  rw [connected]
  dsimp only
  have settled : (state == .stopped || state == .stopping && continuation != .stop) = true := settled
  rw [if_pos settled]
  refine (Operation.ensures_bind _ _).2 ((currentPhase_ensures (isClosed_logged start)).mono ?_)
  rintro _ after last ⟨rfl, rfl, later⟩
  refine (Operation.ensures_throw _).2
    ⟨⟨_, rfl, _, ?_, rfl⟩, rfl, eq_isClosed_of_logged asked later⟩
  have phase := phase_of_reported connected
  unfold reported
  rw [phase]
  cases after.link <;> cases env.ended start.1 <;> simp

/-- The same of every call that lets the script go on. -/
theorem refuses_of_continuation {call : Call} {state : RunState} {continuation : Continuation}
    (goesOn : call.continuation? debugger.config = some continuation)
    (connected : debugger.reported (env.ended world) = .connected state)
    (settled : finished state continuation = true) :
    Refuses env call.operation debugger world fun error =>
      ∃ phase ∈ [Phase.connected state, .closed],
        error = .wrongPhase continuation.operation phase.text := by
  cases call with
  | configurationDone =>
      refine Refuses.bind (Refuses.get_bind ?_) _
      have named := Option.some.inj goesOn
      cases entry : debugger.config.stopOnEntry
      · rw [entry] at named
        cases named
        exact refuses_execute connected settled
      · rw [entry] at named
        cases named
        exact (refuses_execute connected settled).bind _
  | resume =>
      cases goesOn
      exact (refuses_execute connected settled).bind _
  | _ => cases goesOn

/-- Whether a request writes something to the engine. -/
def writes : Request → Bool
  | .submit _ _ | .interrupt _ | .detach => true
  | _ => false

/-- A debugger can be closed at any time, and nothing is written if the session has ended. -/
theorem close_ensures (ended : env.ended world = true) :
    close.Ensures env.rule.logged debugger (world, []) fun result after last =>
      result = .ok () ∧ after.phase = .closed ∧ after.link = none ∧
        ∀ request ∈ last.2, writes request = false := by
  refine (Operation.ensures_bind _ _).2 (Operation.ensures_get.2 ?_)
  refine (Operation.ensures_bind _ _).2 ((Operation.ensures_set _).2 ?_)
  cases debugger.link with
  | none => exact (Operation.ensures_pure _).2 ⟨rfl, rfl, rfl, by simp⟩
  | some link =>
      refine (Operation.ensures_bind _ _).2 (Operation.ensures_ask.2 ?_)
      dsimp only
      rw [isClosed_logged, ended]
      refine (Operation.ensures_bind _ _).2 (Operation.ensures_ask.2 ?_)
      refine (Operation.ensures_bind _ _).2 (Operation.ensures_ask.2 ?_)
      dsimp only
      split
      · exact Operation.ensures_ask.2 ⟨rfl, rfl, rfl, by simp [AnswerRule.logged, writes]⟩
      · exact (Operation.ensures_pure _).2 ⟨rfl, rfl, rfl, by simp [AnswerRule.logged, writes]⟩

end Refusals

/-! ## What happens one thing after the other -/

section Steps

variable {env : Environs σ} {before after : Debugger × σ}

/-- The phase that is reported of a debugger in its world. -/
def reportedIn (env : Environs σ) (now : Debugger × σ) : Phase := now.1.reported (env.ended now.2)

theorem Step.precedes (step : Step env before after) :
    (reportedIn env before).Precedes (reportedIn env after) := by
  cases step with
  | @call call debugger after world afterWorld result run =>
      have advance : Advance debugger after :=
        advances_operation call debugger world result after afterWorld run
      have passes : env.Passes world
          ((call.operation.run.run debugger).run env.rule world).2 := Environs.passes_run _ _
      rw [run] at passes
      exact advance.reported passes.ended
  | passes passes => exact Advance.refl.reported passes.ended

theorem precedes_of_steps (steps : Relation.ReflTransGen (Step env) before after) :
    (reportedIn env before).Precedes (reportedIn env after) := by
  induction steps with
  | refl => exact .refl
  | tail _ step ih => exact ih.trans step.precedes

end Steps

/-- The phases of a debugger: whatever is asked of it in whatever order, and whatever its
surroundings answer, it reports a phase that only moves forward, and what has come to its end is not
let go on. -/
theorem phases_forward (env : Environs σ) :
    (∀ debugger world, currentPhase.Ensures env.rule debugger world fun result after _ =>
      result = .ok (reportedIn env (debugger, world)) ∧ after = debugger) ∧
    (∀ before after, Relation.ReflTransGen (Step env) before after →
      (reportedIn env before).Precedes (reportedIn env after) ∧
      (reportedIn env before = .closed → reportedIn env after = .closed) ∧
      (reportedIn env before = .connected .stopped →
        reportedIn env after = .connected .stopped ∨ reportedIn env after = .closed)) ∧
    (∀ debugger world state continuation (call : Call),
      reportedIn env (debugger, world) = .connected state →
      call.continuation? debugger.config = some continuation →
      state = .stopped ∨ state = .stopping ∧ continuation ≠ .stop →
      Refuses env call.operation debugger world fun error =>
        ∃ phase ∈ [Phase.connected state, .closed],
          error = .wrongPhase continuation.operation phase.text) ∧
    (∀ debugger world (call : Call), reportedIn env (debugger, world) = .closed →
      (call.connects = true → Refuses env call.operation debugger world
        (· = .wrongPhase (call.connecting debugger.config) Phase.closed.text)) ∧
      (call.needsEngine = true →
        Refuses env call.operation debugger world (· = .notConnected))) ∧
    (∀ debugger world, env.ended world = true →
      close.Ensures env.rule.logged debugger (world, []) fun result after last =>
        result = .ok () ∧ after.phase = .closed ∧ after.link = none ∧
          ∀ request ∈ last.2, writes request = false) := by
  refine ⟨fun debugger world => ?_, fun before after steps => ?_,
    fun debugger world state continuation call connected goesOn settled => ?_,
    fun debugger world call closed =>
      ⟨fun connects => refuses_of_connects connects closed,
        fun needs => refuses_of_needsEngine needs closed⟩,
    fun _ _ ended => close_ensures ended⟩
  · refine (currentPhase_ensures (env.isClosed_eq world)).mono ?_
    rintro _ after _ ⟨rfl, rfl, _⟩
    exact ⟨rfl, rfl⟩
  · have forward := precedes_of_steps steps
    refine ⟨forward, fun closed => ?_, fun stopped => ?_⟩
    · rw [closed] at forward
      exact Phase.eq_closed_of_precedes forward
    · rw [stopped] at forward
      exact Phase.eq_stopped_or_closed_of_precedes forward
  · refine refuses_of_continuation goesOn connected ?_
    rcases settled with rfl | ⟨rfl, other⟩
    · rfl
    · cases continuation <;> trivial

/-- Surroundings in which nothing happens but that the session can be ended. -/
def silence : Environs Session where
  rule
    | .isClosed, session => (!session.isOpen, session)
    | .close, session => ((), (session.run [.disconnected, .listen]).1)
    | request, session => (request.idleAnswer, session)
  session := id
  isClosed_eq _ := rfl
  answers request session := by
    cases request with
    | close => exact ⟨[.disconnected, .listen], rfl⟩
    | _ => exact ⟨[], rfl⟩

/-- A debugger to which nothing has happened. -/
def fresh : Debugger :=
  .new (.forProgram "main.ahk") ⟨{ entries := [], workingPlace := [] }, { bindings := [] }⟩

/-- No engine greets, so the debugger is closed and starts no script; nor does one whose script is
about to end go on with it. -/
theorem phases_forward_silent :
    (∃ after, Relation.ReflTransGen (Step silence) (fresh, .initial) after ∧
      reportedIn silence after = .closed ∧
      Refuses silence (Call.operation .launch) after.1 after.2
        (· = .wrongPhase "launch" "closed")) ∧
    Refuses silence (Call.operation (.resume .continue))
      { fresh with phase := .connected .stopping } .initial fun error =>
        ∃ phase ∈ [Phase.connected .stopping, .closed], error = .wrongPhase "continue" phase.text := by
  refine ⟨⟨({ fresh with phase := .closed }, (Session.initial.run [.disconnected, .listen]).1),
    ?_, rfl, ?_⟩, ?_⟩
  · exact .single (.call .attachStream rfl)
  · exact ((phases_forward silence).2.2.2.1 _ _ .launch rfl).1 rfl
  · exact (phases_forward silence).2.2.1 _ _ .stopping .continue (.resume .continue) rfl rfl
      (.inr ⟨rfl, by decide⟩)

end Debugger
end DebugBridge
