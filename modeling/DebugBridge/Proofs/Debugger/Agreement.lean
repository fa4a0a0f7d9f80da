import DebugBridge.Proofs.Debugger.Table
import DebugBridge.Proofs.Text.Number
import Mathlib

/-!
# Agreement of the table with the engine

The engine has ids of its own for the breakpoints that it holds.  Whatever is done to a table
while the session lasts, and whether it succeeds or not, its breakpoints have exactly the ids that
the engine holds.  The one thing that an engine must not do is to answer that it does not know a
breakpoint and hold it all the same.
-/

namespace DebugBridge

variable {σ : Type}

/-- An engine that holds breakpoints. -/
structure Engine (σ : Type) where
  /-- How it answers. -/
  rule : AnswerRule σ
  /-- The ids of the breakpoints that it holds. -/
  held : σ → Set Nat
  /-- The ids that it has used so far. -/
  used : σ → Set Nat

namespace Engine

open Breakpoint

/-- The engine's answer to a command, and its state afterwards. -/
def answer (engine : Engine σ) (command : Command) (world : σ) :
    Except SessionError Response × σ :=
  engine.rule (.submit command none) world

/-- What an engine does with commands for breakpoints, where it may refuse to give one back with
some errors only. -/
structure Lawful (mayRefuse : EngineError → Prop) (engine : Engine σ) : Prop where
  /-- It uses what it holds. -/
  held_subset (world : σ) : engine.held world ⊆ engine.used world
  /-- The session stays open. -/
  answers (command : Command) (world : σ) :
    (∃ response, (engine.answer command world).1 = .ok response) ∨
      ∃ error, (engine.answer command world).1 = .error (.engine error)
  /-- If it takes a breakpoint, then under an id that it has never used, and says so. -/
  takes {command : Command} (name : command.name = "breakpoint_set") {world after : σ}
    {response : Response} (answer : engine.answer command world = (.ok response, after)) :
    ∃ id, response.breakpointId? = some id ∧ id ∉ engine.used world ∧
      engine.held after = insert id (engine.held world) ∧
      engine.used after = insert id (engine.used world)
  /-- If it does not take a breakpoint, all is as before. -/
  takesNot {command : Command} (name : command.name = "breakpoint_set") {world after : σ}
    {error : SessionError} (answer : engine.answer command world = (.error error, after)) :
    engine.held after = engine.held world ∧ engine.used after = engine.used world
  /-- It gives back a breakpoint that it holds, or refuses to. -/
  gives {id : Nat} {world : σ} (held : id ∈ engine.held world) :
    engine.used (engine.answer (removeCommand id) world).2 = engine.used world ∧
      ((∃ response, (engine.answer (removeCommand id) world).1 = .ok response ∧
          engine.held (engine.answer (removeCommand id) world).2 = engine.held world \ {id}) ∨
        ∃ error, (engine.answer (removeCommand id) world).1 = .error (.engine error) ∧
          mayRefuse error ∧
          engine.held (engine.answer (removeCommand id) world).2 = engine.held world)
  /-- It does not know a breakpoint that it does not hold. -/
  knowsNot {id : Nat} {world : σ} (free : id ∉ engine.held world) :
    (∃ error, (engine.answer (removeCommand id) world).1 = .error (.engine error) ∧
        error.code = EngineError.noSuchBreakpoint) ∧
      engine.held (engine.answer (removeCommand id) world).2 = engine.held world ∧
      engine.used (engine.answer (removeCommand id) world).2 = engine.used world
  /-- It tells of a breakpoint whatever it likes. -/
  tells (id : Nat) (world : σ) :
    engine.held (engine.answer (queryCommand id) world).2 = engine.held world ∧
      engine.used (engine.answer (queryCommand id) world).2 = engine.used world

end Engine

theorem Breakpoint.setCommand_name (breakpoint : Breakpoint) (hit : Option HitCondition) :
    (breakpoint.setCommand hit).name = "breakpoint_set" := by
  unfold setCommand
  cases breakpoint.location? <;> cases breakpoint.temporary <;> cases hit <;>
    cases breakpoint.condition <;> rfl

namespace BreakpointTable

open Breakpoint

/-- The engine's ids of the breakpoints. -/
def engineIds (table : BreakpointTable) : List Nat :=
  table.breakpoints.filterMap Breakpoint.engineId

/-- The breakpoints have just the ids that the engine holds, each of them once. -/
structure Agrees (engine : Engine σ) (table : BreakpointTable) (world : σ) : Prop where
  engineIds_nodup : table.engineIds.Nodup
  mem_engineIds (id : Nat) : id ∈ table.engineIds ↔ id ∈ engine.held world

variable {engine : Engine σ} {mayRefuse : EngineError → Prop} {table : BreakpointTable}
  {world after : σ} {breakpoint : Breakpoint}

@[simp]
theorem engineIds_add : (table.add breakpoint).engineIds =
    table.engineIds ++ breakpoint.engineId.toList := by
  rw [engineIds, add, List.filterMap_append]
  cases engineId : breakpoint.engineId <;> simp [engineId, engineIds]

/-- The engine's ids of the breakpoints but one. -/
theorem Numbered.engineIds_perm (numbered : Numbered table) {bound : Nat}
    (known : table.get? bound = some breakpoint) :
    table.engineIds.Perm (breakpoint.engineId.toList ++ (table.without bound).engineIds) := by
  obtain ⟨before, later, all, others⟩ := numbered.breakpoints_without known
  rw [engineIds, engineIds, all, others, List.filterMap_append, List.filterMap_append]
  cases engineId : breakpoint.engineId with
  | none => simp [engineId]
  | some id => simp [engineId]

/-- What the engine has not taken leaves all as it was. -/
theorem Agrees.add_none (agrees : Agrees engine table world) (unset : breakpoint.engineId = none)
    (same : engine.held after = engine.held world) :
    Agrees engine (add { table with nextId := table.nextId + 1 } breakpoint) after := by
  have ids : (add { table with nextId := table.nextId + 1 } breakpoint).engineIds =
      table.engineIds := by
    rw [engineIds_add, unset]
    exact List.append_nil _
  constructor
  · rw [ids]
    exact agrees.engineIds_nodup
  · intro id
    rw [ids, same]
    exact agrees.mem_engineIds id

/-- What the engine has taken under a new id agrees with it. -/
theorem Agrees.add_some (agrees : Agrees engine table world) {id : Nat}
    (set : breakpoint.engineId = some id) (fresh : id ∉ engine.held world)
    (more : engine.held after = insert id (engine.held world)) :
    Agrees engine (add { table with nextId := table.nextId + 1 } breakpoint) after := by
  have ids : (add { table with nextId := table.nextId + 1 } breakpoint).engineIds =
      table.engineIds ++ [id] := by
    rw [engineIds_add, set]
    rfl
  constructor
  · rw [ids, List.nodup_append_comm, List.singleton_append, List.nodup_cons]
    exact ⟨fun member => fresh ((agrees.mem_engineIds id).1 member), agrees.engineIds_nodup⟩
  · intro other
    rw [ids, more, List.mem_append, List.mem_singleton, Set.mem_insert_iff,
      agrees.mem_engineIds other, or_comm]

/-- A breakpoint that the engine never had can be forgotten. -/
theorem Agrees.without_none (agrees : Agrees engine table world) (numbered : Numbered table)
    {bound : Nat} (known : table.get? bound = some breakpoint)
    (unset : breakpoint.engineId = none) : Agrees engine (table.without bound) world := by
  have perm := numbered.engineIds_perm known
  rw [unset] at perm
  exact ⟨perm.nodup_iff.1 agrees.engineIds_nodup,
    fun id => perm.mem_iff.symm.trans (agrees.mem_engineIds id)⟩

/-- A breakpoint that the engine has dropped can be forgotten. -/
theorem Agrees.without_some (agrees : Agrees engine table world) (numbered : Numbered table)
    {bound id : Nat} (known : table.get? bound = some breakpoint)
    (set : breakpoint.engineId = some id)
    (fewer : engine.held after = engine.held world \ {id}) :
    Agrees engine (table.without bound) after := by
  have perm := numbered.engineIds_perm known
  rw [set] at perm
  have nodup := List.nodup_cons.1 (perm.nodup_iff.1 agrees.engineIds_nodup)
  refine ⟨nodup.2, fun other => ?_⟩
  have split : other ∈ engine.held world ↔ other = id ∨ other ∈ (table.without bound).engineIds :=
    (agrees.mem_engineIds other).symm.trans (perm.mem_iff.trans List.mem_cons)
  rw [fewer, Set.mem_sdiff, Set.mem_singleton_iff, split]
  constructor
  · intro member
    refine ⟨.inr member, ?_⟩
    rintro rfl
    exact nodup.1 member
  · rintro ⟨rfl | member, ne⟩
    · exact absurd rfl ne
    · exact member

theorem Agrees.held_of_get? (agrees : Agrees engine table world) {bound id : Nat}
    (known : table.get? bound = some breakpoint) (set : breakpoint.engineId = some id) :
    id ∈ engine.held world :=
  (agrees.mem_engineIds id).1
    (List.mem_filterMap.2 ⟨breakpoint, List.mem_of_find?_eq_some known, set⟩)

/-! ## What a move does to the agreement -/

section Moves

variable (lawful : engine.Lawful mayRefuse)
include lawful

/-- The session does not fail. -/
theorem not_answered_error {command : Command} {error : DebugError}
    (answered : Answered engine.rule command world (.error error) after) : False := by
  cases answered with
  | lost fault answer =>
      rcases lawful.answers command world with ⟨response, ok⟩ | ⟨refusal, refused⟩
      · rw [Engine.answer, answer] at ok
        cases ok
      · rw [Engine.answer, answer] at refused
        exact fault refusal (Except.error.inj refused)

theorem held_of_asked {engineId : Nat} {reply : Except EngineError Response}
    (asked : Answered engine.rule (queryCommand engineId) world (.ok reply) after) :
    engine.held after = engine.held world := by
  have told := (lawful.tells engineId world).1
  cases asked with
  | done answer | refused answer =>
      rw [Engine.answer, answer] at told
      exact told

theorem Agrees.create {context : ScriptContext} {request : BreakpointRequest}
    {table' : BreakpointTable} {result : Except DebugError Breakpoint}
    (created : Created engine.rule context request table world result table' after)
    (agrees : Agrees engine table world) : Agrees engine table' after := by
  cases created with
  | failed offered =>
      cases offered with
      | lost answered => exact (not_answered_error lawful answered).elim
      | lostLater _ _ asked => exact (not_answered_error lawful asked).elim
  | made offered =>
      cases offered with
      | unplaced | unsaid => exact agrees.add_none rfl rfl
      | refused answered =>
          cases answered with
          | refused answer =>
              exact agrees.add_none rfl (lawful.takesNot (setCommand_name _ _) answer).1
      | unnumbered answered number =>
          cases answered with
          | done answer =>
              obtain ⟨id, numbered, -⟩ := lawful.takes (setCommand_name _ _) answer
              rw [number] at numbered
              cases numbered
      | taken answered number asked =>
          cases answered with
          | done answer =>
              obtain ⟨id, numbered, fresh, more, -⟩ := lawful.takes (setCommand_name _ _) answer
              cases number.symm.trans numbered
              exact agrees.add_some rfl (fun held => fresh (lawful.held_subset world held))
                ((held_of_asked lawful asked).trans more)

theorem Agrees.remove {bound : Nat} {table' : BreakpointTable}
    {result : Except DebugError (List Breakpoint)}
    (honest : ∀ error, mayRefuse error → error.code ≠ EngineError.noSuchBreakpoint)
    (removed : Removed engine.rule bound table world result table' after)
    (numbered : Numbered table) (agrees : Agrees engine table world) :
    Agrees engine table' after := by
  cases removed with
  | absent => exact agrees
  | forgotten known unset => exact agrees.without_none numbered known unset
  | dropped known set answered =>
      have given := (lawful.gives (agrees.held_of_get? known set)).2
      cases answered with
      | done answer =>
          rw [Engine.answer, answer] at given
          rcases given with ⟨response, -, fewer⟩ | ⟨error, refused, -⟩
          · exact agrees.without_some numbered known set fewer
          · cases refused
  | gone known set answered missing =>
      have given := (lawful.gives (agrees.held_of_get? known set)).2
      cases answered with
      | refused answer =>
          rw [Engine.answer, answer] at given
          rcases given with ⟨response, ok, -⟩ | ⟨error, refused, may, -⟩
          · cases ok
          · cases refused
            exact absurd missing (honest _ may)
  | refused known set answered other =>
      have given := (lawful.gives (agrees.held_of_get? known set)).2
      cases answered with
      | refused answer =>
          rw [Engine.answer, answer] at given
          rcases given with ⟨response, ok, -⟩ | ⟨error, refused, may, same⟩
          · cases ok
          · exact ⟨agrees.engineIds_nodup, fun id =>
              same.symm ▸ agrees.mem_engineIds id⟩
  | lost known set answered => exact (not_answered_error lawful answered).elim

/-- All that is known of a table while it is in use. -/
structure Custody (engine : Engine σ) (table : BreakpointTable) (world : σ) : Prop where
  numbered : Numbered table
  agrees : Agrees engine table world

theorem Custody.move
    (honest : ∀ error, mayRefuse error → error.code ≠ EngineError.noSuchBreakpoint)
    {before after : BreakpointTable × σ} (move : Move engine.rule before after)
    (custody : Custody engine before.1 before.2) : Custody engine after.1 after.2 := by
  refine ⟨custody.numbered.move move, ?_⟩
  cases move with
  | create created => exact Agrees.create lawful created custody.agrees
  | remove removed =>
      exact Agrees.remove lawful honest removed custody.numbered custody.agrees

end Moves

/-- Whatever calls are made of an empty table, and whatever becomes of them, its breakpoints have
the ids that the engine holds, if the engine never says of a breakpoint that it holds that it does
not know it. -/
theorem agrees_of_serve {engine : Engine σ}
    (lawful : engine.Lawful fun error => error.code ≠ EngineError.noSuchBreakpoint) {world : σ}
    (nothing : engine.held world = ∅) (calls : List (ScriptContext × Call)) :
    (serve calls).Ensures engine.rule .empty world fun _ table after =>
      Agrees engine table after := by
  have start : Custody engine .empty world :=
    ⟨numbered_empty, List.nodup_nil, fun id => by rw [nothing]; exact iff_of_false nofun nofun⟩
  refine (moving_serve calls .empty world).mono fun _ table after moves => ?_
  exact (moves.keeps (Custody engine) start (Custody.move lawful fun _ other => other)).agrees

end BreakpointTable

namespace Engine

open Breakpoint BreakpointTable

/-- An engine with room for one breakpoint that never gives it back; its state tells whether it has
one. -/
def keeper (refusal : EngineError) : Engine Bool :=
  { rule := .ofEngine fun command full =>
      if command.name = "breakpoint_set" then
        if full then
          (.error (.engine { command := command.name, code := 200, text := "full" }), true)
        else
          (.ok { command := command.name, id := 1, error := none
                 element := { name := "response", attributes := [("id", "1")], children := []
                              text := "" } }, true)
      else if full ∧ command = removeCommand 1 then (.error (.engine refusal), true)
      else
        (.error (.engine { command := command.name, code := EngineError.noSuchBreakpoint
                           text := "unknown" }), full)
    held := fun full => if full then {1} else ∅
    used := fun full => if full then {1} else ∅ }

theorem removeCommand_inj {id other : Nat} :
    removeCommand id = removeCommand other ↔ id = other := by
  constructor
  · intro same
    have texts : toString id = toString other := by
      simpa [removeCommand, Command.argNat, Command.arg] using congrArg Command.args same
    rw [← Text.digitsValue_toString id, texts, Text.digitsValue_toString]
  · rintro rfl
    rfl

theorem keeper_answer_remove (refusal : EngineError) (id : Nat) (full : Bool) :
    (keeper refusal).answer (removeCommand id) full =
      (.error (.engine (if full ∧ id = 1 then refusal else
        { command := "breakpoint_remove", code := EngineError.noSuchBreakpoint
          text := "unknown" })), full) := by
  have name : "breakpoint_remove" ≠ "breakpoint_set" := by decide
  simp only [keeper, answer, AnswerRule.ofEngine, removeCommand_inj]
  rw [if_neg (show (removeCommand id).name ≠ "breakpoint_set" from name)]
  split
  · next found => rw [found.1]
  · rfl

/-- The engine may do what it does if it may refuse with this error. -/
theorem keeper_lawful {mayRefuse : EngineError → Prop} {refusal : EngineError}
    (may : mayRefuse refusal) : (keeper refusal).Lawful mayRefuse where
  held_subset world := subset_rfl
  answers command world := by
    simp only [keeper, answer, AnswerRule.ofEngine]
    split
    · split
      · exact .inr ⟨_, rfl⟩
      · exact .inl ⟨_, rfl⟩
    · split <;> exact .inr ⟨_, rfl⟩
  takes := by
    intro command name world after response answer
    simp only [keeper, Engine.answer, AnswerRule.ofEngine, name, if_true] at answer ⊢
    cases world <;> cases answer
    exact ⟨1, by cbv, nofun, by simp, by simp⟩
  takesNot := by
    intro command name world after error answer
    simp only [keeper, Engine.answer, AnswerRule.ofEngine, name, if_true] at answer ⊢
    cases world <;> cases answer
    exact ⟨rfl, rfl⟩
  gives := by
    intro id world held
    cases world with
    | false => cases held
    | true =>
        cases Set.mem_singleton_iff.1 held
        rw [keeper_answer_remove]
        exact ⟨rfl, .inr ⟨refusal, by simp, may, rfl⟩⟩
  knowsNot := by
    intro id world free
    rw [keeper_answer_remove]
    refine ⟨⟨_, rfl, ?_⟩, rfl, rfl⟩
    rw [if_neg]
    rintro ⟨rfl, rfl⟩
    exact free (Set.mem_singleton 1)
  tells id world := by
    have name : "breakpoint_get" ≠ "breakpoint_set" := by decide
    simp only [keeper, answer, AnswerRule.ofEngine]
    rw [if_neg (show (queryCommand id).name ≠ "breakpoint_set" from name)]
    split
    · next found => rw [found.1]; exact ⟨rfl, rfl⟩
    · exact ⟨rfl, rfl⟩

/-- It refuses, and says that it is busy. -/
def busy : Engine Bool := keeper { command := "breakpoint_remove", code := 200, text := "busy" }

/-- It refuses, and says that it does not know the breakpoint. -/
def denier : Engine Bool :=
  keeper { command := "breakpoint_remove", code := EngineError.noSuchBreakpoint, text := "unknown" }

end Engine

namespace BreakpointTable

/-- A script of which there is no file. -/
def missingScript : ScriptContext :=
  { host := { files := { entries := [], workingPlace := [] }, environment := { bindings := [] } }
    includes := { version := .v2, scriptPath := "main.ahk", runtimePath := none
                  workingDirectory := "/", userLibrary := none }
    program := "main.ahk" }

/-- A breakpoint is set on exceptions and then removed. -/
def setAndRemove : List (ScriptContext × Call) :=
  [(missingScript, .set (.plain .exception)), (missingScript, .removeById 1)]

/-- The table with one breakpoint that the engine has. -/
def oneHeld : BreakpointTable :=
  { breakpoints := [{ draft missingScript (.plain .exception) 1 with engineId := some 1 }]
    nextId := 2 }

/-- A breakpoint that the engine refuses to give back stays in the table. -/
theorem agrees_of_serve_busy :
    ((serve setAndRemove).run.run .empty).run Engine.busy.rule false =
        (some (.ok (), oneHeld), true) ∧ Agrees Engine.busy oneHeld true := by
  have run : ((serve setAndRemove).run.run .empty).run Engine.busy.rule false =
      (some (.ok (), oneHeld), true) := by cbv
  exact ⟨run, (agrees_of_serve (Engine.keeper_lawful (by decide)) rfl setAndRemove).of_run run⟩

/-- A breakpoint of which the engine says that it does not know it is forgotten, also if the engine
holds it all the same. -/
theorem not_agrees_of_denial :
    Engine.denier.Lawful (fun _ => True) ∧ Engine.denier.held false = ∅ ∧
      (serve setAndRemove).Ensures Engine.denier.rule .empty false fun _ table full =>
        ¬Agrees Engine.denier table full := by
  refine ⟨Engine.keeper_lawful trivial, rfl, .ok (), { breakpoints := [], nextId := 2 }, true,
    by cbv, ?_⟩
  intro agrees
  have held : 1 ∈ engineIds { breakpoints := [], nextId := 2 } :=
    (agrees.mem_engineIds 1).2 (Set.mem_singleton 1)
  cases held

end BreakpointTable
end DebugBridge
