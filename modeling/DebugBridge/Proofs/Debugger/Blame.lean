import DebugBridge.Proofs.Debugger.Story

/-!
# What makes the script stop

The breakpoints that are said to have made the script stop are found by their place alone.  Each of
them is recorded, enabled, and bound to the place that the engine reported, and one that the engine
does not have tells why.  So where the engine has every breakpoint at that place of which something
is told, it has all those that are blamed, and all logpoints whose messages are printed.
-/

namespace DebugBridge

variable {σ : Type} {rule : AnswerRule σ}

namespace BreakpointTable

open Breakpoint

variable {context : ScriptContext} {table table' : BreakpointTable} {world after : σ}

/-- Every breakpoint is enabled, and one that is bound to a line although the engine does not have
it tells why. -/
structure Explained (table : BreakpointTable) : Prop where
  enabled : ∀ breakpoint ∈ table.breakpoints, breakpoint.enabled = true
  explained : ∀ breakpoint ∈ table.breakpoints, breakpoint.location?.isSome = true →
    breakpoint.engineId = none → breakpoint.message.isSome = true

theorem explained_empty : Explained .empty := by
  constructor
  · intro breakpoint member
    cases member
  · intro breakpoint member
    cases member

/-- What cannot be given to the engine is not bound to a line. -/
theorem location?_of_not_installable {kind : BreakpointKind} (nowhere : kind.isInstallable = false) :
    kind.location? = none := by
  cases kind with
  | line target | log target message | exception => cases nowhere
  | function target | «return» target =>
      simpa [BreakpointKind.isInstallable, BreakpointKind.functionTarget?,
        BreakpointKind.location?] using nowhere

theorem enabled_of_offered {breakpoint result : Breakpoint}
    (offered : Offered rule breakpoint world (.ok result) after) :
    result.enabled = breakpoint.enabled := by
  cases offered <;> rfl

/-- A breakpoint that was offered to the engine and not taken tells why, if there is a place for
it. -/
theorem message_of_offered {breakpoint result : Breakpoint}
    (offered : Offered rule breakpoint world (.ok result) after)
    (bound : result.location?.isSome = true) (without : result.engineId = none) :
    result.message.isSome = true := by
  cases offered with
  | unplaced nowhere =>
      rw [location?, location?_of_not_installable nowhere] at bound
      cases bound
  | unsaid | refused | unnumbered => rfl
  | taken => cases without

theorem Explained.create {request : BreakpointRequest} {result : Except DebugError Breakpoint}
    (explained : Explained table) (enabled : request.enabled = true)
    (created : Created rule context request table world result table' after) :
    Explained table' := by
  cases created with
  | failed => exact ⟨explained.enabled, explained.explained⟩
  | made offered =>
      constructor
      · intro breakpoint member
        rcases List.mem_append.1 member with old | new
        · exact explained.enabled breakpoint old
        · rw [List.mem_singleton.1 new, enabled_of_offered offered]
          exact enabled
      · intro breakpoint member
        rcases List.mem_append.1 member with old | new
        · exact explained.explained breakpoint old
        · rw [List.mem_singleton.1 new]
          exact message_of_offered offered

theorem Explained.remove {id : Nat} {result : Except DebugError (List Breakpoint)}
    (explained : Explained table) (removed : Removed rule id table world result table' after) :
    Explained table' := by
  have fewer : Explained (table.without id) :=
    ⟨fun breakpoint member => explained.enabled breakpoint (List.mem_filter.1 member).1,
      fun breakpoint member => explained.explained breakpoint (List.mem_filter.1 member).1⟩
  cases removed with
  | absent | refused | lost => exact explained
  | forgotten | dropped | gone => exact fewer

/-- The order of tables in which all is explained. -/
def explainedOrder : Order σ where
  phase _ := True
  table := Explained
  world _ := True

theorem explainedOrder_lasts : explainedOrder.Lasts rule where
  closed := trivial
  empty := explained_empty
  ask _ _ := trivial
  create enabled created explained := explained.create enabled created
  remove removed explained := explained.remove removed

theorem mem_atPlace {breakpoint : Breakpoint} {place : Option (String × Nat)} :
    breakpoint ∈ table.atPlace place ↔ breakpoint ∈ table.breakpoints ∧
      ∃ file line, place = some (file, line) ∧ breakpoint.isAt file line = true := by
  cases place with
  | none => simp [atPlace]
  | some place =>
      obtain ⟨file, line⟩ := place
      simp only [atPlace, atLine, List.mem_filter, Option.some.injEq, Prod.mk.injEq]
      constructor
      · rintro ⟨member, bound⟩
        exact ⟨member, file, line, ⟨rfl, rfl⟩, bound⟩
      · rintro ⟨member, _, _, ⟨rfl, rfl⟩, bound⟩
        exact ⟨member, bound⟩

/-- At each place that was told the engine has every breakpoint of which something is told. -/
def Acknowledged (table : BreakpointTable) (exchanges : List Exchange) : Prop :=
  ∀ place ∈ exchanges.filterMap Exchange.place?, ∀ breakpoint ∈ table.atPlace place,
    breakpoint.message.isSome = true → breakpoint.engineId.isSome = true

/-- Then it has every breakpoint there. -/
theorem Acknowledged.engineId_isSome {exchanges : List Exchange} {breakpoint : Breakpoint}
    {place : Option (String × Nat)} (acknowledged : table.Acknowledged exchanges)
    (explained : Explained table) (told : place ∈ exchanges.filterMap Exchange.place?)
    (member : breakpoint ∈ table.atPlace place) : breakpoint.engineId.isSome = true := by
  by_contra without
  obtain ⟨recorded, file, line, -, bound⟩ := mem_atPlace.1 member
  have located : breakpoint.location?.isSome = true := by
    rw [isAt] at bound
    exact Option.isSome_of_any bound
  refine without (acknowledged place told breakpoint member ?_)
  exact explained.explained breakpoint recorded located (Option.not_isSome_iff_eq_none.1 without)

/-- There is a logpoint that the engine has at the place that was told last, and a text is printed
for its message if one is printed at all. -/
def LogsTaken (table : BreakpointTable) (before : List Exchange) (text? : Option String) : Prop :=
  ∃ breakpoint ∈ table.atPlace (lastPlace? before), breakpoint.engineId.isSome = true ∧
    ∃ message, breakpoint.kind.logMessage? = some message ∧ ∀ text ∈ text?, Prints message text

theorem Logs.taken {before rest : List Exchange} {text? : Option String}
    (logs : table.Logs before text?) (acknowledged : table.Acknowledged (before ++ rest))
    (explained : Explained table) : table.LogsTaken before text? := by
  obtain ⟨breakpoint, member, printed⟩ := logs
  refine ⟨breakpoint, member, ?_, printed⟩
  obtain ⟨-, file, line, last, -⟩ := mem_atPlace.1 member
  refine acknowledged.engineId_isSome explained ?_ member
  rw [last, List.filterMap_append]
  exact List.mem_append_left _ (lastPlace?_mem last)

end BreakpointTable

namespace Debugger

open Operation BreakpointTable

/-- In every story all is explained. -/
theorem Story.explained {env : Environs σ} {start now : Debugger × σ} {chapters : List Chapter}
    (story : Story env start chapters now) (explained : Explained start.1.table) :
    Explained now.1.table :=
  story.table_of_lasts explainedOrder_lasts (fun _ => trivial) (fun _ => trivial) explained

/-! ## Told by running -/

/-- Whether the engine has every breakpoint of which something is told at the places that were
told. -/
def acknowledged (table : BreakpointTable) (exchanges : List Exchange) : Bool :=
  (exchanges.filterMap Exchange.place?).all fun place =>
    (table.atPlace place).all fun breakpoint =>
      !breakpoint.message.isSome || breakpoint.engineId.isSome

theorem acknowledged_iff {table : BreakpointTable} {exchanges : List Exchange} :
    acknowledged table exchanges = true ↔ table.Acknowledged exchanges := by
  have implies : ∀ told held : Bool, (!told || held) = true ↔ (told = true → held = true) := by
    decide
  simp only [acknowledged, Acknowledged, List.all_eq_true, implies]

/-- The debugger with a breakpoint, connected to an engine that answers commands, lets the script go
on: which breakpoints are blamed, which ids the engine has given them, and whether it has all of
which something is told. -/
def letGo (answer : Command → Except SessionError Response) :
    Option (Option (List Nat) × List (Option Nat) × Bool) := do
  let (_, debugger, _) ← recount (attended answer) [.attachStream] [] (watching none, ())
  let (some (result, after), (_, exchanges)) :=
    ((execute .continue).run.run debugger).run (attended answer).recorded.rule ((), []) | none
  return (result.toOption.map ExecutionStatus.hitBreakpointIds,
    after.table.breakpoints.map Breakpoint.engineId, acknowledged after.table exchanges)

/-- What comes of it is what becomes of a debugger with a story. -/
theorem exists_run_of_letGo {answer : Command → Except SessionError Response}
    {view : Option (List Nat) × List (Option Nat) × Bool} (run : letGo answer = some view) :
    ∃ chapters debugger result after exchanges,
      Story (attended answer) (watching none, ()) chapters (debugger, ()) ∧
      ((execute .continue).run.run debugger).run (attended answer).recorded.rule ((), []) =
        (some (result, after), ((), exchanges)) ∧
      result.toOption.map ExecutionStatus.hitBreakpointIds = view.1 ∧
      after.table.breakpoints.map Breakpoint.engineId = view.2.1 ∧
      acknowledged after.table exchanges = view.2.2 := by
  obtain ⟨⟨chapters, debugger, ⟨⟩⟩, connected, made⟩ := Option.bind_eq_some_iff.1 run
  dsimp only at made
  split at made
  · next result after _ exchanges ended =>
      cases made
      exact ⟨chapters, debugger, result, after, _, .of_recount .nil connected, ended, rfl, rfl, rfl⟩
  · cases made

/-- Whatever was asked of a debugger, and whatever its surroundings answer: when it lets the script
go on, then as far as the engine has every breakpoint of which something is told at a place where
the script stops, each breakpoint that is blamed is recorded, makes the script stop, is held by the
engine, enabled, and bound to the place that is reported; and whenever a message is printed or the
script is made to go on once more, there is a logpoint that the engine has where it has stopped, the
one with that message. -/
theorem blames_taken (env : Environs σ) {config : DebugConfig} {host : Host} {world now : σ}
    {chapters : List Chapter} {debugger : Debugger}
    (story : Story env (.new config host, world) chapters (debugger, now))
    {operation : DebuggerOperation ExecutionStatus} (goesOn : GoesOn operation) :
    operation.Leaves env.recorded.rule debugger (now, []) fun result after last =>
      after.table.Acknowledged last.2 →
      (∀ status, result = .ok status → ∀ id ∈ status.hitBreakpointIds,
        ∃ breakpoint ∈ after.table.breakpoints, breakpoint.id = id ∧
          breakpoint.kind.logMessage? = none ∧ breakpoint.engineId.isSome = true ∧
          breakpoint.enabled = true ∧
          ∃ file line, status.location = some (file, line) ∧ breakpoint.isAt file line = true) ∧
      (∀ before exchange rest, last.2 = before ++ exchange :: rest →
        (∀ text, exchange.printed? = some text → after.table.LogsTaken before (some text)) ∧
        (exchange.request.resumes = true →
          (∃ earlier ∈ before, earlier.request.resumes = true) →
            after.table.LogsTaken before none)) := by
  refine (goesOn.proceeds debugger now).mono fun result after last proceeds acknowledged => ?_
  have explained : Explained after.table :=
    proceeds.table ▸ story.explained explained_empty
  have warrants : after.table.Warrants last.2 := proceeds.table ▸ proceeds.warrants
  constructor
  · rintro status rfl id member
    obtain ⟨-, -, ids, place⟩ := proceeds.stopped rfl
    rw [ids, ← proceeds.table] at member
    obtain ⟨breakpoint, blamed, rfl⟩ := List.mem_map.1 member
    obtain ⟨there, stops⟩ := List.mem_filter.1 blamed
    obtain ⟨recorded, file, line, located, bound⟩ := mem_atPlace.1 there
    refine ⟨breakpoint, recorded, rfl, Option.isNone_iff_eq_none.1 stops, ?_,
      explained.enabled breakpoint recorded, file, line, located, bound⟩
    refine acknowledged.engineId_isSome explained ?_ there
    rw [located] at place ⊢
    exact lastPlace?_mem (place rfl)
  · intro before exchange rest split
    refine ⟨fun text prints => ?_, fun resumes ⟨earlier, again, began⟩ => ?_⟩
    · exact (warrants.printed split prints).taken (split ▸ acknowledged) explained
    · exact (warrants.resumed split resumes again began).taken (split ▸ acknowledged) explained

/-- The engine has the breakpoint that is blamed. -/
theorem blames_taken_breakpoint :
    ∃ chapters debugger after status exchanges,
      Story (attended halting) (watching none, ()) chapters (debugger, ()) ∧
      ((execute .continue).run.run debugger).run (attended halting).recorded.rule ((), []) =
        (some (.ok status, after), ((), exchanges)) ∧
      after.table.Acknowledged exchanges ∧ status.hitBreakpointIds = [1] ∧
      ∃ breakpoint ∈ after.table.breakpoints, breakpoint.id = 1 ∧
        breakpoint.engineId.isSome = true := by
  obtain ⟨chapters, debugger, result, after, exchanges, story, run, ids, -, all⟩ :=
    exists_run_of_letGo (show letGo halting = some (some [1], [some 1], true) by decide +kernel)
  have acknowledged := acknowledged_iff.1 all
  cases result with
  | error error => cases ids
  | ok status =>
      have blamed : status.hitBreakpointIds = [1] := Option.some.inj ids
      obtain ⟨taken, -⟩ :=
        blames_taken (attended halting) story (.execute .continue) _ _ _ run acknowledged
      obtain ⟨breakpoint, recorded, same, -, held, -⟩ := taken status rfl 1 (by simp [blamed])
      exact ⟨chapters, debugger, after, status, exchanges, story, run, acknowledged, blamed,
        breakpoint, recorded, same, held⟩

/-- An engine that takes no breakpoints. -/
def declining (command : Command) : Except SessionError Response :=
  if command.name = "breakpoint_set" then
    .error (.engine { command := command.name, code := 200, text := "no room" })
  else halting command

/-- A breakpoint is blamed that the engine never had: it holds none at all. -/
theorem blames_declined :
    ∃ chapters debugger after status exchanges,
      Story (attended declining) (watching none, ()) chapters (debugger, ()) ∧
      ((execute .continue).run.run debugger).run (attended declining).recorded.rule ((), []) =
        (some (.ok status, after), ((), exchanges)) ∧
      status.hitBreakpointIds = [1] ∧
      ∀ breakpoint ∈ after.table.breakpoints, breakpoint.engineId = none := by
  obtain ⟨chapters, debugger, result, after, exchanges, story, run, ids, engineIds, -⟩ :=
    exists_run_of_letGo (show letGo declining = some (some [1], [none], false) by decide +kernel)
  cases result with
  | error error => cases ids
  | ok status =>
      refine ⟨chapters, debugger, after, status, exchanges, story, run, Option.some.inj ids, ?_⟩
      intro breakpoint member
      have known := List.mem_map_of_mem (f := Breakpoint.engineId) member
      rw [engineIds] at known
      exact List.mem_singleton.1 known

end Debugger
end DebugBridge
