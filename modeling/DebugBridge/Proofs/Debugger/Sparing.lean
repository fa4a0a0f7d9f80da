import DebugBridge.Proofs.Debugger.Replacement
import DebugBridge.Proofs.Debugger.Resumption
import DebugBridge.Proofs.Debugger.Seeding
import DebugBridge.Proofs.Text.Blank

/-!
# What a replacement leaves alone

The breakpoints of a group, those on lines of a file or those on functions, are replaced by taking
them back from the engine one by one and setting others.  Each of these steps spares what is not in
the group, and forgets no breakpoint that the engine may still have, so they do so together however
far they get.
-/

namespace DebugBridge

variable {σ α : Type} {rule : AnswerRule σ}

/-- The engine tells that it does not have a breakpoint any longer. -/
inductive Exchange.TellsGone (engineId : Nat) : Exchange → Prop
  /-- It has taken it back. -/
  | dropped (response : Response) :
      TellsGone engineId ⟨.submit (Breakpoint.removeCommand engineId) none, .ok response⟩
  /-- It knows of none. -/
  | missing {error : EngineError} (unknown : error.code = EngineError.noSuchBreakpoint) :
      TellsGone engineId
        ⟨.submit (Breakpoint.removeCommand engineId) none, .error (.engine error)⟩

theorem heard_injective : Function.Injective heard := by
  rintro (error | response) (other | another) same
  · cases error <;> cases other <;> cases same <;> rfl
  · cases error <;> cases same
  · cases other <;> cases same
  · cases same
    rfl

/-- What is answered to a command is one exchange. -/
theorem exchanges_of_answered {command : Command} {world last : σ × List Exchange}
    {result : Except DebugError (Except EngineError Response)}
    (answered : Answered rule.recorded command world result last) :
    ∃ answer, heard answer = result ∧ last.2 = world.2 ++ [⟨.submit command none, answer⟩] := by
  have exchanged {answer : Except SessionError Response}
      (told : rule.recorded (.submit command none) world = (answer, last)) :
      last.2 = world.2 ++ [⟨.submit command none, answer⟩] := by
    obtain ⟨rfl, rfl⟩ := Prod.mk.inj told
    rfl
  cases answered with
  | done answer => exact ⟨_, rfl, exchanged answer⟩
  | refused answer => exact ⟨_, rfl, exchanged answer⟩
  | @lost error _ other answer =>
      refine ⟨_, ?_, exchanged answer⟩
      cases error with
      | engine refusal => exact absurd rfl (other refusal)
      | _ => rfl

namespace BreakpointTable

open Operation Breakpoint

/-- What becomes of a table spares all breakpoints that are not in a group, and one of the group is
gone only if the engine never had it or has told that it does not have it any longer. -/
structure Spares (group : Breakpoint → Bool) (table later : BreakpointTable)
    (exchanges : List Exchange) : Prop where
  others : (later.breakpoints.filter fun breakpoint => !group breakpoint) =
    table.breakpoints.filter fun breakpoint => !group breakpoint
  gone : ∀ breakpoint ∈ table.breakpoints, breakpoint ∉ later.breakpoints →
    ∀ engineId ∈ breakpoint.engineId, ∃ exchange ∈ exchanges, exchange.TellsGone engineId

variable {group : Breakpoint → Bool} {table later : BreakpointTable} {exchanges : List Exchange}

theorem Spares.refl (group : Breakpoint → Bool) (table : BreakpointTable)
    (exchanges : List Exchange) : Spares group table table exchanges :=
  ⟨rfl, fun _ member absent => absurd member absent⟩

/-- What has been told stays so. -/
theorem Spares.extend (spares : Spares group table later exchanges) (more : List Exchange) :
    Spares group table later (exchanges ++ more) where
  others := spares.others
  gone breakpoint member absent engineId set := by
    obtain ⟨exchange, told, tells⟩ := spares.gone breakpoint member absent engineId set
    exact ⟨exchange, List.mem_append_left more told, tells⟩

/-- An id that is used up changes nothing. -/
theorem Spares.skip (spares : Spares group table later exchanges) (next : Nat) :
    Spares group table { later with nextId := next } exchanges :=
  ⟨spares.others, spares.gone⟩

/-- Another breakpoint of the group is recorded. -/
theorem Spares.add (spares : Spares group table later exchanges) {breakpoint : Breakpoint}
    (grouped : group breakpoint = true) :
    Spares group table (BreakpointTable.add later breakpoint) exchanges where
  others := by
    rw [BreakpointTable.add, List.filter_append, spares.others]
    simp [grouped]
  gone other member absent :=
    spares.gone other member fun recorded => absent (List.mem_append_left _ recorded)

/-- A breakpoint of the group is forgotten that the engine does not have. -/
theorem Spares.without (spares : Spares group table later exchanges) (numbered : Numbered later)
    {id : Nat} {breakpoint : Breakpoint} (known : later.get? id = some breakpoint)
    (grouped : group breakpoint = true)
    (told : ∀ engineId ∈ breakpoint.engineId, ∃ exchange ∈ exchanges, exchange.TellsGone engineId) :
    Spares group table (later.without id) exchanges := by
  obtain ⟨before, after, recorded, left⟩ := numbered.breakpoints_without known
  constructor
  · rw [left, ← spares.others, recorded]
    simp [grouped]
  · intro other member absent
    by_cases still : other ∈ later.breakpoints
    · have same : other = breakpoint := by
        rw [recorded] at still
        rw [left] at absent
        exact (List.mem_cons.1 (List.perm_middle.mem_iff.1 still)).resolve_right absent
      exact same ▸ told
    · exact spares.gone other member still

/-- A breakpoint of the group is forgotten once the engine tells that it does not have it. -/
theorem Spares.forget (spares : Spares group table later exchanges) (numbered : Numbered later)
    {id engineId : Nat} {breakpoint : Breakpoint} (known : later.get? id = some breakpoint)
    (grouped : group breakpoint = true) (set : breakpoint.engineId = some engineId)
    {exchange : Exchange} (tells : exchange.TellsGone engineId) :
    Spares group table (later.without id) (exchanges ++ [exchange]) := by
  refine (spares.extend [exchange]).without numbered known grouped fun other same => ?_
  cases set.symm.trans same
  exact ⟨exchange, List.mem_append_right _ (List.mem_singleton_self _), tells⟩

section Steps

variable {wants : BreakpointRequest → Bool} {before after : BreakpointTable × (σ × List Exchange)}

/-- The breakpoints of a group may be made and removed. -/
def Remit.of (wants : BreakpointRequest → Bool) : Remit where
  makes request := wants request = true
  removes breakpoint := wants breakpoint.request = true

theorem exchanges_of_offered {breakpoint : Breakpoint} {result : Except DebugError Breakpoint}
    {world last : σ × List Exchange}
    (offered : Offered rule.recorded breakpoint world result last) :
    ∃ more, last.2 = world.2 ++ more := by
  cases offered with
  | unplaced | unsaid => exact ⟨[], (List.append_nil _).symm⟩
  | refused answered | unnumbered answered | lost answered =>
      obtain ⟨_, _, told⟩ := exchanges_of_answered answered
      exact ⟨_, told⟩
  | taken answered _ asked | lostLater answered _ asked =>
      obtain ⟨_, _, told⟩ := exchanges_of_answered answered
      obtain ⟨_, _, toldLater⟩ := exchanges_of_answered asked
      rw [toldLater, told, List.append_assoc]
      exact ⟨_, rfl⟩

/-- What a step does to a group spares all others. -/
theorem Spares.step (step : Step rule.recorded (.of wants) before after)
    (numbered : Numbered before.1)
    (spares : Spares (wants ·.request) table before.1 before.2.2) :
    Spares (wants ·.request) table after.1 after.2.2 := by
  cases step with
  | create makes _ created =>
      cases created with
      | failed offered =>
          obtain ⟨more, told⟩ := exchanges_of_offered offered
          exact told ▸ (spares.extend more).skip _
      | made offered =>
          obtain ⟨more, told⟩ := exchanges_of_offered offered
          have wanted := (request_of_offered offered).trans (request_draft _ _)
          exact told ▸ ((spares.extend more).skip _).add (wanted.symm ▸ makes)
  | remove removes removed =>
      cases removed with
      | absent => exact spares
      | forgotten known unset =>
          refine spares.without numbered known (removes _ known) ?_
          simp [unset]
      | @dropped breakpoint _ response _ known set answered =>
          obtain ⟨answer, same, told⟩ := exchanges_of_answered answered
          obtain rfl : answer = .ok response := heard_injective same
          exact told ▸ spares.forget numbered known (removes _ known) set (.dropped response)
      | @gone breakpoint _ error _ known set answered unknown =>
          obtain ⟨answer, same, told⟩ := exchanges_of_answered answered
          obtain rfl : answer = .error (.engine error) := heard_injective same
          exact told ▸ spares.forget numbered known (removes _ known) set (.missing unknown)
      | refused _ _ answered | lost _ _ answered =>
          obtain ⟨answer, _, told⟩ := exchanges_of_answered answered
          exact told ▸ spares.extend _

/-- However far a replacement gets, it spares all that is not in the group. -/
theorem replace_spares (context : ScriptContext) (numbered : Numbered table)
    {p : BreakpointKind → Bool} (told : ∀ breakpoint : Breakpoint, wants breakpoint.request = p breakpoint.kind)
    {wanted : List BreakpointRequest} (inGroup : ∀ request ∈ wanted, wants request = true)
    (world : σ) :
    (replace context p wanted).Ensures rule.recorded table (world, exchanges)
      fun _ later last => Spares (p ·.kind) table later last.2 := by
  rw [show (fun breakpoint : Breakpoint => p breakpoint.kind) = (wants ·.request) from
    funext fun breakpoint => (told breakpoint).symm]
  have walks : (replace context p wanted).Ensures rule.recorded table (world, exchanges)
      fun _ later last => Steps rule.recorded (.of wants) (table, (world, exchanges)) (later, last) := by
    refine (ensures_bind _ _).2 ((ensures_bind _ _).2 (ensures_get.2 ?_))
    have removes : ∀ breakpoint ∈ table.breakpoints, breakpoint.id ∈
        (table.breakpoints.filter fun other => p other.kind).map Breakpoint.id →
          (Remit.of wants).removes breakpoint := fun breakpoint member known =>
      (told breakpoint).trans ((numbered.mem_ids_iff p member).1 known)
    refine (steps_removeAll _ removes).mono ?_
    rintro (error | removed) between middle steps
    · exact steps
    · exact (walks_setAll context inGroup between middle).mono fun _ _ _ more => steps.trans more
  refine walks.mono fun _ later last steps => ?_
  refine (keeps_of_steps steps (fun later last => Numbered later ∧
    Spares (wants ·.request) table later last.2) ⟨numbered, .refl _ _ _⟩ fun step holds => ?_).2
  exact ⟨holds.1.move (step.move _ _), holds.2.step step holds.1⟩

/-- A replacement that succeeds leaves just what is wanted in the group, and however far one gets,
it spares all others. -/
theorem replace_spec (context : ScriptContext) (numbered : Numbered table)
    {p : BreakpointKind → Bool} (told : ∀ breakpoint : Breakpoint, wants breakpoint.request = p breakpoint.kind)
    {wanted : List BreakpointRequest} (inGroup : ∀ request ∈ wanted, wants request = true)
    (ordinary : ∀ request ∈ wanted, request.target ≠ .exception) (world : σ) :
    (replace context p wanted).Ensures rule.recorded table (world, exchanges)
      fun result later last => Spares (p ·.kind) table later last.2 ∧
        ∀ set, result = .ok set → set.map Breakpoint.request = wanted ∧
          (later.breakpoints.filter fun breakpoint => p breakpoint.kind) = set := by
  refine ((replace_spares context numbered told inGroup world).and
    (replace_breakpoints numbered p wanted ordinary)).mono ?_
  rintro (error | set) later last ⟨spares, recorded⟩
  · exact ⟨spares, nofun⟩
  refine ⟨spares, ?_⟩
  rintro _ ⟨⟩
  obtain ⟨left, rfl⟩ := recorded
  refine ⟨rfl, ?_⟩
  have grouped : ∀ breakpoint ∈ set, p breakpoint.kind = true := fun breakpoint member =>
    (told breakpoint).symm.trans (inGroup _ (List.mem_map_of_mem member))
  rw [left, List.filter_append, List.filter_filter, List.filter_eq_self.2 grouped]
  simp

end Steps

end BreakpointTable

namespace BreakpointRequest

/-- Whether a breakpoint on a function is wanted. -/
def isFunction (request : BreakpointRequest) : Bool :=
  match request.target with
  | .function _ _ => true
  | _ => false

theorem isFunction_request (breakpoint : Breakpoint) :
    breakpoint.request.isFunction = breakpoint.kind.isFunction := by
  rw [Breakpoint.request]
  cases breakpoint.kind <;> rfl

theorem target_ne_exception_of_isIn {request : BreakpointRequest} {file : String}
    (inFile : request.isIn file = true) : request.target ≠ .exception := by
  intro exception
  rw [isIn, exception] at inFile
  cases inFile

end BreakpointRequest

namespace Debugger

open Operation BreakpointTable

variable {debugger : Debugger} {world : σ}

theorem target_namedRequest (wanted : FunctionBreakpoint) :
    ∃ name onReturn, (namedRequest wanted).target = .function name onReturn ∧
      (onReturn = true ↔ "()".toList <:+ Text.trim wanted.name.toList) := by
  obtain ⟨name, condition, hitCondition⟩ := wanted
  have kept (request : BreakpointRequest) :
      ((request.withCondition condition).withHitCondition hitCondition).target =
        request.target := by
    cases condition <;> cases hitCondition <;> rfl
  simp only [namedRequest, kept, ← Text.isSome_beforeEnd]
  cases Text.beforeEnd "()".toList (Text.trim name.toList) with
  | none => exact ⟨_, _, rfl, Iff.rfl⟩
  | some before => exact ⟨_, _, rfl, Iff.rfl⟩

/-- A breakpoint is what a front end wants of a function. -/
structure Meets (wanted : FunctionBreakpoint) (breakpoint : Breakpoint) : Prop where
  request : breakpoint.request = namedRequest wanted
  /-- It is on the return exactly if the name, without the blanks around it, ends with a pair of
  parentheses. -/
  onReturn : (∃ target, breakpoint.kind = .return target) ↔
    "()".toList <:+ Text.trim wanted.name.toList

theorem meets_of_request {wanted : FunctionBreakpoint} {breakpoint : Breakpoint}
    (request : breakpoint.request = namedRequest wanted) : Meets wanted breakpoint := by
  refine ⟨request, ?_⟩
  obtain ⟨name, onReturn, target, means⟩ := target_namedRequest wanted
  rw [← request, Breakpoint.request] at target
  rw [← means]
  cases kind : breakpoint.kind with
  | «return» function =>
      rw [kind] at target
      cases target
      exact iff_of_true ⟨_, rfl⟩ rfl
  | function function =>
      rw [kind] at target
      cases target
      refine iff_of_false ?_ Bool.false_ne_true
      rintro ⟨_, same⟩
      cases same
  | line | log | exception =>
      rw [kind] at target
      cases target

/-- What is done to the breakpoints of a debugger is done to those of a connected one, and to no
others. -/
theorem ensures_whenConnected_onBreakpoints {operation : TableOperation α} (name : String)
    {post : Except DebugError α → BreakpointTable → σ → Prop}
    (refused : ∀ error world, post (.error error) debugger.table world)
    (done : ∀ world, operation.Ensures rule debugger.table world post) :
    (whenConnected name (Link.onBreakpoints operation)).Ensures rule debugger world
      fun result after last => post result after.table last := by
  refine (ensures_bind _ _).2 ((connectedState_ensures rfl name).mono ?_)
  rintro (error | state) after last ⟨-, rfl, -⟩
  · exact refused error last
  refine (ensures_bind _ _).2 (knownLink_ensures.mono ?_)
  rintro result debugger last ⟨rfl, rfl, rfl⟩
  cases linked : debugger.link with
  | none => exact refused _ last
  | some link =>
      refine (ensures_onLink link _).2 ((ensures_within _ _ operation).2 ?_)
      have same : debugger.table = link.breakpoints := by rw [table, linked]
      exact same ▸ done last

theorem replace_functions (context : ScriptContext) {table : BreakpointTable}
    (numbered : Numbered table) (wanted : List FunctionBreakpoint) (exchanges : List Exchange)
    (world : σ) :
    (replace context BreakpointKind.isFunction (wanted.map namedRequest)).Ensures rule.recorded table
      (world, exchanges) fun result later last =>
        Spares (·.kind.isFunction) table later last.2 ∧
          ∀ set, result = .ok set → List.Forall₂ Meets wanted set ∧
            (later.breakpoints.filter fun breakpoint => breakpoint.kind.isFunction) = set := by
  have functions : ∀ request ∈ wanted.map namedRequest,
      request.isFunction = true ∧ request.target ≠ .exception := by
    intro request member
    obtain ⟨one, -, rfl⟩ := List.mem_map.1 member
    obtain ⟨name, onReturn, target, -⟩ := target_namedRequest one
    rw [BreakpointRequest.isFunction, target]
    exact ⟨rfl, nofun⟩
  refine (replace_spec context numbered BreakpointRequest.isFunction_request
    (fun request member => (functions request member).1)
    (fun request member => (functions request member).2) world).mono ?_
  rintro result later last ⟨spares, done⟩
  refine ⟨spares, fun set ok => ?_⟩
  obtain ⟨same, left⟩ := done set ok
  refine ⟨?_, left⟩
  rw [← List.forall₂_eq_eq_eq, List.forall₂_map_left_iff, List.forall₂_map_right_iff] at same
  exact (same.imp fun _ _ => meets_of_request).flip

/-- Setting breakpoints replaces just what it names, whatever the engine answers.  Of breakpoints
with ids of their own, those on lines of a file are afterwards what is wanted, in order, if that
succeeds, and those on functions likewise; all others are as before in any case, and one that is
gone was unknown to the engine or has been confirmed as gone. -/
theorem replaced_exactly (rule : AnswerRule σ) (world : σ) :
    (∀ (context : ScriptContext) (table : BreakpointTable) (file : String)
        (requests : List BreakpointRequest), Numbered table →
        (∀ request ∈ requests, request.isIn file = true) →
      (BreakpointTable.setLines context file requests).Ensures rule.recorded table (world, [])
        fun result later last => Spares (·.kind.isIn file) table later last.2 ∧
          ∀ set, result = .ok set → set.map Breakpoint.request = requests ∧
            (later.breakpoints.filter fun breakpoint => breakpoint.kind.isIn file) = set) ∧
    ∀ (debugger : Debugger) (wanted : List FunctionBreakpoint), Numbered debugger.table →
      (setFunctionBreakpoints wanted).Ensures rule.recorded debugger (world, [])
        fun result after last => Spares (·.kind.isFunction) debugger.table after.table last.2 ∧
          ∀ reports, result = .ok reports → ∃ set, reports = set.map Breakpoint.report ∧
            List.Forall₂ Meets wanted set ∧
            (after.table.breakpoints.filter fun breakpoint => breakpoint.kind.isFunction) = set := by
  constructor
  · intro context table file requests numbered inFile
    exact @replace_spec σ rule table [] (·.isIn file) context numbered _
      (fun breakpoint => Breakpoint.isIn_request breakpoint file) _ inFile
      (fun request member => BreakpointRequest.target_ne_exception_of_isIn (inFile request member))
      world
  · intro debugger wanted numbered
    refine (ensures_bind _ _).2 (ensures_get.2 ((ensures_bind _ _).2 ?_))
    refine (ensures_whenConnected_onBreakpoints _
      (fun error last => ⟨Spares.refl _ _ last.2, nofun⟩)
      fun world => replace_functions _ numbered wanted world.2 world.1).mono ?_
    rintro (error | set) after last ⟨spares, done⟩
    · exact ⟨spares, nofun⟩
    · refine (ensures_pure _).2 ⟨spares, ?_⟩
      rintro _ ⟨⟩
      exact ⟨set, rfl, done set rfl⟩

/-- An engine that knows of no breakpoint, and sets none. -/
def unknowing : AnswerRule Unit := .ofEngine fun command world =>
  (.error (.engine { command := command.name, code := EngineError.noSuchBreakpoint, text := "no" }),
    world)

/-- A table of a breakpoint on a line, which the engine has, and of one on exceptions. -/
def stored : BreakpointTable where
  breakpoints :=
    [{ id := 1, engineId := some 7, enabled := true, temporary := false, condition := none
       hitCondition := none, message := none
       kind := .line { file := "main.ahk", line := 1, column := none, verified := true
                       requestedLine := 1 } },
     { id := 2, engineId := some 8, enabled := true, temporary := false, condition := none
       hitCondition := none, message := none, kind := .exception }]
  nextId := 3

theorem numbered_stored : Numbered stored := ⟨by decide, by decide⟩

/-- A debugger with breakpoints. -/
def storing (table : BreakpointTable) : Debugger :=
  connectedTo { greeted with breakpoints := table } []

/-- The breakpoint on the line is replaced by one in another spelling of the file, and one on the
return of a function is set. -/
theorem replaced_exactly_stored :
    ((BreakpointTable.setLines (storing stored).script "MAIN.ahk"
        [.line "MAIN.ahk" 2]).Ensures unknowing.recorded stored ((), []) fun result later last =>
      Spares (·.kind.isIn "MAIN.ahk") stored later last.2 ∧ ∃ set, result = .ok set ∧
        set.map Breakpoint.request = [.line "MAIN.ahk" 2] ∧
        (later.breakpoints.filter fun breakpoint => breakpoint.kind.isIn "MAIN.ahk") = set) ∧
    (setFunctionBreakpoints [⟨"Greet()", none, none⟩]).Ensures unknowing.recorded (storing stored)
      ((), []) fun result after last =>
        Spares (·.kind.isFunction) stored after.table last.2 ∧ ∃ reports set,
          result = .ok reports ∧ List.Forall₂ Meets [⟨"Greet()", none, none⟩] set ∧
          (after.table.breakpoints.filter fun breakpoint => breakpoint.kind.isFunction) = set := by
  constructor
  · have succeeds : (((BreakpointTable.setLines (storing stored).script "MAIN.ahk"
        [.line "MAIN.ahk" 2]).run.run stored).run unknowing.recorded ((), [])).1.map (·.1.isOk) =
          some true := by decide +kernel
    obtain ⟨result, later, last, run, spares, done⟩ :=
      (replaced_exactly unknowing ()).1 (storing stored).script stored "MAIN.ahk"
        [.line "MAIN.ahk" 2] numbered_stored (by decide +kernel)
    rw [run] at succeeds
    refine ⟨result, later, last, run, spares, ?_⟩
    cases result with
    | error error => cases succeeds
    | ok set => exact ⟨set, rfl, done set rfl⟩
  · have succeeds : (((setFunctionBreakpoints [⟨"Greet()", none, none⟩]).run.run
        (storing stored)).run unknowing.recorded ((), [])).1.map (·.1.isOk) = some true := by
      decide +kernel
    obtain ⟨result, after, last, run, spares, done⟩ :=
      (replaced_exactly unknowing ()).2 (storing stored) [⟨"Greet()", none, none⟩] numbered_stored
    rw [run] at succeeds
    refine ⟨result, after, last, run, spares, ?_⟩
    cases result with
    | error error => cases succeeds
    | ok reports =>
        obtain ⟨set, -, meets, left⟩ := done reports rfl
        exact ⟨reports, set, rfl, meets, left⟩

/-- Setting breakpoints on functions, with whether it succeeds and what the breakpoints on functions
are bound to afterwards. -/
def settingFunctions (wanted : List FunctionBreakpoint) :
    Option (Bool × List BreakpointKind) :=
  (((setFunctionBreakpoints wanted).run.run (storing .empty)).run unknowing ()).1.map fun ended =>
    (ended.1.isOk, ended.2.breakpoints.map Breakpoint.kind)

/-- A name that ends with a blank and not with a pair of parentheses may mean a return. -/
theorem settingFunctions_blank :
    settingFunctions [⟨"Greet() ", none, none⟩] =
        some (true, [.return { name := "Greet", location := none }]) ∧
      ¬"()".toList <:+ "Greet() ".toList :=
  ⟨by decide +kernel, by decide +kernel⟩

end Debugger
end DebugBridge
