import DebugBridge.Proofs.Debugger.Resumption

/-!
# The state that was reported last

All that is asked of a debugger, call by call, makes a story of what was exchanged and of how each
call ended.  As long as no call fails once the engine has reported a state in it, the session going
on, a connected debugger tells the state that the engine reported last.
-/

namespace DebugBridge

variable {σ : Type} {rule : AnswerRule σ}

/-- The same surroundings with a list of all that has been exchanged. -/
def Environs.recorded (env : Environs σ) : Environs (σ × List Exchange) where
  rule := env.rule.recorded
  session world := env.session world.1
  isClosed_eq world := env.isClosed_eq world.1
  answers request world := env.answers request world.1

namespace Debugger

open Operation

/-- One call: what was exchanged, and how it ended. -/
structure Chapter where
  /-- What was exchanged. -/
  exchanges : List Exchange
  /-- How it ended. -/
  result : Except DebugError Unit

/-- Whether the call failed, the session going on. -/
def Chapter.failed (chapter : Chapter) : Bool :=
  match chapter.result with
  | .error error => !error.isClosed
  | .ok _ => false

/-- The state that the engine reported last. -/
def told (chapters : List Chapter) : RunState := lastStatus (chapters.flatMap Chapter.exchanges)

/-- What happens to a debugger in its world from a start on, call by call. -/
inductive Story (env : Environs σ) (start : Debugger × σ) : List Chapter → Debugger × σ → Prop
  /-- Nothing has happened yet. -/
  | nil : Story env start [] start
  /-- A call is done. -/
  | call (call : Call) {chapters : List Chapter} {debugger after : Debugger} {world afterWorld : σ}
      {exchanges : List Exchange} {result : Except DebugError Unit}
      (story : Story env start chapters (debugger, world))
      (run : (call.operation.run.run debugger).run env.recorded.rule (world, []) =
        (some (result, after), (afterWorld, exchanges))) :
      Story env start (chapters ++ [⟨exchanges, result⟩]) (after, afterWorld)
  /-- Time passes. -/
  | passes {chapters : List Chapter} {debugger : Debugger} {world afterWorld : σ}
      (story : Story env start chapters (debugger, world)) (passes : env.Passes world afterWorld) :
      Story env start chapters (debugger, afterWorld)

/-! ## Calls that do not let the script go on -/

/-- The state that a debugger has of its script; it has not begun as long as there is no engine. -/
def stateOf : Phase → RunState
  | .connected state => state
  | _ => .starting

/-- The debugger is closed or has the state of its script that it had, and none was reported. -/
def unmoved (state : RunState) : Order (σ × List Exchange) where
  phase phase := phase = .closed ∨ stateOf phase = state
  table _ := True
  world last := statuses last.2 = []

theorem unmoved_lasts (state : RunState) : (unmoved state).Lasts rule.recorded where
  closed := .inl rfl
  empty := trivial
  ask other holds := (statuses_concat_of_not_resumes _ other).trans holds
  create _ _ _ := trivial
  remove _ _ := trivial

/-- A debugger that is not idle makes no connection. -/
theorem leaves_of_busy {call : Call} {debugger : Debugger} {world : σ}
    (connects : call.connects = true) (busy : debugger.phase ≠ .idle) :
    call.operation.Leaves rule debugger world fun _ after last =>
      after = debugger ∧ (last = world ∨ last = (rule .isClosed world).2) := by
  have refused (name : String) (next : Phase) (operation : DebuggerOperation Unit) :
      Operation.Leaves rule (do begin name next; operation) debugger world fun _ after last =>
        after = debugger ∧ (last = world ∨ last = (rule .isClosed world).2) := by
    refine Leaves.bind ((begin_ensures rfl busy name next).leaves.mono ?_)
    rintro _ after last ⟨rfl, rfl, where_⟩
    exact ⟨rfl, where_⟩
  cases call with
  | start =>
      refine Leaves.bind (ensures_get.2 ?_).leaves
      dsimp only
      split
      · exact refused _ _ _
      · exact refused _ _ _
  | launch | attach | attachStream => exact refused _ _ _
  | _ => cases connects

/-- What becomes of a debugger in a call, as far as its phase is concerned. -/
structure Follows (debugger after : Debugger) (result : Except DebugError Unit)
    (exchanges : List Exchange) : Prop where
  /-- Without a report it has the state that it had. -/
  silent (silent : statuses exchanges = []) :
    after.phase = .closed ∨ stateOf after.phase = stateOf debugger.phase
  /-- With a report it has that one, unless the call has failed. -/
  reported {state : RunState} (told : (statuses exchanges).getLast? = some state) :
    after.phase = .closed ∨ stateOf after.phase = state ∨
      Chapter.failed ⟨exchanges, result⟩ = true

theorem follows_of_unmoved {debugger after : Debugger} {world : σ} {exchanges : List Exchange}
    {result : Except DebugError Unit}
    (holds : (unmoved (stateOf debugger.phase)).OfDebugger after (world, exchanges)) :
    Follows debugger after result exchanges where
  silent _ := holds.1
  reported told := by
    rw [show statuses exchanges = [] from holds.2.2] at told
    cases told

/-- A call that does not let the script go on brings no report. -/
theorem leaves_of_not_continuation {call : Call} {debugger : Debugger} {world : σ}
    (quiet : ∀ config, call.continuation? config = none) :
    call.operation.Leaves rule.recorded debugger (world, []) fun _ after last =>
      (unmoved (stateOf debugger.phase)).OfDebugger after last := by
  have start : (unmoved (stateOf debugger.phase)).OfDebugger debugger (world, []) :=
    ⟨.inr rfl, trivial, rfl⟩
  have lasts : (unmoved (stateOf debugger.phase)).Lasts rule.recorded := unmoved_lasts _
  cases connects : call.connects with
  | false => exact keeps_of_not_connects lasts connects quiet debugger _ start
  | true =>
      by_cases idle : debugger.phase = .idle
      · rw [idle] at lasts start ⊢
        exact keeps_of_connects lasts (.inr rfl) (.inr rfl) (.inr rfl) connects debugger _ start
      · refine (leaves_of_busy connects idle).mono ?_
        rintro _ after last ⟨rfl, rfl | rfl⟩
        · exact start
        · exact ⟨start.1, trivial, rfl⟩

/-! ## Calls that do -/

theorem Proceeds.follows {debugger after : Debugger} {exchanges : List Exchange}
    {result : Except DebugError ExecutionStatus}
    (proceeds : Proceeds debugger result after exchanges) :
    Follows debugger after (result.map fun _ => ()) exchanges where
  silent silent := by
    cases result with
    | ok status =>
        have told := (proceeds.stopped rfl).2.1
        rw [silent] at told
        cases told
    | error error =>
        exact (proceeds.failed rfl).imp_right fun stays => congrArg stateOf stays.1
  reported {state} told := by
    cases result with
    | ok status =>
        obtain ⟨phase, last, -⟩ := proceeds.stopped rfl
        cases last.symm.trans told
        exact .inr (.inl (congrArg stateOf phase))
    | error error =>
        refine (proceeds.failed rfl).imp_right fun ⟨_, fault⟩ => .inr ?_
        rcases fault with silent | other
        · rw [silent] at told
          cases told
        · exact congrArg not other

theorem leaves_silent {operation : DebuggerOperation ExecutionStatus} {debugger : Debugger}
    {world : σ × List Exchange}
    {post : Except DebugError Unit → Debugger → σ × List Exchange → Prop}
    (leaves : operation.Leaves rule.recorded debugger world fun result after last =>
      post (result.map fun _ => ()) after last) :
    (Call.silent operation).Leaves rule.recorded debugger world post := by
  refine Leaves.bind (leaves.mono ?_)
  rintro (error | status) after last holds
  · exact holds
  · exact ((ensures_pure _).2 holds).leaves

/-- What becomes of the phase in any call. -/
theorem follows_of_call (call : Call) (debugger : Debugger) (world : σ) :
    call.operation.Leaves rule.recorded debugger (world, []) fun result after last =>
      Follows debugger after result last.2 := by
  have others (quiet : ∀ config, call.continuation? config = none) :
      call.operation.Leaves rule.recorded debugger (world, []) fun result after last =>
        Follows debugger after result last.2 :=
    (leaves_of_not_continuation quiet).mono fun _ _ _ => follows_of_unmoved
  cases call with
  | configurationDone =>
      exact leaves_silent (configurationDone_proceeds.mono fun _ _ _ => Proceeds.follows)
  | resume continuation =>
      exact leaves_silent ((execute_proceeds continuation).mono fun _ _ _ => Proceeds.follows)
  | _ => exact others fun _ => rfl

/-- What lasts of the breakpoints in any phase and in any surroundings, no call breaks. -/
theorem leaves_of_lasts {order : Order (σ × List Exchange)} (lasts : order.Lasts rule.recorded)
    (anyPhase : ∀ phase, order.phase phase) (anyWorld : ∀ world, order.world world) (call : Call)
    {debugger : Debugger} {world : σ} (holds : order.table debugger.table) :
    call.operation.Leaves rule.recorded debugger (world, []) fun _ after _ =>
      order.table after.table := by
  have start : order.OfDebugger debugger (world, ([] : List Exchange)) :=
    ⟨anyPhase _, holds, anyWorld _⟩
  have kept (keeps : Keeps rule.recorded order.OfDebugger call.operation) :
      call.operation.Leaves rule.recorded debugger (world, []) fun _ after _ =>
        order.table after.table :=
    (keeps debugger (world, []) start).mono fun _ _ _ holds => holds.2.1
  have same {operation : DebuggerOperation ExecutionStatus} (goesOn : GoesOn operation) :
      (Call.silent operation).Leaves rule.recorded debugger (world, []) fun _ after _ =>
        order.table after.table :=
    leaves_silent ((goesOn.proceeds debugger world).mono fun _ _ _ proceeds =>
      proceeds.table ▸ holds)
  cases call with
  | configurationDone => exact same .configurationDone
  | resume continuation => exact same (.execute continuation)
  | start | launch | attach | attachStream =>
      exact kept (keeps_of_connects lasts (anyPhase _) (anyPhase _) (anyPhase _) rfl)
  | _ => exact kept (keeps_of_not_connects lasts rfl fun _ => rfl)

/-! ## Stories -/

theorem told_concat (chapters : List Chapter) (chapter : Chapter) :
    told (chapters ++ [chapter]) =
      lastStatus (chapters.flatMap Chapter.exchanges ++ chapter.exchanges) := by
  simp [told]

/-- Nothing is done with a debugger that is closed. -/
theorem phase_of_advance {debugger after : Debugger} (advance : Advance debugger after)
    (closed : debugger.phase = .closed) : after.phase = .closed := by
  cases advance with
  | kept phase => exact phase.trans closed
  | first idle => cases idle.symm.trans closed
  | last closed => exact closed
  | moved phase => cases phase.symm.trans closed

/-- A debugger that is not closed has the state that was reported last. -/
theorem Story.stateOf_eq {env : Environs σ} {start now : Debugger × σ} {chapters : List Chapter}
    (story : Story env start chapters now) (idle : start.1.phase = .idle)
    (timely : ∀ chapter ∈ chapters, chapter.failed = true → statuses chapter.exchanges = []) :
    now.1.phase = .closed ∨ stateOf now.1.phase = told chapters := by
  induction story with
  | nil => exact .inr (by rw [idle]; rfl)
  | passes story _ ih => exact ih timely
  | @call call chapters debugger after world afterWorld exchanges result story run ih =>
      rw [List.forall_mem_append, List.forall_mem_singleton] at timely
      have follows : Follows debugger after result exchanges :=
        follows_of_call call debugger world _ _ _ run
      rw [told_concat]
      cases reports : (statuses exchanges).getLast? with
      | none =>
          have silent := List.getLast?_eq_none_iff.1 reports
          rw [lastStatus_append_of_nil silent]
          have advances : Advances env.recorded call.operation := advances_operation call
          rcases ih timely.1 with closed | same
          · exact .inl (phase_of_advance (advances _ _ _ _ _ run) closed)
          · exact (follows.silent silent).imp_right fun kept => kept.trans same
      | some state =>
          rw [lastStatus_append_of_some reports]
          rcases follows.reported reports with closed | same | failed
          · exact .inl closed
          · exact .inr same
          · rw [timely.2 failed] at reports
            cases reports

/-- What lasts of the breakpoints lasts in every story. -/
theorem Story.table_of_lasts {env : Environs σ} {start now : Debugger × σ} {chapters : List Chapter}
    {order : Order (σ × List Exchange)} (story : Story env start chapters now)
    (lasts : order.Lasts env.recorded.rule) (anyPhase : ∀ phase, order.phase phase)
    (anyWorld : ∀ world, order.world world) (holds : order.table start.1.table) :
    order.table now.1.table := by
  induction story with
  | nil => exact holds
  | passes story _ ih => exact ih
  | call call story run ih => exact leaves_of_lasts lasts anyPhase anyWorld call ih _ _ _ run

/-! ## Told by running -/

/-- The calls are made one after the other. -/
def recount (env : Environs σ) :
    List Call → List Chapter → Debugger × σ → Option (List Chapter × Debugger × σ)
  | [], chapters, now => some (chapters, now)
  | call :: rest, chapters, (debugger, world) =>
    match (call.operation.run.run debugger).run env.recorded.rule (world, []) with
    | (some (result, after), (afterWorld, exchanges)) =>
      recount env rest (chapters ++ [⟨exchanges, result⟩]) (after, afterWorld)
    | (none, _) => none

theorem Story.of_recount {env : Environs σ} {start now last : Debugger × σ}
    {calls : List Call} {chapters all : List Chapter} (story : Story env start chapters now)
    (run : recount env calls chapters now = some (all, last)) : Story env start all last := by
  induction calls generalizing chapters now with
  | nil =>
      cases run
      exact story
  | cons call rest ih =>
      obtain ⟨debugger, world⟩ := now
      simp only [recount] at run
      split at run
      · next made => exact ih (.call call story made) run
      · cases run

/-- Surroundings in which an engine has greeted and answers commands, always in the same way. -/
def attended (answer : Command → Except SessionError Response) : Environs Unit where
  rule
    | .submit command _, world => (answer command, world)
    | .awaitInit _, world => (.init greeted.init, world)
    | request, world => (request.idleAnswer, world)
  session _ := .initial
  isClosed_eq _ := rfl
  answers _ _ := ⟨[], rfl⟩

/-- An answer with some attributes and elements in it. -/
def answering (attributes : List (String × String)) (children : List Element) :
    Except SessionError Response :=
  .ok { command := "", id := 1, error := none
        element := { name := "response", attributes, children, text := "" } }

/-- An engine whose script stops in one place whenever it goes on, where an expression has a value
that cannot be decoded. -/
def halting (command : Command) : Except SessionError Response :=
  if command.name = "run" then answering [("status", "break"), ("reason", "ok")] []
  else if command.name = "stack_get" then
    answering [] [{ name := "stack", children := [], text := ""
                    attributes := [("filename", "file:///main.ahk"), ("lineno", "3")] }]
  else if command.name = "property_get" then
    answering [] [{ name := "property", attributes := [("encoding", "base64")], children := []
                    text := "*" }]
  else answering [("id", "1")] []

/-- A debugger with a breakpoint in that place, or a logpoint. -/
def watching (logMessage : Option String) : Debugger :=
  .new { DebugConfig.forProgram "main.ahk" with
    breakpoints := [{ plainEntry "/main.ahk" 3 with logMessage }] } fresh.host

/-- What is told of a debugger that is connected and lets the script go on: its phase, the state that
the engine reported last, and whether no call failed after a report. -/
def goingOn (logMessage : Option String) : Option (Phase × RunState × Bool) :=
  (recount (attended halting) [.attachStream, .resume .continue] []
    (watching logMessage, ())).map fun entry =>
      (reportedIn (attended halting) entry.2, told entry.1,
        entry.1.all fun chapter => !chapter.failed || (statuses chapter.exchanges).isEmpty)

/-- What comes of making the calls is a story. -/
theorem exists_story {logMessage : Option String} {view : Phase × RunState × Bool}
    (run : goingOn logMessage = some view) :
    ∃ chapters debugger,
      Story (attended halting) (watching logMessage, ()) chapters (debugger, ()) ∧
        reportedIn (attended halting) (debugger, ()) = view.1 ∧ told chapters = view.2.1 ∧
          (chapters.all fun chapter =>
            !chapter.failed || (statuses chapter.exchanges).isEmpty) = view.2.2 := by
  obtain ⟨⟨chapters, debugger, ⟨⟩⟩, made, rfl⟩ := Option.map_eq_some_iff.1 run
  exact ⟨chapters, debugger, .of_recount .nil made, rfl, rfl, rfl⟩

/-- Whatever is asked of a debugger, and whatever its surroundings answer: if no call fails once the
engine has reported a state in it, the session going on, the state that a connected debugger tells
is the one that the engine reported last. -/
theorem state_eq_told (env : Environs σ) {config : DebugConfig} {host : Host} {world now : σ}
    {chapters : List Chapter} {debugger : Debugger}
    (story : Story env (.new config host, world) chapters (debugger, now))
    (timely : ∀ chapter ∈ chapters, chapter.failed = true → statuses chapter.exchanges = []) :
    currentPhase.Ensures env.rule debugger now fun result after _ =>
      after = debugger ∧ ∀ state, result = .ok (.connected state) → state = told chapters := by
  refine (currentPhase_ensures (env.isClosed_eq now)).mono ?_
  rintro _ after _ ⟨rfl, rfl, _⟩
  refine ⟨rfl, fun state reported => ?_⟩
  have phase := phase_of_reported (Except.ok.inj reported)
  rcases story.stateOf_eq rfl timely with closed | same
  · cases phase.symm.trans closed
  · rw [← same, phase]
    rfl

/-- The script stops at a breakpoint, and the state that is told is the one that was reported. -/
theorem state_eq_told_break :
    ∃ chapters debugger,
      Story (attended halting) (watching none, ()) chapters (debugger, ()) ∧
        (∀ chapter ∈ chapters, chapter.failed = true → statuses chapter.exchanges = []) ∧
        told chapters = .break ∧
        currentPhase.Ensures (attended halting).rule debugger () fun result after _ =>
          after = debugger ∧ ∀ state, result = .ok (.connected state) → state = told chapters := by
  obtain ⟨chapters, debugger, story, -, last, all⟩ :=
    exists_story (show goingOn none = some (.connected .break, .break, true) by decide +kernel)
  have timely : ∀ chapter ∈ chapters,
      chapter.failed = true → statuses chapter.exchanges = [] := by
    intro chapter member failed
    simpa [failed] using List.all_eq_true.1 all chapter member
  exact ⟨chapters, debugger, story, timely, last, state_eq_told _ story timely⟩

/-- Where the value that a logpoint is to print cannot be decoded, the debugger tells the state from
before, though the engine has reported another one. -/
theorem told_ne_state_undecoded :
    ∃ chapters debugger,
      Story (attended halting) (watching (some "x is \x7bx\x7d"), ()) chapters (debugger, ()) ∧
        reportedIn (attended halting) (debugger, ()) = .connected .starting ∧
        told chapters = .break := by
  obtain ⟨chapters, debugger, story, phase, last, -⟩ :=
    exists_story (show goingOn (some "x is \x7bx\x7d") =
      some (.connected .starting, .break, false) by decide +kernel)
  exact ⟨chapters, debugger, story, phase, last⟩

end Debugger
end DebugBridge
