import DebugBridge.Proofs.Debugger.Inspection
import DebugBridge.Proofs.Debugger.Setup
import DebugBridge.Proofs.Debugger.Story

/-!
# Numbers mean what they were given for

All calls of a debugger, in whatever order and however the engine answers, keep a ledger: it is
continued by the calls that look at a script that has stopped, it starts anew whenever the script
is to go on, and nothing else touches it.  A call that uses a number asks the engine for what the
ledger says of it, and fails without asking for anything if the ledger does not know it.
-/

namespace DebugBridge

variable {σ : Type} {rule : AnswerRule σ}

/-- The depth that a frame stands for, the innermost one if none is given. -/
def Ledger.AtDepth (ledger : Ledger) : Option Int → Nat → Prop
  | none, depth => depth = 0
  | some number, depth => HasNumber ledger.frames number depth

namespace Debugger

namespace Call

/-- Whether a call looks at a script that has stopped. -/
def inspects : Call → Bool
  | .stackTrace | .scopes _ | .variablesIn _ | .evaluate _ | .completions _ _ => true
  | _ => false

/-- What the debugger does, with what it gives back of an answer. -/
def replying : Call → DebuggerOperation Reply
  | .stackTrace => do return .frames (← Debugger.stackTrace)
  | .scopes frame => do return .scopes (← Debugger.scopes frame)
  | .variablesIn reference => do return .variables (← Debugger.variablesIn reference)
  | .evaluate request => do return .value (← Debugger.evaluate request)
  | .completions text frame => do
    let _ ← Debugger.completions text frame
    return .nothing
  | call => do
    call.operation
    return .nothing

/-- The number that a call uses. -/
def number? : Call → Option Int
  | .scopes frame => some frame
  | .variablesIn reference => some reference
  | .evaluate request => request.frameId.map Int64.toInt
  | .completions _ frame => frame
  | _ => none

/-- What a call asks the engine, according to what its number was given for. -/
inductive Refers (ledger : Ledger) : Call → Query → Prop
  | stack : Refers ledger .stackTrace .stack
  | frame {number : Int} {depth : Nat} (given : HasNumber ledger.frames number depth) :
      Refers ledger (.scopes number) (.contexts depth)
  | scope {number : Int} {scope : VariableScope} (given : HasNumber ledger.scopes number scope) :
      Refers ledger (.variablesIn number) (.variables scope)
  | expression {request : EvaluateRequest} {depth : Nat}
      (given : ledger.AtDepth (request.frameId.map Int64.toInt) depth) :
      Refers ledger (.evaluate request) (.expression depth (Text.trimmed request.expression))
  | names {text : String} {frame : Option Int} {depth : Nat} (given : ledger.AtDepth frame depth) :
      Refers ledger (.completions text frame) (.names depth)

end Call

/-! ## Books -/

/-- What becomes of a call that looks at a script that has stopped, and the ledger afterwards. -/
inductive Looked (ledger : Ledger) (call : Call) (exchanges : List Exchange) :
    Except DebugError Reply → Ledger → Prop
  /-- Its number means nothing. -/
  | unknown {number : Int} (used : call.number? = some number)
      (meaningless : ∀ query, ¬call.Refers ledger query) (silent : wanted exchanges = []) :
      Looked ledger call exchanges (.error (.unknownReference number)) ledger
  /-- The engine is asked for what its number was given for. -/
  | answered {query : Query} {result : Except DebugError Reply} {after : Ledger}
      (refers : call.Refers ledger query)
      (answered : query.Answered ledger exchanges result after) :
      Looked ledger call exchanges result after

/-- One call: what it was, which phase the debugger was in, what was exchanged, and how it ended. -/
structure Inquiry where
  /-- The call. -/
  call : Call
  /-- The phase in which it was made. -/
  phase : Phase
  /-- What was exchanged. -/
  exchanges : List Exchange
  /-- How it ended. -/
  result : Except DebugError Reply

/-- What a call does to the ledger. -/
inductive Books (ledger : Ledger) (inquiry : Inquiry) : Ledger → Prop
  /-- The script was to go on, whatever came of that. -/
  | resumed (other : inquiry.call.inspects = false)
      (resumes : ∃ exchange ∈ inquiry.exchanges, exchange.request.resumes = true) :
      Books ledger inquiry .empty
  /-- It was not, and nothing was looked at. -/
  | kept (other : inquiry.call.inspects = false)
      (quiet : ∀ exchange ∈ inquiry.exchanges, exchange.request.resumes = false) :
      Books ledger inquiry ledger
  /-- Nothing can be looked at as long as no engine is connected. -/
  | refused {error : DebugError} (inspects : inquiry.call.inspects = true)
      (apart : ∀ state, inquiry.phase ≠ .connected state)
      (failed : inquiry.result = .error error) (other : error.isUnknown = false)
      (silent : wanted inquiry.exchanges = []) : Books ledger inquiry ledger
  /-- Something was looked at. -/
  | looked {state : RunState} {after : Ledger} (inspects : inquiry.call.inspects = true)
      (connected : inquiry.phase = .connected state)
      (looked : Looked ledger inquiry.call inquiry.exchanges inquiry.result after) :
      Books ledger inquiry after

/-- The ledger that is kept over some calls. -/
inductive Accounts : List Inquiry → Ledger → Prop
  | nil : Accounts [] .empty
  | snoc {inquiries : List Inquiry} {inquiry : Inquiry} {ledger after : Ledger}
      (accounts : Accounts inquiries ledger) (books : Books ledger inquiry after) :
      Accounts (inquiries ++ [inquiry]) after

/-- What happens to a debugger in its world from a start on, call by call. -/
inductive Inquiries (env : Environs σ) (start : Debugger × σ) :
    List Inquiry → Debugger × σ → Prop
  /-- Nothing has happened yet. -/
  | nil : Inquiries env start [] start
  /-- A call is done. -/
  | call (call : Call) {inquiries : List Inquiry} {debugger after : Debugger}
      {world afterWorld : σ} {exchanges : List Exchange} {result : Except DebugError Reply}
      (before : Inquiries env start inquiries (debugger, world))
      (run : (call.replying.run.run debugger).run env.recorded.rule (world, []) =
        (some (result, after), (afterWorld, exchanges))) :
      Inquiries env start
        (inquiries ++ [⟨call, debugger.reported (env.ended world), exchanges, result⟩])
        (after, afterWorld)
  /-- Time passes. -/
  | passes {inquiries : List Inquiry} {debugger : Debugger} {world afterWorld : σ}
      (before : Inquiries env start inquiries (debugger, world))
      (passes : env.Passes world afterWorld) : Inquiries env start inquiries (debugger, afterWorld)

end Debugger

/-! ## Numbers that are used -/

namespace Link

open Operation Debugger

variable {link : Link} {world : σ} {exchanges : List Exchange} {ledger : Ledger}

theorem frameDepth_spec (frame : Option Int) :
    (frameDepth frame).Ensures rule link world fun result after last =>
      after = link ∧ last = world ∧
        ((∃ depth, result = .ok depth ∧ link.ledger.AtDepth frame depth) ∨
          ∃ number, frame = some number ∧ result = .error (.unknownReference number) ∧
            ∀ depth, ¬link.ledger.AtDepth frame depth) := by
  cases frame with
  | none => exact (ensures_pure _).2 ⟨rfl, rfl, .inl ⟨0, rfl, rfl⟩⟩
  | some number =>
      refine (ensures_bind _ _).2 (ensures_get.2 ?_)
      dsimp only
      cases found : link.frameNumbers.get? number with
      | some depth =>
          exact (ensures_pure _).2
            ⟨rfl, rfl, .inl ⟨depth, rfl, Handles.get?_eq_some_iff.1 found⟩⟩
      | none =>
          refine (ensures_throw _).2 ⟨rfl, rfl, .inr ⟨number, rfl, rfl, fun depth given => ?_⟩⟩
          cases found.symm.trans (Handles.get?_eq_some_iff.2 given)

section Unasked

variable (unasked : Unasked exchanges)
include unasked

theorem scopes_looked (frame : Int) :
    (scopes frame).Leaves rule.recorded link (world, exchanges) fun result after last =>
      Looked link.ledger (.scopes frame) last.2 (result.map .scopes) after.ledger := by
  refine Leaves.bind (ensures_get.2 ?_).leaves
  dsimp only
  cases found : link.frameNumbers.get? frame with
  | none =>
      refine ((ensures_throw _).2 (.unknown rfl (fun query refers => ?_) unasked.wanted)).leaves
      cases refers with
      | frame given => cases found.symm.trans (Handles.get?_eq_some_iff.2 given)
  | some depth =>
      refine (contexts_answered unasked depth).mono fun _ _ _ answered => ?_
      exact .answered (.frame (Handles.get?_eq_some_iff.1 found)) answered

theorem variablesIn_looked (reference : Int) :
    (variablesIn reference).Leaves rule.recorded link (world, exchanges) fun result after last =>
      Looked link.ledger (.variablesIn reference) last.2 (result.map .variables) after.ledger := by
  refine Leaves.bind (ensures_get.2 ?_).leaves
  dsimp only
  cases found : link.scopeNumbers.get? reference with
  | none =>
      refine ((ensures_throw _).2 (.unknown rfl (fun query refers => ?_) unasked.wanted)).leaves
      cases refers with
      | scope given => cases found.symm.trans (Handles.get?_eq_some_iff.2 given)
  | some scope =>
      have refers : (Call.variablesIn reference).Refers link.ledger (.variables scope) :=
        .scope (Handles.get?_eq_some_iff.1 found)
      cases scope with
      | context depth contextId =>
          exact (contextVariables_answered unasked depth contextId).mono
            fun _ _ _ answered => .answered refers answered
      | property depth contextId fullName =>
          exact (propertyVariables_answered unasked depth contextId fullName).mono
            fun _ _ _ answered => .answered refers answered

theorem evaluate_looked (request : EvaluateRequest) :
    (evaluate request).Leaves rule.recorded link (world, exchanges) fun result after last =>
      Looked link.ledger (.evaluate request) last.2 (result.map .value) after.ledger := by
  refine Leaves.bind ((frameDepth_spec _).leaves.mono ?_)
  rintro _ link _ ⟨rfl, rfl, ⟨depth, rfl, given⟩ | ⟨number, used, rfl, meaningless⟩⟩
  · exact (expression_answered unasked depth _).mono
      fun _ _ _ answered => .answered (.expression given) answered
  · refine .unknown used (fun query refers => ?_) unasked.wanted
    cases refers with
    | expression given => exact meaningless _ given

theorem completions_looked (text : String) (frame : Option Int) :
    (completions text frame).Leaves rule.recorded link (world, exchanges) fun result after last =>
      Looked link.ledger (.completions text frame) last.2 (result.map fun _ => .nothing)
        after.ledger := by
  refine Leaves.bind ((frameDepth_spec _).leaves.mono ?_)
  rintro _ link _ ⟨rfl, rfl, ⟨depth, rfl, given⟩ | ⟨number, used, rfl, meaningless⟩⟩
  · refine Leaves.mono ?_ fun _ _ _ answered => .answered (.names given) answered
    dsimp only
    split
    · exact names_answered ((names_memberNames depth _).bind fun _ => .pure _ _) unasked
    · exact names_answered ((names_contexts depth).bind fun _ =>
        (names_variableNames depth _).bind fun _ => .pure _ _) unasked
  · refine .unknown used (fun query refers => ?_) unasked.wanted
    cases refers with
    | names given => exact meaningless _ given

end Unasked

/-! ## Numbers that are taken back -/

/-- The script was to go on, and no number stands for anything. -/
structure Forgotten (link : Link) (exchanges : List Exchange) : Prop where
  ledger : link.ledger = .empty
  resumed : ∃ exchange ∈ exchanges, exchange.request.resumes = true

/-- In one turn the numbers are taken back, and no new ones are given. -/
theorem TurnDone.forgotten {continuation : Continuation} {after : Link} {told : List Exchange}
    {outcome : Option (Except DebugError ExecutionStatus)}
    (turn : TurnDone continuation link outcome after told) :
    Forgotten after (exchanges ++ told) where
  ledger := by cases turn <;> rfl
  resumed := by
    obtain ⟨exchange, member, resumes⟩ := turn.resumes
    exact ⟨exchange, List.mem_append_right _ member, resumes⟩

/-- However often the script goes on at logpoints, and whatever comes of that. -/
theorem execute_forgets (continuation : Continuation) (turns : Nat) :
    (execute continuation turns).Leaves rule.recorded link (world, exchanges)
      fun _ after last => Forgotten after last.2 :=
  leaves_of_turn (P := fun _ _ => True) (fun _ _ => trivial) (fun _ turn => turn.forgotten) turns
    trivial

end Link

namespace Debugger

open Operation

variable {debugger : Debugger} {world : σ} {ledger : Ledger} {call : Call}

/-! ## Calls -/

/-- A debugger is sound, what it knows of an engine agrees with the ledger, and none is kept before
there is an engine. -/
structure Tallies (debugger : Debugger) (ledger : Ledger) : Prop where
  sound : ∃ setup, Sound (fun link => link.ledger = ledger) debugger setup
  blank (idle : debugger.phase = .idle) : ledger = .empty

theorem tallies_new (config : DebugConfig) (host : Host) : Tallies (.new config host) .empty :=
  ⟨⟨.blank, sound_new config host⟩, fun _ => rfl⟩

/-- Whatever is done with what is known of the engine, and whatever phase comes of that. -/
theorem Tallies.moved {link after : Link} {phase : Phase} (tallies : Tallies debugger ledger)
    (linked : debugger.link = some link) (busy : phase ≠ .idle) :
    Tallies { debugger with phase, link := some after } after.ledger := by
  obtain ⟨setup, sound⟩ := tallies.sound
  exact ⟨⟨setup, sound.moved linked (absurd · busy) rfl⟩, fun idle => absurd idle busy⟩

theorem Tallies.linked {state : RunState} (tallies : Tallies debugger ledger)
    (connected : debugger.phase = .connected state) :
    ∃ link, debugger.link = some link ∧ link.ledger = ledger := by
  obtain ⟨setup, sound⟩ := tallies.sound
  obtain ⟨link, linked⟩ := Option.isSome_iff_exists.1 (sound.connected connected)
  exact ⟨link, linked, (sound.linked linked).1⟩

/-- A call is booked, and what it leaves of the debugger tallies with the ledger afterwards. -/
def Booked (ledger : Ledger) (call : Call) (phase : Phase) (result : Except DebugError Reply)
    (after : Debugger) (last : σ × List Exchange) : Prop :=
  ∃ later, Books ledger ⟨call, phase, last.2, result⟩ later ∧ Tallies after later

/-- A call looks at a script that has stopped, if an engine is connected. -/
theorem booked_of_looked {α : Type} {operation : LinkOperation α} {reply : α → Reply}
    {name : String} {closed : Bool} (tallies : Tallies debugger ledger)
    (inspects : call.inspects = true) (told : (rule.recorded .isClosed (world, [])).1 = closed)
    (looked : ∀ {link : Link} {world : σ} {exchanges : List Exchange}, Unasked exchanges →
      operation.Leaves rule.recorded link (world, exchanges) fun result after last =>
        Looked link.ledger call last.2 (result.map reply) after.ledger) :
    Operation.Leaves rule.recorded (do return reply (← whenConnected name operation)) debugger
      (world, []) (Booked ledger call (debugger.reported closed)) := by
  have whole : (whenConnected name operation).Leaves rule.recorded debugger (world, [])
      fun result after last =>
        Booked ledger call (debugger.reported closed) (result.map reply) after last := by
    refine Leaves.bind ((connectedState_ensures told name).leaves.mono ?_)
    rintro _ debugger last ⟨rfl, rfl, where_⟩
    have unasked : Unasked last.2 := unasked_of_asked unasked_nil where_
    have refused {error : DebugError} (apart : ∀ state, debugger.reported closed ≠ .connected state)
        (other : error.isUnknown = false) :
        Booked ledger call (debugger.reported closed) (.error error) debugger last :=
      ⟨ledger, .refused inspects apart rfl other unasked.wanted, tallies⟩
    unfold reportedState
    cases phase : debugger.reported closed with
    | idle | launching | attaching | closed =>
        rw [phase] at refused
        exact refused nofun rfl
    | connected state =>
        obtain ⟨link, linked, rfl⟩ := tallies.linked (phase_of_reported phase)
        refine Leaves.bind (knownLink_ensures.leaves.mono ?_)
        rintro _ _ _ ⟨rfl, rfl, rfl⟩
        rw [linked]
        refine (leaves_onLink (looked unasked)).mono ?_
        rintro result _ last ⟨after, rfl, looked⟩
        refine ⟨after.ledger, .looked inspects rfl looked, ?_⟩
        exact tallies.moved linked fun idle => by
          cases (phase_of_reported phase).symm.trans idle
  refine Leaves.bind (whole.mono ?_)
  rintro (error | value) after last booked
  · exact booked
  · exact ((ensures_pure _).2 booked).leaves

/-- The script is to go on, if an engine is connected, and it does not matter how that ends. -/
theorem booked_of_goesOn {operation : DebuggerOperation ExecutionStatus} {phase : Phase}
    (tallies : Tallies debugger ledger) (other : call.inspects = false)
    (goesOn : GoesOn operation) :
    operation.Leaves rule.recorded debugger (world, []) fun _ after last =>
      ∀ result, Booked ledger call phase result after last := by
  have executed (continuation : Continuation) :
      (execute continuation).Leaves rule.recorded debugger (world, []) fun _ after last =>
        ∀ result, Booked ledger call phase result after last := by
    refine (execute_leaves continuation fun link world exchanges _ _ =>
      Link.execute_forgets continuation turnLimit).mono ?_
    rintro result _ last
      (⟨error, -, rfl, neutral⟩ | ⟨after, state, connected, forgotten, rfl⟩) reply
    · exact ⟨ledger, .kept other fun exchange member => (neutral exchange member).resumes, tallies⟩
    · obtain ⟨link, linked, -⟩ := tallies.linked connected
      have busy : phaseAfter state result ≠ .idle := by
        unfold phaseAfter
        split
        · simp
        · split <;> simp
      refine ⟨.empty, .resumed other forgotten.resumed, ?_⟩
      rw [← forgotten.ledger]
      exact tallies.moved linked busy
  cases goesOn with
  | execute continuation => exact executed continuation
  | configurationDone =>
      refine Leaves.bind (ensures_get.2 ?_).leaves
      dsimp only
      split
      · exact executed .continue
      · refine Leaves.bind ((executed .stepIn).mono ?_)
        rintro (error | status) after last booked
        · exact booked
        · exact ((ensures_pure _).2 booked).leaves

/-- Whether the script was to go on is all that is looked at. -/
def quiet : Order (σ × List Exchange) where
  phase _ := True
  table _ := True
  world last := ∀ exchange ∈ last.2, exchange.request.resumes = false

theorem quiet_lasts : (quiet : Order (σ × List Exchange)).Lasts rule.recorded where
  closed := trivial
  empty := trivial
  ask other holds := List.forall_mem_append.2 ⟨holds, List.forall_mem_singleton.2 other⟩
  create _ _ _ := trivial
  remove _ _ := trivial

/-- A call that is of no consequence to numbers leaves a sound debugger, and makes nothing of an
idle one but what has no numbers yet. -/
theorem tallies_of_other {env : Environs σ} (tallies : Tallies debugger ledger)
    (other : call.usesNumbers = false) :
    call.operation.Leaves env.recorded.rule debugger (world, []) fun _ after _ =>
      Tallies after ledger := by
  intro result after last run
  have advance : Advance debugger after :=
    advances_operation call debugger _ result after last run
  have idle (idle : after.phase = .idle) : debugger.phase = .idle := by
    cases advance with
    | kept phase => exact phase.symm.trans idle
    | first idle => exact idle
    | last closed => cases closed.symm.trans idle
    | moved _ _ reported => cases reported.symm.trans idle
  refine ⟨?_, fun stays => tallies.blank (idle stays)⟩
  obtain ⟨setup, sound⟩ := tallies.sound
  by_cases busy : call.connects = true ∧ debugger.phase ≠ .idle
  · obtain ⟨rfl, -⟩ := leaves_of_busy busy.1 busy.2 result after last run
    exact ⟨setup, sound⟩
  · have steady : Steady fun link => link.ledger = ledger :=
      ⟨fun _ holds => holds, fun _ holds => holds⟩
    have fresh (connects : call.connects = true) (link : Link)
        (frames : link.frameNumbers = .empty) (scopes : link.scopeNumbers = .empty) :
        link.ledger = ledger := by
      rw [tallies.blank (not_not.1 fun phase => busy ⟨connects, phase⟩), Link.ledger, frames,
        scopes]
      rfl
    have abides : Abides Setup.conduct (Sound fun link => link.ledger = ledger) call.operation :=
      abides_operation call steady fresh fun uses => by cases other.symm.trans uses
    exact (abides debugger setup sound).leaves result after last run

/-- Every other call keeps to the ledger. -/
theorem booked_of_other {env : Environs σ} {phase : Phase} (tallies : Tallies debugger ledger)
    (other : call.usesNumbers = false) (looks : call.inspects = false)
    (silent : ∀ config, call.continuation? config = none) :
    call.operation.Leaves env.recorded.rule debugger (world, []) fun _ after last =>
      ∀ result, Booked ledger call phase result after last := by
  have start : (quiet : Order (σ × List Exchange)).OfDebugger debugger (world, []) :=
    ⟨trivial, trivial, List.forall_mem_nil _⟩
  intro result after last run reply
  have still : (quiet : Order (σ × List Exchange)).OfDebugger after last := by
    cases connects : call.connects with
    | false => exact keeps_of_not_connects quiet_lasts connects silent _ _ start _ _ _ run
    | true =>
        exact keeps_of_connects quiet_lasts trivial trivial trivial connects _ _ start _ _ _ run
  exact ⟨ledger, .kept looks still.2.2, tallies_of_other tallies other _ _ _ run⟩

/-- Every call is booked. -/
theorem booked_of_call {env : Environs σ} (call : Call) (tallies : Tallies debugger ledger) :
    call.replying.Leaves env.recorded.rule debugger (world, [])
      (Booked ledger call (debugger.reported (env.ended world))) := by
  have told : (env.rule.recorded .isClosed (world, [])).1 = env.ended world := env.isClosed_eq world
  have others {operation : DebuggerOperation Unit}
      (booked : operation.Leaves env.recorded.rule debugger (world, []) fun _ after last =>
        ∀ result, Booked ledger call (debugger.reported (env.ended world)) result after last) :
      Operation.Leaves env.recorded.rule (do operation; return Reply.nothing) debugger (world, [])
        (Booked ledger call (debugger.reported (env.ended world))) := by
    refine Leaves.bind (booked.mono ?_)
    rintro (error | _) after last booked
    · exact booked _
    · exact ((ensures_pure _).2 (booked _)).leaves
  cases call with
  | stackTrace =>
      refine booked_of_looked tallies rfl told fun unasked => ?_
      exact (Link.stackTrace_answered unasked).mono fun _ _ _ => .answered .stack
  | scopes frame =>
      exact booked_of_looked tallies rfl told fun unasked => Link.scopes_looked unasked frame
  | variablesIn reference =>
      exact booked_of_looked tallies rfl told fun unasked =>
        Link.variablesIn_looked unasked reference
  | evaluate request =>
      exact booked_of_looked tallies rfl told fun unasked => Link.evaluate_looked unasked request
  | completions text frame =>
      exact booked_of_looked tallies rfl told fun unasked =>
        Link.completions_looked unasked text frame
  | configurationDone =>
      exact others (leaves_silent (booked_of_goesOn tallies rfl .configurationDone))
  | resume continuation =>
      exact others (leaves_silent (booked_of_goesOn tallies rfl (.execute continuation)))
  | _ => exact others (booked_of_other tallies rfl rfl fun _ => rfl)

/-! ## Sequences of calls -/

/-- A ledger is kept over all that happens. -/
theorem Inquiries.tallied {env : Environs σ} {config : DebugConfig} {host : Host} {world : σ}
    {now : Debugger × σ} {inquiries : List Inquiry}
    (happened : Inquiries env (.new config host, world) inquiries now) :
    ∃ ledger, Accounts inquiries ledger ∧ Tallies now.1 ledger := by
  induction happened with
  | nil => exact ⟨.empty, .nil, tallies_new config host⟩
  | passes _ _ ih => exact ih
  | call call _ run ih =>
      obtain ⟨ledger, accounts, tallies⟩ := ih
      obtain ⟨later, books, tallies⟩ := booked_of_call call tallies _ _ _ run
      exact ⟨later, accounts.snoc books, tallies⟩

/-- The calls are made one after the other. -/
def inquire (env : Environs σ) :
    List Call → List Inquiry → Debugger × σ → Option (List Inquiry × Debugger × σ)
  | [], inquiries, now => some (inquiries, now)
  | call :: rest, inquiries, (debugger, world) =>
    match (call.replying.run.run debugger).run env.recorded.rule (world, []) with
    | (some (result, after), (afterWorld, exchanges)) =>
      inquire env rest
        (inquiries ++ [⟨call, debugger.reported (env.ended world), exchanges, result⟩])
        (after, afterWorld)
    | (none, _) => none

theorem Inquiries.of_inquire {env : Environs σ} {start now last : Debugger × σ}
    {calls : List Call} {inquiries all : List Inquiry}
    (happened : Inquiries env start inquiries now)
    (run : inquire env calls inquiries now = some (all, last)) :
    Inquiries env start all last := by
  induction calls generalizing inquiries now with
  | nil =>
      cases run
      exact happened
  | cons call rest ih =>
      obtain ⟨debugger, world⟩ := now
      simp only [inquire] at run
      split at run
      · next made => exact ih (.call call happened made) run
      · cases run

/-- An engine that tells of a frame, of two groups of variables, and of two variables of which one
has children, and whose script does not go on. -/
def telling (command : Command) : Except SessionError Response :=
  let element (name : String) (attributes : List (String × String)) : Element :=
    { name, attributes, children := [], text := "" }
  let object : Element := element "property" [("fullname", "list"), ("children", "1")]
  if command.name = "stack_get" then
    answering [] [element "stack" [("level", "1")]]
  else if command.name = "context_names" then
    answering [] [element "context" [("id", "0")], element "context" [("id", "1")]]
  else if command.name = "context_get" then answering [] [object, element "property" []]
  else if command.name = "property_get" then answering [] [{ object with children := [object] }]
  else if Continuation.names.contains command.name then .error (.cancelled command.name)
  else answering [("id", "1")] []

/-- The numbers in what is given back. -/
def numbersOf : Reply → List Int64
  | .nothing => []
  | .frames shown => shown.map StackFrame.id
  | .scopes shown => shown.map Scope.reference
  | .variables shown => shown.map Variable.reference
  | .value result => [result.reference]

/-- The numbers that are given, none where a call fails. -/
def numbersGiven (calls : List Call) : Option (List (Option (List Int64))) :=
  (inquire (attended telling) calls [] (fresh, ())).map fun entry =>
    entry.1.map fun inquiry => inquiry.result.toOption.map numbersOf

/-- Whatever is asked of a debugger, in whatever order, and whatever its surroundings answer: a
ledger can be kept of what numbers were given for since the script was last to go on, so that each
call that uses a number asks the engine for just what the ledger says of it, or fails without asking
for anything if it says nothing, and the numbers that are given next continue the ledger. -/
theorem exists_accounts (env : Environs σ) {config : DebugConfig} {host : Host} {world now : σ}
    {inquiries : List Inquiry} {debugger : Debugger}
    (happened : Inquiries env (.new config host, world) inquiries (debugger, now)) :
    ∃ ledger, Accounts inquiries ledger := by
  obtain ⟨ledger, accounts, -⟩ := happened.tallied
  exact ⟨ledger, accounts⟩

/-- Numbers are used that were given for a frame, a group and a property, and none of them means
anything once the script was to go on, though it did not. -/
theorem exists_accounts_expired :
    ∃ inquiries debugger,
      Inquiries (attended telling) (fresh, ()) inquiries (debugger, ()) ∧
        (inquiries.map fun inquiry => inquiry.result.toOption.map numbersOf) =
          [some [], some [1], some [1, 2], some [3, 0], some [4], some [5], none, none, some [1]] ∧
        ∃ ledger, Accounts inquiries ledger := by
  have run : numbersGiven [.attachStream, .stackTrace, .scopes 1, .variablesIn 2, .variablesIn 3,
      .evaluate { expression := "list", frameId := some 1, context := none }, .resume .stepIn,
      .scopes 1, .stackTrace] =
    some [some [], some [1], some [1, 2], some [3, 0], some [4], some [5], none, none,
      some [1]] := by decide +kernel
  obtain ⟨⟨inquiries, debugger, ⟨⟩⟩, made, numbers⟩ := Option.map_eq_some_iff.1 run
  have happened : Inquiries (attended telling) (fresh, ()) inquiries (debugger, ()) :=
    .of_inquire .nil made
  exact ⟨inquiries, debugger, happened, numbers, exists_accounts _ happened⟩

end Debugger

end DebugBridge
