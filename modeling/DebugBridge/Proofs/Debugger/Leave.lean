import DebugBridge.Proofs.Debugger.Setup

/-!
# Taking leave of a script

A debugger takes leave of the script once.  One that it has started is ended, unless the debugger
has let it go before; any other one is let go and asked to go its own way.  This is read off what
the debugger has exchanged, and it is kept as long as the debugger is told the truth about whether
the session has ended and whether the script was let go.
-/

namespace DebugBridge

variable {α : Type}

/-- Whether a request takes leave of the script: to end it, or to let it go its own way. -/
def Request.parts : Request → Bool
  | .submit _ (some _) | .detach => true
  | _ => false

/-- How far a debugger has got in taking leave. -/
structure Leave where
  /-- Whether the interpreter was started. -/
  started : Bool
  /-- Whether the script was let go. -/
  letGo : Bool
  /-- Whether the session was ended. -/
  ended : Bool
  /-- Whether leave was taken. -/
  parted : Bool

namespace Leave

/-- No leave has been taken of a script. -/
def untaken (started : Bool) : Leave :=
  { started, letGo := false, ended := false, parted := false }

/-- How far it has got after an exchange, if what was answered is true. -/
def next (leave : Leave) : Exchange → Option Leave
  | ⟨.spawn _, started⟩ => some { leave with started := leave.started || started }
  | ⟨.letGo, _⟩ => some { leave with letGo := true }
  | ⟨.isLetGo, letGo⟩ => if letGo = leave.letGo then some leave else none
  | ⟨.isClosed, closed⟩ => if leave.ended && !closed then none else some leave
  | ⟨.submit _ (some _), _⟩ => some { leave with parted := true }
  | ⟨.detach, _⟩ => some { leave with parted := true, ended := true }
  | ⟨.close, _⟩ => some { leave with ended := true }
  | _ => some leave

/-- Whether a request fits, where something was asked of the debugger. -/
def Allows (task : Option Debugger.Call) (leave : Leave) : Request → Prop
  | .submit command (some _) =>
    command.name = Continuation.stop.commandName ∧ task ≠ some (.resume .stop) ∧
      leave.started = true ∧ leave.letGo = false ∧ leave.parted = false
  | .detach => leave.letGo = true ∧ leave.parted = false
  | .submit command none =>
    command.name ≠ "detach" ∧
      (command.name = Continuation.stop.commandName → task = some (.resume .stop)) ∧
      task ≠ some .close ∧ task ≠ some .detach
  | .interrupt _ => False
  | .letGo => leave.parted = false ∧ (leave.started = true → task = some .detach)
  | .spawn _ => leave.letGo = false ∧ leave.parted = false
  | _ => True

/-- The rule that requests fit, as long as answers are true. -/
def conduct (task : Option Debugger.Call) : Conduct (Option Leave) where
  allows
    | none, _ => True
    | some leave, request => leave.Allows task request
  next
    | none, _ => none
    | some leave, exchange => leave.next exchange

end Leave

namespace Debugger

open Operation

variable {task : Option Call} {debugger : Debugger} {leave : Leave}

/-- A debugger agrees with how far it has got in taking leave: as long as it knows an engine it has
not begun to. -/
def Agrees (debugger : Debugger) : Option Leave → Prop
  | none => True
  | some leave =>
    (debugger.phase = .idle → debugger.link = none ∧ leave = .untaken false) ∧
      ∀ link, debugger.link = some link → leave = .untaken (link.mode == .launch)

/-- A debugger that has parted agrees with everything. -/
theorem agrees_of_parted (closed : debugger.phase = .closed) (parted : debugger.link = none)
    (point : Option Leave) : debugger.Agrees point := by
  cases point with
  | none => trivial
  | some leave =>
      refine ⟨fun idle => ?_, fun link linked => ?_⟩
      · cases closed.symm.trans idle
      · cases parted.symm.trans linked

/-- Nothing matters once something untrue was answered. -/
theorem obeys_untrue {τ : Type} {operation : Operation τ α}
    {post : Except DebugError α → τ → Option Leave → Prop} (state : τ)
    (holds : ∀ result after, post result after none) :
    operation.Obeys (Leave.conduct task) state none post := by
  have talks {γ : Type} (talk : Talk γ) {kept : γ → Option Leave → Prop}
      (holds : ∀ result, kept result none) : talk.Obeys (Leave.conduct task) kept none := by
    induction talk with
    | done result => exact holds result
    | call request rest ih => exact ⟨trivial, fun answer => ih answer⟩
    | stuck => trivial
  exact talks _ fun entry => holds entry.1 entry.2

theorem abides_of_true {operation : DebuggerOperation α}
    (obeys : ∀ debugger leave, Agrees debugger (some leave) →
      operation.Obeys (Leave.conduct task) debugger (some leave)
        fun _ after last => after.Agrees last) :
    Abides (Leave.conduct task) Agrees operation := by
  intro debugger point agrees
  cases point with
  | none => exact obeys_untrue debugger fun _ _ => trivial
  | some leave => exact obeys debugger leave agrees

theorem agrees_closed (unlinked : debugger.link = none) (point : Option Leave) :
    Agrees { debugger with phase := .closed } point := by
  have closed : Debugger.phase { debugger with phase := .closed } = .closed := rfl
  exact agrees_of_parted closed unlinked point

/-! ## What takes no leave -/

theorem Agrees.moved {point : Option Leave} {link other : Link} {phase : Phase}
    (agrees : debugger.Agrees point) (linked : debugger.link = some link)
    (busy : phase = .idle → debugger.phase = .idle) (mode : other.mode = link.mode) :
    Agrees { debugger with phase, link := some other } point := by
  cases point with
  | none => trivial
  | some leave =>
      refine ⟨fun idle => ?_, fun last same => ?_⟩
      · cases linked.symm.trans (agrees.1 (busy idle)).1
      · cases same
        rw [mode]
        exact agrees.2 link linked

theorem yielding_agrees : Yielding Agrees where
  moved agrees linked busy mode := agrees.moved linked busy mode

/-- Whether the session has ended may be asked at any time. -/
theorem abides_isClosed :
    Abides (Leave.conduct task) Agrees (ask .isClosed : DebuggerOperation Bool) := by
  refine Abides.ask fun debugger point agrees => ?_
  cases point with
  | none => exact ⟨trivial, fun _ => trivial⟩
  | some leave =>
      refine ⟨trivial, fun (closed : Bool) => ?_⟩
      have holds : debugger.Agrees (leave.next ⟨.isClosed, closed⟩) := by
        rw [Leave.next]
        split
        · trivial
        · exact agrees
      exact holds

/-- Requests that are quiet fit wherever the debugger is not about to part. -/
theorem lenient_agrees (stays : task ≠ some .close ∧ task ≠ some .detach) :
    Lenient (Leave.conduct task) Agrees where
  quiet := by
    intro debugger point agrees request quiet
    cases point with
    | none => exact ⟨trivial, fun _ => trivial⟩
    | some leave =>
        cases request with
        | submit command limit =>
            cases limit with
            | some limit => cases quiet
            | none =>
                have other : command.name ∉ Continuation.movingNames := by
                  simpa [Request.isQuiet] using quiet
                refine ⟨⟨fun same => ?_, fun same => ?_, stays⟩, fun _ => agrees⟩
                · exact absurd (same ▸ List.mem_cons_self) other
                · exact absurd (same ▸ by decide) other
        | isClosed => exact abides_isClosed debugger _ agrees
        | report event => exact ⟨trivial, fun _ => agrees⟩
        | _ => cases quiet
  features agrees linked _ := agrees.moved linked id rfl
  breakpoints agrees linked _ := agrees.moved linked id rfl

theorem letsGoOn_agrees {continuation : Continuation}
    (asked : task = some (.resume continuation) ∨ continuation ≠ .stop)
    (stays : task ≠ some .close ∧ task ≠ some .detach) :
    LetsGoOn (Leave.conduct task) Agrees continuation := by
  intro debugger point agrees
  cases point with
  | none => exact ⟨trivial, trivial, fun _ => trivial⟩
  | some leave =>
      have named : continuation.commandName ≠ "detach" ∧
          (continuation.commandName = Continuation.stop.commandName → continuation = .stop) := by
        cases continuation <;> decide
      refine ⟨⟨named.1, fun same => ?_, stays⟩, trivial, fun _ => agrees⟩
      cases named.2 same
      exact asked.resolve_right (absurd rfl)

/-! ## Parting -/

/-- A debugger is left as it is, unless something untrue was answered. -/
def Leaves (debugger : Debugger) (_ : Except DebugError α) (after : Debugger)
    (point : Option Leave) : Prop :=
  point = none ∨ after = debugger

/-- The rest of parting, when leave was taken or the session had ended. -/
theorem obeys_ending (link : Link) (point : Option Leave) :
    Operation.Obeys (Leave.conduct task) (do
      Operation.ask .awaitEnd
      if link.launched && !(← Operation.ask .isLetGo) then Operation.ask .kill :
        DebuggerOperation Unit) debugger point (Leaves debugger) := by
  have allowed (point : Option Leave) : (Leave.conduct task).allows point .awaitEnd ∧
      (Leave.conduct task).allows point .isLetGo ∧ (Leave.conduct task).allows point .kill := by
    cases point <;> exact ⟨trivial, trivial, trivial⟩
  refine obeys_ask_bind.2 ⟨(allowed _).1, fun _ => ?_⟩
  refine obeys_ask_bind.2 ⟨(allowed _).2.1, fun (letGo : Bool) => ?_⟩
  split
  · exact ⟨(allowed _).2.2, fun _ => .inr rfl⟩
  · exact .inr rfl

/-- To part from an engine of which no leave was taken yet takes leave of it if the session goes
on. -/
theorem obeys_shutdown_untaken (other : task ≠ some (.resume .stop)) (link : Link) :
    (shutdown link).Obeys (Leave.conduct task) debugger
      (some (.untaken (link.mode == .launch))) (Leaves debugger) := by
  refine obeys_ask_bind.2 ⟨trivial, fun (closed : Bool) => ?_⟩
  cases closed with
  | true => exact obeys_ending link _
  | false =>
      refine obeys_ask_bind.2 ⟨trivial, fun (letGo : Bool) => ?_⟩
      cases letGo with
      | true => exact obeys_untrue _ fun _ _ => .inl rfl
      | false =>
          cases started : link.mode == .launch with
          | true =>
              refine obeys_ask_bind.2 ⟨⟨rfl, other, rfl, rfl, rfl⟩, fun _ => ?_⟩
              exact obeys_ask_bind.2 ⟨trivial, fun _ => obeys_ending link _⟩
          | false =>
              refine obeys_ask_bind.2 ⟨⟨rfl, nofun⟩, fun _ => ?_⟩
              exact obeys_ask_bind.2 ⟨⟨rfl, rfl⟩, fun _ => obeys_ending link _⟩

/-- Nothing is left to do when the session was ended. -/
theorem obeys_shutdown_ended (link : Link) (ended : leave.ended = true) :
    (shutdown link).Obeys (Leave.conduct task) debugger (some leave) (Leaves debugger) := by
  refine obeys_ask_bind.2 ⟨trivial, fun (closed : Bool) => ?_⟩
  cases closed with
  | true => exact obeys_ending link _
  | false =>
      have untrue : (Leave.conduct task).next (some leave) ⟨.isClosed, false⟩ = none := by
        simp [Leave.conduct, Leave.next, ended]
      rw [untrue]
      exact obeys_untrue _ fun _ _ => .inl rfl

/-- A debugger that was closed and has parted agrees with whatever has become of that. -/
theorem Leaves.agrees {result : Except DebugError α} {after : Debugger} {point : Option Leave}
    (leaves : Leaves debugger result after point) (closed : debugger.phase = .closed)
    (parted : debugger.link = none) : after.Agrees point := by
  rcases leaves with rfl | rfl
  · trivial
  · exact agrees_of_parted closed parted point

theorem abides_close_agrees (other : task ≠ some (.resume .stop)) :
    Abides (Leave.conduct task) Agrees close := by
  refine abides_of_true fun debugger leave agrees => ?_
  refine (obeys_bind _ _).2 (obeys_get.2 ((obeys_bind _ _).2 ((obeys_set _).2 ?_)))
  dsimp only
  cases linked : debugger.link with
  | none =>
      have parted : Agrees { debugger with phase := .closed, link := none } (some leave) :=
        agrees_of_parted rfl rfl _
      exact parted
  | some link =>
      rw [agrees.2 link linked]
      refine (obeys_shutdown_untaken other link).mono ?_
      exact fun _ _ _ leaves => leaves.agrees rfl rfl

theorem abides_detach_agrees : Abides (Leave.conduct (some .detach)) Agrees detach := by
  refine (abides_connectedState abides_isClosed _).bind fun _ =>
    abides_knownLink_bind fun debugger point link agrees linked => ?_
  cases point with
  | none => exact obeys_untrue _ fun _ _ => trivial
  | some leave =>
      cases agrees.2 link linked
      refine obeys_ask_bind.2 ⟨⟨rfl, fun _ => rfl⟩, fun _ => ?_⟩
      refine obeys_ask_bind.2 ⟨⟨rfl, rfl⟩, fun (answer : Except SessionError Unit) => ?_⟩
      refine (obeys_bind _ _).2 ((obeys_modify _).2 ?_)
      refine (obeys_bind _ _).2 ((obeys_shutdown_ended link rfl).mono ?_)
      rintro (error | _) _ _ leaves
      · exact leaves.agrees rfl rfl
      · cases answer <;> exact leaves.agrees rfl rfl

/-! ## Connecting -/

/-- What comes of a way to make a connection: if it is made, the interpreter was started or not. -/
def Arrived (started : Bool) (debugger : Debugger) (result : Except DebugError Established)
    (after : Debugger) (point : Option Leave) : Prop :=
  after = debugger ∧ ∀ established, result = .ok established → point = some (.untaken started)

theorem obeys_spawn_untaken (arguments : List String) :
    (spawn arguments).Obeys (Leave.conduct task) debugger (some (.untaken false))
      fun result after point => after = debugger ∧
        point = some (.untaken (match result with | .ok _ => true | .error _ => false)) := by
  refine (obeys_bind _ _).2 (obeys_get.2 (obeys_ask_bind.2 ⟨⟨rfl, rfl⟩, ?_⟩))
  intro (started : Bool)
  cases started <;> exact ⟨rfl, rfl⟩

theorem obeys_listen_untaken :
    listen.Obeys (Leave.conduct task) debugger (some leave) fun _ after point =>
      after = debugger ∧ point = some leave := by
  refine (obeys_bind _ _).2 (obeys_get.2 (obeys_ask_bind.2 ⟨trivial, fun answer => ?_⟩))
  rcases answer with (fault | address) <;> exact ⟨rfl, rfl⟩

theorem obeys_launchListening_untaken :
    launchListening.Obeys (Leave.conduct task) debugger (some (.untaken false))
      (Arrived true debugger) := by
  refine (obeys_bind _ _).2 (obeys_get.2 ((obeys_bind _ _).2 (obeys_listen_untaken.mono ?_)))
  rintro (error | address) _ _ ⟨rfl, rfl⟩
  · exact ⟨rfl, nofun⟩
  refine (obeys_bind _ _).2 ((obeys_tryCatch _ _).2 ((obeys_spawn_untaken _).mono ?_))
  rintro (error | _) _ _ ⟨rfl, rfl⟩
  · exact obeys_ask_bind.2 ⟨trivial, fun _ => ⟨rfl, nofun⟩⟩
  refine obeys_ask_bind.2 ⟨trivial, fun (arrival : Arrival) => ?_⟩
  cases arrival with
  | connected => exact ⟨rfl, fun _ _ => rfl⟩
  | timedOut | refused =>
      exact obeys_ask_bind.2 ⟨trivial, fun _ => obeys_ask_bind.2 ⟨trivial, fun _ => ⟨rfl, nofun⟩⟩⟩
  | exited code =>
      exact obeys_ask_bind.2 ⟨trivial, fun _ => obeys_ask_bind.2 ⟨trivial, fun _ =>
        obeys_ask_bind.2 ⟨trivial, fun _ => ⟨rfl, nofun⟩⟩⟩⟩

theorem obeys_dial_untaken (deadline attempts : Nat) :
    (dial deadline attempts).Obeys (Leave.conduct task) debugger (some (.untaken true))
      (Arrived true debugger) := by
  induction attempts with
  | zero => exact obeys_stuck.2 trivial
  | succ attempts ih =>
      refine (obeys_bind _ _).2 (obeys_get.2 ?_)
      refine obeys_ask_bind.2 ⟨trivial, fun (connected : Bool) => ?_⟩
      cases connected with
      | true => exact ⟨rfl, fun _ _ => rfl⟩
      | false =>
          refine obeys_ask_bind.2 ⟨trivial, fun (exit : Option (Option Int)) => ?_⟩
          cases exit with
          | some code => exact obeys_ask_bind.2 ⟨trivial, fun _ => ⟨rfl, nofun⟩⟩
          | none =>
              refine obeys_ask_bind.2 ⟨trivial, fun (time : Nat) => ?_⟩
              split
              · exact obeys_ask_bind.2 ⟨trivial, fun _ => ⟨rfl, nofun⟩⟩
              · exact obeys_ask_bind.2 ⟨trivial, fun _ => ih⟩

theorem obeys_launchConnecting_untaken :
    launchConnecting.Obeys (Leave.conduct task) debugger (some (.untaken false))
      (Arrived true debugger) := by
  refine (obeys_bind _ _).2 (obeys_get.2 ((obeys_bind _ _).2 ((obeys_spawn_untaken _).mono ?_)))
  rintro (error | _) _ _ ⟨rfl, rfl⟩
  · exact ⟨rfl, nofun⟩
  · exact obeys_ask_bind.2 ⟨trivial, fun _ => obeys_dial_untaken _ _⟩

theorem obeys_postRequest_untaken (address : SocketAddress) :
    (postRequest address).Obeys (Leave.conduct task) debugger (some leave) fun _ after point =>
      after = debugger ∧ point = some leave := by
  refine (obeys_bind _ _).2 (obeys_get.2 ?_)
  dsimp only
  split
  · exact ⟨rfl, rfl⟩
  · refine obeys_ask_bind.2 ⟨trivial, fun (outcome : HelperOutcome) => ?_⟩
    cases outcome with
    | notStarted | broken | stuck => exact ⟨rfl, rfl⟩
    | ended code output =>
        dsimp only
        split <;> exact ⟨rfl, rfl⟩

theorem obeys_attachListening_untaken :
    attachListening.Obeys (Leave.conduct task) debugger (some (.untaken false))
      (Arrived false debugger) := by
  refine (obeys_bind _ _).2 (obeys_get.2 ((obeys_bind _ _).2 (obeys_listen_untaken.mono ?_)))
  rintro (error | address) _ _ ⟨rfl, rfl⟩
  · exact ⟨rfl, nofun⟩
  have released (debugger : Debugger) (error : DebugError) :
      Operation.Obeys (Leave.conduct task) (do
        release
        throw error : DebuggerOperation Established) debugger (some (.untaken false))
        (Arrived false debugger) :=
    obeys_ask_bind.2 ⟨trivial, fun _ => ⟨rfl, nofun⟩⟩
  refine (obeys_bind _ _).2 ((obeys_tryCatch _ _).2 ((obeys_bind _ _).2
    ((obeys_postRequest_untaken address).mono ?_)))
  rintro (error | _) _ _ ⟨rfl, rfl⟩
  · exact released _ _
  refine obeys_ask_bind.2 ⟨trivial, fun (arrival : Arrival) => ?_⟩
  cases arrival with
  | connected => exact ⟨rfl, fun _ _ => rfl⟩
  | timedOut | refused | exited => exact released _ _

/-- A connection is given up whose engine has not greeted. -/
theorem obeys_abandon_untaken (established : Established) (error : DebugError)
    (unlinked : debugger.link = none) :
    (abandon established error).Obeys (Leave.conduct task) debugger (some leave)
      fun _ after point => after.Agrees point := by
  have thrown (point : Option Leave) :
      Operation.Obeys (Leave.conduct task) (throw error : DebuggerOperation Unit)
        { debugger with phase := .closed } point fun _ after last => after.Agrees last :=
    agrees_closed unlinked point
  obtain ⟨launched, listening⟩ := established
  refine (obeys_bind _ _).2 ((obeys_modify _).2 (obeys_ask_bind.2 ⟨trivial, fun _ => ?_⟩))
  cases launched <;> cases listening
  · exact thrown _
  · exact obeys_ask_bind.2 ⟨trivial, fun _ => thrown _⟩
  · exact obeys_ask_bind.2 ⟨trivial, fun _ => thrown _⟩
  · exact obeys_ask_bind.2 ⟨trivial, fun _ => obeys_ask_bind.2 ⟨trivial, fun _ => thrown _⟩⟩

/-- The greeting is waited for, and a debugger that fails to prepare the engine takes leave. -/
theorem obeys_greet_untaken {mode : RequestKind} (established : Established)
    (stays : task ≠ some .close ∧ task ≠ some .detach) (other : task ≠ some (.resume .stop))
    (unlinked : debugger.link = none) :
    (greet mode established).Obeys (Leave.conduct task) debugger
      (some (.untaken (mode == .launch))) fun _ after point => after.Agrees point := by
  refine (obeys_bind _ _).2 (obeys_get.2 ?_)
  refine obeys_ask_bind.2 ⟨trivial, fun (greeting : Greeting) => ?_⟩
  cases greeting with
  | failed error => exact obeys_abandon_untaken established _ unlinked
  | timedOut => exact obeys_abandon_untaken established _ unlinked
  | init packet =>
      refine obeys_ask_bind.2 ⟨trivial, fun _ => (obeys_bind _ _).2 ((obeys_modify _).2 ?_)⟩
      refine ((abides_negotiate (lenient_agrees stays)).tryCatch fun error =>
        (abides_close_agrees other).bind fun _ => .throw error) _ _ ⟨nofun, fun link linked => ?_⟩
      cases linked
      rfl

/-- The interpreter was started or not and nothing is known of an engine, unless something untrue
was answered. -/
def IsUntaken (started : Bool) (debugger : Debugger) (point : Option Leave) : Prop :=
  point = none ∨ debugger.link = none ∧ point = some (.untaken started)

theorem connects_agrees (stays : task ≠ some .close ∧ task ≠ some .detach)
    (other : task ≠ some (.resume .stop)) :
    Connects (Leave.conduct task) Agrees (IsUntaken false)
      fun mode _ => IsUntaken (mode == .launch) := by
  have arrives {way : DebuggerOperation Established} {started : Bool}
      (obeys : ∀ debugger, way.Obeys (Leave.conduct task) debugger (some (.untaken false))
        (Arrived started debugger)) {debugger : Debugger} {point : Option Leave}
      (begins : IsUntaken false debugger point) :
      way.Obeys (Leave.conduct task) debugger point
        (Arrives Agrees fun _ => IsUntaken started) := by
    rcases begins with rfl | ⟨unlinked, rfl⟩
    · refine obeys_untrue _ fun result after => ?_
      cases result with
      | error error => trivial
      | ok established => exact .inl rfl
    · refine (obeys debugger).mono ?_
      rintro (error | established) _ point ⟨rfl, arrived⟩
      · exact agrees_closed unlinked point
      · exact .inr ⟨unlinked, arrived established rfl⟩
  constructor
  case idle =>
    intro debugger point agrees idle phase
    cases point with
    | none => exact .inl rfl
    | some leave =>
        obtain ⟨unlinked, rfl⟩ := agrees.1 idle
        exact .inr ⟨unlinked, rfl⟩
  case listens => exact arrives fun _ => obeys_launchListening_untaken
  case dials => exact arrives fun _ => obeys_launchConnecting_untaken
  case waits => exact arrives fun _ => obeys_attachListening_untaken
  case stands => exact id
  case greets =>
    rintro mode established debugger _ (rfl | ⟨unlinked, rfl⟩)
    · exact obeys_untrue _ fun _ _ => trivial
    · exact obeys_greet_untaken established stays other unlinked

/-! ## Calls -/

/-- Whatever is asked of a debugger: as long as it is told the truth its requests fit, and it agrees
with how far it has got in taking leave. -/
theorem abides_agrees (call : Call) :
    Abides (Leave.conduct (some call)) Agrees call.operation := by
  by_cases parts : call = .close ∨ call = .detach
  · rcases parts with rfl | rfl
    · exact abides_close_agrees nofun
    · exact abides_detach_agrees
  · have stays : some call ≠ some Call.close ∧ some call ≠ some Call.detach := by
      simpa [not_or] using parts
    refine (lenient_agrees stays).abides call (fun _ => yielding_agrees) ?_ (fun connects => ?_)
      (fun same => absurd (.inr same) parts) (fun same => absurd (.inl same) parts)
    · intro config continuation goes
      refine letsGoOn_agrees ?_ stays
      cases call with
      | configurationDone =>
          cases goes
          refine .inr ?_
          split <;> nofun
      | resume continuation =>
          cases goes
          exact .inl rfl
      | _ => cases goes
    · refine ⟨_, _, connects_agrees stays ?_⟩
      rintro same
      cases same
      cases connects

end Debugger

end DebugBridge
