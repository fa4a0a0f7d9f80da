import DebugBridge.Proofs.Debugger.Tolerance

/-!
# What is set up for a script

To debug a script the interpreter may be started, engines may be waited for, a connection is made,
and once the engine has greeted the session is supervised.  How far this has got can be told from
what the debugger has exchanged.  Whatever is answered, each request is made only where it fits, so
that nothing is set up twice and the debugger reports the end only of what is not supervised; and
whenever a call is over, what it has set up is either in use or has been given back.
-/

namespace DebugBridge

variable {α : Type}

/-! ## What an exchange says -/

namespace Exchange

/-- Engines are waited for from now on. -/
def listens : Exchange → Bool
  | ⟨.listen _ _, .ok _⟩ => true
  | _ => false

/-- The interpreter was started. -/
def starts : Exchange → Bool
  | ⟨.spawn _, true⟩ => true
  | _ => false

/-- A connection to an engine was made. -/
def connects : Exchange → Bool
  | ⟨.awaitEngine _ _, .connected⟩ => true
  | ⟨.connect _ _, true⟩ => true
  | _ => false

/-- The engine has greeted. -/
def greets : Exchange → Bool
  | ⟨.awaitInit _, .init _⟩ => true
  | _ => false

/-- The session is supervised from now on. -/
def supervises : Exchange → Bool
  | ⟨.supervise _ _, _⟩ => true
  | _ => false

/-- The end of the session has been reported. -/
def awaits : Exchange → Bool
  | ⟨.awaitEnd, _⟩ => true
  | _ => false

/-- The interpreter is ended. -/
def kills : Exchange → Bool
  | ⟨.kill, _⟩ => true
  | _ => false

/-- The script is let go. -/
def letsGo : Exchange → Bool
  | ⟨.letGo, _⟩ => true
  | _ => false

/-- The event that is reported, if one is. -/
def report? : Exchange → Option DebugEvent
  | ⟨.report event, _⟩ => some event
  | _ => none

end Exchange

/-- Whether an event tells of the end of the interpreter. -/
def DebugEvent.isProcessClose : DebugEvent → Bool
  | .processClose _ => true
  | _ => false

/-- Whether an event tells that engines are waited for no longer. -/
def DebugEvent.isServerClose : DebugEvent → Bool
  | .serverClose => true
  | _ => false

/-- Whether an event tells of the end of something that was set up. -/
def DebugEvent.isFarewell : DebugEvent → Bool
  | .processClose _ | .socketClose | .serverClose => true
  | _ => false

/-! ## How far it has got -/

/-- How far a debugger has got. -/
structure Setup where
  /-- Whether engines are waited for, or were. -/
  listening : Bool
  /-- Whether the interpreter was started. -/
  started : Bool
  /-- Whether a connection was made. -/
  connected : Bool
  /-- Whether the engine has greeted. -/
  greeted : Bool
  /-- Whether the session is supervised. -/
  supervised : Bool
  /-- Whether that the end of the supervised session is reported has been awaited. -/
  awaited : Bool
  /-- Whether the debugger has reported the end of the interpreter. -/
  exited : Bool
  /-- Whether it has reported that engines are waited for no longer. -/
  released : Bool
  /-- Whether it has ended the interpreter without having reported that, nobody supervising the
  session. -/
  gaveUp : Bool
  deriving DecidableEq

namespace Setup

/-- Nothing has been set up. -/
def blank : Setup :=
  { listening := false, started := false, connected := false, greeted := false
    supervised := false, awaited := false, exited := false, released := false, gaveUp := false }

/-- How far it has got after an exchange. -/
def next (setup : Setup) (exchange : Exchange) : Setup where
  listening := setup.listening || exchange.listens
  started := setup.started || exchange.starts
  connected := setup.connected || exchange.connects
  greeted := setup.greeted || exchange.greets
  supervised := setup.supervised || exchange.supervises
  awaited := setup.awaited || exchange.awaits && setup.supervised
  exited := setup.exited || exchange.report?.any DebugEvent.isProcessClose
  released := setup.released || exchange.report?.any DebugEvent.isServerClose
  gaveUp := setup.gaveUp || exchange.kills && !setup.supervised && !setup.exited

/-- Whether a request fits. -/
def Allows (setup : Setup) : Request → Prop
  | .listen _ _ => setup.listening = false ∧ setup.supervised = false
  | .spawn _ => setup.started = false ∧ setup.supervised = false
  | .awaitEngine _ _ | .connect _ _ => setup.connected = false ∧ setup.supervised = false
  | .awaitInit _ => setup.greeted = false ∧ setup.supervised = false
  | .supervise launched listening =>
    setup.greeted = true ∧ setup.supervised = false ∧ setup.exited = false ∧
      setup.released = false ∧ launched = setup.started ∧ listening = setup.listening
  | .report (.processClose _) =>
    setup.started = true ∧ setup.supervised = false ∧ setup.exited = false
  | .report .serverClose =>
    setup.listening = true ∧ setup.supervised = false ∧ setup.released = false
  | .report .socketClose => False
  | _ => True

/-- The rule that requests fit. -/
def conduct : Conduct Setup where
  allows := Allows
  next := next

/-- Whether what was set up has been given back: its end was awaited, or if nobody supervises it, it
was reported, unless the debugger has given up. -/
def isSettled (setup : Setup) : Bool :=
  if setup.supervised then setup.awaited
  else (!setup.listening || setup.released) && (!setup.started || setup.exited || setup.gaveUp) &&
    (!(setup.started && setup.connected) || setup.gaveUp)

/-- How far it has got when a connection has been made and the engine has not greeted. -/
def opened (listening started connected : Bool) : Setup :=
  { blank with listening, started, connected }

variable {setup : Setup}

theorem next_of_isPlain {request : Request} (plain : request.isPlain = true)
    (answer : request.Answer) : setup.next ⟨request, answer⟩ = setup := by
  obtain ⟨listening, started, connected, greeted, supervised, awaited, exited, released, gaveUp⟩ :=
    setup
  unfold Request.isPlain at plain
  split at plain
  case h_5 => cases plain
  all_goals
    simp [next, Exchange.listens, Exchange.starts, Exchange.connects, Exchange.greets,
        Exchange.supervises, Exchange.awaits, Exchange.kills, Exchange.report?,
        DebugEvent.isProcessClose, DebugEvent.isServerClose]

theorem allows_of_isPlain {request : Request} (plain : request.isPlain = true) :
    setup.Allows request := by
  unfold Request.isPlain at plain
  split at plain
  case h_5 => cases plain
  all_goals trivial

theorem plain (setup : Setup) (request : Request) (plain : request.isPlain = true) :
    conduct.allows setup request ∧ ∀ answer, conduct.next setup ⟨request, answer⟩ = setup :=
  ⟨allows_of_isPlain plain, next_of_isPlain plain⟩

end Setup

namespace Debugger

open Operation

variable {known other : Link → Prop} {debugger : Debugger} {setup : Setup}

/-- Something that holds of what is known of an engine whatever the engine can do and whatever
breakpoints there are. -/
structure Steady (known : Link → Prop) : Prop where
  features {link : Link} (features : EngineFeatures) (holds : known link) :
    known { link with features }
  breakpoints {link : Link} (breakpoints : BreakpointTable) (holds : known link) :
    known { link with breakpoints }

/-- The phase of a debugger and what it knows of an engine agree with how far it has got. -/
structure Sound (known : Link → Prop) (debugger : Debugger) (setup : Setup) : Prop where
  idle (idle : debugger.phase = .idle) : debugger.link = none ∧ setup = .blank
  connected {state : RunState} (connected : debugger.phase = .connected state) :
    debugger.link.isSome = true
  linked {link : Link} (linked : debugger.link = some link) :
    known link ∧ setup.supervised = true
  parted (parted : debugger.link = none) : setup.isSettled = true

theorem sound_new (config : DebugConfig) (host : Host) :
    Sound known (.new config host) .blank where
  idle _ := ⟨rfl, rfl⟩
  connected connected := by cases connected
  linked linked := by cases linked
  parted _ := rfl

/-! ## What is of no consequence -/

/-- Whatever is done with what is known of the engine, and whatever phase comes of that, the
debugger stays sound. -/
theorem Sound.moved {link after : Link} {phase : Phase} (sound : Sound known debugger setup)
    (linked : debugger.link = some link) (busy : phase = .idle → debugger.phase = .idle)
    (holds : other after) : Sound other { debugger with phase, link := some after } setup where
  idle idle := by cases linked.symm.trans (sound.idle (busy idle)).1
  connected _ := rfl
  linked same := by
    cases same
    exact ⟨holds, (sound.linked linked).2⟩
  parted parted := by cases parted

theorem asks_of_isPlain (sound : Sound known debugger setup) {request : Request}
    (plain : request.isPlain = true) : Setup.conduct.allows setup request ∧
      ∀ answer, Sound known debugger (Setup.conduct.next setup ⟨request, answer⟩) := by
  obtain ⟨allows, same⟩ := setup.plain request plain
  exact ⟨allows, fun answer => (same answer).symm ▸ sound⟩

/-- Whether everything fits does not depend on what an engine can do and which breakpoints there
are. -/
theorem lenient (steady : Steady known) : Lenient Setup.conduct (Sound known) where
  quiet sound _ quiet := asks_of_isPlain sound (Request.isPlain_of_isQuiet quiet)
  features sound linked features :=
    sound.moved linked id (steady.features features (sound.linked linked).1)
  breakpoints sound linked breakpoints :=
    sound.moved linked id (steady.breakpoints breakpoints (sound.linked linked).1)

/-- Nor does it depend on how the script goes on, if nothing else is to be known of an engine. -/
theorem yielding (all : ∀ link, known link) : Yielding (Sound known) where
  moved sound linked busy _ := sound.moved linked busy (all _)

theorem letsGoOn (continuation : Continuation) :
    LetsGoOn Setup.conduct (Sound known) continuation :=
  fun sound => ⟨(asks_of_isPlain sound rfl).1, trivial, (asks_of_isPlain sound rfl).2⟩

/-! ## Parting -/

/-- To part from an engine whose session is supervised. -/
theorem obeys_shutdown (link : Link) (supervised : setup.supervised = true) :
    (shutdown link : DebuggerOperation Unit).Obeys Setup.conduct debugger setup
      fun _ after setup => after = debugger ∧ setup.supervised = true ∧ setup.awaited = true := by
  have ending {setup : Setup} (supervised : setup.supervised = true) :
      Operation.Obeys Setup.conduct (do
        Operation.ask .awaitEnd
        if link.launched && !(← Operation.ask .isLetGo) then Operation.ask .kill :
          DebuggerOperation Unit) debugger setup
        fun _ after setup =>
          after = debugger ∧ setup.supervised = true ∧ setup.awaited = true := by
    refine obeys_ask_bind.2 ⟨trivial, fun _ => ?_⟩
    refine obeys_ask_bind.2 ⟨trivial, fun (letGo : Bool) => ?_⟩
    dsimp only [Setup.conduct]
    split
    · refine ⟨trivial, fun _ => ⟨rfl, ?_, ?_⟩⟩
      · simp [Setup.next, supervised]
      · simp [Setup.next, Exchange.awaits, supervised]
    · refine ⟨rfl, ?_, ?_⟩
      · simp [Setup.next, supervised]
      · simp [Setup.next, Exchange.awaits, supervised]
  have next (exchange : Exchange) {setup : Setup} (supervised : setup.supervised = true) :
      (setup.next exchange).supervised = true := by simp [Setup.next, supervised]
  refine obeys_ask_bind.2 ⟨trivial, fun (closed : Bool) => ?_⟩
  dsimp only [Setup.conduct]
  split
  · refine obeys_ask_bind.2 ⟨trivial, fun (letGo : Bool) => ?_⟩
    dsimp only
    split
    · refine obeys_ask_bind.2 ⟨trivial, fun _ => obeys_ask_bind.2 ⟨trivial, fun _ => ?_⟩⟩
      exact ending (next _ (next _ (next _ (next _ supervised))))
    · refine obeys_ask_bind.2 ⟨trivial, fun _ => obeys_ask_bind.2 ⟨trivial, fun _ => ?_⟩⟩
      exact ending (next _ (next _ (next _ (next _ supervised))))
  · exact ending (next _ supervised)

/-- A debugger that has parted from an engine is sound. -/
theorem sound_parted (parted : debugger.link = none) (closed : debugger.phase = .closed)
    (settled : setup.isSettled = true) : Sound known debugger setup where
  idle idle := by cases closed.symm.trans idle
  connected connected := by cases closed.symm.trans connected
  linked linked := by cases parted.symm.trans linked
  parted _ := settled

theorem settled_of_awaited (supervised : setup.supervised = true)
    (awaited : setup.awaited = true) : setup.isSettled = true := by
  unfold Setup.isSettled
  rw [if_pos supervised]
  exact awaited

theorem abides_close : Abides Setup.conduct (Sound known) close := by
  intro debugger setup sound
  refine (obeys_bind _ _).2 (obeys_get.2 ((obeys_bind _ _).2 ((obeys_set _).2 ?_)))
  dsimp only
  cases linked : debugger.link with
  | none => exact sound_parted rfl rfl (sound.parted linked)
  | some link =>
      refine (obeys_shutdown link (sound.linked linked).2).mono ?_
      rintro _ _ setup ⟨rfl, supervised, awaited⟩
      exact sound_parted rfl rfl (settled_of_awaited supervised awaited)

theorem abides_detach (steady : Steady known) :
    Abides Setup.conduct (Sound known) detach := by
  refine (abides_connectedState (abides_ask (lenient steady) rfl) _).bind fun _ =>
    abides_knownLink_bind fun debugger setup link sound linked => ?_
  refine obeys_ask_bind.2 ⟨trivial, fun _ => ?_⟩
  refine obeys_ask_bind.2 ⟨trivial, fun (answer : Except SessionError Unit) => ?_⟩
  refine (obeys_bind _ _).2 ((obeys_modify _).2 ?_)
  have supervised := (sound.linked linked).2
  refine (obeys_bind _ _).2 ((obeys_shutdown link ?_).mono ?_)
  · simp [Setup.conduct, Setup.next, supervised]
  · rintro result _ setup ⟨rfl, supervised, awaited⟩
    have parted : Sound known { debugger with phase := .closed, link := none } setup :=
      sound_parted rfl rfl (settled_of_awaited supervised awaited)
    cases result with
    | error error => exact parted
    | ok value => cases answer <;> exact parted

/-! ## Connecting -/

/-- How far a debugger has got that was to be connected in some way. -/
def Reached : Except DebugError Established → Setup → Prop
  | .ok established, setup => setup = .opened established.listening established.launched true
  | .error _, setup => setup.isSettled = true

theorem obeys_spawn (arguments : List String) (listening : Bool) :
    (spawn arguments).Obeys Setup.conduct debugger (.opened listening false false)
      fun result after setup => after = debugger ∧
        setup = .opened listening
          (match result with | .ok _ => true | .error _ => false) false := by
  refine (obeys_bind _ _).2 (obeys_get.2 (obeys_ask_bind.2 ⟨⟨rfl, rfl⟩, fun started => ?_⟩))
  cases started <;> cases listening <;> exact ⟨rfl, rfl⟩

theorem obeys_listen :
    listen.Obeys Setup.conduct debugger .blank fun result after setup => after = debugger ∧
      setup = .opened (match result with | .ok _ => true | .error _ => false) false false := by
  refine (obeys_bind _ _).2 (obeys_get.2 (obeys_ask_bind.2 ⟨⟨rfl, rfl⟩, fun answer => ?_⟩))
  rcases answer with (fault | address) <;> exact ⟨rfl, rfl⟩

theorem obeys_launchListening :
    launchListening.Obeys Setup.conduct debugger .blank fun result after setup =>
      after = debugger ∧ Reached result setup := by
  refine (obeys_bind _ _).2 (obeys_get.2 ((obeys_bind _ _).2 (obeys_listen.mono ?_)))
  rintro (error | address) _ _ ⟨rfl, rfl⟩
  · exact ⟨rfl, rfl⟩
  refine (obeys_bind _ _).2 ((obeys_tryCatch _ _).2 ((obeys_spawn _ true).mono ?_))
  rintro (error | _) _ _ ⟨rfl, rfl⟩
  · refine obeys_ask_bind.2 ⟨⟨rfl, rfl, rfl⟩, fun _ => ?_⟩
    exact ⟨rfl, rfl⟩
  refine obeys_ask_bind.2 ⟨⟨rfl, rfl⟩, fun (arrival : Arrival) => ?_⟩
  cases arrival with
  | connected => exact ⟨rfl, rfl⟩
  | timedOut | refused =>
      refine obeys_ask_bind.2 ⟨trivial, fun _ => obeys_ask_bind.2 ⟨⟨rfl, rfl, rfl⟩, fun _ => ?_⟩⟩
      exact ⟨rfl, rfl⟩
  | exited code =>
      refine obeys_ask_bind.2 ⟨⟨rfl, rfl, rfl⟩, fun _ => obeys_ask_bind.2 ⟨trivial, fun _ => ?_⟩⟩
      refine obeys_ask_bind.2 ⟨⟨rfl, rfl, rfl⟩, fun _ => ?_⟩
      exact ⟨rfl, rfl⟩

theorem obeys_dial (deadline attempts : Nat) :
    (dial deadline attempts).Obeys Setup.conduct debugger (.opened false true false)
      fun result after setup => after = debugger ∧ Reached result setup := by
  induction attempts with
  | zero => exact obeys_stuck.2 trivial
  | succ attempts ih =>
      refine (obeys_bind _ _).2 (obeys_get.2 ?_)
      refine obeys_ask_bind.2 ⟨⟨rfl, rfl⟩, fun (connected : Bool) => ?_⟩
      cases connected with
      | true => exact ⟨rfl, rfl⟩
      | false =>
          refine obeys_ask_bind.2 ⟨trivial, fun (exit : Option (Option Int)) => ?_⟩
          cases exit with
          | some code =>
              refine obeys_ask_bind.2 ⟨⟨rfl, rfl, rfl⟩, fun _ => ?_⟩
              exact ⟨rfl, rfl⟩
          | none =>
              refine obeys_ask_bind.2 ⟨trivial, fun (time : Nat) => ?_⟩
              split
              · refine obeys_ask_bind.2 ⟨trivial, fun _ => ?_⟩
                exact ⟨rfl, rfl⟩
              · exact obeys_ask_bind.2 ⟨trivial, fun _ => ih⟩

theorem obeys_launchConnecting :
    launchConnecting.Obeys Setup.conduct debugger .blank fun result after setup =>
      after = debugger ∧ Reached result setup := by
  refine (obeys_bind _ _).2 (obeys_get.2 ((obeys_bind _ _).2 ((obeys_spawn _ false).mono ?_)))
  rintro (error | _) _ _ ⟨rfl, rfl⟩
  · exact ⟨rfl, rfl⟩
  · exact obeys_ask_bind.2 ⟨trivial, fun _ => obeys_dial _ _⟩

theorem obeys_postRequest (address : SocketAddress) :
    (postRequest address).Obeys Setup.conduct debugger (.opened true false false)
      fun _ after setup => after = debugger ∧ setup = .opened true false false := by
  refine (obeys_bind _ _).2 (obeys_get.2 ?_)
  dsimp only
  split
  · exact ⟨rfl, rfl⟩
  · refine obeys_ask_bind.2 ⟨trivial, fun (outcome : HelperOutcome) => ?_⟩
    cases outcome with
    | notStarted | broken | stuck => exact ⟨rfl, rfl⟩
    | ended code output =>
        dsimp only
        split <;> exact ⟨rfl, rfl⟩

theorem obeys_attachListening :
    attachListening.Obeys Setup.conduct debugger .blank fun result after setup =>
      after = debugger ∧ Reached result setup := by
  refine (obeys_bind _ _).2 (obeys_get.2 ((obeys_bind _ _).2 (obeys_listen.mono ?_)))
  rintro (error | address) _ _ ⟨rfl, rfl⟩
  · exact ⟨rfl, rfl⟩
  have released (debugger : Debugger) (error : DebugError) :
      Operation.Obeys Setup.conduct (do release; throw error : DebuggerOperation Established)
        debugger (.opened true false false) fun result after setup =>
          after = debugger ∧ Reached result setup :=
    obeys_ask_bind.2 ⟨⟨rfl, rfl, rfl⟩, fun _ => ⟨rfl, rfl⟩⟩
  refine (obeys_bind _ _).2 ((obeys_tryCatch _ _).2 ((obeys_bind _ _).2
    ((obeys_postRequest address).mono ?_)))
  rintro (error | _) _ _ ⟨rfl, rfl⟩
  · exact released _ _
  refine obeys_ask_bind.2 ⟨⟨rfl, rfl⟩, fun (arrival : Arrival) => ?_⟩
  cases arrival with
  | connected => exact ⟨rfl, rfl⟩
  | timedOut | refused | exited => exact released _ _

/-- A connection is given up whose engine has not greeted. -/
theorem obeys_abandon (established : Established) (connected : Bool) (error : DebugError) :
    (abandon established error).Obeys Setup.conduct debugger
      (.opened established.listening established.launched connected) fun _ after setup =>
        after = { debugger with phase := .closed } ∧ setup.isSettled = true := by
  obtain ⟨launched, listening⟩ := established
  refine (obeys_bind _ _).2 ((obeys_modify _).2 (obeys_ask_bind.2 ⟨trivial, fun _ => ?_⟩))
  cases launched <;> cases listening
  · exact ⟨rfl, rfl⟩
  · exact obeys_ask_bind.2 ⟨⟨rfl, rfl, rfl⟩, fun _ => ⟨rfl, rfl⟩⟩
  · exact obeys_ask_bind.2 ⟨trivial, fun _ => ⟨rfl, by cases connected <;> rfl⟩⟩
  · refine obeys_ask_bind.2 ⟨trivial, fun _ => obeys_ask_bind.2 ⟨⟨rfl, rfl, rfl⟩, fun _ => ?_⟩⟩
    exact ⟨rfl, by cases connected <;> rfl⟩

/-- The greeting is waited for, and a debugger that fails to prepare the engine parts from it. -/
theorem obeys_greet (steady : Steady known) (fresh : ∀ link : Link,
      link.frameNumbers = .empty → link.scopeNumbers = .empty → known link)
    (mode : RequestKind) (established : Established) (connected : Bool)
    (unlinked : debugger.link = none) :
    (greet mode established).Obeys Setup.conduct debugger
      (.opened established.listening established.launched connected)
      fun _ after setup => Sound known after setup := by
  have abandoned (error : DebugError) (greeting : Greeting)
      (silent : Exchange.greets ⟨.awaitInit debugger.config.connectTimeout, greeting⟩ = false) :
      (abandon established error).Obeys Setup.conduct debugger
        ((Setup.opened established.listening established.launched connected).next
          ⟨.awaitInit debugger.config.connectTimeout, greeting⟩)
        fun _ after setup => Sound known after setup := by
    have same : (Setup.opened established.listening established.launched connected).next
        ⟨.awaitInit debugger.config.connectTimeout, greeting⟩ =
          .opened established.listening established.launched connected := by
      simp [Setup.next, Setup.opened, Setup.blank, silent, Exchange.listens, Exchange.starts,
        Exchange.connects, Exchange.supervises, Exchange.awaits, Exchange.kills, Exchange.report?]
    rw [same]
    refine (obeys_abandon established connected error).mono ?_
    rintro _ _ setup ⟨rfl, settled⟩
    exact sound_parted unlinked rfl settled
  refine (obeys_bind _ _).2 (obeys_get.2 ?_)
  refine obeys_ask_bind.2 ⟨⟨rfl, rfl⟩, fun (greeting : Greeting) => ?_⟩
  cases greeting with
  | failed error => exact abandoned _ (.failed error) rfl
  | timedOut => exact abandoned _ .timedOut rfl
  | init packet =>
      refine obeys_ask_bind.2 ⟨?_, fun _ => (obeys_bind _ _).2 ((obeys_modify _).2 ?_)⟩
      · simp [Setup.conduct, Setup.Allows, Setup.next, Setup.opened, Setup.blank, Exchange.listens,
          Exchange.starts, Exchange.greets, Exchange.supervises, Exchange.report?]
      refine ((abides_negotiate (lenient steady)).tryCatch
        fun error => abides_close.bind fun _ => .throw error) _ _ ?_
      refine ⟨fun idle => ?_, fun _ => rfl, fun linked => ?_, fun parted => ?_⟩
      · cases idle
      · cases linked
        exact ⟨fresh _ rfl rfl, rfl⟩
      · cases parted

/-- Nothing has been set up, and nothing is known of an engine. -/
def Begins (debugger : Debugger) (setup : Setup) : Prop := debugger.link = none ∧ setup = .blank

/-- A connection has been made, or there was one already, and nothing is known of an engine. -/
def ReachedBy (established : Established) (debugger : Debugger) (setup : Setup) : Prop :=
  debugger.link = none ∧
    ∃ connected, setup = .opened established.listening established.launched connected

theorem connects (steady : Steady known)
    (fresh : ∀ link : Link, link.frameNumbers = .empty → link.scopeNumbers = .empty → known link) :
    Connects Setup.conduct (Sound known) Begins fun _ => ReachedBy := by
  have arrives {debugger : Debugger} (unlinked : debugger.link = none)
      (result : Except DebugError Established) (after : Debugger) (setup : Setup)
      (reached : after = debugger ∧ Reached result setup) :
      Arrives (Sound known) ReachedBy result after setup := by
    obtain ⟨rfl, reached⟩ := reached
    cases result with
    | error error => exact sound_parted unlinked rfl reached
    | ok established => exact ⟨unlinked, true, reached⟩
  constructor
  case idle => exact fun sound idle _ => sound.idle idle
  case listens =>
    rintro debugger _ ⟨unlinked, rfl⟩
    exact obeys_launchListening.mono (arrives unlinked)
  case dials =>
    rintro debugger _ ⟨unlinked, rfl⟩
    exact obeys_launchConnecting.mono (arrives unlinked)
  case waits =>
    rintro debugger _ ⟨unlinked, rfl⟩
    exact obeys_attachListening.mono (arrives unlinked)
  case stands =>
    rintro debugger _ ⟨unlinked, rfl⟩
    exact ⟨unlinked, false, rfl⟩
  case greets =>
    rintro mode established debugger _ ⟨unlinked, connected, rfl⟩
    exact obeys_greet steady fresh mode established connected unlinked

/-! ## Calls -/

/-- Whatever is asked of a debugger, and whatever is answered, all its requests fit, and it stays
sound. -/
theorem abides_operation (call : Call) (steady : Steady known)
    (fresh : call.connects = true → ∀ link : Link,
      link.frameNumbers = .empty → link.scopeNumbers = .empty → known link)
    (all : call.usesNumbers = true → ∀ link, known link) :
    Abides Setup.conduct (Sound known) call.operation :=
  (lenient steady).abides call (fun uses => yielding (all uses))
    (fun _ continuation _ => letsGoOn continuation)
    (fun connecting => ⟨_, _, connects steady (fresh connecting)⟩)
    (fun _ => abides_detach steady) (fun _ => abides_close)

end Debugger

end DebugBridge
