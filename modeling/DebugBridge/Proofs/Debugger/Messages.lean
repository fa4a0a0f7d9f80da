import DebugBridge.Proofs.Debugger.Exchange

/-!
# What is said while the script has stopped

The engine is asked where the script has stopped, and for the values of the expressions in the
messages of the logpoints there.  What is exchanged and what comes of it depends on the answers alone:
one form of exchanges for each part of a message, for a message and for all of them.
-/

namespace DebugBridge

variable {σ τ : Type} {rule : AnswerRule σ}

namespace BreakpointTable

/-- The breakpoints that are bound to a place, none if it is not known. -/
def atPlace (table : BreakpointTable) : Option (String × Nat) → List Breakpoint
  | some (file, line) => table.atLine file line
  | none => []

/-- The breakpoints at a place that make the script stop there. -/
def blamed (table : BreakpointTable) (place : Option (String × Nat)) : List Breakpoint :=
  (table.atPlace place).filter fun breakpoint => breakpoint.kind.logMessage?.isNone

end BreakpointTable

/-- Whether an answer tells of an exception. -/
def Response.tellsException (response : Response) : Bool :=
  (Link.exceptionElement? response.element).isSome || response.reason?.getD .ok == .exception

/-! ## Commands -/

/-- What an operation makes of the answer to a command. -/
def heard : Except SessionError Response → Except DebugError (Except EngineError Response)
  | .ok response => .ok (.ok response)
  | .error (.engine error) => .ok (.error error)
  | .error error => .error (.session error)

theorem Operation.attempt_recorded (command : Command) (state : τ) (world : σ)
    (exchanges : List Exchange) :
    (attempt command).Ensures rule.recorded state (world, exchanges) fun result after last =>
      after = state ∧ ∃ answer, result = heard answer ∧
        last.2 = exchanges ++ [⟨.submit command none, answer⟩] := by
  rw [attempt, ensures_bind, ensures_ask]
  dsimp only [AnswerRule.recorded]
  rcases (rule (.submit command none) world).1 with (error | response)
  · cases error with
    | engine error => exact (ensures_pure _).2 ⟨rfl, _, rfl, rfl⟩
    | _ => exact (ensures_throw _).2 ⟨rfl, _, rfl, rfl⟩
  · exact (ensures_pure _).2 ⟨rfl, _, rfl, rfl⟩

/-- A command that has to succeed fails as the answer to it does. -/
theorem Operation.command_mapError (command : Command) (state : τ) (world : σ)
    (exchanges : List Exchange) :
    (Operation.command command).Ensures rule.recorded state (world, exchanges)
      fun result after last => after = state ∧ ∃ answer : Except SessionError Response,
        result = answer.mapError DebugError.ofSession ∧
          last.2 = exchanges ++ [⟨.submit command none, answer⟩] := by
  refine (ensures_bind _ _).2 ((attempt_recorded command state world exchanges).mono ?_)
  rintro _ state last ⟨rfl, answer, rfl, told⟩
  rcases answer with (error | response)
  · cases error with
    | engine error => exact (ensures_throw _).2 ⟨rfl, _, rfl, told⟩
    | _ => exact ⟨rfl, _, rfl, told⟩
  · exact (ensures_pure _).2 ⟨rfl, _, rfl, told⟩

namespace Link

open Operation

variable {link : Link} {world : σ} {exchanges : List Exchange}

/-! ## Messages -/

/-- The command that asks for the value of an expression where the script has stopped. -/
def valueCommand (source : String) : Command :=
  ((Command.named "property_get").argNat 'd' 0).arg 'n' source

/-- What stands for an expression in a message: the value of the first property that the engine tells
of, nothing if it tells of none, and its own words if it refuses. -/
def shown : Except SessionError Response → Except DebugError String
  | .ok response =>
    match response.properties with
    | .ok [] => .ok ""
    | .ok (property :: _) => .ok property.displayValue
    | .error error => .error (.session (.protocol error))
  | .error (.engine error) => .ok ("<" ++ error.text ++ ">")
  | .error error => .error (.session error)

/-- What is exchanged for a part of a message, and what stands for it. -/
inductive Word : LogSegment → List Exchange → Except DebugError String → Prop
  | text (content : String) : Word (.text content) [] (.ok content)
  | expression (source : String) (answer : Except SessionError Response) :
      Word (.expression source) [⟨.submit (valueCommand source) none, answer⟩] (shown answer)

/-- What is exchanged for the parts of a message, and what stands for all of them. -/
inductive Words : List LogSegment → List Exchange → Except DebugError String → Prop
  | nil : Words [] [] (.ok "")
  | cons {segment : LogSegment} {segments : List LogSegment} {asked more : List Exchange}
      {text : String} {result : Except DebugError String} (first : Word segment asked (.ok text))
      (rest : Words segments more result) :
      Words (segment :: segments) (asked ++ more) (result.map (text ++ ·))
  | failed {segment : LogSegment} (segments : List LogSegment) {asked : List Exchange}
      {error : DebugError} (first : Word segment asked (.error error)) :
      Words (segment :: segments) asked (.error error)

/-- What is exchanged for messages: each is printed once all that stands in it is known. -/
inductive Spoken : List String → List Exchange → Except DebugError Unit → Prop
  | nil : Spoken [] [] (.ok ())
  | cons {message : String} {messages : List String} {asked more : List Exchange} {text : String}
      {result : Except DebugError Unit} (words : Words (LogMessage.parse message) asked (.ok text))
      (rest : Spoken messages more result) :
      Spoken (message :: messages)
        (asked ++ ⟨.report (.message (endedLine text)), ()⟩ :: more) result
  | failed {message : String} (messages : List String) {asked : List Exchange} {error : DebugError}
      (words : Words (LogMessage.parse message) asked (.error error)) :
      Spoken (message :: messages) asked (.error error)

theorem segmentText_word (segment : LogSegment) :
    (segmentText segment).Ensures rule.recorded link (world, exchanges) fun result after last =>
      after = link ∧ ∃ asked, last.2 = exchanges ++ asked ∧ Word segment asked result := by
  cases segment with
  | text content => exact (ensures_pure _).2 ⟨rfl, [], (List.append_nil _).symm, .text content⟩
  | expression source =>
      refine (ensures_bind _ _).2 ((attempt_recorded _ link world exchanges).mono ?_)
      rintro _ link last ⟨rfl, answer, rfl, told⟩
      have word := Word.expression source answer
      rcases answer with (error | response)
      · cases error with
        | engine error => exact (ensures_pure _).2 ⟨rfl, _, told, word⟩
        | _ => exact ⟨rfl, _, told, word⟩
      · refine (ensures_bind _ _).2 ?_
        rw [shown] at word
        cases read : response.properties with
        | error error =>
            rw [read] at word
            exact (ensures_throw _).2 ⟨rfl, _, told, word⟩
        | ok properties =>
            rw [read] at word
            refine (ensures_pure _).2 ((ensures_pure _).2 ⟨rfl, _, told, ?_⟩)
            cases properties <;> exact word

theorem segmentsText_words (segments : List LogSegment) :
    (segmentsText segments).Ensures rule.recorded link (world, exchanges) fun result after last =>
      after = link ∧ ∃ asked, last.2 = exchanges ++ asked ∧ Words segments asked result := by
  induction segments generalizing world exchanges with
  | nil => exact (ensures_pure _).2 ⟨rfl, [], (List.append_nil _).symm, .nil⟩
  | cons segment segments ih =>
      refine (ensures_bind _ _).2 ((segmentText_word segment).mono ?_)
      rintro (error | text) link ⟨world, _⟩ ⟨rfl, asked, rfl, first⟩
      · exact ⟨rfl, asked, rfl, .failed segments first⟩
      refine (ensures_bind _ _).2 (ih.mono ?_)
      rintro result link ⟨world, _⟩ ⟨rfl, more, rfl, rest⟩
      have told := List.append_assoc exchanges asked more
      cases result with
      | error error => exact ⟨rfl, _, told, .cons first rest⟩
      | ok others => exact (ensures_pure _).2 ⟨rfl, _, told, .cons first rest⟩

theorem printMessages_spoken (messages : List String) :
    (printMessages messages).Ensures rule.recorded link (world, exchanges) fun result after last =>
      after = link ∧ ∃ said, last.2 = exchanges ++ said ∧ Spoken messages said result := by
  induction messages generalizing world exchanges with
  | nil => exact (ensures_pure _).2 ⟨rfl, [], (List.append_nil _).symm, .nil⟩
  | cons message messages ih =>
      refine (ensures_bind _ _).2 ((segmentsText_words _).mono ?_)
      rintro (error | text) link ⟨world, _⟩ ⟨rfl, asked, rfl, words⟩
      · exact ⟨rfl, asked, rfl, .failed messages words⟩
      refine (ensures_bind _ _).2 (ensures_ask.2 (ih.mono ?_))
      rintro result link ⟨world, _⟩ ⟨rfl, more, rfl, rest⟩
      refine ⟨rfl, _, ?_, .cons words rest⟩
      rw [List.append_assoc, List.append_assoc, List.singleton_append]

/-! ## Places -/

/-- The command that asks for the innermost frame. -/
def placeCommand : Command := (Command.named "stack_get").argNat 'd' 0

/-- The place that the engine tells of when it is asked for the innermost frame. -/
def placeOf : Except SessionError Response → Option (String × Nat)
  | .ok response => response.frames.head?.map fun frame => (Uri.toPath frame.fileUri, frame.line)
  | .error _ => none

/-- What is found where the script has stopped, at a place. -/
def stopAt (table : BreakpointTable) (response : Response) (state : RunState)
    (reason : StatusReason) (place : Option (String × Nat)) : Stop where
  status :=
    { state, reason, stopReason := none, location := place
      hitBreakpointIds := (table.blamed place).map Breakpoint.id
      exceptionMessage :=
        (exceptionElement? response.element).map fun element => Text.trimmed element.text }
  isException := (exceptionElement? response.element).isSome || reason == .exception
  messages := (table.atPlace place).filterMap fun breakpoint => breakpoint.kind.logMessage?
  hits := table.blamed place

theorem topLocation?_heard :
    topLocation?.Ensures rule.recorded link (world, exchanges) fun result after last =>
      after = link ∧ ∃ answer, result = (heard answer).map (fun _ => placeOf answer) ∧
        last.2 = exchanges ++ [⟨.submit placeCommand none, answer⟩] := by
  refine (ensures_bind _ _).2 ((attempt_recorded _ link world exchanges).mono ?_)
  rintro _ link last ⟨rfl, answer, rfl, told⟩
  rcases answer with (error | response)
  · cases error with
    | engine error => exact (ensures_pure _).2 ⟨rfl, _, rfl, told⟩
    | _ => exact ⟨rfl, _, rfl, told⟩
  · exact (ensures_pure _).2 ⟨rfl, _, rfl, told⟩

theorem findStop_heard (response : Response) (state : RunState) (reason : StatusReason) :
    (findStop response state reason).Ensures rule.recorded link (world, exchanges)
      fun result after last => after = link ∧
        ∃ answer, result = (heard answer).map (fun _ =>
            stopAt link.breakpoints response state reason (placeOf answer)) ∧
          last.2 = exchanges ++ [⟨.submit placeCommand none, answer⟩] := by
  refine (ensures_bind _ _).2 (topLocation?_heard.mono ?_)
  rintro _ link last ⟨rfl, answer, rfl, told⟩
  cases reply : heard answer with
  | error error => exact ⟨rfl, answer, by rw [reply]; rfl, told⟩
  | ok =>
      refine (ensures_bind _ _).2 (ensures_get.2 ((ensures_pure _).2 ⟨rfl, answer, ?_, told⟩))
      rw [reply]
      refine congrArg Except.ok ?_
      cases placeOf answer <;> simp [stopAt, BreakpointTable.blamed, BreakpointTable.atPlace]

end Link
end DebugBridge
