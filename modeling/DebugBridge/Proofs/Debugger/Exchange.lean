import DebugBridge.Debugger.Execution
import DebugBridge.Proofs.Debugger.Operation

/-!
# What is exchanged

The requests of an operation with the answers to them.  From what has been exchanged one can tell
which state the engine reported last, where it said that the script had stopped, and which messages
were printed.
-/

namespace DebugBridge

/-- The engine's names for the commands that let the script go on. -/
def Continuation.names : List String :=
  [Continuation.continue, .next, .stepIn, .stepOut, .pause, .stop].map commandName

theorem Continuation.commandName_mem_names (continuation : Continuation) :
    continuation.commandName ∈ names := by
  cases continuation <;> simp [names]

/-- Whether the script is to go on, however long that takes. -/
def Request.resumes : Request → Bool
  | .submit command none => Continuation.names.contains command.name
  | _ => false

/-- A request with the answer to it. -/
structure Exchange where
  /-- The request. -/
  request : Request
  /-- The answer. -/
  answer : request.Answer

namespace Exchange

/-- The state that the engine reports when it was told to let the script go on, if it reports one
that is known. -/
def status? : Exchange → Option RunState
  | ⟨.submit command none, .ok response⟩ =>
    if Request.resumes (.submit command none) then response.status? else none
  | _ => none

/-- Where the script is, if the engine was asked for that. -/
def place? : Exchange → Option (Option (String × Nat))
  | ⟨.submit command none, answer⟩ =>
    if command.name = "stack_get" then
      match answer with
      | .ok response =>
        some (response.frames.head?.map fun frame => (Uri.toPath frame.fileUri, frame.line))
      | .error _ => some none
    else none
  | _ => none

/-- The message that is printed, if one is. -/
def printed? : Exchange → Option String
  | ⟨.report (.message text), _⟩ => some text
  | _ => none

theorem status?_eq_none {exchange : Exchange} (other : exchange.request.resumes = false) :
    exchange.status? = none := by
  unfold status?
  split
  · next command response =>
      rw [if_neg]
      exact Bool.not_eq_true _ ▸ other
  · rfl

end Exchange

/-- The states that the engine reported, in order. -/
def statuses (exchanges : List Exchange) : List RunState := exchanges.filterMap Exchange.status?

/-- The state that the engine reported last; of a script that has not begun it reports none. -/
def lastStatus (exchanges : List Exchange) : RunState :=
  (statuses exchanges).getLast?.getD .starting

/-- Where the script was when the engine was asked last. -/
def lastPlace? (exchanges : List Exchange) : Option (String × Nat) :=
  (exchanges.filterMap Exchange.place?).getLast?.join

@[simp]
theorem statuses_append (exchanges more : List Exchange) :
    statuses (exchanges ++ more) = statuses exchanges ++ statuses more :=
  List.filterMap_append

theorem statuses_concat_of_not_resumes {exchange : Exchange} (exchanges : List Exchange)
    (other : exchange.request.resumes = false) :
    statuses (exchanges ++ [exchange]) = statuses exchanges := by
  simp [statuses, Exchange.status?_eq_none other]

/-- What brings no report leaves the last one as it was. -/
theorem lastStatus_append_of_nil {exchanges more : List Exchange} (silent : statuses more = []) :
    lastStatus (exchanges ++ more) = lastStatus exchanges := by
  simp [lastStatus, silent]

/-- What brings a report brings the last one. -/
theorem lastStatus_append_of_some {exchanges more : List Exchange} {state : RunState}
    (told : (statuses more).getLast? = some state) : lastStatus (exchanges ++ more) = state := by
  simp [lastStatus, List.getLast?_append, told]

theorem getLast?_statuses_concat {exchange : Exchange} {state : RunState}
    (exchanges : List Exchange) (told : exchange.status? = some state) :
    (statuses (exchanges ++ [exchange])).getLast? = some state := by
  simp [statuses, told]

theorem lastPlace?_concat_of_place {exchange : Exchange} {place : Option (String × Nat)}
    (exchanges : List Exchange) (told : exchange.place? = some place) :
    lastPlace? (exchanges ++ [exchange]) = place := by
  simp [lastPlace?, told]

theorem lastPlace?_concat_of_other {exchange : Exchange} (exchanges : List Exchange)
    (other : exchange.place? = none) :
    lastPlace? (exchanges ++ [exchange]) = lastPlace? exchanges := by
  simp [lastPlace?, other]

/-- The place where the script was last is one that was told. -/
theorem lastPlace?_mem {exchanges : List Exchange} {place : String × Nat}
    (last : lastPlace? exchanges = some place) :
    some place ∈ exchanges.filterMap Exchange.place? :=
  List.mem_of_getLast? (Option.join_eq_some_iff.1 last)

variable {σ : Type} {rule : AnswerRule σ}

/-- The rule with a list of all that has been exchanged. -/
def AnswerRule.recorded (rule : AnswerRule σ) : AnswerRule (σ × List Exchange) :=
  fun request world =>
    ((rule request world.1).1, (rule request world.1).2,
      world.2 ++ [⟨request, (rule request world.1).1⟩])

end DebugBridge
