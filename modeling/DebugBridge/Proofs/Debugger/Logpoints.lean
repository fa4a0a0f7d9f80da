import DebugBridge.Proofs.Debugger.Blame

/-!
# Logpoints

Where a script that was to go on stops at nothing but logpoints, their messages are printed in the
order of their ids and the script goes on at once.  All that is exchanged until it stops for good is
a sequence of such visits and then the way in which it ends, and in each of them the answers of the
engine decide what is asked, printed and returned.
-/

namespace DebugBridge

variable {σ : Type} {rule : AnswerRule σ}

/-! ## Tables in order -/

namespace BreakpointTable

open Breakpoint

variable {context : ScriptContext} {table table' : BreakpointTable} {world after : σ}

/-- The breakpoints stand in the order of their ids. -/
def Sorted (table : BreakpointTable) : Prop :=
  table.breakpoints.Pairwise fun earlier later => earlier.id < later.id

/-- The breakpoints stand in the order of their ids, and later ones come after them. -/
structure Ordered (table : BreakpointTable) : Prop extends Numbered table where
  sorted : table.Sorted

theorem ordered_empty : Ordered .empty := ⟨numbered_empty, .nil⟩

theorem Ordered.create {request : BreakpointRequest} {result : Except DebugError Breakpoint}
    (ordered : Ordered table)
    (created : Created rule context request table world result table' after) : Ordered table' := by
  have numbered : Numbered table' := Numbered.move (.create created) ordered.toNumbered
  cases created with
  | failed => exact ⟨numbered, ordered.sorted⟩
  | made offered =>
      refine ⟨numbered, List.pairwise_append.2 ⟨ordered.sorted, List.pairwise_singleton _ _, ?_⟩⟩
      intro earlier member later last
      rw [List.mem_singleton.1 last, id_of_offered offered]
      exact ordered.ids_lt earlier member

theorem Ordered.remove {id : Nat} {result : Except DebugError (List Breakpoint)}
    (ordered : Ordered table) (removed : Removed rule id table world result table' after) :
    Ordered table' := by
  have fewer : Ordered (table.without id) :=
    ⟨ordered.without id, List.Pairwise.filter _ ordered.sorted⟩
  cases removed with
  | absent | refused | lost => exact ordered
  | forgotten | dropped | gone => exact fewer

/-- The order of tables whose breakpoints stand in the order of their ids. -/
def sortedOrder : Order σ where
  phase _ := True
  table := Ordered
  world _ := True

theorem sortedOrder_lasts : sortedOrder.Lasts rule where
  closed := trivial
  empty := ordered_empty
  ask _ _ := trivial
  create _ created ordered := ordered.create created
  remove removed ordered := ordered.remove removed

/-- In every story the breakpoints stand in the order of their ids. -/
theorem ordered_of_story {env : Environs σ} {start now : Debugger × σ}
    {chapters : List Debugger.Chapter} (story : Debugger.Story env start chapters now)
    (ordered : Ordered start.1.table) : Ordered now.1.table :=
  story.table_of_lasts sortedOrder_lasts (fun _ => trivial) (fun _ => trivial) ordered

/-- Some breakpoints are those at a place of which something holds, in the order of their ids. -/
structure Lists (table : BreakpointTable) (place : Option (String × Nat))
    (holds : Breakpoint → Prop) (breakpoints : List Breakpoint) : Prop where
  sorted : breakpoints.Pairwise fun earlier later => earlier.id < later.id
  mem_iff {breakpoint : Breakpoint} :
    breakpoint ∈ breakpoints ↔ breakpoint ∈ table.atPlace place ∧ holds breakpoint

theorem Sorted.lists (sorted : table.Sorted) (place : Option (String × Nat))
    (holds : Breakpoint → Bool) :
    table.Lists place (fun breakpoint => holds breakpoint = true)
      ((table.atPlace place).filter holds) where
  sorted := by
    cases place with
    | none => exact .nil
    | some place => exact (List.Pairwise.filter _ sorted).filter _
  mem_iff := List.mem_filter

end BreakpointTable

namespace Link

open Operation

variable {table : BreakpointTable} {continuation : Continuation}

/-! ## Visits -/

/-- One stop of a script: what the engine told, what was found there, and what was exchanged while
messages were printed. -/
structure Visit where
  /-- The answer to the command that let the script go on. -/
  response : Response
  /-- The answer to the question for the place. -/
  answer : Except SessionError Response
  /-- The logpoints at the place. -/
  logs : List Breakpoint
  /-- The other breakpoints there. -/
  others : List Breakpoint
  /-- What was exchanged for the messages. -/
  said : List Exchange

namespace Visit

variable {visit : Visit}

/-- All that was exchanged, from letting the script go on. -/
def trace (continuation : Continuation) (visit : Visit) : List Exchange :=
  resumed continuation (.ok visit.response) :: ⟨.submit placeCommand none, visit.answer⟩ ::
    visit.said

/-- The messages of the logpoints. -/
def messages (visit : Visit) : List String :=
  visit.logs.filterMap fun breakpoint => breakpoint.kind.logMessage?

/-- What is returned if the script stays there. -/
def status (visit : Visit) (why : StopReason) : ExecutionStatus where
  state := .break
  reason := visit.response.reason?.getD .ok
  stopReason := some why
  location := placeOf visit.answer
  hitBreakpointIds := visit.others.map Breakpoint.id
  exceptionMessage :=
    (exceptionElement? visit.response.element).map fun element => Text.trimmed element.text

/-- The engine reports a break and can be asked where; the breakpoints there are listed. -/
structure Stops (table : BreakpointTable) (visit : Visit) : Prop where
  status : visit.response.status? = some .break
  place : ∃ reply, heard visit.answer = .ok reply
  logs : table.Lists (placeOf visit.answer)
    (fun breakpoint => breakpoint.kind.logMessage?.isSome = true) visit.logs
  others : table.Lists (placeOf visit.answer)
    (fun breakpoint => breakpoint.kind.logMessage?.isNone = true) visit.others

/-- Messages are printed where a script that was to go on stops at a logpoint, without an
exception. -/
structure Speaks (continuation : Continuation) (visit : Visit) : Prop where
  continues : continuation = .continue
  calm : visit.response.tellsException = false
  logs : visit.logs ≠ []

/-- The messages are printed, and the script goes on at once: there is no other breakpoint. -/
structure Passes (table : BreakpointTable) (continuation : Continuation) (visit : Visit) :
    Prop where
  stops : visit.Stops table
  speaks : visit.Speaks continuation
  alone : visit.others = []
  spoken : Spoken visit.messages visit.said (.ok ())

/-- Why the script stays there: an exception comes before breakpoints, and these, if the script was
to go on, before the command itself. -/
inductive Explains (continuation : Continuation) (visit : Visit) : StopReason → Prop
  | exception (raised : visit.response.tellsException = true) :
      Explains continuation visit .exception
  | functionBreakpoint (calm : visit.response.tellsException = false)
      (continues : continuation = .continue) (some : visit.others ≠ [])
      (all : ∀ breakpoint ∈ visit.others, breakpoint.kind.isFunction = true) :
      Explains continuation visit .functionBreakpoint
  | breakpoint (calm : visit.response.tellsException = false) (continues : continuation = .continue)
      {breakpoint : Breakpoint} (found : breakpoint ∈ visit.others)
      (other : breakpoint.kind.isFunction = false) : Explains continuation visit .breakpoint
  | pause (calm : visit.response.tellsException = false)
      (paused : continuation = .pause ∨ continuation = .continue ∧ visit.others = []) :
      Explains continuation visit .pause
  | step (calm : visit.response.tellsException = false)
      (steps : continuation ≠ .continue ∧ continuation ≠ .pause) : Explains continuation visit .step

end Visit

/-- How it ends: what is exchanged last and what is returned. -/
inductive Ends (table : BreakpointTable) (continuation : Continuation) :
    List Exchange → Option (Except DebugError ExecutionStatus) → Prop
  /-- It has not ended. -/
  | unfinished : Ends table continuation [] none
  /-- The script cannot be let go on. -/
  | refused {answer : Except SessionError Response} {error : DebugError}
      (fails : answer.mapError DebugError.ofSession = .error error) :
      Ends table continuation [resumed continuation answer] (some (.error error))
  /-- The engine does not tell a state. -/
  | untold {response : Response} (status : response.status? = none) :
      Ends table continuation [resumed continuation (.ok response)]
        (some (.error (.session (.protocol (.missingAttribute "response" "status")))))
  /-- The engine tells another state than a break. -/
  | elsewhere {response : Response} {state : RunState} (status : response.status? = some state)
      (other : state ≠ .break) :
      Ends table continuation [resumed continuation (.ok response)]
        (some (.ok { state, reason := response.reason?.getD .ok, stopReason := none
                     location := none, hitBreakpointIds := [], exceptionMessage := none }))
  /-- The engine cannot be asked for the place. -/
  | unplaced {response : Response} {answer : Except SessionError Response} {error : DebugError}
      (status : response.status? = some .break) (fails : heard answer = .error error) :
      Ends table continuation
        [resumed continuation (.ok response), ⟨.submit placeCommand none, answer⟩]
        (some (.error error))
  /-- The script stays, and nothing is printed. -/
  | silent {visit : Visit} {why : StopReason} (stops : visit.Stops table)
      (quiet : ¬ visit.Speaks continuation) (nothing : visit.said = [])
      (explains : visit.Explains continuation why) :
      Ends table continuation (visit.trace continuation) (some (.ok (visit.status why)))
  /-- Messages are printed, and the script stays: there are other breakpoints. -/
  | joined {visit : Visit} {why : StopReason} (stops : visit.Stops table)
      (speaks : visit.Speaks continuation) (others : visit.others ≠ [])
      (spoken : Spoken visit.messages visit.said (.ok ()))
      (explains : visit.Explains continuation why) :
      Ends table continuation (visit.trace continuation) (some (.ok (visit.status why)))
  /-- What stands in a message cannot be found out. -/
  | interrupted {visit : Visit} {error : DebugError} (stops : visit.Stops table)
      (speaks : visit.Speaks continuation)
      (spoken : Spoken visit.messages visit.said (.error error)) :
      Ends table continuation (visit.trace continuation) (some (.error error))

/-! ## Until the script stops for good -/

/-- What is exchanged until the script stops for good: visits at which messages were printed, and
then the way in which it ends, unless it has gone on as often as it may. -/
def Journey (table : BreakpointTable) (continuation : Continuation) (turns : Nat)
    (outcome : Option (Except DebugError ExecutionStatus)) (exchanges : List Exchange) : Prop :=
  ∃ (visits : List Visit) (last : List Exchange),
    exchanges = visits.flatMap (Visit.trace continuation) ++ last ∧
      (∀ visit ∈ visits, visit.Passes table continuation) ∧ Ends table continuation last outcome ∧
        visits.length ≤ turns ∧ (visits.length = turns ↔ outcome = none)

theorem Journey.ended {turns : Nat} {outcome : Except DebugError ExecutionStatus}
    {exchanges : List Exchange} (ends : Ends table continuation exchanges (some outcome)) :
    Journey table continuation (turns + 1) (some outcome) exchanges :=
  ⟨[], exchanges, rfl, List.forall_mem_nil _, ends, Nat.zero_le _, by simp⟩

/-- One more visit comes before all others. -/
theorem Journey.cons {turns : Nat} {outcome : Option (Except DebugError ExecutionStatus)}
    {exchanges : List Exchange} {visit : Visit} (passes : visit.Passes table continuation)
    (told : Journey table continuation turns outcome exchanges) :
    Journey table continuation (turns + 1) outcome (visit.trace continuation ++ exchanges) := by
  obtain ⟨visits, last, rfl, all, ends, le, iff⟩ := told
  refine ⟨visit :: visits, last, ?_, List.forall_mem_cons.2 ⟨passes, all⟩, ends, ?_, ?_⟩
  · rw [List.flatMap_cons, List.append_assoc]
  · exact Nat.succ_le_succ le
  · rw [List.length_cons, Nat.add_right_cancel_iff, iff]

section Stop

variable {response : Response} {answer : Except SessionError Response} {said : List Exchange}

/-- The visit with what is found at the place that the engine tells of. -/
def visitAt (table : BreakpointTable) (response : Response) (answer : Except SessionError Response)
    (said : List Exchange) : Visit where
  response := response
  answer := answer
  logs := (table.atPlace (placeOf answer)).filter fun breakpoint =>
    breakpoint.kind.logMessage?.isSome
  others := table.blamed (placeOf answer)
  said := said

theorem stops_visitAt (sorted : table.Sorted) (status : response.status? = some .break)
    (place : ∃ reply, heard answer = .ok reply) :
    (visitAt table response answer said).Stops table where
  status := status
  place := place
  logs := sorted.lists _ _
  others := sorted.lists _ _

theorem messages_visitAt (state : RunState) (reason : StatusReason) (said : List Exchange) :
    (stopAt table response state reason (placeOf answer)).messages =
      (visitAt table response answer said).messages := by
  rw [stopAt, Visit.messages, visitAt, List.filterMap_filter]
  refine List.filterMap_congr fun breakpoint _ => ?_
  cases breakpoint.kind.logMessage? <;> rfl

theorem speaks_visitAt (state : RunState) (said : List Exchange) :
    speaks continuation (stopAt table response state (response.reason?.getD .ok)
        (placeOf answer)) = true ↔
      (visitAt table response answer said).Speaks continuation := by
  have nothing : (visitAt table response answer said).messages = [] ↔
      (visitAt table response answer said).logs = [] := by
    rw [Visit.messages, List.filterMap_eq_nil_iff, List.eq_nil_iff_forall_not_mem]
    refine forall₂_congr fun breakpoint member => ?_
    have logs : breakpoint.kind.logMessage?.isSome = true := (List.mem_filter.1 member).2
    rw [iff_false, ← ne_eq, ← Option.isSome_iff_ne_none]
    exact logs
  rw [speaks, messages_visitAt _ _ said, Bool.and_eq_true, Bool.and_eq_true, beq_iff_eq,
    Bool.not_eq_true', Bool.not_eq_true', ← Bool.not_eq_true (List.isEmpty _), List.isEmpty_iff,
    nothing]
  exact ⟨fun ⟨⟨continues, calm⟩, logs⟩ => ⟨continues, calm, logs⟩,
    fun ⟨continues, calm, logs⟩ => ⟨⟨continues, calm⟩, logs⟩⟩

theorem explains_visitAt (state : RunState) :
    (visitAt table response answer said).Explains continuation
      ((stopAt table response state (response.reason?.getD .ok) (placeOf answer)).reason
        continuation) := by
  have tells :
      (stopAt table response state (response.reason?.getD .ok) (placeOf answer)).isException =
        response.tellsException := rfl
  have hits : (stopAt table response state (response.reason?.getD .ok) (placeOf answer)).hits =
      (visitAt table response answer said).others := rfl
  unfold Stop.reason
  rw [tells, hits]
  split
  · next raised => exact .exception raised
  next calm =>
  rw [Bool.not_eq_true] at calm
  split
  · next goesOn =>
      rw [Bool.and_eq_true, beq_iff_eq, Bool.not_eq_true', List.isEmpty_eq_false_iff] at goesOn
      split
      · next all => exact .functionBreakpoint calm goesOn.1 goesOn.2 (List.all_eq_true.1 all)
      · next other =>
          rw [Bool.not_eq_true, List.all_eq_false] at other
          obtain ⟨breakpoint, found, other⟩ := other
          exact .breakpoint calm goesOn.1 found (Bool.not_eq_true _ ▸ other)
  · next stays =>
      rw [Bool.and_eq_true, beq_iff_eq, Bool.not_eq_true', List.isEmpty_eq_false_iff,
        not_and_not_right] at stays
      split
      · exact .pause calm (.inr ⟨rfl, stays rfl⟩)
      · exact .pause calm (.inl rfl)
      · next continues pauses => exact .step calm ⟨continues, pauses⟩

end Stop

/-- The turn in which the script stops for good is the way in which it ends. -/
theorem TurnDone.ended {link after : Link} {result : Except DebugError ExecutionStatus}
    {told : List Exchange} (turn : TurnDone continuation link (some result) after told)
    (sorted : link.breakpoints.Sorted) :
    Ends link.breakpoints continuation told (some result) := by
  cases turn with
  | refused fails => exact .refused fails
  | untold status => exact .untold status
  | elsewhere status other => exact .elsewhere status other
  | unplaced status fails => exact .unplaced status fails
  | interrupted halts logs spoken =>
      obtain ⟨status, told, rfl⟩ := halts
      rw [messages_visitAt _ _ _] at spoken
      exact .interrupted (stops_visitAt sorted status told) ((speaks_visitAt .break _).1 logs) spoken
  | joined halts logs spoken others =>
      obtain ⟨status, told, rfl⟩ := halts
      rw [messages_visitAt _ _ _] at spoken
      exact .joined (stops_visitAt sorted status told) ((speaks_visitAt .break _).1 logs) others
        spoken (explains_visitAt .break)
  | silent halts quiet =>
      obtain ⟨status, told, rfl⟩ := halts
      have silent := mt (speaks_visitAt .break []).2 (Bool.not_eq_true _ ▸ quiet)
      exact .silent (stops_visitAt sorted status told) silent rfl (explains_visitAt .break)

/-- A turn after which the script goes on is a visit at which messages were printed. -/
theorem TurnDone.passed {link after : Link} {told : List Exchange}
    (turn : TurnDone continuation link none after told) (sorted : link.breakpoints.Sorted) :
    ∃ visit : Visit, told = visit.trace continuation ∧ visit.Passes link.breakpoints continuation := by
  cases turn with
  | @goesOn response answer stop said halts logs spoken alone =>
      obtain ⟨status, told, rfl⟩ := halts
      rw [messages_visitAt _ _ said] at spoken
      exact ⟨visitAt link.breakpoints response answer said, rfl, stops_visitAt sorted status told,
        (speaks_visitAt .break said).1 logs, alone, spoken⟩

theorem TurnsDone.journey {link : Link} {turns : Nat} {told : List Exchange}
    {outcome : Option (Except DebugError ExecutionStatus × Link)}
    (done : TurnsDone continuation turns link outcome told) (sorted : link.breakpoints.Sorted) :
    Journey link.breakpoints continuation turns (outcome.map Prod.fst) told := by
  induction done with
  | out => exact ⟨[], [], rfl, List.forall_mem_nil _, .unfinished, Nat.le_refl _, by simp⟩
  | ends turn => exact .ended (turn.ended sorted)
  | goesOn turn _ ih =>
      obtain ⟨visit, rfl, passes⟩ := turn.passed sorted
      rw [turn.breakpoints] at ih
      exact (ih sorted).cons passes

/-- Whatever the engine answers, and whatever breakpoints there are: while the script is to go on,
each stop without an exception at logpoints prints their messages in the order of their ids, with
the values that the engine tells of, and the script goes on at once if there is no other breakpoint.
At every other stop nothing is printed and it stays, and why is told if and only if it is a stop. -/
theorem execute_journey (rule : AnswerRule σ) (continuation : Continuation) (turns : Nat)
    (link : Link) (world : σ) (sorted : link.breakpoints.Sorted) :
    (execute continuation turns).Gives rule.recorded link (world, []) fun outcome last =>
      Journey link.breakpoints continuation turns (outcome.map Prod.fst) last.2 := by
  refine (execute_turns continuation turns link world []).mono ?_
  rintro outcome ⟨world, _⟩ ⟨told, rfl, done⟩
  exact done.journey sorted

/-- A logpoint on a line. -/
def logpoint (id : Nat) (message : String) : Breakpoint where
  id := id
  engineId := some id
  enabled := true
  temporary := false
  condition := none
  hitCondition := none
  kind := .log ⟨"/main.ahk", 3, none, true, 3⟩ message
  message := none

/-- What is known of an engine that has two logpoints on the line. -/
def logging : Link := { Debugger.greeted with
  breakpoints := ⟨[logpoint 1 "here", logpoint 2 "x is \x7bx\x7d"], 3⟩ }

/-- An engine whose script stops on the line once, where each expression has the same value, and
then ends. -/
def visiting : AnswerRule Nat := .ofEngine fun command visits =>
  if command.name = "run" then
    (Debugger.answering
      [("status", if visits = 0 then "break" else "stopped"), ("reason", "ok")] [], visits + 1)
  else if command.name = "property_get" then
    (Debugger.answering [] [{ name := "property", attributes := [], children := [], text := "5" }],
      visits)
  else (Debugger.halting command, visits)

/-- Both messages are printed, and the script goes on to its end. -/
theorem execute_journey_logging :
    logging.breakpoints.Sorted ∧
      (((execute .continue 2).run.run logging).run visiting.recorded (0, [])).2.2.filterMap
        Exchange.printed? = ["here\n", "x is 5\n"] ∧
      (execute .continue 2).Gives visiting.recorded logging (0, []) fun outcome last =>
        Journey logging.breakpoints .continue 2 (outcome.map Prod.fst) last.2 := by
  have sorted : logging.breakpoints.Sorted :=
    List.pairwise_cons.2 ⟨by decide, List.pairwise_singleton _ _⟩
  exact ⟨sorted, by decide +kernel, execute_journey visiting .continue 2 logging 0 sorted⟩

end Link
end DebugBridge
