import DebugBridge.Session.Queue
import Mathlib

/-!
# A queue keeps what it is given

Whatever is done to a queue, by whomever and in whatever order: the tasks leave it as they came,
each of them once, and those who flush it run one task at a time, from the beginning to the end.
Both are read off a history of the queue, which tells more than the effects of a run: which tasks
came, and when each was begun.  Where nobody else does anything, a flush runs a forest of tasks level
by level.
-/

namespace DebugBridge

/-- Something that happens to a queue. -/
inductive QueueEvent where
  /-- A task comes. -/
  | entered (task : Task)
  /-- A task is handed out. -/
  | handed (task : Task)
  /-- Someone has the turn to flush. -/
  | opened (party : Nat)
  /-- The one who flushes begins a task. -/
  | begun (party : Nat) (task : Task)
  /-- The task that was begun is over. -/
  | done (party : Nat) (task : Task)
  /-- A flush returns, with its result. -/
  | flushed (party count : Nat)

namespace QueueEvent

/-- The task that comes, if one does. -/
def entered? : QueueEvent → Option Task
  | .entered task => some task
  | _ => none

/-- The task that leaves the queue, if one does. -/
def departed? : QueueEvent → Option Task
  | .handed task | .begun _ task => some task
  | _ => none

/-- Whether a task is over. -/
def isDone : QueueEvent → Bool
  | .done _ _ => true
  | _ => false

/-- The result of the flush that returns, if one does. -/
def result? : QueueEvent → Option Nat
  | .flushed _ count => some count
  | _ => none

/-- What can be seen of an event from outside. -/
def effect? : QueueEvent → Option QueueEffect
  | .handed task => some (.taken task)
  | .done _ task => some (.ran task.id)
  | .flushed party count => some (.flushed party count)
  | .entered _ | .opened _ | .begun _ _ => none

/-- The tasks that have come, in order. -/
def allEntered (events : List QueueEvent) : List Task := events.filterMap entered?

/-- The tasks that have left, in order. -/
def allDeparted (events : List QueueEvent) : List Task := events.filterMap departed?

/-- What the flushes that have returned come to. -/
def total (events : List QueueEvent) : Nat := (events.filterMap result?).sum

end QueueEvent

open QueueEvent

/-- Flushes take turns: who has the turn, how many tasks it has run and which one it is at follows
from the events, and only the task that was begun is over, before anything else is begun. -/
inductive TakesTurns : List QueueEvent → Option Flush → Prop
  /-- In the beginning nobody flushes. -/
  | start : TakesTurns [] none
  /-- Tasks may come at any time. -/
  | entered {events : List QueueEvent} {active : Option Flush} (turns : TakesTurns events active)
      (task : Task) : TakesTurns (events ++ [.entered task]) active
  /-- So they may be handed out. -/
  | handed {events : List QueueEvent} {active : Option Flush} (turns : TakesTurns events active)
      (task : Task) : TakesTurns (events ++ [.handed task]) active
  /-- While nobody has the turn, someone may get it. -/
  | opened {events : List QueueEvent} (turns : TakesTurns events none) (party : Nat) :
      TakesTurns (events ++ [.opened party]) (some ⟨party, 0, none⟩)
  /-- While no task is running, the one who flushes may begin one. -/
  | begun {events : List QueueEvent} {party ran : Nat}
      (turns : TakesTurns events (some ⟨party, ran, none⟩)) (task : Task) :
      TakesTurns (events ++ [.begun party task]) (some ⟨party, ran, some task⟩)
  /-- The task that is running may be over. -/
  | done {events : List QueueEvent} {party ran : Nat} {task : Task}
      (turns : TakesTurns events (some ⟨party, ran, some task⟩)) :
      TakesTurns (events ++ [.done party task]) (some ⟨party, ran + 1, none⟩)
  /-- While no task is running, the flush may return. -/
  | flushed {events : List QueueEvent} {party ran : Nat}
      (turns : TakesTurns events (some ⟨party, ran, none⟩)) :
      TakesTurns (events ++ [.flushed party ran]) none

/-- Tasks come at any time. -/
theorem TakesTurns.enteredAll {events : List QueueEvent} {active : Option Flush}
    (turns : TakesTurns events active) (tasks : List Task) :
    TakesTurns (events ++ tasks.map .entered) active := by
  induction tasks generalizing events with
  | nil => simpa using turns
  | cons task rest ih => simpa using ih (turns.entered task)

/-- The number of tasks that someone has run who has the turn. -/
def Flush.count (active : Option Flush) : Nat := (active.map Flush.ran).getD 0

theorem QueueEvent.total_concat (events : List QueueEvent) (event : QueueEvent) :
    total (events ++ [event]) = total events + event.result?.getD 0 := by
  cases result : event.result? <;> simp [total, result]

/-- What flushes come to, and what the one at work has done, is the number of tasks that were run. -/
theorem TakesTurns.total {events : List QueueEvent} {active : Option Flush}
    (turns : TakesTurns events active) :
    total events + Flush.count active = events.countP isDone := by
  induction turns with
  | start => rfl
  | entered _ _ ih | handed _ _ ih | opened _ _ ih | begun _ _ ih =>
      rw [total_concat, List.countP_append]
      exact ih
  | @done events party ran task _ ih =>
      rw [total_concat, List.countP_append, ← ih]
      rfl
  | flushed _ ih =>
      rw [total_concat, List.countP_append]
      exact ih

namespace RequestQueue

/-! ## The history of a queue -/

/-- What happens when the turn is given to the next one. -/
def handover (queue : RequestQueue) : List QueueEvent := (queue.waiting.take 1).map .opened

/-- What happens with an action. -/
def events (queue : RequestQueue) : QueueAction → List QueueEvent
  | .enqueue task => [.entered task]
  | .dequeue => (queue.tasks.take 1).map .handed
  | .flush party => if queue.active.isNone then [.opened party] else []
  | .proceed =>
    match queue.active with
    | none => []
    | some ⟨party, _, some task⟩ => .done party task :: task.followers.map .entered
    | some ⟨party, ran, none⟩ =>
      match queue.tasks with
      | [] => .flushed party ran :: queue.handover
      | task :: _ => [.begun party task]

/-- All that happens in a run. -/
def history (queue : RequestQueue) : List QueueAction → List QueueEvent
  | [] => []
  | action :: rest => queue.events action ++ (queue.step action).1.history rest

/-- The effects of a step are what can be seen of its events. -/
theorem effects_step (queue : RequestQueue) (action : QueueAction) :
    (queue.step action).2 = (queue.events action).filterMap effect? := by
  have unseen (tasks : List Task) : (tasks.map QueueEvent.entered).filterMap effect? = [] := by
    simp [List.filterMap_map, Function.comp_def, effect?]
  cases action with
  | enqueue task => rfl
  | dequeue =>
      rw [step, events]
      cases queue.tasks <;> rfl
  | flush party =>
      rw [step, events]
      cases queue.active <;> rfl
  | proceed =>
      rw [step, events]
      rcases queue.active with - | ⟨party, ran, - | task⟩
      · rfl
      · dsimp only
        rw [proceed]
        dsimp only
        cases queue.tasks with
        | cons task rest => rfl
        | nil =>
            rw [handover]
            cases queue.waiting <;> rfl
      · exact congrArg (QueueEffect.ran task.id :: ·) (unseen task.followers).symm

/-- The effects of a run are what can be seen of its history. -/
theorem effects_run (queue : RequestQueue) (actions : List QueueAction) :
    (queue.run actions).2 = (queue.history actions).filterMap effect? := by
  induction actions generalizing queue with
  | nil => rfl
  | cons action rest ih =>
      rw [run, history, List.filterMap_append, ← effects_step, ← ih]

theorem run_append (queue : RequestQueue) (front back : List QueueAction) :
    queue.run (front ++ back) =
      (((queue.run front).1.run back).1, (queue.run front).2 ++ ((queue.run front).1.run back).2) := by
  induction front generalizing queue with
  | nil => rfl
  | cons action rest ih => simp only [List.cons_append, run, ih, List.append_assoc]

/-! ## What every step keeps -/

/-- Whenever a flush returned, all that had come had left. -/
def Emptied (events : List QueueEvent) : Prop :=
  ∀ before after party count,
    events = before ++ .flushed party count :: after → allEntered before = allDeparted before

theorem Emptied.concat {events : List QueueEvent} {event : QueueEvent} (emptied : Emptied events)
    (empty : event.result? ≠ none → allEntered events = allDeparted events) :
    Emptied (events ++ [event]) := by
  intro before after party count eq
  rcases List.eq_nil_or_concat after with rfl | ⟨rest, last, rfl⟩
  · obtain ⟨rfl, rfl⟩ := List.append_singleton_inj.1 eq
    exact empty nofun
  · rw [List.concat_eq_append, ← List.cons_append, ← List.append_assoc] at eq
    exact emptied before rest party count (List.append_singleton_inj.1 eq).1

/-- How a queue follows from its history. -/
structure Follows (queue : RequestQueue) (events : List QueueEvent) : Prop where
  /-- What has come has left, or is still there, in the same order. -/
  conserved : allEntered events = allDeparted events ++ queue.tasks
  /-- Flushes take turns. -/
  turns : TakesTurns events queue.active
  /-- They return when nothing is left. -/
  emptied : Emptied events

theorem follows_empty : Follows empty [] where
  conserved := rfl
  turns := .start
  emptied _ _ _ _ eq := by simp at eq

section Events

variable {queue : RequestQueue} {events : List QueueEvent} {party ran : Nat} {task : Task}
  {rest : List Task}

theorem Follows.entered (follows : Follows queue events) (task : Task) :
    Follows { queue with tasks := queue.tasks ++ [task] } (events ++ [.entered task]) where
  conserved := by
    have came : allEntered (events ++ [.entered task]) = allEntered events ++ [task] := by
      simp [allEntered, entered?]
    have left : allDeparted (events ++ [.entered task]) = allDeparted events := by
      simp [allDeparted, departed?, List.filterMap_append]
    rw [came, left, follows.conserved, List.append_assoc]
  turns := follows.turns.entered task
  emptied := Emptied.concat follows.emptied (absurd rfl)

theorem Follows.enteredAll (follows : Follows queue events) (tasks : List Task) :
    Follows { queue with tasks := queue.tasks ++ tasks } (events ++ tasks.map .entered) := by
  induction tasks generalizing queue events with
  | nil => simpa using follows
  | cons task rest ih => simpa using ih (follows.entered task)

/-- A task that leaves is the one that came first of those that are there. -/
theorem conserved_concat {event : QueueEvent} (departs : event.departed? = some task)
    (stays : event.entered? = none) (tasks : queue.tasks = task :: rest)
    (conserved : allEntered events = allDeparted events ++ queue.tasks) :
    allEntered (events ++ [event]) = allDeparted (events ++ [event]) ++ rest := by
  simpa [allEntered, allDeparted, departs, stays, tasks] using conserved

theorem Follows.handed (follows : Follows queue events) (tasks : queue.tasks = task :: rest) :
    Follows { queue with tasks := rest } (events ++ [.handed task]) where
  conserved := conserved_concat rfl rfl tasks follows.conserved
  turns := follows.turns.handed task
  emptied := Emptied.concat follows.emptied (absurd rfl)

theorem Follows.begun (follows : Follows queue events)
    (active : queue.active = some ⟨party, ran, none⟩) (tasks : queue.tasks = task :: rest) :
    Follows { queue with tasks := rest, active := some ⟨party, ran, some task⟩ }
      (events ++ [.begun party task]) where
  conserved := conserved_concat rfl rfl tasks follows.conserved
  turns := (active ▸ follows.turns).begun task
  emptied := Emptied.concat follows.emptied (absurd rfl)

/-- Where no task comes or leaves, the same ones are there. -/
theorem conserved_idle {event : QueueEvent} (stays : event.entered? = none)
    (still : event.departed? = none)
    (conserved : allEntered events = allDeparted events ++ queue.tasks) :
    allEntered (events ++ [event]) = allDeparted (events ++ [event]) ++ queue.tasks := by
  simpa [allEntered, allDeparted, stays, still] using conserved

theorem Follows.opened (follows : Follows queue events) (free : queue.active = none) (party : Nat)
    (waiting : List Nat) :
    Follows { queue with active := some ⟨party, 0, none⟩, waiting }
      (events ++ [.opened party]) where
  conserved := conserved_idle rfl rfl follows.conserved
  turns := (free ▸ follows.turns).opened party
  emptied := Emptied.concat follows.emptied (absurd rfl)

theorem Follows.done (follows : Follows queue events)
    (active : queue.active = some ⟨party, ran, some task⟩) :
    Follows { queue with active := some ⟨party, ran + 1, none⟩ }
      (events ++ [.done party task]) where
  conserved := conserved_idle rfl rfl follows.conserved
  turns := (active ▸ follows.turns).done
  emptied := Emptied.concat follows.emptied (absurd rfl)

theorem Follows.flushed (follows : Follows queue events)
    (active : queue.active = some ⟨party, ran, none⟩) (tasks : queue.tasks = []) :
    Follows { queue with active := none } (events ++ [.flushed party ran]) where
  conserved := conserved_idle rfl rfl follows.conserved
  turns := (active ▸ follows.turns).flushed
  emptied := Emptied.concat follows.emptied fun _ => by rw [follows.conserved, tasks, List.append_nil]

end Events

theorem Follows.proceed {queue : RequestQueue} {events : List QueueEvent} {flush : Flush}
    (follows : Follows queue events) (active : queue.active = some flush) :
    Follows (queue.proceed flush).1 (events ++ queue.events .proceed) := by
  obtain ⟨party, ran, running⟩ := flush
  cases running with
  | some task =>
      have later := (follows.done active).enteredAll task.followers
      simpa [RequestQueue.proceed, RequestQueue.events, active] using later
  | none =>
      cases tasks : queue.tasks with
      | cons task rest =>
          simpa [RequestQueue.proceed, RequestQueue.events, active, tasks] using
            follows.begun active tasks
      | nil =>
          have finished := follows.flushed active tasks
          cases waiting : queue.waiting with
          | nil =>
              simpa [RequestQueue.proceed, RequestQueue.events, active, tasks, handover, nextTurn,
                waiting] using finished
          | cons next rest =>
              simpa [RequestQueue.proceed, RequestQueue.events, active, tasks, handover, nextTurn,
                waiting] using finished.opened rfl next rest

/-- An action keeps that a queue follows from its history. -/
theorem Follows.step {queue : RequestQueue} {events : List QueueEvent}
    (follows : Follows queue events) (action : QueueAction) :
    Follows (queue.step action).1 (events ++ queue.events action) := by
  cases action with
  | enqueue task => exact follows.entered task
  | dequeue =>
      cases tasks : queue.tasks with
      | nil => simpa [RequestQueue.step, RequestQueue.events, tasks] using follows
      | cons task rest =>
          simpa [RequestQueue.step, RequestQueue.events, tasks] using follows.handed tasks
  | flush party =>
      cases active : queue.active with
      | none =>
          simpa [RequestQueue.step, RequestQueue.events, active] using
            follows.opened active party queue.waiting
      | some flush =>
          simpa [RequestQueue.step, RequestQueue.events, active] using
            (⟨follows.conserved, active ▸ follows.turns, follows.emptied⟩ :
              Follows { queue with waiting := queue.waiting ++ [party] } events)
  | proceed =>
      cases active : queue.active with
      | none => simpa [RequestQueue.step, RequestQueue.events, active] using follows
      | some flush =>
          simpa [RequestQueue.step, active] using follows.proceed active

/-- A run keeps it. -/
theorem Follows.run {queue : RequestQueue} {events : List QueueEvent}
    (follows : Follows queue events) (actions : List QueueAction) :
    Follows (queue.run actions).1 (events ++ queue.history actions) := by
  induction actions generalizing queue events with
  | nil => simpa [RequestQueue.run, history] using follows
  | cons action rest ih =>
      rw [RequestQueue.run, history, ← List.append_assoc]
      exact ih (follows.step action)

/-- What is to be said of all that is done to a queue, which is empty in the beginning. -/
structure Orderly (actions : List QueueAction) : Prop where
  /-- The history tells all that can be seen. -/
  seen : (empty.run actions).2 = (empty.history actions).filterMap effect?
  /-- Every task that has come has been begun by one flush, or was handed out once, or is still
  there; and they left in the order in which they came. -/
  conserved : allEntered (empty.history actions) =
    allDeparted (empty.history actions) ++ (empty.run actions).1.tasks
  /-- One task runs at a time, and it is over before the next one is begun. -/
  turns : TakesTurns (empty.history actions) (empty.run actions).1.active
  /-- A flush that returned had nothing left to run. -/
  emptied : Emptied (empty.history actions)
  /-- The results of the flushes add up to the number of tasks that were run. -/
  total : total (empty.history actions) + Flush.count (empty.run actions).1.active =
    (empty.history actions).countP isDone

theorem orderly (actions : List QueueAction) : Orderly actions := by
  have follows := follows_empty.run actions
  rw [List.nil_append] at follows
  exact ⟨effects_run empty actions, follows.conserved, follows.turns, follows.emptied,
    follows.turns.total⟩

end RequestQueue

/-! ## Forests of tasks -/

namespace Task

theorem countAll_append (front back : List Task) :
    countAll (front ++ back) = countAll front + countAll back := by
  induction front with
  | nil => simp [countAll]
  | cons task rest ih => simp only [List.cons_append, countAll, ih, Nat.add_assoc]

theorem count_eq (task : Task) : task.count = countAll task.followers + 1 := by
  cases task
  rfl

/-- A forest has the tasks at its top, and those below. -/
theorem countAll_eq (forest : List Task) :
    countAll forest = forest.length + countAll (forest.flatMap followers) := by
  induction forest with
  | nil => rfl
  | cons task rest ih =>
      rw [countAll, count_eq, ih, List.flatMap_cons, countAll_append, List.length_cons]
      omega

/-- The tasks of a forest, level by level. -/
def breadthFirst : List Task → List Task
  | [] => []
  | task :: rest => (task :: rest) ++ breadthFirst ((task :: rest).flatMap followers)
termination_by forest => countAll forest
decreasing_by
  rw [countAll_eq (task :: rest)]
  exact Nat.lt_add_of_pos_left (Nat.succ_pos _)

theorem length_breadthFirst (forest : List Task) :
    (breadthFirst forest).length = countAll forest := by
  induction forest using breadthFirst.induct with
  | case1 => simp [breadthFirst, countAll]
  | case2 task rest ih => rw [breadthFirst, List.length_append, ih, ← countAll_eq]

mutual

/-- A task and those that come of it. -/
def family : Task → List Task
  | .mk id followers => .mk id followers :: families followers

/-- The tasks of a forest, one tree after the other. -/
def families : List Task → List Task
  | [] => []
  | task :: rest => task.family ++ families rest

end

theorem family_eq (task : Task) : task.family = task :: families task.followers := by
  cases task
  rfl

theorem families_append (front back : List Task) :
    families (front ++ back) = families front ++ families back := by
  induction front with
  | nil => simp [families]
  | cons task rest ih => simp only [List.cons_append, families, ih, List.append_assoc]

theorem families_perm (forest : List Task) :
    (families forest).Perm (forest ++ families (forest.flatMap followers)) := by
  induction forest with
  | nil => exact .refl _
  | cons task rest ih =>
      rw [families, family_eq, List.flatMap_cons, families_append, List.cons_append,
        List.cons_append]
      refine .cons task ?_
      exact (ih.append_left _).trans (List.perm_append_comm_assoc _ _ _)

/-- Level by level, every task of a forest occurs once. -/
theorem breadthFirst_perm (forest : List Task) : (breadthFirst forest).Perm (families forest) := by
  induction forest using breadthFirst.induct with
  | case1 => simp [breadthFirst, families]
  | case2 task rest ih =>
      rw [breadthFirst]
      exact (ih.append_left _).trans (families_perm _).symm

end Task

open DebugBridge.Task

namespace RequestQueue

/-- The tasks in front are run, and those that follow them come to the back. -/
theorem run_level (front back : List Task) (party ran : Nat) :
    (RequestQueue.mk (front ++ back) (some ⟨party, ran, none⟩) []).run
        (List.replicate (2 * front.length) .proceed) =
      (⟨back ++ front.flatMap followers, some ⟨party, ran + front.length, none⟩, []⟩,
        front.map (.ran ·.id)) := by
  induction front generalizing back ran with
  | nil => simp [run]
  | cons task rest ih =>
      have next := ih (back ++ task.followers) (ran + 1)
      rw [List.length_cons, Nat.mul_succ, List.replicate_succ, List.replicate_succ]
      simp only [List.cons_append, run, step, proceed, List.append_assoc, next]
      simp [Nat.add_comm, Nat.add_left_comm]

/-- A flush runs a forest level by level, and returns the number of its tasks. -/
theorem run_forest (forest : List Task) (party ran : Nat) :
    (RequestQueue.mk forest (some ⟨party, ran, none⟩) []).run
        (List.replicate (2 * countAll forest + 1) .proceed) =
      (empty, (breadthFirst forest).map (.ran ·.id) ++
        [.flushed party (ran + countAll forest)]) := by
  induction forest using breadthFirst.induct generalizing ran with
  | case1 => simp [run, step, proceed, nextTurn, countAll, breadthFirst, empty]
  | case2 task rest ih =>
      have level := run_level (task :: rest) [] party ran
      rw [List.append_nil, List.nil_append] at level
      rw [countAll_eq (task :: rest), Nat.mul_add, Nat.add_assoc, List.replicate_add, run_append,
        level, ih, breadthFirst]
      simp [Nat.add_assoc]

theorem run_enqueues (forest : List Task) (queue : RequestQueue) :
    queue.run (forest.map .enqueue) = ({ queue with tasks := queue.tasks ++ forest }, []) := by
  induction forest generalizing queue with
  | nil => simp [run]
  | cons task rest ih => simp [run, step, ih]

/-- Flushing a forest runs all of its tasks, level by level, and returns their number. -/
theorem settle_forest (forest : List Task) (party : Nat) :
    (empty.run (forest.map .enqueue ++ [.flush party])).1.settle =
      (empty, (breadthFirst forest).map (.ran ·.id) ++
        [.flushed party (breadthFirst forest).length]) := by
  have filled : (empty.run (forest.map .enqueue ++ [.flush party])).1 =
      ⟨forest, some ⟨party, 0, none⟩, []⟩ := by
    rw [run_append, run_enqueues]
    simp [run, step, empty]
  have work : (RequestQueue.mk forest (some ⟨party, 0, none⟩) []).work =
      2 * countAll forest + 1 := by
    simp [RequestQueue.work, countAll]
  rw [filled, settle, work, run_forest, length_breadthFirst, Nat.zero_add]

example : ((empty.run ([Task.mk "a" [.mk "c" []], .mk "b" []].map .enqueue ++
    [.flush 0])).1.settle).2 = [.ran "a", .ran "b", .ran "c", .flushed 0 3] := rfl

/-- However many use a queue at once, nothing that is put into it is lost, or run twice, or out of
order, or while something else is running; and a forest of tasks is run level by level. -/
theorem runs_in_order :
    (∀ actions, Orderly actions) ∧
      ∀ (forest : List Task) (party : Nat),
        (breadthFirst forest).Perm (families forest) ∧
          (empty.run (forest.map .enqueue ++ [.flush party])).1.settle =
            (empty, (breadthFirst forest).map (.ran ·.id) ++
              [.flushed party (breadthFirst forest).length]) :=
  ⟨orderly, fun forest party => ⟨breadthFirst_perm forest, settle_forest forest party⟩⟩

end RequestQueue
end DebugBridge
