/-!
A queue of tasks that run one at a time.  A task may put further tasks into the queue; whoever
flushes the queue runs tasks from its front until it is empty, and several who flush at once take
turns.  The queue is a machine that takes one action at a time, so actions of many parties may come
in any order.
-/

namespace DebugBridge

/-- A task with the tasks that it puts into the queue when it is done. -/
inductive Task where
  /-- A task from its id and the tasks that follow it. -/
  | mk (id : String) (followers : List Task)
  deriving Inhabited

namespace Task

/-- What the task is known by. -/
def id : Task → String
  | .mk id _ => id

/-- The tasks that follow. -/
def followers : Task → List Task
  | .mk _ followers => followers

mutual

/-- The number of tasks in a task and those that follow it. -/
def count : Task → Nat
  | .mk _ followers => countAll followers + 1

/-- The number of tasks in a list and those that follow them. -/
def countAll : List Task → Nat
  | [] => 0
  | task :: rest => task.count + countAll rest

end

end Task

/-- Someone who flushes the queue. -/
structure Flush where
  /-- Who it is. -/
  party : Nat
  /-- Number of tasks run so far. -/
  ran : Nat
  /-- The task that is running. -/
  running : Option Task

/-- A queue of tasks. -/
structure RequestQueue where
  /-- Tasks that wait, the first one in front. -/
  tasks : List Task
  /-- The one who flushes the queue now. -/
  active : Option Flush
  /-- Those who wait for their turn to flush it. -/
  waiting : List Nat

/-- What someone does to the queue. -/
inductive QueueAction where
  /-- Puts a task into the queue. -/
  | enqueue (task : Task)
  /-- Takes the first task out without running it. -/
  | dequeue
  /-- Starts to flush. -/
  | flush (party : Nat)
  /-- The one who flushes goes on: takes a task, or is done with one, or with the queue. -/
  | proceed

/-- What comes of an action. -/
inductive QueueEffect where
  /-- A task was taken out. -/
  | taken (task : Task)
  /-- A task has run. -/
  | ran (id : String)
  /-- A flush is over, having run so many tasks. -/
  | flushed (party count : Nat)

namespace RequestQueue

/-- The empty queue. -/
def empty : RequestQueue := { tasks := [], active := none, waiting := [] }

/-- Gives the turn to the next one who waits to flush. -/
def nextTurn (queue : RequestQueue) : RequestQueue :=
  match queue.waiting with
  | [] => { queue with active := none }
  | party :: rest => { queue with active := some ⟨party, 0, none⟩, waiting := rest }

/-- The one who flushes goes on. -/
def proceed (queue : RequestQueue) (flush : Flush) : RequestQueue × List QueueEffect :=
  match flush.running with
  | some task =>
    ({ queue with
        tasks := queue.tasks ++ task.followers
        active := some { flush with ran := flush.ran + 1, running := none } },
      [.ran task.id])
  | none =>
    match queue.tasks with
    | [] => (queue.nextTurn, [.flushed flush.party flush.ran])
    | task :: rest =>
      ({ queue with tasks := rest, active := some { flush with running := some task } }, [])

/-- One action. -/
def step (queue : RequestQueue) : QueueAction → RequestQueue × List QueueEffect
  | .enqueue task => ({ queue with tasks := queue.tasks ++ [task] }, [])
  | .dequeue =>
    match queue.tasks with
    | [] => (queue, [])
    | task :: rest => ({ queue with tasks := rest }, [.taken task])
  | .flush party =>
    match queue.active with
    | none => ({ queue with active := some ⟨party, 0, none⟩ }, [])
    | some _ => ({ queue with waiting := queue.waiting ++ [party] }, [])
  | .proceed =>
    match queue.active with
    | none => (queue, [])
    | some flush => queue.proceed flush

/-- A run of actions, with everything that comes of them. -/
def run (queue : RequestQueue) : List QueueAction → RequestQueue × List QueueEffect
  | [] => (queue, [])
  | action :: rest =>
    let (queue, effects) := queue.step action
    let (queue, more) := queue.run rest
    (queue, effects ++ more)

/-- The number of steps that flushing takes at most: two for each task, and one for each party. -/
def work (queue : RequestQueue) : Nat :=
  2 * (Task.countAll queue.tasks + Task.countAll (queue.active.bind (·.running)).toList) +
    queue.active.toList.length + queue.waiting.length

/-- Lets those who flush go on until none is left. -/
def settle (queue : RequestQueue) : RequestQueue × List QueueEffect :=
  queue.run (List.replicate queue.work .proceed)

/-- Runs one task that was taken out of the queue. -/
def runTaken (queue : RequestQueue) (task : Task) : RequestQueue × List QueueEffect :=
  let (queue, effects) := queue.run (task.followers.map .enqueue)
  (queue, .ran task.id :: effects)

end RequestQueue
end DebugBridge
