import Chitta.Json
import Chitta.Machine
import Chitta.Tally

/-!
# The thread pool

A submitted task enters a bounded queue under a lock; workers take tasks in order, run them and
hand the result to a callback, and the destructor waits for the workers, which return once the
queue is empty. A step of the machine is what one thread does under a lock or between two of them.
A task that throws is answered with the text of its exception, and the text of an answer cannot be
written when the bytes of the exception are not UTF-8: the exception of the writer leaves the
thread, which ends the process. It also ends when a worker is added while the destructor walks
the workers, which it does without their lock.
-/
namespace Chitta.ThreadPool

/-- The parameters of the constructor. -/
structure Config where
  /-- `min_workers_`. -/
  minWorkers : Nat
  /-- `max_workers_`. -/
  maxWorkers : Nat
  /-- `max_queue_depth_`. -/
  maxQueueDepth : Nat

/-- `Task`. -/
structure Task where
  /-- `id`. -/
  id : Nat
  /-- `client_fd`. -/
  clientFd : Int
  /-- Whether there is an `on_complete`. -/
  onComplete : Bool

/-- `RequestTrace`, without its start. -/
structure RequestTrace where
  /-- `id`. -/
  id : Nat
  /-- `method`. -/
  method : String

/-- How the work of a task ends. -/
inductive Outcome where
  /-- It returns. -/
  | returned (result : ByteArray)
  /-- It throws an exception with these bytes. -/
  | threw (what : ByteArray)

/-- The answer to a task that throws. -/
def errorResponse (message : String) : Json :=
  .object
    [("jsonrpc", .str "2.0"),
      ("error", .object [("code", .int (-32603)), ("message", .str message)]),
      ("id", .null)]

/-- The result of a task; none when the answer cannot be written. -/
def Outcome.result (dump : Json → String) : Outcome → Option ByteArray
  | .returned result => some result
  | .threw what =>
    (String.fromUTF8? what).map fun message => (dump (errorResponse message)).toUTF8

/-- What a worker does. -/
inductive Worker where
  /-- It waits for a task. -/
  | waiting
  /-- The work of a task runs. -/
  | working (task : Task)
  /-- The work is over. -/
  | completed (task : Task) (result : ByteArray)
  /-- The task has no trace any more. -/
  | untraced (task : Task) (result : ByteArray)
  /-- The task does not count as active any more. -/
  | delivering (task : Task) (result : ByteArray)
  /-- It has returned. -/
  | returned

/-- Whether a worker has returned. -/
def Worker.isReturned : Worker → Bool
  | .returned => true
  | _ => false

/-- A pool. -/
structure State where
  /-- `stop_`. -/
  stop : Bool
  /-- `next_id_`. -/
  nextId : Nat
  /-- The submissions that have an id and not the lock yet. -/
  calls : List (Task × String)
  /-- `tasks_`. -/
  tasks : List Task
  /-- `active_`. -/
  active : List RequestTrace
  /-- `pending_tasks_`. -/
  pendingTasks : Nat
  /-- `active_tasks_`. -/
  activeTasks : Nat
  /-- `num_workers_`. -/
  numWorkers : Nat
  /-- `workers_`. -/
  workers : List Worker
  /-- The number of submissions that are about to add a worker. -/
  growing : Nat
  /-- Whether the destructor has returned. -/
  destroyed : Bool
  /-- Whether the process has ended. -/
  crashed : Bool
  /-- The tasks whose submission returned an id. -/
  accepted : List Task
  /-- The ids of the submissions that returned nothing. -/
  rejected : List Nat
  /-- The tasks whose work has run, by their ids. -/
  ran : List Nat
  /-- The tasks that are over. -/
  finished : List Task
  /-- The calls of `on_complete` with the id of the task. -/
  completions : List (Nat × Int × ByteArray)

namespace State

/-- A pool without workers. -/
def empty : State where
  stop := false
  nextId := 1
  calls := []
  tasks := []
  active := []
  pendingTasks := 0
  activeTasks := 0
  numWorkers := 0
  workers := []
  growing := 0
  destroyed := false
  crashed := false
  accepted := []
  rejected := []
  ran := []
  finished := []
  completions := []

/-- `spawn_worker`; the vector must not grow under the destructor. -/
def spawnWorker (config : Config) (state : State) : State :=
  if config.maxWorkers ≤ state.numWorkers then state
  else
    { state with
      workers := state.workers ++ [.waiting]
      numWorkers := state.numWorkers + 1
      crashed := state.stop }

/-- The constructor. -/
def construct (config : Config) : Nat → State
  | 0 => empty
  | count + 1 => (construct config count).spawnWorker config

/-- `submit`, under the lock. -/
def submit (config : Config) (state : State) (task : Task) (method : String) : State :=
  if config.maxQueueDepth ≤ state.tasks.length then
    { state with rejected := task.id :: state.rejected }
  else
    let queueSize := state.tasks.length + 1
    { state with
      active := { id := task.id, method } :: state.active
      tasks := state.tasks ++ [task]
      pendingTasks := state.pendingTasks + 1
      growing :=
        if state.numWorkers < queueSize && state.numWorkers < config.maxWorkers then
          state.growing + 1
        else state.growing
      accepted := task :: state.accepted }

/-- A worker goes on. -/
def move (state : State) (worker : Nat) (next : Worker) : State :=
  { state with workers := state.workers.set worker next }

end State

/-- What happens to a pool. -/
inductive Action where
  /-- `submit` gets an id. -/
  | call (clientFd : Int) (method : String) (onComplete : Bool)
  /-- `submit` gets the lock. -/
  | submit (index : Nat)
  /-- `submit` adds a worker. -/
  | spawn
  /-- A worker takes a task. -/
  | take (worker : Nat)
  /-- The work of a task ends. -/
  | work (worker : Nat) (outcome : Outcome)
  /-- The trace of a task is erased. -/
  | untrace (worker : Nat)
  /-- A task does not count as active any more. -/
  | settle (worker : Nat)
  /-- The result is delivered. -/
  | deliver (worker : Nat)
  /-- A worker returns. -/
  | leave (worker : Nat)
  /-- The destructor stops the pool. -/
  | stop
  /-- The destructor returns. -/
  | destroy

/-- One step of a worker. -/
def workerStep (dump : Json → String) (state : State) : Action → Option State
  | .take worker =>
    match state.workers[worker]?, state.tasks with
    | some .waiting, task :: rest =>
      some
        { state with
          tasks := rest
          pendingTasks := state.pendingTasks - 1
          activeTasks := state.activeTasks + 1
          workers := state.workers.set worker (.working task) }
    | _, _ => none
  | .work worker outcome =>
    match state.workers[worker]? with
    | some (.working task) =>
      let ran := { state with ran := task.id :: state.ran }
      match outcome.result dump with
      | some result => some (ran.move worker (.completed task result))
      | none => some { ran with crashed := true }
    | _ => none
  | .untrace worker =>
    match state.workers[worker]? with
    | some (.completed task result) =>
      some
        { state.move worker (.untraced task result) with
          active := state.active.filter (·.id ≠ task.id) }
    | _ => none
  | .settle worker =>
    match state.workers[worker]? with
    | some (.untraced task result) =>
      some
        { state.move worker (.delivering task result) with activeTasks := state.activeTasks - 1 }
    | _ => none
  | .deliver worker =>
    match state.workers[worker]? with
    | some (.delivering task result) =>
      some
        { state.move worker .waiting with
          finished := task :: state.finished
          completions :=
            if task.onComplete then (task.id, task.clientFd, result) :: state.completions
            else state.completions }
    | _ => none
  | .leave worker =>
    match state.workers[worker]?, state.tasks with
    | some .waiting, [] => if state.stop then some (state.move worker .returned) else none
    | _, _ => none
  | _ => none

/-- The steps of a pool. -/
def machine (config : Config) (dump : Json → String) : Machine State Action where
  initial := .construct config config.minWorkers
  step state action :=
    if state.crashed || state.destroyed then none
    else
      match action with
      | .call clientFd method onComplete =>
        some
          { state with
            nextId := state.nextId + 1
            calls := state.calls ++ [({ id := state.nextId, clientFd, onComplete }, method)] }
      | .submit index =>
        match state.calls[index]? with
        | some (task, method) =>
          some ({ state with calls := state.calls.eraseIdx index }.submit config task method)
        | none => none
      | .spawn =>
        if state.growing = 0 then none
        else some ({ state with growing := state.growing - 1 }.spawnWorker config)
      | .stop => if state.stop then none else some { state with stop := true }
      | .destroy =>
        if state.stop && state.workers.all (·.isReturned) then some { state with destroyed := true }
        else none
      | action => workerStep dump state action

/-! ## What a step does -/

/-- What a step of a worker does. -/
inductive WorkerStep (dump : Json → String) (state : State) : Action → State → Prop
  /-- The first task is taken. -/
  | take {worker : Nat} {task : Task} {rest : List Task}
      (found : state.workers[worker]? = some .waiting) (first : state.tasks = task :: rest) :
      WorkerStep dump state (.take worker)
        { state with
          tasks := rest
          pendingTasks := state.pendingTasks - 1
          activeTasks := state.activeTasks + 1
          workers := state.workers.set worker (.working task) }
  /-- The work has a result. -/
  | work {worker : Nat} {outcome : Outcome} {task : Task} {result : ByteArray}
      (found : state.workers[worker]? = some (.working task))
      (written : outcome.result dump = some result) :
      WorkerStep dump state (.work worker outcome)
        ({ state with ran := task.id :: state.ran }.move worker (.completed task result))
  /-- The answer to an exception cannot be written. -/
  | crash {worker : Nat} {outcome : Outcome} {task : Task}
      (found : state.workers[worker]? = some (.working task))
      (unwritten : outcome.result dump = none) :
      WorkerStep dump state (.work worker outcome)
        { state with ran := task.id :: state.ran, crashed := true }
  /-- The trace is erased. -/
  | untrace {worker : Nat} {task : Task} {result : ByteArray}
      (found : state.workers[worker]? = some (.completed task result)) :
      WorkerStep dump state (.untrace worker)
        { state.move worker (.untraced task result) with
          active := state.active.filter (·.id ≠ task.id) }
  /-- The task is not counted any more. -/
  | settle {worker : Nat} {task : Task} {result : ByteArray}
      (found : state.workers[worker]? = some (.untraced task result)) :
      WorkerStep dump state (.settle worker)
        { state.move worker (.delivering task result) with activeTasks := state.activeTasks - 1 }
  /-- The result is delivered. -/
  | deliver {worker : Nat} {task : Task} {result : ByteArray}
      (found : state.workers[worker]? = some (.delivering task result)) :
      WorkerStep dump state (.deliver worker)
        { state.move worker .waiting with
          finished := task :: state.finished
          completions :=
            if task.onComplete then (task.id, task.clientFd, result) :: state.completions
            else state.completions }
  /-- The worker returns from a pool that has stopped. -/
  | leave {worker : Nat} (found : state.workers[worker]? = some .waiting)
      (empty : state.tasks = []) (stopped : state.stop = true) :
      WorkerStep dump state (.leave worker) (state.move worker .returned)

/-- What a step of a pool does. -/
inductive PoolStep (config : Config) (dump : Json → String) (state : State) :
    Action → State → Prop
  /-- A task gets its id. -/
  | call (clientFd : Int) (method : String) (onComplete : Bool) :
      PoolStep config dump state (.call clientFd method onComplete)
        { state with
          nextId := state.nextId + 1
          calls := state.calls ++ [({ id := state.nextId, clientFd, onComplete }, method)] }
  /-- It is accepted or refused. -/
  | submit {index : Nat} {task : Task} {method : String}
      (found : state.calls[index]? = some (task, method)) :
      PoolStep config dump state (.submit index)
        ({ state with calls := state.calls.eraseIdx index }.submit config task method)
  /-- A worker is added. -/
  | spawn (growing : state.growing ≠ 0) :
      PoolStep config dump state .spawn
        ({ state with growing := state.growing - 1 }.spawnWorker config)
  /-- The pool stops. -/
  | stop (going : state.stop = false) :
      PoolStep config dump state .stop { state with stop := true }
  /-- The destructor returns. -/
  | destroy (stopped : state.stop = true) (returned : state.workers.all (·.isReturned) = true) :
      PoolStep config dump state .destroy { state with destroyed := true }
  /-- A worker goes on. -/
  | worker {action : Action} {next : State} (step : WorkerStep dump state action next) :
      PoolStep config dump state action next

section

variable {config : Config} {dump : Json → String} {state next : State} {action : Action}

/-- Every step of a worker is one of those. -/
theorem workerStep_cases (taken : workerStep dump state action = some next) :
    WorkerStep dump state action next := by
  cases action with
  | take worker =>
    simp only [workerStep] at taken
    split at taken
    · rename_i task rest found first
      obtain rfl := Option.some.inj taken
      exact .take found first
    · contradiction
  | work worker outcome =>
    simp only [workerStep] at taken
    split at taken
    · rename_i task found
      split at taken
      · rename_i result written
        obtain rfl := Option.some.inj taken
        exact .work found written
      · rename_i unwritten
        obtain rfl := Option.some.inj taken
        exact .crash found unwritten
    · contradiction
  | untrace worker =>
    simp only [workerStep] at taken
    split at taken
    · rename_i task result found
      obtain rfl := Option.some.inj taken
      exact .untrace found
    · contradiction
  | settle worker =>
    simp only [workerStep] at taken
    split at taken
    · rename_i task result found
      obtain rfl := Option.some.inj taken
      exact .settle found
    · contradiction
  | deliver worker =>
    simp only [workerStep] at taken
    split at taken
    · rename_i task result found
      obtain rfl := Option.some.inj taken
      exact .deliver found
    · contradiction
  | leave worker =>
    simp only [workerStep] at taken
    split at taken
    · rename_i found empty
      split at taken
      · rename_i stopped
        obtain rfl := Option.some.inj taken
        exact .leave found empty stopped
      · contradiction
    · contradiction
  | _ => contradiction

/-- A pool that takes a step is neither crashed nor destroyed. -/
theorem step_cases (taken : (machine config dump).step state action = some next) :
    state.crashed = false ∧ state.destroyed = false ∧ PoolStep config dump state action next := by
  simp only [machine] at taken
  split at taken
  · contradiction
  · rename_i running
    obtain ⟨alive, open_⟩ : state.crashed = false ∧ state.destroyed = false := by
      simpa using running
    refine ⟨alive, open_, ?_⟩
    split at taken
    · rename_i clientFd method onComplete
      obtain rfl := Option.some.inj taken
      exact .call clientFd method onComplete
    · split at taken
      · rename_i task method found
        obtain rfl := Option.some.inj taken
        exact .submit found
      · contradiction
    · split at taken
      · contradiction
      · rename_i growing
        obtain rfl := Option.some.inj taken
        exact .spawn growing
    · split at taken
      · contradiction
      · rename_i going
        obtain rfl := Option.some.inj taken
        exact .stop (by simpa using going)
    · split at taken
      · rename_i ready
        obtain ⟨stopped, returned⟩ := Bool.and_eq_true_iff.mp ready
        obtain rfl := Option.some.inj taken
        exact .destroy stopped returned
      · contradiction
    · exact .worker (workerStep_cases taken)

end

end Chitta.ThreadPool
