import Chitta.ThreadPool.Pool

/-!
# Where the tasks of a pool are

An accepted task is in the queue, with one worker or over; its work has run when its worker is past
it, and its callback has been called when it is over. The counters of the pool are the lengths and
numbers they stand for. Every step keeps these balances, whoever takes it.
-/
namespace Chitta.ThreadPool

/-- The weight of the task of a worker. -/
def Worker.holds (weight : Task → Nat) : Worker → Nat
  | .working task => weight task
  | .completed task _ => weight task
  | .untraced task _ => weight task
  | .delivering task _ => weight task
  | _ => 0

/-- The weight of the task of a worker when its work has run. -/
def Worker.hasRun (weight : Nat → Nat) : Worker → Nat
  | .completed task _ => weight task.id
  | .untraced task _ => weight task.id
  | .delivering task _ => weight task.id
  | _ => 0

/-- Whether a worker has a task that is not marked completed. -/
def Worker.running : Worker → Nat
  | .working _ => 1
  | .completed _ _ => 1
  | .untraced _ _ => 1
  | _ => 0

/-- The weight of a task whose result is delivered. -/
def Task.delivered (weight : Nat → Nat) (task : Task) : Nat :=
  if task.onComplete then weight task.id else 0

/-- The submissions with this id. -/
def State.issued (state : State) (id : Nat) : Nat :=
  tally (fun call => once id call.1.id) state.calls +
    tally (fun task => once id task.id) state.accepted + tally (once id) state.rejected

/-- The balances of a pool. -/
structure Accounts (config : Config) (state : State) : Prop where
  /-- An id is issued once. -/
  unique : ∀ id, state.issued id ≤ 1
  /-- The next ids have not been issued. -/
  fresh : ∀ id, state.nextId ≤ id → state.issued id = 0
  /-- The accepted tasks. -/
  placed : ∀ weight, tally weight state.tasks + tally (Worker.holds weight) state.workers +
    tally weight state.finished = tally weight state.accepted
  /-- The tasks whose work has run. -/
  ran : ∀ weight, tally weight state.ran =
    tally (Worker.hasRun weight) state.workers +
      tally (fun task => weight task.id) state.finished
  /-- The results that have been delivered. -/
  delivered : ∀ weight, tally (fun completion => weight completion.1) state.completions =
    tally (Task.delivered weight) state.finished
  /-- `pending_tasks_`. -/
  pending : state.pendingTasks = state.tasks.length
  /-- `active_tasks_`. -/
  running : state.activeTasks = tally Worker.running state.workers
  /-- `num_workers_`. -/
  workers : state.numWorkers = state.workers.length
  /-- There are not too many workers. -/
  bounded : state.numWorkers ≤ config.maxWorkers

namespace Accounts

variable {config : Config} {dump : Json → String} {state : State}

/-- An empty pool. -/
theorem empty : Accounts config .empty where
  unique _ := Nat.zero_le _
  fresh _ _ := rfl
  placed _ := rfl
  ran _ := rfl
  delivered _ := rfl
  pending := rfl
  running := rfl
  workers := rfl
  bounded := Nat.zero_le _

/-- A worker is added. -/
theorem spawnWorker (accounts : Accounts config state) :
    Accounts config (state.spawnWorker config) := by
  unfold State.spawnWorker
  split
  · exact accounts
  · rename_i room
    exact
      { accounts with
        placed := by
          intro weight
          have placed := accounts.placed weight
          simp only [tally_append, tally_cons, tally_nil, Worker.holds]
          omega
        ran := by
          intro weight
          have ran := accounts.ran weight
          simp only [tally_append, tally_cons, tally_nil, Worker.hasRun]
          omega
        running := by
          have running := accounts.running
          simp only [tally_append, tally_cons, tally_nil, Worker.running]
          omega
        workers := by
          have workers := accounts.workers
          simp only [List.length_append, List.length_cons, List.length_nil]
          omega
        bounded := by
          show state.numWorkers + 1 ≤ config.maxWorkers
          omega }

/-- The constructed pool. -/
theorem construct (count : Nat) : Accounts config (.construct config count) := by
  induction count with
  | zero => exact empty
  | succ count ih => exact ih.spawnWorker

/-- A submission gets an id. -/
theorem call (accounts : Accounts config state) (clientFd : Int) (method : String)
    (onComplete : Bool) :
    Accounts config
      { state with
        nextId := state.nextId + 1
        calls := state.calls ++ [({ id := state.nextId, clientFd, onComplete }, method)] } := by
  have issued : ∀ id, State.issued
      { state with
        nextId := state.nextId + 1
        calls := state.calls ++ [({ id := state.nextId, clientFd, onComplete }, method)] } id =
      state.issued id + once id state.nextId := by
    intro id
    simp only [State.issued, tally_append, tally_cons, tally_nil]
    omega
  exact
    { accounts with
      unique := by
        intro id
        rw [issued]
        by_cases own : state.nextId = id
        · have none_yet := accounts.fresh id (by omega)
          simp only [once, if_pos own]
          omega
        · have unique := accounts.unique id
          simp only [once, if_neg own]
          omega
      fresh := by
        intro id later
        rw [issued]
        have beyond : state.nextId + 1 ≤ id := later
        have none_yet := accounts.fresh id (by omega)
        have other : ¬state.nextId = id := by omega
        simp only [once, if_neg other]
        omega }

/-- A submission gets the lock. -/
theorem submit (accounts : Accounts config state) {index : Nat} {task : Task} {method : String}
    (found : state.calls[index]? = some (task, method)) :
    Accounts config
      (State.submit config { state with calls := state.calls.eraseIdx index } task method) := by
  have taken : ∀ id, tally (fun call => once id call.1.id) (state.calls.eraseIdx index) +
      once id task.id = tally (fun call => once id call.1.id) state.calls := fun id =>
    tally_eraseIdx (fun call : Task × String => once id call.1.id) found
  unfold State.submit
  split
  · have issued : ∀ id, State.issued
        { state with
          calls := state.calls.eraseIdx index, rejected := task.id :: state.rejected } id =
        state.issued id := by
      intro id
      have balance := taken id
      simp only [State.issued, tally_cons]
      omega
    exact
      { accounts with
        unique := fun id => by rw [issued]; exact accounts.unique id
        fresh := fun id later => by rw [issued]; exact accounts.fresh id later }
  · dsimp only
    exact
      { accounts with
        unique := by
          intro id
          have balance := taken id
          have unique := accounts.unique id
          simp only [State.issued, tally_cons] at unique ⊢
          omega
        fresh := by
          intro id later
          have balance := taken id
          have none_yet := accounts.fresh id later
          simp only [State.issued, tally_cons] at none_yet ⊢
          omega
        placed := by
          intro weight
          have placed := accounts.placed weight
          simp only [tally_append, tally_cons, tally_nil]
          omega
        pending := by
          have pending := accounts.pending
          simp only [List.length_append, List.length_cons, List.length_nil]
          omega }

/-- What a worker does to the balances of its own task. -/
theorem placed_set (accounts : Accounts config state) {worker : Nat} {old : Worker} (new : Worker)
    (found : state.workers[worker]? = some old) (weight : Task → Nat) :
    tally (Worker.holds weight) (state.workers.set worker new) + Worker.holds weight old +
        tally weight state.tasks + tally weight state.finished =
      tally weight state.accepted + Worker.holds weight new := by
  have placed := accounts.placed weight
  have moved := tally_set (Worker.holds weight) new found
  omega

/-- What a worker does to the balances of the work that has run. -/
theorem ran_set (accounts : Accounts config state) {worker : Nat} {old : Worker} (new : Worker)
    (found : state.workers[worker]? = some old) (weight : Nat → Nat) :
    tally (Worker.hasRun weight) (state.workers.set worker new) + Worker.hasRun weight old +
        tally (fun task => weight task.id) state.finished =
      tally weight state.ran + Worker.hasRun weight new := by
  have ran := accounts.ran weight
  have moved := tally_set (Worker.hasRun weight) new found
  omega

/-- What a worker does to the number of running tasks. -/
theorem running_set (accounts : Accounts config state) {worker : Nat} {old : Worker} (new : Worker)
    (found : state.workers[worker]? = some old) :
    tally Worker.running (state.workers.set worker new) + Worker.running old =
      state.activeTasks + Worker.running new := by
  have running := accounts.running
  have moved := tally_set Worker.running new found
  omega

/-- A worker goes on with a task that it keeps. -/
theorem move (accounts : Accounts config state) {worker : Nat} {old : Worker} (new : Worker)
    (found : state.workers[worker]? = some old)
    (holds : ∀ weight, Worker.holds weight new = Worker.holds weight old)
    (hasRun : ∀ weight, Worker.hasRun weight new = Worker.hasRun weight old)
    (running : Worker.running new = Worker.running old) :
    Accounts config (state.move worker new) :=
  { accounts with
    placed := by
      intro weight
      have balance := accounts.placed_set new found weight
      have same := holds weight
      simp only [State.move]
      omega
    ran := by
      intro weight
      have balance := accounts.ran_set new found weight
      have same := hasRun weight
      simp only [State.move]
      omega
    running := by
      have balance := accounts.running_set new found
      simp only [State.move]
      omega
    workers := by
      simp only [State.move, List.length_set]
      exact accounts.workers }

/-- A worker takes a task. -/
theorem take (accounts : Accounts config state) {worker : Nat} {task : Task} {rest : List Task}
    (found : state.workers[worker]? = some .waiting) (first : state.tasks = task :: rest) :
    Accounts config
      { state with
        tasks := rest
        pendingTasks := state.pendingTasks - 1
        activeTasks := state.activeTasks + 1
        workers := state.workers.set worker (.working task) } :=
  { accounts with
    placed := by
      intro weight
      have balance := accounts.placed_set (.working task) found weight
      rw [first] at balance
      simp only [Worker.holds, tally_cons] at balance ⊢
      omega
    ran := by
      intro weight
      have balance := accounts.ran_set (.working task) found weight
      simp only [Worker.hasRun] at balance ⊢
      omega
    pending := by
      have pending := accounts.pending
      rw [first, List.length_cons] at pending
      show state.pendingTasks - 1 = rest.length
      omega
    running := by
      have balance := accounts.running_set (.working task) found
      simp only [Worker.running] at balance ⊢
      omega
    workers := by
      simp only [List.length_set]
      exact accounts.workers }

/-- The work of a task ends. -/
theorem work (accounts : Accounts config state) {worker : Nat} {task : Task}
    (found : state.workers[worker]? = some (.working task)) (result : ByteArray) :
    Accounts config
      (State.move { state with ran := task.id :: state.ran } worker (.completed task result)) :=
  { accounts with
    placed := by
      intro weight
      have balance := accounts.placed_set (.completed task result) found weight
      simp only [State.move, Worker.holds] at balance ⊢
      omega
    ran := by
      intro weight
      have balance := accounts.ran_set (.completed task result) found weight
      simp only [State.move, Worker.hasRun, tally_cons] at balance ⊢
      omega
    running := by
      have balance := accounts.running_set (.completed task result) found
      simp only [State.move, Worker.running] at balance ⊢
      omega
    workers := by
      simp only [State.move, List.length_set]
      exact accounts.workers }

/-- A task does not count as active any more. -/
theorem settle (accounts : Accounts config state) {worker : Nat} {task : Task} {result : ByteArray}
    (found : state.workers[worker]? = some (.untraced task result)) :
    Accounts config
      { state.move worker (.delivering task result) with activeTasks := state.activeTasks - 1 } :=
  { accounts with
    placed := by
      intro weight
      have balance := accounts.placed_set (.delivering task result) found weight
      simp only [State.move, Worker.holds] at balance ⊢
      omega
    ran := by
      intro weight
      have balance := accounts.ran_set (.delivering task result) found weight
      simp only [State.move, Worker.hasRun] at balance ⊢
      omega
    running := by
      have balance := accounts.running_set (.delivering task result) found
      simp only [State.move, Worker.running] at balance ⊢
      omega
    workers := by
      simp only [State.move, List.length_set]
      exact accounts.workers }

/-- A result is delivered. -/
theorem deliver (accounts : Accounts config state) {worker : Nat} {task : Task}
    {result : ByteArray} (found : state.workers[worker]? = some (.delivering task result)) :
    Accounts config
      { state.move worker .waiting with
        finished := task :: state.finished
        completions :=
          if task.onComplete then (task.id, task.clientFd, result) :: state.completions
          else state.completions } :=
  { accounts with
    placed := by
      intro weight
      have balance := accounts.placed_set .waiting found weight
      simp only [State.move, Worker.holds, tally_cons] at balance ⊢
      omega
    ran := by
      intro weight
      have balance := accounts.ran_set .waiting found weight
      simp only [State.move, Worker.hasRun, tally_cons] at balance ⊢
      omega
    delivered := by
      intro weight
      have delivered := accounts.delivered weight
      simp only [tally_cons, Task.delivered]
      split
      · show weight task.id + _ = _
        omega
      · omega
    running := by
      have balance := accounts.running_set .waiting found
      simp only [State.move, Worker.running] at balance ⊢
      omega
    workers := by
      simp only [State.move, List.length_set]
      exact accounts.workers }

end Accounts

end Chitta.ThreadPool
