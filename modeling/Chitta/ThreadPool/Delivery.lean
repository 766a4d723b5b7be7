import Chitta.ThreadPool.Accounts

/-!
# Every accepted task is delivered once

A queue that is not empty always has somebody who will serve it: a worker that has not returned,
or, before the first worker, a submission that is about to add one. So the workers can go on until
every accepted task is over, each of their steps brings them nearer, and the destructor, which waits
for all of them, finds the queue empty. This needs the bytes of every exception to be UTF-8 and no
submission that comes too late.
-/
namespace Chitta.ThreadPool

variable {config : Config} {dump : Json → String} {state next : State}

/-- The exceptions can be written, an accepted task comes while a worker can take it, and the
workers do not grow under the destructor. -/
def Sound (config : Config) (state : State) : Action → Prop
  | .submit _ =>
    state.tasks.length < config.maxQueueDepth →
      0 < config.maxWorkers ∧
        (state.stop = true → ∃ worker ∈ state.workers, worker.isReturned = false)
  | .spawn => state.stop = true → config.maxWorkers ≤ state.numWorkers
  | .work _ (.threw what) => what.IsValidUTF8
  | .stop => state.tasks = [] ∨ state.workers ≠ []
  | _ => True

/-- A task in the queue has somebody who will serve it. -/
structure Serving (config : Config) (state : State) : Prop where
  /-- The process has not ended. -/
  alive : state.crashed = false
  /-- A worker returns when the pool is stopped. -/
  staying : state.stop = false → ∀ worker ∈ state.workers, worker.isReturned = false
  /-- The queue is served. -/
  served : state.tasks = [] ∨ (∃ worker ∈ state.workers, worker.isReturned = false) ∨
    (state.workers = [] ∧ state.stop = false ∧ 0 < state.growing ∧ 0 < config.maxWorkers)
  /-- The destructor returns after the workers. -/
  ended : state.destroyed = true →
    state.stop = true ∧ ∀ worker ∈ state.workers, worker.isReturned = true

namespace Serving

/-- A worker that is added while the pool is not stopped can serve the queue. -/
theorem added (serving : Serving config state) (running : state.destroyed = false)
    (going : state.stop = false) (growing : Nat) :
    Serving config
      { state with
        workers := state.workers ++ [.waiting]
        numWorkers := state.numWorkers + 1
        growing
        crashed := state.stop } where
  alive := going
  staying := by
    intro _ worker inside
    cases List.mem_append.mp inside with
    | inl old => exact serving.staying going worker old
    | inr own => rw [List.mem_singleton.mp own]; rfl
  served := .inr (.inl ⟨.waiting, List.mem_append_right _ List.mem_cons_self, rfl⟩)
  ended := by
    intro destroyed
    have late : state.destroyed = true := destroyed
    rw [running] at late
    contradiction

/-- A submission adds a worker when the pool is not stopped. -/
theorem spawnWorker (serving : Serving config state) (running : state.destroyed = false)
    (early : state.stop = true → config.maxWorkers ≤ state.numWorkers)
    (workers : state.numWorkers = state.workers.length) :
    Serving config (State.spawnWorker config { state with growing := state.growing - 1 }) := by
  unfold State.spawnWorker
  split
  · rename_i full
    have kept : state.tasks = [] ∨ ∃ worker ∈ state.workers, worker.isReturned = false := by
      cases serving.served with
      | inl empty => exact .inl empty
      | inr other =>
        cases other with
        | inl live => exact .inr live
        | inr soon =>
          have none_yet : state.workers.length = 0 := by rw [soon.1, List.length_nil]
          have room := soon.2.2.2
          have bound : config.maxWorkers ≤ state.numWorkers := full
          omega
    exact { serving with served := kept.imp_right .inl }
  · rename_i room
    have going : state.stop = false := by
      cases stopped : state.stop with
      | false => rfl
      | true => exact absurd (early stopped) room
    exact serving.added running going (state.growing - 1)

/-- The constructed pool. -/
theorem construct (count : Nat) :
    Serving config (.construct config count) ∧ (State.construct config count).stop = false ∧
      (State.construct config count).destroyed = false := by
  induction count with
  | zero =>
    have empty : Serving config .empty :=
      { alive := rfl
        staying := by intro _ worker inside; contradiction
        served := .inl rfl
        ended := by intro destroyed; contradiction }
    exact ⟨empty, rfl, rfl⟩
  | succ count ih =>
    rw [State.construct]
    generalize State.construct config count = pool at ih
    obtain ⟨serving, going, running⟩ := ih
    unfold State.spawnWorker
    split
    · exact ⟨serving, going, running⟩
    · exact ⟨serving.added running going pool.growing, going, running⟩

/-- A submission gets the lock. -/
theorem submit (serving : Serving config state) {index : Nat} (task : Task) (method : String)
    (sound : Sound config state (.submit index))
    (workers : state.numWorkers = state.workers.length) :
    Serving config
      (State.submit config { state with calls := state.calls.eraseIdx index } task method) := by
  unfold State.submit
  split
  · exact { serving with }
  · rename_i room
    have space : state.tasks.length < config.maxQueueDepth := Nat.not_le.mp room
    obtain ⟨some, late⟩ := sound space
    exact
      { serving with
        served := by
          apply Or.inr
          cases stopped : state.stop with
          | true => exact .inl (late stopped)
          | false =>
            cases present : state.workers with
            | cons first rest =>
              have inside : first ∈ state.workers := by rw [present]; exact List.mem_cons_self
              exact .inl ⟨first, List.mem_cons_self, serving.staying stopped first inside⟩
            | nil =>
              have none_yet : state.numWorkers = 0 := by rw [workers, present, List.length_nil]
              refine .inr ⟨rfl, rfl, ?_, some⟩
              rw [none_yet]
              simp [some] }

/-- A worker goes on. -/
theorem move (serving : Serving config state) (running : state.destroyed = false) {worker : Nat}
    {old new : Worker} (found : state.workers[worker]? = some old) (active : new.isReturned = false)
    (after : State) (workers : after.workers = state.workers.set worker new)
    (stop : after.stop = state.stop) (crashed : after.crashed = state.crashed)
    (destroyed : after.destroyed = state.destroyed) : Serving config after where
  alive := crashed.trans serving.alive
  staying := by
    intro going other inside
    rw [workers] at inside
    cases List.mem_or_eq_of_mem_set inside with
    | inl same => exact serving.staying (stop ▸ going) other same
    | inr own => rw [own]; exact active
  served := by
    have inside : worker < state.workers.length := (List.getElem?_eq_some_iff.mp found).1
    exact .inr (.inl ⟨new, workers ▸ List.mem_set inside new, active⟩)
  ended := by
    intro late
    rw [destroyed, running] at late
    contradiction

/-- A worker returns when the queue is empty. -/
theorem leave (serving : Serving config state) (running : state.destroyed = false) (worker : Nat)
    (empty : state.tasks = []) (stopped : state.stop = true) :
    Serving config (state.move worker .returned) where
  alive := serving.alive
  staying := by
    intro going
    have still : state.stop = false := going
    rw [stopped] at still
    contradiction
  served := .inl empty
  ended := by
    intro late
    have destroyed : state.destroyed = true := late
    rw [running] at destroyed
    contradiction

/-- The destructor stops a pool that serves its queue with workers. -/
theorem stop (serving : Serving config state) (running : state.destroyed = false)
    (sound : Sound config state .stop) : Serving config { state with stop := true } where
  alive := serving.alive
  staying := by
    intro going
    contradiction
  served := by
    cases serving.served with
    | inl empty => exact .inl empty
    | inr other =>
      cases other with
      | inl live => exact .inr (.inl live)
      | inr soon => exact sound.imp_right fun some => absurd soon.1 some
  ended := by
    intro late
    have destroyed : state.destroyed = true := late
    rw [running] at destroyed
    contradiction

end Serving

/-! ## The steps -/

/-- The invariant of a pool. -/
structure Kept (config : Config) (state : State) : Prop where
  /-- The balances. -/
  accounts : Accounts config state
  /-- The queue is served. -/
  serving : Serving config state

/-- The work of a task has a result: a text of an exception is UTF-8, so its answer can be
written. -/
theorem written_of_sound {worker : Nat} {outcome : Outcome}
    (sound : Sound config state (.work worker outcome)) : outcome.result dump ≠ none := by
  cases outcome with
  | returned result => exact Option.some_ne_none result
  | threw what =>
    have valid : what.IsValidUTF8 := sound
    simp [Outcome.result, String.fromUTF8?, valid]

/-- A sound step of a worker keeps the invariant. -/
theorem Kept.workerStep (kept : Kept config state) (running : state.destroyed = false)
    {action : Action} (sound : Sound config state action)
    (step : WorkerStep dump state action next) : Kept config next := by
  obtain ⟨accounts, serving⟩ := kept
  cases step with
  | take found first =>
    exact ⟨accounts.take found first, serving.move running found rfl _ rfl rfl rfl rfl⟩
  | @work _ _ _ result found written =>
    exact ⟨accounts.work found result, serving.move running found rfl _ rfl rfl rfl rfl⟩
  | crash found unwritten => exact absurd unwritten (written_of_sound sound)
  | @untrace _ task result found =>
    have moved := accounts.move (.untraced task result) found (fun _ => rfl) (fun _ => rfl) rfl
    exact ⟨{ moved with }, serving.move running found rfl _ rfl rfl rfl rfl⟩
  | settle found =>
    exact ⟨accounts.settle found, serving.move running found rfl _ rfl rfl rfl rfl⟩
  | deliver found =>
    exact ⟨accounts.deliver found, serving.move running found rfl _ rfl rfl rfl rfl⟩
  | @leave worker found empty stopped =>
    exact ⟨accounts.move .returned found (fun _ => rfl) (fun _ => rfl) rfl,
      serving.leave running worker empty stopped⟩

/-- A sound step keeps the invariant. -/
theorem Kept.step (kept : Kept config state) {action : Action}
    (sound : Sound config state action)
    (taken : (machine config dump).step state action = some next) : Kept config next := by
  obtain ⟨_, running, step⟩ := step_cases taken
  cases step with
  | call clientFd method onComplete =>
    exact ⟨kept.accounts.call clientFd method onComplete, { kept.serving with }⟩
  | @submit index task method found =>
    exact ⟨kept.accounts.submit found,
      kept.serving.submit task method sound kept.accounts.workers⟩
  | spawn _ =>
    have accounts : Accounts config { state with growing := state.growing - 1 } :=
      { kept.accounts with }
    exact ⟨accounts.spawnWorker,
      kept.serving.spawnWorker running sound kept.accounts.workers⟩
  | stop _ => exact ⟨{ kept.accounts with }, kept.serving.stop running sound⟩
  | destroy stopped returned =>
    exact ⟨{ kept.accounts with },
      { kept.serving with ended := fun _ => ⟨stopped, List.all_eq_true.mp returned⟩ }⟩
  | worker step => exact kept.workerStep running sound step

/-- So does a run. -/
theorem Kept.reached (reached : (machine config dump).Reaches (Sound config) state) :
    Kept config state :=
  reached.invariant ⟨.construct config.minWorkers, (Serving.construct config.minWorkers).1⟩
    fun _ _ _ kept sound taken => kept.step sound taken

/-! ## Once -/

/-- How often the work of a task has run. -/
def State.runs (state : State) (id : Nat) : Nat := tally (once id) state.ran

/-- How often the callback of a task has been called. -/
def State.completed (state : State) (id : Nat) : Nat :=
  tally (fun completion => once id completion.1) state.completions

/-- The queue is empty, and every accepted task has run and has been delivered once. -/
def AllDelivered (state : State) : Prop :=
  state.tasks = [] ∧ ∀ task ∈ state.accepted, state.runs task.id = 1 ∧
    state.completed task.id = if task.onComplete then 1 else 0

/-- A delivered task weighs at most what it weighs itself. -/
theorem delivered_le (weight : Nat → Nat) (task : Task) :
    task.delivered weight ≤ weight task.id := by
  unfold Task.delivered
  split
  · exact Nat.le_refl _
  · exact Nat.zero_le _

/-- The work of a task that a worker has run is held by it. -/
theorem hasRun_le (weight : Nat → Nat) (worker : Worker) :
    worker.hasRun weight ≤ worker.holds fun task => weight task.id := by
  cases worker with
  | working task => exact Nat.zero_le _
  | _ => exact Nat.le_refl _

namespace Accounts

/-- A task runs at most as often as it is accepted. -/
theorem runs_le (accounts : Accounts config state) (id : Nat) :
    state.runs id ≤ tally (fun task => once id task.id) state.accepted := by
  have ran : state.runs id = _ := accounts.ran (once id)
  have placed := accounts.placed fun task => once id task.id
  have less := tally_mono (hasRun_le (once id)) state.workers
  omega

/-- So is its callback called. -/
theorem completed_le (accounts : Accounts config state) (id : Nat) :
    state.completed id ≤ tally (fun task => once id task.id) state.accepted := by
  have delivered : state.completed id = _ := accounts.delivered (once id)
  have placed := accounts.placed fun task => once id task.id
  have less := tally_mono (delivered_le (once id)) state.finished
  omega

/-- An id is accepted at most once. -/
theorem accepted_le (accounts : Accounts config state) (id : Nat) :
    tally (fun task => once id task.id) state.accepted ≤ 1 := by
  have unique := accounts.unique id
  unfold State.issued at unique
  omega

/-- A refused id is not accepted. -/
theorem accepted_rejected (accounts : Accounts config state) {id : Nat}
    (refused : id ∈ state.rejected) :
    tally (fun task => once id task.id) state.accepted = 0 := by
  have unique := accounts.unique id
  have present := le_tally (once id) refused
  have own : once id id = 1 := if_pos rfl
  unfold State.issued at unique
  omega

/-- Without a task in the queue or with a worker, everything is delivered. -/
theorem allDelivered (accounts : Accounts config state) (empty : state.tasks = [])
    (idle : ∀ weight, tally (Worker.holds weight) state.workers = 0) : AllDelivered state := by
  refine ⟨empty, fun task accepted => ?_⟩
  have finished : ∀ weight, tally weight state.finished = tally weight state.accepted := by
    intro weight
    have placed := accounts.placed weight
    have nobody := idle weight
    rw [empty, tally_nil] at placed
    omega
  have own : once task.id task.id = 1 := if_pos rfl
  have alone :
      tally (fun other => once task.id other.id) state.accepted ≤ once task.id task.id := by
    rw [own]
    exact accounts.accepted_le task.id
  constructor
  · have ran : state.runs task.id = _ := accounts.ran (once task.id)
    have none_left := tally_mono (hasRun_le (once task.id)) state.workers
    have nobody := idle fun other => once task.id other.id
    have counted := tally_alone (fun _ => Nat.le_refl _) accepted alone
    have same := finished fun other => once task.id other.id
    omega
  · have delivered : state.completed task.id = _ := accounts.delivered (once task.id)
    rw [delivered, finished, tally_alone (delivered_le (once task.id)) accepted alone,
      Task.delivered, own]

end Accounts

/-! ## Progress -/

/-- The steps that are the pool's own. -/
def Action.Internal : Action → Prop
  | .spawn | .take _ | .work _ _ | .untrace _ | .settle _ | .deliver _ | .leave _ => True
  | _ => False

/-- The steps of a worker until it has returned, without those for tasks in the queue. -/
def Worker.remaining : Worker → Nat
  | .working _ => 6
  | .completed _ _ => 5
  | .untraced _ _ => 4
  | .delivering _ _ => 3
  | .waiting => 1
  | .returned => 0

/-- The steps of the pool until everything is delivered. -/
def State.remaining (state : State) : Nat :=
  6 * state.tasks.length + tally Worker.remaining state.workers + 2 * state.growing

/-- Whether a worker has no task. -/
def Worker.Idle (worker : Worker) : Prop := worker = .waiting ∨ worker = .returned

/-- A worker with a task can go on. -/
theorem workerStep_busy (config : Config) (dump : Json → String) {index : Nat} {worker : Worker}
    (found : state.workers[index]? = some worker) (busy : ¬worker.Idle) :
    ∃ action, action.Internal ∧ Sound config state action ∧
      ((machine config dump).step { state with crashed := false, destroyed := false }
        action).isSome := by
  cases worker with
  | waiting => exact absurd (.inl rfl) busy
  | returned => exact absurd (.inr rfl) busy
  | working task =>
    refine ⟨.work index (.returned .empty), trivial, trivial, ?_⟩
    simp [machine, workerStep, found, Outcome.result]
  | completed task result =>
    refine ⟨.untrace index, trivial, trivial, ?_⟩
    simp [machine, workerStep, found]
  | untraced task result =>
    refine ⟨.settle index, trivial, trivial, ?_⟩
    simp [machine, workerStep, found]
  | delivering task result =>
    refine ⟨.deliver index, trivial, trivial, ?_⟩
    simp [machine, workerStep, found]

/-- A queue that is not empty is served when no worker has a task. -/
theorem Serving.serve (serving : Serving config state) (dump : Json → String)
    (idle : ∀ worker ∈ state.workers, worker.Idle) (some : state.tasks ≠ []) :
    ∃ action, action.Internal ∧ Sound config state action ∧
      ((machine config dump).step { state with crashed := false, destroyed := false }
        action).isSome := by
  cases serving.served.resolve_left some with
  | inl live =>
    obtain ⟨worker, inside, active⟩ := live
    have waiting : worker = .waiting := by
      apply (idle worker inside).resolve_right
      intro gone
      rw [gone] at active
      contradiction
    obtain ⟨index, found⟩ := List.getElem?_of_mem inside
    rw [waiting] at found
    obtain ⟨task, rest, first⟩ := List.exists_cons_of_ne_nil some
    refine ⟨.take index, trivial, trivial, ?_⟩
    simp [machine, workerStep, found, first]
  | inr soon =>
    refine ⟨.spawn, trivial, fun stopped => ?_, ?_⟩
    · rw [soon.2.1] at stopped
      contradiction
    · have growing : state.growing ≠ 0 := Nat.ne_of_gt soon.2.2.1
      simp [machine, growing]

/-- Everything is delivered, or a step of the pool's own is possible. -/
theorem Kept.progress (kept : Kept config state) (running : state.destroyed = false) :
    AllDelivered state ∨ ∃ action, action.Internal ∧ Sound config state action ∧
      ((machine config dump).step state action).isSome := by
  have open_ : { state with crashed := false, destroyed := false } = state := by
    have alive := kept.serving.alive
    cases state
    cases running
    cases alive
    rfl
  by_cases idle : ∀ worker ∈ state.workers, worker.Idle
  · by_cases empty : state.tasks = []
    · apply Or.inl
      apply kept.accounts.allDelivered empty
      intro weight
      apply tally_eq_zero
      intro worker inside
      cases idle worker inside with
      | inl waiting => rw [waiting]; rfl
      | inr returned => rw [returned]; rfl
    · have served := kept.serving.serve dump idle empty
      rw [open_] at served
      exact .inr served
  · have busy : ∃ worker ∈ state.workers, ¬worker.Idle := by
      apply Classical.byContradiction
      intro nobody
      apply idle
      intro worker inside
      apply Classical.byContradiction
      intro held
      exact nobody ⟨worker, inside, held⟩
    obtain ⟨worker, inside, held⟩ := busy
    obtain ⟨index, found⟩ := List.getElem?_of_mem inside
    have going := workerStep_busy config dump found held
    rw [open_] at going
    exact .inr going

/-- What a worker's move does to the remaining steps. -/
theorem remaining_set {worker : Nat} {old new : Worker}
    (found : state.workers[worker]? = some old) :
    tally Worker.remaining (state.workers.set worker new) + old.remaining =
      tally Worker.remaining state.workers + new.remaining :=
  tally_set Worker.remaining new found

/-- A step of a worker brings it nearer to its end. -/
theorem remaining_workerStep {action : Action} (sound : Sound config state action)
    (step : WorkerStep dump state action next) : next.remaining < state.remaining := by
  cases step with
  | @take worker task rest found first =>
    have moved : _ = _ + (Worker.working task).remaining := remaining_set found
    simp only [State.remaining, first, List.length_cons, Worker.remaining] at moved ⊢
    omega
  | @work worker outcome task result found _ =>
    have moved : _ = _ + (Worker.completed task result).remaining := remaining_set found
    simp only [State.remaining, State.move, Worker.remaining] at moved ⊢
    omega
  | crash found unwritten => exact absurd unwritten (written_of_sound sound)
  | @untrace worker task result found =>
    have moved : _ = _ + (Worker.untraced task result).remaining := remaining_set found
    simp only [State.remaining, State.move, Worker.remaining] at moved ⊢
    omega
  | @settle worker task result found =>
    have moved : _ = _ + (Worker.delivering task result).remaining := remaining_set found
    simp only [State.remaining, State.move, Worker.remaining] at moved ⊢
    omega
  | @deliver worker task result found =>
    have moved : _ = _ + Worker.waiting.remaining := remaining_set found
    simp only [State.remaining, State.move, Worker.remaining] at moved ⊢
    omega
  | leave found _ _ =>
    have moved : _ = _ + Worker.returned.remaining := remaining_set found
    simp only [State.remaining, State.move, Worker.remaining] at moved ⊢
    omega

/-- A step of the pool's own brings it nearer to its end. -/
theorem remaining_step {action : Action} (own : action.Internal)
    (sound : Sound config state action)
    (taken : (machine config dump).step state action = some next) :
    next.remaining < state.remaining := by
  cases (step_cases taken).2.2 with
  | call _ _ _ => contradiction
  | submit _ => contradiction
  | spawn growing =>
    unfold State.spawnWorker
    split
    · show 6 * state.tasks.length + tally _ state.workers + 2 * (state.growing - 1) <
        6 * state.tasks.length + tally _ state.workers + 2 * state.growing
      omega
    · simp only [State.remaining, tally_append, tally_cons, tally_nil, Worker.remaining]
      omega
  | stop _ => contradiction
  | destroy _ _ => contradiction
  | worker step => exact remaining_workerStep sound step

/-! ## The pool delivers once -/

/-- What is promised of a pool. -/
structure DeliversOnce (config : Config) (state : State) : Prop where
  /-- The process has not ended. -/
  alive : state.crashed = false
  /-- An accepted task runs at most once, and its callback is called at most once. -/
  accepted : ∀ task ∈ state.accepted, state.runs task.id ≤ 1 ∧ state.completed task.id ≤ 1
  /-- A refused one neither runs nor is answered. -/
  rejected : ∀ id ∈ state.rejected, state.runs id = 0 ∧ state.completed id = 0
  /-- `pending_tasks_`. -/
  pending : state.pendingTasks = state.tasks.length
  /-- `active_tasks_`. -/
  active : state.activeTasks = tally Worker.running state.workers
  /-- There are not too many workers. -/
  workers : state.workers.length ≤ config.maxWorkers
  /-- The destructor returns when everything is delivered. -/
  drained : state.destroyed = true → AllDelivered state

/-- In a run of sound steps every accepted task runs once and is delivered once: never more often,
and at the latest when no step of the pool's own is possible or the destructor returns. Only
finitely many of these follow one another. -/
theorem delivers_once (reached : (machine config dump).Reaches (Sound config) state) :
    DeliversOnce config state ∧
      (AllDelivered state ∨ ∃ action, action.Internal ∧ Sound config state action ∧
        ((machine config dump).step state action).isSome) ∧
      ∀ action next, action.Internal → Sound config state action →
        (machine config dump).step state action = some next →
        next.remaining < state.remaining := by
  have kept := Kept.reached reached
  obtain ⟨accounts, serving⟩ := kept
  have drained : state.destroyed = true → AllDelivered state := by
    intro destroyed
    have returned := (serving.ended destroyed).2
    have stopped := (serving.ended destroyed).1
    have empty : state.tasks = [] := by
      cases serving.served with
      | inl empty => exact empty
      | inr other =>
        cases other with
        | inl live =>
          obtain ⟨worker, inside, active⟩ := live
          rw [returned worker inside] at active
          contradiction
        | inr soon =>
          rw [soon.2.1] at stopped
          contradiction
    apply accounts.allDelivered empty
    intro weight
    apply tally_eq_zero
    intro worker inside
    have gone := returned worker inside
    cases worker with
    | returned => rfl
    | _ => contradiction
  refine ⟨?_, ?_, fun action next own sound taken => remaining_step own sound taken⟩
  · exact
      { alive := serving.alive
        accepted := by
          intro task _
          have once := accounts.accepted_le task.id
          exact ⟨Nat.le_trans (accounts.runs_le task.id) once,
            Nat.le_trans (accounts.completed_le task.id) once⟩
        rejected := by
          intro id refused
          have never := accounts.accepted_rejected refused
          have runs := accounts.runs_le id
          have completed := accounts.completed_le id
          omega
        pending := accounts.pending
        active := accounts.running
        workers := accounts.workers ▸ accounts.bounded
        drained }
  · cases destroyed : state.destroyed with
    | true => exact .inl (drained destroyed)
    | false => exact Kept.progress ⟨accounts, serving⟩ destroyed

/-! ## A task that throws bytes -/

/-- A pool with one worker. -/
def single : Config where
  minWorkers := 1
  maxWorkers := 1
  maxQueueDepth := 4

/-- A task throws an exception that is not UTF-8. -/
def throwingBytes : List Action :=
  [.call 7 "echo" true, .submit 0, .take 0, .work 0 (.threw ⟨#[0xff]⟩)]

/-- Its callback is never called: the process has ended. -/
theorem delivers_once_refuted :
    ¬∀ (config : Config) (dump : Json → String) (state : State),
      (machine config dump).Reachable state → AllDelivered state ∨
        ∃ action, action.Internal ∧ ((machine config dump).step state action).isSome := by
  intro claim
  have replayed : ((machine single fun _ => "").run (.construct single 1) throwingBytes).any
      (fun state => state.crashed && state.accepted.any fun task =>
        task.onComplete && state.completed task.id == 0) = true := by decide
  obtain ⟨state, run, found⟩ := (Option.any_eq_true _ _).mp replayed
  obtain ⟨crashed, waiting⟩ := Bool.and_eq_true_iff.mp found
  cases claim single (fun _ => "") state (.of_run _ .initial run) with
  | inl delivered =>
    obtain ⟨task, accepted, missed⟩ := List.any_eq_true.mp waiting
    obtain ⟨callback, never⟩ := Bool.and_eq_true_iff.mp missed
    have once := (delivered.2 task accepted).2
    rw [if_pos callback, eq_of_beq never] at once
    contradiction
  | inr possible =>
    obtain ⟨action, _, taken⟩ := possible
    simp [machine, crashed] at taken

/-- A task that throws a text is delivered before the destructor returns. -/
theorem delivers_once_thrown :
    ∃ state : State, state.destroyed = true ∧ state.accepted.length = 1 ∧ AllDelivered state := by
  have start : (machine single fun _ => "").Reaches (Sound single) (.construct single 1) := .initial
  have queued := (start.step (Action.call 7 "echo" true) trivial rfl).step (Action.submit 0)
    (fun _ => ⟨by decide, fun stopped => by contradiction⟩) rfl
  have thrown := (queued.step (Action.take 0) trivial rfl).step
    (Action.work 0 (.threw "no".toUTF8)) (show "no".toUTF8.IsValidUTF8 by decide) rfl
  have delivered := ((thrown.step (Action.untrace 0) trivial rfl).step (Action.settle 0) trivial
    rfl).step (Action.deliver 0) trivial rfl
  have ended := ((delivered.step Action.stop (.inl rfl) rfl).step (Action.leave 0) trivial
    rfl).step Action.destroy trivial rfl
  exact ⟨_, rfl, rfl, (delivers_once ended).1.drained rfl⟩

end Chitta.ThreadPool
