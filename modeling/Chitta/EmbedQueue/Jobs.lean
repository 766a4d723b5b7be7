import Chitta.Slots
import Chitta.EmbedQueue.Queue

/-!
# The jobs of the embedding queue

With bounded writes a key is in flight as long as its job is queued, embedded or about to be closed.
A job moves from the queues to a worker and from there out of the flight; a query may move it from
one queue to the other. At every moment a promise belongs to one job that has not answered it, or it
was answered once.
-/
namespace Chitta.EmbedQueue

variable {κ : Type} [DecidableEq κ] {α : Type}

/-- The job of a worker that embeds. -/
def embedding (entry : Option (Job κ × Phase)) : Option (Job κ) :=
  match entry with
  | some (job, .embedding) => some job
  | _ => none

/-- The job of a worker that has given its answer. -/
def settled (entry : Option (Job κ × Phase)) : Option (Job κ) :=
  match entry with
  | some (job, .settled) => some job
  | _ => none

namespace State

/-- The jobs without an answer: queued ones, and those that are embedded. -/
def pending (config : Config) (state : State κ α) : List (Job κ) :=
  state.readQ ++ state.writeQ ++
    slots (fun worker => embedding (state.workers worker)) (config.writeWorkers + 1)

/-- The jobs with an answer that are still in flight. -/
def closing (config : Config) (state : State κ α) : List (Job κ) :=
  slots (fun worker => settled (state.workers worker)) (config.writeWorkers + 1)

/-- The jobs that are queued or running. -/
def jobs (config : Config) (state : State κ α) : List (Job κ) :=
  state.pending config ++ state.closing config

end State

variable {config : Config} {hash : String → κ} {state next : State κ α} {action : Action α}

/-! ## What a step does -/

/-- What a queue knows of its jobs. -/
structure Books (κ α : Type) where
  /-- `stop_`. -/
  stop : Bool
  /-- The workers that have returned. -/
  gone : List Nat
  /-- `read_q_`. -/
  readQ : List (Job κ)
  /-- `write_q_`. -/
  writeQ : List (Job κ)
  /-- The jobs of the workers. -/
  workers : Nat → Option (Job κ × Phase)
  /-- `inflight_`. -/
  inflight : AList fun _ : κ => Nat
  /-- The number of the next promise. -/
  promises : Nat
  /-- The values of promises. -/
  answers : List (Nat × List α)

/-- The books of a queue. -/
def State.books (state : State κ α) : Books κ α where
  stop := state.stop
  gone := state.gone
  readQ := state.readQ
  writeQ := state.writeQ
  workers := state.workers
  inflight := state.inflight
  promises := state.promises
  answers := state.answers

/-- What a step does to the books when writes are bounded. -/
inductive Effect (config : Config) (hash : String → κ) (state : State κ α) (action : Action α)
    (next : State κ α) : Prop
  | same (books : next.books = state.books)
  | reads (job : Job κ) (asked : ∃ entry, (entry, job.text) ∈ state.calls)
      (keyed : job.key = hash job.text) (absent : state.inflight.lookup job.key = none)
      (number : job.prom = state.promises) (room : state.readQ.length < kReadQueueCap)
      (books : next.books = { state.books with
        readQ := state.readQ ++ [job]
        inflight := state.inflight.insert job.key state.promises
        promises := state.promises + 1 })
  | writes (job : Job κ) (asked : ∃ entry, (entry, job.text) ∈ state.calls)
      (keyed : job.key = hash job.text) (absent : state.inflight.lookup job.key = none)
      (number : job.prom = state.promises) (room : state.writeQ.length < config.writeCap)
      (books : next.books = { state.books with
        writeQ := state.writeQ ++ [job]
        inflight := state.inflight.insert job.key state.promises
        promises := state.promises + 1 })
  | promotes (job : Job κ) (room : state.readQ.length < kReadQueueCap)
      (queued : state.writeQ.find? (·.key = job.key) = some job)
      (books : next.books = { state.books with
        readQ := job :: state.readQ
        writeQ := state.writeQ.eraseP (·.key = job.key) })
  | startsRead (worker : Nat) (job : Job κ) (rest : List (Job κ))
      (free : state.workers worker = none) (inside : worker < config.writeWorkers + 1)
      (queued : state.readQ = job :: rest)
      (books : next.books = { state.books with
        readQ := rest
        workers := Function.update state.workers worker (some (job, .embedding)) })
  | startsWrite (worker : Nat) (job : Job κ) (rest : List (Job κ))
      (free : state.workers worker = none) (inside : worker < config.writeWorkers + 1)
      (queued : state.writeQ = job :: rest)
      (books : next.books = { state.books with
        writeQ := rest
        workers := Function.update state.workers worker (some (job, .embedding)) })
  | answers (worker : Nat) (job : Job κ) (vec : List α)
      (busy : state.workers worker = some (job, .embedding))
      (given : action = .skip worker ∧ vec = [] ∨ action = .embed worker vec)
      (books : next.books = { state.books with
        workers := Function.update state.workers worker (some (job, .settled))
        answers := state.answers ++ [(job.prom, vec)] })
  | closes (worker : Nat) (job : Job κ) (busy : state.workers worker = some (job, .settled))
      (books : next.books = { state.books with
        workers := Function.update state.workers worker none
        inflight := state.inflight.erase job.key })
  | leaves (worker : Nat) (stopped : state.stop = true)
      (books : next.books = { state.books with gone := worker :: state.gone })
  | stops (books : next.books = { state.books with stop := true })

/-- The promotion of a queued write. -/
theorem lockQuery_promotes {text : String} {key : κ} {prom : Nat} {job : Job κ}
    (bounded : config.bounded = true) (flying : state.inflight.lookup key = some prom)
    (room : state.readQ.length < kReadQueueCap)
    (queued : state.writeQ.find? (·.key = key) = some job) :
    state.lockQuery config text key =
      { state with
        readQ := job :: state.readQ
        writeQ := state.writeQ.eraseP (·.key = key) } := by
  simp only [State.lockQuery, flying, bounded, room, queued, decide_true, Bool.and_self, if_true]

/-- The lock of a query. -/
theorem Effect.lockQuery (bounded : config.bounded = true) {entry : Entry} {text : String}
    (asked : (entry, text) ∈ state.calls) (calls : List (Entry × String)) :
    Effect config hash state action
      (({ state with calls } : State κ α).lockQuery config text (hash text)) := by
  cases flying : state.inflight.lookup (hash text) with
  | some prom =>
    by_cases room : state.readQ.length < kReadQueueCap
    · cases queued : state.writeQ.find? (·.key = hash text) with
      | some job =>
        have own : job.key = hash text := by simpa using List.find?_some queued
        have promoted := @lockQuery_promotes κ _ α config { state with calls } text (hash text) prom
          job bounded flying room queued
        rw [promoted]
        rw [← own] at queued
        exact .promotes job room queued (by simp only [State.books, own])
      | none =>
        have kept : ({ state with calls } : State κ α).lockQuery config text (hash text) =
            { state with calls } := by
          simp only [State.lockQuery, flying, queued]
          split <;> rfl
        rw [kept]
        exact .same rfl
    · have kept : ({ state with calls } : State κ α).lockQuery config text (hash text) =
          { state with calls } := by
        simp [State.lockQuery, flying, room]
      rw [kept]
      exact .same rfl
  | none =>
    unfold State.lockQuery
    rw [flying]
    dsimp only
    split
    · exact .same rfl
    · rename_i full
      exact .reads { text, key := hash text, write := false, prom := state.promises }
        ⟨entry, asked⟩ rfl flying rfl (Nat.lt_of_not_le full) rfl

/-- The lock of an enqueued write. -/
theorem Effect.lockEnqueueWrite (bounded : config.bounded = true) {entry : Entry} {text : String}
    (asked : (entry, text) ∈ state.calls) (calls : List (Entry × String)) :
    Effect config hash state action
      (({ state with calls } : State κ α).lockEnqueueWrite config text (hash text)) := by
  unfold State.lockEnqueueWrite
  split
  · exact .same rfl
  · rename_i absent
    have flying : state.inflight.lookup (hash text) = none := by simpa using absent
    split
    · exact .same rfl
    · rename_i full
      simp only [Bool.or_eq_true, decide_eq_true_eq, not_or] at full
      exact .writes { text, key := hash text, write := true, prom := state.promises }
        ⟨entry, asked⟩ rfl flying rfl (Nat.lt_of_not_le full.2) rfl

/-- The lock of a write that was admitted. -/
theorem Effect.lockWrite {entry : Entry} {text : String}
    (admitted : state.admits config (hash text) = true) (asked : (entry, text) ∈ state.calls)
    (calls : List (Entry × String)) :
    Effect config hash state action
      (({ state with calls } : State κ α).lockWrite text (hash text)) := by
  unfold State.lockWrite
  split
  · exact .same rfl
  · rename_i running
    have runs : state.stop = false := by simpa using running
    split
    · exact .same rfl
    · rename_i absent
      have flying : state.inflight.lookup (hash text) = none := by simpa using absent
      have room : state.writeQ.length < config.writeCap := by
        simpa [State.admits, runs, flying] using admitted
      exact .writes { text, key := hash text, write := true, prom := state.promises }
        ⟨entry, asked⟩ rfl flying rfl room rfl

/-- A worker takes a job. -/
theorem Effect.take {worker : Nat} (bounded : config.bounded = true)
    (free : state.workers worker = none) (taken : state.take config worker = some next) :
    Effect config hash state action next ∧ next.calls = state.calls := by
  unfold State.take at taken
  split at taken
  · rename_i job rest readQ
    cases taken
    refine ⟨.startsRead 0 job rest free (Nat.succ_pos _) readQ ?_, rfl⟩
    simp only [State.books, State.start, if_pos bounded]
  · rw [if_pos bounded] at taken
    contradiction
  · rename_i worker job rest writeQ
    split at taken
    · rename_i inside
      cases taken
      refine ⟨.startsWrite (worker + 1) job rest free (Nat.succ_lt_succ inside) writeQ ?_, rfl⟩
      simp only [State.books, State.start, if_pos bounded]
    · contradiction
  · contradiction

/-- A call that has not taken the lock was there before or was made just now. -/
def Recalls (state : State κ α) (action : Action α) (next : State κ α) : Prop :=
  ∀ call ∈ next.calls, call ∈ state.calls ∨ ∃ entry, action = .call entry call.2

omit [DecidableEq κ] in
/-- The calls are the same. -/
theorem Recalls.same (same : next.calls = state.calls) : Recalls state action next :=
  fun _ inside => .inl (same ▸ inside)

/-- The lock of a query leaves the calls alone. -/
theorem calls_lockQuery (text : String) (key : κ) :
    (state.lockQuery config text key).calls = state.calls := by
  unfold State.lockQuery
  split
  · split
    · split <;> rfl
    · rfl
  · split <;> rfl

/-- So does the lock of an enqueued write. -/
theorem calls_lockEnqueueWrite (text : String) (key : κ) :
    (state.lockEnqueueWrite config text key).calls = state.calls := by
  unfold State.lockEnqueueWrite
  split
  · rfl
  · split <;> rfl

/-- So does the lock of a write. -/
theorem calls_lockWrite (text : String) (key : κ) :
    (state.lockWrite text key).calls = state.calls := by
  unfold State.lockWrite
  split
  · rfl
  · split <;> rfl

/-- What a step does to the books and the calls. -/
theorem step_cases (bounded : config.bounded = true)
    (taken : (machine config hash).step state action = some next) :
    Effect config hash state action next ∧ Recalls state action next := by
  cases action with
  | call entry text =>
    simp only [machine] at taken
    split at taken
    · cases taken
      exact ⟨.same rfl, .same rfl⟩
    · cases taken
      refine ⟨.same rfl, fun call inside => ?_⟩
      rw [List.mem_append, List.mem_singleton] at inside
      cases inside with
      | inl before => exact .inl before
      | inr made => exact .inr ⟨entry, by rw [made]⟩
  | lock index =>
    simp only [machine] at taken
    split at taken
    · contradiction
    · rename_i entry text found
      have asked := List.mem_of_getElem? found
      have erased : ∀ call ∈ state.calls.eraseIdx index, call ∈ state.calls := fun call inside =>
        List.mem_of_mem_eraseIdx inside
      split at taken
      · cases taken
        refine ⟨.lockQuery bounded asked _, fun call inside => .inl (erased call ?_)⟩
        rwa [calls_lockQuery] at inside
      · cases taken
        refine ⟨.lockEnqueueWrite bounded asked _, fun call inside => .inl (erased call ?_)⟩
        rwa [calls_lockEnqueueWrite] at inside
      · split at taken
        · rename_i admitted
          cases taken
          refine ⟨.lockWrite admitted asked _, fun call inside => .inl (erased call ?_)⟩
          rwa [calls_lockWrite] at inside
        · contradiction
  | timeOut index =>
    simp only [machine] at taken
    split at taken
    · cases taken
      exact ⟨.same rfl, fun call inside => .inl (List.mem_of_mem_eraseIdx inside)⟩
    · contradiction
  | take worker =>
    simp only [machine] at taken
    split at taken
    · rename_i free
      split at taken
      · contradiction
      · obtain ⟨effect, same⟩ := Effect.take bounded free taken
        exact ⟨effect, .same same⟩
    · contradiction
  | skip worker =>
    simp only [machine] at taken
    split at taken
    · rename_i job busy
      split at taken
      · contradiction
      · cases taken
        exact ⟨.answers worker job [] busy (.inl ⟨rfl, rfl⟩) rfl, .same rfl⟩
    · contradiction
  | embed worker vec =>
    simp only [machine] at taken
    split at taken
    · rename_i job busy
      cases taken
      unfold State.store
      split
      · exact ⟨.answers worker job vec busy (.inr rfl) rfl, .same rfl⟩
      · exact ⟨.answers worker job vec busy (.inr rfl) rfl, .same rfl⟩
    · contradiction
  | settle worker =>
    simp only [machine] at taken
    split at taken
    · rename_i job busy
      cases taken
      refine ⟨.closes worker job busy ?_, .same rfl⟩
      simp only [State.books, State.settle, if_pos bounded]
    · contradiction
  | leave worker =>
    simp only [machine] at taken
    split at taken
    · split at taken
      · rename_i stopped
        cases taken
        simp only [Bool.and_eq_true] at stopped
        exact ⟨.leaves worker stopped.1 rfl, .same rfl⟩
      · contradiction
    · contradiction
  | stop =>
    cases taken
    exact ⟨.stops rfl, .same rfl⟩

/-- Workers that are not there take nothing. -/
theorem Effect.placed (effect : Effect config hash state action next)
    (placed : ∀ worker, config.writeWorkers < worker → state.workers worker = none) :
    ∀ worker, config.writeWorkers < worker → next.workers worker = none := by
  intro worker outside
  have free := placed worker outside
  have apart : ∀ other, state.workers other ≠ none ∨ other < config.writeWorkers + 1 →
      worker ≠ other := by
    rintro other (busy | inside) same
    · exact busy (same ▸ free)
    · omega
  show next.books.workers worker = none
  cases effect with
  | same books => rwa [books]
  | reads job asked keyed absent number room books => rwa [books]
  | writes job asked keyed absent number room books => rwa [books]
  | promotes job room queued books => rwa [books]
  | startsRead other job rest idle inside queued books =>
    rw [books]
    exact (Function.update_of_ne (apart other (.inr inside)) _ _).trans free
  | startsWrite other job rest idle inside queued books =>
    rw [books]
    exact (Function.update_of_ne (apart other (.inr inside)) _ _).trans free
  | answers other job vec busy given books =>
    rw [books]
    exact (Function.update_of_ne (apart other (.inl (by simp [busy]))) _ _).trans free
  | closes other job busy books =>
    rw [books]
    exact (Function.update_of_ne (apart other (.inl (by simp [busy]))) _ _).trans free
  | leaves other stopped books => rwa [books]
  | stops books => rwa [books]

/-! ## What a step does to the jobs -/

/-- What a step does to the jobs, their keys and their promises. -/
inductive Shift (config : Config) (hash : String → κ) (state : State κ α) (action : Action α)
    (next : State κ α) : Prop
  | moves (pending : (next.pending config).Perm (state.pending config))
      (closing : (next.closing config).Perm (state.closing config))
      (inflight : next.inflight = state.inflight) (promises : next.promises = state.promises)
      (answers : next.answers = state.answers)
  | opens (job : Job κ) (asked : ∃ entry, (entry, job.text) ∈ state.calls)
      (keyed : job.key = hash job.text) (absent : state.inflight.lookup job.key = none)
      (number : job.prom = state.promises)
      (pending : (next.pending config).Perm (job :: state.pending config))
      (closing : next.closing config = state.closing config)
      (inflight : next.inflight = state.inflight.insert job.key state.promises)
      (promises : next.promises = state.promises + 1) (answers : next.answers = state.answers)
  | answers (worker : Nat) (job : Job κ) (vec : List α)
      (busy : state.workers worker = some (job, .embedding))
      (given : action = .skip worker ∧ vec = [] ∨ action = .embed worker vec)
      (pending : (state.pending config).Perm (job :: next.pending config))
      (closing : (next.closing config).Perm (job :: state.closing config))
      (inflight : next.inflight = state.inflight) (promises : next.promises = state.promises)
      (answers : next.answers = state.answers ++ [(job.prom, vec)])
  | closes (job : Job κ) (pending : (next.pending config).Perm (state.pending config))
      (closing : (state.closing config).Perm (job :: next.closing config))
      (inflight : next.inflight = state.inflight.erase job.key)
      (promises : next.promises = state.promises) (answers : next.answers = state.answers)

omit [DecidableEq κ] in
/-- What is read of changed workers. -/
theorem read_update {β : Type} (read : Option (Job κ × Phase) → β)
    (workers : Nat → Option (Job κ × Phase)) (worker : Nat) (entry : Option (Job κ × Phase)) :
    (fun index => read (Function.update workers worker entry index)) =
      Function.update (fun index => read (workers index)) worker (read entry) :=
  Function.comp_update read workers worker entry

omit [DecidableEq κ] in
/-- The jobs without an answer of changed books. -/
theorem pending_eq {books : Books κ α} (same : next.books = books) : next.pending config =
    books.readQ ++ books.writeQ ++
      slots (fun worker => embedding (books.workers worker)) (config.writeWorkers + 1) := by
  rw [← same]
  rfl

omit [DecidableEq κ] in
/-- The answered jobs of changed books. -/
theorem closing_eq {books : Books κ α} (same : next.books = books) : next.closing config =
    slots (fun worker => settled (books.workers worker)) (config.writeWorkers + 1) := by
  rw [← same]
  rfl

omit [DecidableEq κ] in
/-- A worker starts with a job that was queued: the job stays pending. -/
theorem starts_jobs {worker : Nat} {job : Job κ} {readQ writeQ : List (Job κ)}
    (free : state.workers worker = none) (inside : worker < config.writeWorkers + 1)
    (left : (state.readQ ++ state.writeQ).Perm (job :: (readQ ++ writeQ)))
    (books : next.books = { state.books with
      readQ, writeQ, workers := Function.update state.workers worker (some (job, .embedding)) }) :
    (next.pending config).Perm (state.pending config) ∧
      (next.closing config).Perm (state.closing config) := by
  have first : embedding (state.workers worker) = none := by rw [free]; rfl
  have second : settled (state.workers worker) = none := by rw [free]; rfl
  have same : Function.update (fun index => settled (state.workers index)) worker none =
      fun index => settled (state.workers index) := by
    rw [← second]
    exact Function.update_eq_self worker _
  constructor
  · rw [pending_eq books]
    simp only [read_update embedding]
    refine (List.Perm.append_left _ (slots_fill _ first inside)).trans ?_
    exact List.perm_middle.trans (left.symm.append_right _)
  · rw [closing_eq books]
    simp only [read_update settled]
    show (slots (Function.update (fun index => settled (state.workers index)) worker none)
      (config.writeWorkers + 1)).Perm _
    rw [same]
    exact .refl _

omit [DecidableEq κ] in
/-- A worker answers its job: the job is pending no longer. -/
theorem answers_jobs {worker : Nat} {job : Job κ} {answers : List (Nat × List α)}
    (busy : state.workers worker = some (job, .embedding))
    (inside : worker < config.writeWorkers + 1)
    (books : next.books = { state.books with
      workers := Function.update state.workers worker (some (job, .settled)), answers }) :
    (state.pending config).Perm (job :: next.pending config) ∧
      (next.closing config).Perm (job :: state.closing config) := by
  have first : embedding (state.workers worker) = some job := by rw [busy]; rfl
  have second : settled (state.workers worker) = none := by rw [busy]; rfl
  constructor
  · rw [pending_eq books]
    simp only [read_update embedding]
    have emptied := slots_empty (fun index => embedding (state.workers index)) first inside
    exact (emptied.append_left _).trans List.perm_middle
  · rw [closing_eq books]
    simp only [read_update settled]
    exact slots_fill (fun index => settled (state.workers index)) second inside

omit [DecidableEq κ] in
/-- A worker is done with its job. -/
theorem closes_jobs {worker : Nat} {job : Job κ} {inflight : AList fun _ : κ => Nat}
    (busy : state.workers worker = some (job, .settled)) (inside : worker < config.writeWorkers + 1)
    (books : next.books = { state.books with
      workers := Function.update state.workers worker none, inflight }) :
    (next.pending config).Perm (state.pending config) ∧
      (state.closing config).Perm (job :: next.closing config) := by
  have first : embedding (state.workers worker) = none := by rw [busy]; rfl
  have second : settled (state.workers worker) = some job := by rw [busy]; rfl
  have same : Function.update (fun index => embedding (state.workers index)) worker none =
      fun index => embedding (state.workers index) := by
    rw [← first]
    exact Function.update_eq_self worker _
  constructor
  · rw [pending_eq books]
    simp only [read_update embedding]
    show (_ ++ slots (Function.update (fun index => embedding (state.workers index)) worker none)
      (config.writeWorkers + 1)).Perm _
    rw [same]
    exact .refl _
  · rw [closing_eq books]
    simp only [read_update settled]
    exact slots_empty (fun index => settled (state.workers index)) second inside

omit [DecidableEq κ] in
/-- A worker with a job is one of the workers. -/
theorem worker_inside (placed : ∀ worker, config.writeWorkers < worker →
      state.workers worker = none)
    {worker : Nat} {job : Job κ} {phase : Phase} (busy : state.workers worker = some (job, phase)) :
    worker < config.writeWorkers + 1 := by
  by_contra outside
  have free := placed worker (by omega)
  rw [busy] at free
  contradiction

/-- Nothing happens to the jobs. -/
theorem shift_none {stop : Bool} {gone : List Nat}
    (books : next.books = { state.books with stop, gone }) :
    Shift config hash state action next :=
  .moves (.of_eq (pending_eq books)) (.of_eq (closing_eq books)) (congrArg Books.inflight books)
    (congrArg Books.promises books) (congrArg Books.answers books)

/-- Jobs are moved, opened, answered or closed one at a time. -/
theorem Effect.shift (effect : Effect config hash state action next)
    (placed : ∀ worker, config.writeWorkers < worker → state.workers worker = none) :
    Shift config hash state action next := by
  cases effect with
  | same books => exact shift_none books
  | leaves worker stopped books => exact shift_none books
  | stops books => exact shift_none books
  | reads job asked keyed absent number room books =>
    refine .opens job asked keyed absent number ?_ (closing_eq books)
      (congrArg Books.inflight books)
      (congrArg Books.promises books) (congrArg Books.answers books)
    rw [pending_eq books]
    show (state.readQ ++ [job] ++ state.writeQ ++ _).Perm
        (job :: (state.readQ ++ state.writeQ ++ _))
    simp only [List.append_assoc, List.singleton_append]
    exact List.perm_middle
  | writes job asked keyed absent number room books =>
    refine .opens job asked keyed absent number ?_ (closing_eq books)
      (congrArg Books.inflight books)
      (congrArg Books.promises books) (congrArg Books.answers books)
    rw [pending_eq books]
    show (state.readQ ++ (state.writeQ ++ [job]) ++ _).Perm
        (job :: (state.readQ ++ state.writeQ ++ _))
    rw [← List.append_assoc, List.append_assoc, List.singleton_append]
    exact List.perm_middle
  | promotes job room queued books =>
    refine .moves ?_ ?_ (congrArg Books.inflight books) (congrArg Books.promises books)
      (congrArg Books.answers books)
    · rw [pending_eq books]
      have moved : (job :: state.readQ ++ state.writeQ.eraseP (·.key = job.key)).Perm
          (state.readQ ++ state.writeQ) :=
        List.perm_middle.symm.trans ((perm_find queued).symm.append_left state.readQ)
      exact moved.append_right _
    · rw [closing_eq books]
      exact .refl _
  | startsRead worker job rest free inside queued books =>
    have left : (state.readQ ++ state.writeQ).Perm (job :: (rest ++ state.writeQ)) := by
      rw [queued]
      exact .refl _
    obtain ⟨pending, closing⟩ := starts_jobs free inside left books
    exact .moves pending closing (congrArg Books.inflight books) (congrArg Books.promises books)
      (congrArg Books.answers books)
  | startsWrite worker job rest free inside queued books =>
    have left : (state.readQ ++ state.writeQ).Perm (job :: (state.readQ ++ rest)) := by
      rw [queued]
      exact List.perm_middle
    obtain ⟨pending, closing⟩ := starts_jobs free inside left books
    exact .moves pending closing (congrArg Books.inflight books) (congrArg Books.promises books)
      (congrArg Books.answers books)
  | answers worker job vec busy given books =>
    obtain ⟨pending, closing⟩ := answers_jobs busy (worker_inside placed busy) books
    exact .answers worker job vec busy given pending closing (congrArg Books.inflight books)
      (congrArg Books.promises books) (congrArg Books.answers books)
  | closes worker job busy books =>
    obtain ⟨pending, closing⟩ := closes_jobs busy (worker_inside placed busy) books
    exact .closes job pending closing (congrArg Books.inflight books)
      (congrArg Books.promises books) (congrArg Books.answers books)

/-! ## The books -/

/-- A key is in flight exactly when one job has it, and a promise belongs to one job without an
answer or has one answer. -/
structure Booked (config : Config) (state : State κ α) : Prop where
  /-- The workers that there are. -/
  placed : ∀ worker, config.writeWorkers < worker → state.workers worker = none
  /-- One job for each key. -/
  single : ((state.jobs config).map (·.key)).Nodup
  /-- The keys in flight are those of the jobs. -/
  flight : ∀ key prom, state.inflight.lookup key = some prom ↔
    ∃ job ∈ state.jobs config, job.key = key ∧ job.prom = prom
  /-- Every promise is pending or answered, once. -/
  promises : ((state.pending config).map (·.prom) ++ state.answers.map (·.1)).Perm
    (List.range state.promises)

/-- An empty queue. -/
theorem booked_initial : Booked config (State.initial : State κ α) := by
  have none_embeds : slots (fun worker => embedding ((State.initial : State κ α).workers worker))
      (config.writeWorkers + 1) = [] := by
    simp [slots, State.initial, embedding]
  have none_settled : slots (fun worker => settled ((State.initial : State κ α).workers worker))
      (config.writeWorkers + 1) = [] := by
    simp [slots, State.initial, settled]
  have pending : (State.initial : State κ α).pending config = [] := by
    rw [State.pending, none_embeds]
    rfl
  have jobs : (State.initial : State κ α).jobs config = [] := by
    rw [State.jobs, pending, State.closing, none_settled]
    rfl
  refine ⟨fun _ _ => rfl, by simp [jobs], fun key prom => ?_, ?_⟩
  · rw [jobs]
    simp [State.initial]
  · rw [pending]
    exact .refl _

/-- A step keeps the books. -/
theorem Booked.step (booked : Booked config state)
    (bounded : config.bounded = true)
    (taken : (machine config hash).step state action = some next) : Booked config next := by
  obtain ⟨placed, single, flight, promises⟩ := booked
  have effect := (step_cases bounded taken).1
  have later := effect.placed placed
  cases effect.shift placed with
  | moves pending closing inflight proms answers =>
    have jobs : (next.jobs config).Perm (state.jobs config) := pending.append closing
    refine ⟨later, (jobs.map _).nodup_iff.mpr single, fun key prom => ?_, ?_⟩
    · rw [inflight, flight]
      simp only [jobs.mem_iff]
    · rw [answers, proms]
      exact ((pending.map _).append_right _).trans promises
  | opens job asked keyed absent number pending closing inflight proms answers =>
    have jobs : (next.jobs config).Perm (job :: state.jobs config) := by
      rw [State.jobs, closing]
      exact pending.append_right _
    have fresh : ∀ other ∈ state.jobs config, other.key ≠ job.key := by
      intro other inside same
      have found := (flight other.key other.prom).mpr ⟨other, inside, rfl, rfl⟩
      rw [same, absent] at found
      contradiction
    refine ⟨later, ?_, fun key prom => ?_, ?_⟩
    · refine (jobs.map _).nodup_iff.mpr (List.nodup_cons.mpr ⟨fun inside => ?_, single⟩)
      obtain ⟨other, there, same⟩ := List.mem_map.mp inside
      exact fresh other there same
    · rw [inflight]
      simp only [jobs.mem_iff, List.mem_cons, exists_eq_or_imp]
      by_cases own : key = job.key
      · subst own
        rw [AList.lookup_insert, number]
        constructor
        · intro same
          exact .inl ⟨rfl, Option.some.inj same⟩
        · rintro (same | other)
          · rw [same.2]
          · obtain ⟨other, there, same, _⟩ := other
            exact absurd same (fresh other there)
      · rw [AList.lookup_insert_ne own, flight]
        constructor
        · exact .inr
        · rintro (same | other)
          · exact absurd same.1.symm own
          · exact other
    · rw [answers, proms, List.range_succ]
      have counted := (pending.map (·.prom)).append_right (state.answers.map (·.1))
      rw [List.map_cons, List.cons_append, number] at counted
      exact (counted.trans (promises.cons _)).trans (List.perm_append_singleton _ _).symm
  | answers worker job vec busy given pending closing inflight proms answers =>
    have jobs : (next.jobs config).Perm (state.jobs config) := by
      have first := closing.append_left (next.pending config)
      have second := pending.symm.append_right (state.closing config)
      exact (first.trans List.perm_middle).trans second
    refine ⟨later, (jobs.map _).nodup_iff.mpr single, fun key prom => ?_, ?_⟩
    · rw [inflight, flight]
      simp only [jobs.mem_iff]
    · rw [answers, proms]
      have counted := (pending.map (·.prom)).append_right (state.answers.map (·.1))
      simp only [List.map_append, List.map_cons, List.map_nil]
      rw [← List.append_assoc]
      exact ((List.perm_append_singleton _ _).trans counted.symm).trans promises
  | closes job pending closing inflight proms answers =>
    have jobs : (state.jobs config).Perm (job :: next.jobs config) := by
      have first := closing.append_left (state.pending config)
      exact (first.trans List.perm_middle).trans ((pending.symm.append_right _).cons _)
    have apart := (jobs.map (·.key)).nodup_iff.mp single
    rw [List.map_cons, List.nodup_cons] at apart
    refine ⟨later, apart.2, fun key prom => ?_, ?_⟩
    · rw [inflight]
      by_cases own : key = job.key
      · subst own
        rw [AList.lookup_erase]
        constructor
        · intro found
          contradiction
        · rintro ⟨other, there, same, _⟩
          exact absurd (same ▸ List.mem_map_of_mem (f := (·.key)) there) apart.1
      · rw [AList.lookup_erase_ne own, flight]
        simp only [jobs.mem_iff, List.mem_cons, exists_eq_or_imp]
        constructor
        · rintro (same | other)
          · exact absurd same.1.symm own
          · exact other
        · exact .inr
    · rw [answers, proms]
      exact ((pending.map _).append_right _).trans promises

/-! ## The lengths of the queues -/

/-- The queues are not too long. -/
structure Capped (config : Config) (state : State κ α) : Prop where
  /-- `read_q_`. -/
  reads : state.readQ.length ≤ kReadQueueCap
  /-- `write_q_`. -/
  writes : state.writeQ.length ≤ config.writeCap

/-- A step keeps them short. -/
theorem Capped.step (capped : Capped config state) (effect : Effect config hash state action next) :
    Capped config next := by
  obtain ⟨reads, writes⟩ := capped
  suffices short : next.books.readQ.length ≤ kReadQueueCap ∧
      next.books.writeQ.length ≤ config.writeCap from ⟨short.1, short.2⟩
  cases effect with
  | same books => rw [books]; exact ⟨reads, writes⟩
  | reads job asked keyed absent number room books =>
    rw [books]
    refine ⟨?_, writes⟩
    rw [List.length_append, List.length_singleton]
    omega
  | writes job asked keyed absent number room books =>
    rw [books]
    refine ⟨reads, ?_⟩
    rw [List.length_append, List.length_singleton]
    omega
  | promotes job room queued books =>
    rw [books]
    exact ⟨room, Nat.le_trans List.length_eraseP_le writes⟩
  | startsRead worker job rest free inside queued books =>
    rw [books]
    rw [queued, List.length_cons] at reads
    refine ⟨?_, writes⟩
    show rest.length ≤ kReadQueueCap
    omega
  | startsWrite worker job rest free inside queued books =>
    rw [books]
    rw [queued, List.length_cons] at writes
    refine ⟨reads, ?_⟩
    show rest.length ≤ config.writeCap
    omega
  | answers worker job vec busy given books => rw [books]; exact ⟨reads, writes⟩
  | closes worker job busy books => rw [books]; exact ⟨reads, writes⟩
  | leaves worker stopped books => rw [books]; exact ⟨reads, writes⟩
  | stops books => rw [books]; exact ⟨reads, writes⟩

/-! ## Workers that rest -/

/-- No worker has a step. -/
def Resting (config : Config) (hash : String → κ) (state : State κ α) : Prop :=
  ∀ worker vec, (machine config hash).step state (.take worker) = none ∧
    (machine config hash).step state (.embed worker vec) = none ∧
    (machine config hash).step state (.settle worker) = none

/-- As long as the queue runs no worker has returned. -/
def Staffed (state : State κ α) : Prop := state.stop = false → state.gone = []

omit [DecidableEq κ] in
/-- Workers return when the queue is stopped. -/
theorem Staffed.of_books {books : Books κ α} (same : next.books = books)
    (staffed : books.stop = false → books.gone = []) : Staffed next := by
  intro running
  rw [show next.gone = books.gone from congrArg Books.gone same]
  exact staffed ((congrArg Books.stop same).symm.trans running)

/-- A step keeps the workers. -/
theorem Staffed.step (staffed : Staffed state) (effect : Effect config hash state action next) :
    Staffed next := by
  cases effect with
  | same books => exact .of_books books staffed
  | reads job asked keyed absent number room books => exact .of_books books staffed
  | writes job asked keyed absent number room books => exact .of_books books staffed
  | promotes job room queued books => exact .of_books books staffed
  | startsRead worker job rest free inside queued books => exact .of_books books staffed
  | startsWrite worker job rest free inside queued books => exact .of_books books staffed
  | answers worker job vec busy given books => exact .of_books books staffed
  | closes worker job busy books => exact .of_books books staffed
  | leaves worker stopped books =>
    refine .of_books books fun running => ?_
    exact absurd (stopped.symm.trans running) (by simp)
  | stops books =>
    refine .of_books books fun running => ?_
    exact absurd running (by simp)

/-- Before the queue is stopped, workers rest only when nothing is queued or running. -/
theorem jobs_resting (bounded : config.bounded = true) (staffed : Staffed state)
    (running : state.stop = false) (resting : Resting config hash state) :
    state.jobs config = [] := by
  have free : ∀ worker, state.workers worker = none := by
    intro worker
    obtain ⟨_, embeds, settles⟩ := resting worker []
    simp only [machine] at embeds settles
    cases found : state.workers worker with
    | none => rfl
    | some entry =>
      obtain ⟨job, phase⟩ := entry
      rw [found] at embeds settles
      cases phase with
      | embedding => contradiction
      | settled => contradiction
  have takes : ∀ worker, state.take config worker = none := by
    intro worker
    have none_taken := (resting worker []).1
    simp only [machine, free worker, staffed running, List.not_mem_nil, if_false] at none_taken
    exact none_taken
  have readQ : state.readQ = [] := by
    have first := takes 0
    cases found : state.readQ with
    | nil => rfl
    | cons job rest =>
      simp [State.take, found] at first
  have writeQ : state.writeQ = [] := by
    have second := takes 1
    have workers : 0 < config.writeWorkers := by
      simpa [Config.bounded, Nat.pos_iff_ne_zero] using bounded
    cases found : state.writeQ with
    | nil => rfl
    | cons job rest =>
      simp [State.take, found, workers] at second
  simp [State.jobs, State.pending, State.closing, readQ, writeQ, slots, free, embedding, settled]

/-! ## Every worker step brings the answers nearer -/

/-- A worker works at a job. -/
def Action.Serves : Action α → Prop
  | .take _ | .skip _ | .embed _ _ | .settle _ => True
  | _ => False

/-- The steps that the workers owe: three for a queued job, two for one that is embedded and one for
one that is answered. -/
def State.owed (config : Config) (state : State κ α) : Nat :=
  state.readQ.length + state.writeQ.length + 2 * (state.pending config).length +
    (state.closing config).length

omit [DecidableEq κ] in
/-- A worker that answers owes one step less. -/
theorem owed_answers {worker : Nat} {job : Job κ} {answers : List (Nat × List α)}
    (placed : ∀ worker, config.writeWorkers < worker → state.workers worker = none)
    (busy : state.workers worker = some (job, .embedding))
    (books : next.books = { state.books with
      workers := Function.update state.workers worker (some (job, .settled)), answers }) :
    next.owed config < state.owed config := by
  obtain ⟨pending, closing⟩ := answers_jobs busy (worker_inside placed busy) books
  have readQ : next.readQ = state.readQ := congrArg Books.readQ books
  have writeQ : next.writeQ = state.writeQ := congrArg Books.writeQ books
  have fewer := pending.length_eq
  have more := closing.length_eq
  rw [List.length_cons] at fewer more
  simp only [State.owed, readQ, writeQ]
  omega

omit [DecidableEq κ] in
/-- A worker that starts with a queued job owes one step less. -/
theorem owed_starts {worker : Nat} {job : Job κ} {readQ writeQ : List (Job κ)}
    (free : state.workers worker = none) (inside : worker < config.writeWorkers + 1)
    (left : (state.readQ ++ state.writeQ).Perm (job :: (readQ ++ writeQ)))
    (books : next.books = { state.books with
      readQ, writeQ, workers := Function.update state.workers worker (some (job, .embedding)) }) :
    next.owed config < state.owed config := by
  obtain ⟨pending, closing⟩ := starts_jobs free inside left books
  have first : next.readQ = readQ := congrArg Books.readQ books
  have second : next.writeQ = writeQ := congrArg Books.writeQ books
  have fewer := left.length_eq
  rw [List.length_append, List.length_cons, List.length_append] at fewer
  simp only [State.owed, first, second, pending.length_eq, closing.length_eq]
  omega

/-- A worker that takes the next job owes one step less. -/
theorem owed_take {worker : Nat} (bounded : config.bounded = true)
    (free : state.workers worker = none) (taken : state.take config worker = some next) :
    next.owed config < state.owed config := by
  unfold State.take at taken
  split at taken
  · rename_i job rest queued
    cases taken
    refine @owed_starts κ α config state _ 0 job rest state.writeQ free (Nat.succ_pos _) ?_
      (by simp only [State.books, State.start, if_pos bounded])
    rw [queued]
    exact .refl _
  · rw [if_pos bounded] at taken
    contradiction
  · rename_i worker job rest queued
    split at taken
    · rename_i inside
      cases taken
      refine @owed_starts κ α config state _ (worker + 1) job state.readQ rest free
        (Nat.succ_lt_succ inside) ?_ (by simp only [State.books, State.start, if_pos bounded])
      rw [queued]
      exact List.perm_middle
    · contradiction
  · contradiction

/-- After every step of a worker the workers owe less. -/
theorem owed_step (bounded : config.bounded = true)
    (placed : ∀ worker, config.writeWorkers < worker → state.workers worker = none)
    (serves : action.Serves) (taken : (machine config hash).step state action = some next) :
    next.owed config < state.owed config := by
  cases action with
  | take worker =>
    simp only [machine] at taken
    split at taken
    · rename_i free
      split at taken
      · contradiction
      · exact owed_take bounded free taken
    · contradiction
  | skip worker =>
    simp only [machine] at taken
    split at taken
    · rename_i job busy
      split at taken
      · contradiction
      · cases taken
        exact owed_answers placed busy rfl
    · contradiction
  | embed worker vec =>
    simp only [machine] at taken
    split at taken
    · rename_i job busy
      cases taken
      have books : ((state.store config job.key vec).answer worker job vec).books =
          { state.books with
            workers := Function.update state.workers worker (some (job, .settled))
            answers := state.answers ++ [(job.prom, vec)] } := by
        unfold State.store
        split <;> rfl
      exact owed_answers placed busy books
    · contradiction
  | settle worker =>
    simp only [machine] at taken
    split at taken
    · rename_i job busy
      cases taken
      have books : (state.settle config worker job).books = { state.books with
          workers := Function.update state.workers worker none
          inflight := state.inflight.erase job.key } := by
        simp only [State.books, State.settle, if_pos bounded]
      obtain ⟨pending, closing⟩ := closes_jobs busy (worker_inside placed busy) books
      have fewer := closing.length_eq
      rw [List.length_cons] at fewer
      simp only [State.owed, pending.length_eq, fewer]
      show state.readQ.length + state.writeQ.length + _ + _ < _
      omega
    · contradiction
  | _ => contradiction

/-! ## All runs -/

/-- What holds in every state reached. -/
structure Accounted (config : Config) (state : State κ α) : Prop where
  /-- The keys, the jobs and the promises. -/
  booked : Booked config state
  /-- The lengths of the queues. -/
  capped : Capped config state
  /-- The workers. -/
  staffed : Staffed state

/-- Every run keeps the jobs accounted for. -/
theorem accounted_reached (bounded : config.bounded = true)
    (reached : (machine config hash).Reachable state) : Accounted config state := by
  refine reached.invariant ⟨booked_initial, ⟨Nat.zero_le _, Nat.zero_le _⟩, fun _ => rfl⟩ ?_
  intro state action next accounted _ taken
  have effect := (step_cases bounded taken).1
  exact ⟨accounted.booked.step bounded taken, accounted.capped.step effect,
    accounted.staffed.step effect⟩

/-- Every promise was answered once. -/
def State.AllAnswered (state : State κ α) : Prop :=
  (state.answers.map (·.1)).Perm (List.range state.promises)

/-- Workers that do not rest have a step. -/
theorem serves_of_not_resting (busy : ¬Resting config hash state) :
    ∃ action : Action α, action.Serves ∧ ((machine config hash).step state action).isSome := by
  by_contra nothing
  have stuck : ∀ action : Action α, action.Serves →
      (machine config hash).step state action = none := by
    intro action serves
    cases taken : (machine config hash).step state action with
    | none => rfl
    | some next => exact absurd ⟨action, serves, by rw [taken]; rfl⟩ nothing
  exact busy fun worker vec => ⟨stuck (.take worker) trivial, stuck (.embed worker vec) trivial,
    stuck (.settle worker) trivial⟩

/-- With bounded writes a key is in flight exactly when a job of it is queued or running, and there
is one such job; every promise was answered once or belongs to one job that will answer it; a
promotion keeps the jobs that are queued; and the queues are not too long. Before the queue is
stopped, workers rest only when every promise was answered: as long as one was not, a worker has a
step, and only finitely many of these follow one another. -/
theorem jobs_accounted (bounded : config.bounded = true)
    (reached : (machine config hash).Reachable state) :
    (∀ key, key ∈ state.inflight ↔ ∃ job ∈ state.jobs config, job.key = key) ∧
    ((state.jobs config).map (·.key)).Nodup ∧
    ((state.pending config).map (·.prom) ++ state.answers.map (·.1)).Perm
      (List.range state.promises) ∧
    (∀ text key prom job, state.inflight.lookup key = some prom →
      state.readQ.length < kReadQueueCap → state.writeQ.find? (·.key = key) = some job →
      (state.lockQuery config text key).readQ = job :: state.readQ ∧
        (state.writeQ).Perm (job :: (state.lockQuery config text key).writeQ)) ∧
    state.readQ.length ≤ kReadQueueCap ∧ state.writeQ.length ≤ config.writeCap ∧
    (state.stop = false → Resting config hash state → state.AllAnswered) ∧
    (state.stop = false → state.AllAnswered ∨
      ∃ action : Action α, action.Serves ∧ ((machine config hash).step state action).isSome) ∧
    ∀ action next, action.Serves → (machine config hash).step state action = some next →
      next.owed config < state.owed config := by
  obtain ⟨booked, capped, staffed⟩ := accounted_reached bounded reached
  have rests : state.stop = false → Resting config hash state → state.AllAnswered := by
    intro running resting
    have none_left := jobs_resting bounded staffed running resting
    have pending : state.pending config = [] := (List.append_eq_nil_iff.mp none_left).1
    have promises := booked.promises
    rw [pending] at promises
    exact promises
  refine ⟨fun key => ?_, booked.single, booked.promises, ?_, capped.reads, capped.writes, rests,
    fun running => ?_, fun _ _ serves taken => owed_step bounded booked.placed serves taken⟩
  · rw [← AList.lookup_isSome, Option.isSome_iff_exists]
    constructor
    · rintro ⟨prom, found⟩
      obtain ⟨job, inside, same, _⟩ := (booked.flight key prom).mp found
      exact ⟨job, inside, same⟩
    · rintro ⟨job, inside, same⟩
      exact ⟨job.prom, (booked.flight key job.prom).mpr ⟨job, inside, same, rfl⟩⟩
  · intro text key prom job flying room queued
    rw [lockQuery_promotes bounded flying room queued]
    exact ⟨rfl, perm_find queued⟩
  · by_cases resting : Resting config hash state
    · exact .inl (rests running resting)
    · exact .inr (serves_of_not_resting resting)

/-! ## A promotion -/

/-- A queue with one write worker. -/
def oneWriter : Config where
  writeWorkers := 1
  writeCap := 2

/-- Two texts are enqueued, a query of the first promotes its job, and the workers answer both. -/
def promotedOnce : List (Action Nat) :=
  [.call .enqueueWrite "a", .lock 0, .call .enqueueWrite "ab", .lock 0, .call .query "a", .lock 0,
    .take 0, .take 1, .embed 1 [2], .embed 0 [1], .settle 0, .settle 1]

/-- Every promise was answered then, once. -/
theorem jobs_accounted_promoted : ∃ state : State Nat Nat,
    (machine oneWriter String.length).run .initial promotedOnce = some state ∧
      state.promises = 2 ∧ ((state.jobs oneWriter).map (·.key)).Nodup ∧ state.AllAnswered := by
  have replayed : ((machine oneWriter String.length).run .initial promotedOnce).any
      (fun state : State Nat Nat => state.promises == 2 && (state.pending oneWriter).isEmpty) =
        true := by decide
  obtain ⟨state, run, same⟩ := (Option.any_eq_true _ _).mp replayed
  simp only [Bool.and_eq_true, beq_iff_eq, List.isEmpty_iff] at same
  obtain ⟨two, empty⟩ := same
  have accounted := jobs_accounted (by decide) (.of_run _ .initial run)
  have promises := accounted.2.2.1
  rw [empty] at promises
  exact ⟨state, run, two, accounted.2.1, promises⟩

end Chitta.EmbedQueue
