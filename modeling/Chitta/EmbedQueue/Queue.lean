import Chitta.Machine
import Chitta.EmbedQueue.Cache

/-!
# The embedding queue

A caller looks a text up in the cache and, when it is not there, enters the queue under a lock of
its own; a worker takes a job, embeds its text and puts the vector into the cache. With write
workers a text is in flight until its vector is in the cache, so no second job for it is queued.
Without them a write is never in flight and a job leaves the flight when it is taken, so two jobs
for one text can be queued, and the second one puts a cached key again without taking its old node
out.
-/
namespace Chitta.EmbedQueue

/-- The settings of a queue. -/
structure Config where
  /-- `write_workers_count_`. -/
  writeWorkers : Nat
  /-- `write_cap_`. -/
  writeCap : Nat

/-- `bounded_writes`. -/
def Config.bounded (config : Config) : Bool := config.writeWorkers ≠ 0

/-- `kReadQueueCap`. -/
def kReadQueueCap : Nat := 8

/-- What a caller wants. -/
inductive Entry where
  /-- `query`. -/
  | query
  /-- `enqueue_write`. -/
  | enqueueWrite
  /-- `write`. -/
  | write
deriving DecidableEq

/-- `Job`; a promise has a number. -/
structure Job (κ : Type) where
  /-- The text. -/
  text : String
  /-- The key. -/
  key : κ
  /-- Whether it is a write. -/
  write : Bool
  /-- The promise. -/
  prom : Nat

/-- Whether the promise of a job has its value. -/
inductive Phase where
  /-- The text is being embedded. -/
  | embedding
  /-- The promise has its value. -/
  | settled
deriving DecidableEq

/-- A queue. -/
structure State (κ α : Type) where
  /-- `stop_`. -/
  stop : Bool
  /-- `read_q_`. -/
  readQ : List (Job κ)
  /-- `write_q_`. -/
  writeQ : List (Job κ)
  /-- `inflight_`: the promise of a key. -/
  inflight : AList fun _ : κ => Nat
  /-- The number of the next promise. -/
  promises : Nat
  /-- The values of promises. -/
  answers : List (Nat × List α)
  /-- The callers that missed the cache and have not taken the lock yet. -/
  calls : List (Entry × String)
  /-- The jobs of the workers; the worker 0 is the query worker. -/
  workers : Nat → Option (Job κ × Phase)
  /-- The workers that have returned. -/
  gone : List Nat
  /-- The cache. -/
  cache : Cache κ α
  /-- The keys that were found in the cache or put into it, the last one first. -/
  uses : List κ

/-- What happens to a queue. -/
inductive Action (α : Type) where
  /-- A caller looks a text up. -/
  | call (entry : Entry) (text : String)
  /-- A caller that missed takes the lock. -/
  | lock (index : Nat)
  /-- The admission of a write times out. -/
  | timeOut (index : Nat)
  /-- A worker takes a job. -/
  | take (worker : Nat)
  /-- The deadline of a read has passed. -/
  | skip (worker : Nat)
  /-- A worker has embedded its text, with an empty vector when that failed. -/
  | embed (worker : Nat) (vec : List α)
  /-- A worker is done with its job. -/
  | settle (worker : Nat)
  /-- A worker finds the queue stopped and nothing to take. -/
  | leave (worker : Nat)
  /-- The queue is stopped. -/
  | stop

variable {κ : Type} [DecidableEq κ] {α : Type}

namespace State

/-- An empty queue. -/
def initial : State κ α where
  stop := false
  readQ := []
  writeQ := []
  inflight := ∅
  promises := 0
  answers := []
  calls := []
  workers _ := none
  gone := []
  cache := .empty
  uses := []

variable (config : Config) (state : State κ α)

/-- The lock of `query`: a queued write of the same text is promoted. -/
def lockQuery (text : String) (key : κ) : State κ α :=
  match state.inflight.lookup key with
  | some _ =>
    if config.bounded && state.readQ.length < kReadQueueCap then
      match state.writeQ.find? (·.key = key) with
      | some job =>
        { state with readQ := job :: state.readQ, writeQ := state.writeQ.eraseP (·.key = key) }
      | none => state
    else state
  | none =>
    if kReadQueueCap ≤ state.readQ.length then state
    else
      let job : Job κ := { text, key, write := false, prom := state.promises }
      { state with
        readQ := state.readQ ++ [job]
        inflight := state.inflight.insert key state.promises
        promises := state.promises + 1 }

/-- The lock of `enqueue_write`: the text is in flight only when writes are bounded. -/
def lockEnqueueWrite (text : String) (key : κ) : State κ α :=
  if (state.inflight.lookup key).isSome then state
  else if state.stop || config.writeCap ≤ state.writeQ.length then state
  else
    let job : Job κ := { text, key, write := true, prom := state.promises }
    { state with
      writeQ := state.writeQ ++ [job]
      inflight :=
        if config.bounded then state.inflight.insert key state.promises else state.inflight
      promises := state.promises + 1 }

/-- Whether a write is admitted. -/
def admits (key : κ) : Bool :=
  state.stop || (state.inflight.lookup key).isSome || state.writeQ.length < config.writeCap

/-- The lock of `write`, after its admission. -/
def lockWrite (text : String) (key : κ) : State κ α :=
  if state.stop then state
  else if (state.inflight.lookup key).isSome then state
  else
    let job : Job κ := { text, key, write := true, prom := state.promises }
    { state with
      writeQ := state.writeQ ++ [job]
      inflight := state.inflight.insert key state.promises
      promises := state.promises + 1 }

/-- A worker starts with a job. -/
def start (worker : Nat) (job : Job κ) : State κ α :=
  { state with
    workers := Function.update state.workers worker (some (job, .embedding))
    inflight := if config.bounded then state.inflight else state.inflight.erase job.key }

/-- The query worker takes reads first, and writes when no other worker does. -/
def take (worker : Nat) : Option (State κ α) :=
  match worker, state.readQ, state.writeQ with
  | 0, job :: rest, _ => some ({ state with readQ := rest }.start config 0 job)
  | 0, [], job :: rest =>
    if config.bounded then none else some ({ state with writeQ := rest }.start config 0 job)
  | worker + 1, _, job :: rest =>
    if worker < config.writeWorkers then
      some ({ state with writeQ := rest }.start config (worker + 1) job)
    else none
  | _, _, [] => none

/-- A promise gets its value. -/
def answer (worker : Nat) (job : Job κ) (vec : List α) : State κ α :=
  { state with
    answers := state.answers ++ [(job.prom, vec)]
    workers := Function.update state.workers worker (some (job, .settled)) }

/-- A worker is done with a job. -/
def settle (worker : Nat) (job : Job κ) : State κ α :=
  { state with
    workers := Function.update state.workers worker none
    inflight := if config.bounded then state.inflight.erase job.key else state.inflight }

/-- A vector that is not empty is put into the cache. -/
def store (key : κ) (vec : List α) : State κ α :=
  if vec.isEmpty then state
  else
    { state with
      cache := state.cache.put config.bounded key vec
      uses := key :: state.uses }

end State

/-- The steps of a queue. -/
def machine (config : Config) (hash : String → κ) : Machine (State κ α) (Action α) where
  initial := .initial
  step state action :=
    match action with
    | .call entry text =>
      let key := hash text
      match state.cache.get key with
      | (some _, cache) => some { state with cache, uses := key :: state.uses }
      | (none, cache) =>
        let entry := if entry = .write && !config.bounded then .query else entry
        some { state with cache, calls := state.calls ++ [(entry, text)] }
    | .lock index =>
      match state.calls[index]? with
      | none => none
      | some (entry, text) =>
        let rest := { state with calls := state.calls.eraseIdx index }
        match entry with
        | .query => some (rest.lockQuery config text (hash text))
        | .enqueueWrite => some (rest.lockEnqueueWrite config text (hash text))
        | .write =>
          if state.admits config (hash text) then some (rest.lockWrite text (hash text)) else none
    | .timeOut index =>
      match state.calls[index]? with
      | some (.write, _) => some { state with calls := state.calls.eraseIdx index }
      | _ => none
    | .take worker =>
      match state.workers worker with
      | none => if worker ∈ state.gone then none else state.take config worker
      | some _ => none
    | .skip worker =>
      match state.workers worker with
      | some (job, .embedding) => if job.write then none else some (state.answer worker job [])
      | _ => none
    | .embed worker vec =>
      match state.workers worker with
      | some (job, .embedding) => some ((state.store config job.key vec).answer worker job vec)
      | _ => none
    | .settle worker =>
      match state.workers worker with
      | some (job, .settled) => some (state.settle config worker job)
      | _ => none
    | .leave worker =>
      match state.workers worker with
      | none =>
        if state.stop && (state.take config worker).isNone then
          some { state with gone := worker :: state.gone }
        else none
      | some _ => none
    | .stop => some { state with stop := true }

/-! ## What a step does to the cache -/

section

variable {config : Config} {state next : State κ α}

/-- The cache and its uses are left alone. -/
def SameCache (state next : State κ α) : Prop :=
  next.cache = state.cache ∧ next.uses = state.uses

/-- The lock of a query leaves the cache alone. -/
theorem SameCache.lockQuery (state : State κ α) (text : String) (key : κ) :
    SameCache state (state.lockQuery config text key) := by
  unfold State.lockQuery
  split
  · split
    · split <;> exact ⟨rfl, rfl⟩
    · exact ⟨rfl, rfl⟩
  · split <;> exact ⟨rfl, rfl⟩

/-- So does the lock of an enqueued write. -/
theorem SameCache.lockEnqueueWrite (state : State κ α) (text : String) (key : κ) :
    SameCache state (state.lockEnqueueWrite config text key) := by
  unfold State.lockEnqueueWrite
  split
  · exact ⟨rfl, rfl⟩
  · split <;> exact ⟨rfl, rfl⟩

/-- So does the lock of a write. -/
theorem SameCache.lockWrite (state : State κ α) (text : String) (key : κ) :
    SameCache state (state.lockWrite text key) := by
  unfold State.lockWrite
  split
  · exact ⟨rfl, rfl⟩
  · split <;> exact ⟨rfl, rfl⟩

/-- So does taking a job. -/
theorem SameCache.take {worker : Nat} (taken : state.take config worker = some next) :
    SameCache state next := by
  unfold State.take at taken
  split at taken
  · cases taken
    exact ⟨rfl, rfl⟩
  · split at taken
    · contradiction
    · cases taken
      exact ⟨rfl, rfl⟩
  · split at taken
    · cases taken
      exact ⟨rfl, rfl⟩
    · contradiction
  · contradiction

/-- What a step does to the cache. -/
inductive CacheStep (config : Config) (state : State κ α) : Action α → State κ α → Prop
  | same {action : Action α} {next : State κ α} (same : SameCache state next) :
      CacheStep config state action next
  | hit {action : Action α} {next : State κ α} (key : κ) (vec : List α)
      (found : (state.cache.get key).1 = some vec) (cache : next.cache = (state.cache.get key).2)
      (uses : next.uses = key :: state.uses) : CacheStep config state action next
  | put {next : State κ α} (worker : Nat) (job : Job κ) (vec : List α)
      (running : state.workers worker = some (job, .embedding)) (some : vec ≠ [])
      (cache : next.cache = state.cache.put config.bounded job.key vec)
      (uses : next.uses = job.key :: state.uses) :
      CacheStep config state (.embed worker vec) next

variable {hash : String → κ}

/-- A lookup hits or leaves the cache alone. -/
theorem CacheStep.call {entry : Entry} {text : String}
    (taken : (machine config hash).step state (.call entry text) = some next) :
    CacheStep config state (.call entry text) next := by
  simp only [machine] at taken
  split at taken
  · rename_i vec cache found
    cases taken
    exact .hit (hash text) vec (congrArg Prod.fst found) (congrArg Prod.snd found).symm rfl
  · rename_i cache missed
    have kept := (Cache.get_miss (congrArg Prod.fst missed)).1
    rw [missed] at kept
    cases taken
    exact .same ⟨kept, rfl⟩

/-- A lock leaves the cache alone. -/
theorem CacheStep.lock {index : Nat}
    (taken : (machine config hash).step state (.lock index) = some next) :
    CacheStep config state (.lock index) next := by
  simp only [machine] at taken
  split at taken
  · contradiction
  · apply CacheStep.same
    show SameCache { state with calls := state.calls.eraseIdx index } next
    split at taken
    · exact Option.some.inj taken ▸ .lockQuery _ _ _
    · exact Option.some.inj taken ▸ .lockEnqueueWrite _ _ _
    · split at taken
      · exact Option.some.inj taken ▸ .lockWrite _ _ _
      · contradiction

/-- A worker puts its vector when it is not empty. -/
theorem CacheStep.embed {worker : Nat} {vec : List α}
    (taken : (machine config hash).step state (.embed worker vec) = some next) :
    CacheStep config state (.embed worker vec) next := by
  simp only [machine] at taken
  split at taken
  · rename_i job running
    cases taken
    unfold State.store
    split
    · exact .same ⟨rfl, rfl⟩
    · rename_i full
      exact .put worker job vec running (fun empty => full (empty ▸ rfl)) rfl rfl
  · contradiction

/-- The other steps leave the cache alone. -/
theorem CacheStep.of_step {action : Action α}
    (taken : (machine config hash).step state action = some next) :
    CacheStep config state action next := by
  cases action with
  | call entry text => exact .call taken
  | lock index => exact .lock taken
  | timeOut index =>
    simp only [machine] at taken
    split at taken
    · cases taken
      exact .same ⟨rfl, rfl⟩
    · contradiction
  | take worker =>
    simp only [machine] at taken
    split at taken
    · split at taken
      · contradiction
      · exact .same (.take taken)
    · contradiction
  | skip worker =>
    simp only [machine] at taken
    split at taken
    · split at taken
      · contradiction
      · cases taken
        exact .same ⟨rfl, rfl⟩
    · contradiction
  | embed worker vec => exact .embed taken
  | settle worker =>
    simp only [machine] at taken
    split at taken
    · cases taken
      exact .same ⟨rfl, rfl⟩
    · contradiction
  | leave worker =>
    simp only [machine] at taken
    split at taken
    · split at taken
      · cases taken
        exact .same ⟨rfl, rfl⟩
      · contradiction
    · contradiction
  | stop =>
    cases taken
    exact .same ⟨rfl, rfl⟩

/-! ## The cache over a run -/

/-- A vector is put for a key without a node, or one whose node goes first. -/
def PutsFresh (config : Config) (state : State κ α) : Action α → Prop
  | .embed worker vec =>
    ∀ job, state.workers worker = some (job, .embedding) → vec ≠ [] →
      Cache.Fresh config.bounded state.cache job.key
  | _ => True

/-- The cache is well formed and has its keys in the order of their last use. -/
structure Kept (state : State κ α) : Prop where
  /-- The nodes and the size. -/
  wellFormed : state.cache.WellFormed
  /-- The order. -/
  recent : Recent state.uses state.cache.keys

/-- A step that puts a fresh key keeps the cache. -/
theorem Kept.step {action : Action α} (kept : Kept state) (puts : PutsFresh config state action)
    (taken : (machine config hash).step state action = some next) : Kept next := by
  have effect := CacheStep.of_step taken
  cases effect with
  | same same =>
    obtain ⟨cache, uses⟩ := same
    exact ⟨cache ▸ kept.wellFormed, by rw [cache, uses]; exact kept.recent⟩
  | hit key vec found cache uses =>
    obtain ⟨linked, map, keys⟩ := kept.wellFormed.linked.get found
    constructor
    · rw [cache]
      refine ⟨linked, ?_⟩
      rw [Cache.size, map]
      exact kept.wellFormed.bounded
    · rw [cache, uses, keys]
      exact kept.recent.use key
  | put worker job vec running full cache uses =>
    have fresh := puts job running full
    have put := kept.wellFormed.put fresh vec kept.recent
    exact ⟨cache ▸ put.1, by rw [cache, uses]; exact put.2⟩

/-- So does a run of such steps. -/
theorem Kept.reached (reached : (machine config hash).Reaches (PutsFresh config) state) :
    Kept state :=
  reached.invariant ⟨Cache.wellFormed_empty, .nil⟩ fun _ _ _ kept puts taken =>
    kept.step puts taken

/-- A run that puts fresh keys keeps the cache well formed. There, a put keeps it so exactly when
its key is fresh; a new key evicts the oldest one from a full cache, and a cached one, with bounded
writes, no other. -/
theorem cache_invariant (reached : (machine config hash).Reaches (PutsFresh config) state) :
    state.cache.WellFormed ∧
      ∀ worker job vec, state.workers worker = some (job, .embedding) → vec ≠ [] →
        ∃ next, (machine config hash).step state (.embed worker vec) = some next ∧
          (next.cache.WellFormed ↔ Cache.Fresh config.bounded state.cache job.key) ∧
          (job.key ∉ state.cache.map → kCacheSize ≤ state.cache.size →
            Cache.EvictsOldest state.uses state.cache next.cache job.key) ∧
          (job.key ∈ state.cache.map → config.bounded → ∀ other, other ≠ job.key →
            next.cache.map.lookup other = state.cache.map.lookup other) := by
  have kept := Kept.reached reached
  refine ⟨kept.wellFormed, fun worker job vec running full => ?_⟩
  have stored : (state.store config job.key vec).cache =
      state.cache.put config.bounded job.key vec := by
    rw [State.store, if_neg fun empty => full (List.isEmpty_iff.mp empty)]
  refine ⟨(state.store config job.key vec).answer worker job vec, ?_, ?_, ?_, ?_⟩
  · simp only [machine, running]
  · show (state.store config job.key vec).cache.WellFormed ↔ _
    rw [stored]
    constructor
    · intro after
      apply Classical.byContradiction
      intro stale
      exact kept.wellFormed.put_breaks stale vec after
    · intro fresh
      exact (kept.wellFormed.put fresh vec kept.recent).1
  · intro absent room
    show Cache.EvictsOldest _ _ (state.store config job.key vec).cache _
    rw [stored]
    exact kept.wellFormed.put_evicts config.bounded absent room vec kept.recent
  · intro inside bounded other apart
    show (state.store config job.key vec).cache.map.lookup other = _
    rw [stored, bounded]
    exact kept.wellFormed.put_replaces inside vec apart

end

/-! ## A text twice in the queue -/

/-- Two callers enqueue a text that is not in flight, the first one before it is cached. -/
def enqueuedTwice : List (Action Nat) :=
  [.call .enqueueWrite "a", .lock 0, .call .enqueueWrite "a", .lock 0,
    .take 0, .embed 0 [1], .settle 0, .take 0, .embed 0 [1]]

/-- A queue without write workers. -/
def unbounded : Config where
  writeWorkers := 0
  writeCap := 64

/-- Without write workers a text that is enqueued twice gets two nodes. -/
theorem cache_invariant_refuted :
    ¬∀ (config : Config) (state : State Nat Nat),
      (machine config String.length).Reachable state → state.cache.WellFormed := by
  intro claim
  have replayed : ((machine unbounded String.length).run .initial enqueuedTwice).any
      (fun state => decide (state.cache.keys = [1, 1])) = true := by decide
  obtain ⟨state, run, same⟩ := (Option.any_eq_true _ _).mp replayed
  have wellFormed := claim unbounded state (.of_run _ .initial run)
  have once := wellFormed.linked.once
  rw [of_decide_eq_true same] at once
  exact absurd once (by decide)

/-- The first caller's text is being embedded. -/
theorem cache_invariant_embedding :
    ∃ state next : State Nat Nat,
      (machine unbounded String.length).run .initial (enqueuedTwice.take 5) = some state ∧
        (machine unbounded String.length).step state (.embed 0 [1]) = some next ∧
        (next.cache.WellFormed ↔ Cache.Fresh unbounded.bounded state.cache 1) := by
  have start : (machine unbounded String.length).Reaches (PutsFresh unbounded)
      (.initial : State Nat Nat) := .initial
  have first := (start.step (Action.call .enqueueWrite "a") trivial rfl).step (Action.lock 0)
    trivial rfl
  have second := (first.step (Action.call .enqueueWrite "a") trivial rfl).step (Action.lock 0)
    trivial rfl
  have kept := cache_invariant (second.step (Action.take 0) trivial rfl)
  obtain ⟨next, taken, same, _⟩ := kept.2 0 _ [1] rfl (by decide)
  exact ⟨_, next, rfl, taken, same⟩

end Chitta.EmbedQueue
