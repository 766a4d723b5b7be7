import Chitta.EmbedQueue.Jobs

/-!
# Document writes

A write that misses the cache waits for the promise of its key, its own one or that of a job that is
in flight already. The job may be that of a query, and the job of a query is skipped when its
deadline has passed: its promise gets an empty vector, for the write as well.
-/
namespace Chitta.EmbedQueue

variable {κ : Type} [DecidableEq κ] {α : Type}

/-- A queue with the callers of `write`. -/
structure Writers (κ α : Type) where
  /-- The queue. -/
  queue : State κ α
  /-- The writes that wait, with their texts and promises. -/
  waiting : List (String × Nat)
  /-- The writes that have returned, with their texts and vectors. -/
  returned : List (String × List α)

/-- What happens to a queue and its writers. -/
inductive WriterAction (α : Type) where
  /-- A step of the queue. -/
  | queue (action : Action α)
  /-- A write whose promise has a value returns it. -/
  | finish (index : Nat)

namespace Writers

variable (hash : String → κ) (writers : Writers κ α)

/-- A write that finds its text in the cache returns at once. -/
def hits (action : Action α) : List (String × List α) :=
  match action with
  | .call .write text =>
    match (writers.queue.cache.get (hash text)).1 with
    | some vec => [(text, vec)]
    | none => []
  | _ => []

/-- A write that takes the lock waits for the promise in flight, or for a new one; a stopped queue
makes it throw. -/
def joins (action : Action α) : List (String × Nat) :=
  match action with
  | .lock index =>
    match writers.queue.calls[index]? with
    | some (.write, text) =>
      if writers.queue.stop then []
      else
        [(text, (writers.queue.inflight.lookup (hash text)).getD writers.queue.promises)]
    | _ => []
  | _ => []

end Writers

/-- The steps of a queue and its writers. -/
def writerMachine (config : Config) (hash : String → κ) :
    Machine (Writers κ α) (WriterAction α) where
  initial := { queue := .initial, waiting := [], returned := [] }
  step writers action :=
    match action with
    | .queue action =>
      match (machine config hash).step writers.queue action with
      | none => none
      | some queue => some
        { queue
          waiting := writers.waiting ++ writers.joins hash action
          returned := writers.returned ++ writers.hits hash action }
    | .finish index =>
      match writers.waiting[index]? with
      | none => none
      | some (text, prom) =>
        match writers.queue.answers.lookup prom with
        | none => none
        | some vec => some
          { writers with
            waiting := writers.waiting.eraseIdx index
            returned := writers.returned ++ [(text, vec)] }

/-! ## Runs that serve a text -/

/-- The model succeeds for a text. -/
def Succeeds (text : String) (vector : List α) (writers : Writers κ α) :
    WriterAction α → Prop
  | .queue (.embed worker vec) =>
    ∀ job, writers.queue.workers worker = some (job, .embedding) → job.text = text → vec = vector
  | _ => True

/-- The model succeeds for a text, no other text has its hash, and no write of it shares the promise
of a query that is skipped. -/
structure Serves (hash : String → κ) (text : String) (vector : List α) (writers : Writers κ α)
    (action : WriterAction α) : Prop where
  /-- The model. -/
  model : Succeeds text vector writers action
  /-- The hash. -/
  apart : ∀ entry other, action = .queue (.call entry other) → hash other = hash text →
    other = text
  /-- A job that a write of the text waits for is not skipped. -/
  kept : ∀ worker job, action = .queue (.skip worker) →
    writers.queue.workers worker = some (job, .embedding) → (text, job.prom) ∉ writers.waiting
  /-- A write of the text does not join a job that was skipped. -/
  fresh : ∀ index prom, action = .queue (.lock index) →
    writers.queue.calls[index]? = some (.write, text) →
      writers.queue.inflight.lookup (hash text) = some prom →
        (prom, []) ∉ writers.queue.answers

variable {config : Config} {hash : String → κ} {state next : State κ α} {action : Action α}
variable {text : String} {vector : List α}

/-! ## Promises -/

/-- A promise has one value. -/
theorem Booked.answer_unique (booked : Booked config state) {prom : Nat} {first second : List α}
    (one : (prom, first) ∈ state.answers) (other : (prom, second) ∈ state.answers) :
    first = second := by
  have distinct := booked.promises.nodup_iff.mpr List.nodup_range
  have answers := (List.nodup_append.mp distinct).2.1
  exact congrArg Prod.snd (List.inj_on_of_nodup_map answers one other rfl)

/-- A promise with a value is that of no pending job. -/
theorem Booked.unanswered (booked : Booked config state) {job : Job κ} {vec : List α}
    (pending : job ∈ state.pending config) : (job.prom, vec) ∉ state.answers := by
  intro answered
  have distinct := booked.promises.nodup_iff.mpr List.nodup_range
  have apart := (List.nodup_append.mp distinct).2.2
  exact apart _ (List.mem_map_of_mem pending) _ (List.mem_map_of_mem answered) rfl

/-- The promise of a text will have its vector, or has it. -/
def Promised (config : Config) (hash : String → κ) (text : String) (vector : List α)
    (state : State κ α) (prom : Nat) : Prop :=
  (∃ job ∈ state.pending config, job.prom = prom ∧ job.key = hash text) ∨
    (prom, vector) ∈ state.answers

/-- What is known of the jobs of a text and of its entry in the cache. -/
structure Clean (config : Config) (hash : String → κ) (text : String) (vector : List α)
    (state : State κ α) : Prop where
  /-- The callers. -/
  calls : ∀ call ∈ state.calls, hash call.2 = hash text → call.2 = text
  /-- The jobs. -/
  jobs : ∀ job ∈ state.jobs config, job.key = hash text → job.text = text
  /-- A job that is closing was skipped or embedded. -/
  closing : ∀ job ∈ state.closing config, job.key = hash text →
    (job.prom, []) ∈ state.answers ∨ (job.prom, vector) ∈ state.answers
  /-- The cache. -/
  cached : ∀ vec node, state.cache.map.lookup (hash text) = some (vec, node) → vec = vector

/-- A promise keeps its job, unless that one is answered with another vector. -/
theorem Promised.shift {prom : Nat} (promised : Promised config hash text vector state prom)
    (shift : Shift config hash state action next)
    (answered : ∀ worker job vec, state.workers worker = some (job, .embedding) →
      action = .skip worker ∧ vec = [] ∨ action = .embed worker vec → job.prom = prom →
        job.key = hash text → vec = vector) :
    Promised config hash text vector next prom := by
  cases promised with
  | inl waits =>
    obtain ⟨job, inside, own, key⟩ := waits
    cases shift with
    | moves pending closing inflight promises answers =>
      exact .inl ⟨job, pending.mem_iff.mpr inside, own, key⟩
    | opens new asked keyed absent number pending closing inflight promises answers =>
      exact .inl ⟨job, pending.mem_iff.mpr (List.mem_cons_of_mem _ inside), own, key⟩
    | answers worker other vec busy given pending closing inflight promises answers =>
      cases List.mem_cons.mp (pending.mem_iff.mp inside) with
      | inl same =>
        subst same
        have equal := answered worker job vec busy given own key
        refine .inr ?_
        rw [answers, ← own, equal]
        exact List.mem_append_right _ (List.mem_singleton_self _)
      | inr later => exact .inl ⟨job, later, own, key⟩
    | closes other pending closing inflight promises answers =>
      exact .inl ⟨job, pending.mem_iff.mpr inside, own, key⟩
  | inr given =>
    refine .inr ?_
    cases shift with
    | moves pending closing inflight promises answers => rwa [answers]
    | opens job asked keyed absent number pending closing inflight promises answers => rwa [answers]
    | answers worker job vec busy other pending closing inflight promises answers =>
      rw [answers]
      exact List.mem_append_left _ given
    | closes job pending closing inflight promises answers => rwa [answers]

/-! ## The cache -/

/-- A lookup keeps the entries. -/
theorem Cache.get_map (cache : Cache κ α) (key : κ) : (cache.get key).2.map = cache.map := by
  unfold Cache.get
  split
  · rfl
  · split <;> rfl

/-- What a lookup finds is the vector of the entry. -/
theorem Cache.get_found {cache : Cache κ α} {key : κ} {vec : List α}
    (found : (cache.get key).1 = some vec) : ∃ node, cache.map.lookup key = some (vec, node) := by
  unfold Cache.get at found
  split at found
  · contradiction
  · rename_i own node there
    split at found
    · exact ⟨node, Option.some.inj found ▸ there⟩
    · exact ⟨node, Option.some.inj found ▸ there⟩

/-- An entry of an erased map was there. -/
theorem lookup_of_erase {map : AList fun _ : κ => List α × Nat} {key other : κ}
    {entry : List α × Nat} (found : (map.erase key).lookup other = some entry) :
    map.lookup other = some entry := by
  by_cases same : other = key
  · subst same
    rw [AList.lookup_erase] at found
    contradiction
  · rwa [AList.lookup_erase_ne same] at found

/-- An entry after a put is the new one or was there. -/
theorem Cache.put_found {cache : Cache κ α} {bounded : Bool} {key other : κ} {vec own : List α}
    {node : Nat} (found : (cache.put bounded key vec).map.lookup other = some (own, node)) :
    (other = key ∧ own = vec) ∨ cache.map.lookup other = some (own, node) := by
  by_cases same : other = key
  · subst same
    simp only [Cache.put, Cache.insert, AList.lookup_insert, Option.some.injEq, Prod.mk.injEq]
      at found
    exact .inl ⟨rfl, found.1.symm⟩
  · right
    have kept : ((cache.forget bounded key).evict).map.lookup other = some (own, node) := by
      simp only [Cache.put, Cache.insert] at found
      rwa [AList.lookup_insert_ne same] at found
    have before : (cache.forget bounded key).map.lookup other = some (own, node) := by
      unfold Cache.evict at kept
      split at kept
      · split at kept
        · exact kept
        · exact lookup_of_erase kept
      · exact kept
    unfold Cache.forget at before
    split at before
    · exact before
    · split at before
      · exact lookup_of_erase before
      · exact before

/-! ## Writes of a text -/

/-- The job that a worker embeds is pending. -/
theorem Booked.running (booked : Booked config state) {worker : Nat} {job : Job κ}
    (busy : state.workers worker = some (job, .embedding)) : job ∈ state.pending config := by
  have inside : worker < config.writeWorkers + 1 := by
    by_contra outside
    have free := booked.placed worker (by omega)
    rw [busy] at free
    contradiction
  refine List.mem_append_right _ (mem_slots.mpr ⟨worker, inside, ?_⟩)
  rw [busy]
  rfl

/-- A step that serves the text keeps what is known of it. -/
theorem Clean.step {writers : Writers κ α} (clean : Clean config hash text vector writers.queue)
    (booked : Booked config writers.queue) (bounded : config.bounded = true)
    (serves : Serves hash text vector writers (.queue action))
    (taken : (machine config hash).step writers.queue action = some next) :
    Clean config hash text vector next := by
  obtain ⟨effect, recalls⟩ := step_cases bounded taken
  obtain ⟨calls, jobs, closing, cached⟩ := clean
  -- What is given to a job of the text.
  have given_vec : ∀ worker job vec, writers.queue.workers worker = some (job, .embedding) →
      job.key = hash text → action = .skip worker ∧ vec = [] ∨ action = .embed worker vec →
        vec = [] ∨ vec = vector := by
    intro worker job vec busy key given
    cases given with
    | inl skipped => exact .inl skipped.2
    | inr embedded =>
      subst embedded
      have own := jobs job (List.mem_append_left _ (booked.running busy)) key
      exact .inr (serves.model job busy own)
  have shift := effect.shift booked.placed
  refine ⟨?_, ?_, ?_, ?_⟩
  · intro call inside key
    cases recalls call inside with
    | inl before => exact calls call before key
    | inr made =>
      obtain ⟨entry, named⟩ := made
      exact serves.apart entry call.2 (by rw [named]) key
  · intro job inside key
    cases shift with
    | moves pending closes inflight promises answers =>
      exact jobs job ((pending.append closes).mem_iff.mp inside) key
    | opens new asked keyed absent number pending closes inflight promises answers =>
      have there : job ∈ new :: writers.queue.jobs config := by
        rw [State.jobs, closes] at inside
        exact (pending.append_right _).mem_iff.mp inside
      cases List.mem_cons.mp there with
      | inl same =>
        subst same
        obtain ⟨entry, asked⟩ := asked
        exact calls _ asked (keyed.symm.trans key)
      | inr before => exact jobs job before key
    | answers worker other vec busy given pending closes inflight promises answers =>
      refine jobs job ?_ key
      cases List.mem_append.mp inside with
      | inl waits =>
        exact List.mem_append_left _ (pending.mem_iff.mpr (List.mem_cons_of_mem _ waits))
      | inr ends =>
        cases List.mem_cons.mp (closes.mem_iff.mp ends) with
        | inl same => exact same ▸ List.mem_append_left _ (booked.running busy)
        | inr before => exact List.mem_append_right _ before
    | closes other pending closes inflight promises answers =>
      refine jobs job ?_ key
      cases List.mem_append.mp inside with
      | inl waits => exact List.mem_append_left _ (pending.mem_iff.mp waits)
      | inr ends =>
        exact List.mem_append_right _ (closes.mem_iff.mpr (List.mem_cons_of_mem _ ends))
  · intro job inside key
    cases shift with
    | moves pending closes inflight promises answers =>
      rw [answers]
      exact closing job (closes.mem_iff.mp inside) key
    | opens new asked keyed absent number pending closes inflight promises answers =>
      rw [answers]
      rw [closes] at inside
      exact closing job inside key
    | answers worker other vec busy given pending closes inflight promises answers =>
      rw [answers]
      cases List.mem_cons.mp (closes.mem_iff.mp inside) with
      | inl same =>
        subst same
        have last : (job.prom, vec) ∈ writers.queue.answers ++ [(job.prom, vec)] :=
          List.mem_append_right _ (List.mem_singleton_self _)
        cases given_vec worker job vec busy key given with
        | inl empty => exact .inl (empty ▸ last)
        | inr equal => exact .inr (equal ▸ last)
      | inr before =>
        exact (closing job before key).imp (List.mem_append_left _) (List.mem_append_left _)
    | closes other pending closes inflight promises answers =>
      rw [answers]
      exact closing job (closes.mem_iff.mpr (List.mem_cons_of_mem _ inside)) key
  · intro vec node found
    cases CacheStep.of_step taken with
    | same same =>
      rw [same.1] at found
      exact cached vec node found
    | hit key other hit cache uses =>
      rw [cache, Cache.get_map] at found
      exact cached vec node found
    | put worker job other busy full cache uses =>
      rw [cache] at found
      cases Cache.put_found found with
      | inr before => exact cached vec node before
      | inl new =>
        obtain ⟨key, same⟩ := new
        rw [same]
        cases given_vec worker job other busy key.symm (.inr rfl) with
        | inl empty => exact absurd empty full
        | inr equal => exact equal

/-- The writes of a text are served. -/
structure Served (config : Config) (hash : String → κ) (text : String) (vector : List α)
    (writers : Writers κ α) : Prop where
  /-- The jobs. -/
  booked : Booked config writers.queue
  /-- What is known of the text. -/
  clean : Clean config hash text vector writers.queue
  /-- The promises that its writes wait for. -/
  waiting : ∀ prom, (text, prom) ∈ writers.waiting →
    Promised config hash text vector writers.queue prom
  /-- What they have returned. -/
  returned : ∀ vec, (text, vec) ∈ writers.returned → vec = vector

/-- No writes. -/
theorem served_initial :
    Served config hash text vector (writerMachine config hash).initial := by
  have booked : Booked config (State.initial : State κ α) := booked_initial
  have none_open : (State.initial : State κ α).jobs config = [] := by
    simp [State.jobs, State.pending, State.closing, State.initial, slots, embedding, settled]
  have none_closing := (List.append_eq_nil_iff.mp none_open).2
  refine ⟨booked, ⟨by simp [writerMachine, State.initial], ?_, ?_, ?_⟩, by simp [writerMachine],
    by simp [writerMachine]⟩
  · intro job inside
    rw [show (writerMachine config hash).initial.queue.jobs config = [] from none_open] at inside
    contradiction
  · intro job inside
    rw [show (writerMachine config hash).initial.queue.closing config = [] from none_closing]
      at inside
    contradiction
  · intro vec node found
    simp [writerMachine, State.initial, Cache.empty] at found

/-- A promise of the text keeps its job in a step that serves the text. -/
theorem Served.promised {writers : Writers κ α} {prom : Nat}
    (served : Served config hash text vector writers) (bounded : config.bounded = true)
    (serves : Serves hash text vector writers (.queue action))
    (taken : (machine config hash).step writers.queue action = some next)
    (promised : Promised config hash text vector writers.queue prom)
    (waits : (∃ worker, action = .skip worker) → (text, prom) ∈ writers.waiting) :
    Promised config hash text vector next prom := by
  have shift := (step_cases bounded taken).1.shift served.booked.placed
  refine promised.shift shift fun worker job vec busy given own key => ?_
  cases given with
  | inl skipped =>
    obtain ⟨rfl, _⟩ := skipped
    exact absurd (own ▸ waits ⟨worker, rfl⟩) (serves.kept worker job rfl busy)
  | inr embedded =>
    subst embedded
    have text_own := served.clean.jobs job
      (List.mem_append_left _ (served.booked.running busy)) key
    exact serves.model job busy text_own

/-- A write that takes the lock waits for a promise of its text. -/
theorem Served.joins {writers : Writers κ α} {prom : Nat}
    (served : Served config hash text vector writers) (bounded : config.bounded = true)
    (serves : Serves hash text vector writers (.queue action))
    (taken : (machine config hash).step writers.queue action = some next)
    (joined : (text, prom) ∈ writers.joins hash action) :
    Promised config hash text vector next prom := by
  unfold Writers.joins at joined
  split at joined
  · rename_i index
    split at joined
    · rename_i own found
      split at joined
      · contradiction
      · rename_i running
        obtain ⟨rfl, rfl⟩ := Prod.mk.inj (List.mem_singleton.mp joined)
        cases flying : writers.queue.inflight.lookup (hash text) with
        | some prom =>
          rw [Option.getD_some]
          obtain ⟨job, inside, key, same⟩ := (served.booked.flight _ _).mp flying
          refine served.promised bounded serves taken ?_ (by simp)
          cases List.mem_append.mp inside with
          | inl waits => exact .inl ⟨job, waits, same, key⟩
          | inr ends =>
            have given := served.clean.closing job ends key
            rw [same] at given
            exact .inr (given.resolve_left (serves.fresh index prom rfl found flying))
        | none =>
          rw [Option.getD_none]
          simp only [machine, found] at taken
          split at taken
          · have made := Option.some.inj taken
            have stopped : writers.queue.stop = false := by simpa using running
            simp only [State.lockWrite, stopped, flying, Option.isSome_none, Bool.false_eq_true,
              if_false] at made
            refine .inl ⟨{ text, key := hash text, write := true, prom := writers.queue.promises },
              ?_, rfl, rfl⟩
            rw [← made]
            simp [State.pending]
          · contradiction
    · contradiction
  · contradiction

/-- A step serves the text. -/
theorem Served.step {writers after : Writers κ α} {action : WriterAction α}
    (served : Served config hash text vector writers) (bounded : config.bounded = true)
    (serves : Serves hash text vector writers action)
    (taken : (writerMachine config hash).step writers action = some after) :
    Served config hash text vector after := by
  cases action with
  | queue action =>
    simp only [writerMachine] at taken
    split at taken
    · contradiction
    · rename_i queue stepped
      cases taken
      refine ⟨served.booked.step bounded stepped, served.clean.step served.booked bounded serves
        stepped, fun prom inside => ?_, fun vec inside => ?_⟩
      · cases List.mem_append.mp inside with
        | inl before =>
          exact served.promised bounded serves stepped (served.waiting prom before) fun _ => before
        | inr joined => exact served.joins bounded serves stepped joined
      · cases List.mem_append.mp inside with
        | inl before => exact served.returned vec before
        | inr hit =>
          unfold Writers.hits at hit
          split at hit
          · split at hit
            · rename_i own found
              obtain ⟨rfl, rfl⟩ := Prod.mk.inj (List.mem_singleton.mp hit)
              obtain ⟨node, there⟩ := Cache.get_found found
              exact served.clean.cached _ node there
            · contradiction
          · contradiction
  | finish index =>
    simp only [writerMachine] at taken
    split at taken
    · contradiction
    · rename_i own prom found
      split at taken
      · contradiction
      · rename_i vec there
        cases taken
        have answered : (prom, vec) ∈ writers.queue.answers := by
          obtain ⟨before, later, split, _⟩ := List.lookup_eq_some_iff.mp there
          rw [split]
          exact List.mem_append_right _ List.mem_cons_self
        refine ⟨served.booked, served.clean, fun other inside => ?_, fun other inside => ?_⟩
        · exact served.waiting other (List.mem_of_mem_eraseIdx inside)
        · cases List.mem_append.mp inside with
          | inl before => exact served.returned other before
          | inr last =>
            obtain ⟨rfl, rfl⟩ := Prod.mk.inj (List.mem_singleton.mp last)
            cases served.waiting prom (List.mem_of_getElem? found) with
            | inl pending =>
              obtain ⟨job, pending, same, _⟩ := pending
              exact absurd answered (same ▸ served.booked.unanswered pending)
            | inr given => exact served.booked.answer_unique answered given

/-- As long as no query that shares its promise with a write of the text is skipped, and no other
text has its hash, the writes of a text for which the model succeeds return its vector. -/
theorem write_embeds (bounded : config.bounded = true) (full : vector ≠ [])
    {writers : Writers κ α}
    (reached : (writerMachine config hash).Reaches (Serves hash text vector) writers) :
    ∀ vec, (text, vec) ∈ writers.returned → vec = vector ∧ vec ≠ [] := by
  have served : Served config hash text vector writers :=
    reached.invariant served_initial fun _ _ _ served serves taken =>
      served.step bounded serves taken
  intro vec returned
  have same := served.returned vec returned
  exact ⟨same, same ▸ full⟩

/-! ## A query and a write of one text -/

/-- A write of a text shares the promise of a query of it. -/
def sharedPromise : List (WriterAction Nat) :=
  [.queue (.call .query "a"), .queue (.call .write "a"), .queue (.lock 0), .queue (.lock 0),
    .queue (.take 0)]

/-- The text is embedded before the deadline of the query, and the write returns its vector. -/
theorem write_embeds_shared : ∃ writers : Writers String Nat,
    (writerMachine oneWriter id).run (writerMachine oneWriter id).initial
        (sharedPromise ++ [.queue (.embed 0 [1]), .finish 0]) = some writers ∧
      writers.returned.map (·.1) = ["a"] ∧
      ∀ vec, ("a", vec) ∈ writers.returned → vec = [1] ∧ vec ≠ [] := by
  have start : (writerMachine oneWriter id).Reaches (Serves id "a" [1])
      ((writerMachine oneWriter id).initial : Writers String Nat) := .initial
  have first := start.step (WriterAction.queue (Action.call .query "a"))
    ⟨trivial, by rintro _ _ ⟨⟩ _; rfl, by simp, by simp⟩ rfl
  have second := first.step (WriterAction.queue (Action.call .write "a"))
    ⟨trivial, by rintro _ _ ⟨⟩ _; rfl, by simp, by simp⟩ rfl
  have third := second.step (WriterAction.queue (Action.lock 0))
    ⟨trivial, by simp, by simp, fun _ _ _ _ _ => List.not_mem_nil⟩ rfl
  have fourth := third.step (WriterAction.queue (Action.lock 0))
    ⟨trivial, by simp, by simp, fun _ _ _ _ _ => List.not_mem_nil⟩ rfl
  have fifth :=
    fourth.step (WriterAction.queue (Action.take 0)) ⟨trivial, by simp, by simp, by simp⟩ rfl
  have sixth := fifth.step (WriterAction.queue (Action.embed 0 [1]))
    ⟨fun _ _ _ => rfl, by simp, by simp, by simp⟩ rfl
  have last := sixth.step (WriterAction.finish 0) ⟨trivial, by simp, by simp, by simp⟩ rfl
  exact ⟨_, rfl, rfl, write_embeds (by decide) (by decide) last⟩

/-- When the deadline of the query has passed its job is skipped, and the write returns an empty
vector although the model never failed. -/
theorem write_embeds_refuted :
    ¬∀ (config : Config) (hash : String → String) (text : String) (vector : List Nat)
      (writers : Writers String Nat), config.bounded = true → vector ≠ [] →
        (writerMachine config hash).Reaches (Succeeds text vector) writers →
          ∀ vec, (text, vec) ∈ writers.returned → vec = vector ∧ vec ≠ [] := by
  intro claim
  have replayed : ((writerMachine oneWriter id).run (writerMachine oneWriter id).initial
      (sharedPromise ++ [.queue (.skip 0), .finish 0])).any
        (fun writers : Writers String Nat => decide (writers.returned = [("a", [])])) = true := by
    decide
  obtain ⟨writers, run, same⟩ := (Option.any_eq_true _ _).mp replayed
  have reached : (writerMachine oneWriter id).Reaches (Succeeds "a" [1]) writers := by
    refine .of_run_always _ (fun action inside state => ?_) .initial run
    simp only [sharedPromise, List.cons_append, List.nil_append, List.mem_cons, List.not_mem_nil,
      or_false] at inside
    obtain rfl | rfl | rfl | rfl | rfl | rfl | rfl := inside
    all_goals trivial
  have returned := claim oneWriter id "a" [1] writers (by decide) (by decide) reached []
  rw [of_decide_eq_true same] at returned
  exact (returned (List.mem_singleton_self _)).2 rfl

end Chitta.EmbedQueue
