import Chitta.Machine
import Chitta.ReEmbed.Text
import Mathlib.Data.Finset.Sort

/-!
# The drain loop of `re_embed`

The command marks memories and embeds them in turns: it pulls ids that are pending, embeds their
texts in batches, writes the vectors back and clears the ids that could not be embedded. The store
and the embedder are outside: the store answers with ids that are pending, the embedder with any
number of vectors of any size, or it throws.
-/
namespace Chitta.ReEmbed

open Bytes Ssl

/-- What is outside of the loop; vectors are lists of components. -/
structure Env (Component : Type) where
  /-- `get_content`. -/
  content : Nat → Text
  /-- `pending_embeddings`. -/
  pendingEmbeddings : Nat → Finset Nat → List Nat
  /-- The ids are pending. -/
  pending_mem : ∀ limit pending, ∀ id ∈ pendingEmbeddings limit pending, id ∈ pending
  /-- No id is listed twice. -/
  pending_nodup : ∀ limit pending, (pendingEmbeddings limit pending).Nodup
  /-- Some are listed when there are any. -/
  pending_ne_nil : ∀ limit pending, 0 < limit → pending.Nonempty →
    pendingEmbeddings limit pending ≠ []
  /-- `transform_batch` in a batch with a number. -/
  transformBatch : Nat → List Text → Except String (List (List Component))
  /-- `EMBED_DIM`. -/
  embedDim : Nat
  /-- The error of `backfill_embedding` in a batch with a number, if it throws. -/
  backfillError : Nat → Nat → List Component → Option String

/-- How many ids are pulled. -/
def pullLimit : Nat := 64

/-- `SUB_BATCH`. -/
def subBatch : Nat := 16

/-- The state between two turns. -/
structure State where
  /-- The ids that are pending. -/
  pending : Finset Nat
  /-- The number of batches. -/
  batches : Nat

/-- The state inside of a turn. -/
structure Turn where
  /-- The ids that are pending. -/
  pending : Finset Nat
  /-- `not_backfilled`. -/
  notBackfilled : List Nat

variable {Component : Type} (env : Env Component)

/-- The batches of the pulled ids; there are at most `count`. -/
def inBatches : Nat → List Nat → List (List Nat)
  | 0, _ => []
  | count + 1, ids =>
    if ids.isEmpty then [] else ids.take subBatch :: inBatches count (ids.drop subBatch)

/-- The step of the loop over the vectors. -/
def backfill (batch : Nat) (turn : Turn) (result : Nat × List Component) :
    Except String Turn :=
  if result.2.length ≠ env.embedDim then
    .ok { turn with notBackfilled := turn.notBackfilled ++ [result.1] }
  else
    match env.backfillError batch result.1 result.2 with
    | some error => .error error
    | none => .ok { turn with pending := turn.pending.erase result.1 }

/-- The ids of a batch that have a content. -/
def nonemptyIds (ids : List Nat) : List Nat := ids.filter fun id => !(env.content id).isEmpty

/-- The ids of a batch that have none. -/
def emptyIds (ids : List Nat) : List Nat := ids.filter fun id => (env.content id).isEmpty

/-- `batch_texts`. -/
def batchTexts (ids : List Nat) : List Text :=
  (nonemptyIds env ids).map fun id => retrievalText (reEmbedBody (env.content id))

/-- The step of the loop over the batches. -/
def embedBatch (turn : Turn) (batch : List Nat × Nat) : Except String Turn :=
  let turn := { turn with notBackfilled := turn.notBackfilled ++ emptyIds env batch.1 }
  if (batchTexts env batch.1).isEmpty then .ok turn
  else do
    let arthas ← env.transformBatch batch.2 (batchTexts env batch.1)
    ((nonemptyIds env batch.1).zip arthas).foldlM (backfill env batch.2) turn

/-- The batches of a turn with their numbers. -/
def turnBatches (state : State) : List (List Nat × Nat) :=
  let pulled := env.pendingEmbeddings pullLimit state.pending
  (inBatches pulled.length pulled).zipIdx state.batches

/-- One turn: `none` when nothing is pending. -/
def turn (state : State) : Except String (Option State) :=
  if (env.pendingEmbeddings pullLimit state.pending).isEmpty then .ok none
  else do
    let turn ← (turnBatches env state).foldlM (embedBatch env) ⟨state.pending, []⟩
    -- `force_clear_embed_pending`.
    return some ⟨turn.pending \ turn.notBackfilled.toFinset,
      state.batches + (turnBatches env state).length⟩

/-- The turns that go on. -/
def machine (pending : Finset Nat) : Machine State Unit where
  initial := ⟨pending, 0⟩
  step state _ :=
    match turn env state with
    | .ok next => next
    | .error _ => none

/-- The loop for a number of turns: how it ended, if it did. -/
def drain : Nat → State → Option (Except String State)
  | 0, _ => none
  | count + 1, state =>
    match turn env state with
    | .error error => some (.error error)
    | .ok none => some (.ok state)
    | .ok (some next) => drain count next

/-- Every turn removes what it has pulled, or stops, and the loop ends. -/
structure Drains (pending : Finset Nat) : Prop where
  /-- A turn that goes on leaves none of its ids. -/
  removes : ∀ state, (machine env pending).Reachable state → ∀ next,
    turn env state = .ok (some next) →
      ∀ id ∈ env.pendingEmbeddings pullLimit state.pending, id ∉ next.pending
  /-- There is a last turn. -/
  ends : ∃ count, (drain env count ⟨pending, 0⟩).isSome

/-- The embedder has a vector for every text of a batch. -/
def Full (batch : List Nat × Nat) : Prop :=
  ∀ arthas, env.transformBatch batch.2 (batchTexts env batch.1) = .ok arthas →
    (batchTexts env batch.1).length ≤ arthas.length

variable {env}

/-! ## What a turn removes -/

/-- What is pending once the ids that were not backfilled are cleared. -/
def Turn.left (turn : Turn) : Finset Nat := turn.pending \ turn.notBackfilled.toFinset

variable (env) in
/-- The ids of a batch that are written back or cleared. -/
def handled (batch : List Nat × Nat) : List Nat :=
  emptyIds env batch.1 ++
    match env.transformBatch batch.2 (batchTexts env batch.1) with
    | .ok arthas => (nonemptyIds env batch.1).take arthas.length
    | .error _ => nonemptyIds env batch.1

theorem backfill_left {batch : Nat} {now next : Turn} {result : Nat × List Component}
    (done : backfill env batch now result = .ok next) : next.left = now.left.erase result.1 := by
  rw [backfill] at done
  split at done
  · obtain rfl := Except.ok.inj done
    ext id
    simp only [Turn.left, List.toFinset_append, Finset.mem_sdiff, Finset.mem_union,
      List.mem_toFinset, List.mem_singleton, Finset.mem_erase]
    tauto
  · split at done
    · contradiction
    · obtain rfl := Except.ok.inj done
      ext id
      simp only [Turn.left, Finset.mem_sdiff, Finset.mem_erase, List.mem_toFinset]
      tauto

/-- A loop removes what its steps remove. -/
theorem foldlM_left {Item : Type} {step : Turn → Item → Except String Turn}
    {removed : Item → List Nat} {items : List Item} {now next : Turn}
    (done : items.foldlM step now = .ok next)
    (one : ∀ item now next, step now item = .ok next →
      next.left = now.left \ (removed item).toFinset) :
    next.left = now.left \ (items.flatMap removed).toFinset := by
  induction items generalizing now with
  | nil =>
    obtain rfl := Except.ok.inj done
    simp
  | cons item rest ih =>
    rw [List.foldlM_cons] at done
    cases first : step now item with
    | error error =>
      rw [first] at done
      contradiction
    | ok middle =>
      rw [first] at done
      rw [ih done, one _ _ _ first]
      ext id
      simp only [Finset.mem_sdiff, List.flatMap_cons, List.toFinset_append, Finset.mem_union]
      tauto

theorem backfills_left {batch : Nat} {results : List (Nat × List Component)} {now next : Turn}
    (done : results.foldlM (backfill env batch) now = .ok next) :
    next.left = now.left \ (results.map (·.1)).toFinset := by
  rw [List.map_eq_flatMap]
  refine foldlM_left done fun _ _ _ written => ?_
  rw [backfill_left written]
  ext id
  simp only [Finset.mem_sdiff, Finset.mem_erase, List.mem_toFinset, List.mem_singleton]
  tauto

/-- Of two lists side by side, the first one is shown as far as the second one goes. -/
theorem firsts_zip {α β : Type} (items : List α) (others : List β) :
    (items.zip others).map (·.1) = items.take others.length := by
  induction items generalizing others with
  | nil => simp
  | cons item rest ih =>
    cases others with
    | nil => simp
    | cons other more => simp [ih more]

/-- A batch removes what it handles. -/
theorem embedBatch_left {batch : List Nat × Nat} {now next : Turn}
    (done : embedBatch env now batch = .ok next) :
    next.left = now.left \ (handled env batch).toFinset := by
  have cleared : (Turn.mk now.pending (now.notBackfilled ++ emptyIds env batch.1)).left =
      now.left \ (emptyIds env batch.1).toFinset := by
    ext id
    simp only [Turn.left, List.toFinset_append, Finset.mem_sdiff, Finset.mem_union]
    tauto
  rw [embedBatch] at done
  split at done
  · rename_i none
    have no_ids : nonemptyIds env batch.1 = [] := by simpa [batchTexts] using none
    obtain rfl := Except.ok.inj done
    rw [cleared, handled, no_ids]
    cases env.transformBatch batch.2 (batchTexts env batch.1) <;> simp
  · cases answer : env.transformBatch batch.2 (batchTexts env batch.1) with
    | error error =>
      rw [answer] at done
      contradiction
    | ok arthas =>
      rw [answer] at done
      have written : ((nonemptyIds env batch.1).zip arthas).map (·.1) =
          (nonemptyIds env batch.1).take arthas.length := firsts_zip _ _
      rw [backfills_left done, cleared, written, handled, answer]
      ext id
      simp only [Finset.mem_sdiff, List.toFinset_append, Finset.mem_union]
      tauto

/-- A turn that goes on has pulled ids and removes what its batches handle. -/
theorem turn_goes_on {state next : State} (goesOn : turn env state = .ok (some next)) :
    env.pendingEmbeddings pullLimit state.pending ≠ [] ∧
      next.pending = state.pending \ ((turnBatches env state).flatMap (handled env)).toFinset := by
  rw [turn] at goesOn
  split at goesOn
  · exact absurd (Except.ok.inj goesOn) nofun
  · rename_i pulled
    refine ⟨by simpa using pulled, ?_⟩
    cases done : (turnBatches env state).foldlM (embedBatch env) ⟨state.pending, []⟩ with
    | error error =>
      rw [done] at goesOn
      contradiction
    | ok last =>
      rw [done] at goesOn
      obtain rfl := Option.some.inj (Except.ok.inj goesOn)
      have removed := foldlM_left done fun _ _ _ => embedBatch_left
      simpa [Turn.left] using removed

/-! ## The ids of the batches -/

theorem inBatches_flatten {count : Nat} {ids : List Nat} (enough : ids.length ≤ count) :
    (inBatches count ids).flatten = ids := by
  induction count generalizing ids with
  | zero =>
    obtain rfl := List.length_eq_zero_iff.mp (Nat.le_zero.mp enough)
    rfl
  | succ count ih =>
    rw [inBatches]
    split
    · rename_i empty
      rw [List.isEmpty_iff.mp empty]
      rfl
    · rename_i some_id
      have positive : 0 < ids.length := List.length_pos_iff.mpr (by simpa using some_id)
      rw [List.flatten_cons, ih, List.take_append_drop]
      rw [List.length_drop, subBatch]
      omega

/-- The batches of a turn are made of the pulled ids. -/
theorem turnBatches_ids (state : State) :
    (turnBatches env state).flatMap (·.1) = env.pendingEmbeddings pullLimit state.pending := by
  rw [turnBatches, List.flatMap_def, List.zipIdx_map_fst, inBatches_flatten (Nat.le_refl _)]

variable (env) in
/-- The ids with a content and those without are all ids of a batch. -/
theorem perm_ids (ids : List Nat) : (emptyIds env ids ++ nonemptyIds env ids).Perm ids :=
  List.filter_append_perm (fun id => (env.content id).isEmpty) ids

theorem length_batchTexts (ids : List Nat) :
    (batchTexts env ids).length = (nonemptyIds env ids).length := by
  rw [batchTexts, List.length_map]

/-- A batch with a vector for each text handles all of its ids. -/
theorem mem_handled {batch : List Nat × Nat} {id : Nat} (full : Full env batch)
    (inside : id ∈ batch.1) : id ∈ handled env batch := by
  have placed := (perm_ids env batch.1).symm.subset inside
  rw [List.mem_append] at placed
  rw [handled, List.mem_append]
  rcases placed with empty | rest
  · exact .inl empty
  · right
    split
    · rename_i arthas answer
      have enough := full arthas answer
      rw [length_batchTexts] at enough
      rwa [List.take_of_length_le enough]
    · exact rest

variable (env) in
/-- A batch handles as many ids as it has exactly when the embedder has a vector for each text. -/
theorem length_handled (batch : List Nat × Nat) :
    (handled env batch).length ≤ batch.1.length ∧
      ((handled env batch).length = batch.1.length ↔ Full env batch) := by
  have lengths := (perm_ids env batch.1).length_eq
  rw [List.length_append] at lengths
  rw [handled, List.length_append, Full, length_batchTexts]
  cases env.transformBatch batch.2 (batchTexts env batch.1) with
  | error error => simp [lengths]
  | ok arthas =>
    simp only [List.length_take, Except.ok.injEq, forall_eq']
    omega

variable (env) in
/-- A list of batches handles as many ids as there are exactly when the embedder has a vector for
every text. -/
theorem length_handleds (batches : List (List Nat × Nat)) :
    (batches.flatMap (handled env)).length ≤ (batches.flatMap (·.1)).length ∧
      ((batches.flatMap (handled env)).length = (batches.flatMap (·.1)).length ↔
        ∀ batch ∈ batches, Full env batch) := by
  induction batches with
  | nil => simp
  | cons batch rest ih =>
    have first := length_handled env batch
    rw [List.flatMap_cons, List.flatMap_cons, List.length_append, List.length_append,
      List.forall_mem_cons, ← first.2, ← ih.2]
    omega

/-- A turn that goes on removes all ids that it has pulled exactly when the embedder has a vector
for every text. -/
theorem turn_removes_iff {state next : State} (goesOn : turn env state = .ok (some next)) :
    (∀ id ∈ env.pendingEmbeddings pullLimit state.pending, id ∉ next.pending) ↔
      ∀ batch ∈ turnBatches env state, Full env batch := by
  have lengths := length_handleds env (turnBatches env state)
  rw [turnBatches_ids] at lengths
  rw [(turn_goes_on goesOn).2, ← lengths.2]
  simp only [Finset.mem_sdiff, List.mem_toFinset, not_and, not_not]
  constructor
  · intro removed
    have inside : env.pendingEmbeddings pullLimit state.pending ⊆
        (turnBatches env state).flatMap (handled env) :=
      fun id pulled => removed id pulled (env.pending_mem _ _ id pulled)
    have no_longer := (List.subperm_of_subset (env.pending_nodup _ _) inside).length_le
    omega
  · intro same id pulled _
    rw [← turnBatches_ids, List.mem_flatMap] at pulled
    obtain ⟨batch, listed, inside⟩ := pulled
    exact List.mem_flatMap.mpr ⟨batch, listed, mem_handled (lengths.2.mp same batch listed) inside⟩

/-! ## The loop -/

/-- A turn that removes what it has pulled leaves fewer ids. -/
theorem card_turn {state next : State} (goesOn : turn env state = .ok (some next))
    (removes : ∀ id ∈ env.pendingEmbeddings pullLimit state.pending, id ∉ next.pending) :
    next.pending.card < state.pending.card := by
  obtain ⟨some_id, left⟩ := turn_goes_on goesOn
  obtain ⟨id, pulled⟩ := List.exists_mem_of_ne_nil _ some_id
  refine Finset.card_lt_card ((Finset.ssubset_iff_of_subset ?_).mpr
    ⟨id, env.pending_mem _ _ id pulled, removes id pulled⟩)
  rw [left]
  exact Finset.sdiff_subset

/-- While every turn removes what it pulls, the loop ends. -/
theorem drain_ends {pending : Finset Nat}
    (removes : ∀ state, (machine env pending).Reachable state → ∀ next,
      turn env state = .ok (some next) →
        ∀ id ∈ env.pendingEmbeddings pullLimit state.pending, id ∉ next.pending)
    {count : Nat} {state : State} (reached : (machine env pending).Reachable state)
    (enough : state.pending.card < count) : (drain env count state).isSome := by
  induction count generalizing state with
  | zero => exact absurd enough (Nat.not_lt_zero _)
  | succ count ih =>
    rw [drain]
    cases answer : turn env state with
    | error error => rfl
    | ok result =>
      cases result with
      | none => rfl
      | some next =>
        have fewer := card_turn answer (removes state reached next answer)
        refine ih (reached.step () trivial ?_) (by omega)
        simp only [machine, answer]

/-- With a vector for every text in the turns that go on, every turn removes what it has pulled,
and the loop ends. -/
theorem Drains.of_full {pending : Finset Nat}
    (full : ∀ state, (machine env pending).Reachable state → ∀ next,
      turn env state = .ok (some next) → ∀ batch ∈ turnBatches env state, Full env batch) :
    Drains env pending := by
  have removes (state : State) (reached : (machine env pending).Reachable state) (next : State)
      (goesOn : turn env state = .ok (some next)) :
      ∀ id ∈ env.pendingEmbeddings pullLimit state.pending, id ∉ next.pending :=
    (turn_removes_iff goesOn).mpr (full state reached next goesOn)
  exact ⟨removes, pending.card + 1, drain_ends removes .initial (Nat.lt_succ_self _)⟩

/-- An embedder that has a vector for every text it is given lets the loop end. -/
theorem Drains.of_embedder (pending : Finset Nat) (full : ∀ batch, Full env batch) :
    Drains env pending :=
  .of_full fun _ _ _ _ batch _ => full batch

/-- The loop of `re_embed` removes what it pulls in every turn, and ends, exactly when the embedder
has a vector for every text of the turns that go on. -/
theorem drains_iff (env : Env Component) (pending : Finset Nat) :
    Drains env pending ↔
      ∀ state, (machine env pending).Reachable state → ∀ next, turn env state = .ok (some next) →
        ∀ batch ∈ turnBatches env state, Full env batch := by
  constructor
  · intro drains state reached next goesOn
    exact (turn_removes_iff goesOn).mp (drains.removes state reached next goesOn)
  · exact Drains.of_full

/-! ### An embedder that answers with nothing -/

/-- Memories of one letter each and an embedder without a vector. -/
def silent : Env Nat where
  content _ := utf8 "a"
  pendingEmbeddings limit pending := (pending.sort (· ≤ ·)).take limit
  pending_mem limit pending id inside := (Finset.mem_sort _).mp (List.mem_of_mem_take inside)
  pending_nodup limit pending := (List.take_sublist _ _).nodup (Finset.sort_nodup _ _)
  pending_ne_nil limit pending positive some_id none := by
    obtain ⟨id, inside⟩ := some_id
    have listed := (Finset.mem_sort (· ≤ ·)).mpr inside
    rcases List.take_eq_nil_iff.mp none with zero | empty
    · omega
    · rw [empty] at listed
      contradiction
  transformBatch _ _ := .ok []
  embedDim := 1
  backfillError _ _ _ := none

theorem turn_silent (batches : Nat) :
    turn silent ⟨{1}, batches⟩ = .ok (some ⟨{1}, batches + 1⟩) := by
  have pulled : silent.pendingEmbeddings pullLimit {1} = [1] := by
    simp [silent, pullLimit]
  have grouped : turnBatches silent ⟨{1}, batches⟩ = [([1], batches)] := by
    simp [turnBatches, pulled, inBatches, subBatch]
  have nothing : embedBatch silent ⟨{1}, []⟩ ([1], batches) = .ok ⟨{1}, []⟩ := rfl
  rw [turn, grouped, pulled]
  simp [nothing]

/-- The loop never ends with it. -/
theorem drain_silent (count batches : Nat) : drain silent count ⟨{1}, batches⟩ = none := by
  induction count generalizing batches with
  | zero => rfl
  | succ count ih =>
    rw [drain, turn_silent]
    exact ih (batches + 1)

theorem silent_never_drains : ¬ Drains silent {1} := by
  intro drains
  obtain ⟨count, ended⟩ := drains.ends
  rw [drain_silent] at ended
  contradiction

end Chitta.ReEmbed
