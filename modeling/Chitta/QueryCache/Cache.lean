import Mathlib.Data.List.AList
import Chitta.Machine
import Chitta.Slots

/-!
# The cache of query embeddings

The first caller that misses a query computes its vector, outside of the lock; the callers that miss
it in the meantime join the flight and wait for its outcome. A vector is cached and the flight ends
in one critical section. Every entry refers to the one node of its query as long as no query is
stored that has an entry.
-/
namespace Chitta.QueryCache

/-- A node of the list; nodes keep their identity when they move. -/
structure Item (α : Type) where
  /-- The number of the node. -/
  node : Nat
  /-- The query. -/
  query : String
  /-- Its vector. -/
  vec : List α

/-- A caller that computes. -/
structure Run (ε α : Type) where
  /-- The query. -/
  query : String
  /-- Its flight, none when nothing is cached. -/
  prom : Option Nat
  /-- What was computed, when the computation has ended. -/
  outcome : Option (Except ε (List α))

/-- A cache with its callers. -/
structure State (ε α : Type) where
  /-- `lru_`, the last used node first. -/
  lru : List (Item α)
  /-- `entries_`: the node of a query. -/
  entries : AList fun _ : String => Nat
  /-- The number of the next node. -/
  fresh : Nat
  /-- `flights_`: the promise of a query. -/
  flights : AList fun _ : String => Nat
  /-- The number of the next promise. -/
  promises : Nat
  /-- The outcomes of promises, with the queries that they were computed for. -/
  outcomes : List (Nat × String × Except ε (List α))
  /-- The callers that compute. -/
  running : List (Run ε α)
  /-- The callers that have joined a flight. -/
  waiting : List (String × Nat)
  /-- What callers that had joined a flight have got. -/
  received : List (String × Nat × Except ε (List α))
  /-- What the other callers have got. -/
  returned : List (String × Except ε (List α))
  /-- `hits_`. -/
  hits : Nat
  /-- `misses_`. -/
  misses : Nat
  /-- `coalesced_`. -/
  coalesced : Nat

variable {ε α : Type}

namespace State

/-- An empty cache. -/
def initial : State ε α where
  lru := []
  entries := ∅
  fresh := 0
  flights := ∅
  promises := 0
  outcomes := []
  running := []
  waiting := []
  received := []
  returned := []
  hits := 0
  misses := 0
  coalesced := 0

variable (capacity : Nat) (state : State ε α)

/-- The first lock of `get`: a hit moves its node to the front, a miss joins a flight or starts
one. -/
def look (query : String) : State ε α :=
  match state.entries.lookup query with
  | some node =>
    match state.lru.find? (·.node = node) with
    | some item =>
      { state with
        hits := state.hits + 1
        lru := item :: state.lru.eraseP (·.node = node)
        returned := state.returned ++ [(query, .ok item.vec)] }
    | none => state
  | none =>
    match state.flights.lookup query with
    | some prom =>
      { state with
        coalesced := state.coalesced + 1
        waiting := state.waiting ++ [(query, prom)] }
    | none =>
      { state with
        misses := state.misses + 1
        flights := state.flights.insert query state.promises
        promises := state.promises + 1
        running := state.running ++ [{ query, prom := some state.promises, outcome := none }] }

/-- `get`, up to its computation: an empty query has no vector, and a cache without capacity
computes every query. -/
def get (query : String) : State ε α :=
  if query = "" then { state with returned := state.returned ++ [(query, .ok [])] }
  else if capacity = 0 then
    { state with
      misses := state.misses + 1
      running := state.running ++ [{ query, prom := none, outcome := none }] }
  else state.look query

/-- A node is put in front; an entry that is there stays. -/
def insert (query : String) (vec : List α) : State ε α :=
  { state with
    lru := { node := state.fresh, query, vec } :: state.lru
    entries :=
      if query ∈ state.entries then state.entries else state.entries.insert query state.fresh
    fresh := state.fresh + 1 }

/-- The last node goes when there are too many entries. -/
def evict : State ε α :=
  if capacity < state.entries.entries.length then
    match state.lru.getLast? with
    | none => state
    | some last =>
      { state with entries := state.entries.erase last.query, lru := state.lru.dropLast }
  else state

/-- A vector is cached when it is not empty. -/
def store (query : String) : Except ε (List α) → State ε α
  | .ok vec => if vec.isEmpty then state else (state.insert query vec).evict capacity
  | .error _ => state

/-- A caller returns what it has computed. -/
def leave (index : Nat) (query : String) (outcome : Except ε (List α)) : State ε α :=
  { state with
    running := state.running.eraseIdx index
    returned := state.returned ++ [(query, outcome)] }

/-- The second lock of `get`: the outcome of a flight is cached and promised, and the flight
ends. -/
def land (index : Nat) (run : Run ε α) (outcome : Except ε (List α)) : State ε α :=
  match run.prom with
  | none => state.leave index run.query outcome
  | some prom =>
    { (state.leave index run.query outcome).store capacity run.query outcome with
      outcomes := state.outcomes ++ [(prom, run.query, outcome)]
      flights := state.flights.erase run.query }

end State

/-- What happens to a cache. -/
inductive Action (ε α : Type) where
  /-- A caller asks for a query. -/
  | get (query : String)
  /-- A computation ends. -/
  | compute (index : Nat) (outcome : Except ε (List α))
  /-- A caller takes the lock with what it has computed. -/
  | land (index : Nat)
  /-- A caller that has joined a flight gets its outcome. -/
  | receive (index : Nat)

/-- The steps of a cache. -/
def machine (ε α : Type) (capacity : Nat) : Machine (State ε α) (Action ε α) where
  initial := .initial
  step state action :=
    match action with
    | .get query => some (state.get capacity query)
    | .compute index outcome =>
      match state.running[index]? with
      | some { query, prom, outcome := none } => some
        { state with running := state.running.set index { query, prom, outcome := some outcome } }
      | _ => none
    | .land index =>
      match state.running[index]? with
      | some run =>
        match run.outcome with
        | some outcome => some (state.land capacity index run outcome)
        | none => none
      | none => none
    | .receive index =>
      match state.waiting[index]? with
      | none => none
      | some (query, prom) =>
        match state.outcomes.lookup prom with
        | none => none
        | some (_, outcome) => some
          { state with
            waiting := state.waiting.eraseIdx index
            received := state.received ++ [(query, prom, outcome)] }

variable {capacity : Nat} {state next : State ε α}

/-! ## The list and the entries -/

/-- One node for every entry, to which it refers, and not too many. -/
structure Linked (capacity : Nat) (state : State ε α) : Prop where
  /-- The nodes differ. -/
  nodes : (state.lru.map (·.node)).Nodup
  /-- The next node is new. -/
  older : ∀ item ∈ state.lru, item.node < state.fresh
  /-- A query has one node. -/
  once : (state.lru.map (·.query)).Nodup
  /-- The queries with a node have an entry. -/
  keys : ∀ query, query ∈ state.entries ↔ query ∈ state.lru.map (·.query)
  /-- An entry refers to the node of its query. -/
  own : ∀ query node, state.entries.lookup query = some node →
    ∃ item ∈ state.lru, item.node = node ∧ item.query = query
  /-- The capacity. -/
  few : state.lru.length ≤ capacity

/-- There are as many entries as nodes. -/
theorem Linked.size_eq (linked : Linked capacity state) :
    state.entries.entries.length = state.lru.length := by
  have same : state.entries.keys.Perm (state.lru.map (·.query)) :=
    (List.perm_ext_iff_of_nodup state.entries.nodupKeys linked.once).mpr linked.keys
  have lengths := same.length_eq
  rwa [List.length_map, AList.keys, List.keys, List.length_map] at lengths

/-- The same nodes in another order. -/
theorem Linked.perm (linked : Linked capacity state) (lru : next.lru.Perm state.lru)
    (entries : next.entries = state.entries) (fresh : next.fresh = state.fresh) :
    Linked capacity next where
  nodes := (lru.map _).nodup_iff.mpr linked.nodes
  older item inside := by
    rw [fresh]
    exact linked.older item (lru.mem_iff.mp inside)
  once := (lru.map _).nodup_iff.mpr linked.once
  keys query := by
    rw [entries, linked.keys]
    exact (lru.map (·.query)).mem_iff.symm
  own query node found := by
    rw [entries] at found
    obtain ⟨item, inside, same⟩ := linked.own query node found
    exact ⟨item, lru.mem_iff.mpr inside, same⟩
  few := by
    rw [lru.length_eq]
    exact linked.few

/-- A query without an entry gets one, and the list may be one node too long. -/
theorem Linked.insert (linked : Linked capacity state) {query : String}
    (absent : query ∉ state.entries) (vec : List α) :
    Linked (capacity + 1) (state.insert query vec) where
  nodes := by
    refine List.nodup_cons.mpr ⟨fun inside => ?_, linked.nodes⟩
    obtain ⟨item, there, same⟩ := List.mem_map.mp inside
    have older := linked.older item there
    have same' : item.node = state.fresh := same
    omega
  older item inside := by
    show item.node < state.fresh + 1
    cases inside with
    | head => exact Nat.lt_succ_self _
    | tail _ there => exact Nat.lt_succ_of_lt (linked.older item there)
  once := List.nodup_cons.mpr ⟨fun inside => absent ((linked.keys query).mpr inside), linked.once⟩
  keys other := by
    show other ∈ (if query ∈ state.entries then state.entries
      else state.entries.insert query state.fresh) ↔ other ∈ query :: state.lru.map (·.query)
    rw [if_neg absent, AList.mem_insert, List.mem_cons, linked.keys]
  own other node found := by
    have inserted : (state.entries.insert query state.fresh).lookup other = some node := by
      have found' : (if query ∈ state.entries then state.entries
        else state.entries.insert query state.fresh).lookup other = some node := found
      rwa [if_neg absent] at found'
    by_cases same : other = query
    · subst same
      rw [AList.lookup_insert, Option.some.injEq] at inserted
      exact ⟨_, List.mem_cons_self, inserted, rfl⟩
    · rw [AList.lookup_insert_ne same] at inserted
      obtain ⟨item, there, equal⟩ := linked.own other node inserted
      exact ⟨item, List.mem_cons_of_mem _ there, equal⟩
  few := Nat.succ_le_succ linked.few

/-- The last node goes when the list is too long, and its entry with it. -/
theorem Linked.evict (linked : Linked (capacity + 1) state) :
    Linked capacity (state.evict capacity) := by
  unfold State.evict
  split
  · rename_i over_full
    rw [linked.size_eq] at over_full
    cases final : state.lru.getLast? with
    | none =>
      rw [List.getLast?_eq_none_iff] at final
      rw [final] at over_full
      contradiction
    | some last =>
      obtain ⟨front, split⟩ := List.getLast?_eq_some_iff.mp final
      have left : state.lru.dropLast = front := by rw [split, List.dropLast_concat]
      have gone : last.query ∉ front.map (·.query) := by
        have once := linked.once
        rw [split, List.map_append, List.nodup_append] at once
        exact fun inside => once.2.2 last.query inside last.query (by simp) rfl
      have sub : front.Sublist state.lru := by
        rw [split]
        exact List.sublist_append_left _ _
      refine ⟨?_, ?_, ?_, ?_, ?_, ?_⟩
      · show (state.lru.dropLast.map (·.node)).Nodup
        rw [left]
        exact linked.nodes.sublist (sub.map _)
      · intro item inside
        exact linked.older item ((List.dropLast_sublist _).subset inside)
      · show (state.lru.dropLast.map (·.query)).Nodup
        rw [left]
        exact linked.once.sublist (sub.map _)
      · intro query
        show query ∈ state.entries.erase last.query ↔ query ∈ state.lru.dropLast.map (·.query)
        rw [left, AList.mem_erase, linked.keys, split, List.map_append, List.mem_append]
        constructor
        · rintro ⟨apart, inside | equal⟩
          · exact inside
          · exact absurd (List.mem_singleton.mp equal) apart
        · exact fun inside => ⟨fun equal => gone (equal ▸ inside), .inl inside⟩
      · intro query node found
        have apart : query ≠ last.query := by
          rintro rfl
          have erased : (state.entries.erase last.query).lookup last.query = some node := found
          rw [AList.lookup_erase] at erased
          contradiction
        have before : state.entries.lookup query = some node :=
          (AList.lookup_erase_ne apart).symm.trans found
        obtain ⟨item, there, same, named⟩ := linked.own query node before
        refine ⟨item, ?_, same, named⟩
        show item ∈ state.lru.dropLast
        rw [left]
        rw [split] at there
        refine (List.mem_append.mp there).resolve_right fun equal => apart ?_
        rw [← named, List.mem_singleton.mp equal]
      · show state.lru.dropLast.length ≤ capacity
        have few := linked.few
        rw [List.length_dropLast]
        omega
  · rename_i room
    rw [linked.size_eq] at room
    exact ⟨linked.nodes, linked.older, linked.once, linked.keys, linked.own, by omega⟩

/-- Storing changes the list and the entries. -/
theorem store_eq (capacity : Nat) (state : State ε α) (query : String)
    (outcome : Except ε (List α)) :
    state.store capacity query outcome =
      { state with
        lru := (state.store capacity query outcome).lru
        entries := (state.store capacity query outcome).entries
        fresh := (state.store capacity query outcome).fresh } := by
  cases outcome with
  | error _ => rfl
  | ok vec =>
    simp only [State.store, State.evict]
    split
    · rfl
    · split
      · split <;> rfl
      · rfl

/-- A failure and an empty vector are not stored. -/
theorem store_failed (state : State ε α) (query : String) {outcome : Except ε (List α)}
    (failed : ∀ vec, outcome = .ok vec → vec = []) :
    state.store capacity query outcome = state := by
  cases outcome with
  | error _ => rfl
  | ok vec =>
    rw [failed vec rfl]
    rfl

/-- No other query gets an entry. -/
theorem mem_store {query other : String} {outcome : Except ε (List α)}
    (inside : other ∈ (state.store capacity query outcome).entries) :
    other = query ∨ other ∈ state.entries := by
  have inserted : ∀ vec, other ∈ (state.insert query vec).entries →
      other = query ∨ other ∈ state.entries := by
    intro vec there
    have there' : other ∈ (if query ∈ state.entries then state.entries
      else state.entries.insert query state.fresh) := there
    split at there'
    · exact .inr there'
    · exact AList.mem_insert _ |>.mp there'
  cases outcome with
  | error _ => exact .inr inside
  | ok vec =>
    simp only [State.store, State.evict] at inside
    split at inside
    · exact .inr inside
    · split at inside
      · split at inside
        · exact inserted vec inside
        · exact inserted vec (AList.mem_erase.mp inside).2
      · exact inserted vec inside

/-- A node of the list is an earlier one, or it has the vector that is stored. -/
theorem mem_store_lru {query : String} {outcome : Except ε (List α)} {item : Item α}
    (inside : item ∈ (state.store capacity query outcome).lru) :
    item ∈ state.lru ∨ item.query = query ∧ item.vec ≠ [] ∧ outcome = .ok item.vec := by
  cases outcome with
  | error _ => exact .inl inside
  | ok vec =>
    simp only [State.store] at inside
    split at inside
    · exact .inl inside
    · rename_i filled
      have there : item ∈ (state.insert query vec).lru := by
        unfold State.evict at inside
        split at inside
        · split at inside
          · exact inside
          · exact (List.dropLast_sublist _).subset inside
        · exact inside
      cases there with
      | head => exact .inr ⟨rfl, fun empty => filled (List.isEmpty_iff.mpr empty), rfl⟩
      | tail _ before => exact .inl before

/-- A query without an entry may be stored. -/
theorem Linked.store (linked : Linked capacity state) {query : String}
    (absent : query ∉ state.entries) (outcome : Except ε (List α)) :
    Linked capacity (state.store capacity query outcome) := by
  unfold State.store
  split
  · split
    · exact linked
    · exact (linked.insert absent _).evict
  · exact linked

end Chitta.QueryCache
