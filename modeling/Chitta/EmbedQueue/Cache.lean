import Mathlib.Data.List.AList
import Chitta.Recency

/-!
# The cache of the embedding queue

A map holds the vector of a key and the position of the node of the key in a list, which has the
nodes in the order of their last use. Nodes keep their identity when they move, so they carry a
number; a new node gets the next one.
-/
namespace Chitta.EmbedQueue

variable {κ : Type} [DecidableEq κ] {α : Type}

/-- `kCacheSize`. -/
def kCacheSize : Nat := 512

/-- `cache_map_` and `cache_lru_`. -/
structure Cache (κ α : Type) where
  /-- The vector and the node of a key. -/
  map : AList fun _ : κ => List α × Nat
  /-- The nodes with their keys, the last used first. -/
  lru : List (Nat × κ)
  /-- The number of the next node. -/
  fresh : Nat

namespace Cache

/-- An empty cache. -/
def empty : Cache κ α where
  map := ∅
  lru := []
  fresh := 0

/-- `cache_map_.size()`. -/
def size (cache : Cache κ α) : Nat := cache.map.entries.length

/-- The keys of the nodes. -/
def keys (cache : Cache κ α) : List κ := cache.lru.map (·.2)

/-- `cache_get`: the node of the key moves to the front. -/
def get (cache : Cache κ α) (key : κ) : Option (List α) × Cache κ α :=
  match cache.map.lookup key with
  | none => (none, cache)
  | some (vec, node) =>
    match cache.lru.find? (·.1 = node) with
    | none => (some vec, cache)
    | some moved =>
      (some vec, { cache with lru := moved :: cache.lru.eraseP (·.1 = node) })

/-- The old entry of a key goes when writes are bounded. -/
def forget (bounded : Bool) (cache : Cache κ α) (key : κ) : Cache κ α :=
  match cache.map.lookup key with
  | none => cache
  | some (_, node) =>
    if bounded then
      { cache with lru := cache.lru.eraseP (·.1 = node), map := cache.map.erase key }
    else cache

/-- The key of the last node goes when the cache is full. -/
def evict (cache : Cache κ α) : Cache κ α :=
  if kCacheSize ≤ cache.size then
    match cache.lru.getLast? with
    | none => cache
    | some (_, victim) =>
      { cache with map := cache.map.erase victim, lru := cache.lru.dropLast }
  else cache

/-- A node for a key is put in front, and the entry of the key refers to it. -/
def insert (cache : Cache κ α) (key : κ) (vec : List α) : Cache κ α where
  map := cache.map.insert key (vec, cache.fresh)
  lru := (cache.fresh, key) :: cache.lru
  fresh := cache.fresh + 1

/-- `cache_put`. -/
def put (bounded : Bool) (cache : Cache κ α) (key : κ) (vec : List α) : Cache κ α :=
  ((cache.forget bounded key).evict).insert key vec

/-- One node for every cached key, to which its entry refers. -/
structure Linked (cache : Cache κ α) : Prop where
  /-- The nodes differ. -/
  nodes : (cache.lru.map (·.1)).Nodup
  /-- The next node is new. -/
  older : ∀ node ∈ cache.lru, node.1 < cache.fresh
  /-- A key has one node. -/
  once : cache.keys.Nodup
  /-- The keys with a node are cached. -/
  cached : ∀ key, key ∈ cache.map ↔ key ∈ cache.keys
  /-- An entry refers to the node of its key. -/
  own : ∀ key vec node, cache.map.lookup key = some (vec, node) → (node, key) ∈ cache.lru

/-- A linked cache with not too many entries. -/
structure WellFormed (cache : Cache κ α) : Prop where
  /-- The nodes. -/
  linked : cache.Linked
  /-- The size. -/
  bounded : cache.size ≤ kCacheSize

variable {cache : Cache κ α}

/-- An empty cache is well formed. -/
theorem wellFormed_empty : (empty : Cache κ α).WellFormed := by
  refine ⟨⟨by simp [empty], by simp [empty], by simp [empty, keys], ?_, ?_⟩, ?_⟩
  · intro key
    simp [empty, keys]
  · intro key vec node found
    simp [empty] at found
  · exact Nat.zero_le _

/-- A linked cache has as many entries as nodes. -/
theorem Linked.size_eq (linked : cache.Linked) : cache.size = cache.lru.length := by
  have same : cache.map.keys.Perm cache.keys := by
    refine (List.perm_ext_iff_of_nodup cache.map.keys_nodup linked.once).mpr fun key => ?_
    rw [← AList.mem_keys, linked.cached]
  have lengths := same.length_eq
  simpa [AList.keys, List.keys, keys, size] using lengths

/-- The node with a number is found, and the others are left when it is taken out. -/
theorem find_node {lru : List (Nat × κ)} {node : Nat} {key : κ} (nodes : (lru.map (·.1)).Nodup)
    (once : (lru.map (·.2)).Nodup) (inside : (node, key) ∈ lru) :
    lru.find? (·.1 = node) = some (node, key) ∧
      (lru.eraseP (·.1 = node)).map (·.2) = (lru.map (·.2)).erase key ∧
      ((node, key) :: lru.eraseP (·.1 = node)).Perm lru := by
  induction lru with
  | nil => contradiction
  | cons first rest ih =>
    obtain ⟨apart, nodes⟩ := List.nodup_cons.mp nodes
    obtain ⟨other, once⟩ := List.nodup_cons.mp once
    cases inside with
    | head => simp
    | tail _ there =>
      have number : first.1 ≠ node := fun same =>
        apart (List.mem_map.mpr ⟨(node, key), there, same.symm⟩)
      have name : first.2 ≠ key := fun same =>
        other (List.mem_map.mpr ⟨(node, key), there, same.symm⟩)
      obtain ⟨found, left, permuted⟩ := ih nodes once there
      rw [List.eraseP_cons_of_neg (by simpa using number)]
      refine ⟨?_, ?_, (List.Perm.swap _ _ _).trans (permuted.cons first)⟩
      · rw [List.find?_cons_of_neg (by simpa using number), found]
      · rw [List.map_cons, List.map_cons, left, List.erase_cons_tail (by simpa using name)]

/-- A cache with the same nodes in another order is linked. -/
theorem Linked.perm (linked : cache.Linked) {lru : List (Nat × κ)} (same : lru.Perm cache.lru) :
    ({ cache with lru } : Cache κ α).Linked where
  nodes := (same.map _).nodup_iff.mpr linked.nodes
  older node inside := linked.older node (same.mem_iff.mp inside)
  once := (same.map _).nodup_iff.mpr linked.once
  cached key := (linked.cached key).trans (same.map (·.2)).mem_iff.symm
  own key vec node found := same.mem_iff.mpr (linked.own key vec node found)

/-! ## Looking up -/

/-- A hit moves the node of the key to the front. -/
theorem Linked.get (linked : cache.Linked) {key : κ} {vec : List α}
    (hit : (cache.get key).1 = some vec) :
    (cache.get key).2.Linked ∧ (cache.get key).2.map = cache.map ∧
      (cache.get key).2.keys = key :: cache.keys.erase key := by
  cases entry : cache.map.lookup key with
  | none =>
    rw [Cache.get, entry] at hit
    contradiction
  | some value =>
    obtain ⟨own, node⟩ := value
    have inside := linked.own key own node entry
    obtain ⟨found, left, same⟩ := find_node linked.nodes linked.once inside
    have moved : (cache.get key).2 =
        { cache with lru := (node, key) :: cache.lru.eraseP (·.1 = node) } := by
      simp only [Cache.get, entry, found]
    rw [moved]
    exact ⟨linked.perm same, rfl, congrArg (key :: ·) left⟩

/-- A miss changes nothing. -/
theorem get_miss {key : κ} (miss : (cache.get key).1 = none) :
    (cache.get key).2 = cache ∧ key ∉ cache.map := by
  unfold Cache.get at miss ⊢
  split
  · rename_i absent
    exact ⟨rfl, AList.lookup_eq_none.mp absent⟩
  · rename_i vec node found
    rw [found] at miss
    dsimp only at miss
    split at miss <;> contradiction

/-! ## Putting -/

/-- The old entry of a key is taken out with its node. -/
theorem Linked.forget (linked : cache.Linked) (key : κ) :
    (cache.forget true key).Linked ∧ key ∉ (cache.forget true key).map ∧
      (∀ other, other ≠ key → (cache.forget true key).map.lookup other = cache.map.lookup other) ∧
      (cache.forget true key).keys = cache.keys.erase key := by
  cases entry : cache.map.lookup key with
  | none =>
    have absent := AList.lookup_eq_none.mp entry
    have same : cache.forget true key = cache := by simp only [Cache.forget, entry]
    rw [same]
    refine ⟨linked, absent, fun _ _ => rfl, (List.erase_of_not_mem fun inside => ?_).symm⟩
    exact absent ((linked.cached key).mpr inside)
  | some value =>
    obtain ⟨own, node⟩ := value
    have inside := linked.own key own node entry
    obtain ⟨found, left, same⟩ := find_node linked.nodes linked.once inside
    have removed : cache.forget true key =
        { cache with lru := cache.lru.eraseP (·.1 = node), map := cache.map.erase key } := by
      simp only [Cache.forget, entry, if_true]
    rw [removed]
    refine ⟨⟨?_, ?_, ?_, ?_, ?_⟩, by simp, fun other apart => AList.lookup_erase_ne apart, left⟩
    · exact linked.nodes.sublist (List.eraseP_sublist.map _)
    · exact fun other there => linked.older other (List.mem_of_mem_eraseP there)
    · exact linked.once.sublist (List.eraseP_sublist.map _)
    · intro other
      show other ∈ cache.map.erase key ↔ other ∈ (cache.lru.eraseP (·.1 = node)).map (·.2)
      rw [left, AList.mem_erase, linked.cached]
      exact (List.Nodup.mem_erase_iff linked.once).symm
    · intro other vec number stored
      have apart : other ≠ key := by
        rintro rfl
        rw [AList.lookup_erase] at stored
        contradiction
      have before : cache.map.lookup other = some (vec, number) :=
        (AList.lookup_erase_ne apart).symm.trans stored
      have there := same.mem_iff.mpr (linked.own other vec number before)
      exact (List.mem_cons.mp there).resolve_left fun equal => apart (Prod.mk.inj equal).2

/-- A full cache has a last node. -/
theorem Linked.last (linked : cache.Linked) (full : kCacheSize ≤ cache.size) :
    ∃ node victim, cache.lru.getLast? = some (node, victim) ∧
      cache.keys.getLast? = some victim := by
  rw [linked.size_eq] at full
  cases final : cache.lru.getLast? with
  | none =>
    rw [List.getLast?_eq_none_iff] at final
    rw [final] at full
    contradiction
  | some last =>
    refine ⟨last.1, last.2, rfl, ?_⟩
    rw [keys, List.getLast?_map, final, Option.map_some]

/-- A full cache loses the key of its last node. -/
theorem Linked.evict (linked : cache.Linked) (full : kCacheSize ≤ cache.size) {victim : κ}
    (last : cache.keys.getLast? = some victim) :
    cache.evict.Linked ∧ cache.evict.map = cache.map.erase victim ∧
      cache.evict.keys = cache.keys.dropLast := by
  obtain ⟨node, other, final, same⟩ := linked.last full
  obtain rfl := Option.some.inj (last.symm.trans same)
  have evicted : cache.evict =
      { cache with map := cache.map.erase victim, lru := cache.lru.dropLast } := by
    simp only [Cache.evict, if_pos full, final]
  obtain ⟨front, split⟩ := List.getLast?_eq_some_iff.mp final
  have left : cache.lru.dropLast = front := by rw [split, List.dropLast_concat]
  have names : cache.keys = front.map (·.2) ++ [victim] := by
    rw [keys, split, List.map_append]
    rfl
  have gone : victim ∉ front.map (·.2) := by
    have once := linked.once
    rw [names, List.nodup_append] at once
    exact fun inside => once.2.2 victim inside victim (by simp) rfl
  rw [evicted]
  refine ⟨⟨?_, ?_, ?_, ?_, ?_⟩, rfl, ?_⟩
  · exact linked.nodes.sublist ((List.dropLast_sublist _).map _)
  · exact fun other there => linked.older other ((List.dropLast_sublist _).subset there)
  · exact linked.once.sublist ((List.dropLast_sublist _).map _)
  · intro other
    show other ∈ cache.map.erase victim ↔ other ∈ cache.lru.dropLast.map (·.2)
    rw [left, AList.mem_erase, linked.cached, names, List.mem_append, List.mem_singleton]
    constructor
    · rintro ⟨apart, inside | equal⟩
      · exact inside
      · exact absurd equal apart
    · exact fun inside => ⟨fun equal => gone (equal ▸ inside), .inl inside⟩
  · intro other vec number stored
    have apart : other ≠ victim := by
      rintro rfl
      rw [AList.lookup_erase] at stored
      contradiction
    have there := linked.own other vec number ((AList.lookup_erase_ne apart).symm.trans stored)
    rw [split] at there
    show (number, other) ∈ cache.lru.dropLast
    rw [left]
    refine (List.mem_append.mp there).resolve_right fun own => ?_
    exact apart (Prod.mk.inj (List.mem_singleton.mp own)).2
  · exact List.map_dropLast

/-- A key without an entry gets one. -/
theorem Linked.insert (linked : cache.Linked) {key : κ} (absent : key ∉ cache.map)
    (vec : List α) : (cache.insert key vec).Linked where
  nodes := by
    refine List.nodup_cons.mpr ⟨fun inside => ?_, linked.nodes⟩
    obtain ⟨node, there, same⟩ := List.mem_map.mp inside
    exact Nat.lt_irrefl _ (same ▸ linked.older node there)
  older node inside := by
    cases inside with
    | head => exact Nat.lt_succ_self _
    | tail _ there => exact Nat.lt_succ_of_lt (linked.older node there)
  once := List.nodup_cons.mpr ⟨fun inside => absent ((linked.cached key).mpr inside), linked.once⟩
  cached other := by
    show other ∈ cache.map.insert key (vec, cache.fresh) ↔ other ∈ key :: cache.keys
    rw [AList.mem_insert, List.mem_cons, linked.cached]
  own other own node stored := by
    by_cases same : other = key
    · subst same
      have entry : some (vec, cache.fresh) = some (own, node) :=
        (AList.lookup_insert cache.map).symm.trans stored
      obtain ⟨rfl, rfl⟩ := Prod.mk.inj (Option.some.inj entry)
      exact List.mem_cons_self
    · have before : cache.map.lookup other = some (own, node) :=
        (AList.lookup_insert_ne same).symm.trans stored
      exact List.mem_cons_of_mem _ (linked.own other own node before)

/-- A put of a key that is not cached, or is the one that the put evicts, or whose old entry it
takes out. -/
def Fresh (bounded : Bool) (cache : Cache κ α) (key : κ) : Prop :=
  bounded = true ∨ key ∉ cache.map ∨
    (kCacheSize ≤ cache.size ∧ cache.keys.getLast? = some key)

/-- What is left of a cache when the node of a put is inserted. -/
theorem WellFormed.room (wellFormed : cache.WellFormed) {bounded : Bool} {key : κ}
    (fresh : Fresh bounded cache key) :
    ((cache.forget bounded key).evict).Linked ∧ key ∉ ((cache.forget bounded key).evict).map ∧
      ((cache.forget bounded key).evict).size < kCacheSize ∧
      ((cache.forget bounded key).evict).keys.Sublist cache.keys := by
  -- The old entry, first.
  have first : (cache.forget bounded key).Linked ∧
      (cache.forget bounded key).keys.Sublist cache.keys ∧
      (key ∉ (cache.forget bounded key).map ∨ (kCacheSize ≤ (cache.forget bounded key).size ∧
        (cache.forget bounded key).keys.getLast? = some key)) := by
    cases bounded with
    | true =>
      obtain ⟨linked, absent, _, left⟩ := wellFormed.linked.forget key
      exact ⟨linked, left ▸ List.erase_sublist, .inl absent⟩
    | false =>
      have same : cache.forget false key = cache := by
        unfold Cache.forget
        split <;> rfl
      rw [same]
      exact ⟨wellFormed.linked, List.Sublist.refl _, fresh.resolve_left (by simp)⟩
  obtain ⟨linked, sub, free⟩ := first
  generalize cache.forget bounded key = left at linked sub free
  have small : left.size ≤ kCacheSize := by
    have counted := sub.length_le
    have bound := wellFormed.bounded
    rw [wellFormed.linked.size_eq] at bound
    rw [linked.size_eq]
    simp only [keys, List.length_map] at counted
    omega
  by_cases full : kCacheSize ≤ left.size
  · obtain ⟨node, victim, _, last⟩ := linked.last full
    obtain ⟨evicted, map, names⟩ := linked.evict full last
    have count : left.evict.size + 1 = left.size := by
      have lengths := congrArg List.length names
      rw [List.length_dropLast] at lengths
      rw [evicted.size_eq, linked.size_eq]
      rw [linked.size_eq] at full
      simp only [keys, List.length_map] at lengths
      have positive : 0 < left.lru.length := Nat.lt_of_lt_of_le (by decide) full
      omega
    refine ⟨evicted, ?_, by omega, names ▸ (List.dropLast_sublist _).trans sub⟩
    rw [map, AList.mem_erase]
    rintro ⟨apart, inside⟩
    cases free with
    | inl absent => exact absent inside
    | inr own => exact apart (Option.some.inj (own.2.symm.trans last))
  · have kept : left.evict = left := by rw [Cache.evict, if_neg full]
    rw [kept]
    have absent : key ∉ left.map := free.resolve_right fun own => full own.1
    exact ⟨linked, absent, Nat.not_le.mp full, sub⟩

/-- Such a put keeps a cache well formed and puts its key before the others. -/
theorem WellFormed.put (wellFormed : cache.WellFormed) {bounded : Bool} {key : κ}
    (fresh : Fresh bounded cache key) (vec : List α) {uses : List κ}
    (recent : Recent uses cache.keys) :
    (cache.put bounded key vec).WellFormed ∧
      Recent (key :: uses) (cache.put bounded key vec).keys := by
  obtain ⟨linked, absent, small, sub⟩ := wellFormed.room fresh
  have inserted := linked.insert absent vec
  refine ⟨⟨inserted, ?_⟩, ?_⟩
  · rw [Cache.put, inserted.size_eq]
    rw [linked.size_eq] at small
    exact small
  · have used := (recent.sublist sub).use key
    rwa [List.erase_of_not_mem fun inside => absent ((linked.cached key).mpr inside)] at used

/-- A full cache loses the key that has not been used for the longest time, and no other. -/
def EvictsOldest (uses : List κ) (before after : Cache κ α) (key : κ) : Prop :=
  ∃ victim, victim ∈ before.map ∧
    (∀ other, other ∈ before.map → other ≠ victim → uses.idxOf other < uses.idxOf victim) ∧
    ∀ other, other ≠ key →
      after.map.lookup other = if other = victim then none else before.map.lookup other

/-- A put of a new key into a full cache evicts the oldest one. -/
theorem WellFormed.put_evicts (wellFormed : cache.WellFormed) (bounded : Bool) {key : κ}
    (absent : key ∉ cache.map) (full : kCacheSize ≤ cache.size) (vec : List α) {uses : List κ}
    (recent : Recent uses cache.keys) :
    EvictsOldest uses cache (cache.put bounded key vec) key := by
  have linked := wellFormed.linked
  have same : cache.forget bounded key = cache := by
    rw [Cache.forget, AList.lookup_eq_none.mpr absent]
  obtain ⟨node, victim, _, last⟩ := linked.last full
  obtain ⟨_, map, _⟩ := linked.evict full last
  refine ⟨victim, (linked.cached victim).mpr (List.mem_of_getLast? last), ?_, fun other apart => ?_⟩
  · intro other inside differs
    exact recent.oldest last ((linked.cached other).mp inside) differs
  · rw [Cache.put, same, Cache.insert, AList.lookup_insert_ne apart, map]
    by_cases equal : other = victim
    · rw [if_pos equal, equal, AList.lookup_erase]
    · rw [if_neg equal, AList.lookup_erase_ne equal]

/-- A put of a cached key leaves the other keys alone when writes are bounded. -/
theorem WellFormed.put_replaces (wellFormed : cache.WellFormed) {key : κ}
    (inside : key ∈ cache.map) (vec : List α) {other : κ} (apart : other ≠ key) :
    (cache.put true key vec).map.lookup other = cache.map.lookup other := by
  have linked := wellFormed.linked
  obtain ⟨left, absent, others, names⟩ := linked.forget key
  have room : (cache.forget true key).size < kCacheSize := by
    have count := List.length_erase_of_mem ((linked.cached key).mp inside)
    rw [← names] at count
    have some : 0 < cache.keys.length := List.length_pos_of_mem ((linked.cached key).mp inside)
    have bound := wellFormed.bounded
    rw [linked.size_eq] at bound
    rw [left.size_eq]
    simp only [keys, List.length_map] at count some
    omega
  have kept : (cache.forget true key).evict = cache.forget true key := by
    rw [Cache.evict, if_neg (Nat.not_le.mpr room)]
  rw [Cache.put, kept, Cache.insert, AList.lookup_insert_ne apart]
  exact others other apart

/-- Any other put leaves a key with two nodes. -/
theorem WellFormed.put_breaks (wellFormed : cache.WellFormed) {bounded : Bool} {key : κ}
    (stale : ¬Fresh bounded cache key) (vec : List α) :
    ¬(cache.put bounded key vec).WellFormed := by
  intro after
  have linked := wellFormed.linked
  have unbounded : bounded = false := by
    cases bounded with
    | false => rfl
    | true => exact absurd (.inl rfl) stale
  have inside : key ∈ cache.keys :=
    (linked.cached key).mp (Decidable.byContradiction fun absent => stale (.inr (.inl absent)))
  have same : cache.forget bounded key = cache := by
    rw [unbounded]
    unfold Cache.forget
    split <;> rfl
  -- The old node is still there.
  have left : key ∈ cache.evict.keys := by
    by_cases full : kCacheSize ≤ cache.size
    · obtain ⟨node, victim, _, last⟩ := linked.last full
      rw [(linked.evict full last).2.2]
      obtain ⟨front, split⟩ := List.getLast?_eq_some_iff.mp last
      rw [split] at inside ⊢
      rw [List.dropLast_concat]
      refine (List.mem_append.mp inside).resolve_right fun own => stale (.inr (.inr ⟨full, ?_⟩))
      rw [List.mem_singleton.mp own, last]
    · rwa [Cache.evict, if_neg full]
  have once := after.linked.once
  rw [Cache.put, same] at once
  exact (List.nodup_cons.mp once).1 left

end Cache

end Chitta.EmbedQueue
