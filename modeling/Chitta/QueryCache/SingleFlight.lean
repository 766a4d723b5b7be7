import Mathlib.Data.List.ReduceOption
import Chitta.QueryCache.Cache

/-!
# One flight for a query

A query has a flight as long as one caller computes it for the cache, and it has no entry meanwhile.
So no other caller computes it, its node is the only one, and the callers that wait get what was
computed.
-/
namespace Chitta.QueryCache

variable {ε α : Type} {capacity : Nat} {state next : State ε α}

/-- The flight of a caller that computes, when it has one. -/
def Run.flight (run : Run ε α) : Option (String × Nat) := run.prom.map (run.query, ·)

/-- The flights of the callers that compute. -/
def State.aloft (state : State ε α) : List (String × Nat) :=
  (state.running.map Run.flight).reduceOption

/-- Every promise is that of a flight or has its outcome. -/
structure Flying (capacity : Nat) (state : State ε α) : Prop where
  /-- A caller computes a query. -/
  named : ∀ run ∈ state.running, run.query ≠ ""
  /-- Without capacity there are no flights. -/
  grounded : ∀ run ∈ state.running, run.prom = none → capacity = 0
  /-- A query has one flight. -/
  once : (state.aloft.map (·.1)).Nodup
  /-- The flights are those of the callers that compute. -/
  flights : ∀ query prom, state.flights.lookup query = some prom ↔ (query, prom) ∈ state.aloft
  /-- A query with a flight has no entry. -/
  apart : ∀ query prom, (query, prom) ∈ state.aloft → query ∉ state.entries
  /-- The promises. -/
  promises : (state.aloft.map (·.2) ++ state.outcomes.map (·.1)).Perm (List.range state.promises)

/-- A change that leaves the flights and the keys. -/
theorem Flying.same (flying : Flying capacity state)
    (named : ∀ run ∈ next.running, run.query ≠ "")
    (grounded : ∀ run ∈ next.running, run.prom = none → capacity = 0)
    (aloft : next.aloft.Perm state.aloft) (flights : next.flights = state.flights)
    (entries : next.entries = state.entries) (outcomes : next.outcomes = state.outcomes)
    (promises : next.promises = state.promises) : Flying capacity next where
  named := named
  grounded := grounded
  once := (aloft.map _).nodup_iff.mpr flying.once
  flights query prom := by rw [flights, aloft.mem_iff, flying.flights]
  apart query prom inside := by
    rw [entries]
    exact flying.apart query prom (aloft.mem_iff.mp inside)
  promises := by
    rw [outcomes, promises]
    exact ((aloft.map _).append_right _).trans flying.promises

/-- A caller starts to compute. -/
theorem aloft_append (running : List (Run ε α)) (run : Run ε α) :
    ((running ++ [run]).map Run.flight).reduceOption =
      (running.map Run.flight).reduceOption ++ run.flight.toList := by
  rw [List.map_append, List.reduceOption_append]
  cases flight : run.flight <;> simp [flight, List.reduceOption]

/-- The flight of a caller that computes, and the others. -/
theorem aloft_eraseIdx {index : Nat} {running : List (Run ε α)} {run : Run ε α}
    (there : running[index]? = some run) :
    (running.map Run.flight).reduceOption.Perm
      (run.flight.toList ++ ((running.eraseIdx index).map Run.flight).reduceOption) := by
  have split := ((perm_eraseIdx there).map Run.flight).filterMap id
  cases flight : run.flight with
  | none =>
    rw [List.map_cons, flight] at split
    exact split
  | some own =>
    rw [List.map_cons, flight] at split
    exact split

/-- A query that has no flight and no entry gets a flight. -/
theorem Flying.start (flying : Flying capacity state) {query : String} (filled : query ≠ "")
    (absent : query ∉ state.entries) (free : state.flights.lookup query = none) (misses : Nat) :
    Flying capacity
      { state with
        misses := misses
        flights := state.flights.insert query state.promises
        promises := state.promises + 1
        running := state.running ++
          [{ query, prom := some state.promises, outcome := none }] } := by
  have aloft := aloft_append state.running
    { query, prom := some state.promises, outcome := none }
  have unflown : ∀ prom, (query, prom) ∉ state.aloft := by
    intro prom inside
    rw [(flying.flights query prom).mpr inside] at free
    contradiction
  refine ⟨?_, ?_, ?_, ?_, ?_, ?_⟩
  · intro run inside
    cases List.mem_append.mp inside with
    | inl before => exact flying.named run before
    | inr last =>
      rw [List.mem_singleton.mp last]
      exact filled
  · intro run inside alone
    cases List.mem_append.mp inside with
    | inl before => exact flying.grounded run before alone
    | inr last =>
      rw [List.mem_singleton.mp last] at alone
      contradiction
  · unfold State.aloft
    rw [aloft, List.map_append, List.nodup_append]
    refine ⟨flying.once, List.nodup_singleton _, ?_⟩
    intro other before same last
    obtain ⟨⟨_, prom⟩, inside, rfl⟩ := List.mem_map.mp before
    rw [show same = query from List.mem_singleton.mp last]
    rintro rfl
    exact unflown prom inside
  · intro other prom
    unfold State.aloft
    rw [aloft, List.mem_append]
    by_cases same : other = query
    · subst same
      rw [AList.lookup_insert]
      constructor
      · intro equal
        rw [← Option.some.inj equal]
        exact .inr List.mem_cons_self
      · rintro (inside | last)
        · exact absurd inside (unflown prom)
        · rw [(Prod.mk.inj (List.mem_singleton.mp last)).2]
    · rw [AList.lookup_insert_ne same, flying.flights]
      constructor
      · exact .inl
      · rintro (inside | last)
        · exact inside
        · exact absurd (Prod.mk.inj (List.mem_singleton.mp last)).1 same
  · intro other prom inside
    unfold State.aloft at inside
    rw [aloft] at inside
    cases List.mem_append.mp inside with
    | inl before => exact flying.apart other prom before
    | inr last =>
      rw [(Prod.mk.inj (List.mem_singleton.mp last)).1]
      exact absent
  · unfold State.aloft
    rw [aloft, List.map_append, List.range_succ, List.append_assoc]
    have moved : ((state.aloft.map (·.2)) ++ ([state.promises] ++ state.outcomes.map (·.1))).Perm
        ((state.aloft.map (·.2) ++ state.outcomes.map (·.1)) ++ [state.promises]) := by
      rw [List.append_assoc]
      exact (List.perm_append_comm).append_left _
    exact moved.trans (flying.promises.append_right _)

/-- What the end of a flight changes. -/
theorem land_eq {run : Run ε α} {prom : Nat} (own : run.prom = some prom) (index : Nat)
    (outcome : Except ε (List α)) :
    state.land capacity index run outcome =
      { state.leave index run.query outcome with
        lru := ((state.leave index run.query outcome).store capacity run.query outcome).lru
        entries :=
          ((state.leave index run.query outcome).store capacity run.query outcome).entries
        fresh := ((state.leave index run.query outcome).store capacity run.query outcome).fresh
        outcomes := state.outcomes ++ [(prom, run.query, outcome)]
        flights := state.flights.erase run.query } := by
  simp only [State.land, own]
  rw [store_eq]

/-- The flight that ends, and the others. -/
theorem aloft_land (capacity : Nat) {index : Nat} {run : Run ε α} {prom : Nat}
    (found : state.running[index]? = some run) (own : run.prom = some prom)
    (outcome : Except ε (List α)) :
    state.aloft.Perm ((run.query, prom) :: (state.land capacity index run outcome).aloft) := by
  have split := aloft_eraseIdx found
  rw [show run.flight = some (run.query, prom) by rw [Run.flight, own]; rfl] at split
  rw [land_eq own]
  exact split

/-- The other flights stay when one ends. -/
theorem Flying.land (flying : Flying capacity state) {index : Nat} {run : Run ε α} {prom : Nat}
    (found : state.running[index]? = some run) (own : run.prom = some prom)
    (outcome : Except ε (List α)) : Flying capacity (state.land capacity index run outcome) := by
  have aloft := aloft_land capacity found own outcome
  have once := (aloft.map (·.1)).nodup_iff.mp flying.once
  have gone : ∀ other, (run.query, other) ∉ (state.land capacity index run outcome).aloft :=
    fun other inside => (List.nodup_cons.mp once).1 (List.mem_map.mpr ⟨_, inside, rfl⟩)
  have kept : ∀ other ∈ (state.land capacity index run outcome).running,
      other ∈ state.running := by
    intro other inside
    rw [land_eq own] at inside
    exact List.mem_of_mem_eraseIdx inside
  refine ⟨?_, ?_, (List.nodup_cons.mp once).2, ?_, ?_, ?_⟩
  · exact fun other inside => flying.named other (kept other inside)
  · exact fun other inside => flying.grounded other (kept other inside)
  · intro query other
    rw [show (state.land capacity index run outcome).flights = state.flights.erase run.query by
      rw [land_eq own]]
    by_cases same : query = run.query
    · rw [same, AList.lookup_erase]
      exact iff_of_false (by simp) (gone other)
    · rw [AList.lookup_erase_ne same, flying.flights, aloft.mem_iff, List.mem_cons]
      exact or_iff_right fun equal => same (Prod.mk.inj equal).1
  · intro query other inside there
    rw [land_eq own] at there
    cases mem_store there with
    | inl same => exact gone other (same ▸ inside)
    | inr before =>
      exact flying.apart query other (aloft.mem_iff.mpr (List.mem_cons_of_mem _ inside)) before
  · have before := ((aloft.map (·.2)).append_right _).symm.trans flying.promises
    have outcomes : (state.land capacity index run outcome).outcomes =
        state.outcomes ++ [(prom, run.query, outcome)] := by
      rw [land_eq own]
    have promises : (state.land capacity index run outcome).promises = state.promises := by
      rw [land_eq own]
      rfl
    rw [outcomes, promises, List.map_append, ← List.append_assoc]
    exact (List.perm_append_singleton _ _).trans before

/-- A caller without a flight returns. -/
theorem Flying.leave (flying : Flying capacity state) {index : Nat} {run : Run ε α}
    (found : state.running[index]? = some run) (own : run.prom = none)
    (outcome : Except ε (List α)) : Flying capacity (state.leave index run.query outcome) := by
  have split := aloft_eraseIdx found
  rw [show run.flight = none by rw [Run.flight, own]; rfl] at split
  exact flying.same (fun other inside => flying.named other (List.mem_of_mem_eraseIdx inside))
    (fun other inside => flying.grounded other (List.mem_of_mem_eraseIdx inside))
    split.symm rfl rfl rfl rfl

/-! ## What callers and the cache get -/

/-- What waits, what is cached and what was received comes from the outcomes of flights. -/
structure Told (state : State ε α) : Prop where
  /-- A caller waits for a flight of its query. -/
  waiting : ∀ query prom, (query, prom) ∈ state.waiting →
    (query, prom) ∈ state.aloft ∨ ∃ outcome, (prom, query, outcome) ∈ state.outcomes
  /-- What is cached was computed for its query. -/
  cached : ∀ item ∈ state.lru,
    item.vec ≠ [] ∧ ∃ prom, (prom, item.query, .ok item.vec) ∈ state.outcomes
  /-- A caller gets the outcome of the flight that it has joined. -/
  received : ∀ query prom outcome, (query, prom, outcome) ∈ state.received →
    (prom, query, outcome) ∈ state.outcomes

/-- A change that ends no flight and caches nothing. -/
theorem Told.same (told : Told state) (waiting : next.waiting ⊆ state.waiting)
    (aloft : state.aloft ⊆ next.aloft) (lru : next.lru ⊆ state.lru)
    (outcomes : next.outcomes = state.outcomes) (received : next.received = state.received) :
    Told next where
  waiting query prom inside := by
    rw [outcomes]
    exact (told.waiting query prom (waiting inside)).imp_left fun flown => aloft flown
  cached item inside := by
    rw [outcomes]
    exact told.cached item (lru inside)
  received query prom outcome inside := by
    rw [received] at inside
    rw [outcomes]
    exact told.received query prom outcome inside

/-- What holds of a cache with its callers. -/
structure Sound (capacity : Nat) (state : State ε α) : Prop where
  /-- The list and the entries. -/
  linked : Linked capacity state
  /-- The flights. -/
  flying : Flying capacity state
  /-- What callers and the cache get. -/
  told : Told state

/-- A promise has one outcome. -/
theorem Flying.outcome_unique (flying : Flying capacity state) {prom : Nat}
    {one two : String × Except ε (List α)} (first : (prom, one) ∈ state.outcomes)
    (second : (prom, two) ∈ state.outcomes) : one = two := by
  have distinct := flying.promises.nodup_iff.mpr List.nodup_range
  have once := (List.nodup_append.mp distinct).2.1
  exact (Prod.mk.inj (List.inj_on_of_nodup_map once first second rfl)).2

/-- A promise of a flight has no outcome yet. -/
theorem Flying.pending (flying : Flying capacity state) {query : String} {prom : Nat}
    (flown : (query, prom) ∈ state.aloft) (outcome : String × Except ε (List α)) :
    (prom, outcome) ∉ state.outcomes := by
  intro given
  have distinct := flying.promises.nodup_iff.mpr List.nodup_range
  exact (List.nodup_append.mp distinct).2.2 prom (List.mem_map.mpr ⟨_, flown, rfl⟩) prom
    (List.mem_map.mpr ⟨_, given, rfl⟩) rfl

/-- An empty cache is sound. -/
theorem sound_initial : Sound capacity (State.initial : State ε α) where
  linked := ⟨.nil, nofun, .nil, fun _ => iff_of_false (AList.notMem_empty _) nofun, nofun,
    Nat.zero_le _⟩
  flying := ⟨nofun, nofun, .nil, fun _ _ => iff_of_false (by simp [State.initial]) nofun, nofun,
    .refl _⟩
  told := ⟨nofun, nofun, nofun⟩

/-- A hit, a caller that joins a flight and one that starts one. -/
theorem Sound.look (sound : Sound capacity state) {query : String} (filled : query ≠ "") :
    Sound capacity (state.look query) := by
  obtain ⟨linked, flying, told⟩ := sound
  unfold State.look
  split
  · split
    · rename_i item found
      have moved := (perm_find found).symm
      exact ⟨linked.perm moved rfl rfl,
        flying.same flying.named flying.grounded (.refl _) rfl rfl rfl rfl,
        told.same (List.Subset.refl _) (List.Subset.refl _) moved.subset rfl rfl⟩
    · exact ⟨linked, flying, told⟩
  · rename_i absent
    split
    · rename_i prom joined
      refine ⟨linked.perm (.refl _) rfl rfl,
        flying.same flying.named flying.grounded (.refl _) rfl rfl rfl rfl, ?_, told.cached,
        told.received⟩
      intro other awaited inside
      cases List.mem_append.mp inside with
      | inl before => exact told.waiting other awaited before
      | inr last =>
        obtain ⟨rfl, rfl⟩ := Prod.mk.inj (List.mem_singleton.mp last)
        exact .inl ((flying.flights _ _).mp joined)
    · rename_i free
      refine ⟨linked.perm (.refl _) rfl rfl,
        flying.start filled (AList.lookup_eq_none.mp absent) free _, ?_⟩
      refine told.same (List.Subset.refl _) ?_ (List.Subset.refl _) rfl rfl
      unfold State.aloft
      rw [aloft_append]
      exact List.subset_append_left _ _

/-- A caller asks for a query. -/
theorem Sound.get (sound : Sound capacity state) (query : String) :
    Sound capacity (state.get capacity query) := by
  unfold State.get
  split
  · obtain ⟨linked, flying, told⟩ := sound
    exact ⟨linked.perm (.refl _) rfl rfl,
      flying.same flying.named flying.grounded (.refl _) rfl rfl rfl rfl,
      told.same (List.Subset.refl _) (List.Subset.refl _) (List.Subset.refl _) rfl rfl⟩
  · rename_i filled
    split
    · rename_i empty
      obtain ⟨linked, flying, told⟩ := sound
      have aloft : ((state.running ++ [({ query, prom := none, outcome := none } : Run ε α)]).map
          Run.flight).reduceOption = state.aloft := by
        rw [aloft_append]
        exact List.append_nil _
      refine ⟨linked.perm (.refl _) rfl rfl,
        flying.same ?_ (fun _ _ _ => empty) (.of_eq aloft) rfl rfl rfl rfl,
        told.same (List.Subset.refl _) ?_ (List.Subset.refl _) rfl rfl⟩
      · intro run inside
        cases List.mem_append.mp inside with
        | inl before => exact flying.named run before
        | inr last =>
          rw [List.mem_singleton.mp last]
          exact filled
      · show state.aloft ⊆ ((state.running ++ _).map Run.flight).reduceOption
        rw [aloft]
        exact List.Subset.refl _
    · exact sound.look filled

/-- A computation ends. -/
theorem Sound.compute (sound : Sound capacity state) {index : Nat} {query : String}
    {prom : Option Nat}
    (found : state.running[index]? = some { query, prom, outcome := none })
    (outcome : Option (Except ε (List α))) :
    Sound capacity
      { state with running := state.running.set index { query, prom, outcome } } := by
  obtain ⟨linked, flying, told⟩ := sound
  have aloft : (state.running.set index { query, prom, outcome }).map Run.flight =
      state.running.map Run.flight := by
    obtain ⟨inside, same⟩ := List.getElem?_eq_some_iff.mp found
    have bound : index < (state.running.map Run.flight).length := by simpa using inside
    have own : (state.running.map Run.flight)[index] = Run.flight { query, prom, outcome } := by
      rw [List.getElem_map, same]
      rfl
    rw [List.map_set, ← own, List.set_getElem_self]
  have aloft' : State.aloft { state with
      running := state.running.set index { query, prom, outcome } } = state.aloft :=
    congrArg List.reduceOption aloft
  have there := List.mem_of_getElem? found
  refine ⟨linked.perm (.refl _) rfl rfl,
    flying.same ?_ ?_ (.of_eq aloft') rfl rfl rfl rfl,
    told.same (List.Subset.refl _) (aloft' ▸ List.Subset.refl _) (List.Subset.refl _) rfl rfl⟩
  · intro run inside
    cases List.mem_or_eq_of_mem_set inside with
    | inl before => exact flying.named run before
    | inr equal =>
      rw [equal]
      exact flying.named { query, prom, outcome := none } there
  · intro run inside alone
    cases List.mem_or_eq_of_mem_set inside with
    | inl before => exact flying.grounded run before alone
    | inr equal =>
      rw [equal] at alone
      exact flying.grounded { query, prom, outcome := none } there alone

/-- What a flight has computed is told to the callers that wait for it. -/
theorem Told.land (told : Told state) {index : Nat} {run : Run ε α} {prom : Nat}
    (found : state.running[index]? = some run) (own : run.prom = some prom)
    (outcome : Except ε (List α)) : Told (state.land capacity index run outcome) := by
  have aloft := aloft_land capacity found own outcome
  have outcomes : (state.land capacity index run outcome).outcomes =
      state.outcomes ++ [(prom, run.query, outcome)] := by
    rw [land_eq own]
  have earlier : state.outcomes ⊆ (state.land capacity index run outcome).outcomes := by
    rw [outcomes]
    exact List.subset_append_left _ _
  have last : (prom, run.query, outcome) ∈ (state.land capacity index run outcome).outcomes := by
    rw [outcomes]
    exact List.mem_append_right _ List.mem_cons_self
  refine ⟨?_, ?_, ?_⟩
  · intro query awaited inside
    rw [land_eq own] at inside
    cases told.waiting query awaited inside with
    | inl flown =>
      cases List.mem_cons.mp (aloft.mem_iff.mp flown) with
      | inl equal =>
        obtain ⟨rfl, rfl⟩ := Prod.mk.inj equal
        exact .inr ⟨outcome, last⟩
      | inr other => exact .inl other
    | inr given =>
      obtain ⟨given, inside⟩ := given
      exact .inr ⟨given, earlier inside⟩
  · intro item inside
    rw [land_eq own] at inside
    cases mem_store_lru inside with
    | inl before =>
      obtain ⟨filled, source, computed⟩ := told.cached item before
      exact ⟨filled, source, earlier computed⟩
    | inr stored =>
      obtain ⟨same, filled, computed⟩ := stored
      refine ⟨filled, prom, ?_⟩
      rw [same, ← computed]
      exact last
  · intro query awaited given inside
    rw [land_eq own] at inside
    exact earlier (told.received query awaited given inside)

/-- A caller takes the lock with what it has computed. -/
theorem Sound.land (sound : Sound capacity state) {index : Nat} {run : Run ε α}
    (found : state.running[index]? = some run) (outcome : Except ε (List α)) :
    Sound capacity (state.land capacity index run outcome) := by
  obtain ⟨linked, flying, told⟩ := sound
  cases own : run.prom with
  | none =>
    have split := aloft_eraseIdx found
    rw [show run.flight = none by rw [Run.flight, own]; rfl] at split
    simp only [State.land, own]
    exact ⟨linked.perm (.refl _) rfl rfl, flying.leave found own outcome,
      told.same (List.Subset.refl _) split.subset (List.Subset.refl _) rfl rfl⟩
  | some prom =>
    refine ⟨?_, flying.land found own outcome, told.land found own outcome⟩
    have flown : (run.query, prom) ∈ state.aloft :=
      (aloft_land capacity found own outcome).mem_iff.mpr List.mem_cons_self
    have left : Linked capacity (state.leave index run.query outcome) :=
      linked.perm (.refl _) rfl rfl
    have stored := left.store (flying.apart run.query prom flown) outcome
    simp only [State.land, own]
    exact stored.perm (.refl _) rfl rfl

/-- A caller that has joined a flight gets its outcome. -/
theorem Sound.receive (sound : Sound capacity state) {index : Nat} {query : String} {prom : Nat}
    (found : state.waiting[index]? = some (query, prom)) {computed : String}
    {outcome : Except ε (List α)}
    (given : state.outcomes.lookup prom = some (computed, outcome)) :
    Sound capacity
      { state with
        waiting := state.waiting.eraseIdx index
        received := state.received ++ [(query, prom, outcome)] } := by
  obtain ⟨linked, flying, told⟩ := sound
  have there : (prom, computed, outcome) ∈ state.outcomes := by
    obtain ⟨before, after, split, _⟩ := List.lookup_eq_some_iff.mp given
    rw [split]
    exact List.mem_append_right _ List.mem_cons_self
  have own : (prom, query, outcome) ∈ state.outcomes := by
    cases told.waiting query prom (List.mem_of_getElem? found) with
    | inl flown => exact absurd there (flying.pending flown _)
    | inr landed =>
      obtain ⟨other, inside⟩ := landed
      rw [(Prod.mk.inj (flying.outcome_unique there inside)).1] at there
      exact there
  refine ⟨linked.perm (.refl _) rfl rfl,
    flying.same flying.named flying.grounded (.refl _) rfl rfl rfl rfl, ?_, told.cached, ?_⟩
  · exact fun other awaited inside =>
      told.waiting other awaited (List.mem_of_mem_eraseIdx inside)
  · intro other awaited result inside
    cases List.mem_append.mp inside with
    | inl before => exact told.received other awaited result before
    | inr last =>
      rw [List.mem_singleton] at last
      obtain ⟨rfl, rfl, rfl⟩ := last
      exact own

/-- A step keeps what holds of a cache. -/
theorem Sound.step (sound : Sound capacity state) {action : Action ε α}
    (taken : (machine ε α capacity).step state action = some next) : Sound capacity next := by
  cases action with
  | get query =>
    rw [← Option.some.inj taken]
    exact sound.get query
  | compute index outcome =>
    simp only [machine] at taken
    split at taken
    · rename_i found
      rw [← Option.some.inj taken]
      exact sound.compute found _
    · contradiction
  | land index =>
    simp only [machine] at taken
    split at taken
    · rename_i found
      split at taken
      · rw [← Option.some.inj taken]
        exact sound.land found _
      · contradiction
    · contradiction
  | receive index =>
    simp only [machine] at taken
    split at taken
    · contradiction
    · rename_i found
      split at taken
      · contradiction
      · rename_i given
        rw [← Option.some.inj taken]
        exact sound.receive found given

/-- What holds of a cache holds in every run. -/
theorem Sound.of_reached (reached : (machine ε α capacity).Reachable state) :
    Sound capacity state :=
  reached.invariant sound_initial fun _ _ _ sound _ taken => sound.step taken

/-! ## The next computation -/

/-- A query with neither an entry nor a flight. -/
def Missing (query : String) (state : State ε α) : Prop :=
  query ∉ state.entries ∧ state.flights.lookup query = none

/-- The next caller computes a query that is missing. -/
theorem Missing.get (capacity : Nat) {query : String} (missing : Missing query state)
    (filled : query ≠ "") :
    ∃ prom, (state.get capacity query).running =
      state.running ++ [{ query, prom, outcome := none }] := by
  have absent := AList.lookup_eq_none.mpr missing.1
  unfold State.get
  rw [if_neg filled]
  split
  · exact ⟨none, rfl⟩
  · refine ⟨some state.promises, ?_⟩
    simp only [State.look, absent, missing.2]

/-- A query stays missing when another one is asked for. -/
theorem Missing.get_other {query other : String} (missing : Missing query state)
    (apart : other ≠ query) : Missing query (state.get capacity other) := by
  unfold State.get
  split
  · exact missing
  · split
    · exact missing
    · unfold State.look
      split
      · split
        · exact missing
        · exact missing
      · split
        · exact missing
        · exact ⟨missing.1, (AList.lookup_insert_ne apart.symm).trans missing.2⟩

/-- A query that has no flight stays missing when one ends. -/
theorem Missing.land {query : String} (missing : Missing query state)
    (flying : Flying capacity state) {index : Nat} {run : Run ε α}
    (found : state.running[index]? = some run) (outcome : Except ε (List α)) :
    Missing query (state.land capacity index run outcome) := by
  cases own : run.prom with
  | none =>
    simp only [State.land, own]
    exact missing
  | some prom =>
    have flown : (run.query, prom) ∈ state.aloft :=
      (aloft_land capacity found own outcome).mem_iff.mpr List.mem_cons_self
    have apart : query ≠ run.query := by
      rintro rfl
      have free := missing.2
      rw [(flying.flights _ _).mpr flown] at free
      contradiction
    rw [land_eq own]
    refine ⟨fun there => ?_, (AList.lookup_erase_ne apart).trans missing.2⟩
    cases mem_store there with
    | inl same => exact apart same
    | inr before => exact missing.1 before

/-- A query whose flight has failed is missing. -/
theorem Flying.land_failed (flying : Flying capacity state) {index : Nat} {run : Run ε α}
    {prom : Nat} (found : state.running[index]? = some run) (own : run.prom = some prom)
    {outcome : Except ε (List α)} (failed : ∀ vec, outcome = .ok vec → vec = []) :
    Missing run.query (state.land capacity index run outcome) := by
  have flown : (run.query, prom) ∈ state.aloft :=
    (aloft_land capacity found own outcome).mem_iff.mpr List.mem_cons_self
  rw [land_eq own, store_failed _ _ failed]
  exact ⟨flying.apart _ _ flown, AList.lookup_erase _ _⟩

/-- A query stays missing until it is asked for. -/
theorem Missing.step {query : String} (missing : Missing query state)
    (sound : Sound capacity state) {action : Action ε α} (other : action ≠ .get query)
    (taken : (machine ε α capacity).step state action = some next) : Missing query next := by
  cases action with
  | get asked =>
    rw [← Option.some.inj taken]
    exact missing.get_other fun same => other (same ▸ rfl)
  | compute index outcome =>
    simp only [machine] at taken
    split at taken
    · rw [← Option.some.inj taken]
      exact missing
    · contradiction
  | land index =>
    simp only [machine] at taken
    split at taken
    · rename_i found
      split at taken
      · rw [← Option.some.inj taken]
        exact missing.land sound.flying found _
      · contradiction
    · contradiction
  | receive index =>
    simp only [machine] at taken
    split at taken
    · contradiction
    · split at taken
      · contradiction
      · rw [← Option.some.inj taken]
        exact missing

/-- Until a missing query is asked for, it stays missing. -/
theorem Missing.leads {query : String} {later : State ε α} (missing : Missing query state)
    (sound : Sound capacity state)
    (led : (machine ε α capacity).Leads (fun _ action => action ≠ .get query) state later) :
    Missing query later := by
  have both : Sound capacity later ∧ Missing query later := by
    induction led with
    | refl => exact ⟨sound, missing⟩
    | step action _ permitted taken ih =>
      exact ⟨ih.1.step taken, ih.2.step ih.1 permitted taken⟩
  exact both.2

/-! ## Single flight -/

/-- What callers rely on. -/
structure SingleFlight (capacity : Nat) (state : State ε α) : Prop where
  /-- At most one caller computes a query. -/
  once : 0 < capacity → (state.running.map (·.query)).Nodup
  /-- Without capacity every caller computes. -/
  uncached : capacity = 0 → ∀ query, query ≠ "" → ∃ next,
    (machine ε α capacity).step state (.get query) = some next ∧
      next.running = state.running ++ [{ query, prom := none, outcome := none }]
  /-- The entries and the list have the same queries. -/
  keys : ∀ query, query ∈ state.entries ↔ query ∈ state.lru.map (·.query)
  /-- A query has one node. -/
  nodes : (state.lru.map (·.query)).Nodup
  /-- An entry refers to the node of its query. -/
  own : ∀ query node, state.entries.lookup query = some node →
    ∃ item ∈ state.lru, item.node = node ∧ item.query = query
  /-- There are at most as many nodes and entries as the capacity. -/
  few : state.lru.length ≤ capacity ∧ state.entries.entries.length ≤ capacity
  /-- What is cached is not empty and was computed for its query. -/
  cached : ∀ item ∈ state.lru,
    item.vec ≠ [] ∧ ∃ prom, (prom, item.query, .ok item.vec) ∈ state.outcomes
  /-- The flight that a caller waits for is under way or has an outcome. -/
  waiting : ∀ query prom, (query, prom) ∈ state.waiting →
    (query, prom) ∈ state.aloft ∨ ∃ outcome, (prom, query, outcome) ∈ state.outcomes
  /-- A flight has one outcome, and a caller gets that of the flight that it has joined. -/
  received : (state.outcomes.map (·.1)).Nodup ∧
    ∀ query prom outcome, (query, prom, outcome) ∈ state.received →
      (prom, query, outcome) ∈ state.outcomes
  /-- After a failure or an empty vector the next caller computes. -/
  retried : ∀ index run outcome landed later, state.running[index]? = some run →
    run.outcome = some outcome → (∀ vec, outcome = .ok vec → vec = []) →
    (machine ε α capacity).step state (.land index) = some landed →
    (machine ε α capacity).Leads (fun _ action => action ≠ .get run.query) landed later →
    ∃ prom next, (machine ε α capacity).step later (.get run.query) = some next ∧
      next.running = later.running ++ [{ query := run.query, prom, outcome := none }]

/-- With capacity, the queries of the callers that compute are those of the flights. -/
theorem Flying.queries (flying : Flying capacity state) (positive : 0 < capacity) :
    state.running.map (·.query) = state.aloft.map (·.1) := by
  have all : ∀ running : List (Run ε α), (∀ run ∈ running, run.prom ≠ none) →
      running.map (·.query) = ((running.map Run.flight).reduceOption).map (·.1) := by
    intro running flown
    induction running with
    | nil => rfl
    | cons run rest ih =>
      obtain ⟨prom, own⟩ := Option.ne_none_iff_exists'.mp (flown run List.mem_cons_self)
      have flight : run.flight = some (run.query, prom) := by rw [Run.flight, own]; rfl
      rw [List.map_cons, List.map_cons, flight, List.reduceOption_cons_of_some, List.map_cons,
        ih fun other inside => flown other (List.mem_cons_of_mem _ inside)]
  refine all state.running fun run inside alone => ?_
  have none_left := flying.grounded run inside alone
  omega

/-- In every run of a cache a query has at most one flight and one node, and callers get what was
computed for their query. -/
theorem single_flight (reached : (machine ε α capacity).Reachable state) :
    SingleFlight capacity state := by
  have sound := Sound.of_reached reached
  have linked := sound.linked
  have flying := sound.flying
  refine ⟨?_, ?_, linked.keys, linked.once, linked.own, ⟨linked.few, ?_⟩, sound.told.cached,
    sound.told.waiting, ⟨?_, sound.told.received⟩, ?_⟩
  · intro positive
    rw [flying.queries positive]
    exact flying.once
  · intro empty query filled
    refine ⟨_, rfl, ?_⟩
    rw [State.get, if_neg filled, if_pos empty]
  · rw [linked.size_eq]
    exact linked.few
  · have distinct := flying.promises.nodup_iff.mpr List.nodup_range
    exact (List.nodup_append.mp distinct).2.1
  · intro index run outcome landed later found computed failed taken led
    have filled := flying.named run (List.mem_of_getElem? found)
    simp only [machine, found, computed, Option.some.injEq] at taken
    cases own : run.prom with
    | none =>
      -- Without a flight there is no capacity, and every caller computes.
      have empty := flying.grounded run (List.mem_of_getElem? found) own
      refine ⟨none, _, rfl, ?_⟩
      rw [State.get, if_neg filled, if_pos empty]
    | some prom =>
      have missing : Missing run.query landed := by
        rw [← taken]
        exact flying.land_failed found own failed
      have landed_sound : Sound capacity landed := by
        rw [← taken]
        exact sound.land found outcome
      obtain ⟨flight, running⟩ := (missing.leads landed_sound led).get capacity filled
      exact ⟨flight, _, rfl, running⟩

/-! ## A failure and a retry -/

/-- A caller computes a query in vain for two callers, and then another caller computes it. -/
def retry : List (Action String Nat) :=
  [.get "a", .get "a", .compute 0 (.error "down"), .land 0, .receive 0, .get "a",
    .compute 0 (.ok [1]), .land 0]

/-- The query is cached in the end. -/
theorem single_flight_retry : ∃ state : State String Nat,
    (machine String Nat 1).run State.initial retry = some state ∧
      state.lru.map (fun item => (item.query, item.vec)) = [("a", [1])] ∧
      state.received.length = 1 ∧ SingleFlight 1 state := by
  refine ⟨_, rfl, rfl, rfl, single_flight ?_⟩
  exact Machine.Reaches.of_run retry .initial rfl

/-- Without capacity two callers compute one query. -/
theorem single_flight_refuted : ∃ state : State String Nat,
    (machine String Nat 0).Reachable state ∧
      state.running.map (fun run => (run.query, run.outcome.isNone)) =
        [("a", true), ("a", true)] ∧
      ¬ (state.running.map (·.query)).Nodup := by
  refine ⟨_, .of_run [.get "a", .get "a"] .initial rfl, rfl, ?_⟩
  decide

end Chitta.QueryCache
