import Mathlib.Data.List.Basic
import Chitta.EndpointRouter.Leases
import Chitta.TokenBucket

/-!
# The token budget of an endpoint

The tokens of an endpoint are a bucket: they are counted when the router looks at the endpoint, a
lease takes its reservation from them while they are not negative, and its end gives back what was
reserved and not used. Doubles are without rounding here.
-/
namespace Chitta.EndpointRouter

open TokenBucket

/-- A reading of the clock in seconds. -/
def seconds (now : Int) : Rat := (now : Rat) / (second : Rat)

/-- The tokens of an entry. -/
def EndpointState.bucket (s : EndpointState Rat) : Bucket Rat := ⟨s.tokens, seconds s.budgetAt⟩

variable (settings : Settings) (url : String)

/-- What a step takes from the budget of an endpoint or gives back to it. -/
def usesOf (router next : Router Rat) : Action Rat → List (Use Rat)
  | .proceed _ clock _ _ =>
    ((next.leases.drop router.leases.length).filter (·.url = url)).map fun lease =>
      ⟨seconds (clock url 0), (lease.reserved : Rat)⟩
  | .release index used now =>
    match router.leases[index]? with
    | some lease =>
      -- The destructor of a lease gives back the endpoint that it has.
      if lease.url = url ∧ lease.url ≠ "" then
        [⟨seconds now, -((lease.reserved : Rat) - (used : Rat))⟩]
      else []
    | none => []
  | _ => []

/-- A router with what was taken from the budget of an endpoint and given back to it. -/
def metered : Machine (Router Rat × List (Use Rat)) (Action Rat) where
  initial := (.initial, [])
  step state action :=
    ((machine settings).step state.1 action).map fun next =>
      (next, state.2 ++ usesOf url state.1 next action)

/-- The values of an action are those of an endpoint with a limit: no reservation is negative, what
was used is not negative and not above the reservation, and a round finds the endpoint with its
limit. -/
def Sound (tps : Int) (router : Router Rat) : Action Rat → Prop
  | .acquire request => 0 ≤ request.tokens
  | .release index used _ =>
    ∀ lease ∈ router.leases[index]?, lease.url = url → 0 ≤ used ∧ used ≤ lease.reserved
  | .endRound found _ _ =>
    ∀ round ∈ router.round, ∀ ep ∈ endpoints (declaredEndpoints found) round.pinned,
      ep.url = url → budget settings ep = tps
  | _ => True

/-- A step of a run in which an endpoint stays declared with a limit: its entry is not erased, and
the clock at which its tokens are counted does not go back. -/
structure Steady (tps : Int) (router : Router Rat) (action : Action Rat) : Prop where
  /-- The entry stays, and the clock does not go back. -/
  kept : ∀ next ∈ (machine settings).step router action,
    ∀ s ∈ Assoc.lookup url router.states,
      ∃ t ∈ Assoc.lookup url next.states, s.budgetAt ≤ t.budgetAt
  /-- The values of the action. -/
  sound : Sound settings url tps router action

variable {settings url} {tps : Int}

/-! ## Counting tokens -/

/-- The smaller one of two numbers. -/
theorem smaller_eq_min (left right : Rat) : smaller left right = min left right := by
  unfold smaller
  split
  · rename_i below
    exact (min_eq_right (le_of_lt below)).symm
  · rename_i above
    exact (min_eq_left (not_lt.mp above)).symm

/-- Counting the tokens of an entry counts those of its bucket. -/
theorem bucket_refill (positive : 0 < tps) {s : EndpointState Rat}
    (limit : budget settings s.ep = tps) (now : Int) :
    (refill settings now s).bucket = s.bucket.fill (tps : Rat) (tps : Rat) (seconds now) := by
  have some : budget settings s.ep ≠ 0 := by omega
  have elapsed : ((now - s.budgetAt : Int) : Rat) / (second : Rat) =
      seconds now - seconds s.budgetAt := by
    unfold seconds
    push_cast
    ring
  unfold EndpointState.bucket Bucket.fill refill
  rw [if_pos some, limit]
  show Bucket.mk (smaller (tps : Rat)
    (s.tokens + ((now - s.budgetAt : Int) : Rat) / (second : Rat) * (tps : Rat))) (seconds now) = _
  rw [smaller_eq_min, elapsed]

/-- Seconds grow with the readings of the clock. -/
theorem seconds_le {first last : Int} (later : first ≤ last) : seconds first ≤ seconds last := by
  have positive : (0 : Rat) ≤ (second : Rat) := by
    norm_num [second]
  exact div_le_div_of_nonneg_right (Int.cast_le.mpr later) positive

/-! ## Entries -/

section

variable {D : Type} {states : States D}

/-- Every entry is under its address. -/
structure Addressed (states : States D) : Prop where
  /-- An address has one entry. -/
  sorted : Assoc.Sorted states
  /-- It is that of the endpoint. -/
  own : ∀ key s, Assoc.lookup key states = some s → s.ep.url = key

/-- An entry is assigned to its address. -/
theorem Addressed.assign (addressed : Addressed states) {key : String} {s : EndpointState D}
    (own : s.ep.url = key) : Addressed (Assoc.assign key s states) where
  sorted := addressed.sorted.assign key s
  own other t found := by
    by_cases same : other = key
    · rw [same, Assoc.lookup_assign_self, Option.some.injEq] at found
      rw [same, ← found]
      exact own
    · rw [Assoc.lookup_assign_other same] at found
      exact addressed.own other t found

/-- An entry that is there after pruning was there before. -/
theorem Addressed.lookup_prune (addressed : Addressed states) {present : List String} {key : String}
    {s : EndpointState D} (found : Assoc.lookup key (prune present states) = some s) :
    Assoc.lookup key states = some s := by
  have sorted : Assoc.Sorted (EndpointRouter.prune present states) :=
    List.Pairwise.filter _ addressed.sorted
  have inside := sorted.mem_iff.mpr found
  exact addressed.sorted.mem_iff.mp (List.mem_filter.mp inside).1

/-- Some entries go. -/
theorem Addressed.prune (addressed : Addressed states) (present : List String) :
    Addressed (prune present states) where
  sorted := List.Pairwise.filter _ addressed.sorted
  own key s found := addressed.own key s (addressed.lookup_prune found)

/-- Endpoints with one name have one budget. -/
theorem budget_congr {ep other : LlmEndpoint D} (label : ep.label = other.label)
    (alwaysOn : ep.alwaysOn = other.alwaysOn) : budget settings ep = budget settings other := by
  rw [budget, budget, label, alwaysOn]

variable [Double D]

/-- The entries after the tokens are counted. -/
theorem lookup_refillAll (clock : Clock) (key : String) (states : States D) :
    Assoc.lookup key (refillAll settings clock states) =
      (Assoc.lookup key states).map (refill settings (clock key 0)) :=
  Assoc.lookup_map (fun key s => refill settings (clock key 0) s) key states

/-- The tokens of all entries are counted. -/
theorem Addressed.refillAll (addressed : Addressed states) (clock : Clock) :
    Addressed (refillAll settings clock states) where
  sorted := addressed.sorted.map fun key s => refill settings (clock key 0) s
  own key s found := by
    rw [lookup_refillAll, Option.map_eq_some_iff] at found
    have own := addressed.own key
    cases found with
    | intro t there =>
      rw [← there.2]
      exact own t there.1

/-- A measurement counts no tokens. -/
theorem judge_tokens (load : EndpointLoad D) (s : EndpointState D) :
    (judge load s).tokens = s.tokens ∧ (judge load s).budgetAt = s.budgetAt := by
  have smoothed : (smooth load s).tokens = s.tokens ∧ (smooth load s).budgetAt = s.budgetAt := by
    unfold smooth
    split <;> exact ⟨rfl, rfl⟩
  unfold judge
  split
  · exact ⟨rfl, rfl⟩
  · split
    · exact ⟨rfl, rfl⟩
    · unfold measured
      split
      · exact smoothed
      · unfold idle
        split <;> exact smoothed

/-- Neither does avoiding an endpoint. -/
theorem backOff_tokens {D : Type} (now : Int) (s : EndpointState D) :
    (backOff settings now s).tokens = s.tokens ∧
      (backOff settings now s).budgetAt = s.budgetAt := by
  unfold backOff
  split <;> exact ⟨rfl, rfl⟩

/-- A measured entry has the address, the budget and the tokens that it had. -/
theorem measured_tokens (load : EndpointLoad D) (now : Int) (told : EndpointState D) :
    (backOff settings now (judge load told)).ep.url = told.ep.url ∧
      budget settings (backOff settings now (judge load told)).ep = budget settings told.ep ∧
      (backOff settings now (judge load told)).tokens = told.tokens ∧
      (backOff settings now (judge load told)).budgetAt = told.budgetAt := by
  have avoided := @backOff_kept D settings now (judge load told)
  have judged := judge_kept load told
  have tokens := judge_tokens load told
  have left := @backOff_tokens settings D now (judge load told)
  exact ⟨avoided.url.trans judged.url,
    budget_congr (avoided.label.trans judged.label) (avoided.alwaysOn.trans judged.alwaysOn),
    left.1.trans tokens.1, left.2.trans tokens.2⟩

/-- What is learned of an endpoint goes to the entry of its address: a new one has all its tokens,
and an old one keeps them. -/
theorem mergeResult_tokens (round : Round D) (clock : Clock) (states : States D)
    (result : LlmEndpoint D × EndpointLoad D) :
    ∃ s, mergeResult settings round clock states result = Assoc.assign result.1.url s states ∧
      s.ep.url = result.1.url ∧ budget settings s.ep = budget settings result.1 ∧
      match Assoc.lookup result.1.url states with
      | none => s.tokens = (budget settings result.1 : D)
      | some t => s.tokens = t.tokens ∧ s.budgetAt = t.budgetAt := by
  refine ⟨_, rfl, ?_⟩
  dsimp only
  have measured := fun told => @measured_tokens settings D _ result.2 (clock result.1.url 1) told
  cases Assoc.lookup result.1.url states with
  | none => exact ⟨(measured _).1, (measured _).2.1, (measured _).2.2.1⟩
  | some t => exact ⟨(measured _).1, (measured _).2.1, (measured _).2.2⟩

end

/-! ## The bucket of an endpoint -/

/-- The tokens of an endpoint are a bucket with its limit and its uses. -/
structure Funded (settings : Settings) (url : String) (tps : Int) (states : States Rat)
    (uses : List (Use Rat)) : Prop where
  /-- The limit. -/
  limit : ∀ s, Assoc.lookup url states = some s → budget settings s.ep = tps
  /-- The bucket. -/
  runs : ∀ s, Assoc.lookup url states = some s → Runs (tps : Rat) (tps : Rat) s.bucket uses
  /-- Without an entry there are no uses. -/
  unused : Assoc.lookup url states = none → uses = []

variable {states : States Rat} {uses : List (Use Rat)}

/-- The entry of another address is assigned. -/
theorem Funded.assign_other (funded : Funded settings url tps states uses) {key : String}
    (apart : url ≠ key) (s : EndpointState Rat) :
    Funded settings url tps (Assoc.assign key s states) uses where
  limit t found := funded.limit t (Assoc.lookup_assign_other apart s states ▸ found)
  runs t found := funded.runs t (Assoc.lookup_assign_other apart s states ▸ found)
  unused missing := funded.unused (Assoc.lookup_assign_other apart s states ▸ missing)

/-- The entry of the endpoint is assigned. -/
theorem Funded.assign {s : EndpointState Rat} (limit : budget settings s.ep = tps)
    (runs : Runs (tps : Rat) (tps : Rat) s.bucket uses) (states : States Rat) :
    Funded settings url tps (Assoc.assign url s states) uses where
  limit t found := by
    rw [Assoc.lookup_assign_self, Option.some.injEq] at found
    rw [← found]
    exact limit
  runs t found := by
    rw [Assoc.lookup_assign_self, Option.some.injEq] at found
    rw [← found]
    exact runs
  unused missing := by
    rw [Assoc.lookup_assign_self] at missing
    contradiction

/-- The tokens are counted later. -/
theorem Funded.refillAll (funded : Funded settings url tps states uses) (positive : 0 < tps)
    {clock : Clock} (forward : ∀ s ∈ Assoc.lookup url states, s.budgetAt ≤ clock url 0) :
    Funded settings url tps (refillAll settings clock states) uses where
  limit t found := by
    rw [lookup_refillAll, Option.map_eq_some_iff] at found
    cases found with
    | intro s there =>
      rw [← there.2]
      exact funded.limit s there.1
  runs t found := by
    rw [lookup_refillAll, Option.map_eq_some_iff] at found
    cases found with
    | intro s there =>
      rw [← there.2, bucket_refill positive (funded.limit s there.1)]
      exact (funded.runs s there.1).count _ (seconds_le (forward s there.1))
  unused missing := by
    rw [lookup_refillAll, Option.map_eq_none_iff] at missing
    exact funded.unused missing

/-- The result of a measurement. -/
theorem Funded.mergeResult (funded : Funded settings url tps states uses) (round : Round Rat)
    (clock : Clock) {result : LlmEndpoint Rat × EndpointLoad Rat}
    (limit : result.1.url = url → budget settings result.1 = tps) :
    Funded settings url tps (mergeResult settings round clock states result) uses := by
  have merged := @mergeResult_tokens settings Rat _ round clock states result
  cases merged with
  | intro s merged =>
    rw [merged.1]
    by_cases same : url = result.1.url
    · subst same
      have own := limit rfl
      have tokens := merged.2.2.2
      have limited : budget settings s.ep = tps := merged.2.2.1.trans own
      apply Funded.assign limited
      cases found : Assoc.lookup result.1.url states with
      | none =>
        rw [found] at tokens
        have full : s.tokens = (tps : Rat) := by
          rw [← own]
          exact tokens
        rw [funded.unused found, EndpointState.bucket, full]
        exact .full _
      | some t =>
        rw [found] at tokens
        rw [EndpointState.bucket, tokens.1, tokens.2]
        exact funded.runs t found
    · exact funded.assign_other same s

/-- The result of a measurement goes to its address. -/
theorem Addressed.mergeResult (addressed : Addressed states) (round : Round Rat) (clock : Clock)
    (result : LlmEndpoint Rat × EndpointLoad Rat) :
    Addressed (mergeResult settings round clock states result) := by
  have merged := @mergeResult_tokens settings Rat _ round clock states result
  cases merged with
  | intro s merged =>
    rw [merged.1]
    exact addressed.assign merged.2.1

/-- The results of a round; the entry of the endpoint is not erased. -/
theorem Funded.mergeResults (funded : Funded settings url tps states uses)
    (addressed : Addressed states) (round : Round Rat) (clock : Clock)
    (results : List (LlmEndpoint Rat × EndpointLoad Rat))
    (limit : ∀ result ∈ results, result.1.url = url → budget settings result.1 = tps)
    (kept : ∀ s ∈ Assoc.lookup url states,
      ∃ t ∈ Assoc.lookup url (mergeResults settings round clock results states),
        s.budgetAt ≤ t.budgetAt) :
    Addressed (mergeResults settings round clock results states) ∧
      Funded settings url tps (mergeResults settings round clock results states) uses := by
  have all : ∀ states : States Rat, Addressed states → Funded settings url tps states uses →
      Addressed (results.foldl (EndpointRouter.mergeResult settings round clock) states) ∧
      Funded settings url tps
        (results.foldl (EndpointRouter.mergeResult settings round clock) states) uses := by
    clear kept
    induction results with
    | nil => exact fun _ addressed funded => ⟨addressed, funded⟩
    | cons result rest ih =>
      intro states addressed funded
      exact ih (fun other inside => limit other (List.mem_cons_of_mem _ inside)) _
        (addressed.mergeResult round clock result)
        (funded.mergeResult round clock (limit result List.mem_cons_self))
  have merged := all states addressed funded
  refine ⟨merged.1.prune _, ?_⟩
  have before : ∀ s, Assoc.lookup url
      (EndpointRouter.mergeResults settings round clock results states) = some s →
      Assoc.lookup url
        (results.foldl (EndpointRouter.mergeResult settings round clock) states) = some s :=
    fun s found => merged.1.lookup_prune found
  refine ⟨fun s found => merged.2.limit s (before s found),
    fun s found => merged.2.runs s (before s found), fun missing => ?_⟩
  -- An entry that is not there now was not there before the round.
  apply funded.unused
  cases found : Assoc.lookup url states with
  | none => rfl
  | some s =>
    cases kept s found with
    | intro t there =>
      rw [missing] at there
      exact absurd there.1 nofun

/-! ## Steps -/

/-- A router in a run in which an endpoint stays declared with a limit. -/
structure Metered (settings : Settings) (url : String) (tps : Int) (router : Router Rat)
    (uses : List (Use Rat)) : Prop where
  /-- The entries are under their addresses. -/
  addressed : Addressed router.states
  /-- The entry of the endpoint. -/
  funded : Funded settings url tps router.states uses
  /-- With a lease there is an entry. -/
  entered : ∀ lease ∈ router.leases, lease.url = url →
    ∃ s, Assoc.lookup url router.states = some s
  /-- No reservation is negative. -/
  reserved : ∀ caller ∈ router.callers, 0 ≤ caller.1.tokens

variable {router next : Router Rat}

/-- A change that leaves the entries and adds neither leases nor callers. -/
theorem Metered.same (metered : Metered settings url tps router uses)
    (states : next.states = router.states) (leases : next.leases = router.leases)
    (callers : ∀ caller ∈ next.callers, 0 ≤ caller.1.tokens) :
    Metered settings url tps next uses where
  addressed := states ▸ metered.addressed
  funded := states ▸ metered.funded
  entered := by
    rw [states, leases]
    exact metered.entered
  reserved := callers

/-- The callers are those that there were and one with its request. -/
theorem Metered.reserved_of (metered : Metered settings url tps router uses) {request : Request}
    (positive : 0 ≤ request.tokens)
    (callers : ∀ caller ∈ next.callers, caller ∈ router.callers ∨ caller.1 = request) :
    ∀ caller ∈ next.callers, 0 ≤ caller.1.tokens := by
  intro caller inside
  cases callers caller inside with
  | inl before => exact metered.reserved caller before
  | inr own =>
    rw [own]
    exact positive

/-- The callers when one of them goes on later. -/
theorem goto_callers (router : Router Rat) (index : Nat) (request : Request) (phase : Phase) :
    ∀ caller ∈ (router.goto index request phase).callers,
      caller ∈ router.callers ∨ caller.1 = request := by
  intro caller inside
  apply (List.mem_or_eq_of_mem_set inside).imp_right
  intro own
  rw [own]

/-- A caller that gives up or waits leaves the entries and the leases. -/
theorem giveUp_same (router : Router Rat) (index : Nat) (request : Request) (deadline : Int)
    (logged available : Bool) (now : Int) {next : Router Rat}
    (turn : router.giveUp index request deadline logged available now = next) :
    next.states = router.states ∧ next.leases = router.leases ∧
      ∀ caller ∈ next.callers, caller ∈ router.callers ∨ caller.1 = request := by
  rw [← turn]
  unfold Router.giveUp
  split
  · exact ⟨rfl, rfl, fun caller inside => .inl (List.mem_of_mem_eraseIdx inside)⟩
  · exact ⟨rfl, rfl, goto_callers router index request _⟩

/-- A step without a new lease uses nothing. -/
theorem usesOf_proceed_same (leases : next.leases = router.leases) (index : Nat) (clock : Clock)
    (started now : Int) : usesOf url router next (.proceed index clock started now) = [] := by
  simp [usesOf, leases]

/-- A step with a new lease uses its reservation. -/
theorem usesOf_proceed_append {lease : EndpointLease}
    (leases : next.leases = router.leases ++ [lease]) (index : Nat) (clock : Clock)
    (started now : Int) : usesOf url router next (.proceed index clock started now) =
      if lease.url = url then [⟨seconds (clock url 0), (lease.reserved : Rat)⟩] else [] := by
  by_cases same : lease.url = url <;> simp [usesOf, leases, same]

/-- The tokens of all entries are counted. -/
theorem Metered.refillAll (metered : Metered settings url tps router uses) (positive : 0 < tps)
    {clock : Clock}
    (forward : ∀ s ∈ Assoc.lookup url router.states, s.budgetAt ≤ clock url 0)
    (states : next.states = refillAll settings clock router.states)
    (leases : next.leases = router.leases)
    (callers : ∀ caller ∈ next.callers, 0 ≤ caller.1.tokens) :
    Metered settings url tps next uses where
  addressed := states ▸ metered.addressed.refillAll clock
  funded := states ▸ metered.funded.refillAll positive forward
  entered lease inside same := by
    rw [leases] at inside
    cases metered.entered lease inside same with
    | intro s there =>
      rw [states, lookup_refillAll, there]
      exact ⟨_, rfl⟩
  reserved := callers

/-- A chosen endpoint with a limit is not overdrawn. -/
theorem tokens_of_eligible {role model pinned : String} {batch : Bool} {clock : Clock}
    {key : String} {s : EndpointState Rat}
    (free : eligible settings role model pinned batch clock key s = true)
    (limited : budget settings s.ep ≠ 0) : 0 ≤ s.tokens := by
  unfold eligible at free
  have sound := (Bool.and_eq_true_iff.mp (Bool.and_eq_true_iff.mp free).1).2
  have least : ¬s.tokens < (0.0 : Rat) := by
    simpa [limited] using sound
  have zero : (0.0 : Rat) = 0 := by norm_num
  rw [zero] at least
  exact not_lt.mp least

/-- The entry of a chosen endpoint. -/
def taken (settings : Settings) (request : Request) (s : EndpointState Rat) : EndpointState Rat :=
  { s with
    inflight := s.inflight + 1
    tokens := if budget settings s.ep ≠ 0 then s.tokens - (request.tokens : Rat) else s.tokens }

/-- A turn of the loop of `acquire` counts the tokens of all entries. It takes no lease, or one on
an endpoint that may be chosen. -/
theorem attempt_cases (router : Router Rat) (index : Nat) (request : Request) (deadline : Int)
    (logged : Bool) (clock : Clock) (now : Int) {next : Router Rat}
    (turn : router.attempt settings index request deadline logged clock now = next) :
    (∀ caller ∈ next.callers, caller ∈ router.callers ∨ caller.1 = request) ∧
    ((next.states = refillAll settings clock router.states ∧ next.leases = router.leases) ∨
    ∃ key s, (key, s) ∈ refillAll settings clock router.states ∧
      eligible settings request.role request.model request.pinned request.batch clock key s = true ∧
      next.states = Assoc.assign key (taken settings request s)
        (refillAll settings clock router.states) ∧
      next.leases = router.leases ++ [⟨s.ep.url, request.tokens⟩]) := by
  have erased : ∀ caller ∈ router.callers.eraseIdx index,
      caller ∈ router.callers ∨ caller.1 = request :=
    fun caller inside => .inl (List.mem_of_mem_eraseIdx inside)
  unfold Router.attempt at turn
  dsimp only at turn
  split at turn
  · rename_i key s chosen
    have free := select_eligible chosen
    rw [← turn]
    exact ⟨erased, .inr ⟨key, s, free.1, free.2, rfl, rfl⟩⟩
  · split at turn
    · rw [← turn]
      exact ⟨goto_callers _ index request _, .inl ⟨rfl, rfl⟩⟩
    · have kept := giveUp_same _ index request deadline logged _ now turn
      exact ⟨kept.2.2, .inl ⟨kept.1, kept.2.1⟩⟩

/-- The clock has not gone back when the tokens were counted. -/
theorem forward_of_refilled {clock : Clock} {s t : EndpointState Rat}
    (found : Assoc.lookup url router.states = some s)
    (refilled : Assoc.lookup url (refillAll settings clock router.states) = some t)
    (order : s.budgetAt ≤ t.budgetAt) : s.budgetAt ≤ clock url 0 := by
  rw [lookup_refillAll, found, Option.map_some, Option.some.injEq] at refilled
  rw [← refilled] at order
  exact order

/-- A lease on an endpoint takes its reservation from the bucket. -/
theorem Funded.taken (funded : Funded settings url tps states uses) (positive : 0 < tps)
    {request : Request} (reserved : 0 ≤ request.tokens) {clock : Clock} {s : EndpointState Rat}
    (found : Assoc.lookup url (EndpointRouter.refillAll settings clock states) = some s)
    (sound : budget settings s.ep ≠ 0 → 0 ≤ s.tokens)
    (forward : ∀ s ∈ Assoc.lookup url states, s.budgetAt ≤ clock url 0) :
    Funded settings url tps
      (Assoc.assign url (taken settings request s) (EndpointRouter.refillAll settings clock states))
      (uses ++ [⟨seconds (clock url 0), (request.tokens : Rat)⟩]) := by
  have counted := funded.refillAll positive forward
  have limit := counted.limit s found
  have limited : budget settings s.ep ≠ 0 := by omega
  have reading : s.budgetAt = clock url 0 := by
    rw [lookup_refillAll, Option.map_eq_some_iff] at found
    cases found with
    | intro t there =>
      rw [← there.2]
      rfl
  have kept : budget settings (EndpointRouter.taken settings request s).ep = tps := limit
  apply Funded.assign kept
  have run := (counted.runs s found).take (request.tokens : Rat) (sound limited)
    (Int.cast_nonneg reserved)
  have bucket : (EndpointRouter.taken settings request s).bucket =
      ⟨s.bucket.level - (request.tokens : Rat), s.bucket.counted⟩ := by
    unfold EndpointState.bucket EndpointRouter.taken
    rw [if_pos limited]
  rw [bucket, ← reading]
  exact run

/-- A turn of the loop of `acquire`. -/
theorem Metered.attempt (metered : Metered settings url tps router uses) (positive : 0 < tps)
    {request : Request} (reserved : 0 ≤ request.tokens) {index : Nat} {deadline : Int}
    {logged : Bool} {clock : Clock} {now : Int}
    (turn : router.attempt settings index request deadline logged clock now = next)
    (kept : ∀ s ∈ Assoc.lookup url router.states,
      ∃ t ∈ Assoc.lookup url next.states, s.budgetAt ≤ t.budgetAt) (caller : Nat) (started : Int) :
    Metered settings url tps next
      (uses ++ usesOf url router next (.proceed caller clock started now)) := by
  have turned := attempt_cases router index request deadline logged clock now turn
  have callers := metered.reserved_of reserved turned.1
  have addressed : Addressed (EndpointRouter.refillAll settings clock router.states) :=
    metered.addressed.refillAll clock
  cases turned.2 with
  | inl counted =>
    have forward : ∀ s ∈ Assoc.lookup url router.states, s.budgetAt ≤ clock url 0 := by
      intro s there
      obtain ⟨t, later, order⟩ := kept s there
      exact forward_of_refilled there (counted.1 ▸ later) order
    rw [usesOf_proceed_same counted.2, List.append_nil]
    exact metered.refillAll positive forward counted.1 counted.2 callers
  | inr leased =>
    obtain ⟨key, s, inside, free, states, leases⟩ := leased
    have found := addressed.sorted.mem_iff.mp inside
    have own := addressed.own key s found
    have entered : ∀ lease ∈ next.leases, lease.url = url →
        ∃ t, Assoc.lookup url next.states = some t := by
      intro lease held same
      rw [states]
      by_cases here : url = key
      · rw [here, Assoc.lookup_assign_self]
        exact ⟨_, rfl⟩
      · rw [Assoc.lookup_assign_other here, lookup_refillAll]
        rw [leases] at held
        cases List.mem_append.mp held with
        | inl before =>
          obtain ⟨t, there⟩ := metered.entered lease before same
          rw [there]
          exact ⟨_, rfl⟩
        | inr last =>
          rw [List.mem_singleton.mp last] at same
          exact absurd (same.symm.trans own) here
    have funded : Funded settings url tps next.states
        (uses ++ usesOf url router next (.proceed caller clock started now)) := by
      rw [usesOf_proceed_append leases, states]
      by_cases here : url = key
      · subst here
        rw [if_pos own]
        apply metered.funded.taken positive reserved found (tokens_of_eligible free)
        intro before there
        obtain ⟨t, later, order⟩ := kept before there
        have same : Assoc.lookup url next.states = some (taken settings request s) := by
          rw [states, Assoc.lookup_assign_self]
        rw [same, Option.mem_def, Option.some.injEq] at later
        rw [← later] at order
        exact forward_of_refilled there found order
      · have apart : ¬s.ep.url = url := by
          rw [own]
          exact Ne.symm here
        rw [if_neg apart, List.append_nil]
        apply Funded.assign_other _ here
        apply metered.funded.refillAll positive
        intro before there
        obtain ⟨t, later, order⟩ := kept before there
        rw [states, Assoc.lookup_assign_other here] at later
        exact forward_of_refilled there later order
    exact ⟨states ▸ addressed.assign own, funded, entered, callers⟩

/-- The entries and the leases stay, and the callers are those that there were. -/
def Left (router next : Router Rat) (request : Request) : Prop :=
  next.states = router.states ∧ next.leases = router.leases ∧
    ∀ caller ∈ next.callers, caller ∈ router.callers ∨ caller.1 = request

/-- A caller makes a turn of its loop. -/
def Turned (settings : Settings) (router next : Router Rat) (index : Nat) (request : Request)
    (clock : Clock) (now : Int) : Prop :=
  ∃ (asked : Router Rat) (deadline : Int) (logged : Bool), asked.states = router.states ∧
    asked.leases = router.leases ∧ asked.callers = router.callers ∧
    asked.attempt settings index request deadline logged clock now = next

/-- A caller that has the lock leaves the entries and the leases, or it makes a turn of its loop. -/
theorem proceed_cases (router : Router Rat) (index : Nat) (request : Request) (clock : Clock)
    (started now : Int) (phase : Phase) {next : Router Rat}
    (turn : router.proceed settings index request clock started now phase = next) :
    Left router next request ∨ Turned settings router next index request clock now := by
  have waits : ∀ {asked : Router Rat} {phase : Phase}, asked.goto index request phase = next →
      asked.states = router.states → asked.leases = router.leases →
      asked.callers = router.callers →
      Left router next request ∨ Turned settings router next index request clock now := by
    intro asked phase turn states leases callers
    rw [← turn]
    exact .inl ⟨states, leases, callers ▸ goto_callers asked index request phase⟩
  have tries : ∀ {asked : Router Rat} {deadline : Int} {logged : Bool},
      asked.attempt settings index request deadline logged clock now = next →
      asked.states = router.states → asked.leases = router.leases →
      asked.callers = router.callers →
      Left router next request ∨ Turned settings router next index request clock now := by
    intro asked deadline logged turn states leases callers
    exact .inr ⟨asked, deadline, logged, states, leases, callers, turn⟩
  have begins : router.begin settings index request clock started now = next →
      Left router next request ∨ Turned settings router next index request clock now := by
    intro turn
    unfold Router.begin at turn
    exact tries turn rfl rfl rfl
  have pin : router.pin settings index request clock started now = next →
      Left router next request ∨ Turned settings router next index request clock now := by
    intro turn
    unfold Router.pin at turn
    split at turn
    · exact waits turn rfl rfl rfl
    · exact begins turn
  cases phase with
  | enter =>
    have turn : router.enter settings index request clock started now = next := turn
    unfold Router.enter at turn
    split at turn
    · exact waits turn rfl rfl rfl
    · exact pin turn
  | pin => exact pin turn
  | start => exact begins turn
  | wait deadline logged => exact tries turn rfl rfl rfl
  | logged deadline available =>
    exact .inl (giveUp_same router index request deadline true available now turn)

/-- A caller that has the lock. -/
theorem Metered.proceed (metered : Metered settings url tps router uses) (positive : 0 < tps)
    {request : Request} (reserved : 0 ≤ request.tokens) {index : Nat} {clock : Clock}
    {started now : Int} {phase : Phase}
    (turn : router.proceed settings index request clock started now phase = next)
    (kept : ∀ s ∈ Assoc.lookup url router.states,
      ∃ t ∈ Assoc.lookup url next.states, s.budgetAt ≤ t.budgetAt) :
    Metered settings url tps next
      (uses ++ usesOf url router next (.proceed index clock started now)) := by
  cases proceed_cases router index request clock started now phase turn with
  | inl same =>
    rw [usesOf_proceed_same same.2.1, List.append_nil]
    exact metered.same same.1 same.2.1 (metered.reserved_of reserved same.2.2)
  | inr turned =>
    obtain ⟨asked, deadline, logged, states, leases, callers, turn⟩ := turned
    have before : Metered settings url tps asked uses :=
      metered.same states leases (callers ▸ metered.reserved)
    have after := before.attempt positive reserved turn (states ▸ kept) index started
    unfold usesOf at after ⊢
    rw [leases] at after
    exact after

/-- The end of a lease gives back to the bucket what was reserved and not used. -/
theorem Funded.giveBack (funded : Funded settings url tps states uses) (positive : 0 < tps)
    {s : EndpointState Rat} (found : Assoc.lookup url states = some s) {reserved used now : Int}
    (within : used ≤ reserved) (forward : s.budgetAt ≤ now) :
    Funded settings url tps (Assoc.assign url (giveBack settings reserved used now s) states)
      (uses ++ [⟨seconds now, -((reserved : Rat) - (used : Rat))⟩]) := by
  have limit := funded.limit s found
  have limited : budget settings s.ep ≠ 0 := by omega
  have unspent : (0 : Rat) ≤ (reserved : Rat) - (used : Rat) :=
    sub_nonneg.mpr (Int.cast_le.mpr within)
  have counted := (funded.runs s found).count _ (seconds_le forward)
  have bucket : (EndpointRouter.giveBack settings reserved used now s).bucket =
      ⟨min (tps : Rat) ((s.bucket.fill (tps : Rat) (tps : Rat) (seconds now)).level +
        ((reserved : Rat) - (used : Rat))), seconds now⟩ := by
    rw [← bucket_refill positive limit]
    unfold EndpointState.bucket EndpointRouter.giveBack
    dsimp only
    rw [if_pos limited, limit, smaller_eq_min, ← add_sub_assoc]
    rfl
  have kept : budget settings (EndpointRouter.giveBack settings reserved used now s).ep = tps :=
    limit
  apply Funded.assign kept
  rw [bucket]
  exact counted.give _ unspent

/-- The end of a lease changes the entry of its address, if there is one. -/
theorem release_cases {index : Nat} {used now : Int}
    (turn : (machine settings).step router (.release index used now) = some next) :
    ∃ lease, router.leases[index]? = some lease ∧ next.leases = router.leases.eraseIdx index ∧
      next.callers = router.callers ∧
      (next.states = router.states ∧
          (lease.url = "" ∨ Assoc.lookup lease.url router.states = none) ∨
        ∃ s, lease.url ≠ "" ∧ Assoc.lookup lease.url router.states = some s ∧
          next.states = Assoc.assign lease.url (giveBack settings lease.reserved used now s)
            router.states) := by
  simp only [machine] at turn
  split at turn
  · rename_i lease found
    rw [← Option.some.inj turn]
    by_cases named : lease.url = ""
    · rw [if_neg (not_not.mpr named)]
      exact ⟨lease, found, rfl, rfl, .inl ⟨rfl, .inl named⟩⟩
    · rw [if_pos named]
      cases there : Assoc.lookup lease.url router.states with
      | none =>
        have released : router.release settings lease.url lease.reserved used now = router := by
          simp only [Router.release, there]
        rw [released]
        exact ⟨lease, found, rfl, rfl, .inl ⟨rfl, .inr there⟩⟩
      | some s =>
        have released : router.release settings lease.url lease.reserved used now =
            { router with
              states := Assoc.assign lease.url (giveBack settings lease.reserved used now s)
                router.states } := by
          simp only [Router.release, there]
        rw [released]
        exact ⟨lease, found, rfl, rfl, .inr ⟨s, named, there, rfl⟩⟩
  · contradiction

/-- A lease ends. -/
theorem Metered.release (metered : Metered settings url tps router uses) (positive : 0 < tps)
    {index : Nat} {used now : Int} (sound : Sound settings url tps router (.release index used now))
    (turn : (machine settings).step router (.release index used now) = some next)
    (kept : ∀ s ∈ Assoc.lookup url router.states,
      ∃ t ∈ Assoc.lookup url next.states, s.budgetAt ≤ t.budgetAt) :
    Metered settings url tps next (uses ++ usesOf url router next (.release index used now)) := by
  obtain ⟨lease, found, leases, callers, ended⟩ := release_cases turn
  have used' : usesOf url router next (.release index used now) =
      if lease.url = url ∧ lease.url ≠ "" then
        [⟨seconds now, -((lease.reserved : Rat) - (used : Rat))⟩]
      else [] := by
    simp only [usesOf, found]
  have entered : ∀ other ∈ next.leases, other.url = url →
      ∃ t, Assoc.lookup url next.states = some t := by
    intro other inside same
    rw [leases] at inside
    obtain ⟨s, there⟩ := metered.entered other (List.mem_of_mem_eraseIdx inside) same
    obtain ⟨t, later, _⟩ := kept s there
    exact ⟨t, later⟩
  rw [used']
  cases ended with
  | inl idle =>
    have apart : ¬(lease.url = url ∧ lease.url ≠ "") := by
      intro own
      cases idle.2 with
      | inl unnamed => exact own.2 unnamed
      | inr missing =>
        obtain ⟨s, there⟩ := metered.entered lease (List.mem_of_getElem? found) own.1
        rw [own.1, there] at missing
        contradiction
    rw [if_neg apart, List.append_nil]
    exact ⟨idle.1 ▸ metered.addressed, idle.1 ▸ metered.funded, entered, callers ▸ metered.reserved⟩
  | inr given =>
    obtain ⟨s, named, there, states⟩ := given
    have own := metered.addressed.own _ s there
    refine ⟨states ▸ metered.addressed.assign own, ?_, entered, callers ▸ metered.reserved⟩
    rw [states]
    by_cases here : lease.url = url
    · subst here
      rw [if_pos ⟨rfl, named⟩]
      have within := (sound lease found rfl).2
      apply metered.funded.giveBack positive there within
      obtain ⟨t, later, order⟩ := kept s there
      rw [states, Assoc.lookup_assign_self, Option.mem_def, Option.some.injEq] at later
      rw [← later] at order
      exact order
    · have apart : ¬(lease.url = url ∧ lease.url ≠ "") := fun own => here own.1
      rw [if_neg apart, List.append_nil]
      exact metered.funded.assign_other (Ne.symm here) _

/-- An endpoint has failed. -/
theorem Metered.failed (metered : Metered settings url tps router uses) (other : String)
    (now : Int) : Metered settings url tps (router.failed other now) uses := by
  unfold Router.failed
  split
  · exact metered.same rfl rfl metered.reserved
  · rename_i s found
    have own := metered.addressed.own _ s found
    have kept : ∀ t : EndpointState Rat,
        Assoc.lookup other (Assoc.assign other t router.states) = some t :=
      fun t => Assoc.lookup_assign_self other t router.states
    refine ⟨metered.addressed.assign own, ?_, ?_, metered.reserved⟩
    · by_cases here : url = other
      · subst here
        have limit : budget settings
            ({ s with failedUntil := now + 5 * second } : EndpointState Rat).ep = tps :=
          metered.funded.limit s found
        exact Funded.assign limit (metered.funded.runs s found) router.states
      · exact metered.funded.assign_other here _
    · intro lease inside same
      by_cases here : url = other
      · rw [here]
        exact ⟨_, kept _⟩
      · show ∃ t, Assoc.lookup url (Assoc.assign other _ router.states) = some t
        rw [Assoc.lookup_assign_other here]
        exact metered.entered lease inside same

/-- A round ends. -/
theorem Metered.endRound (metered : Metered settings url tps router uses) {round : Round Rat}
    (own : router.round = some round) {found : List (LlmEndpoint Rat × Bool)}
    {answer : String → Answer Rat} {clock : Clock}
    (sound : Sound settings url tps router (.endRound found answer clock))
    (kept : ∀ s ∈ Assoc.lookup url router.states,
      ∃ t ∈ Assoc.lookup url (router.endRound settings round found answer clock).states,
        s.budgetAt ≤ t.budgetAt) :
    Metered settings url tps (router.endRound settings round found answer clock) uses := by
  have merged := metered.funded.mergeResults metered.addressed round clock
    ((endpoints (declaredEndpoints found) round.pinned).map fun ep : LlmEndpoint Rat =>
      probeEndpoint settings round (answer ep.url) ep) ?_ kept
  · refine ⟨merged.1, merged.2, fun lease inside same => ?_, metered.reserved⟩
    obtain ⟨s, there⟩ := metered.entered lease inside same
    obtain ⟨t, later, _⟩ := kept s there
    exact ⟨t, later⟩
  · intro result inside same
    obtain ⟨ep, there, rfl⟩ := List.mem_map.mp inside
    have names := @probeEndpoint_names Rat settings round (answer ep.url) ep
    rw [budget_congr names.2.1 names.2.2]
    exact sound round own ep there (names.1.symm.trans same)

/-- A step of a run in which the endpoint stays declared with its limit. -/
theorem Metered.step (metered : Metered settings url tps router uses) (positive : 0 < tps)
    {action : Action Rat} (steady : Steady settings url tps router action)
    (turn : (machine settings).step router action = some next) :
    Metered settings url tps next (uses ++ usesOf url router next action) := by
  have kept := steady.kept next turn
  have sound := steady.sound
  have quiet : ∀ {next : Router Rat}, usesOf url router next action = [] →
      Metered settings url tps next uses →
      Metered settings url tps next (uses ++ usesOf url router next action) := by
    intro next unused after
    rw [unused, List.append_nil]
    exact after
  cases action with
  | acquire request =>
    have callers : ∀ caller ∈ router.callers ++ [(request, .enter)], 0 ≤ caller.1.tokens := by
      intro caller inside
      cases List.mem_append.mp inside with
      | inl before => exact metered.reserved caller before
      | inr last =>
        rw [List.mem_singleton.mp last]
        exact sound
    rw [← Option.some.inj turn]
    exact quiet rfl (metered.same rfl rfl callers)
  | proceed index clock started now =>
    simp only [machine] at turn
    split at turn
    · rename_i request phase found
      exact metered.proceed positive (metered.reserved _ (List.mem_of_getElem? found))
        (Option.some.inj turn) kept
    · contradiction
  | release index used now => exact metered.release positive sound turn kept
  | failed other now =>
    rw [← Option.some.inj turn]
    exact quiet rfl (metered.failed other now)
  | force =>
    rw [← Option.some.inj turn]
    exact quiet rfl (metered.same rfl rfl metered.reserved)
  | choose role model clock =>
    have states : next.states = EndpointRouter.refillAll settings clock router.states := by
      rw [← Option.some.inj turn]
      rfl
    have others : next.leases = router.leases ∧ next.callers = router.callers := by
      rw [← Option.some.inj turn]
      exact ⟨rfl, rfl⟩
    apply quiet rfl
    apply metered.refillAll positive _ states others.1 (others.2 ▸ metered.reserved)
    intro s there
    obtain ⟨t, later, order⟩ := kept s there
    exact forward_of_refilled there (states ▸ later) order
  | beginRound started =>
    simp only [machine] at turn
    split at turn
    · split at turn
      · contradiction
      · rw [← Option.some.inj turn]
        exact quiet rfl (metered.same rfl rfl metered.reserved)
    · contradiction
  | endRound found answer clock =>
    simp only [machine] at turn
    split at turn
    · rename_i round own
      rw [← Option.some.inj turn] at kept ⊢
      exact quiet rfl (metered.endRound own sound kept)
    · contradiction
  | stop =>
    rw [← Option.some.inj turn]
    exact quiet rfl (metered.same rfl rfl metered.reserved)

/-! ## Runs -/

/-- The router that has just started. -/
theorem metered_initial : Metered settings url tps .initial [] where
  addressed :=
    { sorted := List.Pairwise.nil
      own := fun _ _ found => by cases found }
  funded :=
    { limit := fun _ found => by cases found
      runs := fun _ found => by cases found
      unused := fun _ => rfl }
  entered _ inside := absurd inside List.not_mem_nil
  reserved _ inside := absurd inside List.not_mem_nil

/-- What the budget of an endpoint promises. -/
structure RateKept (settings : Settings) (url : String) (tps : Int) (router : Router Rat)
    (uses : List (Use Rat)) : Prop where
  /-- The balance is not above the limit. -/
  balance : ∀ s ∈ Assoc.lookup url router.states, s.tokens ≤ (tps : Rat)
  /-- A request is admitted at a balance that is not negative. -/
  admitted : ∀ action, ∀ next ∈ (machine settings).step router action,
    ∀ lease ∈ next.leases.drop router.leases.length, lease.url = url →
      ∃ index clock started now, action = .proceed index clock started now ∧
        ∃ s ∈ Assoc.lookup url router.states,
          0 ≤ (refill settings (clock url 0) s).tokens
  /-- What is admitted in an interval, less what is given back, has a bound. -/
  interval : ∀ start length : Rat, 0 ≤ length →
    net (within start (start + length) uses) ≤
      (tps : Rat) * length + (tps : Rat) + largest (within start (start + length) uses)

/-- The lease that a turn of the loop of `acquire` adds is on an endpoint that is not overdrawn. -/
theorem Metered.admitted_attempt (metered : Metered settings url tps router uses)
    (positive : 0 < tps) {request : Request} {index : Nat} {deadline : Int} {logged : Bool}
    {clock : Clock} {now : Int}
    (turn : router.attempt settings index request deadline logged clock now = next)
    {lease : EndpointLease} (added : lease ∈ next.leases.drop router.leases.length)
    (own : lease.url = url) :
    ∃ s ∈ Assoc.lookup url router.states, 0 ≤ (refill settings (clock url 0) s).tokens := by
  cases (attempt_cases router index request deadline logged clock now turn).2 with
  | inl counted =>
    rw [counted.2, List.drop_length] at added
    contradiction
  | inr leased =>
    obtain ⟨key, s, inside, free, _, leases⟩ := leased
    have addressed : Addressed (EndpointRouter.refillAll settings clock router.states) :=
    metered.addressed.refillAll clock
    have found := addressed.sorted.mem_iff.mp inside
    rw [leases, List.drop_left, List.mem_singleton] at added
    have here : key = url := by
      rw [← own, added]
      exact (addressed.own key s found).symm
    subst here
    rw [lookup_refillAll, Option.map_eq_some_iff] at found
    obtain ⟨t, there, refilled⟩ := found
    have limit : budget settings s.ep = tps := by
      rw [← refilled]
      exact metered.funded.limit t there
    have limited : budget settings s.ep ≠ 0 := by omega
    refine ⟨t, there, ?_⟩
    rw [refilled]
    exact tokens_of_eligible free limited

/-- A step that adds a lease is a turn of the loop of `acquire`. -/
theorem Metered.admitted (metered : Metered settings url tps router uses) (positive : 0 < tps)
    {action : Action Rat} (turn : (machine settings).step router action = some next)
    {lease : EndpointLease} (added : lease ∈ next.leases.drop router.leases.length)
    (own : lease.url = url) :
    ∃ index clock started now, action = .proceed index clock started now ∧
      ∃ s ∈ Assoc.lookup url router.states, 0 ≤ (refill settings (clock url 0) s).tokens := by
  have more : ¬next.leases.length ≤ router.leases.length := by
    intro few
    rw [List.drop_eq_nil_of_le few] at added
    contradiction
  cases action with
  | proceed index clock started now =>
    refine ⟨index, clock, started, now, rfl, ?_⟩
    simp only [machine] at turn
    split at turn
    · rename_i request phase found
      cases proceed_cases router index request clock started now phase (Option.some.inj turn) with
      | inl same =>
        rw [same.2.1] at more
        exact absurd (le_refl _) more
      | inr turned =>
        obtain ⟨asked, deadline, logged, states, leases, callers, turn⟩ := turned
        have before : Metered settings url tps asked uses :=
          metered.same states leases (callers ▸ metered.reserved)
        rw [← leases] at added
        rw [← states]
        exact before.admitted_attempt positive turn added own
    · contradiction
  | release index used now =>
    obtain ⟨_, _, leases, _⟩ := release_cases turn
    rw [leases] at more
    exact absurd (List.length_eraseIdx_le _ _) more
  | failed other now =>
    have same : (router.failed other now).leases = router.leases := by
      unfold Router.failed
      split <;> rfl
    rw [← Option.some.inj turn] at more
    exact absurd (le_of_eq (congrArg List.length same)) more
  | beginRound started =>
    simp only [machine] at turn
    split at turn
    · split at turn
      · contradiction
      · rw [← Option.some.inj turn] at more
        exact absurd (le_refl _) more
    · contradiction
  | endRound found answer clock =>
    simp only [machine] at turn
    split at turn
    · rw [← Option.some.inj turn] at more
      exact absurd (le_refl _) more
    · contradiction
  | acquire request =>
    rw [← Option.some.inj turn] at more
    exact absurd (le_refl _) more
  | force =>
    rw [← Option.some.inj turn] at more
    exact absurd (le_refl _) more
  | choose role model clock =>
    rw [← Option.some.inj turn] at more
    exact absurd (le_refl _) more
  | stop =>
    rw [← Option.some.inj turn] at more
    exact absurd (le_refl _) more

/-- A run in which the endpoint stays declared with its limit. -/
theorem metered_of_reaches {state : Router Rat × List (Use Rat)} (positive : 0 < tps)
    (reached : (metered settings url).Reaches
      (fun state action => Steady settings url tps state.1 action) state) :
    Metered settings url tps state.1 state.2 := by
  induction reached with
  | initial => exact metered_initial
  | step action _ steady turn ih =>
    obtain ⟨after, taken, rfl⟩ := Option.map_eq_some_iff.mp turn
    exact ih.step positive steady taken

/-- As long as an endpoint stays declared with a limit, its balance is not above the limit, requests
are admitted when it is not negative, and what is admitted in an interval has a bound. -/
theorem rate_kept (positive : 0 < tps)
    (reached : (metered settings url).Reaches
      (fun state action => Steady settings url tps state.1 action) (router, uses)) :
    RateKept settings url tps router uses := by
  have all : Metered settings url tps router uses := metered_of_reaches positive reached
  have flowing : (0 : Rat) ≤ (tps : Rat) := Int.cast_nonneg (le_of_lt positive)
  refine ⟨fun s found => (all.funded.runs s found).level_le, ?_, ?_⟩
  · intro action next turn lease added own
    exact all.admitted positive turn added own
  · intro start length order
    have later : start ≤ start + length := le_add_of_nonneg_right order
    cases found : Assoc.lookup url router.states with
    | none =>
      have unused : uses = [] := all.funded.unused found
      have inflow := mul_nonneg flowing order
      rw [unused]
      show (0 : Rat) ≤ (tps : Rat) * length + (tps : Rat) + 0
      linarith only [inflow, flowing]
    | some s =>
      have bound := (all.funded.runs s found).net_le flowing flowing later
      rw [add_sub_cancel_left] at bound
      exact bound

/-! ## A call that needs less than it reserves -/

/-- The values of an action can be checked. -/
instance (router : Router Rat) (action : Action Rat) :
    Decidable (Sound settings url tps router action) :=
  match action with
  | .acquire request => inferInstanceAs (Decidable (0 ≤ request.tokens))
  | .release index used _ =>
    inferInstanceAs (Decidable (∀ lease ∈ router.leases[index]?, lease.url = url →
      0 ≤ used ∧ used ≤ lease.reserved))
  | .endRound found _ _ =>
    inferInstanceAs (Decidable (∀ round ∈ router.round,
      ∀ ep ∈ endpoints (declaredEndpoints found) round.pinned,
        ep.url = url → budget settings ep = tps))
  | .proceed _ _ _ _ => isTrue trivial
  | .failed _ _ => isTrue trivial
  | .force => isTrue trivial
  | .choose _ _ _ => isTrue trivial
  | .beginRound _ => isTrue trivial
  | .stop => isTrue trivial

/-- So can a step. -/
instance (router : Router Rat) (action : Action Rat) :
    Decidable (Steady settings url tps router action) :=
  decidable_of_iff
    ((∀ next ∈ (machine settings).step router action, ∀ s ∈ Assoc.lookup url router.states,
      ∃ t ∈ Assoc.lookup url next.states, s.budgetAt ≤ t.budgetAt) ∧
      Sound settings url tps router action)
    ⟨fun both => ⟨both.1, both.2⟩, fun steady => ⟨steady.kept, steady.sound⟩⟩

/-- The server may make ten tokens in a second. -/
def tenTokens : Settings := fun key =>
  if key = "CHITTA_ROUTER_TPS_BUDGET_HTTP___LOCALHOST_11434" then some 10 else none

/-- A caller reserves a hundred tokens and needs forty of them. -/
def oneCall : List (Action Rat) :=
  oneServer ++ [.acquire hint, .proceed 0 (fun _ _ => 0) 0 0, .release 0 40 second]

/-- The call is in the accounts of the server. -/
theorem rate_kept_call : ∃ (router : Router Rat) (uses : List (Use Rat)),
    uses.map (fun use => (use.time, use.amount)) = [(0, 100), (1, -60)] ∧
      RateKept tenTokens localServer.url 10 router uses := by
  have evaluated : ((metered tenTokens localServer.url).runAllowed
      (fun state action => Steady tenTokens localServer.url 10 state.1 action)
      (.initial, []) oneCall).map (fun state => state.2.map fun use => (use.time, use.amount)) =
      some [(0, 100), (1, -60)] := by decide +kernel
  obtain ⟨state, replayed, same⟩ := Option.map_eq_some_iff.mp evaluated
  exact ⟨state.1, state.2, same,
    rate_kept (by decide) (Machine.Reaches.of_runAllowed oneCall .initial replayed)⟩

end Chitta.EndpointRouter
