import Mathlib.Data.List.Count
import Chitta.EndpointRouter.Router
import Chitta.Slots

/-!
# The leases of endpoints

The router counts the leases of every endpoint. A round of measurements keeps the counts: it changes
what is known of an endpoint, adds endpoints without leases and drops endpoints without leases.
-/
namespace Chitta.EndpointRouter

variable {D : Type} {settings : Settings} {limit : String → Int}

/-- The leases that the router counts for an address. -/
def inflight (url : String) (states : States D) : Int :=
  match Assoc.lookup url states with
  | some s => s.inflight
  | none => 0

/-- Every entry is under its address and has no more leases than its limit. -/
structure Tended (settings : Settings) (limit : String → Int) (states : States D) : Prop where
  /-- An address has one entry. -/
  sorted : Assoc.Sorted states
  /-- An entry is under its address. -/
  own : ∀ url s, Assoc.lookup url states = some s → s.ep.url = url ∧ url ≠ ""
  /-- The limit. -/
  capped : ∀ url s, Assoc.lookup url states = some s →
    cap settings s.ep = limit url ∧ s.inflight ≤ limit url

variable {states : States D}

/-! ## Changes of the entries -/

/-- The count of an address is that of its entry. -/
theorem inflight_of_lookup {url : String} {s : EndpointState D}
    (found : Assoc.lookup url states = some s) : inflight url states = s.inflight := by
  rw [inflight, found]

/-- The counts after an entry is assigned. -/
theorem inflight_assign (url other : String) (s : EndpointState D) :
    inflight other (Assoc.assign url s states) =
      if other = url then s.inflight else inflight other states := by
  by_cases same : other = url
  · rw [if_pos same, same]
    exact inflight_of_lookup (Assoc.lookup_assign_self _ _ _)
  · rw [if_neg same, inflight, Assoc.lookup_assign_other same]
    rfl

/-- An entry that keeps to its limit is assigned. -/
theorem Tended.assign (tended : Tended settings limit states) {url : String} {s : EndpointState D}
    (own : s.ep.url = url ∧ url ≠ "")
    (capped : cap settings s.ep = limit url ∧ s.inflight ≤ limit url) :
    Tended settings limit (Assoc.assign url s states) where
  sorted := tended.sorted.assign url s
  own other t found := by
    by_cases same : other = url
    · rw [same, Assoc.lookup_assign_self, Option.some.injEq] at found
      rw [same, ← found]
      exact own
    · rw [Assoc.lookup_assign_other same] at found
      exact tended.own other t found
  capped other t found := by
    by_cases same : other = url
    · rw [same, Assoc.lookup_assign_self, Option.some.injEq] at found
      rw [same, ← found]
      exact capped
    · rw [Assoc.lookup_assign_other same] at found
      exact tended.capped other t found

/-- Some entries go. -/
theorem Tended.filter (tended : Tended settings limit states)
    (keep : String × EndpointState D → Bool) : Tended settings limit (states.filter keep) := by
  have sorted : Assoc.Sorted (states.filter keep) := List.Pairwise.filter _ tended.sorted
  have before : ∀ url s, Assoc.lookup url (states.filter keep) = some s →
      Assoc.lookup url states = some s := by
    intro url s found
    have inside := sorted.mem_iff.mpr found
    exact tended.sorted.mem_iff.mp (List.mem_filter.mp inside |>.1)
  exact ⟨sorted, fun url s found => tended.own url s (before url s found),
    fun url s found => tended.capped url s (before url s found)⟩

/-- Pruning keeps the counts: an entry with a lease stays. -/
theorem inflight_prune (sorted : Assoc.Sorted states) (present : List String) (url : String) :
    inflight url (prune present states) = inflight url states := by
  have kept : Assoc.Sorted (prune present states) := List.Pairwise.filter _ sorted
  cases after : Assoc.lookup url (prune present states) with
  | some s =>
    have inside := kept.mem_iff.mpr after
    have before := sorted.mem_iff.mp (List.mem_filter.mp inside |>.1)
    rw [inflight_of_lookup after, inflight_of_lookup before]
  | none =>
    cases before : Assoc.lookup url states with
    | none => rw [inflight, inflight, after, before]
    | some s =>
      -- An entry that is gone had no lease.
      have idle : s.inflight = 0 := by
        by_contra leased
        have inside : (url, s) ∈ prune present states := by
          refine List.mem_filter.mpr ⟨sorted.mem_iff.mpr before, ?_⟩
          simp [leased]
        rw [kept.mem_iff.mp inside] at after
        contradiction
      rw [inflight_of_lookup before, idle, inflight, after]

variable [Double D]

/-- Counting tokens changes no count. -/
theorem inflight_refillAll (clock : Clock) (url : String) :
    inflight url (refillAll settings clock states) = inflight url states := by
  unfold inflight refillAll
  rw [Assoc.lookup_map fun key s => refill settings (clock key 0) s]
  cases Assoc.lookup url states <;> rfl

/-- Counting tokens changes no endpoint. -/
theorem Tended.refillAll (tended : Tended settings limit states) (clock : Clock) :
    Tended settings limit (refillAll settings clock states) := by
  have before :
      ∀ url s, Assoc.lookup url (EndpointRouter.refillAll settings clock states) = some s →
      ∃ t, Assoc.lookup url states = some t ∧ s.ep = t.ep ∧ s.inflight = t.inflight := by
    intro url s found
    unfold EndpointRouter.refillAll at found
    rw [Assoc.lookup_map fun key s => refill settings (clock key 0) s,
      Option.map_eq_some_iff] at found
    obtain ⟨t, there, rfl⟩ := found
    exact ⟨t, there, rfl, rfl⟩
  refine ⟨tended.sorted.map fun key s => refill settings (clock key 0) s, ?_, ?_⟩
  · intro url s found
    obtain ⟨t, there, ep, _⟩ := before url s found
    rw [ep]
    exact tended.own url t there
  · intro url s found
    obtain ⟨t, there, ep, count⟩ := before url s found
    rw [ep, count]
    exact tended.capped url t there

/-! ## Choosing -/

/-- An endpoint that may be chosen has room. -/
theorem room_of_eligible {role model pinned : String} {batch : Bool} {clock : Clock}
    {key : String} {s : EndpointState D}
    (free : eligible settings role model pinned batch clock key s = true) :
    s.inflight < cap settings s.ep := by
  unfold eligible at free
  have room := (Bool.and_eq_true_iff.mp (Bool.and_eq_true_iff.mp free).1).1
  exact of_decide_eq_true (Bool.and_eq_true_iff.mp room).2

/-- The best entry so far is the next one, which may be chosen, or an earlier one. -/
theorem better_eligible {role model pinned : String} {batch : Bool} {clock : Clock}
    {best : Option (String × EndpointState D)} {first entry : String × EndpointState D}
    (picked : better settings role model pinned batch clock best first = some entry) :
    entry = first ∧ eligible settings role model pinned batch clock first.1 first.2 = true ∨
      best = some entry := by
  unfold better at picked
  split at picked
  · rename_i free
    split at picked
    · exact .inl ⟨(Option.some.inj picked).symm, free⟩
    · split at picked
      · exact .inl ⟨(Option.some.inj picked).symm, free⟩
      · exact .inr picked
  · exact .inr picked

/-- The chosen entry is one of the entries, and it may be chosen. -/
theorem select_eligible {role model pinned : String} {batch : Bool} {clock : Clock}
    {entry : String × EndpointState D}
    (chosen : select settings role model pinned batch clock states = some entry) :
    entry ∈ states ∧ eligible settings role model pinned batch clock entry.1 entry.2 = true := by
  have all : ∀ best : Option (String × EndpointState D),
      states.foldl (better settings role model pinned batch clock) best = some entry →
      entry ∈ states ∧ eligible settings role model pinned batch clock entry.1 entry.2 = true ∨
        best = some entry := by
    clear chosen
    induction states with
    | nil => exact fun best found => .inr found
    | cons first rest ih =>
      intro best found
      rw [List.foldl_cons] at found
      cases ih _ found with
      | inl later => exact .inl ⟨List.mem_cons_of_mem _ later.1, later.2⟩
      | inr picked =>
        refine (better_eligible picked).imp_left fun own => ?_
        rw [own.1]
        exact ⟨List.mem_cons_self, own.2⟩
  exact (all none chosen).resolve_right nofun

/-- The chosen entry is one of the entries, and it has room. -/
theorem select_room {role model pinned : String} {batch : Bool} {clock : Clock}
    {entry : String × EndpointState D}
    (chosen : select settings role model pinned batch clock states = some entry) :
    entry ∈ states ∧ entry.2.inflight < cap settings entry.2.ep := by
  have free := select_eligible chosen
  exact ⟨free.1, room_of_eligible free.2⟩

/-! ## Measuring -/

omit [Double D] in
/-- Endpoints with one name take as many callers. -/
theorem cap_congr {ep other : LlmEndpoint D} (label : ep.label = other.label)
    (alwaysOn : ep.alwaysOn = other.alwaysOn) : cap settings ep = cap settings other := by
  rw [cap, cap, label, alwaysOn]

omit [Double D] in
/-- Measuring keeps the address, the name and whether the endpoint is always on. -/
theorem probeEndpoint_names (round : Round D) (answer : Answer D) (ep : LlmEndpoint D) :
    (probeEndpoint settings round answer ep).1.url = ep.url ∧
      (probeEndpoint settings round answer ep).1.label = ep.label ∧
      (probeEndpoint settings round answer ep).1.alwaysOn = ep.alwaysOn := by
  unfold probeEndpoint
  cases Assoc.lookup ep.url round.old with
  | none =>
    dsimp only
    split <;> exact ⟨rfl, rfl, rfl⟩
  | some s =>
    dsimp only
    split <;> exact ⟨rfl, rfl, rfl⟩

omit [Double D] in
/-- Measuring keeps the address and the limit. -/
theorem probeEndpoint_ep (round : Round D) (answer : Answer D) (ep : LlmEndpoint D) :
    (probeEndpoint settings round answer ep).1.url = ep.url ∧
      cap settings (probeEndpoint settings round answer ep).1 = cap settings ep := by
  have names := @probeEndpoint_names D settings round answer ep
  exact ⟨names.1, cap_congr names.2.1 names.2.2⟩

omit [Double D] in
/-- An entry has the count, the address and the name of another one. -/
structure Kept (s t : EndpointState D) : Prop where
  /-- The count. -/
  inflight : t.inflight = s.inflight
  /-- The address. -/
  url : t.ep.url = s.ep.url
  /-- The name. -/
  label : t.ep.label = s.ep.label
  /-- Whether it is always on. -/
  alwaysOn : t.ep.alwaysOn = s.ep.alwaysOn

/-- New latencies. -/
theorem smooth_kept (load : EndpointLoad D) (s : EndpointState D) : Kept s (smooth load s) := by
  unfold smooth
  split <;> exact ⟨rfl, rfl, rfl, rfl⟩

/-- A good measurement. -/
theorem idle_kept (load : EndpointLoad D) (s : EndpointState D) : Kept s (idle load s) := by
  unfold idle
  split <;> exact ⟨rfl, rfl, rfl, rfl⟩

omit [Double D] in
/-- A failure. -/
theorem notOk_kept (s : EndpointState D) : Kept s (notOk s) := by
  unfold notOk
  by_cases many : 3 ≤ s.failed + 1
  · simp only [if_pos many]
    exact ⟨rfl, rfl, rfl, rfl⟩
  · simp only [if_neg many]
    exact ⟨rfl, rfl, rfl, rfl⟩

/-- A measurement keeps the count, the address and the name of an entry. -/
theorem judge_kept (load : EndpointLoad D) (s : EndpointState D) : Kept s (judge load s) := by
  obtain ⟨count, url, label, alwaysOn⟩ := smooth_kept load s
  unfold judge
  split
  · exact ⟨rfl, rfl, rfl, rfl⟩
  · split
    · exact notOk_kept s
    · unfold measured
      split
      · exact ⟨count, url, label, alwaysOn⟩
      · obtain ⟨count', url', label', alwaysOn'⟩ :=
          idle_kept load { smooth load s with failed := 0 }
        exact ⟨count'.trans count, url'.trans url, label'.trans label, alwaysOn'.trans alwaysOn⟩

omit [Double D] in
/-- Avoiding an endpoint. -/
theorem backOff_kept (now : Int) (s : EndpointState D) : Kept s (backOff settings now s) := by
  unfold backOff
  split <;> exact ⟨rfl, rfl, rfl, rfl⟩

/-- What is learned of an endpoint goes to the entry of its address and keeps its count. -/
theorem mergeResult_eq (round : Round D) (clock : Clock) (states : States D)
    (result : LlmEndpoint D × EndpointLoad D) :
    ∃ s, mergeResult settings round clock states result = Assoc.assign result.1.url s states ∧
      s.inflight = inflight result.1.url states ∧ s.ep.url = result.1.url ∧
      cap settings s.ep = cap settings result.1 := by
  obtain ⟨ep, load⟩ := result
  refine ⟨_, rfl, ?_⟩
  obtain ⟨count', url', label', alwaysOn'⟩ :=
    @backOff_kept D settings (clock ep.url 1) (judge load _)
  obtain ⟨count, url, label, alwaysOn⟩ := judge_kept load _
  refine ⟨(count'.trans count).trans ?_, url'.trans url,
    cap_congr (label'.trans label) (alwaysOn'.trans alwaysOn)⟩
  dsimp only
  unfold inflight
  cases Assoc.lookup ep.url states <;> rfl

/-- A result with the limit of its address keeps the entries and the counts. -/
theorem Tended.mergeResult (tended : Tended settings limit states) (round : Round D) (clock : Clock)
    {result : LlmEndpoint D × EndpointLoad D} (named : result.1.url ≠ "")
    (constant : cap settings result.1 = limit result.1.url) :
    Tended settings limit (mergeResult settings round clock states result) ∧
      ∀ url, inflight url (EndpointRouter.mergeResult settings round clock states result) =
        inflight url states := by
  obtain ⟨s, merged, count, own, same⟩ := @mergeResult_eq D settings _ round clock states result
  have room : inflight result.1.url states ≤ limit result.1.url := by
    unfold inflight
    split
    · rename_i t found
      exact (tended.capped _ t found).2
    · rw [← constant]
      have positive := one_le_cap settings result.1
      omega
  rw [merged]
  refine ⟨tended.assign ⟨own, named⟩ ⟨same.trans constant, count ▸ room⟩, fun url => ?_⟩
  rw [inflight_assign]
  split
  · rename_i equal
    rw [equal, count]
  · rfl

/-- The results of a round keep the entries and the counts. -/
theorem Tended.mergeResults (tended : Tended settings limit states) (round : Round D)
    (clock : Clock) (results : List (LlmEndpoint D × EndpointLoad D))
    (named : ∀ result ∈ results, result.1.url ≠ "")
    (constant : ∀ result ∈ results, cap settings result.1 = limit result.1.url) :
    Tended settings limit (mergeResults settings round clock results states) ∧
      ∀ url, inflight url (EndpointRouter.mergeResults settings round clock results states) =
        inflight url states := by
  have all : ∀ states : States D, Tended settings limit states →
      Tended settings limit
        (results.foldl (EndpointRouter.mergeResult settings round clock) states) ∧
      ∀ url, inflight url
        (results.foldl (EndpointRouter.mergeResult settings round clock) states) =
        inflight url states := by
    induction results with
    | nil => exact fun _ tended => ⟨tended, fun _ => rfl⟩
    | cons result rest ih =>
      intro states tended
      obtain ⟨first, counts⟩ := tended.mergeResult round clock (named result List.mem_cons_self)
        (constant result List.mem_cons_self)
      obtain ⟨last, later⟩ := ih (fun other inside => named other (List.mem_cons_of_mem _ inside))
        (fun other inside => constant other (List.mem_cons_of_mem _ inside)) _ first
      exact ⟨last, fun url => (later url).trans (counts url)⟩
  obtain ⟨merged, counts⟩ := all states tended
  exact ⟨merged.filter _, fun url => (inflight_prune merged.sorted _ url).trans (counts url)⟩

/-! ## Callers and rounds -/

omit [Double D] in
/-- The counts are those of the leases that are outstanding. -/
structure Accounted (settings : Settings) (limit : String → Int) (router : Router D) : Prop where
  /-- The entries. -/
  tended : Tended settings limit router.states
  /-- The counts. -/
  counted : ∀ url, inflight url router.states = router.leases.countP (·.url = url)
  /-- The endpoints that callers have asked for have an address. -/
  pinned : ∀ entry ∈ router.pinned, entry.2.url ≠ ""
  /-- So have those of the round. -/
  round : ∀ round, router.round = some round → ∀ entry ∈ round.pinned, entry.2.url ≠ ""

variable {router next : Router D}

omit [Double D] in
/-- A change that leaves the entries, the leases and the endpoints. -/
theorem Accounted.same (accounted : Accounted settings limit router)
    (states : next.states = router.states) (leases : next.leases = router.leases)
    (pinned : next.pinned = router.pinned) (round : next.round = router.round) :
    Accounted settings limit next where
  tended := by
    rw [states]
    exact accounted.tended
  counted := by
    rw [states, leases]
    exact accounted.counted
  pinned := by
    rw [pinned]
    exact accounted.pinned
  round := by
    rw [round]
    exact accounted.round

omit [Double D] in
/-- A change of the entries that keeps the counts. -/
theorem Accounted.retended (accounted : Accounted settings limit router)
    (tended : Tended settings limit next.states)
    (counts : ∀ url, inflight url next.states = inflight url router.states)
    (leases : next.leases = router.leases) (pinned : next.pinned = router.pinned)
    (round : next.round = router.round) : Accounted settings limit next where
  tended := tended
  counted url := by
    rw [counts, leases]
    exact accounted.counted url
  pinned := by
    rw [pinned]
    exact accounted.pinned
  round := by
    rw [round]
    exact accounted.round

omit [Double D] in
/-- A caller takes no lease or one. -/
def Took (router next : Router D) : Prop :=
  next.leases = router.leases ∨ ∃ lease, next.leases = router.leases ++ [lease]

omit [Double D] in
/-- A caller that finds no endpoint takes no lease. -/
theorem Accounted.giveUp (accounted : Accounted settings limit router) (index : Nat)
    (request : Request) (deadline : Int) (logged available : Bool) (now : Int) :
    Accounted settings limit (router.giveUp index request deadline logged available now) ∧
      Took router (router.giveUp index request deadline logged available now) := by
  unfold Router.giveUp
  split
  · exact ⟨accounted.same rfl rfl rfl rfl, .inl rfl⟩
  · exact ⟨accounted.same rfl rfl rfl rfl, .inl rfl⟩

/-- A caller that finds an endpoint with room takes a lease on it. -/
theorem Accounted.attempt (accounted : Accounted settings limit router) (index : Nat)
    (request : Request) (deadline : Int) (logged : Bool) (clock : Clock) (now : Int) :
    Accounted settings limit (router.attempt settings index request deadline logged clock now) ∧
      Took router (router.attempt settings index request deadline logged clock now) := by
  have tended := accounted.tended.refillAll clock
  have counts : ∀ url, inflight url (refillAll settings clock router.states) =
      inflight url router.states := inflight_refillAll clock
  unfold Router.attempt
  dsimp only
  split
  · rename_i key s chosen
    obtain ⟨inside, room⟩ := select_room chosen
    have found := tended.sorted.mem_iff.mp inside
    have own := tended.own key s found
    have capped := tended.capped key s found
    have before := counts key
    rw [inflight_of_lookup found] at before
    refine ⟨⟨?_, fun url => ?_, accounted.pinned, accounted.round⟩, .inr ⟨_, rfl⟩⟩
    · refine tended.assign own ⟨capped.1, ?_⟩
      show s.inflight + 1 ≤ limit key
      have room : s.inflight < cap settings s.ep := room
      have limited := capped.1
      omega
    · show inflight url (Assoc.assign key _ (refillAll settings clock router.states)) = _
      rw [inflight_assign, List.countP_append, Int.natCast_add, ← accounted.counted url]
      by_cases same : url = key
      · subst same
        simp [own.1, before]
      · have apart : s.ep.url ≠ url := fun equal => same (equal.symm.trans own.1)
        simp [same, apart, counts]
  · rename_i missing
    split
    · exact ⟨accounted.retended tended counts rfl rfl rfl, .inl rfl⟩
    · have decided : Accounted settings limit { router with
          states := refillAll settings clock router.states
          decisions := Assoc.assign request.role
            (if request.batch then
              "waiting: busy/backoff/capacity/token budget or model unavailable"
            else "unavailable: model/capacity/token budget") router.decisions } :=
        accounted.retended tended counts rfl rfl rfl
      exact decided.giveUp index request deadline logged _ now

/-- A caller that has the lock. -/
theorem Accounted.proceed (accounted : Accounted settings limit router) (index : Nat)
    (request : Request) (clock : Clock) (started now : Int) (phase : Phase) :
    Accounted settings limit (router.proceed settings index request clock started now phase) ∧
      Took router (router.proceed settings index request clock started now phase) := by
  have begins : Accounted settings limit
      (router.begin settings index request clock started now) ∧
      Took router (router.begin settings index request clock started now) := by
    have asked : Accounted settings limit { router with
        roleModels := Assoc.assign request.role request.model router.roleModels } :=
      accounted.same rfl rfl rfl rfl
    exact asked.attempt index request _ false clock now
  have pin : Accounted settings limit (router.pin settings index request clock started now) ∧
      Took router (router.pin settings index request clock started now) := by
    unfold Router.pin
    split
    · rename_i unknown
      have filled : request.pinned ≠ "" := by
        have first := (Bool.and_eq_true_iff.mp unknown).1
        exact of_decide_eq_true first
      refine ⟨⟨accounted.tended, accounted.counted, fun entry inside => ?_, accounted.round⟩,
        .inl rfl⟩
      cases Assoc.mem_assign inside with
      | inl added =>
        rw [added]
        exact filled
      | inr before => exact accounted.pinned entry before
    · exact begins
  cases phase with
  | enter =>
    show Accounted settings limit (router.enter settings index request clock started now) ∧
      Took router (router.enter settings index request clock started now)
    unfold Router.enter
    split
    · exact ⟨accounted.same rfl rfl rfl rfl, .inl rfl⟩
    · exact pin
  | pin => exact pin
  | start => exact begins
  | wait deadline logged => exact accounted.attempt index request deadline logged clock now
  | logged deadline available => exact accounted.giveUp index request deadline true available now

omit [Double D] in
/-- An endpoint with a lease has an entry. -/
theorem Accounted.present (accounted : Accounted settings limit router) {lease : EndpointLease}
    (outstanding : lease ∈ router.leases) :
    ∃ s, Assoc.lookup lease.url router.states = some s := by
  have positive : 0 < router.leases.countP (·.url = lease.url) :=
    List.countP_pos_iff.mpr ⟨lease, outstanding, decide_eq_true rfl⟩
  have counted := accounted.counted lease.url
  cases found : Assoc.lookup lease.url router.states with
  | some s => exact ⟨s, rfl⟩
  | none =>
    have absent : inflight lease.url router.states = 0 := by rw [inflight, found]
    omega

omit [Double D] in
/-- The leases on an address without one of them. -/
theorem countP_eraseIdx {index : Nat} {leases : List EndpointLease} {lease : EndpointLease}
    (found : leases[index]? = some lease) (url : String) :
    (leases.countP (·.url = url) : Int) =
      (leases.eraseIdx index).countP (·.url = url) + if url = lease.url then 1 else 0 := by
  rw [(perm_eraseIdx found).countP_eq, List.countP_cons]
  by_cases same : lease.url = url
  · simp [same]
  · simp [same, Ne.symm same]

/-- A lease is given back to its endpoint. -/
theorem Accounted.release (accounted : Accounted settings limit router) {index : Nat}
    {lease : EndpointLease} (found : router.leases[index]? = some lease) (used now : Int) :
    Accounted settings limit
      { router.release settings lease.url lease.reserved used now with
        leases := router.leases.eraseIdx index } := by
  obtain ⟨s, there⟩ := accounted.present (List.mem_of_getElem? found)
  have own := accounted.tended.own _ s there
  have capped := accounted.tended.capped _ s there
  have erased := countP_eraseIdx found
  have before := accounted.counted lease.url
  rw [inflight_of_lookup there, erased, if_pos rfl] at before
  have released : router.release settings lease.url lease.reserved used now =
      { router with
        states := Assoc.assign lease.url (giveBack settings lease.reserved used now s)
          router.states } := by
    simp only [Router.release, there]
  have count : (giveBack settings lease.reserved used now s).inflight = max 0 (s.inflight - 1) :=
    rfl
  rw [released]
  refine ⟨?_, fun url => ?_, accounted.pinned, accounted.round⟩
  · refine accounted.tended.assign own ⟨capped.1, ?_⟩
    rw [count]
    omega
  · show inflight url (Assoc.assign lease.url _ router.states) =
      ((router.leases.eraseIdx index).countP (·.url = url) : Int)
    have counted := accounted.counted url
    rw [erased] at counted
    rw [inflight_assign]
    split
    · rename_i same
      rw [same, count]
      omega
    · rename_i apart
      rw [if_neg apart] at counted
      omega

omit [Double D] in
/-- An endpoint that has failed. -/
theorem Accounted.failed (accounted : Accounted settings limit router) (url : String) (now : Int) :
    Accounted settings limit (router.failed url now) := by
  unfold Router.failed
  split
  · exact accounted.same rfl rfl rfl rfl
  · rename_i s found
    have own := accounted.tended.own _ s found
    have capped := accounted.tended.capped _ s found
    refine accounted.retended (accounted.tended.assign own capped) (fun other => ?_) rfl rfl rfl
    rw [inflight_assign]
    split
    · rename_i same
      rw [same, inflight_of_lookup found]
    · rfl

omit [Double D] in
/-- The endpoints of a round are declared, or a caller has asked for them. -/
theorem mem_endpoints {declared : List (LlmEndpoint D)} {pinned : List (String × LlmEndpoint D)}
    {ep : LlmEndpoint D} (inside : ep ∈ endpoints declared pinned) :
    ep ∈ declared ∨ ∃ entry ∈ pinned, entry.2 = ep := by
  unfold endpoints at inside
  induction pinned generalizing declared with
  | nil => exact .inl inside
  | cons entry rest ih =>
    rw [List.foldl_cons] at inside
    cases ih inside with
    | inl early =>
      split at early
      · cases List.mem_append.mp early with
        | inl before => exact .inl before
        | inr last => exact .inr ⟨entry, List.mem_cons_self, (List.mem_singleton.mp last).symm⟩
      · exact .inl early
    | inr later =>
      obtain ⟨other, there, same⟩ := later
      exact .inr ⟨other, List.mem_cons_of_mem _ there, same⟩

/-- The end of a round whose endpoints have the limits of their addresses. -/
theorem Accounted.endRound (accounted : Accounted settings limit router) {round : Round D}
    (own : router.round = some round) (found : List (LlmEndpoint D × Bool))
    (constant : ∀ ep ∈ endpoints (declaredEndpoints found) round.pinned,
      cap settings ep = limit ep.url) (answer : String → Answer D) (clock : Clock) :
    Accounted settings limit (router.endRound settings round found answer clock) := by
  have named : ∀ ep ∈ endpoints (declaredEndpoints found) round.pinned, ep.url ≠ "" := by
    intro ep inside
    cases mem_endpoints inside with
    | inl declared => exact declaredEndpoints_url found ep declared
    | inr pinned =>
      obtain ⟨entry, there, same⟩ := pinned
      rw [← same]
      exact accounted.round round own entry there
  have merged := accounted.tended.mergeResults round clock
    ((endpoints (declaredEndpoints found) round.pinned).map fun ep =>
      probeEndpoint settings round (answer ep.url) ep) ?_ ?_
  · refine ⟨merged.1, fun url => ?_, accounted.pinned, nofun⟩
    exact (merged.2 url).trans (accounted.counted url)
  · intro result inside
    obtain ⟨ep, there, rfl⟩ := List.mem_map.mp inside
    rw [(probeEndpoint_ep round _ ep).1]
    exact named ep there
  · intro result inside
    obtain ⟨ep, there, rfl⟩ := List.mem_map.mp inside
    obtain ⟨url, same⟩ := @probeEndpoint_ep D settings round (answer ep.url) ep
    rw [url, same]
    exact constant ep there

/-! ## Runs -/

/-- Every round finds endpoints with the limits of their addresses. -/
def Constant (settings : Settings) (limit : String → Int) (router : Router D) : Action D → Prop
  | .endRound found _ _ => ∀ round, router.round = some round →
    ∀ ep ∈ endpoints (declaredEndpoints found) round.pinned, cap settings ep = limit ep.url
  | _ => True

omit [Double D] in
/-- There are no entries. -/
theorem tended_nil : Tended settings limit ([] : States D) where
  sorted := List.Pairwise.nil
  own _ _ found := by cases found
  capped _ _ found := by cases found

omit [Double D] in
/-- A router that has just started has no leases. -/
theorem accounted_initial : Accounted settings limit (Router.initial : Router D) where
  tended := tended_nil
  counted _ := rfl
  pinned _ inside := absurd inside List.not_mem_nil
  round := nofun

/-- A step keeps the accounts. -/
theorem Accounted.step (accounted : Accounted settings limit router) {action : Action D}
    (constant : Constant settings limit router action)
    (taken : (machine settings).step router action = some next) :
    Accounted settings limit next := by
  cases action with
  | acquire request =>
    rw [← Option.some.inj taken]
    exact accounted.same rfl rfl rfl rfl
  | proceed index clock started now =>
    simp only [machine] at taken
    split at taken
    · rw [← Option.some.inj taken]
      exact (accounted.proceed index _ clock started now _).1
    · contradiction
  | release index used now =>
    simp only [machine] at taken
    split at taken
    · rename_i lease found
      obtain ⟨s, there⟩ := accounted.present (List.mem_of_getElem? found)
      rw [if_pos (accounted.tended.own _ s there).2, Option.some.injEq] at taken
      rw [← taken]
      exact accounted.release found used now
    · contradiction
  | failed url now =>
    rw [← Option.some.inj taken]
    exact accounted.failed url now
  | force =>
    rw [← Option.some.inj taken]
    exact accounted.same rfl rfl rfl rfl
  | choose role model clock =>
    rw [← Option.some.inj taken]
    exact accounted.retended (accounted.tended.refillAll clock)
      (inflight_refillAll clock) rfl rfl rfl
  | beginRound started =>
    simp only [machine] at taken
    split at taken
    · split at taken
      · contradiction
      · rw [← Option.some.inj taken]
        refine ⟨accounted.tended, accounted.counted, accounted.pinned, ?_⟩
        intro round own
        rw [← Option.some.inj own]
        exact accounted.pinned
    · contradiction
  | endRound found answer clock =>
    simp only [machine] at taken
    split at taken
    · rename_i round own
      rw [← Option.some.inj taken]
      exact accounted.endRound own found (constant round own) answer clock
    · contradiction
  | stop =>
    rw [← Option.some.inj taken]
    exact accounted.same rfl rfl rfl rfl

/-- What the callers of a router rely on. -/
structure LeaseAccounts (settings : Settings) (limit : String → Int) (router : Router D) :
    Prop where
  /-- The count of an endpoint is that of its leases and is not above its limit. -/
  counted : ∀ url s, Assoc.lookup url router.states = some s →
    s.inflight = router.leases.countP (·.url = url) ∧ s.inflight ≤ cap settings s.ep
  /-- An endpoint with a lease has an entry. -/
  present : ∀ lease ∈ router.leases, ∃ s, Assoc.lookup lease.url router.states = some s
  /-- No step but a release takes a lease away, and a new lease counts for its endpoint. -/
  acquired : ∀ action next, Constant settings limit router action →
    (machine settings).step router action = some next →
    (∀ index used now, action ≠ .release index used now) →
    (next.leases = router.leases ∧
      ∀ url, inflight url next.states = inflight url router.states) ∨
    ∃ lease, next.leases = router.leases ++ [lease] ∧ ∀ url, inflight url next.states =
      inflight url router.states + if url = lease.url then 1 else 0
  /-- The release of a lease counts for its endpoint and no other. -/
  released : ∀ index lease used now next, router.leases[index]? = some lease →
    (machine settings).step router (.release index used now) = some next →
    next.leases = router.leases.eraseIdx index ∧ ∀ url, inflight url router.states =
      inflight url next.states + if url = lease.url then 1 else 0

/-- A step that is no release takes no lease or one. -/
theorem step_took {action : Action D}
    (accounted : Accounted settings limit router)
    (taken : (machine settings).step router action = some next)
    (other : ∀ index used now, action ≠ .release index used now) : Took router next := by
  cases action with
  | proceed index clock started now =>
    simp only [machine] at taken
    split at taken
    · rw [← Option.some.inj taken]
      exact (accounted.proceed index _ clock started now _).2
    · contradiction
  | release index used now => exact absurd rfl (other index used now)
  | failed url now =>
    rw [← Option.some.inj taken]
    refine .inl ?_
    show (router.failed url now).leases = router.leases
    unfold Router.failed
    split <;> rfl
  | beginRound started =>
    simp only [machine] at taken
    split at taken
    · split at taken
      · contradiction
      · rw [← Option.some.inj taken]
        exact .inl rfl
    · contradiction
  | endRound found answer clock =>
    simp only [machine] at taken
    split at taken
    · rw [← Option.some.inj taken]
      exact .inl rfl
    · contradiction
  | acquire request =>
    rw [← Option.some.inj taken]
    exact .inl rfl
  | force =>
    rw [← Option.some.inj taken]
    exact .inl rfl
  | choose role model clock =>
    rw [← Option.some.inj taken]
    exact .inl rfl
  | stop =>
    rw [← Option.some.inj taken]
    exact .inl rfl

/-- As long as the limits of endpoints stay, the router counts their leases and keeps the limits. -/
theorem leases_accounted
    (reached : (machine settings).Reaches (Constant settings limit) router) :
    LeaseAccounts settings limit router := by
  have accounted : Accounted settings limit router :=
    reached.invariant accounted_initial fun _ _ _ accounted constant taken =>
      accounted.step constant taken
  refine ⟨?_, fun lease inside => accounted.present inside, ?_, ?_⟩
  · intro url s found
    have counted := accounted.counted url
    have capped := accounted.tended.capped url s found
    rw [inflight_of_lookup found] at counted
    exact ⟨counted, capped.1 ▸ capped.2⟩
  · intro action next constant taken other
    have later := accounted.step constant taken
    refine (step_took accounted taken other).imp (fun same => ⟨same, fun url => ?_⟩) ?_
    · rw [later.counted, accounted.counted, same]
    · rintro ⟨lease, added⟩
      refine ⟨lease, added, fun url => ?_⟩
      rw [later.counted, accounted.counted, added, List.countP_append, Int.natCast_add]
      by_cases same : lease.url = url
      · simp [same]
      · simp [same, Ne.symm same]
  · intro index lease used now next found taken
    have constant : Constant settings limit router (.release index used now : Action D) := trivial
    have later := accounted.step constant taken
    have erased : next.leases = router.leases.eraseIdx index := by
      simp only [machine, found, Option.some.injEq] at taken
      rw [← taken]
    refine ⟨erased, fun url => ?_⟩
    rw [later.counted, accounted.counted, erased]
    exact countP_eraseIdx found url

/-! ## One endpoint and two callers -/

/-- Doubles without rounding. -/
instance : Double Rat where
  decLt := inferInstance
  decLe := inferInstance

/-- The server on this host. -/
def localServer : LlmEndpoint Rat :=
  { LlmEndpoint.bare "http://localhost:11434" with label := "http://localhost:11434" }

/-- It answers with a model. -/
def answering (_url : String) : Answer Rat where
  reachable := true
  models := ["m"]
  latencyMs := 5
  load :=
    { ok := true, timedOut := false, latency := 40, running := 0, waiting := 0, gpu := 0
      mode := "models" }

/-- A call that does not wait. -/
def hint : Request where
  role := "hint"
  model := "m"
  batch := false
  tokens := 100
  waitSeconds := 0
  pinned := ""
  log := false

/-- A round finds the server. -/
def oneServer : List (Action Rat) :=
  [.beginRound 0, .endRound [(.bare "http://localhost:11434/", false)] answering fun _ _ => 0]

/-- Two callers ask for it. -/
def twoCallers : List (Action Rat) :=
  [.acquire hint, .acquire hint, .proceed 0 (fun _ _ => 0) 0 0, .proceed 0 (fun _ _ => 0) 0 0]

/-- The server has room for one of them. -/
theorem leases_accounted_two : ∃ router : Router Rat,
    (machine fun _ => none).run Router.initial (oneServer ++ twoCallers) = some router ∧
      router.leases.map (·.url) = ["http://localhost:11434"] ∧ router.denied.length = 1 ∧
      LeaseAccounts (fun _ => none) (fun _ => 1) router := by
  have begun : (machine fun _ => none).Reaches (Constant (fun _ => none) fun _ => 1)
      ((Router.initial : Router Rat).beginRound 0) := .step (.beginRound 0) .initial trivial rfl
  have constant : Constant (fun _ => none) (fun _ => 1)
      ((Router.initial : Router Rat).beginRound 0)
      (.endRound [(.bare "http://localhost:11434/", false)] answering fun _ _ => 0) := by
    intro round own ep inside
    have found : endpoints (declaredEndpoints [(.bare "http://localhost:11434/", false)])
        round.pinned = [localServer] := by
      rw [← Option.some.inj own]
      rfl
    rw [found, List.mem_singleton] at inside
    rw [inside]
    rfl
  have ended := begun.step _ constant rfl
  have evaluated : ((machine fun _ => none).run Router.initial (oneServer ++ twoCallers)).map
      (fun router => (router.leases.map (·.url), router.denied.length)) =
      some (["http://localhost:11434"], 1) := by decide +kernel
  obtain ⟨router, replayed, same⟩ := Option.map_eq_some_iff.mp evaluated
  obtain ⟨leases, denied⟩ := Prod.mk.inj same
  refine ⟨router, replayed, leases, denied, leases_accounted ?_⟩
  refine ended.of_run_always twoCallers ?_ replayed
  simp only [twoCallers, List.forall_mem_cons]
  exact ⟨fun _ => trivial, fun _ => trivial, fun _ => trivial, fun _ => trivial, nofun⟩

end Chitta.EndpointRouter
