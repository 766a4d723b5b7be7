import Mathlib.Tactic.ByContra
import Chitta.Daemon.Survival

/-!
# The order of embedding writes

Embedding writes that the write pool refuses wait, and the loop tries the oldest of them again
before it polls. A write that comes meanwhile is submitted at once: when the pool has room again by
then it goes before those that wait.
-/
namespace Chitta.Daemon

/-- Whether a message is an embedding write. -/
def State.writes (library : Library) (config : Config) (request : ClientRequest) : Bool :=
  match route library request.peerPid request.data with
  | .ok (.tool _ name) => config.writePool && embeddingWrite name
  | _ => false

/-- The write that the write pool accepts in a step. -/
def admitted (library : Library) (config : Config) (state : State) : Action → Option ClientRequest
  | .submitWaiting =>
    match state.phase, state.waitingWrites with
    | .admitting, request :: _ => some request
    | _, _ => none
  | .dispatch outcome =>
    match state.phase, state.requests with
    | .dispatching, request :: _ =>
      if State.writes library config request && outcome.accepts then some request else none
    | _, _ => none
  | _ => none

/-- The writes that the write pool accepts in a run, in their order. -/
def admissions (library : Library) (config : Config) : State → List Action → List ClientRequest
  | _, [] => []
  | state, action :: rest =>
    match (machine library config).step state action with
    | none => []
    | some next =>
        (admitted library config state action).toList ++ admissions library config next rest

/-- No write is accepted while an earlier one waits. -/
def NotOvertaken (library : Library) (config : Config) : State → List Action → Prop
  | _, [] => True
  | state, action :: rest =>
    ∀ next, (machine library config).step state action = some next →
      (∀ request, admitted library config state action = some request →
        ∀ waiting ∈ state.waitingWrites, request.number ≤ waiting.number) ∧
      NotOvertaken library config next rest

/-- The writes are accepted in the order in which they came, and none that waits is overtaken. -/
structure InOrder (library : Library) (config : Config) (actions : List Action) : Prop where
  /-- The order of those that are accepted. -/
  sorted : (admissions library config .initial actions).Pairwise
    fun earlier later => earlier.number < later.number
  /-- Those that wait. -/
  notOvertaken : NotOvertaken library config .initial actions

/-- The pool refuses every new write that comes while another one waits. -/
def RefusesBehind (library : Library) (config : Config) : State → List Action → Prop
  | _, [] => True
  | state, action :: rest =>
    ∀ next, (machine library config).step state action = some next →
      (∀ outcome request others, action = .dispatch outcome → state.phase = .dispatching →
        state.requests = request :: others → State.writes library config request = true →
        state.waitingWrites ≠ [] → outcome.accepts = false) ∧
      RefusesBehind library config next rest

/-! ## The numbers of the requests -/

variable {library : Library} {config : Config} {state next : State} {action : Action}

/-- The messages that wait or are to be dispatched. -/
def State.ahead (state : State) : List Nat :=
  (state.waitingWrites ++ state.requests).map (·.number)

/-- They are numbered in the order in which they came, from a number on. -/
structure Queued (low : Nat) (state : State) : Prop where
  /-- The order. -/
  sorted : state.ahead.Pairwise (· < ·)
  /-- The numbers that were given. -/
  given : ∀ number ∈ state.ahead, number < state.nextRequest
  /-- Where they begin. -/
  from_ : ∀ number ∈ state.ahead, low ≤ number
  /-- The number that is given next. -/
  next : low ≤ state.nextRequest

/-- At the beginning nothing waits. -/
theorem queued_initial : Queued 0 .initial :=
  ⟨List.Pairwise.nil, by simp [State.ahead, State.initial], by simp [State.ahead, State.initial],
    Nat.zero_le _⟩

/-- Fewer messages with the same numbers. -/
theorem Queued.sublist {low : Nat} (queued : Queued low state)
    (fewer : next.ahead.Sublist state.ahead) (same : next.nextRequest = state.nextRequest) :
    Queued low next where
  sorted := queued.sorted.sublist fewer
  given number inside := same ▸ queued.given number (fewer.subset inside)
  from_ number inside := queued.from_ number (fewer.subset inside)
  next := same ▸ queued.next

/-- The numbers of the messages of a poll. -/
theorem extracted_numbers (state : State) : state.extracted.map (·.number) =
    List.range' state.nextRequest (State.received state.connections).length := by
  rw [← List.zipIdx_map_snd, State.extracted, List.map_map]
  rfl

variable (library config) in
/-- A message that is dispatched waits, or it is ahead no more. -/
theorem dispatch_ahead (state : State) (request : ClientRequest) (outcome : Outcome) :
    let after := state.dispatch library config request outcome
    after.requests = state.requests ∧ after.nextRequest = state.nextRequest ∧
      (after.waitingWrites = state.waitingWrites ∨
        after.waitingWrites = state.waitingWrites ++ [request]) := by
  simp only [State.dispatch]
  split
  · exact ⟨rfl, rfl, .inl rfl⟩
  · exact ⟨rfl, rfl, .inl rfl⟩
  · exact ⟨rfl, rfl, .inl rfl⟩
  · exact ⟨rfl, rfl, .inl rfl⟩
  · exact ⟨rfl, rfl, .inl rfl⟩
  · split <;> exact ⟨rfl, rfl, .inl rfl⟩
  · split
    · exact ⟨rfl, rfl, .inl rfl⟩
    · split <;> exact ⟨rfl, rfl, .inl rfl⟩
  · split
    · exact ⟨rfl, rfl, .inl rfl⟩
    · split <;> exact ⟨rfl, rfl, .inl rfl⟩
  · split
    · split
      · exact ⟨rfl, rfl, .inl rfl⟩
      · split
        · exact ⟨rfl, rfl, .inr rfl⟩
        · exact ⟨rfl, rfl, .inl rfl⟩
    · split <;> exact ⟨rfl, rfl, .inl rfl⟩

/-- What a step does to the messages that wait or are to be dispatched. -/
inductive Ahead (state next : State) : Prop where
  /-- Some of them are ahead no more. -/
  | leaves (fewer : next.ahead.Sublist state.ahead) (same : next.nextRequest = state.nextRequest)
  /-- New ones come behind those that wait. -/
  | comes (count : Nat)
      (more : next.ahead = state.waitingWrites.map (·.number) ++
        List.range' state.nextRequest count)
      (given : next.nextRequest = state.nextRequest + count)

/-- Nothing changes. -/
theorem Ahead.same (waiting : next.waitingWrites = state.waitingWrites)
    (requests : next.requests = state.requests) (given : next.nextRequest = state.nextRequest) :
    Ahead state next := by
  have same : next.ahead = state.ahead := by rw [State.ahead, State.ahead, waiting, requests]
  exact .leaves (same ▸ List.Sublist.refl _) given

/-- A step of the loop. -/
theorem LoopStep.ahead (step : LoopStep library config state action next) :
    Ahead state next := by
  cases step with
  | submitWaiting _ waiting =>
    refine .leaves ?_ rfl
    simp [State.ahead, State.submit, waiting]
  | expire _ waiting =>
    refine .leaves ?_ rfl
    simp [State.ahead, State.queue, waiting]
  | idle _ =>
    refine .leaves ?_ rfl
    simp [State.ahead]
  | poll _ => exact .same rfl rfl rfl
  | accept _ _ =>
    unfold State.accept
    split <;> exact .same rfl rfl rfl
  | accepted _ => exact .same rfl rfl rfl
  | serve _ _ _ => exact .same rfl rfl rfl
  | finishPoll _ _ =>
    refine .comes _ ?_ rfl
    rw [← extracted_numbers, State.ahead, List.map_append]
    rfl
  | @dispatch outcome request rest _ requests =>
    obtain ⟨left, given, waiting⟩ := dispatch_ahead library config { state with requests := rest }
      request outcome
    refine .leaves ?_ given
    rw [State.ahead, State.ahead, left, requests]
    rcases waiting with same | behind
    · rw [same]
      simp
    · rw [behind]
      simp
  | drain _ _ => exact .same rfl rfl rfl

/-- A step of the daemon. -/
theorem step_ahead (taken : (machine library config).step state action = some next) :
    Ahead state next := by
  cases (step_cases taken).2 with
  | @complete index job tools counts what found =>
    cases job.kind <;> exact .same rfl rfl rfl
  | event sadhana line => exact .same rfl rfl rfl
  | push found => exact .same rfl rfl rfl
  | loop step => exact step.ahead

/-- A step keeps the order of the numbers. -/
theorem Queued.step {low : Nat} (queued : Queued low state)
    (taken : (machine library config).step state action = some next) : Queued low next := by
  cases step_ahead taken with
  | leaves fewer same => exact queued.sublist fewer same
  | comes count more given =>
    have waiting : ∀ number ∈ state.waitingWrites.map (·.number), number ∈ state.ahead := by
      intro number inside
      rw [State.ahead, List.map_append]
      exact List.mem_append_left _ inside
    have sorted := queued.sorted
    rw [State.ahead, List.map_append] at sorted
    have first := queued.next
    constructor
    · rw [more, List.pairwise_append]
      refine ⟨(List.pairwise_append.mp sorted).1, List.pairwise_lt_range', ?_⟩
      intro earlier inside later new
      have before := queued.given earlier (waiting earlier inside)
      have after := (List.mem_range'_1.mp new).1
      omega
    · intro number inside
      rw [more] at inside
      rcases List.mem_append.mp inside with old | new
      · have before := queued.given number (waiting number old)
        omega
      · have range := List.mem_range'_1.mp new
        omega
    · intro number inside
      rw [more] at inside
      rcases List.mem_append.mp inside with old | new
      · exact queued.from_ number (waiting number old)
      · have range := List.mem_range'_1.mp new
        omega
    · omega

/-! ## Admission -/

/-- An embedding write that the pool accepts is submitted. -/
theorem dispatch_accepted (state : State) {request : ClientRequest} {outcome : Outcome}
    (write : State.writes library config request = true) (accepts : outcome.accepts = true) :
    state.dispatch library config request outcome = state.submit request false .plain := by
  simp only [State.writes] at write
  split at write
  · rename_i id name routed
    simp only [State.dispatch, routed, write, accepts, if_true]
  · contradiction

/-- A write that is accepted before all others that are ahead. -/
theorem admitted_ahead {request : ClientRequest}
    (accepted : admitted library config state action = some request)
    (alone : action ≠ .submitWaiting → state.waitingWrites = [])
    (taken : (machine library config).step state action = some next) :
    state.ahead = request.number :: next.ahead ∧ next.nextRequest = state.nextRequest := by
  simp only [machine] at taken
  split at taken
  · contradiction
  · cases action with
    | submitWaiting =>
      simp only [admitted] at accepted
      split at accepted
      · rename_i first rest phase waiting
        obtain rfl := Option.some.inj accepted
        simp only [loopStep, phase, waiting] at taken
        obtain rfl := Option.some.inj taken
        simp [State.ahead, State.submit, waiting]
      · contradiction
    | dispatch outcome =>
      have waiting := alone (by simp)
      simp only [admitted] at accepted
      split at accepted
      · rename_i first rest phase requests
        obtain ⟨own, same⟩ := Option.ite_none_right_eq_some.mp accepted
        obtain rfl := Option.some.inj same
        obtain ⟨write, accepts⟩ := Bool.and_eq_true_iff.mp own
        simp only [loopStep, phase, requests] at taken
        obtain rfl := Option.some.inj taken
        rw [dispatch_accepted _ write accepts]
        simp [State.ahead, State.submit, waiting, requests]
      · contradiction
    | _ => simp [admitted] at accepted

/-- What is ahead of an accepted write has greater numbers. -/
theorem Queued.admit {low : Nat} {request : ClientRequest} (queued : Queued low state)
    (accepted : admitted library config state action = some request)
    (alone : action ≠ .submitWaiting → state.waitingWrites = [])
    (taken : (machine library config).step state action = some next) :
    low ≤ request.number ∧ Queued (request.number + 1) next := by
  obtain ⟨ahead, same⟩ := admitted_ahead accepted alone taken
  have inside : request.number ∈ state.ahead := by
    rw [ahead]
    exact List.mem_cons_self
  have sorted := queued.sorted
  rw [ahead] at sorted
  obtain ⟨least, rest⟩ := List.pairwise_cons.mp sorted
  have later : ∀ number ∈ next.ahead, number ∈ state.ahead := by
    intro number there
    rw [ahead]
    exact List.mem_cons_of_mem _ there
  refine ⟨queued.from_ _ inside, rest, ?_, ?_, ?_⟩
  · intro number there
    rw [same]
    exact queued.given number (later number there)
  · intro number there
    exact least number there
  · rw [same]
    exact queued.given _ inside

/-- A write that is accepted while none waits, or as the first of those that wait, overtakes
nothing. -/
theorem Queued.overtakes_none {low : Nat} {request : ClientRequest} (queued : Queued low state)
    (accepted : admitted library config state action = some request)
    (alone : action ≠ .submitWaiting → state.waitingWrites = []) :
    ∀ waiting ∈ state.waitingWrites, request.number ≤ waiting.number := by
  by_cases retry : action = .submitWaiting
  · subst retry
    simp only [admitted] at accepted
    split at accepted
    · rename_i first rest phase writes
      obtain rfl := Option.some.inj accepted
      have sorted := queued.sorted
      rw [State.ahead, writes, List.cons_append, List.map_cons] at sorted
      intro waiting inside
      rw [writes] at inside
      rcases List.mem_cons.mp inside with rfl | later
      · exact Nat.le_refl _
      · have behind := (List.pairwise_cons.mp sorted).1 waiting.number
          (List.mem_map_of_mem (List.mem_append_left _ later))
        omega
    · contradiction
  · rw [alone retry]
    simp

/-- The pool refuses what comes behind a waiting write: no direct write is accepted while one
waits. -/
theorem alone_of_refuses {actions : List Action} {request : ClientRequest}
    (refuses : RefusesBehind library config state (action :: actions))
    (taken : (machine library config).step state action = some next)
    (accepted : admitted library config state action = some request)
    (direct : action ≠ .submitWaiting) : state.waitingWrites = [] := by
  cases action with
  | submitWaiting => contradiction
  | dispatch outcome =>
    simp only [admitted] at accepted
    split at accepted
    · rename_i first rest phase requests
      obtain ⟨own, _⟩ := Option.ite_none_right_eq_some.mp accepted
      obtain ⟨write, accepts⟩ := Bool.and_eq_true_iff.mp own
      by_contra waits
      have refused := (refuses next taken).1 outcome first rest rfl phase requests write waits
      rw [refused] at accepts
      contradiction
    · contradiction
  | _ => simp [admitted] at accepted

/-- A pool that refuses what comes behind a waiting write accepts the writes in order. -/
theorem ordered_of_refuses {low : Nat} {actions : List Action} (queued : Queued low state)
    (refuses : RefusesBehind library config state actions) :
    ((admissions library config state actions).Pairwise
        fun earlier later => earlier.number < later.number) ∧
      (∀ request ∈ admissions library config state actions, low ≤ request.number) ∧
      NotOvertaken library config state actions := by
  induction actions generalizing low state with
  | nil => exact ⟨List.Pairwise.nil, by simp [admissions], trivial⟩
  | cons action rest ih =>
    rw [admissions, NotOvertaken]
    cases taken : (machine library config).step state action with
    | none => exact ⟨List.Pairwise.nil, by simp, nofun⟩
    | some next =>
      have alone (request : ClientRequest)
          (accepted : admitted library config state action = some request) :
          action ≠ .submitWaiting → state.waitingWrites = [] :=
        alone_of_refuses refuses taken accepted
      cases accepted : admitted library config state action with
      | none =>
        obtain ⟨sorted, from_, behind⟩ := ih (queued.step taken) (refuses next taken).2
        refine ⟨by simpa using sorted, by simpa using from_, ?_⟩
        intro other same
        obtain rfl := Option.some.inj same
        exact ⟨nofun, behind⟩
      | some request =>
        obtain ⟨least, left⟩ := queued.admit accepted (alone request accepted) taken
        obtain ⟨sorted, from_, behind⟩ := ih left (refuses next taken).2
        refine ⟨?_, ?_, ?_⟩
        · simp only [Option.toList_some, List.singleton_append, List.pairwise_cons]
          refine ⟨fun later inside => ?_, sorted⟩
          have after := from_ later inside
          omega
        · intro other inside
          simp only [Option.toList_some, List.singleton_append, List.mem_cons] at inside
          rcases inside with rfl | later
          · exact least
          · have after := from_ other later
            omega
        · intro other same
          obtain rfl := Option.some.inj same
          refine ⟨fun given equal => ?_, behind⟩
          obtain rfl := Option.some.inj equal
          exact queued.overtakes_none accepted (alone request accepted)

/-- When no waiting write is overtaken, the pool refuses what comes behind one. -/
theorem refuses_of_notOvertaken {low : Nat} {actions : List Action} (queued : Queued low state)
    (behind : NotOvertaken library config state actions) :
    RefusesBehind library config state actions := by
  induction actions generalizing state with
  | nil => trivial
  | cons action rest ih =>
    intro next taken
    obtain ⟨first, later⟩ := behind next taken
    refine ⟨?_, ih (queued.step taken) later⟩
    intro outcome request others same phase requests write waits
    subst same
    by_contra accepts
    have accepted : admitted library config state (.dispatch outcome) = some request := by
      simp [admitted, phase, requests, write, accepts]
    obtain ⟨waiting, more, writes⟩ := List.exists_cons_of_ne_nil waits
    have before := first request accepted waiting (by rw [writes]; exact List.mem_cons_self)
    have sorted := queued.sorted
    rw [State.ahead, writes, requests, List.cons_append, List.map_cons] at sorted
    have after := (List.pairwise_cons.mp sorted).1 request.number
      (List.mem_map_of_mem (List.mem_append_right _ List.mem_cons_self))
    omega

/-- In a run of the daemon the write pool accepts the embedding writes in the order in which the
loop received them, and none that waits is overtaken, if and only if the pool refuses every
embedding write that is dispatched while another one waits. -/
theorem writes_in_order_iff (library : Library) (config : Config) (actions : List Action) :
    InOrder library config actions ↔ RefusesBehind library config .initial actions := by
  constructor
  · intro ordered
    exact refuses_of_notOvertaken queued_initial ordered.notOvertaken
  · intro refuses
    obtain ⟨sorted, _, behind⟩ := ordered_of_refuses queued_initial refuses
    exact ⟨sorted, behind⟩

/-! ## A write that is overtaken -/

/-- A write. -/
def rememberText : String := "\x7b\"id\":1,\"method\":\"remember\"\x7d"

/-- A library that reads it. -/
def rememberLibrary : Library where
  parse data :=
    if data = bytes rememberText then
      some (.object [("id", .int 1), ("method", .str "remember")])
    else none
  dump _ := bytes "null"

/-- A daemon with a pool for writes. -/
def twoPools : Config where
  writePool := true
  maxQueueDepth := 256

/-- What the pool answers. -/
def poolAnswer (accepts : Bool) : Outcome := ⟨accepts, [], none⟩

/-- A client sends a write that is refused and waits; the pool is still full when it is tried again,
and has room when the next write comes. -/
def overtaken : List Action :=
  sends (bytes rememberText) ++ [.dispatch (poolAnswer false), .drain,
    .poll, .accepted, .serve ⟨some (.data (bytes rememberText ++ [newline])), none, false⟩,
    .finishPoll, .dispatch (poolAnswer true), .drain, .submitWaiting]

/-- The second write is accepted before the first. -/
theorem write_overtakes :
    ¬ ∀ (library : Library) (config : Config) (actions : List Action),
      InOrder library config actions := by
  intro claim
  have sorted := (claim rememberLibrary twoPools overtaken).sorted
  revert sorted
  decide +kernel

end Chitta.Daemon
