import Chitta.Tally
import Chitta.Daemon.Loop

/-!
# The loop and the bytes of clients

A message that the loop can read is answered by the loop, given to a pool or kept as a waiting
write, and what a pool or the queue of waiting writes has of it is answered later, so every message
is in exactly one of these places or has been answered once. A message whose fields have other types
stops the loop, and with it the service of all clients.
-/
namespace Chitta.Daemon

variable {library : Library} {config : Config} {state next : State}

/-- How often a request is to be dispatched, waits, is with a pool or has been answered. -/
def State.placed (state : State) (number : Nat) : Nat :=
  tally (fun request => once number request.number) state.requests +
    tally (fun request => once number request.number) state.waitingWrites +
    tally (fun job => once number job.request.number) state.jobs +
    tally (once number) state.answers

/-- A message that can be read and does not shut the daemon down. -/
def Harmless (library : Library) (request : ClientRequest) : Prop :=
  Readable library request.peerPid request.data ∧ request.data ≠ bytes "shutdown"

/-- The loop dispatches such messages only. -/
def ReadsOnly (library : Library) (state : State) : Action → Prop
  | .dispatch _ => ∀ request, state.requests.head? = some request → Harmless library request
  | _ => True

/-! ## One message -/

/-- A request is placed once more. -/
def Places (request : ClientRequest) (state next : State) : Prop :=
  ∀ number, next.placed number = state.placed number + once number request.number

/-- By an answer. -/
theorem places_answer (state : State) (request : ClientRequest) (data : Bytes) :
    Places request state (state.answer request data) := by
  intro number
  simp only [State.placed, State.answer, tally_cons]
  omega

/-- By a queued answer. -/
theorem places_queue (state : State) (request : ClientRequest) (data : Bytes) :
    Places request state (state.queue request data) := by
  intro number
  simp only [State.placed, State.queue, tally_cons]
  omega

/-- By a task. -/
theorem places_submit (state : State) (request : ClientRequest) (counted : Bool) (kind : JobKind) :
    Places request state (state.submit request counted kind) := by
  intro number
  simp only [State.placed, State.submit, tally_append, tally_cons, tally_nil]
  omega

/-- By waiting. -/
theorem places_waiting (state : State) (request : ClientRequest) :
    Places request state { state with waitingWrites := state.waitingWrites ++ [request] } := by
  intro number
  simp only [State.placed, tally_append, tally_cons, tally_nil]
  omega

/-- The connections but that of a request stay as they are. -/
def KeepsOthers (request : ClientRequest) (state next : State) : Prop :=
  ∀ conn ∈ state.connections, conn.fd ≠ request.clientFd → conn ∈ next.connections

/-- What a message does when nothing is thrown. -/
structure Handled (request : ClientRequest) (state next : State) : Prop where
  /-- It is placed once. -/
  places : Places request state next
  /-- The loop goes on. -/
  stopped : next.stopped = state.stopped
  /-- So does the daemon. -/
  running : next.running = state.running
  /-- The loop is where it was. -/
  phase : next.phase = state.phase
  /-- The other messages are still to be dispatched. -/
  requests : next.requests = state.requests
  /-- No other message has been received. -/
  nextRequest : next.nextRequest = state.nextRequest
  /-- The other clients are left alone. -/
  others : KeepsOthers request state next

/-- An answer. -/
theorem handled_answer (state : State) (request : ClientRequest) (data : Bytes) :
    Handled request state (state.answer request data) where
  places := places_answer state request data
  stopped := rfl
  running := rfl
  phase := rfl
  requests := rfl
  nextRequest := rfl
  others _ inside other := mem_respond_other inside other

/-- A task. -/
theorem handled_submit (state : State) (request : ClientRequest) (counted : Bool)
    (kind : JobKind) : Handled request state (state.submit request counted kind) where
  places := places_submit state request counted kind
  stopped := rfl
  running := rfl
  phase := rfl
  requests := rfl
  nextRequest := rfl
  others _ inside _ := inside

/-- A message that can be read is handled. -/
theorem handled_dispatch (config : Config) (state : State) {request : ClientRequest}
    (harmless : Harmless library request) (outcome : Outcome) :
    Handled request state (state.dispatch library config request outcome) := by
  obtain ⟨way, read⟩ := (route_returns library request.peerPid request.data).mpr harmless.1
  have replied : ∀ id reply, Handled request state (state.reply library request id reply) :=
    fun id reply => handled_answer state request _
  unfold State.dispatch
  rw [read]
  cases way with
  | stats => exact handled_answer state request outcome.stats
  | shutdown => exact absurd (route_shutdown read) harmless.2
  | unparsed => exact handled_answer state request _
  | watch id sadhana => exact { handled_answer state request _ with }
  | health id =>
    cases outcome.store with
    | none => exact replied id _
    | some store => exact replied id _
  | learn id path project =>
    dsimp only
    split
    · exact replied id _
    · split
      · exact { handled_submit state request false (.learn _) with }
      · exact replied id _
  | compact id =>
    dsimp only
    split
    · exact replied id _
    · split
      · exact { handled_submit state request false .compact with }
      · exact replied id _
  | tool id name =>
    dsimp only
    split
    · split
      · exact handled_submit state request _ _
      · split
        · exact
            { places := places_waiting state request
              stopped := rfl
              running := rfl
              phase := rfl
              requests := rfl
              nextRequest := rfl
              others := fun _ inside _ => inside }
        · exact replied id _
    · split
      · exact handled_submit state request _ _
      · exact replied id _

/-- A message that cannot be read, or shuts the daemon down, ends the loop. -/
theorem dispatch_harmful (config : Config) (state : State) {request : ClientRequest}
    (harmful : ¬Harmless library request) (outcome : Outcome) :
    (state.dispatch library config request outcome).stopped = true ∨
      (state.dispatch library config request outcome).running = false := by
  unfold State.dispatch
  cases read : route library request.peerPid request.data with
  | error thrown => exact .inl rfl
  | ok way =>
    have readable := (route_returns library request.peerPid request.data).mp ⟨way, read⟩
    have shutdown : request.data = bytes "shutdown" := by
      apply Classical.byContradiction
      intro other
      exact harmful ⟨readable, other⟩
    have stops : route library request.peerPid request.data = .ok .shutdown := by
      rw [shutdown]
      unfold route
      rw [if_neg (by decide +kernel), if_pos rfl]
    rw [stops] at read
    cases read
    exact .inr rfl

/-! ## Every message -/

/-- The loop runs, and every message received is in one place. -/
structure Serving (state : State) : Prop where
  /-- The daemon runs. -/
  running : state.running = true
  /-- No exception has left the loop. -/
  alive : state.stopped = false
  /-- The loop is not over. -/
  going : state.phase ≠ .ended
  /-- Messages are received by `poll` and dispatched before the next one. -/
  quiet : state.phase = .dispatching ∨ state.requests = []
  /-- Every message is in one place. -/
  placed : ∀ number, state.placed number = if number < state.nextRequest then 1 else 0

namespace Serving

/-- The daemon before the loop. -/
theorem initial : Serving .initial where
  running := rfl
  alive := rfl
  going := by decide
  quiet := .inr rfl
  placed number := by simp [State.placed, State.initial]

/-- Only while messages are dispatched there are some. -/
theorem no_requests (serving : Serving state) (phase : state.phase ≠ .dispatching) :
    state.requests = [] := serving.quiet.resolve_left phase

/-- `poll` returns with new messages. -/
theorem finishPoll (serving : Serving state) {polled index : Nat}
    (phase : state.phase = .serving polled index) : Serving state.finishPoll where
  running := serving.running
  alive := serving.alive
  going := fun ended => by cases ended
  quiet := .inl rfl
  placed number := by
    have empty := serving.no_requests (by rw [phase]; exact fun other => by cases other)
    have before := serving.placed number
    have received : tally (fun request => once number request.number) state.extracted = _ :=
      (tally_map _ _ _).trans (tally_zipIdx (State.received state.connections) state.nextRequest
        number)
    have after : state.finishPoll.placed number =
        tally (fun request => once number request.number) state.extracted +
          tally (fun request => once number request.number) state.waitingWrites +
          tally (fun job => once number job.request.number) state.jobs +
          tally (once number) state.answers := rfl
    simp only [State.placed, empty, tally_nil] at before
    show state.finishPoll.placed number =
      if number < state.nextRequest + (State.received state.connections).length then 1 else 0
    rw [after, received]
    split at before
    · have never : ¬(state.nextRequest ≤ number ∧
          number < state.nextRequest + (State.received state.connections).length) := by omega
      rw [if_neg never, if_pos (by omega)]
      omega
    · by_cases new : number < state.nextRequest + (State.received state.connections).length
      · rw [if_pos ⟨by omega, new⟩, if_pos new]
        omega
      · rw [if_neg (by omega), if_neg new]
        omega

/-- A message that is taken out of one place is put into another. -/
theorem moved (serving : Serving state) {request : ClientRequest} {between : State}
    (taken : ∀ number, between.placed number + once number request.number = state.placed number)
    (places : Places request between next) (number : Nat)
    (same : next.nextRequest = state.nextRequest) :
    next.placed number = if number < next.nextRequest then 1 else 0 := by
  have before := serving.placed number
  have out := taken number
  have back := places number
  rw [same]
  omega

/-- A step of the loop. -/
theorem loopStep (serving : Serving state) {action : Action}
    (reads : ReadsOnly library state action)
    (step : LoopStep library config state action next) : Serving next := by
  obtain ⟨running, alive, going, quiet, placed⟩ := id serving
  cases step with
  | @submitWaiting request rest _ waiting =>
    refine ⟨running, alive, going, quiet, fun number => ?_⟩
    refine serving.moved (fun number => ?_)
      (places_submit { state with waitingWrites := rest } request false .plain) number rfl
    simp only [State.placed, waiting, tally_cons]
    omega
  | @expire request rest _ _ waiting =>
    refine ⟨running, alive, going, quiet, fun number => ?_⟩
    refine serving.moved (fun number => ?_)
      (places_queue { state with waitingWrites := rest } request _) number rfl
    simp only [State.placed, waiting, tally_cons]
    omega
  | idle phase =>
    have empty := serving.no_requests (by rw [phase]; decide)
    refine ⟨running, alive, (fun ended => by cases ended), .inl rfl, fun number => ?_⟩
    have before := placed number
    simp only [State.placed, empty] at before ⊢
    exact before
  | poll phase =>
    refine ⟨running, alive, (fun ended => by cases ended), .inr ?_, placed⟩
    exact serving.no_requests (by rw [phase]; exact fun other => by cases other)
  | accept _ _ =>
    unfold State.accept
    split
    · exact serving
    · exact { serving with }
  | accepted phase =>
    refine ⟨running, alive, (fun ended => by cases ended), .inr ?_, placed⟩
    exact serving.no_requests (by rw [phase]; exact fun other => by cases other)
  | serve phase _ _ =>
    refine ⟨running, alive, (fun ended => by cases ended), .inr ?_, placed⟩
    exact serving.no_requests (by rw [phase]; exact fun other => by cases other)
  | finishPoll phase _ => exact serving.finishPoll phase
  | @dispatch outcome request rest phase requests =>
    have harmless : Harmless library request := by
      apply reads request
      rw [requests]
      rfl
    have handled := handled_dispatch config { state with requests := rest } harmless outcome
    refine ⟨handled.running.trans running, handled.stopped.trans alive, ?_, .inl ?_,
      fun number => ?_⟩
    · rw [handled.phase]
      exact going
    · rw [handled.phase]
      exact phase
    · refine serving.moved (fun number => ?_) handled.places number handled.nextRequest
      simp only [State.placed, requests, tally_cons]
      omega
  | drain _ requests =>
    refine ⟨running, alive, ?_, .inr requests, placed⟩
    simp [State.drain, running]

/-- A step of the daemon. -/
theorem step (serving : Serving state) {action : Action} (reads : ReadsOnly library state action)
    (taken : (machine library config).step state action = some next) : Serving next := by
  cases (step_cases taken).2 with
  | @complete index job tools counts what found =>
    have placed : ∀ number, State.placed
        ({ state with jobs := state.jobs.eraseIdx index }.queue job.request
          (State.workText library tools counts what job)) number =
            if number < state.nextRequest then 1 else 0 := by
      intro number
      refine serving.moved (fun number => ?_)
        (places_queue { state with jobs := state.jobs.eraseIdx index } job.request _) number rfl
      have out := tally_eraseIdx (fun job => once number job.request.number) found
      simp only [State.placed]
      omega
    cases job.kind with
    | plain => exact { serving with placed }
    | learn key => exact { serving with placed }
    | compact => exact { serving with placed }
  | event sadhana line => exact { serving with }
  | push found => exact { serving with }
  | loop step => exact serving.loopStep reads step

/-- A run whose messages can be read. -/
theorem reached (reached : (machine library config).Reaches (ReadsOnly library) state) :
    Serving state :=
  reached.invariant .initial fun _ _ _ serving reads taken => serving.step reads taken

end Serving

/-! ## The loop survives -/

/-- The steps of the loop, not of the pools and the sadhanas. -/
def Action.OfLoop : Action → Prop
  | .complete _ _ _ _ | .event _ _ | .push _ => False
  | _ => True

/-- The loop can go on. -/
theorem Serving.goes (serving : Serving state) (library : Library) (config : Config) :
    ∃ action, action.OfLoop ∧ ((machine library config).step state action).isSome := by
  have alive := serving.alive
  cases phase : state.phase with
  | admitting => exact ⟨.poll, trivial, by simp [machine, alive, Daemon.loopStep, phase]⟩
  | accepting polled => exact ⟨.accepted, trivial, by simp [machine, alive, Daemon.loopStep, phase]⟩
  | serving polled index =>
    by_cases more : index < polled
    · cases found : state.connections[index]? with
      | some conn =>
        refine ⟨.serve ⟨none, none, false⟩, trivial, ?_⟩
        have left : ¬polled ≤ index := by omega
        simp [machine, alive, Daemon.loopStep, phase, left, found]
      | none =>
        have outside : ¬index < state.connections.length :=
          Nat.not_lt.mpr (List.getElem?_eq_none_iff.mp found)
        exact ⟨.finishPoll, trivial, by simp [machine, alive, Daemon.loopStep, phase, outside]⟩
    · exact ⟨.finishPoll, trivial, by simp [machine, alive, Daemon.loopStep, phase, more]⟩
  | dispatching =>
    cases requests : state.requests with
    | nil => exact ⟨.drain, trivial, by simp [machine, alive, Daemon.loopStep, phase, requests]⟩
    | cons request rest =>
      refine ⟨.dispatch ⟨true, [], none⟩, trivial, ?_⟩
      simp [machine, alive, Daemon.loopStep, phase, requests]
  | ended => exact absurd phase serving.going

/-- A message is survived: the loop and the daemon go on, it is in one place or has been answered
once, and the other clients are left alone. -/
structure Survives (request : ClientRequest) (state next : State) : Prop where
  /-- No exception has left the loop. -/
  alive : next.stopped = false
  /-- The daemon runs. -/
  running : next.running = true
  /-- The message has one reply. -/
  placed : next.placed request.number = 1
  /-- The other clients. -/
  others : KeepsOthers request state next

/-- In a run whose messages can be read and do not shut the daemon down, the loop goes on and every
message received is in one place or has been answered once. There, the next message is survived
exactly when it is such a message. -/
theorem dispatch_survives (reached : (machine library config).Reaches (ReadsOnly library) state) :
    state.running = true ∧ state.stopped = false ∧
      (∀ number, number < state.nextRequest → state.placed number = 1) ∧
      (∃ action, action.OfLoop ∧ ((machine library config).step state action).isSome) ∧
      ∀ request rest outcome, state.phase = .dispatching → state.requests = request :: rest →
        ∃ next, (machine library config).step state (.dispatch outcome) = some next ∧
          (Survives request state next ↔ Harmless library request) := by
  have serving := Serving.reached reached
  refine ⟨serving.running, serving.alive, fun number received => ?_,
    serving.goes library config, fun request rest outcome phase requests => ?_⟩
  · rw [serving.placed number, if_pos received]
  have alive := serving.alive
  have taken : (machine library config).step state (.dispatch outcome) =
      some (State.dispatch library config { state with requests := rest } request outcome) := by
    simp [machine, alive, loopStep, phase, requests]
  refine ⟨_, taken, fun survives => ?_, fun harmless => ?_⟩
  · apply Classical.byContradiction
    intro harmful
    cases dispatch_harmful config { state with requests := rest } harmful outcome with
    | inl stopped =>
      rw [survives.alive] at stopped
      contradiction
    | inr ended =>
      rw [survives.running] at ended
      contradiction
  · have reads : ReadsOnly library state (.dispatch outcome) := by
      intro other first
      rw [requests] at first
      exact Option.some.inj first ▸ harmless
    have after := serving.step reads taken
    have handled := handled_dispatch config { state with requests := rest } harmless outcome
    have number : request.number < state.nextRequest := by
      apply Classical.byContradiction
      intro unknown
      have none_yet := serving.placed request.number
      rw [if_neg unknown] at none_yet
      simp [State.placed, requests, once] at none_yet
    refine ⟨after.alive, after.running, ?_, handled.others⟩
    have placed := after.placed request.number
    rwa [handled.nextRequest, if_pos number] at placed

/-! ## A message that cannot be read -/

/-- A method that is a number. -/
def methodText : String := "\x7b\"method\":5\x7d"

/-- A library that reads it. -/
def methodLibrary : Library where
  parse data := if data = bytes methodText then some (.object [("method", .int 5)]) else none
  dump _ := bytes "null"

/-- A daemon with one pool. -/
def singlePool : Config where
  writePool := false
  maxQueueDepth := 256

/-- A client connects and sends a message. -/
def sends (message : Bytes) : List Action :=
  [.poll, .accept 7 100, .accepted, .finishPoll, .drain,
    .poll, .accepted, .serve ⟨some (.data (message ++ [newline])), none, false⟩, .finishPoll]

/-- The message stops the loop. -/
theorem dispatch_survives_refuted :
    ¬∀ (library : Library) (config : Config) (state : State),
      (machine library config).Reachable state → state.stopped = false := by
  intro claim
  have replayed : ((machine methodLibrary singlePool).run .initial
      (sends (bytes methodText) ++ [.dispatch ⟨true, [], none⟩])).any
      (fun state => state.stopped) = true := by decide +kernel
  obtain ⟨state, run, stopped⟩ := (Option.any_eq_true _ _).mp replayed
  have alive := claim methodLibrary singlePool state (.of_run _ .initial run)
  rw [alive] at stopped
  contradiction

/-- A text that is not JSON is survived. -/
theorem dispatch_survives_unparsed :
    ∃ (state next : State) (request : ClientRequest), state.requests = [request] ∧
      (machine methodLibrary singlePool).step state (.dispatch ⟨true, [], none⟩) = some next ∧
      Survives request state next := by
  have replayed : ((machine methodLibrary singlePool).run .initial (sends (bytes "hello"))).any
      (fun state => state.phase == .dispatching && state.requests.length == 1 &&
        state.requests.all fun request => request.data == bytes "hello") = true := by
    decide +kernel
  obtain ⟨state, run, facts⟩ := (Option.any_eq_true _ _).mp replayed
  obtain ⟨facts, same⟩ := Bool.and_eq_true_iff.mp facts
  obtain ⟨phase, single⟩ := Bool.and_eq_true_iff.mp facts
  obtain ⟨request, requests⟩ := List.length_eq_one_iff.mp (eq_of_beq single)
  have data : request.data = bytes "hello" := by
    rw [requests] at same
    exact eq_of_beq (List.all_eq_true.mp same request List.mem_cons_self)
  have harmless : Harmless methodLibrary request := by
    unfold Harmless Readable
    rw [data]
    refine ⟨.inr (.inr fun parsed read => ?_), by decide +kernel⟩
    have unread : methodLibrary.parse (bytes "hello") = none := by decide +kernel
    rw [unread] at read
    contradiction
  have always : ∀ action ∈ sends (bytes "hello"), ∀ state,
      ReadsOnly methodLibrary state action := by
    intro action inside state
    simp only [sends, List.mem_cons, List.not_mem_nil, or_false] at inside
    rcases inside with rfl | rfl | rfl | rfl | rfl | rfl | rfl | rfl | rfl <;> trivial
  have survived := dispatch_survives (.of_run_always _ always .initial run)
  obtain ⟨next, taken, same⟩ :=
    survived.2.2.2.2 request [] ⟨true, [], none⟩ (eq_of_beq phase) requests
  exact ⟨state, next, request, requests, taken, same.mpr harmless⟩

end Chitta.Daemon
