import Chitta.Machine
import Chitta.Daemon.Server

/-!
# The main loop of the daemon

One thread admits waiting writes, polls the descriptors, dispatches the messages they gave and
writes what the pools have queued, again and again. Workers queue the answers of their tasks and
the lines of watched sadhanas at any moment in between. A task names its client by the descriptor
it had when the message came.
-/
namespace Chitta.Daemon

/-- The settings of the daemon. -/
structure Config where
  /-- Whether there is a pool for writes. -/
  writePool : Bool
  /-- `max_queue_depth`. -/
  maxQueueDepth : Nat

/-- What a pool does when a task is over. -/
inductive JobKind where
  /-- Nothing. -/
  | plain
  /-- The code can be learned again. -/
  | learn (key : String)
  /-- The log can be compacted again. -/
  | compact
deriving DecidableEq

/-- A task that a pool has accepted. -/
structure Job where
  /-- The request. -/
  request : ClientRequest
  /-- Whether the counts of the pool are added to the answer. -/
  counted : Bool
  /-- What is done afterwards. -/
  kind : JobKind

/-- `StreamSub`. -/
structure StreamSub where
  /-- `fd`. -/
  fd : Int
  /-- `sadhana_id`. -/
  sadhana : Int
  /-- The connection that watches. -/
  connection : Nat

/-- Where the loop is. -/
inductive Phase where
  /-- Waiting writes are admitted. -/
  | admitting
  /-- `poll` has returned for this many clients; new ones are accepted. -/
  | accepting (polled : Nat)
  /-- The clients are served, from an index on. -/
  | serving (polled index : Nat)
  /-- The messages are dispatched. -/
  | dispatching
  /-- The loop is over. -/
  | ended
deriving DecidableEq

/-- The daemon. -/
structure State where
  /-- `daemon_running`. -/
  running : Bool
  /-- Whether an exception has left the loop. -/
  stopped : Bool
  /-- Where the loop is. -/
  phase : Phase
  /-- `connections_`. -/
  connections : List Connection
  /-- The number of the next connection. -/
  nextConnection : Nat
  /-- The number of the next request. -/
  nextRequest : Nat
  /-- The messages that are to be dispatched. -/
  requests : List ClientRequest
  /-- `waiting_writes`. -/
  waitingWrites : List ClientRequest
  /-- The tasks of the pools. -/
  jobs : List Job
  /-- `response_queue_`. -/
  responses : List PendingResponse
  /-- `inflight_learn_codebase`. -/
  inflightLearnCodebase : List String
  /-- `compact_wal_inflight`. -/
  compactWalInflight : Bool
  /-- `stream_subs_`. -/
  streamSubs : List StreamSub
  /-- The lines on their way to the response queue. -/
  lines : List PendingResponse
  /-- The connections with the bytes written to them. -/
  sent : List (Nat × UInt8 × Nat)
  /-- The numbers of the requests that have been answered. -/
  answers : List Nat

/-- What the pools and the store do with a message. -/
structure Outcome where
  /-- Whether the pool accepts the task. -/
  accepts : Bool
  /-- `generate_stats`. -/
  stats : Bytes
  /-- The text and the values of a health check, when there is a store. -/
  store : Option (String × Json)

/-- `embedding_write`. -/
def embeddingWrite (name : String) : Bool :=
  name ∈ ["remember", "remember_batch", "observe", "distill", "distill_now", "distill_batch"]

/-- The answer to a message that is not JSON. -/
def parseErrorText : String :=
  "\x7b\"jsonrpc\":\"2.0\",\"error\":\x7b\"code\":-32700,\"message\":\"Parse error\"\x7d,\"id\":null\x7d"

/-- The answer to a shutdown. -/
def shutdownText : String := "\x7b\"status\":\"shutting_down\"\x7d"

namespace State

/-- The daemon before the loop. -/
def initial : State where
  running := true
  stopped := false
  phase := .admitting
  connections := []
  nextConnection := 0
  nextRequest := 0
  requests := []
  waitingWrites := []
  jobs := []
  responses := []
  inflightLearnCodebase := []
  compactWalInflight := false
  streamSubs := []
  lines := []
  sent := []
  answers := []

variable (library : Library) (config : Config) (state : State)

/-- The response to a request. -/
def response (request : ClientRequest) (data : Bytes) : PendingResponse where
  clientFd := request.clientFd
  data
  connection := request.connection

/-- A request is answered by the loop. -/
def answer (request : ClientRequest) (data : Bytes) : State :=
  { state with
    connections := respond (response request data) state.connections
    answers := request.number :: state.answers }

/-- A request is answered with a reply. -/
def reply (request : ClientRequest) (id : Json) (reply : Reply) : State :=
  state.answer request (library.dump (reply.json id))

/-- A request is answered through the queue. -/
def queue (request : ClientRequest) (data : Bytes) : State :=
  { state with
    responses := state.responses ++ [response request data]
    answers := request.number :: state.answers }

/-- `submit`. -/
def submit (request : ClientRequest) (counted : Bool) (kind : JobKind) : State :=
  { state with jobs := state.jobs ++ [{ request, counted, kind }] }

/-- `stream_subscribe`. -/
def subscribe (request : ClientRequest) (sadhana : Int) : State :=
  { state with
    streamSubs := state.streamSubs.filter (·.fd ≠ request.clientFd) ++
      [{ fd := request.clientFd, sadhana, connection := request.connection }] }

/-- A message is dispatched. -/
def dispatch (request : ClientRequest) (outcome : Outcome) : State :=
  match route library request.peerPid request.data with
  | .error _ => { state with stopped := true, connections := [] }
  | .ok .stats => state.answer request outcome.stats
  | .ok .shutdown => { state.answer request (bytes shutdownText) with running := false }
  | .ok .unparsed => state.answer request (bytes parseErrorText)
  | .ok (.watch id sadhana) =>
    (state.subscribe request sadhana).reply library request id (.watching sadhana)
  | .ok (.health id) =>
    match outcome.store with
    | none => state.reply library request id .storeUnavailable
    | some (text, out) => state.reply library request id (.health text out)
  | .ok (.learn id path project) =>
    let key := path ++ "::" ++ project
    if key ∈ state.inflightLearnCodebase then
      state.reply library request id (.alreadyIndexing path)
    else if outcome.accepts then
      { state.submit request false (.learn key) with
        inflightLearnCodebase := key :: state.inflightLearnCodebase }
    else state.reply library request id (.failed "server overloaded")
  | .ok (.compact id) =>
    if state.compactWalInflight then state.reply library request id .alreadyCompacting
    else if outcome.accepts then
      { state.submit request false .compact with compactWalInflight := true }
    else state.reply library request id (.failed "compaction worker overloaded")
  | .ok (.tool id name) =>
    if config.writePool && embeddingWrite name then
      if outcome.accepts then state.submit request false .plain
      else if state.waitingWrites.length < config.maxQueueDepth then
        { state with waitingWrites := state.waitingWrites ++ [request] }
      else state.reply library request id (.failed "server overloaded")
    else if outcome.accepts then state.submit request (name = "health_check") .plain
    else state.reply library request id (.failed "server overloaded")

/-- The text of a pool's answer. -/
def workText (tools : Tools) (counts : Counts) (what : String) (job : Job) : Bytes :=
  match library.parse job.request.data with
  | some request =>
    library.dump ((work tools (if job.counted then some counts else none) request what).json .null)
  | none => library.dump ((Reply.threw what).json .null)

/-- What is done when a task is over. -/
def release : JobKind → State
  | .plain => state
  | .learn key =>
    { state with inflightLearnCodebase := state.inflightLearnCodebase.filter (· ≠ key) }
  | .compact => { state with compactWalInflight := false }

/-- The messages of all connections, with their senders. -/
def received (connections : List Connection) : List (Connection × Bytes) :=
  connections.flatMap fun conn => conn.messages.1.map fun message => (conn, message)

/-- The requests of the extracted messages. -/
def extracted : List ClientRequest :=
  ((received state.connections).zipIdx state.nextRequest).map fun ((conn, data), number) =>
    { clientFd := conn.fd, peerPid := conn.peerPid, data, connection := conn.number, number }

/-- The connections that are closed after a poll. -/
def closing : List Connection :=
  (state.connections.map fun conn => conn.messages.2).filter (·.wantsClose)

/-- The end of `poll`: messages are extracted and closed connections cleaned up. -/
def finishPoll : State :=
  { state with
    phase := .dispatching
    requests := state.extracted
    nextRequest := state.nextRequest + (received state.connections).length
    connections :=
      (state.connections.map fun conn => conn.messages.2).filter fun conn => !conn.wantsClose
    streamSubs := state.streamSubs.filter fun sub => sub.fd ∉ state.closing.map (·.fd) }

/-- The end of the loop: the queued responses are written. -/
def drain : State :=
  { state with
    phase := if state.running then .admitting else .ended
    connections := state.responses.foldl (fun conns response => respond response conns)
      state.connections
    responses := [] }

/-- A connection is accepted, or closed at once when there are too many. -/
def accept (fd peerPid : Int) : State :=
  if maxConnections ≤ state.connections.length then state
  else
    { state with
      connections := state.connections ++ [.accepted state.nextConnection fd peerPid]
      nextConnection := state.nextConnection + 1 }

/-- A connection is served. -/
def serve (conn : Connection) (index : Nat) (ready : Readiness) : State :=
  { state with
    connections := state.connections.set index (conn.serve ready).2
    sent := state.sent ++ (conn.serve ready).1.map fun byte => (conn.number, byte) }

/-- The lines of an event for those that watch it. -/
def push (sadhana : Int) (line : Bytes) : State :=
  { state with
    lines := state.lines ++
      (state.streamSubs.filter fun sub => sub.sadhana = 0 || sub.sadhana = sadhana).map fun sub =>
        { clientFd := sub.fd, data := line, connection := sub.connection } }

end State

/-- What happens to the daemon. -/
inductive Action where
  /-- A waiting write is submitted. -/
  | submitWaiting
  /-- A waiting write has waited too long. -/
  | expire
  /-- `poll` finds nothing. -/
  | idle
  /-- `poll` finds something. -/
  | poll
  /-- A client is accepted with a descriptor. -/
  | accept (fd peerPid : Int)
  /-- There are no more new clients. -/
  | accepted
  /-- A client is served. -/
  | serve (ready : Readiness)
  /-- `poll` returns. -/
  | finishPoll
  /-- A message is dispatched. -/
  | dispatch (outcome : Outcome)
  /-- The queued responses are written. -/
  | drain
  /-- A task of a pool is over. -/
  | complete (index : Nat) (tools : Tools) (counts : Counts) (what : String)
  /-- There is an event of a sadhana. -/
  | event (sadhana : Int) (line : Bytes)
  /-- A line is queued. -/
  | push (index : Nat)

/-- A step of the loop. -/
def loopStep (library : Library) (config : Config) (state : State) : Action → Option State
  | .submitWaiting =>
    match state.phase, state.waitingWrites with
    | .admitting, request :: rest =>
      some ({ state with waitingWrites := rest }.submit request false .plain)
    | _, _ => none
  | .expire =>
    match state.phase, state.waitingWrites with
    | .admitting, request :: rest =>
      let id := match library.parse request.data with
        | some parsed => (parsed.find "id").getD .null
        | none => .null
      some ({ state with waitingWrites := rest }.queue request
        (library.dump ((Reply.failed "write queue admission timed out").json id)))
    | _, _ => none
  | .idle =>
    match state.phase with
    | .admitting => some { state with phase := .dispatching, requests := [] }
    | _ => none
  | .poll =>
    match state.phase with
    | .admitting => some { state with phase := .accepting state.connections.length }
    | _ => none
  | .accept fd peerPid =>
    match state.phase with
    | .accepting _ =>
      if fd ∈ state.connections.map (·.fd) then none else some (state.accept fd peerPid)
    | _ => none
  | .accepted =>
    match state.phase with
    | .accepting polled => some { state with phase := .serving polled 0 }
    | _ => none
  | .serve ready =>
    match state.phase with
    | .serving polled index =>
      if polled ≤ index then none
      else
        match state.connections[index]? with
        | some conn =>
          some { state.serve conn index ready with phase := .serving polled (index + 1) }
        | none => none
    | _ => none
  | .finishPoll =>
    match state.phase with
    | .serving polled index =>
      if index < polled && (state.connections[index]?).isSome then none
      else some state.finishPoll
    | _ => none
  | .dispatch outcome =>
    match state.phase, state.requests with
    | .dispatching, request :: rest =>
      some ({ state with requests := rest }.dispatch library config request outcome)
    | _, _ => none
  | .drain =>
    match state.phase, state.requests with
    | .dispatching, [] => some state.drain
    | _, _ => none
  | _ => none

/-- The steps of the daemon; nothing is modelled after an exception has left the loop. -/
def machine (library : Library) (config : Config) : Machine State Action where
  initial := .initial
  step state action :=
    if state.stopped then none
    else
      match action with
      | .complete index tools counts what =>
        match state.jobs[index]? with
        | some job =>
          let left := { state with jobs := state.jobs.eraseIdx index }
          some ((left.queue job.request (State.workText library tools counts what job)).release
            job.kind)
        | none => none
      | .event sadhana line => some (state.push sadhana line)
      | .push index =>
        match state.lines[index]? with
        | some line =>
          some
            { state with
              lines := state.lines.eraseIdx index
              responses := state.responses ++ [line] }
        | none => none
      | action => loopStep library config state action

/-! ## What a step does -/

/-- What a step of the loop does. -/
inductive LoopStep (library : Library) (config : Config) (state : State) : Action → State → Prop
  /-- The first waiting write goes to the pool. -/
  | submitWaiting {request : ClientRequest} {rest : List ClientRequest}
      (phase : state.phase = .admitting) (waiting : state.waitingWrites = request :: rest) :
      LoopStep library config state .submitWaiting
        ({ state with waitingWrites := rest }.submit request false .plain)
  /-- The first waiting write is answered with an error. -/
  | expire {request : ClientRequest} {rest : List ClientRequest} {id : Json}
      (phase : state.phase = .admitting) (waiting : state.waitingWrites = request :: rest) :
      LoopStep library config state .expire
        ({ state with waitingWrites := rest }.queue request
          (library.dump ((Reply.failed "write queue admission timed out").json id)))
  /-- No client is ready. -/
  | idle (phase : state.phase = .admitting) :
      LoopStep library config state .idle { state with phase := .dispatching, requests := [] }
  /-- Clients are ready. -/
  | poll (phase : state.phase = .admitting) :
      LoopStep library config state .poll
        { state with phase := .accepting state.connections.length }
  /-- A client gets a descriptor that is free. -/
  | accept {fd peerPid : Int} {polled : Nat} (phase : state.phase = .accepting polled)
      (free : fd ∉ state.connections.map (·.fd)) :
      LoopStep library config state (.accept fd peerPid) (state.accept fd peerPid)
  /-- The clients that were polled are served. -/
  | accepted {polled : Nat} (phase : state.phase = .accepting polled) :
      LoopStep library config state .accepted { state with phase := .serving polled 0 }
  /-- The next one of them is served. -/
  | serve {ready : Readiness} {polled index : Nat} {conn : Connection}
      (phase : state.phase = .serving polled index) (before : index < polled)
      (found : state.connections[index]? = some conn) :
      LoopStep library config state (.serve ready)
        { state.serve conn index ready with phase := .serving polled (index + 1) }
  /-- None is left. -/
  | finishPoll {polled index : Nat} (phase : state.phase = .serving polled index)
      (ended : ¬(index < polled ∧ (state.connections[index]?).isSome)) :
      LoopStep library config state .finishPoll state.finishPoll
  /-- The first message is dispatched. -/
  | dispatch {outcome : Outcome} {request : ClientRequest} {rest : List ClientRequest}
      (phase : state.phase = .dispatching) (requests : state.requests = request :: rest) :
      LoopStep library config state (.dispatch outcome)
        ({ state with requests := rest }.dispatch library config request outcome)
  /-- None is left. -/
  | drain (phase : state.phase = .dispatching) (requests : state.requests = []) :
      LoopStep library config state .drain state.drain

/-- What a step of the daemon does. -/
inductive DaemonStep (library : Library) (config : Config) (state : State) :
    Action → State → Prop
  /-- The result of a job is queued. -/
  | complete {index : Nat} {job : Job} (tools : Tools) (counts : Counts) (what : String)
      (found : state.jobs[index]? = some job) :
      DaemonStep library config state (.complete index tools counts what)
        (({ state with jobs := state.jobs.eraseIdx index }.queue job.request
          (State.workText library tools counts what job)).release job.kind)
  /-- Lines are made of an event. -/
  | event (sadhana : Int) (line : Bytes) :
      DaemonStep library config state (.event sadhana line) (state.push sadhana line)
  /-- A line is queued. -/
  | push {index : Nat} {line : PendingResponse} (found : state.lines[index]? = some line) :
      DaemonStep library config state (.push index)
        { state with
          lines := state.lines.eraseIdx index
          responses := state.responses ++ [line] }
  /-- The loop goes on. -/
  | loop {action : Action} {next : State} (step : LoopStep library config state action next) :
      DaemonStep library config state action next

section

variable {library : Library} {config : Config} {state next : State} {action : Action}

/-- Every step of the loop is one of those. -/
theorem loopStep_cases (taken : loopStep library config state action = some next) :
    LoopStep library config state action next := by
  cases action with
  | submitWaiting =>
    simp only [loopStep] at taken
    split at taken
    · rename_i request rest phase waiting
      obtain rfl := Option.some.inj taken
      exact .submitWaiting phase waiting
    · contradiction
  | expire =>
    simp only [loopStep] at taken
    split at taken
    · rename_i request rest phase waiting
      obtain rfl := Option.some.inj taken
      exact .expire phase waiting
    · contradiction
  | idle =>
    simp only [loopStep] at taken
    split at taken
    · rename_i phase
      obtain rfl := Option.some.inj taken
      exact .idle phase
    · contradiction
  | poll =>
    simp only [loopStep] at taken
    split at taken
    · rename_i phase
      obtain rfl := Option.some.inj taken
      exact .poll phase
    · contradiction
  | accept fd peerPid =>
    simp only [loopStep] at taken
    split at taken
    · rename_i polled phase
      split at taken
      · contradiction
      · rename_i free
        obtain rfl := Option.some.inj taken
        exact .accept phase free
    · contradiction
  | accepted =>
    simp only [loopStep] at taken
    split at taken
    · rename_i polled phase
      obtain rfl := Option.some.inj taken
      exact .accepted phase
    · contradiction
  | serve ready =>
    simp only [loopStep] at taken
    split at taken
    · rename_i polled index phase
      split at taken
      · contradiction
      · rename_i before
        split at taken
        · rename_i conn found
          obtain rfl := Option.some.inj taken
          exact .serve phase (Nat.not_le.mp before) found
        · contradiction
    · contradiction
  | finishPoll =>
    simp only [loopStep] at taken
    split at taken
    · rename_i polled index phase
      split at taken
      · contradiction
      · rename_i ended
        obtain rfl := Option.some.inj taken
        exact .finishPoll phase (by simpa using ended)
    · contradiction
  | dispatch outcome =>
    simp only [loopStep] at taken
    split at taken
    · rename_i request rest phase requests
      obtain rfl := Option.some.inj taken
      exact .dispatch phase requests
    · contradiction
  | drain =>
    simp only [loopStep] at taken
    split at taken
    · rename_i phase requests
      obtain rfl := Option.some.inj taken
      exact .drain phase requests
    · contradiction
  | _ => contradiction

/-- A daemon that takes a step has not stopped. -/
theorem step_cases (taken : (machine library config).step state action = some next) :
    state.stopped = false ∧ DaemonStep library config state action next := by
  simp only [machine] at taken
  split at taken
  · contradiction
  · rename_i going
    refine ⟨by simpa using going, ?_⟩
    split at taken
    · rename_i index tools counts what
      split at taken
      · rename_i job found
        obtain rfl := Option.some.inj taken
        exact .complete tools counts what found
      · contradiction
    · rename_i sadhana line
      obtain rfl := Option.some.inj taken
      exact .event sadhana line
    · rename_i index
      split at taken
      · rename_i line found
        obtain rfl := Option.some.inj taken
        exact .push found
      · contradiction
    · exact .loop (loopStep_cases taken)

end

end Chitta.Daemon
