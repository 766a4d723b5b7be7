import Chitta.EndpointRouter.Endpoint
import Chitta.Machine

/-!
# The router of endpoints

A caller takes a lease on an endpoint that has room for it and gives it back at the end of its call.
A worker measures the endpoints in rounds: it takes a snapshot, asks them without the lock, and
merges what it has learned. It adds the endpoints that it finds and drops those that it no longer
finds and that no caller uses.

An action has the readings of the clock that its critical section makes. The names are those of the
source.
-/
namespace Chitta.EndpointRouter

variable {D : Type} [Double D]

/-- What a measurement of an endpoint has found. -/
structure EndpointLoad (D : Type) where
  /-- Whether it has answered. -/
  ok : Bool
  /-- Whether the time was up. -/
  timedOut : Bool
  /-- How long it took. -/
  latency : D
  /-- The requests that it runs. -/
  running : D
  /-- The requests that wait. -/
  waiting : D
  /-- How full its cache is. -/
  gpu : D
  /-- How it was measured. -/
  mode : String

/-- What the router knows of an endpoint. Times are those of the steady clock, in nanoseconds. -/
structure EndpointState (D : Type) where
  /-- The endpoint. -/
  ep : LlmEndpoint D
  /-- The last measurement. -/
  load : EndpointLoad D
  /-- The smoothed latency. -/
  ewma : D
  /-- The latency without load. -/
  baseline : D
  /-- The tokens that may be spent. -/
  tokens : D
  /-- The failures in a row. -/
  failed : Int
  /-- The good measurements in a row. -/
  good : Int
  /-- The leases. -/
  inflight : Int
  /-- Whether it is busy. -/
  busy : Bool
  /-- Until when batches avoid it. -/
  backoff : Int
  /-- Until when all avoid it. -/
  failedUntil : Int
  /-- When the tokens were counted. -/
  budgetAt : Int
  /-- When the models were listed. -/
  modelsAt : Int

/-- A new entry. -/
def EndpointState.fresh (now : Int) : EndpointState D where
  ep := .bare ""
  load :=
    { ok := false, timedOut := false, latency := 0.0, running := 0.0, waiting := 0.0, gpu := 0.0
      mode := "" }
  ewma := 0.0
  baseline := 0.0
  tokens := 0.0
  failed := 0
  good := 0
  inflight := 0
  busy := false
  backoff := 0
  failedUntil := 0
  budgetAt := now
  modelsAt := 0

/-- The entries of the router. -/
abbrev States (D : Type) := List (String × EndpointState D)

/-- The readings of the clock while an endpoint is looked at. -/
abbrev Clock := String → Nat → Int

/-- A second in nanoseconds. -/
def second : Int := 1000000000

variable (settings : Settings)

/-- The tokens grow with time up to the budget. -/
def refill (now : Int) (s : EndpointState D) : EndpointState D :=
  { s with
    tokens :=
      if budget settings s.ep ≠ 0 then
        smaller (budget settings s.ep : D)
          (s.tokens + ((now - s.budgetAt : Int) : D) / (second : D) * (budget settings s.ep : D))
      else s.tokens
    budgetAt := now }

/-! ## Measuring -/

/-- What a round has learned of an endpoint. -/
structure Answer (D : Type) where
  /-- Whether it is reachable, asked when its models are due. -/
  reachable : Bool
  /-- Its models. -/
  models : List String
  /-- How long it took to list them. -/
  latencyMs : D
  /-- Its load. -/
  load : EndpointLoad D

/-- A round of measurements. -/
structure Round (D : Type) where
  /-- When it started. -/
  started : Int
  /-- Whether it was asked for. -/
  forced : Bool
  /-- The entries at that time. -/
  old : States D
  /-- The endpoints that callers had asked for. -/
  pinned : List (String × LlmEndpoint D)

/-- The declared endpoints and the others that callers have asked for. -/
def endpoints (declared : List (LlmEndpoint D)) (pinned : List (String × LlmEndpoint D)) :
    List (LlmEndpoint D) :=
  pinned.foldl
    (fun endpoints entry =>
      if endpoints.all (fun ep => ep.url ≠ entry.1) then endpoints ++ [entry.2] else endpoints)
    declared

/-- An endpoint is measured; its models are listed when they are due. -/
def probeEndpoint (round : Round D) (answer : Answer D) (ep : LlmEndpoint D) :
    LlmEndpoint D × EndpointLoad D :=
  let prior := Assoc.lookup ep.url round.old
  let modelsDue := round.forced || match prior with
    | none => true
    | some s => decide (0 < s.failed) ||
      decide (round.started - s.modelsAt ≥ endpointTtlS settings * second)
  let known := match prior with
    | none => ep
    | some s =>
      { ep with models := s.ep.models, reachable := s.ep.reachable, latencyMs := s.ep.latencyMs }
  let asked :=
    if modelsDue then
      { known with
        models := answer.models, reachable := answer.reachable, latencyMs := answer.latencyMs }
    else known
  (asked, answer.load)

/-- The entry of an endpoint after it did not answer in time. -/
def timedOut (s : EndpointState D) : EndpointState D :=
  { s with failed := 0, good := 0, busy := true }

/-- The entry of an endpoint after a failure. -/
def notOk (s : EndpointState D) : EndpointState D :=
  { s with
    failed := s.failed + 1
    good := 0
    ep := if 3 ≤ s.failed + 1 then { s.ep with reachable := false } else s.ep
    busy := true }

/-- The latencies of an entry; they start again when the endpoint is measured in another way. -/
def smooth (load : EndpointLoad D) (s : EndpointState D) : EndpointState D :=
  if s.load.mode ≠ load.mode || s.baseline == 0.0 then
    { s with
      baseline := larger 1.0 load.latency
      ewma := 0.3 * load.latency + 0.7 * load.latency }
  else { s with ewma := 0.3 * load.latency + 0.7 * s.ewma }

/-- Whether a measurement shows that an endpoint is busy. -/
def overloaded (load : EndpointLoad D) (s : EndpointState D) : Bool :=
  decide (0.0 < load.waiting) || decide (0.95 ≤ load.gpu) ||
    (s.ep.kind ≠ "vllm" && decide (3.0 * s.baseline < load.latency))

/-- The entry of an endpoint after a good measurement; two in a row end that it is busy. -/
def idle (load : EndpointLoad D) (s : EndpointState D) : EndpointState D :=
  if 2 ≤ s.good + 1 || !s.busy then
    { s with
      good := s.good + 1
      busy := false
      baseline := smaller s.baseline (0.95 * s.baseline + 0.05 * load.latency) }
  else { s with good := s.good + 1 }

/-- The entry of an endpoint after it has answered. -/
def measured (load : EndpointLoad D) (s : EndpointState D) : EndpointState D :=
  if overloaded load (smooth load s) then
    { smooth load s with failed := 0, busy := true, good := 0 }
  else idle load { smooth load s with failed := 0 }

/-- The entry of an endpoint after a measurement. -/
def judge (load : EndpointLoad D) (s : EndpointState D) : EndpointState D :=
  if load.timedOut then timedOut s
  else if !load.ok || !s.ep.reachable then notOk s
  else measured load s

/-- Batches avoid a busy endpoint for a while. -/
def backOff (now : Int) (s : EndpointState D) : EndpointState D :=
  if s.busy then
    { s with
      backoff := now + routerSetting settings "CHITTA_ROUTER_BACKOFF_S" 120 0 * second }
  else s

/-- What has been learned of an endpoint goes to its entry, which may be a new one. -/
def mergeResult (round : Round D) (clock : Clock) (states : States D)
    (result : LlmEndpoint D × EndpointLoad D) : States D :=
  let (ep, load) := result
  let old := Assoc.lookup ep.url states
  let s := old.getD (.fresh (clock ep.url 0))
  let modelsDue := round.forced || old.isNone ||
    decide (round.started - s.modelsAt ≥ endpointTtlS settings * second)
  let told := { s with
    ep := ep
    modelsAt := if modelsDue then round.started else s.modelsAt
    tokens := if old.isNone then (budget settings ep : D) else s.tokens }
  Assoc.assign ep.url { backOff settings (clock ep.url 1) (judge load told) with load := load }
    states

/-- Entries that were not found and have no lease go. -/
def prune (present : List String) (states : States D) : States D :=
  states.filter fun entry => present.contains entry.1 || entry.2.inflight ≠ 0

/-- The entries after a round. -/
def mergeResults (round : Round D) (clock : Clock) (results : List (LlmEndpoint D × EndpointLoad D))
    (states : States D) : States D :=
  prune (results.map (·.1.url)) (results.foldl (mergeResult settings round clock) states)

/-! ## Choosing an endpoint -/

/-- What decides between two endpoints. -/
structure Rank (D : Type) where
  /-- Whether it has no room. -/
  busy : Bool
  /-- The spare capacity or the latency. -/
  score : D
  /-- Whether it may be off. -/
  off : Bool
  /-- Its priority. -/
  priority : Int
  /-- How long its models take. -/
  latencyMs : D
  /-- Its address. -/
  url : String

/-- The rank of an endpoint: batches go where there is room, other calls where it is fast. -/
def rank (batch : Bool) (s : EndpointState D) : Rank D where
  busy := s.busy || decide (s.inflight ≥ cap settings s.ep) ||
    (budget settings s.ep ≠ 0 && decide (s.tokens < 0.0))
  score :=
    if batch then
      -smaller (1.0 - (s.inflight : D) / (cap settings s.ep : D))
        (smaller (1.0 - s.load.gpu) (1.0 / (1.0 + s.load.running)))
    else s.ewma
  off := !s.ep.alwaysOn
  priority := s.ep.priority
  latencyMs := s.ep.latencyMs
  url := s.ep.url

/-- The order of tuples: the first difference decides. -/
def Rank.before (left right : Rank D) : Bool :=
  (!left.busy && right.busy) || (!(!right.busy && left.busy) &&
  (decide (left.score < right.score) || (!decide (right.score < left.score) &&
  ((!left.off && right.off) || (!(!right.off && left.off) &&
  (decide (left.priority < right.priority) || (!decide (right.priority < left.priority) &&
  (decide (left.latencyMs < right.latencyMs) || (!decide (right.latencyMs < left.latencyMs) &&
  decide (left.url < right.url))))))))))

/-- Whether an endpoint may be chosen. -/
def eligible (role model pinned : String) (batch : Bool) (clock : Clock) (key : String)
    (s : EndpointState D) : Bool :=
  (pinned = "" || pinned = s.ep.url) && endpointMatches s.ep role model && decide (s.failed < 3) &&
    decide (s.failedUntil ≤ clock key 1) && decide (s.inflight < cap settings s.ep) &&
    !(budget settings s.ep ≠ 0 && decide (s.tokens < 0.0)) &&
    !(batch && (s.busy || decide (clock key 2 < s.backoff)))

/-- The tokens of all entries are counted. -/
def refillAll (clock : Clock) (states : States D) : States D :=
  states.map fun entry => (entry.1, refill settings (clock entry.1 0) entry.2)

/-- The best entry so far. -/
def better (role model pinned : String) (batch : Bool) (clock : Clock)
    (best : Option (String × EndpointState D)) (entry : String × EndpointState D) :
    Option (String × EndpointState D) :=
  if eligible settings role model pinned batch clock entry.1 entry.2 then
    match best with
    | none => some entry
    | some old =>
      if (rank settings batch entry.2).before (rank settings batch old.2) then some entry else best
  else best

/-- The best entry; the tokens have been counted. -/
def select (role model pinned : String) (batch : Bool) (clock : Clock) (states : States D) :
    Option (String × EndpointState D) :=
  states.foldl (better settings role model pinned batch clock) none

/-! ## The router -/

/-- What a caller asks for. -/
structure Request where
  /-- Its role. -/
  role : String
  /-- Its model. -/
  model : String
  /-- Whether it may wait. -/
  batch : Bool
  /-- The tokens that it reserves. -/
  tokens : Int
  /-- How many seconds it waits. -/
  waitSeconds : Int
  /-- The only endpoint that it takes, none when empty. -/
  pinned : String
  /-- Whether it logs. -/
  log : Bool

/-- Where a caller is when it does not hold the lock. -/
inductive Phase where
  /-- It has not had the lock. -/
  | enter
  /-- It has waited for the first round. -/
  | pin
  /-- It has waited for a round with its endpoint. -/
  | start
  /-- It has waited for a change. -/
  | wait (deadline : Int) (logged : Bool)
  /-- It has logged that it waits. -/
  | logged (deadline : Int) (available : Bool)

/-- A lease of a caller. -/
structure EndpointLease where
  /-- Its endpoint. -/
  url : String
  /-- The tokens that are reserved. -/
  reserved : Int

/-- A router with its worker and its callers. -/
structure Router (D : Type) where
  /-- `states_`. -/
  states : States D
  /-- `pinned_`. -/
  pinned : List (String × LlmEndpoint D)
  /-- `decisions_`. -/
  decisions : List (String × String)
  /-- `role_models_`. -/
  roleModels : List (String × String)
  /-- `stop_`. -/
  stop : Bool
  /-- `refresh_`. -/
  refresh : Bool
  /-- `probing_`. -/
  probing : Bool
  /-- `generation_`. -/
  generation : Nat
  /-- The round of the worker. -/
  round : Option (Round D)
  /-- The callers in `acquire`. -/
  callers : List (Request × Phase)
  /-- The leases that are outstanding. -/
  leases : List EndpointLease
  /-- The callers that got no lease. -/
  denied : List Request

/-- The entry of an endpoint after a lease is given back. -/
def giveBack (reserved used : Int) (now : Int) (s : EndpointState D) : EndpointState D :=
  let counted := refill settings now { s with inflight := max 0 (s.inflight - 1) }
  { counted with
    tokens :=
      if budget settings s.ep ≠ 0 then
        smaller (budget settings s.ep : D) (counted.tokens + (reserved : D) - (used : D))
      else counted.tokens }

namespace Router

/-- A router that has just started. -/
def initial : Router D where
  states := []
  pinned := []
  decisions := []
  roleModels := []
  stop := false
  refresh := true
  probing := false
  generation := 0
  round := none
  callers := []
  leases := []
  denied := []

variable (router : Router D)

/-- A caller goes on later. -/
def goto (index : Nat) (request : Request) (phase : Phase) : Router D :=
  { router with callers := router.callers.set index (request, phase) }

/-- A caller that did not find an endpoint gives up, or it waits for a change. -/
def giveUp (index : Nat) (request : Request) (deadline : Int) (logged available : Bool)
    (now : Int) :
    Router D :=
  if !request.batch || !available || router.stop || decide (deadline ≤ now) then
    { router with
      callers := router.callers.eraseIdx index
      denied := router.denied ++ [request] }
  else router.goto index request (.wait deadline logged)

/-- A turn of the loop of `acquire`. -/
def attempt (index : Nat) (request : Request) (deadline : Int) (logged : Bool) (clock : Clock)
    (now : Int) : Router D :=
  let states := refillAll settings clock router.states
  match select settings request.role request.model request.pinned request.batch clock states with
  | some (key, s) =>
    let reason :=
      if request.batch then "most spare capacity"
      else if s.busy then "busy fallback" else "fastest idle"
    let taken := { s with
      inflight := s.inflight + 1
      tokens :=
        if budget settings s.ep ≠ 0 then s.tokens - (request.tokens : D) else s.tokens }
    { router with
      states := Assoc.assign key taken states
      decisions :=
        Assoc.assign request.role (s.ep.url ++ " (" ++ reason ++ ")") router.decisions
      callers := router.callers.eraseIdx index
      leases := router.leases ++ [{ url := s.ep.url, reserved := request.tokens }] }
  | none =>
    let decision :=
      if request.batch then "waiting: busy/backoff/capacity/token budget or model unavailable"
      else "unavailable: model/capacity/token budget"
    let available := states.any fun entry =>
      (request.pinned = "" || request.pinned = entry.2.ep.url) &&
        endpointMatches entry.2.ep request.role request.model
    let decided := { router with
      states := states
      decisions := Assoc.assign request.role decision router.decisions }
    if !logged && request.log then decided.goto index request (.logged deadline available)
    else decided.giveUp index request deadline logged available now

/-- A caller begins its loop. -/
def begin (index : Nat) (request : Request) (clock : Clock) (started now : Int) : Router D :=
  { router with roleModels := Assoc.assign request.role request.model router.roleModels }.attempt
    settings index request (started + request.waitSeconds * second) false clock now

/-- A caller that asks for an endpoint that is not known waits for a round. -/
def pin (index : Nat) (request : Request) (clock : Clock) (started now : Int) : Router D :=
  if request.pinned ≠ "" && (Assoc.lookup request.pinned router.states).isNone then
    { router with
      pinned :=
        Assoc.assign request.pinned { LlmEndpoint.bare request.pinned with label := request.pinned }
          router.pinned
      refresh := true }.goto index request .start
  else router.begin settings index request clock started now

/-- A caller waits until there was a round. -/
def enter (index : Nat) (request : Request) (clock : Clock) (started now : Int) : Router D :=
  if router.generation = 0 then { router with refresh := true }.goto index request .pin
  else router.pin settings index request clock started now

/-- A caller has the lock. -/
def proceed (index : Nat) (request : Request) (clock : Clock) (started now : Int) :
    Phase → Router D
  | .enter => router.enter settings index request clock started now
  | .pin => router.pin settings index request clock started now
  | .start => router.begin settings index request clock started now
  | .wait deadline logged => router.attempt settings index request deadline logged clock now
  | .logged deadline available => router.giveUp index request deadline true available now

/-- A lease is given back. -/
def release (url : String) (reserved used : Int) (now : Int) : Router D :=
  match Assoc.lookup url router.states with
  | none => router
  | some s =>
    { router with states := Assoc.assign url (giveBack settings reserved used now s) router.states }

/-- An endpoint that has failed is avoided for a while. -/
def failed (url : String) (now : Int) : Router D :=
  match Assoc.lookup url router.states with
  | none => { router with refresh := true }
  | some s =>
    { router with
      states := Assoc.assign url { s with failedUntil := now + 5 * second } router.states
      refresh := true }

/-- An endpoint is chosen without a lease. -/
def choose (role model : String) (clock : Clock) : Router D × String :=
  let states := refillAll settings clock router.states
  let batch := role = "teacher" || role = "student"
  ({ router with states, roleModels := Assoc.assign role model router.roleModels },
    match select settings role model "" batch clock states with
    | some (_, s) => s.ep.url
    | none => "")

/-- The worker begins a round. -/
def beginRound (started : Int) : Router D :=
  { router with
    refresh := false
    probing := true
    round := some
      { started, forced := router.refresh, old := router.states, pinned := router.pinned } }

/-- The worker ends a round. -/
def endRound (round : Round D) (found : List (LlmEndpoint D × Bool))
    (answer : String → Answer D) (clock : Clock) : Router D :=
  let results := (endpoints (declaredEndpoints found) round.pinned).map fun ep =>
    probeEndpoint settings round (answer ep.url) ep
  { router with
    states := mergeResults settings round clock results router.states
    probing := false
    generation := router.generation + 1
    round := none }

end Router

/-- What happens to a router. -/
inductive Action (D : Type) where
  /-- A caller asks for a lease. -/
  | acquire (request : Request)
  /-- A caller has the lock. -/
  | proceed (index : Nat) (clock : Clock) (started now : Int)
  /-- A lease is given back. -/
  | release (index : Nat) (used now : Int)
  /-- A caller reports a failure. -/
  | failed (url : String) (now : Int)
  /-- A caller asks for a round. -/
  | force
  /-- A caller asks for an endpoint without a lease. -/
  | choose (role model : String) (clock : Clock)
  /-- The worker begins a round. -/
  | beginRound (started : Int)
  /-- The worker ends a round with the endpoints that were found and what they have answered. -/
  | endRound (found : List (LlmEndpoint D × Bool)) (answer : String → Answer D) (clock : Clock)
  /-- The router stops. -/
  | stop

/-- The steps of a router. -/
def machine : Machine (Router D) (Action D) where
  initial := .initial
  step router action :=
    match action with
    | .acquire request =>
      some { router with callers := router.callers ++ [(request, .enter)] }
    | .proceed index clock started now =>
      match router.callers[index]? with
      | some (request, phase) =>
        some (router.proceed settings index request clock started now phase)
      | none => none
    | .release index used now =>
      match router.leases[index]? with
      | some lease =>
        -- The destructor of a lease gives back the endpoint that it has.
        let released :=
          if lease.url ≠ "" then router.release settings lease.url lease.reserved used now
          else router
        some { released with leases := router.leases.eraseIdx index }
      | none => none
    | .failed url now => some (router.failed url now)
    | .force => some { router with refresh := true }
    | .choose role model clock => some (router.choose settings role model clock).1
    | .beginRound started =>
      match router.round with
      | none => if router.stop then none else some (router.beginRound started)
      | some _ => none
    | .endRound found answer clock =>
      match router.round with
      | some round => some (router.endRound settings round found answer clock)
      | none => none
    | .stop => some { router with stop := true }

end Chitta.EndpointRouter
