import Chitta.Daemon.Loop

/-!
# Where responses go

Everything that will become a response names a descriptor, and a connection has that descriptor
exactly when it is the one that the response is for: as long as no descriptor is given to a new
connection while something for an older one is still on its way. Then every byte is written to the
connection it answers, and what is left for a closed connection is dropped.
-/
namespace Chitta.Daemon

variable {library : Library} {config : Config} {state next : State}

/-- A descriptor, and the connection it stands for. -/
abbrev Address := Int × Nat

/-- The address of a request. -/
def ClientRequest.address (request : ClientRequest) : Address :=
  (request.clientFd, request.connection)

/-- The address of a response. -/
def PendingResponse.address (response : PendingResponse) : Address :=
  (response.clientFd, response.connection)

/-- The address of a watch. -/
def StreamSub.address (sub : StreamSub) : Address := (sub.fd, sub.connection)

/-- The address of a connection. -/
def Connection.address (conn : Connection) : Address := (conn.fd, conn.number)

namespace State

/-- The open connections. -/
def opened (state : State) : List Address := state.connections.map Connection.address

/-- The addresses to which something is on its way. -/
def outstanding (state : State) : List Address :=
  state.requests.map ClientRequest.address ++ state.waitingWrites.map ClientRequest.address ++
    state.jobs.map (fun job => job.request.address) ++
    state.responses.map PendingResponse.address ++ state.lines.map PendingResponse.address ++
    state.streamSubs.map StreamSub.address

end State

/-- A new connection gets a descriptor to which nothing is on its way. -/
def NoReuse (state : State) : Action → Prop
  | .accept fd _ =>
    state.connections.length < maxConnections → ∀ address ∈ state.outstanding, address.1 ≠ fd
  | _ => True

instance (state : State) : (action : Action) → Decidable (NoReuse state action)
  | .accept fd _ => inferInstanceAs (Decidable (state.connections.length < maxConnections →
      ∀ address ∈ state.outstanding, address.1 ≠ fd))
  | .submitWaiting | .expire | .idle | .poll | .accepted | .serve _ | .finishPoll | .dispatch _
  | .drain | .complete _ _ _ _ | .event _ _ | .push _ => .isTrue trivial

/-- An address stands for an open connection or for none. -/
def Address.Fits (connections : List Address) (address : Address) : Prop :=
  ∀ conn ∈ connections, conn.1 = address.1 ↔ conn.2 = address.2

/-- Descriptors and numbers stand for connections, and bytes are where they belong. -/
structure Routed (state : State) : Prop where
  /-- Open connections differ in both. -/
  apart : state.opened.Pairwise fun left right => left.1 ≠ right.1 ∧ left.2 ≠ right.2
  /-- What is on its way has an address that fits. -/
  fits : ∀ address ∈ state.outstanding, Address.Fits state.opened address
  /-- The numbers of connections have been given. -/
  older : ∀ address ∈ state.opened ++ state.outstanding, address.2 < state.nextConnection
  /-- The bytes to be written. -/
  buffered : ∀ conn ∈ state.connections, ∀ byte ∈ conn.writeBuffer, byte.2 = conn.number
  /-- The bytes that were written. -/
  delivered : ∀ entry ∈ state.sent, entry.2.2 = entry.1

/-! ## Responding -/

/-- A response leaves the addresses. -/
theorem respond_opened (response : PendingResponse) (connections : List Connection) :
    (respond response connections).map Connection.address =
      connections.map Connection.address := by
  induction connections with
  | nil => rfl
  | cons conn rest ih =>
    unfold respond
    split
    · rfl
    · rw [List.map_cons, List.map_cons, ih]

/-- The bytes of the connections belong there. -/
def Buffered (connections : List Connection) : Prop :=
  ∀ conn ∈ connections, ∀ byte ∈ conn.writeBuffer, byte.2 = conn.number

/-- A response whose address fits keeps the bytes where they belong. -/
theorem Buffered.respond {response : PendingResponse} {connections : List Connection}
    (buffered : Buffered connections)
    (fits : Address.Fits (connections.map Connection.address) response.address) :
    Buffered (respond response connections) := by
  intro conn inside byte written
  cases mem_respond inside with
  | inl same => exact buffered conn same byte written
  | inr changed =>
    obtain ⟨old, there, own, equal⟩ := changed
    subst equal
    cases List.mem_append.mp written with
    | inl before => exact buffered old there byte before
    | inr added =>
      obtain ⟨_, _, rfl⟩ := List.mem_map.mp added
      have same := (fits old.address (List.mem_map_of_mem there)).mp own
      exact same.symm

/-- So do several. -/
theorem Buffered.respond_all {responses : List PendingResponse} {connections : List Connection}
    (buffered : Buffered connections)
    (fits : ∀ response ∈ responses,
      Address.Fits (connections.map Connection.address) response.address) :
    Buffered (responses.foldl (fun conns response => Daemon.respond response conns) connections) ∧
      (responses.foldl (fun conns response => Daemon.respond response conns) connections).map
        Connection.address = connections.map Connection.address := by
  induction responses generalizing connections with
  | nil => exact ⟨buffered, rfl⟩
  | cons response rest ih =>
    have first := buffered.respond (fits response List.mem_cons_self)
    have same := respond_opened response connections
    have others := ih first fun other inside => by
      rw [same]
      exact fits other (List.mem_cons_of_mem _ inside)
    rw [same] at others
    exact others

/-! ## What a step does to the addresses -/

/-- What is on its way was so before, or is for a certain address. -/
def Adds (address : Address) (state next : State) : Prop :=
  ∀ other ∈ next.outstanding, other ∈ state.outstanding ∨ other = address

/-- An answer is not on its way any more. -/
theorem adds_answer (state : State) (request : ClientRequest) (data : Bytes) (address : Address) :
    Adds address state (state.answer request data) := fun _ inside => .inl inside

/-- A submitted task is. -/
theorem adds_submit (state : State) (request : ClientRequest) (counted : Bool) (kind : JobKind) :
    Adds request.address state (state.submit request counted kind) := by
  intro other inside
  simp only [State.outstanding, State.submit, List.map_append, List.map_cons, List.map_nil,
    List.mem_append, List.mem_singleton] at inside ⊢
  grind

/-- So is a queued answer. -/
theorem adds_queue (state : State) (request : ClientRequest) (data : Bytes) :
    Adds request.address state (state.queue request data) := by
  intro other inside
  simp only [State.outstanding, State.queue, List.map_append, List.map_cons, List.map_nil,
    List.mem_append, List.mem_singleton] at inside ⊢
  have own : (State.response request data).address = request.address := rfl
  rw [own] at inside
  grind

/-- So are the lines of a watch. -/
theorem adds_subscribe (state : State) (request : ClientRequest) (sadhana : Int) :
    Adds request.address state (state.subscribe request sadhana) := by
  intro other inside
  simp only [State.outstanding, State.subscribe, List.map_append, List.map_cons, List.map_nil,
    List.mem_append, List.mem_singleton] at inside ⊢
  have kept : other ∈ (state.streamSubs.filter (·.fd ≠ request.clientFd)).map StreamSub.address →
      other ∈ state.streamSubs.map StreamSub.address := fun there =>
    (List.filter_sublist.map _).subset there
  have own : StreamSub.address
      { fd := request.clientFd, sadhana, connection := request.connection } = request.address := rfl
  rw [own] at inside
  grind

/-- So is a waiting write. -/
theorem adds_waiting (state : State) (request : ClientRequest) :
    Adds request.address state
      { state with waitingWrites := state.waitingWrites ++ [request] } := by
  intro other inside
  simp only [State.outstanding, List.map_append, List.map_cons, List.map_nil, List.mem_append,
    List.mem_singleton] at inside ⊢
  grind

/-- What a dispatched message does: it is answered to its sender, or goes on. -/
structure Dispatched (request : ClientRequest) (state next : State) : Prop where
  /-- What is on its way. -/
  outstanding : Adds request.address state next
  /-- The numbers of connections. -/
  nextConnection : next.nextConnection = state.nextConnection
  /-- The bytes that were written. -/
  sent : next.sent = state.sent
  /-- The connections. -/
  connections : next.connections = state.connections ∨ next.connections = [] ∨
    ∃ data, next.connections = respond (State.response request data) state.connections

/-- An answer. -/
theorem dispatched_answer (state : State) (request : ClientRequest) (data : Bytes) :
    Dispatched request state (state.answer request data) :=
  ⟨adds_answer state request data _, rfl, rfl, .inr (.inr ⟨data, rfl⟩)⟩

/-- A dispatched message. -/
theorem dispatched (library : Library) (config : Config) (state : State) (request : ClientRequest)
    (outcome : Outcome) :
    Dispatched request state (state.dispatch library config request outcome) := by
  have replied : ∀ id reply,
      Dispatched request state (state.reply library request id reply) := fun id reply =>
    dispatched_answer state request _
  have submitted : ∀ counted kind, Dispatched request state (state.submit request counted kind) :=
    fun counted kind => ⟨adds_submit state request counted kind, rfl, rfl, .inl rfl⟩
  unfold State.dispatch
  split
  · exact ⟨fun _ inside => .inl inside, rfl, rfl, .inr (.inl rfl)⟩
  · exact dispatched_answer state request _
  · exact { dispatched_answer state request (bytes shutdownText) with }
  · exact dispatched_answer state request _
  · rename_i id sadhana _
    exact ⟨adds_subscribe state request sadhana, rfl, rfl, .inr (.inr ⟨_, rfl⟩)⟩
  · split
    · exact replied _ _
    · exact replied _ _
  · dsimp only
    split
    · exact replied _ _
    · split
      · exact { submitted false (.learn _) with }
      · exact replied _ _
  · split
    · exact replied _ _
    · split
      · exact { submitted false .compact with }
      · exact replied _ _
  · split
    · split
      · exact submitted _ _
      · split
        · exact ⟨adds_waiting state request, rfl, rfl, .inl rfl⟩
        · exact replied _ _
    · split
      · exact submitted _ _
      · exact replied _ _

/-! ## Steps -/

namespace Routed

/-- The daemon before the loop. -/
theorem initial : Routed .initial where
  apart := .nil
  fits address inside := by contradiction
  older address inside := by contradiction
  buffered conn inside := by contradiction
  delivered entry inside := by contradiction

/-- The address of an open connection fits. -/
theorem fits_opened (routed : Routed state) {address : Address}
    (inside : address ∈ state.opened) : Address.Fits state.opened address := by
  intro conn other
  have same : state.opened.Pairwise fun left right => left.1 = right.1 ↔ left.2 = right.2 :=
    routed.apart.imp fun apart => by simp [apart.1, apart.2]
  have flipped : state.opened.Pairwise (flip fun left right : Address =>
      left.1 = right.1 ↔ left.2 = right.2) :=
    routed.apart.imp fun apart => by simp [flip, apart.1.symm, apart.2.symm]
  exact List.Pairwise.forall_of_forall_of_flip (fun _ _ => by simp) same flipped other inside

/-- Fewer connections, and nothing for an unknown address, keep the addresses. -/
theorem keep (routed : Routed state) (opened : next.opened.Sublist state.opened)
    (outstanding : ∀ address ∈ next.outstanding,
      address ∈ state.outstanding ∨ address ∈ state.opened)
    (numbers : next.nextConnection = state.nextConnection) (buffered : Buffered next.connections)
    (delivered : ∀ entry ∈ next.sent, entry.2.2 = entry.1) : Routed next where
  apart := routed.apart.sublist opened
  fits := by
    intro address inside conn open_
    have before := opened.subset open_
    cases outstanding address inside with
    | inl known => exact routed.fits address known conn before
    | inr own => exact routed.fits_opened own conn before
  older := by
    intro address inside
    rw [numbers]
    apply routed.older address
    cases List.mem_append.mp inside with
    | inl open_ => exact List.mem_append_left _ (opened.subset open_)
    | inr under => exact List.mem_append.mpr (outstanding address under).symm
  buffered := buffered
  delivered := delivered

/-- A step that leaves the connections alone. -/
theorem quiet (routed : Routed state) (connections : next.connections = state.connections)
    (outstanding : ∀ address ∈ next.outstanding, address ∈ state.outstanding)
    (numbers : next.nextConnection = state.nextConnection) (sent : next.sent = state.sent) :
    Routed next := by
  have same : next.opened = state.opened := congrArg (List.map Connection.address) connections
  have opened : next.opened.Sublist state.opened := same ▸ List.Sublist.refl _
  have buffered : Buffered next.connections := connections ▸ routed.buffered
  have delivered : ∀ entry ∈ next.sent, entry.2.2 = entry.1 := sent ▸ routed.delivered
  exact routed.keep opened (fun address inside => .inl (outstanding address inside))
    numbers buffered
    delivered

/-- A message is dispatched. -/
theorem dispatch (routed : Routed state) {request : ClientRequest}
    (known : request.address ∈ state.outstanding) (done : Dispatched request state next) :
    Routed next := by
  have outstanding : ∀ address ∈ next.outstanding,
      address ∈ state.outstanding ∨ address ∈ state.opened := by
    intro address inside
    cases done.outstanding address inside with
    | inl before => exact .inl before
    | inr own => exact .inl (own ▸ known)
  have delivered : ∀ entry ∈ next.sent, entry.2.2 = entry.1 := done.sent ▸ routed.delivered
  have kept : Buffered next.connections ∧ next.opened.Sublist state.opened := by
    unfold State.opened
    rcases done.connections with same | none_left | ⟨data, answered⟩
    · rw [same]
      exact ⟨routed.buffered, List.Sublist.refl _⟩
    · rw [none_left]
      exact ⟨fun conn inside => by contradiction, List.nil_sublist _⟩
    · rw [answered, respond_opened]
      exact ⟨Buffered.respond routed.buffered (routed.fits _ known), List.Sublist.refl _⟩
  exact routed.keep kept.2 outstanding done.nextConnection kept.1 delivered

/-- A client is accepted. -/
theorem accept (routed : Routed state) {fd peerPid : Int}
    (free : fd ∉ state.connections.map (·.fd)) (fresh : NoReuse state (.accept fd peerPid)) :
    Routed (state.accept fd peerPid) := by
  unfold State.accept
  split
  · exact routed
  rename_i room
  have unused := fresh (Nat.not_le.mp room)
  have opened : ∀ address ∈ state.opened, address.1 ≠ fd ∧ address.2 < state.nextConnection := by
    intro address inside
    refine ⟨fun same => ?_, routed.older address (List.mem_append_left _ inside)⟩
    obtain ⟨conn, there, equal⟩ := List.mem_map.mp inside
    apply free
    rw [← same, ← equal]
    exact List.mem_map_of_mem there
  have now : State.opened { state with
      connections := state.connections ++ [.accepted state.nextConnection fd peerPid]
      nextConnection := state.nextConnection + 1 } =
        state.opened ++ [(fd, state.nextConnection)] := by
    simp [State.opened, Connection.address, Connection.accepted]
  exact
    { apart := by
        rw [now, List.pairwise_append]
        refine ⟨routed.apart, List.pairwise_singleton _ _, fun left inside right own => ?_⟩
        rw [List.mem_singleton.mp own]
        have differs := opened left inside
        exact ⟨differs.1, Nat.ne_of_lt differs.2⟩
      fits := by
        intro address inside conn open_
        rw [now] at open_
        have under : address ∈ state.outstanding := inside
        cases List.mem_append.mp open_ with
        | inl before => exact routed.fits address under conn before
        | inr own =>
          rw [List.mem_singleton.mp own]
          have other := unused address under
          have earlier := routed.older address (List.mem_append_right _ under)
          constructor
          · intro same
            exact absurd same.symm other
          · intro same
            have number : state.nextConnection = address.2 := same
            omega
      older := by
        intro address inside
        show address.2 < state.nextConnection + 1
        rw [now] at inside
        rcases List.mem_append.mp inside with open_ | under
        · cases List.mem_append.mp open_ with
          | inl before =>
            have bound := (opened address before).2
            omega
          | inr own =>
            rw [List.mem_singleton.mp own]
            exact Nat.lt_succ_self _
        · have bound := routed.older address (List.mem_append_right _ under)
          omega
      buffered := by
        intro conn inside
        cases List.mem_append.mp inside with
        | inl before => exact routed.buffered conn before
        | inr own =>
          rw [List.mem_singleton.mp own]
          intro byte written
          contradiction
      delivered := routed.delivered }

/-- A client is served. -/
theorem serve (routed : Routed state) {conn : Connection} {index : Nat}
    (found : state.connections[index]? = some conn) (ready : Readiness) (phase : Phase) :
    Routed { state.serve conn index ready with phase } := by
  have inside := List.mem_of_getElem? found
  have same := conn.same_serve ready
  have address : (conn.serve ready).2.address = conn.address :=
    Prod.ext same.1.fd same.1.number
  have kept : (state.connections.set index (conn.serve ready).2).map Connection.address =
      state.connections.map Connection.address := by
    rw [List.map_set, address]
    apply List.ext_getElem?
    intro position
    by_cases own : index = position
    · subst own
      have present : (state.connections.map Connection.address)[index]? = some conn.address := by
        rw [List.getElem?_map, found]
        rfl
      rw [present, List.getElem?_set_self]
      exact (List.getElem?_eq_some_iff.mp present).1
    · rw [List.getElem?_set_ne own]
  have opened : ((state.connections.set index (conn.serve ready).2).map
      Connection.address).Sublist state.opened := by
    rw [kept]
    exact List.Sublist.refl _
  have buffered : Buffered (state.connections.set index (conn.serve ready).2) := by
    intro other there byte written
    cases List.mem_or_eq_of_mem_set there with
    | inl old => exact routed.buffered other old byte written
    | inr own =>
      rw [own] at written ⊢
      rw [same.1.number]
      exact routed.buffered conn inside byte (same.2.2 byte written)
  have delivered : ∀ entry ∈ state.sent ++ (conn.serve ready).1.map fun byte => (conn.number, byte),
      entry.2.2 = entry.1 := by
    intro entry there
    cases List.mem_append.mp there with
    | inl old => exact routed.delivered entry old
    | inr new =>
      obtain ⟨byte, taken, rfl⟩ := List.mem_map.mp new
      exact routed.buffered conn inside byte (same.2.1 byte taken)
  exact routed.keep opened (fun address inside => .inl inside) rfl buffered delivered

/-- `poll` returns. -/
theorem finishPoll (routed : Routed state) : Routed state.finishPoll := by
  have extracted : state.connections.map (fun conn => conn.messages.2.address) =
      state.connections.map Connection.address := by
    apply List.map_congr_left
    intro conn _
    have same := (conn.same_extractMessages conn.readBuffer.length).1
    exact Prod.ext same.fd same.number
  have opened : ((State.finishPoll state).connections.map Connection.address).Sublist
      state.opened := by
    have left : ∀ conns : List Connection, ((conns.filter fun conn => !conn.wantsClose).map
        Connection.address).Sublist (conns.map Connection.address) := fun conns =>
      List.filter_sublist.map _
    have shorter := left (state.connections.map fun conn => conn.messages.2)
    rw [List.map_map] at shorter
    unfold State.opened
    rw [← extracted]
    exact shorter
  have outstanding : ∀ address ∈ state.finishPoll.outstanding,
      address ∈ state.outstanding ∨ address ∈ state.opened := by
    intro address inside
    have subs : address ∈ state.finishPoll.streamSubs.map StreamSub.address →
        address ∈ state.streamSubs.map StreamSub.address := fun there =>
      (List.filter_sublist.map _).subset there
    have asked : address ∈ state.extracted.map ClientRequest.address → address ∈ state.opened := by
      intro there
      obtain ⟨request, listed, equal⟩ := List.mem_map.mp there
      obtain ⟨⟨⟨conn, data⟩, number⟩, numbered, same⟩ := List.mem_map.mp listed
      have given : (conn, data) ∈ State.received state.connections := by
        have first : (conn, data) ∈ ((State.received state.connections).zipIdx
            state.nextRequest).map Prod.fst := List.mem_map.mpr ⟨_, numbered, rfl⟩
        rwa [List.zipIdx_map_fst] at first
      obtain ⟨sender, open_, sent⟩ := List.mem_flatMap.mp given
      obtain ⟨_, _, pair⟩ := List.mem_map.mp sent
      cases pair
      rw [← equal, ← same]
      exact List.mem_map_of_mem open_
    simp only [State.outstanding, State.finishPoll, List.mem_append] at inside subs ⊢
    grind
  have buffered : Buffered state.finishPoll.connections := by
    intro conn inside byte written
    obtain ⟨old, there, equal⟩ := List.mem_map.mp (List.mem_filter.mp inside).1
    have same := old.same_extractMessages old.readBuffer.length
    rw [← equal] at written ⊢
    have before : byte ∈ old.writeBuffer := same.2 ▸ written
    exact (routed.buffered old there byte before).trans same.1.number.symm
  exact routed.keep opened outstanding rfl buffered routed.delivered

/-- The queued responses are written. -/
theorem drain (routed : Routed state) : Routed state.drain := by
  have known : ∀ response ∈ state.responses,
      Address.Fits (state.connections.map Connection.address) response.address := by
    intro response inside
    apply routed.fits
    simp only [State.outstanding, List.mem_append]
    exact .inl (.inl (.inr (List.mem_map_of_mem inside)))
  have written := Buffered.respond_all routed.buffered known
  have opened : state.drain.opened.Sublist state.opened := by
    show (List.map Connection.address (List.foldl _ _ _)).Sublist _
    rw [written.2]
    exact List.Sublist.refl _
  have outstanding : ∀ address ∈ state.drain.outstanding,
      address ∈ state.outstanding ∨ address ∈ state.opened := by
    intro address inside
    simp only [State.outstanding, State.drain, List.mem_append, List.map_nil, List.not_mem_nil]
      at inside ⊢
    grind
  exact routed.keep opened outstanding rfl written.1 routed.delivered

/-- A line or an answer is queued, and what it was for is kept. -/
theorem adds (routed : Routed state) {address : Address} (known : address ∈ state.outstanding)
    (added : Adds address state next) (connections : next.connections = state.connections)
    (numbers : next.nextConnection = state.nextConnection) (sent : next.sent = state.sent) :
    Routed next := by
  have outstanding : ∀ other ∈ next.outstanding, other ∈ state.outstanding := by
    intro other inside
    cases added other inside with
    | inl before => exact before
    | inr own => exact own ▸ known
  exact routed.quiet connections outstanding numbers sent

/-- A step of the loop. -/
theorem loopStep (routed : Routed state) {action : Action} (fresh : NoReuse state action)
    (step : LoopStep library config state action next) : Routed next := by
  cases step with
  | @submitWaiting request rest _ waiting =>
    have known : request.address ∈ state.outstanding := by
      simp [State.outstanding, waiting]
    refine routed.adds known (fun other inside => ?_) rfl rfl rfl
    have added := adds_submit { state with waitingWrites := rest } request false .plain other
      inside
    simp only [State.outstanding, waiting, List.map_cons, List.mem_append, List.mem_cons] at added ⊢
    grind
  | @expire request rest _ _ waiting =>
    have known : request.address ∈ state.outstanding := by
      simp [State.outstanding, waiting]
    refine routed.adds known (fun other inside => ?_) rfl rfl rfl
    have added := adds_queue { state with waitingWrites := rest } request _ other inside
    simp only [State.outstanding, waiting, List.map_cons, List.mem_append, List.mem_cons] at added ⊢
    grind
  | idle _ =>
    refine routed.quiet rfl (fun other inside => ?_) rfl rfl
    simp only [State.outstanding, List.map_nil, List.nil_append, List.mem_append] at inside ⊢
    grind
  | poll _ => exact routed.quiet rfl (fun _ inside => inside) rfl rfl
  | accept _ free => exact routed.accept free fresh
  | accepted _ => exact routed.quiet rfl (fun _ inside => inside) rfl rfl
  | serve _ _ found => exact routed.serve found _ _
  | finishPoll _ _ => exact routed.finishPoll
  | @dispatch outcome request rest _ requests =>
    have known : request.address ∈ state.outstanding := by
      simp [State.outstanding, requests]
    have done := dispatched library config { state with requests := rest } request outcome
    apply routed.dispatch known
    exact
      { outstanding := by
          intro other inside
          have added := done.outstanding other inside
          simp only [State.outstanding, requests, List.map_cons, List.mem_append,
            List.mem_cons] at added ⊢
          grind
        nextConnection := done.nextConnection
        sent := done.sent
        connections := done.connections }
  | drain _ _ => exact routed.drain

/-- A step of the daemon that gives no descriptor away too early. -/
theorem step (routed : Routed state) {action : Action} (fresh : NoReuse state action)
    (taken : (machine library config).step state action = some next) : Routed next := by
  cases (step_cases taken).2 with
  | @complete index job tools counts what found =>
    have inside := List.mem_of_getElem? found
    have known : job.request.address ∈ state.outstanding := by
      simp only [State.outstanding, List.mem_append]
      exact .inl (.inl (.inl (.inr (List.mem_map.mpr ⟨job, inside, rfl⟩))))
    have queued : Adds job.request.address state
        ({ state with jobs := state.jobs.eraseIdx index }.queue job.request
          (State.workText library tools counts what job)) := by
      intro other there
      have added := adds_queue { state with jobs := state.jobs.eraseIdx index } job.request _
        other there
      have fewer : other ∈ (state.jobs.eraseIdx index).map (fun job => job.request.address) →
          other ∈ state.jobs.map (fun job => job.request.address) := fun listed =>
        ((List.eraseIdx_sublist _ _).map _).subset listed
      simp only [State.outstanding, List.mem_append] at added ⊢
      grind
    cases kind : job.kind with
    | plain => exact routed.adds known queued rfl rfl rfl
    | learn key => exact routed.adds known queued rfl rfl rfl
    | compact => exact routed.adds known queued rfl rfl rfl
  | event sadhana line =>
    refine routed.quiet rfl (fun other inside => ?_) rfl rfl
    have watched : ∀ (subs : List StreamSub) (keep : StreamSub → Bool),
        other ∈ ((subs.filter keep).map fun sub : StreamSub =>
          ({ clientFd := sub.fd, data := line, connection := sub.connection } :
            PendingResponse)).map PendingResponse.address →
        other ∈ subs.map StreamSub.address := by
      intro subs keep listed
      rw [List.map_map] at listed
      exact (List.filter_sublist.map _).subset listed
    simp only [State.outstanding, State.push, List.map_append, List.mem_append] at inside ⊢
    have own := watched state.streamSubs fun sub => sub.sadhana = 0 || sub.sadhana = sadhana
    grind
  | @push index line found =>
    refine routed.quiet rfl (fun other inside => ?_) rfl rfl
    have listed : line.address ∈ state.lines.map PendingResponse.address :=
      List.mem_map_of_mem (List.mem_of_getElem? found)
    have fewer : other ∈ (state.lines.eraseIdx index).map PendingResponse.address →
        other ∈ state.lines.map PendingResponse.address := fun there =>
      ((List.eraseIdx_sublist _ _).map _).subset there
    simp only [State.outstanding, List.map_append, List.map_cons, List.map_nil, List.mem_append,
      List.mem_singleton] at inside ⊢
    grind
  | loop step => exact routed.loopStep fresh step

/-- A run that gives no descriptor away too early. -/
theorem reached (reached : (machine library config).Reaches NoReuse state) : Routed state :=
  reached.invariant .initial fun _ _ _ routed fresh taken => routed.step fresh taken

end Routed

/-! ## Responses reach their requesters -/

/-- Open connections with one descriptor are one. -/
theorem Routed.unique (routed : Routed state) {left right : Connection}
    (first : left ∈ state.connections) (second : right ∈ state.connections)
    (same : left.fd = right.fd) : left = right := by
  have apart : state.connections.Pairwise fun left right => left.fd ≠ right.fd :=
    (List.pairwise_map.mp routed.apart).imp fun differ => differ.1
  have flipped : state.connections.Pairwise (flip fun left right : Connection =>
      left.fd = right.fd → left = right) :=
    apart.imp fun differ equal => absurd equal.symm differ
  exact List.Pairwise.forall_of_forall_of_flip (fun _ _ _ => rfl)
    (apart.imp fun differ equal => absurd equal differ) flipped first second same

/-- While no descriptor is given to a new connection before everything for the older one is over,
every byte is written to the connection whose request it answers; a queued response is written to
that connection and no other, and is dropped when it is closed. -/
theorem responses_to_requester (reached : (machine library config).Reaches NoReuse state) :
    (∀ conn ∈ state.connections, ∀ byte ∈ conn.writeBuffer, byte.2 = conn.number) ∧
      (∀ entry ∈ state.sent, entry.2.2 = entry.1) ∧
      ∀ response ∈ state.responses,
        ((∀ conn ∈ state.connections, conn.number ≠ response.connection) →
          respond response state.connections = state.connections) ∧
        ∀ conn ∈ state.connections,
          if conn.number = response.connection then
            { conn with
              writeBuffer := conn.writeBuffer ++
                (response.data ++ [newline]).map fun byte => (byte, response.connection) } ∈
              respond response state.connections
          else conn ∈ respond response state.connections := by
  have routed := Routed.reached reached
  refine ⟨routed.buffered, routed.delivered, fun response queued => ?_⟩
  have known : response.address ∈ state.outstanding := by
    simp only [State.outstanding, List.mem_append]
    exact .inl (.inl (.inr (List.mem_map_of_mem queued)))
  have fits : ∀ conn ∈ state.connections,
      conn.fd = response.clientFd ↔ conn.number = response.connection := fun conn inside =>
    routed.fits _ known conn.address (List.mem_map_of_mem inside)
  refine ⟨fun closed => ?_, fun conn inside => ?_⟩
  · apply respond_absent
    intro conn inside own
    exact closed conn inside ((fits conn inside).mp own)
  · split
    · rename_i own
      have fd := (fits conn inside).mpr own
      exact mem_respond_own inside fd fun other there same =>
        routed.unique there inside (same.trans fd.symm)
    · rename_i other
      exact mem_respond_other inside fun same => other ((fits conn inside).mp same)

/-! ## A descriptor that is given away -/

/-- A request. -/
def recallText : String := "\x7b\"id\":1,\"method\":\"recall\"\x7d"

/-- Its answer. -/
def unknownText : String :=
  "\x7b\"error\":\x7b\"code\":-32601,\"message\":\"Unknown method: recall\"\x7d,\"id\":1,\"jsonrpc\":\"2.0\"\x7d"

/-- A library that reads the request and writes the answer. -/
def recallLibrary : Library where
  parse data :=
    if data = bytes recallText then
      some (.object [("id", .int 1), ("method", .str "recall")])
    else none
  dump _ := bytes unknownText

/-- A daemon with one pool. -/
def onePool : Config where
  writePool := false
  maxQueueDepth := 256

/-- No tools. -/
def noTools : Tools where
  list := .null
  find _ := none
  ready := true
  embedCache := .null

/-- A pool that accepts. -/
def accepting : Outcome where
  accepts := true
  stats := []
  store := none

/-- A client connects, sends a request and it is given to the pool. -/
def requested : List Action :=
  [.poll, .accept 7 100, .accepted, .finishPoll, .drain,
    .poll, .accepted, .serve ⟨some (.data (bytes recallText ++ [newline])), none, false⟩,
    .finishPoll, .dispatch accepting, .drain]

/-- The client goes before its answer is there, and another one gets its descriptor. -/
def replaced : List Action :=
  [.poll, .accepted, .serve ⟨some .closed, none, false⟩, .finishPoll, .drain,
    .poll, .accept 7 200, .accepted, .finishPoll, .complete 0 noTools ⟨8, 0, 0⟩ "", .drain]

/-- The other client gets the answer. -/
theorem responses_to_requester_refuted :
    ¬∀ (library : Library) (config : Config) (state : State),
      (machine library config).Reachable state →
        ∀ conn ∈ state.connections, ∀ byte ∈ conn.writeBuffer, byte.2 = conn.number := by
  intro claim
  have replayed : ((machine recallLibrary onePool).run .initial (requested ++ replaced)).any
      (fun state => state.connections.any fun conn => conn.number == 1 &&
        conn.writeBuffer.map (·.1) == bytes unknownText ++ [newline] &&
        conn.writeBuffer.all fun byte => byte.2 == 0) = true := by decide +kernel
  obtain ⟨state, run, found⟩ := (Option.any_eq_true _ _).mp replayed
  obtain ⟨conn, inside, wrong⟩ := List.any_eq_true.mp found
  have facts := Bool.and_eq_true_iff.mp wrong
  have numbers := Bool.and_eq_true_iff.mp facts.1
  have right := claim recallLibrary onePool state (.of_run _ .initial run) conn inside
  cases buffer : conn.writeBuffer with
  | nil =>
    rw [buffer] at numbers
    exact absurd numbers.2 (by decide +kernel)
  | cons byte rest =>
    have there : byte ∈ conn.writeBuffer := by rw [buffer]; exact List.mem_cons_self
    have zero : byte.2 = 0 := eq_of_beq (List.all_eq_true.mp facts.2 byte there)
    have one : conn.number = 1 := eq_of_beq numbers.1
    have same := right byte there
    rw [zero, one] at same
    contradiction

/-- The client that stays gets its answer. -/
theorem responses_to_requester_answered :
    ∃ state : State, ∃ response ∈ state.responses, ∃ conn ∈ state.connections,
      { conn with
        writeBuffer := conn.writeBuffer ++
          (response.data ++ [newline]).map fun byte => (byte, response.connection) } ∈
        respond response state.connections := by
  have replayed : ((machine recallLibrary onePool).runAllowed NoReuse .initial
      (requested ++ [.complete 0 noTools ⟨8, 0, 0⟩ ""])).any
      (fun state => state.responses.any fun response => state.connections.any fun conn =>
        conn.number == response.connection) = true := by
    decide +kernel
  obtain ⟨state, run, found⟩ := (Option.any_eq_true _ _).mp replayed
  obtain ⟨response, queued, found⟩ := List.any_eq_true.mp found
  obtain ⟨conn, inside, own⟩ := List.any_eq_true.mp found
  have routed := responses_to_requester (.of_runAllowed _ .initial run)
  have written := (routed.2.2 response queued).2 conn inside
  rw [if_pos (eq_of_beq own)] at written
  exact ⟨state, response, queued, conn, inside, written⟩

end Chitta.Daemon
