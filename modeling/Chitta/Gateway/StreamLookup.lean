import Chitta.Gateway.CapsuleRows

/-!
# Looking up the leases of streams

The gateway looks for the lease of a stream, and for all of them, on the first page of a listing
only. A page has a hundred leases at most, the last heartbeat first, so a lease that stands behind
them is not found. A listing of all streams also reads the metadata of their sessions, and throws
when one has none.
-/
namespace Chitta.Gateway

open Ledger (Library TaskLedger Batch OwnedBy fits elements emptyLibrary sessionArguments TableName
  leased given)

/-- The time at which a lease ends, as a double. -/
def endsAt (lease : Json) : Rat :=
  match ((lease.find "expires_at").getD .null).getDouble with
  | .ok value => value
  | .error _ => 0

/-- The first page of some leases: a hundred of them, the last heartbeat first and then by the ids
of the threads. -/
def firstPage (ledger : TaskLedger) (shown : Json → Prop) [DecidablePred shown] :
    List (String × Json) :=
  Ledger.firstRows .leases 100
    ((ledger.tables .threadLeases).rows.filter fun entry => shown entry.2)

/-- The stream of a thread. -/
def streamOf (thread : String) : Option String := behindPrefix "stream:" thread

/-- The leases of streams that still live when they are looked at, one after the other, each with a
reading of the clock and then another one for its session. -/
def lookedAt (clock : Nat → Rat) : Nat → List (String × Json) → List (String × Json)
  | _, [] => []
  | reading, (thread, lease) :: rest =>
    if streamOf thread = none then lookedAt clock reading rest
    else if endsAt lease ≤ clock reading then lookedAt clock (reading + 1) rest
    else (thread, lease) :: lookedAt clock (reading + 2) rest

/-- The session of a lease has metadata that can be read. -/
def SessionReadable (library : Library) (ledger : TaskLedger) (lease : Json) : Prop :=
  ∃ id row text value, lease.find "session_id" = some (.str id) ∧
    ledger.Stored .threadSessions id row ∧ row.find "metadata_json" = some (.str text) ∧
    library.parse text = some value

/-- A lease does not end during a call, which reads the clock 201 times at most. -/
def Lives (env : Env) (world : World) (lease : Json) : Prop :=
  ∀ reading, world.readings ≤ reading → reading ≤ world.readings + 200 →
    env.clock reading < endsAt lease

/-- A claim shows a lease: it has all its fields. -/
def Shows (lease claim : Json) : Prop :=
  ∀ key ∈ TableName.threadLeases.keys, claim.find key = lease.find key

/-- The list of all streams has every lease of a stream that lives, once. -/
def ListsStreams (library : Library) (env : Env) (world : World) (args : Json) : Prop :=
  ∃ claims, (streamList library env args world).1 = .ok (.object [("claims", .arr claims)]) ∧
    ∀ thread lease, world.ledger.Stored .threadLeases thread lease → (streamOf thread).isSome →
      Lives env world lease →
      (∃ claim ∈ claims, Shows lease claim) ∧
        claims.countP (fun claim => claim.find "thread_id" = some (.str thread)) = 1

/-- The lease of a thread that a session owns is found. -/
def FindsLease (library : Library) (env : Env) (world : World) (thread session : String) : Prop :=
  ∀ lease, world.ledger.Stored .threadLeases thread lease → OwnedBy session lease →
    (ownedLease library env thread session world).1 = .ok lease

variable {library : Library} {env : Env} {world : World}

/-! ## Fields of leases -/

/-- The end of a stored lease is a number. -/
theorem lease_ends {ledger : TaskLedger} (valid : ledger.Valid library) {thread : String}
    {lease : Json} (stored : ledger.Stored .threadLeases thread lease) :
    ∃ value, lease.find "expires_at" = some value ∧ value.getDouble = .ok (endsAt lease) := by
  have checked := valid.checked .threadLeases thread lease stored
  have inside : "expires_at" ∈ TableName.threadLeases.keys := by decide
  obtain ⟨value, found, fitting⟩ := Ledger.validateRow_fitting checked.2 checked.1 inside
  have number := fitting.resolve_left fun null => absurd null.1 (by decide)
  rw [if_pos (by decide)] at number
  refine ⟨value, found, ?_⟩
  rw [endsAt, found]
  cases value with
  | int value => rfl
  | float value => rfl
  | _ => contradiction

/-- The session of a stored lease is a text. -/
theorem lease_session {ledger : TaskLedger} (valid : ledger.Valid library) {thread : String}
    {lease : Json} (stored : ledger.Stored .threadLeases thread lease) :
    ∃ id, lease.find "session_id" = some (.str id) := by
  have checked := valid.checked .threadLeases thread lease stored
  exact Ledger.validateRow_text checked.2 checked.1 (by decide) (by decide) (by decide)

/-- The filter of a session selects the leases that it owns. -/
theorem fits_owned (session : String) (lease : Json) :
    fits [("session_id", .str session)] lease = decide (OwnedBy session lease) := by
  rw [Bool.eq_iff_iff, decide_eq_true_iff, OwnedBy]
  simp only [fits, List.all_cons, List.all_nil, Bool.and_true]
  cases lease.find "session_id" with
  | none => simp
  | some owner =>
    cases owner with
    | str other => simp [Json.same]
    | _ => simp [Json.same]

/-! ## Listing leases -/

/-- A page has a hundred rows when a thousand are asked for. -/
theorem limit_thousand {a : Json} (found : a.find "limit" = some (.int 1000)) :
    Ledger.pageLimit a = .ok 100 := by
  have read : a.valueWith Json.getInt "limit" 100 = .ok 1000 := by
    rw [Json.valueWith_of_find found]
    decide
  rw [Ledger.pageLimit, read]
  rfl

/-- The first page of leases with these filters. -/
theorem run_leaseList (valid : world.ledger.Valid library) {a : Json}
    {filters : List (String × Json)} {active : Bool}
    (read : Ledger.filtersOf .leases a = .ok filters)
    (indexed : ∀ filter ∈ filters, filter.1 ∈ TableName.threadLeases.indexed)
    (asked : a.valueWith Json.getBool "active_only" true = .ok active)
    (start : given a "after" = none) (limit : Ledger.pageLimit a = .ok 100)
    (shown : Json → Prop) [DecidablePred shown]
    (agrees : ∀ row, decide (shown row) =
      (fits filters row && !(active && decide (endsAt row ≤ env.clock world.readings)))) :
    ∃ page, run library env "lease_list" a world =
        (.ok page, { world with readings := world.readings + 1 }) ∧
      page.at "rows" = .ok (.arr ((firstPage world.ledger shown).map (·.2))) := by
  have fields : ∀ filter ∈ filters, filter.1 ∈ (world.ledger.tables .threadLeases).fields := by
    intro filter inside
    rw [(valid.sound .threadLeases).2]
    exact indexed filter inside
  have textual := valid.textual .threadLeases
  have selected := (valid.exact .threadLeases).select textual (textual.covers fields)
  have sorted := (valid.exact .threadLeases).sorted
  let entries := (world.ledger.tables .threadLeases).rows.filter fun entry => shown entry.2
  have there : ∀ entry ∈ entries, world.ledger.Stored .threadLeases entry.1 entry.2 := by
    intro entry inside
    exact sorted.mem_iff.mp (List.mem_filter.mp inside).1
  have excluded : ∀ row ∈ ((world.ledger.tables .threadLeases).rows.filter fun entry =>
      fits filters entry.2).map (·.2),
      Ledger.excludes library .leases a (env.clock world.readings) row =
        .ok (active && decide (endsAt row ≤ env.clock world.readings)) := by
    intro row inside
    obtain ⟨entry, member, rfl⟩ := List.mem_map.mp inside
    have stored := sorted.mem_iff.mp (List.mem_filter.mp member).1
    obtain ⟨value, found, number⟩ := lease_ends valid stored
    cases active with
    | false => simp [Ledger.excludes, asked, bind, Except.bind, pure, Except.pure]
    | true =>
      simp [Ledger.excludes, asked, Ledger.index_of_find found, number, bind, Except.bind, pure,
        Except.pure]
  have kept : (((world.ledger.tables .threadLeases).rows.filter fun entry =>
      fits filters entry.2).map (·.2)).filter (fun row =>
        !(active && decide (endsAt row ≤ env.clock world.readings))) = entries.map (·.2) := by
    rw [List.filter_map, List.filter_filter]
    refine congrArg (List.map Prod.snd) (List.filter_congr ?_)
    intro entry _
    rw [agrees, Bool.and_comm]
    rfl
  have listed : Ledger.list library world.ledger .leases a (env.clock world.readings) =
      .ok (Ledger.pageOf .leases (entries.map (Ledger.itemOf .leases)) 100) := by
    have positions := @Ledger.TaskLedger.Valid.positioned library world.ledger .leases valid entries
      there
    have everywhere : Ledger.targetRealm .leases a = none := by simp [Ledger.targetRealm]
    simp only [Ledger.list, read, bind, Except.bind, Ledger.selected, everywhere,
      Ledger.Listing.table, selected, Ledger.remaining_eq excluded, kept, positions, start,
      Ledger.behind, limit, pure, Except.pure]
  refine ⟨_, ?_, (Ledger.page_eq .leases entries 100).1⟩
  refine run_answer ?_ (by decide)
  show (do return Ledger.Planned.answer (← Ledger.list library world.ledger .leases a _)) = _
  rw [listed]
  rfl

/-- The leases on a page are stored. -/
theorem stored_of_firstPage (valid : world.ledger.Valid library) {shown : Json → Prop}
    [DecidablePred shown] {entry : String × Json} (inside : entry ∈ firstPage world.ledger shown) :
    world.ledger.Stored .threadLeases entry.1 entry.2 := by
  have among := Ledger.mem_of_mem_firstRows inside
  exact (valid.exact .threadLeases).sorted.mem_iff.mp (List.mem_filter.mp among).1

/-- The leases on a page are shown. -/
theorem shown_of_firstPage {ledger : TaskLedger} {shown : Json → Prop} [DecidablePred shown]
    {entry : String × Json} (inside : entry ∈ firstPage ledger shown) : shown entry.2 := by
  have among := Ledger.mem_of_mem_firstRows inside
  simpa using (List.mem_filter.mp among).2

/-! ## The lease of a thread -/

/-- The lease of a thread among stored leases. -/
theorem leaseOf_eq {ledger : TaskLedger} (valid : ledger.Valid library) (thread : String)
    {entries : List (String × Json)}
    (stored : ∀ entry ∈ entries, ledger.Stored .threadLeases entry.1 entry.2) :
    leaseOf thread (entries.map (·.2)) =
      .ok (((entries.find? fun entry => entry.1 = thread).map (·.2)).getD .null) := by
  induction entries with
  | nil => rfl
  | cons entry rest ih =>
    obtain ⟨own, later⟩ := List.forall_mem_cons.mp stored
    have key : entry.2.valueString "thread_id" "" = .ok entry.1 :=
      Json.valueWith_of_find (valid.key own) Json.getString ""
    rw [List.map_cons, leaseOf, key]
    by_cases same : entry.1 = thread
    · simp [same, bind, Except.bind, pure, Except.pure]
    · simp only [bind, Except.bind, if_neg same, ih later]
      simp [same]

/-- The lease of a thread is looked for on the first page of the leases of the session. -/
theorem ownedLease_eq (valid : world.ledger.Valid library) (thread session : String) :
    ownedLease library env thread session world = (.ok
      ((((firstPage world.ledger (OwnedBy session)).find? fun entry => entry.1 = thread).map
        (·.2)).getD .null), { world with readings := world.readings + 1 }) := by
  have agrees : ∀ row, decide (OwnedBy session row) = (fits [("session_id", .str session)] row &&
      !(false && decide (endsAt row ≤ env.clock world.readings))) := by
    intro row
    rw [fits_owned, Bool.false_and, Bool.not_false, Bool.and_true]
  have indexed : ∀ filter ∈ [("session_id", Json.str session)],
      filter.1 ∈ TableName.threadLeases.indexed := by
    intro filter inside
    rw [List.mem_singleton.mp inside]
    show "session_id" ∈ _
    decide
  let a : Json := .object [("session_id", .str session), ("active_only", .bool false),
    ("limit", .int 1000)]
  have field : ∀ key, a.find key = Assoc.lookup key [("limit", .int 1000),
      ("active_only", .bool false), ("session_id", .str session)] := Json.find_object _
  have filters : Ledger.filtersOf .leases a = .ok [("session_id", .str session)] := by
    simp [Ledger.filtersOf, Ledger.givenFilters, given, field, Assoc.lookup, Assoc.assign,
      Ledger.Listing.table, TableName.indexed, Json.isNull, pure, Except.pure]
  have asked : a.valueWith Json.getBool "active_only" true = .ok false := by
    rw [Json.valueWith_of_find (by simp [field, Assoc.lookup] : a.find _ = some (.bool false))]
    rfl
  have start : given a "after" = none := by
    simp [given, field, Assoc.lookup]
  have limit : Ledger.pageLimit a = .ok 100 := limit_thousand (by simp [field, Assoc.lookup])
  obtain ⟨page, ran, rows⟩ := @run_leaseList library env world valid a
    [("session_id", .str session)] false filters indexed asked start limit
      (OwnedBy session) _ agrees
  have stored : ∀ entry ∈ firstPage world.ledger (OwnedBy session),
      world.ledger.Stored .threadLeases entry.1 entry.2 := fun entry => stored_of_firstPage valid
  rw [ownedLease, Throwing.bind_of_ok ran, Throwing.bind_lift rows,
    Throwing.bind_lift (rfl : elements (.arr _) = .ok _)]
  exact congrArg (·, _) (leaseOf_eq valid thread stored)

/-- A lease is on the first page exactly when it is found there for its thread. -/
theorem firstPage_find (ledger : TaskLedger) (shown : Json → Prop) [DecidablePred shown]
    (thread : String) :
    (∃ lease, (thread, lease) ∈ firstPage ledger shown ∧
      (firstPage ledger shown).find? (fun entry => entry.1 = thread) = some (thread, lease)) ∨
    ((∀ lease, (thread, lease) ∉ firstPage ledger shown) ∧
      (firstPage ledger shown).find? (fun entry => entry.1 = thread) = none) := by
  cases first : (firstPage ledger shown).find? fun entry => entry.1 = thread with
  | none =>
    refine .inr ⟨fun lease inside => ?_, rfl⟩
    have apart := List.find?_eq_none.mp first (thread, lease) inside
    simp at apart
  | some entry =>
    have id : entry.1 = thread := by simpa using List.find?_some first
    have inside := List.mem_of_find?_eq_some first
    subst id
    exact .inl ⟨entry.2, inside, rfl⟩

/-- The lease of a thread that a session owns is found exactly when it is on the first page of the
leases of the session. -/
theorem ownedLease_finds (valid : world.ledger.Valid library) (thread session : String) :
    FindsLease library env world thread session ↔
      ∀ lease, world.ledger.Stored .threadLeases thread lease → OwnedBy session lease →
        (thread, lease) ∈ firstPage world.ledger (OwnedBy session) := by
  unfold FindsLease
  rw [ownedLease_eq valid]
  refine forall_congr' fun lease => forall_congr' fun there => forall_congr' fun _ => ?_
  rcases firstPage_find world.ledger (OwnedBy session) thread with
    ⟨other, inside, found⟩ | ⟨outside, missing⟩
  · have stored : world.ledger.Stored .threadLeases thread other := stored_of_firstPage valid inside
    have same : other = lease := Option.some.inj (stored.symm.trans there)
    subst same
    rw [found]
    exact iff_of_true rfl inside
  · have present := (valid.checked .threadLeases thread lease there).1
    rw [missing]
    refine iff_of_false (fun returned => ?_) (outside lease)
    have null : Json.null = lease := Except.ok.inj returned
    rw [← null] at present
    contradiction

/-! ## The list of all streams -/

/-- The claim that shows a lease with the metadata of its session. -/
def claimOf (library : Library) (session : Json) (stream : String) (lease : Json) :
    Except Thrown Json := do
  let metadata ← parsed library (← session.valueString "metadata_json" "\x7b\x7d")
  let claim ← lease.set "stream" (.str stream)
  claim.set "metadata" metadata

/-- One lease of the loop. -/
theorem streamClaims_cons (valid : world.ledger.Valid library) {thread id : String} {lease : Json}
    (stored : world.ledger.Stored .threadLeases thread lease)
    (owner : lease.find "session_id" = some (.str id)) (rest : List Json) :
    streamClaims library env "stream:" (lease :: rest) world =
      match streamOf thread with
      | none => streamClaims library env "stream:" rest world
      | some stream =>
        if endsAt lease ≤ env.clock world.readings then
          streamClaims library env "stream:" rest { world with readings := world.readings + 1 }
        else
          match claimOf library (sessionRow world.ledger id) stream lease with
          | .error thrown => (.error thrown, { world with readings := world.readings + 2 })
          | .ok claim =>
            match streamClaims library env "stream:" rest
              { world with readings := world.readings + 2 } with
            | (.ok claims, next) => (.ok (claim :: claims), next)
            | (.error thrown, next) => (.error thrown, next) := by
  have key : lease.valueString "thread_id" "" = .ok thread :=
    Json.valueWith_of_find (valid.key stored) Json.getString ""
  obtain ⟨value, found, ends⟩ := lease_ends valid stored
  have expires : lease.valueWith Json.getDouble "expires_at" 0 = .ok (endsAt lease) := by
    rw [Json.valueWith_of_find found, ends]
  rw [streamClaims, Throwing.bind_lift key]
  cases named : streamOf thread with
  | none =>
    rw [streamOf] at named
    simp only [named]
  | some stream =>
    rw [streamOf] at named
    simp only [named]
    rw [Throwing.bind_lift expires]
    have time : now env world = (.ok (env.clock world.readings),
        { world with readings := world.readings + 1 }) := rfl
    rw [Throwing.bind_of_ok time]
    by_cases ended : endsAt lease ≤ env.clock world.readings
    · rw [if_pos (.inl ended), if_pos ended]
    · have open_ : ¬(endsAt lease ≤ env.clock world.readings ∨
          "stream:" ≠ "stream:" ∧ thread ≠ "stream:") := by simp [ended]
      have read :=
        @run_sessionGet library env { world with readings := world.readings + 1 } (.str id)
      rw [if_neg open_, if_neg ended, Throwing.bind_lift (Json.at_of_find owner),
        Throwing.bind_of_ok read]
      rw [claimOf]
      dsimp only
      cases (sessionRow world.ledger id).valueString "metadata_json" "\x7b\x7d" with
      | error thrown => rfl
      | ok text =>
        rw [Throwing.bind_lift rfl]
        cases known : parsed library text with
        | error thrown =>
          simp only [known, bind, Except.bind]
          rfl
        | ok metadata =>
          rw [Throwing.bind_lift rfl]
          cases kept : lease.set "stream" (.str stream) with
          | error thrown =>
            simp only [known, bind, Except.bind]
            rfl
          | ok claim =>
            rw [Throwing.bind_lift rfl]
            cases shown : claim.set "metadata" metadata with
            | error thrown =>
              simp only [known, shown, bind, Except.bind]
              rfl
            | ok last =>
              rw [Throwing.bind_lift rfl]
              simp only [known, shown, bind, Except.bind]
              cases streamClaims library env "stream:" rest
                  { world with readings := world.readings + 1 + 1 } with
              | mk result next =>
                cases result with
                | ok claims => rfl
                | error thrown => rfl

/-- A lease can be shown when its session can be read. -/
theorem claimOf_ok {ledger : TaskLedger} (valid : ledger.Valid library) {id : String} {lease : Json}
    (owner : lease.find "session_id" = some (.str id)) (stream : String) :
    (∃ claim, claimOf library (sessionRow ledger id) stream lease = .ok claim) ↔
      SessionReadable library ledger lease := by
  constructor
  · rintro ⟨claim, shown⟩
    obtain ⟨text, read, shown⟩ := bind_ok shown
    obtain ⟨metadata, parses, _⟩ := bind_ok shown
    have present : (sessionRow ledger id).isNull = false := by
      cases null : (sessionRow ledger id).isNull with
      | false => rfl
      | true =>
        rw [Json.eq_null null] at read
        contradiction
    have there := Ledger.stored_of_get present
    obtain ⟨same, found⟩ := metadata_stored valid there
    rw [Json.valueString, Json.valueWith_of_find found] at read
    obtain rfl : same = text := Except.ok.inj read
    unfold parsed at parses
    split at parses
    · rename_i value known
      exact ⟨id, _, same, value, owner, there, found, known⟩
    · contradiction
  · rintro ⟨other, row, text, value, named, there, found, known⟩
    obtain rfl : id = other := by simpa using owner.symm.trans named
    have object : lease.isObject := Json.isObject_of_find owner
    obtain ⟨first, kept⟩ := Json.set_of_isObject object "stream" (.str stream)
    obtain ⟨claim, last⟩ := Json.set_of_isObject (Json.isObject_set kept) "metadata" value
    refine ⟨claim, ?_⟩
    rw [claimOf, sessionRow, Ledger.get_of_stored there, Json.valueString,
      Json.valueWith_of_find found]
    simp only [Json.getString, bind, Except.bind, parsed, known, kept, last]

/-- A claim shows its lease. -/
theorem claimOf_shows {session lease claim : Json} {stream : String}
    (shown : claimOf library session stream lease = .ok claim) : Shows lease claim := by
  obtain ⟨text, _, shown⟩ := bind_ok shown
  obtain ⟨metadata, _, shown⟩ := bind_ok shown
  obtain ⟨first, kept, last⟩ := bind_ok shown
  have apart : ∀ key ∈ TableName.threadLeases.keys, key ≠ "stream" ∧ key ≠ "metadata" := by
    decide
  intro key inside
  rw [Json.find_set last, if_neg (apart key inside).2, Json.find_set kept,
    if_neg (apart key inside).1]

/-- The loop shows the leases that it looks at, in their order, and throws when the session of one
cannot be read. -/
theorem streamClaims_cases (valid : world.ledger.Valid library) {entries : List (String × Json)}
    (stored : ∀ entry ∈ entries, world.ledger.Stored .threadLeases entry.1 entry.2) :
    ((∀ entry ∈ lookedAt env.clock world.readings entries,
        SessionReadable library world.ledger entry.2) ∧
      ∃ claims, (streamClaims library env "stream:" (entries.map (·.2)) world).1 = .ok claims ∧
        List.Forall₂ (fun entry claim => Shows entry.2 claim)
          (lookedAt env.clock world.readings entries) claims) ∨
    ((∃ entry ∈ lookedAt env.clock world.readings entries,
        ¬SessionReadable library world.ledger entry.2) ∧
      ∃ thrown, (streamClaims library env "stream:" (entries.map (·.2)) world).1 =
        .error thrown) := by
  induction entries generalizing world with
  | nil => exact .inl ⟨List.forall_mem_nil _, [], rfl, .nil⟩
  | cons entry rest ih =>
    obtain ⟨thread, lease⟩ := entry
    obtain ⟨own, later⟩ := List.forall_mem_cons.mp stored
    obtain ⟨id, owner⟩ := lease_session valid own
    have step := @streamClaims_cons library env world valid thread id lease own owner
      (rest.map (·.2))
    rw [List.map_cons, step, lookedAt]
    cases named : streamOf thread with
    | none =>
      rw [if_pos rfl]
      exact ih valid later
    | some stream =>
      rw [if_neg (Option.some_ne_none stream)]
      dsimp only
      by_cases ended : endsAt lease ≤ env.clock world.readings
      · rw [if_pos ended, if_pos ended]
        exact @ih { world with readings := world.readings + 1 } valid later
      · rw [if_neg ended, if_neg ended]
        have readable := claimOf_ok valid owner stream
        cases shown : claimOf library (sessionRow world.ledger id) stream lease with
        | error thrown =>
          right
          refine ⟨⟨_, List.mem_cons_self, fun can => ?_⟩, thrown, rfl⟩
          obtain ⟨claim, same⟩ := readable.mpr can
          rw [shown] at same
          contradiction
        | ok claim =>
          have next := @ih { world with readings := world.readings + 2 } valid later
          dsimp only at next ⊢
          generalize streamClaims library env "stream:" (rest.map (·.2))
            { world with readings := world.readings + 2 } = ran at next ⊢
          obtain ⟨result, last⟩ := ran
          cases next with
          | inl all =>
            obtain ⟨can, claims, rfl, shows⟩ := all
            have first := readable.mp ⟨claim, shown⟩
            exact .inl ⟨List.forall_mem_cons.mpr ⟨first, can⟩, claim :: claims, rfl,
              .cons (claimOf_shows shown) shows⟩
          | inr fails =>
            obtain ⟨⟨entry, inside, cannot⟩, thrown, rfl⟩ := fails
            exact .inr ⟨⟨entry, List.mem_cons_of_mem _ inside, cannot⟩, thrown, rfl⟩

/-- The leases that are looked at are among the others, in their order. -/
theorem lookedAt_sublist (clock : Nat → Rat) (reading : Nat) (entries : List (String × Json)) :
    (lookedAt clock reading entries).Sublist entries := by
  induction entries generalizing reading with
  | nil => exact .slnil
  | cons entry rest ih =>
    rw [lookedAt]
    split
    · exact (ih reading).cons _
    · split
      · exact (ih _).cons _
      · exact (ih _).cons_cons _

/-- A lease of a stream that lives as long as the loop runs is looked at. -/
theorem mem_lookedAt {clock : Nat → Rat} {first : Nat} {entries : List (String × Json)}
    {thread : String} {lease : Json} (inside : (thread, lease) ∈ entries)
    (stream : (streamOf thread).isSome) (lives : ∀ reading, first ≤ reading →
      reading < first + 2 * entries.length → clock reading < endsAt lease) :
    (thread, lease) ∈ lookedAt clock first entries := by
  induction entries generalizing first with
  | nil => contradiction
  | cons entry rest ih =>
    have later : ∀ next, first ≤ next → next ≤ first + 2 → (thread, lease) ∈ rest →
        (thread, lease) ∈ lookedAt clock next rest := by
      intro next after soon among
      apply ih among
      intro reading since before
      apply lives reading
      · omega
      · rw [List.length_cons]
        omega
    rw [lookedAt]
    cases List.mem_cons.mp inside with
    | inl here =>
      subst here
      have now := lives first (Nat.le_refl _) (by rw [List.length_cons]; omega)
      have named : streamOf thread ≠ none := Option.isSome_iff_ne_none.mp stream
      rw [if_neg named, if_neg (not_le.mpr now)]
      exact List.mem_cons_self
    | inr among =>
      split
      · exact later first (Nat.le_refl _) (by omega) among
      · split
        · exact later (first + 1) (by omega) (by omega) among
        · exact List.mem_cons_of_mem _ (later (first + 2) (by omega) (by omega) among)

/-- The leases on a page have different threads. -/
theorem firstPage_nodup (valid : world.ledger.Valid library) (shown : Json → Prop)
    [DecidablePred shown] : ((firstPage world.ledger shown).map (·.1)).Nodup := by
  let rows := (world.ledger.tables .threadLeases).rows
  have apart : (rows.map (·.1)).Nodup := by
    apply List.pairwise_map.mpr
    exact (valid.exact .threadLeases).sorted.imp fun before => ne_of_lt before
  have some_ : ((rows.filter fun entry => shown entry.2).map (·.1)).Nodup :=
    apart.sublist (List.filter_sublist.map _)
  have sorted := (List.perm_insertionSort
    (fun left right => Ledger.standsBefore .leases right left = false)
    (rows.filter fun entry => shown entry.2)).map (·.1)
  have all := sorted.nodup_iff.mpr some_
  exact all.sublist ((List.take_sublist _ _).map _)

/-- A list of streams, when its page is read. -/
theorem streamList_eq (valid : world.ledger.Valid library) {args : Json}
    (unnamed : args.valueString "stream" "" = .ok "") :
    ∃ next, next.ledger = world.ledger ∧ next.readings = world.readings + 1 ∧
      (streamList library env args world).1 = (streamClaims library env "stream:"
        ((firstPage world.ledger fun lease => env.clock world.readings < endsAt lease).map (·.2))
        next).1.map fun claims => .object [("claims", .arr claims)] := by
  let a : Json := .object [("limit", .int 1000)]
  have field : ∀ key, a.find key = Assoc.lookup key [("limit", .int 1000)] := Json.find_object _
  have agrees : ∀ row, decide (env.clock world.readings < endsAt row) = (fits [] row &&
      !(true && decide (endsAt row ≤ env.clock world.readings))) := by
    intro row
    rw [Bool.true_and, ← decide_not]
    simp only [fits, List.all_nil, Bool.true_and, not_le]
  have filters : Ledger.filtersOf .leases a = .ok [] := by
    simp [Ledger.filtersOf, Ledger.givenFilters, given, field, Assoc.lookup,
      Ledger.Listing.table, TableName.indexed, pure, Except.pure]
  have asked : a.valueWith Json.getBool "active_only" true = .ok true := rfl
  have start : given a "after" = none := by
    simp [given, field, Assoc.lookup]
  have limit : Ledger.pageLimit a = .ok 100 := limit_thousand (by simp [field, Assoc.lookup])
  obtain ⟨page, ran, rows⟩ := @run_leaseList library env world valid a [] true filters
    (List.forall_mem_nil _) asked start limit _ _ agrees
  refine ⟨{ world with readings := world.readings + 1 }, rfl, rfl, ?_⟩
  rw [streamList, Throwing.bind_lift unnamed, Throwing.bind_of_ok ran, Throwing.bind_lift rows,
    Throwing.bind_lift (rfl : elements (.arr _) = .ok _)]
  exact congrArg Prod.fst (Throwing.bind_pure_eq _ _ _)

/-- A thread has as many claims as it has leases among those that are shown. -/
theorem countP_shown {ledger : TaskLedger} (valid : ledger.Valid library)
    {entries : List (String × Json)} {claims : List Json}
    (shows : List.Forall₂ (fun entry claim => Shows entry.2 claim) entries claims)
    (stored : ∀ entry ∈ entries, ledger.Stored .threadLeases entry.1 entry.2) (thread : String) :
    claims.countP (fun claim => claim.find "thread_id" = some (.str thread)) =
      (entries.map (·.1)).count thread := by
  induction shows with
  | nil => rfl
  | @cons entry claim rest others own _ ih =>
    obtain ⟨here, later⟩ := List.forall_mem_cons.mp stored
    have key : claim.find "thread_id" = some (.str entry.1) :=
      (own "thread_id" (by decide)).trans (valid.key here)
    rw [List.map_cons, List.countP_cons, List.count_cons, ih later]
    congr 1
    by_cases same : entry.1 = thread
    · simp [key, same]
    · simp [key, same]

/-- The list of all streams is complete exactly when the leases of streams that live are on the
first page and the sessions of all leases of streams there can be read. -/
theorem streamList_lists (valid : world.ledger.Valid library) {args : Json}
    (unnamed : args.valueString "stream" "" = .ok "") :
    ListsStreams library env world args ↔
      (∀ thread lease, world.ledger.Stored .threadLeases thread lease →
        (streamOf thread).isSome → Lives env world lease →
        (thread, lease) ∈ firstPage world.ledger
          fun lease => env.clock world.readings < endsAt lease) ∧
      ∀ entry ∈ lookedAt env.clock (world.readings + 1) (firstPage world.ledger
          fun lease => env.clock world.readings < endsAt lease),
        SessionReadable library world.ledger entry.2 := by
  obtain ⟨next, ledger, readings, listed⟩ := @streamList_eq library env world valid args unnamed
  let page := firstPage world.ledger fun lease => env.clock world.readings < endsAt lease
  have stored : ∀ entry ∈ page, world.ledger.Stored .threadLeases entry.1 entry.2 :=
    fun entry => stored_of_firstPage valid
  have ends := @streamClaims_cases library env next (ledger ▸ valid) page (ledger ▸ stored)
  rw [ledger, readings] at ends
  let shown := lookedAt env.clock (world.readings + 1) page
  have among : ∀ entry ∈ shown, entry ∈ page := (lookedAt_sublist _ _ _).subset
  have apart : (shown.map (·.1)).Nodup :=
    (firstPage_nodup valid _).sublist ((lookedAt_sublist _ _ _).map _)
  constructor
  · rintro ⟨claims, result, all⟩
    rw [listed] at result
    cases ends with
    | inr fails =>
      obtain ⟨_, thrown, failed⟩ := fails
      rw [failed] at result
      contradiction
    | inl returns =>
      obtain ⟨readable, others, returned, shows⟩ := returns
      rw [returned] at result
      obtain rfl : others = claims := by
        simpa [Except.map, Json.object, Assoc.assign] using result
      refine ⟨fun thread lease there stream lives => ?_, readable⟩
      have once := (all thread lease there stream lives).2
      rw [countP_shown valid shows (fun entry inside => stored entry (among entry inside))] at once
      have inside : thread ∈ shown.map (·.1) := List.count_pos_iff.mp (once ▸ Nat.one_pos)
      obtain ⟨entry, member, rfl⟩ := List.mem_map.mp inside
      have own := stored entry (among entry member)
      obtain rfl : entry.2 = lease := Option.some.inj (own.symm.trans there)
      exact among entry member
  · rintro ⟨first, readable⟩
    cases ends with
    | inr fails =>
      obtain ⟨⟨entry, inside, cannot⟩, _⟩ := fails
      exact absurd (readable entry inside) cannot
    | inl returns =>
      obtain ⟨_, claims, returned, shows⟩ := returns
      refine ⟨claims, by rw [listed, returned]; rfl, fun thread lease there stream lives => ?_⟩
      have short : page.length ≤ 100 := by
        show (List.take 100 _).length ≤ 100
        exact List.length_take_le _ _
      have inside : (thread, lease) ∈ shown := by
        apply mem_lookedAt (first thread lease there stream lives) stream
        intro reading since before
        apply lives reading
        · omega
        · show reading ≤ _
          have bound : reading < world.readings + 1 + 2 * page.length := before
          omega
      constructor
      · exact exists_of_forall₂ shows inside
      · rw [countP_shown valid shows (fun entry inside => stored entry (among entry inside))]
        exact List.count_eq_one_of_mem apart (List.mem_map.mpr ⟨_, inside, rfl⟩)

/-! ## A ledger with more leases than a page -/

/-- The row of a thread. -/
def threadRow (thread : String) : Json :=
  .obj [("created_at", .int 0), ("last_active_at", .int 0), ("metadata_json", .str "\x7b\x7d"),
    ("parent_thread_id", .null), ("realm", .str "chitta"), ("sealed_at", .null),
    ("status", .str "active"), ("thread_id", .str thread), ("title", .str "stream"),
    ("topic_fingerprint", .null)]

/-- The row of the lease of a session on it. -/
def leaseRow (thread : String) : Json :=
  .obj [("acquired_at", .int 0), ("expires_at", .int 21600), ("generation", .int 1),
    ("last_heartbeat_at", .int 0), ("session_id", .str "s-1"), ("thread_id", .str thread)]

/-- The thread of the stream with a number. -/
def streamThread (number : Nat) : String := "stream:" ++ String.ofList (List.replicate number 'a')

/-- A journal in which the session claims 101 streams. -/
def crowdedBatch : Batch where
  revision := 2
  changes := (List.range 101).map (fun number =>
      ⟨.threads, streamThread number, threadRow (streamThread number)⟩) ++
    (List.range 101).map fun number =>
      ⟨.threadLeases, streamThread number, leaseRow (streamThread number)⟩

/-- A ledger with the session. -/
def boundLedger : TaskLedger := Ledger.performed .fresh "session_bind" (sessionArguments "s-1") 1

/-- The rows of the journal pass their check. -/
theorem crowdedBatch_checked : ∀ staged ∈ crowdedBatch.changes, staged.Checked emptyLibrary := by
  intro staged inside
  cases List.mem_append.mp inside with
  | inl thread =>
    obtain ⟨number, _, rfl⟩ := List.mem_map.mp thread
    refine ⟨⟨threadRow (streamThread number), rfl⟩, ?_⟩
    simp [threadRow, Ledger.validateRow, TableName.keys, TableName.key,
      Ledger.validateField, Json.contains, Json.find, Assoc.lookup, Json.at, Ledger.numeric,
      Ledger.nullable, Json.isNumber, Json.isString, Json.isNull, Json.same, Json.getString,
      Ledger.validateStates, TableName.statuses, bind, Except.bind, pure, Except.pure]
  | inr lease =>
    obtain ⟨number, _, rfl⟩ := List.mem_map.mp lease
    refine ⟨⟨leaseRow (streamThread number), rfl⟩, ?_⟩
    simp [leaseRow, Ledger.validateRow, TableName.keys, TableName.key,
      Ledger.validateField, Json.contains, Json.find, Assoc.lookup, Json.at, Ledger.numeric,
      Ledger.nullable, Json.isNumber, Json.isString, Json.isNull, Json.same,
      Ledger.validateStates, bind, Except.bind, pure, Except.pure]

/-- A run leads to the session. -/
theorem boundLedger_reached :
    (Ledger.machine emptyLibrary).Reaches (Ledger.Recorded emptyLibrary) boundLedger :=
  Ledger.reaches_performed .initial trivial

/-- Different streams have different threads. -/
theorem streamThread_injective : Function.Injective streamThread := by
  intro left right same
  have texts := congrArg String.toList same
  rw [streamThread, streamThread, String.toList_append, String.toList_append,
    List.append_cancel_left_eq, String.toList_ofList, String.toList_ofList] at texts
  have lengths := congrArg List.length texts
  rwa [List.length_replicate, List.length_replicate] at lengths

/-- Its replay leads to a lease of the session on every one of the streams. -/
theorem crowded_reached : ∃ crowded : TaskLedger,
    (Ledger.machine emptyLibrary).Reaches (Ledger.Recorded emptyLibrary) crowded ∧
      ∀ number < 101, crowded.Stored .threadLeases (streamThread number)
        (leaseRow (streamThread number)) := by
  obtain ⟨crowded, reached, rows⟩ :=
    Ledger.reaches_replay boundLedger_reached crowdedBatch crowdedBatch_checked
  refine ⟨crowded, reached, fun number inside => ?_⟩
  rw [Ledger.TaskLedger.Stored, rows]
  cases Ledger.rowAfter_cases .threadLeases (streamThread number) crowdedBatch.changes
    (Assoc.lookup (streamThread number) (boundLedger.tables .threadLeases).rows) with
  | inl untouched =>
    let staged : Ledger.Change :=
      ⟨.threadLeases, streamThread number, leaseRow (streamThread number)⟩
    have member : staged ∈ crowdedBatch.changes :=
      List.mem_append_right _ (List.mem_map.mpr ⟨number, List.mem_range.mpr inside, rfl⟩)
    exact absurd ⟨rfl, rfl⟩ (untouched.2 staged member)
  | inr replaced =>
    obtain ⟨staged, member, table, id, last⟩ := replaced
    rw [last]
    cases List.mem_append.mp member with
    | inl thread =>
      obtain ⟨other, _, rfl⟩ := List.mem_map.mp thread
      contradiction
    | inr lease =>
      obtain ⟨other, _, rfl⟩ := List.mem_map.mp lease
      obtain rfl := streamThread_injective id
      rfl

/-- The leases are of streams. -/
theorem streamOf_streamThread (number : Nat) : (streamOf (streamThread number)).isSome := by
  have front : "stream:".toList.isPrefixOf (streamThread number).toList = true := by
    rw [streamThread, String.toList_append, List.isPrefixOf_iff_prefix]
    exact List.prefix_append _ _
  rw [streamOf, behindPrefix, if_pos front]
  rfl

/-- A page is too short for them. -/
theorem crowded_page (crowded : TaskLedger) (shown : Json → Prop) [DecidablePred shown] :
    ¬∀ number < 101, (streamThread number, leaseRow (streamThread number)) ∈
      firstPage crowded shown := by
  intro all
  let leases := (List.range 101).map fun number =>
    (streamThread number, leaseRow (streamThread number))
  have apart : leases.Nodup := by
    apply List.Nodup.map _ List.nodup_range
    intro left right same
    exact streamThread_injective (congrArg Prod.fst same)
  have among : leases ⊆ firstPage crowded shown := by
    intro entry inside
    obtain ⟨number, below, rfl⟩ := List.mem_map.mp inside
    exact all number (List.mem_range.mp below)
  have long : 101 ≤ (firstPage crowded shown).length := by
    have enough := (List.subperm_of_subset apart among).length_le
    rwa [List.length_map, List.length_range] at enough
  have short : (firstPage crowded shown).length ≤ 100 := List.length_take_le _ _
  omega

/-! ## Completeness -/

/-- Lookups of streams are complete exactly when the leases are on the first page: a listing shows
the live leases of streams, each once, when all of them are among the hundred live leases with the
last heartbeats and the sessions of the leases there can be read, and a session finds its lease of a
thread when it is among its hundred leases with the last heartbeats. -/
theorem stream_lookup_complete (reached : (Ledger.machine library).Reaches (Ledger.Recorded library)
    world.ledger) :
    (∀ args, args.valueString "stream" "" = .ok "" →
      (ListsStreams library env world args ↔
        (∀ thread lease, world.ledger.Stored .threadLeases thread lease →
          (streamOf thread).isSome → Lives env world lease →
          (thread, lease) ∈ firstPage world.ledger
            fun lease => env.clock world.readings < endsAt lease) ∧
        ∀ entry ∈ lookedAt env.clock (world.readings + 1) (firstPage world.ledger
            fun lease => env.clock world.readings < endsAt lease),
          SessionReadable library world.ledger entry.2)) ∧
    ∀ thread session, FindsLease library env world thread session ↔
      ∀ lease, world.ledger.Stored .threadLeases thread lease → OwnedBy session lease →
        (thread, lease) ∈ firstPage world.ledger (OwnedBy session) := by
  have valid := Ledger.valid_recorded reached
  exact ⟨fun args unnamed => streamList_lists valid unnamed,
    fun thread session => ownedLease_finds valid thread session⟩

/-- A world outside where nothing happens. -/
def stillEnv : Env where
  clock _ := 5
  persist _ _ := none
  files _ := ⟨fun _ => "", fun _ => []⟩
  tools _ := .ok .null
  prepare _ _ _ _ _ := .ok .null

/-- The lookups in a ledger with one lease. -/
theorem stream_lookup_complete_leased :
    (ListsStreams emptyLibrary stillEnv ⟨leased, [], [], 0⟩ (.obj []) ↔
      (∀ thread lease, Ledger.leased.Stored .threadLeases thread lease →
        (streamOf thread).isSome → Lives stillEnv ⟨leased, [], [], 0⟩ lease →
        (thread, lease) ∈ firstPage leased fun lease => 5 < endsAt lease) ∧
      ∀ entry ∈ lookedAt stillEnv.clock 1 (firstPage leased fun lease => 5 < endsAt lease),
        SessionReadable emptyLibrary leased entry.2) ∧
    (FindsLease emptyLibrary stillEnv ⟨leased, [], [], 0⟩ "t-1" "s-1" ↔
      ∀ lease, Ledger.leased.Stored .threadLeases "t-1" lease → OwnedBy "s-1" lease →
        ("t-1", lease) ∈ firstPage leased (OwnedBy "s-1")) := by
  have complete := @stream_lookup_complete emptyLibrary stillEnv ⟨leased, [], [], 0⟩
    Ledger.leased_recorded
  exact ⟨complete.1 (.obj []) rfl, complete.2 "t-1" "s-1"⟩

/-- With 101 leases of streams a listing leaves one out, and their session does not find one of
them. -/
theorem stream_lookup_incomplete :
    (¬∀ library env world, (Ledger.machine library).Reaches (Ledger.Recorded library) world.ledger →
      ∀ args, args.valueString "stream" "" = .ok "" → ListsStreams library env world args) ∧
    ¬∀ library env world, (Ledger.machine library).Reaches (Ledger.Recorded library) world.ledger →
      ∀ thread session, FindsLease library env world thread session := by
  obtain ⟨crowded, reached, stored⟩ := crowded_reached
  let world : World := ⟨crowded, [], [], 0⟩
  have valid := Ledger.valid_recorded reached
  constructor
  · intro all
    have lists := all emptyLibrary stillEnv world reached (.obj []) rfl
    refine crowded_page crowded _ fun number below =>
      ((@streamList_lists emptyLibrary stillEnv world valid (.obj []) rfl).mp lists).1 _ _
        (stored number below) (streamOf_streamThread number) ?_
    intro reading _ _
    show (5 : Rat) < 21600
    decide
  · intro all
    refine crowded_page crowded _ fun number below =>
      (@ownedLease_finds emptyLibrary stillEnv world valid _ "s-1").mp
        (all emptyLibrary stillEnv world reached _ "s-1") _ (stored number below) rfl

end Chitta.Gateway
