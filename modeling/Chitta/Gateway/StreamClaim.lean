import Chitta.Gateway.Heartbeats

/-!
# Refused claims of streams

A claim of a stream creates its thread and binds the session before it asks for the lease, and
writes the session again after it has the lease. All of these are transactions of their own, so a
claim that is refused, or that throws on its way, leaves behind what came before.
-/
namespace Chitta.Gateway

open Ledger (Library TaskLedger Batch Published Accepted OwnedBy Planned emptyLibrary
  sessionArguments performed reaches_performed)

/-- What a claim of a stream asks for. -/
structure ClaimRequest where
  /-- The name of the stream. -/
  name : String
  /-- The session. -/
  session : String
  /-- The time for which the lease is claimed. -/
  ttl : Int
  /-- The worktree. -/
  worktree : Json
  /-- The branch. -/
  branch : Json
  /-- The title of the task. -/
  title : Json

/-- The checks of the arguments. -/
def claimRequest (args : Json) : Except Thrown ClaimRequest := do
  let name ← args.valueString "stream" ""
  if name = "" then throw (.runtimeError "stream is required")
  let session ← (← args.at "session_id").getString
  if session = "" then throw (.runtimeError "session_id is required")
  let ttl ← args.valueWith Json.getInt "ttl" 21600
  if ttl < 30 ∨ 604800 < ttl then throw (.runtimeError "ttl must be 30..604800 seconds")
  let worktree ← args.at "worktree"
  let branch ← args.at "branch"
  let title ← args.at "title"
  return { name, session, ttl, worktree, branch, title }

namespace ClaimRequest

variable (request : ClaimRequest)

/-- The thread of the stream. -/
def thread : String := "stream:" ++ request.name

/-- The metadata that the session gets. -/
def metadata : Json :=
  .object [("stream", .str request.name), ("worktree", request.worktree),
    ("branch", request.branch), ("task_title", request.title), ("ttl", .int request.ttl)]

/-- The metadata with the end of the lease. -/
def metadataUntil (expires : Rat) : Json :=
  .object [("stream", .str request.name), ("worktree", request.worktree),
    ("branch", request.branch), ("task_title", request.title), ("ttl", .int request.ttl),
    ("expires_at", .float expires)]

/-- The arguments of `thread_create`. -/
def create : Json :=
  .object [("id", .str request.thread), ("title", request.title), ("realm", .str "chitta")]

/-- The arguments of the first `session_bind`. -/
def bind : Json :=
  .object [("session_id", .str request.session), ("project_dir", request.worktree)]

/-- The arguments of `lease_claim`. -/
def claim : Json := reclaimArguments request.thread request.session request.ttl

/-- The arguments of the second `session_bind`. -/
def note (metadata : Json) : Json :=
  .object [("session_id", .str request.session), ("metadata", metadata)]

/-- The arguments of the `session_bind` of `session_register`. -/
def register (metadata : Json) : Json :=
  .object [("session_id", .str request.session), ("client", .str "unknown"),
    ("project_dir", .str ""), ("transcript_path", .str ""),
    ("metadata", .object [("stream_claim", metadata)])]

end ClaimRequest

variable (library : Library) (env : Env)

/-- A claim that has the lease. -/
def afterClaim (request : ClaimRequest) (claim : Json) : Program Json := do
  let metadata ← request.metadata.set "expires_at" (← claim.at "expires_at")
  let _ ← run library env "session_bind" (request.note metadata)
  sessionRegister library env request.session (.object [("stream_claim", metadata)])
  sessionHeartbeat library env request.session
  let claim ← claim.set "stream" (.str request.name)
  claim.set "metadata" metadata

/-- A claim whose arguments passed their checks. -/
def requestClaim (request : ClaimRequest) : Program Json := do
  let _ ← run library env "thread_create" request.create
  let _ ← run library env "session_bind" request.bind
  let claim ← run library env "lease_claim" request.claim
  if !(← claim.valueWith Json.getBool "claimed" false) then return claim
  afterClaim library env request claim

/-- A transaction is accepted. -/
def Takes (world : World) (op : String) (a : Json) : Prop :=
  Accepted library world.ledger op a (env.clock world.readings) (env.persist world.readings)

/-- The world after a transaction. -/
def afterRun (world : World) (op : String) (a : Json) : World := (run library env op a world).2

/-- The world after a reading of the world outside. -/
def afterTool (world : World) : World := { world with readings := world.readings + 1 }

namespace ClaimRequest

variable (world : World) (request : ClaimRequest)

/-- The world with the thread. -/
def created : World := afterRun library env world "thread_create" request.create

/-- The world with the session. -/
def bound : World :=
    afterRun library env (request.created library env world) "session_bind" request.bind

/-- The world with the lease. -/
def claimed : World :=
    afterRun library env (request.bound library env world) "lease_claim" request.claim

/-- The metadata that are noted in the session. -/
def noting : Json :=
  request.metadataUntil (env.clock (request.bound library env world).readings +
    (max 30 request.ttl : Int))

/-- The world with the noted claim. -/
def noted : World :=
  afterRun library env (request.claimed library env world) "session_bind"
    (request.note (request.noting library env world))

/-- The world with the registered session. -/
def registered : World :=
  afterRun library env (afterTool (request.noted library env world)) "session_bind"
    (request.register (request.noting library env world))

end ClaimRequest

/-- A claim changes the ledger: it creates the thread, or finds it and binds the session. -/
def Writes (world : World) (request : ClaimRequest) : Prop :=
  Takes library env world "thread_create" request.create ∨
    (world.ledger.Has .threads request.thread ∧
      Takes library env (request.created library env world) "session_bind" request.bind)

/-- No transaction behind the first one is refused, and no tool throws. -/
structure Completes (world : World) (request : ClaimRequest) : Prop where
  /-- The session is bound. -/
  bound : Takes library env (request.created library env world) "session_bind" request.bind
  /-- No other session holds the lease, and the claim is accepted. -/
  claimed : Takes library env (request.bound library env world) "lease_claim" request.claim
  /-- The claim is noted. -/
  noted : Takes library env (request.claimed library env world) "session_bind"
    (request.note (request.noting library env world))
  /-- The registration reaches the ledger. -/
  told : ∃ value, env.tools (request.noted library env world).readings = .ok value
  /-- The session is registered. -/
  registered : Takes library env (afterTool (request.noted library env world)) "session_bind"
    (request.register (request.noting library env world))
  /-- The heartbeat reaches the ledger. -/
  asked : ∃ value, env.tools (request.registered library env world).readings = .ok value
  /-- The heartbeat returns. -/
  kept : TouchReturns library env (afterTool (request.registered library env world))
    (.object [("session_id", .str request.session)]) request.session

/-- A claim is granted. -/
def Granted (claim : Json) : Prop := claim.valueWith Json.getBool "claimed" false = .ok true

variable {library : Library} {env : Env} {world : World} {args : Json} {request : ClaimRequest}

/-- The checks come first. -/
theorem streamClaim_eq (args : Json) :
    streamClaim library env args = (liftM (claimRequest args) >>= requestClaim library env) := by
  unfold claimRequest
  simp only [Throwing.lift_then, Throwing.lift_choice]
  rfl

/-- A request names its session and asks for 30 seconds at least. -/
theorem claimRequest_named (asked : claimRequest args = .ok request) :
    request.session ≠ "" ∧ 30 ≤ request.ttl ∧ request.ttl ≤ 604800 := by
  obtain ⟨name, _, asked⟩ := bind_ok asked
  split at asked
  · contradiction
  · obtain ⟨value, _, asked⟩ := bind_ok asked
    obtain ⟨session, _, asked⟩ := bind_ok asked
    split at asked
    · contradiction
    · rename_i named
      obtain ⟨ttl, _, asked⟩ := bind_ok asked
      split at asked
      · contradiction
      · rename_i inside
        obtain ⟨worktree, _, asked⟩ := bind_ok asked
        obtain ⟨branch, _, asked⟩ := bind_ok asked
        obtain ⟨title, _, asked⟩ := bind_ok asked
        obtain rfl := Except.ok.inj asked
        have range : 30 ≤ ttl ∧ ttl ≤ 604800 := by omega
        exact ⟨named, range⟩

/-! ## Transactions that return -/

/-- A transaction returns what the ledger does. -/
theorem run_fst (op : String) (a : Json) :
    (run library env op a world).1 = (Ledger.run library world.ledger op a
      (env.clock world.readings) (env.persist world.readings)).result := rfl

/-- A bind of a named session returns exactly when it is accepted. -/
theorem bind_returns (valid : world.ledger.Valid library) {a : Json} {session : String}
    (read : a.find "session_id" = some (.str session)) (named : session ≠ "") :
    (∃ value, (run library env "session_bind" a world).1 = .ok value) ↔
      Takes library env world "session_bind" a := by
  have id : Ledger.idarg a "session_id" = .ok session := by
    rw [Ledger.idarg, Json.at_of_find read]
    rfl
  apply valid.returns_iff
  show Ledger.Writing (Ledger.sessionBind library world.ledger a _)
  refine .bind fun other same => ?_
  obtain rfl := Except.ok.inj (id.symm.trans same)
  rw [if_neg named]
  refine .bind fun texts _ => .bind fun row _ => .bind fun old _ => .bind fun text _ => ?_
  refine .bind fun kept _ => .bind fun status _ => .bind fun stated _ => .bind fun _ _ => ?_
  exact .bind fun timed _ => .bind fun last _ => .one _ _ _ _

/-- An accepted claim is granted, until its time is over. -/
theorem claim_taken (valid : world.ledger.Valid library) {a : Json} {ttl : Int}
    (lasting : a.valueWith Json.getInt "ttl" 900 = .ok ttl)
    (takes : Takes library env world "lease_claim" a) :
    ∃ claim, (run library env "lease_claim" a world).1 = .ok claim ∧
      claim.find "claimed" = some (.bool true) ∧
      claim.find "expires_at" = some (.float (env.clock world.readings + (max 30 ttl : Int))) := by
  obtain ⟨changes, value, after, published, ran, _⟩ := valid.run_accepted takes
  obtain ⟨_, granted, noted, same, expires⟩ := Ledger.leaseClaim_value published.planned
  obtain rfl := Except.ok.inj (lasting.symm.trans same)
  exact ⟨value, by rw [run_fst, ran], granted, expires⟩

/-- A claim that is not accepted is not granted. -/
theorem claim_untaken {a claim : Json} (refused : ¬Takes library env world "lease_claim" a)
    (returned : (run library env "lease_claim" a world).1 = .ok claim) :
    claim.find "claimed" = some (.bool false) := by
  rw [run_fst] at returned
  cases (Ledger.run_refused refused).2 with
  | inl thrown =>
    obtain ⟨thrown, failed⟩ := thrown
    rw [failed] at returned
    contradiction
  | inr nothing =>
    obtain ⟨other, same, planned⟩ := nothing
    obtain rfl := Except.ok.inj (returned.symm.trans same)
    cases planned with
    | inl answer =>
      obtain ⟨_, _, _, _, _, found⟩ := Ledger.leaseClaim_answer answer
      exact found
    | inr commit => exact absurd rfl (Ledger.leaseClaim_value commit).1

/-- A thread is created, or was there before. -/
theorem create_returns (valid : world.ledger.Valid library) :
    (∃ value, (run library env "thread_create" request.create world).1 = .ok value) ↔
      Takes library env world "thread_create" request.create ∨
        world.ledger.Has .threads request.thread := by
  have field : ∀ key, request.create.find key = Assoc.lookup key [("realm", .str "chitta"),
      ("title", request.title), ("id", .str request.thread)] := Json.find_object _
  have id : Ledger.idarg request.create "id" = .ok request.thread := by
    rw [Ledger.idarg, Json.at_of_find (field "id")]
    rfl
  have parent : request.create.valueJson "parent" .null = .ok .null :=
    Json.valueWith_of_absent rfl (field "parent") _ _
  have there : world.ledger.Has .threads request.thread ↔
      ((world.ledger.tables .threads).get request.thread).isNull = false := by
    constructor
    · rintro ⟨row, stored⟩
      rw [Ledger.get_of_stored stored]
      exact (valid.checked .threads _ row stored).1
    · exact fun present => ⟨_, Ledger.stored_of_get present⟩
  cases present : ((world.ledger.tables .threads).get request.thread).isNull with
  | false =>
    have answers : Ledger.threadCreate library world.ledger request.create
        (env.clock world.readings) = .ok (.answer (.str request.thread)) := by
      simp only [Ledger.threadCreate, id, parent, bind, Except.bind]
      rw [show Ledger.require world.ledger .threads .null = .ok () from rfl]
      simp [present, pure, Except.pure]
    refine iff_of_true ⟨.str request.thread, ?_⟩ (.inr (there.mpr present))
    have planned : Ledger.plan library world.ledger "thread_create" request.create
        (env.clock world.readings) = .ok (.answer (.str request.thread)) := answers
    rw [run_fst, Ledger.run, planned]
  | true =>
    have absent : ¬world.ledger.Has .threads request.thread := by simp [there, present]
    rw [or_iff_left absent]
    apply valid.returns_iff
    show Ledger.Writing (Ledger.threadCreate library world.ledger request.create _)
    refine .bind fun other same => ?_
    obtain rfl := Except.ok.inj (id.symm.trans same)
    rw [present]
    refine .bind fun parent _ => .bind fun _ _ => .bind fun title _ => .bind fun realm _ => ?_
    exact .bind fun fingerprint _ => .one _ _ _ _

/-- What is found in a claim is read. -/
theorem granted_of_find {claim : Json} {flag : Bool}
    (found : claim.find "claimed" = some (.bool flag)) :
    claim.valueWith Json.getBool "claimed" false = .ok flag := by
  rw [Json.valueWith_of_find found]
  rfl

/-- A reading of the world outside. -/
@[simp] theorem outside_apply {α : Type} (read : Nat → Except Thrown α) (w : World) :
    outside read w = (read w.readings, afterTool w) := rfl

/-- Behind its lease a claim is completed by the transactions and the tools that follow. -/
theorem afterClaim_granted (w : World) {claim : Json} {expires : Rat}
    (granted : claim.find "claimed" = some (.bool true))
    (found : claim.find "expires_at" = some (.float expires)) :
    Throwing.Yields Granted (afterClaim library env request claim) w ↔
      let metadata := request.metadataUntil expires
      let noted := afterRun library env w "session_bind" (request.note metadata)
      let registered := afterRun library env (afterTool noted) "session_bind"
        (request.register metadata)
      (∃ value, (run library env "session_bind" (request.note metadata) w).1 = .ok value) ∧
      (∃ value, env.tools noted.readings = .ok value) ∧
      (∃ value, (run library env "session_bind" (request.register metadata) (afterTool noted)).1 =
        .ok value) ∧
      (∃ value, env.tools registered.readings = .ok value) ∧
      ∃ value, (sessionTouch library env (.object [("session_id", .str request.session)])
        (afterTool registered)).1 = .ok value := by
  have merged : request.metadata.set "expires_at" (.float expires) =
      .ok (request.metadataUntil expires) := rfl
  have shown : ∃ first, claim.set "stream" (.str request.name) = .ok first ∧
      ∃ last, first.set "metadata" (request.metadataUntil expires) = .ok last ∧ Granted last := by
    have object : claim.isObject := Json.isObject_of_find granted
    obtain ⟨first, one⟩ := Json.set_of_isObject object "stream" (.str request.name)
    obtain ⟨last, two⟩ := Json.set_of_isObject (Json.isObject_set one) "metadata"
      (request.metadataUntil expires)
    refine ⟨first, one, last, two, granted_of_find ?_⟩
    rw [Json.find_set two, if_neg (by decide), Json.find_set one, if_neg (by decide), granted]
  simp only [afterClaim, sessionRegister, sessionHeartbeat, Throwing.then_assoc, Throwing.pure_then,
    Throwing.Yields.bind_iff, Throwing.Yields.result_iff, Throwing.lift_apply, outside_apply,
    Json.at_of_find found, Except.ok.injEq, exists_eq_left', merged]
  constructor
  · rintro ⟨_, noted, _, told, _, registered, _, asked, _, kept, _⟩
    exact ⟨⟨_, noted⟩, ⟨_, told⟩, ⟨_, registered⟩, ⟨_, asked⟩, _, kept⟩
  · rintro ⟨⟨_, noted⟩, ⟨_, told⟩, ⟨_, registered⟩, ⟨_, asked⟩, _, kept⟩
    exact ⟨_, noted, _, told, _, registered, _, asked, _, kept, shown⟩

/-- The heartbeat finds a session that was registered. -/
theorem heartbeat_returns (valid : world.ledger.Valid library)
    (takes : Takes library env (afterTool (request.noted library env world)) "session_bind"
      (request.register (request.noting library env world))) :
    (∃ value, (sessionTouch library env (.object [("session_id", .str request.session)])
        (afterTool (request.registered library env world))).1 = .ok value) ↔
      TouchReturns library env (afterTool (request.registered library env world))
        (.object [("session_id", .str request.session)]) request.session := by
  have noted : (request.noted library env world).ledger.Valid library :=
    valid_run (valid_run (valid_run (valid_run valid _ _ _ _) _ _ _ _) _ _ _ _) _ _ _ _
  have registered : (request.registered library env world).ledger.Valid library :=
    valid_run noted _ _ _ _
  have read : (Json.object [("session_id", .str request.session)]).at "session_id" =
      .ok (.str request.session) := Json.at_of_find (Json.find_object _ _)
  refine sessionTouch_returns registered read ?_
  obtain ⟨changes, value, after, published, ran, _⟩ := noted.run_accepted takes
  obtain ⟨id, named, found, _⟩ := bound_bind published
  have session : request.session = id := by
    have field : (request.register (request.noting library env world)).find "session_id" =
        some (.str request.session) := by
      simp [ClaimRequest.register, Json.find_object, Assoc.lookup]
    rw [Ledger.idarg, Json.at_of_find field] at named
    exact Except.ok.inj named
  have same : (request.registered library env world).ledger = after :=
    congrArg Ledger.Ran.ledger ran
  rw [← session] at found
  show (sessionRow (request.registered library env world).ledger request.session).isNull = false
  rw [same]
  exact Json.isNull_of_find found

/-- A claim is granted exactly when its thread is there or created and everything behind it
completes. -/
theorem requestClaim_granted (valid : world.ledger.Valid library) (named : request.session ≠ "")
    (low : 30 ≤ request.ttl) (high : request.ttl ≤ 604800) :
    Throwing.Yields Granted (requestClaim library env request) world ↔
      (Takes library env world "thread_create" request.create ∨
        world.ledger.Has .threads request.thread) ∧ Completes library env world request := by
  have created : (request.created library env world).ledger.Valid library := valid_run valid _ _ _ _
  have bound : (request.bound library env world).ledger.Valid library := valid_run created _ _ _ _
  have claimed : (request.claimed library env world).ledger.Valid library :=
    valid_run bound _ _ _ _
  have noted : (request.noted library env world).ledger.Valid library := valid_run claimed _ _ _ _
  have lasting : request.claim.valueWith Json.getInt "ttl" 900 = .ok request.ttl := by
    have field : request.claim.find "ttl" = some (.int request.ttl) := by
      simp [ClaimRequest.claim, reclaimArguments, Json.find_object, Assoc.lookup]
    rw [Json.valueWith_of_find field, Json.getInt_int (by omega) (by omega)]
  have creates := @create_returns library env world request valid
  have binds := @bind_returns library env _ created request.bind request.session
    (by simp [ClaimRequest.bind, Json.find_object, Assoc.lookup]) named
  have notes := @bind_returns library env _ claimed
    (request.note (request.noting library env world)) request.session
    (by simp [ClaimRequest.note, Json.find_object, Assoc.lookup]) named
  have registers := @bind_returns library env (afterTool (request.noted library env world)) noted
    (request.register (request.noting library env world)) request.session
    (by simp [ClaimRequest.register, Json.find_object, Assoc.lookup]) named
  constructor
  · intro yields
    obtain ⟨_, one, yields⟩ := Throwing.Yields.bind_iff.mp yields
    obtain ⟨_, two, yields⟩ := Throwing.Yields.bind_iff.mp yields
    obtain ⟨claim, three, yields⟩ := Throwing.Yields.bind_iff.mp yields
    obtain ⟨flag, read, yields⟩ := Throwing.Yields.bind_iff.mp yields
    refine ⟨creates.mp ⟨_, one⟩, ?_⟩
    by_cases takes : Takes library env (request.bound library env world) "lease_claim" request.claim
    · obtain ⟨same, returned, granted, expires⟩ := claim_taken bound lasting takes
      obtain rfl := Except.ok.inj (returned.symm.trans three)
      obtain rfl := Except.ok.inj ((granted_of_find granted).symm.trans read)
      obtain ⟨note, told, register, asked, kept⟩ :=
        (afterClaim_granted _ granted expires).mp yields
      have registered := registers.mp register
      exact ⟨binds.mp ⟨_, two⟩, takes, notes.mp note, told, registered, asked,
        (heartbeat_returns valid registered).mp kept⟩
    · have refused := granted_of_find (claim_untaken takes three)
      obtain rfl := Except.ok.inj (refused.symm.trans read)
      have granted : Granted claim := Throwing.Yields.pure_iff.mp yields
      rw [Granted, refused] at granted
      contradiction
  · rintro ⟨there, completes⟩
    obtain ⟨_, one⟩ := creates.mpr there
    obtain ⟨_, two⟩ := binds.mpr completes.bound
    obtain ⟨claim, three, granted, expires⟩ := claim_taken bound lasting completes.claimed
    refine Throwing.Yields.bind_iff.mpr ⟨_, one, ?_⟩
    refine Throwing.Yields.bind_iff.mpr ⟨_, two, ?_⟩
    refine Throwing.Yields.bind_iff.mpr ⟨_, three, ?_⟩
    refine Throwing.Yields.bind_iff.mpr ⟨_, granted_of_find granted, ?_⟩
    exact (afterClaim_granted _ granted expires).mpr ⟨notes.mpr completes.noted, completes.told,
      registers.mpr completes.registered, completes.asked,
      (heartbeat_returns valid completes.registered).mpr completes.kept⟩

/-! ## What a claim leaves behind -/

/-- A valid ledger behind a revision. -/
def Behind (library : Library) (revision : Nat) (world : World) : Prop :=
  world.ledger.Valid library ∧ revision < world.ledger.revision

/-- An accepted transaction moves the revision. -/
theorem revision_of_takes (valid : world.ledger.Valid library) {op : String} {a : Json}
    (takes : Takes library env world op a) :
    world.ledger.revision < (afterRun library env world op a).ledger.revision := by
  obtain ⟨changes, value, after, _, ran, later⟩ := valid.run_accepted takes
  have same : (afterRun library env world op a).ledger = after := congrArg Ledger.Ran.ledger ran
  rwa [same]

/-- A transaction that is not accepted leaves the ledger as it is. -/
theorem ledger_of_untaken {op : String} {a : Json} (refused : ¬Takes library env world op a) :
    (afterRun library env world op a).ledger = world.ledger := (Ledger.run_refused refused).1

/-- Transactions do not take the revision back. -/
theorem behind_run (revision : Nat) (op : String) (a : Json) :
    Throwing.Keeps (Behind library revision) (run library env op a) := by
  rintro w ⟨valid, behind⟩
  refine ⟨valid_run valid _ _ _ _, ?_⟩
  by_cases takes : Takes library env w op a
  · exact behind.trans (revision_of_takes valid takes)
  · have same := ledger_of_untaken takes
    rw [afterRun] at same
    rwa [same]

/-- Nor does what follows the first bind. -/
theorem behind_afterBind (revision : Nat) (request : ClaimRequest) :
    Throwing.Keeps (Behind library revision) (do
      let claim ← run library env "lease_claim" request.claim
      if !(← claim.valueWith Json.getBool "claimed" false) then return claim
      afterClaim library env request claim) := by
  have runs : ∀ op a, op ≠ "import" → op ≠ "session_bind" →
      Throwing.Keeps (Behind library revision) (run library env op a) :=
    fun op a _ _ => behind_run revision op a
  have tools : Throwing.Keeps (Behind library revision) (outside env.tools) :=
    fun _ behind => behind
  refine (behind_run revision _ _).bind fun claim => .lift_bind fun granted _ => ?_
  refine .ite (.pure _) ?_
  unfold afterClaim sessionRegister sessionHeartbeat
  refine .lift_bind fun expires _ => .lift_bind fun metadata _ => ?_
  refine (behind_run revision _ _).bind fun _ => ?_
  refine (tools.bind fun _ => (behind_run revision _ _).bind fun _ => .pure _).bind fun _ => ?_
  refine (tools.bind fun _ => (keeps_sessionTouch runs _).bind fun _ => .pure _).bind fun _ => ?_
  exact .lift_bind fun claim _ => .lift _

/-- A claim that changes the ledger leaves it changed. -/
theorem requestClaim_written (valid : world.ledger.Valid library) (named : request.session ≠ "")
    (writes : Writes library env world request) :
    (requestClaim library env request world).2.ledger ≠ world.ledger := by
  have created : (request.created library env world).ledger.Valid library := valid_run valid _ _ _ _
  have bound : (request.bound library env world).ledger.Valid library := valid_run created _ _ _ _
  have binds := @bind_returns library env _ created request.bind request.session
    (by simp [ClaimRequest.bind, Json.find_object, Assoc.lookup]) named
  have creates := @create_returns library env world request valid
  obtain ⟨_, one⟩ := creates.mpr (writes.imp id fun both => both.1)
  have first : world.ledger.revision ≤ (request.created library env world).ledger.revision := by
    by_cases takes : Takes library env world "thread_create" request.create
    · exact le_of_lt (revision_of_takes valid takes)
    · exact le_of_eq (congrArg _ (ledger_of_untaken takes)).symm
  suffices later : world.ledger.revision <
      (requestClaim library env request world).2.ledger.revision by
    intro same
    rw [same] at later
    exact lt_irrefl _ later
  have ran : run library env "thread_create" request.create world =
      (.ok _, request.created library env world) := Prod.ext one rfl
  rw [requestClaim, Throwing.bind_of_ok ran]
  by_cases takes : Takes library env (request.created library env world) "session_bind" request.bind
  · obtain ⟨_, two⟩ := binds.mpr takes
    have again : run library env "session_bind" request.bind (request.created library env world) =
        (.ok _, request.bound library env world) := Prod.ext two rfl
    rw [Throwing.bind_of_ok again]
    exact (behind_afterBind world.ledger.revision request _
      ⟨bound, lt_of_le_of_lt first (revision_of_takes created takes)⟩).2
  · have fails : ∀ value, (run library env "session_bind" request.bind
        (request.created library env world)).1 ≠ .ok value :=
      fun value returned => takes (binds.mp ⟨value, returned⟩)
    have creates := writes.resolve_right fun both => takes both.2
    cases two : (run library env "session_bind" request.bind
        (request.created library env world)).1 with
    | ok value => exact absurd two (fails value)
    | error thrown =>
      have again : run library env "session_bind" request.bind (request.created library env world) =
          (.error thrown, request.bound library env world) := Prod.ext two rfl
      rw [Throwing.bind_of_error again]
      show _ < (afterRun library env (request.created library env world) _ _).ledger.revision
      rw [ledger_of_untaken takes]
      exact revision_of_takes valid creates

/-- A claim that does not change it leaves it as it is. -/
theorem requestClaim_unwritten (valid : world.ledger.Valid library) (named : request.session ≠ "")
    (untouched : ¬Writes library env world request) :
    (requestClaim library env request world).2.ledger = world.ledger := by
  have created : (request.created library env world).ledger.Valid library := valid_run valid _ _ _ _
  have binds := @bind_returns library env _ created request.bind request.session
    (by simp [ClaimRequest.bind, Json.find_object, Assoc.lookup]) named
  have creates := @create_returns library env world request valid
  have refused : ¬Takes library env world "thread_create" request.create :=
    fun takes => untouched (.inl takes)
  have same : (request.created library env world).ledger = world.ledger := ledger_of_untaken refused
  cases one : (run library env "thread_create" request.create world).1 with
  | error thrown =>
    have ran : run library env "thread_create" request.create world =
        (.error thrown, request.created library env world) := Prod.ext one rfl
    rw [requestClaim, Throwing.bind_of_error ran, same]
  | ok value =>
    have there := (creates.mp ⟨value, one⟩).resolve_left refused
    have takes : ¬Takes library env (request.created library env world) "session_bind"
        request.bind := fun takes => untouched (.inr ⟨there, takes⟩)
    have ran : run library env "thread_create" request.create world =
        (.ok value, request.created library env world) := Prod.ext one rfl
    rw [requestClaim, Throwing.bind_of_ok ran]
    cases two : (run library env "session_bind" request.bind
        (request.created library env world)).1 with
    | ok value => exact absurd (binds.mp ⟨value, two⟩) takes
    | error thrown =>
      have again : run library env "session_bind" request.bind (request.created library env world) =
          (.error thrown, request.bound library env world) := Prod.ext two rfl
      rw [Throwing.bind_of_error again]
      exact (ledger_of_untaken takes).trans same

/-! ## Refused claims -/

/-- A claim that is not granted leaves the ledger as it is, and with its revision the journal. -/
def RefusesCleanly (library : Library) (env : Env) (world : World) (args : Json) : Prop :=
  ¬Throwing.Yields Granted (toolLedgerOp library env ⟨"stream_claim", args⟩) world →
    (toolLedgerOp library env ⟨"stream_claim", args⟩ world).2.ledger = world.ledger

/-- Arguments that are no object are refused. -/
theorem claim_object (args : Json) (world : World) :
    (args.isObject = true ∧ toolLedgerOp library env ⟨"stream_claim", args⟩ =
      (liftM (claimRequest args) >>= requestClaim library env)) ∨
    ((∀ request, claimRequest args ≠ .ok request) ∧
      (toolLedgerOp library env ⟨"stream_claim", args⟩ world).2 = world) := by
  cases args with
  | obj fields =>
    left
    rw [← streamClaim_eq]
    exact ⟨rfl, rfl⟩
  | _ =>
    right
    refine ⟨fun request asked => ?_, rfl⟩
    obtain ⟨name, read, _⟩ := bind_ok asked
    contradiction

/-- A refused claim of a stream leaves everything as it was exactly when no transaction of it is
accepted before it is refused: when the thread is created, or is there and the session is bound, the
rest has to complete. -/
theorem refused_claim_unchanged (reached : (Ledger.machine library).Reaches
      (Ledger.Recorded library) world.ledger) (args : Json) :
    RefusesCleanly library env world args ↔
      ∀ request, claimRequest args = .ok request → Writes library env world request →
        Completes library env world request := by
  have valid := Ledger.valid_recorded reached
  cases @claim_object library env args world with
  | inr refused =>
    obtain ⟨none_, same⟩ := refused
    exact iff_of_true (fun _ => by rw [same]) fun request asked => absurd asked (none_ request)
  | inl object =>
    rw [RefusesCleanly, object.2]
    cases asked : claimRequest args with
    | error thrown =>
      rw [Throwing.bind_lift_error rfl]
      exact iff_of_true (fun _ => rfl) fun request same => nomatch same
    | ok request =>
      obtain ⟨named, low, high⟩ := claimRequest_named asked
      have granted := @requestClaim_granted library env world request valid named low high
      have only : (∀ other, (Except.ok request : Except Thrown ClaimRequest) = .ok other →
          Writes library env world other → Completes library env world other) ↔
          (Writes library env world request → Completes library env world request) := by
        constructor
        · exact fun all => all request rfl
        · intro own other same
          exact Except.ok.inj same ▸ own
      have yields : Throwing.Yields Granted
          (liftM (Except.ok request : Except Thrown ClaimRequest) >>= requestClaim library env)
          world ↔ Throwing.Yields Granted (requestClaim library env request) world := by
        rw [Throwing.Yields, Throwing.bind_lift rfl]
        rfl
      rw [only, yields, Throwing.bind_lift rfl, granted]
      by_cases writes : Writes library env world request
      · have changed := requestClaim_written valid named writes
        have there := writes.imp id fun both => both.1
        simp only [there, true_and, changed, imp_false, not_not, writes, forall_const]
      · have same := requestClaim_unwritten valid named writes
        simp only [same, implies_true, writes, false_imp_iff]

/-- A claim of the stream x by a session. -/
def claimStream (session : String) : Json :=
  .object [("stream", .str "x"), ("session_id", .str session), ("worktree", .str "/w"),
    ("branch", .str "b"), ("title", .str "t")]

/-- A ledger in which the first session has the lease of the stream. -/
def heldStream : TaskLedger :=
  let thread := performed .fresh "thread_create"
    (.object [("id", .str "stream:x"), ("title", .str "t")]) 1
  let session := performed thread "session_bind" (sessionArguments "s-1") 2
  performed session "lease_claim" (reclaimArguments "stream:x" "s-1" 21600) 3

/-- Runs lead to that ledger. -/
theorem reaches_heldStream {allowed : TaskLedger → Ledger.Action → Prop}
    (runs : ∀ ledger op a ts persist, op ≠ "import" → allowed ledger (.run op a ts persist)) :
    (Ledger.machine emptyLibrary).Reaches allowed heldStream :=
  reaches_performed (reaches_performed (reaches_performed .initial
    (runs _ "thread_create" _ _ _ (by decide))) (runs _ "session_bind" _ _ _ (by decide)))
    (runs _ "lease_claim" _ _ _ (by decide))

/-- A claim of the session that has the lease. -/
theorem refused_claim_unchanged_held :
    RefusesCleanly emptyLibrary stillEnv ⟨heldStream, [], [], 0⟩ (claimStream "s-1") ↔
      ∀ request, claimRequest (claimStream "s-1") = .ok request →
        Writes emptyLibrary stillEnv ⟨heldStream, [], [], 0⟩ request →
          Completes emptyLibrary stillEnv ⟨heldStream, [], [], 0⟩ request :=
  @refused_claim_unchanged emptyLibrary stillEnv ⟨heldStream, [], [], 0⟩
    (reaches_heldStream fun _ _ _ _ _ _ => trivial) (claimStream "s-1")

/-- A claim that is refused and moves the revision. -/
theorem not_refusesCleanly
    (refused : ((toolLedgerOp library env ⟨"stream_claim", args⟩ world).1.toOption.all fun claim =>
      decide (claim.find "claimed" = some (.bool false))) = true)
    (changed : (toolLedgerOp library env ⟨"stream_claim", args⟩ world).2.ledger.revision ≠
      world.ledger.revision) : ¬RefusesCleanly library env world args := by
  intro clean
  refine changed (congrArg TaskLedger.revision (clean ?_))
  rintro ⟨claim, returned, granted⟩
  rw [returned] at refused
  have found := granted_of_find (of_decide_eq_true refused)
  rw [Granted, found] at granted
  contradiction

/-- The claim of a second session is refused and leaves its session behind. -/
theorem refused_claim_changes :
    (Ledger.machine emptyLibrary).Reaches Ledger.RunsWithoutImport heldStream ∧
      ¬RefusesCleanly emptyLibrary stillEnv ⟨heldStream, [], [], 0⟩ (claimStream "s-2") := by
  constructor
  · exact reaches_heldStream fun _ _ _ _ _ other => other
  · exact not_refusesCleanly (by decide +kernel) (by decide +kernel)

end Chitta.Gateway
