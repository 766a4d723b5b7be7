import Chitta.Throwing
import Chitta.Gateway.Capsule

/-!
# The gateway of the ledger

All sessions change the ledger through one tool. An operation of the tool is one transaction of the
ledger or a few of them, and a mutex keeps the operations apart. Beside the ledger stand the
capsules that were accepted, in order, and the metadata that binds have written; the code has
neither list.
-/
namespace Chitta.Gateway

open Ledger (Library TaskLedger Batch elements given mergedMetadata)

/-- The world outside the ledger: what is met at each reading, one after the other. -/
structure Env where
  /-- `TaskLedger::now()`. -/
  clock : Nat → Rat
  /-- The journal, with the exception it throws. -/
  persist : Nat → Batch → Option Thrown
  /-- The files of the projects. -/
  files : Nat → Files
  /-- What other tools and the events of the store return. -/
  tools : Nat → Except Thrown Json
  /-- `prepare_capsule`. -/
  prepare : (args session thread old : Json) → Rat → Except Thrown Json

/-- The ledger and what happened to it. -/
structure World where
  /-- The ledger. -/
  ledger : TaskLedger
  /-- The capsules of version 2 that were accepted. -/
  accepted : List Json
  /-- The metadata that binds have written. -/
  written : List Json
  /-- How often the world outside was read. -/
  readings : Nat

/-- A computation on the ledger. -/
abbrev Program (α : Type) := Throwing World Thrown α

/-- An error of the tool. -/
def refuse {α : Type} (what : String) : Program α := Throwing.fail (.runtimeError what)

variable (library : Library) (env : Env)

/-- A reading of the world outside. -/
def outside {α : Type} (read : Nat → Except Thrown α) : Program α := fun world =>
  (read world.readings, { world with readings := world.readings + 1 })

/-- `TaskLedger::now()`. -/
def now : Program Rat := outside fun reading => .ok (env.clock reading)

/-- `git_identity`. -/
def identity (project : String) : Program Json :=
  outside fun reading => .ok (gitIdentity (env.files reading) project)

/-- The text of the metadata of a session, that of a new one when there is none. -/
def textOf (ledger : TaskLedger) (id : String) : String :=
  match ((ledger.tables .threadSessions).get id).find "metadata_json" with
  | some (.str text) => text
  | _ => "{}"

/-- The metadata that an operation writes. -/
def writes (ledger : TaskLedger) (op : String) (a : Json) : List Json :=
  match op, a.find "session_id" with
  | "session_bind", some (.str id) => [mergedMetadata library (textOf ledger id) a]
  | _, _ => []

/-- `run`: a transaction of the ledger. -/
def run (op : String) (a : Json) : Program Json := fun world =>
  let ran := Ledger.run library world.ledger op a (env.clock world.readings)
    (env.persist world.readings)
  (ran.result,
    { world with
      ledger := ran.ledger
      written := writes library world.ledger op a ++ world.written
      readings := world.readings + 1 })

/-! ## Sessions and streams -/

/-- The lease of a thread among leases. -/
def leaseOf (thread : String) : List Json → Except Thrown Json
  | [] => .ok .null
  | lease :: rest => do
    if (← lease.valueString "thread_id" "") = thread then return lease
    else leaseOf thread rest

/-- `owned_lease`. -/
def ownedLease (thread session : String) : Program Json := do
  let page ← run library env "lease_list"
    (.object [("session_id", .str session), ("active_only", .bool false), ("limit", .int 1000)])
  let rows ← elements (← page.at "rows")
  leaseOf thread rows

/-- Whether a lease is there and held by a session. -/
def heldBy (lease : Json) (session : String) : Except Thrown Bool :=
  if lease.isNull then .ok false
  else do return (← lease.valueString "session_id" "") = session

/-- `json::parse` of metadata. -/
def parsed (text : String) : Except Thrown Json :=
  match library.parse text with
  | some value => .ok value
  | none => .error .parseError

/-- `session_touch`: a session that has claimed a stream keeps its claim. -/
def sessionTouch (args : Json) : Program Json := do
  let sid ← (← args.at "session_id").getString
  let session ← run library env "session_get" (.object [("session_id", .str sid)])
  if session.isNull then return ← run library env "session_touch" args
  let metadata ← parsed library (← session.valueString "metadata_json" "{}")
  let stream ← metadata.valueString "stream" ""
  let tid := "stream:" ++ stream
  let lease ← if stream = "" then pure .null else ownedLease library env tid sid
  let touched ← run library env "session_touch" args
  if ← heldBy lease sid then
    let ttl ← metadata.valueWith Json.getInt "ttl" 21600
    let _ ← run library env "lease_claim"
      (.object [("thread_id", .str tid), ("session_id", .str sid), ("ttl", .int ttl)])
  return touched

/-- `stream_handoff`. -/
def streamHandoff (args : Json) : Program Json := do
  let sid ← (← args.at "session_id").getString
  let stream ← (← args.at "stream").getString
  let tid := "stream:" ++ stream
  let lease ← ownedLease library env tid sid
  if !(← heldBy lease sid) then refuse "stream handoff requires a live owned claim"
  if (← lease.valueWith Json.getDouble "expires_at" 0) ≤ (← now env) then
    refuse "stream handoff requires a live owned claim"
  let content ← (← args.at "content").getString
  if !("[handoff] stream=" ++ stream ++ " ").toList.isPrefixOf content.toList then
    refuse "handoff must name the claimed stream"
  let saved ← outside env.tools
  let _ ← sessionTouch library env (.object [("session_id", .str sid)])
  let lease ← ownedLease library env tid sid
  return .object [("saved", saved), ("lease", lease)]

/-- The claims of `stream_list` among leases. -/
def streamClaims (tid : String) : List Json → Program (List Json)
  | [] => return []
  | lease :: rest => do
    let id ← lease.valueString "thread_id" ""
    let others := streamClaims tid rest
    match behindPrefix "stream:" id with
    | none => others
    | some stream =>
      let expires ← lease.valueWith Json.getDouble "expires_at" 0
      if expires ≤ (← now env) ∨ (tid ≠ "stream:" ∧ id ≠ tid) then others
      else
        let session ← run library env "session_get"
          (.object [("session_id", ← lease.at "session_id")])
        let metadata ← parsed library (← session.valueString "metadata_json" "{}")
        let claim ← lease.set "stream" (.str stream)
        let claim ← claim.set "metadata" metadata
        return claim :: (← others)

/-- `stream_list`. -/
def streamList (args : Json) : Program Json := do
  let name ← args.valueString "stream" ""
  let page ← run library env "lease_list" (.object [("limit", .int 1000)])
  let rows ← elements (← page.at "rows")
  let claims ← streamClaims library env ("stream:" ++ name) rows
  return .object [("claims", .arr claims)]

/-- The part of `session_register` that binds the session. -/
def sessionRegister (sid : String) (metadata : Json) : Program Unit := do
  let _ ← outside env.tools
  let _ ← run library env "session_bind"
    (.object [("session_id", .str sid), ("client", .str "unknown"), ("project_dir", .str ""),
      ("transcript_path", .str ""), ("metadata", metadata)])

/-- The part of `session_heartbeat` that touches the session. -/
def sessionHeartbeat (sid : String) : Program Unit := do
  let _ ← outside env.tools
  let _ ← sessionTouch library env (.object [("session_id", .str sid)])

/-- `stream_release`: callers may hold the id of the thread. -/
def streamRelease (args : Json) : Program Json := do
  let given ← args.valueString "stream" ""
  let name := (behindPrefix "stream:" given).getD given
  if name = "" then refuse "stream is required"
  let sid ← (← args.at "session_id").getString
  if sid = "" then refuse "session_id is required"
  let released ← (← run library env "lease_release"
    (.object [("thread_id", .str ("stream:" ++ name)), ("session_id", .str sid)])).getBool
  if released then sessionHeartbeat library env sid
  return .object [("released", .bool released)]

/-- `stream_claim`. -/
def streamClaim (args : Json) : Program Json := do
  let name ← args.valueString "stream" ""
  if name = "" then refuse "stream is required"
  let tid := "stream:" ++ name
  let sid ← (← args.at "session_id").getString
  if sid = "" then refuse "session_id is required"
  let ttl ← args.valueWith Json.getInt "ttl" 21600
  if ttl < 30 ∨ 604800 < ttl then refuse "ttl must be 30..604800 seconds"
  let worktree ← args.at "worktree"
  let branch ← args.at "branch"
  let title ← args.at "title"
  let metadata := Json.object
    [("stream", .str name), ("worktree", worktree), ("branch", branch), ("task_title", title),
      ("ttl", .int ttl)]
  let _ ← run library env "thread_create"
    (.object [("id", .str tid), ("title", title), ("realm", .str "chitta")])
  let _ ← run library env "session_bind"
    (.object [("session_id", .str sid), ("project_dir", worktree)])
  let claim ← run library env "lease_claim"
    (.object [("thread_id", .str tid), ("session_id", .str sid), ("ttl", .int ttl)])
  if !(← claim.valueWith Json.getBool "claimed" false) then return claim
  let metadata ← metadata.set "expires_at" (← claim.at "expires_at")
  let _ ← run library env "session_bind"
    (.object [("session_id", .str sid), ("metadata", metadata)])
  sessionRegister library env sid (.object [("stream_claim", metadata)])
  sessionHeartbeat library env sid
  let claim ← claim.set "stream" (.str name)
  claim.set "metadata" metadata

/-! ## Capsules -/

/-- The loop of `capsule_rows`; `fuel` bounds its requests. -/
def pages : Nat → Json → Program (List Json)
  | 0, _ => Throwing.fail .undefined
  | fuel + 1, args => do
    let page ← run library env "session_list" args
    let rows ← elements (← page.at "rows")
    let after ← page.at "after"
    if after.isNull then return rows
    let next ← args.set "after" after
    return rows ++ (← pages fuel next)

/-- The arguments of `capsule_rows`. -/
def pageArguments (key : Json) : Json :=
  .object ([("limit", .int 100),
      ("repository", .str (Ledger.repositoryKey (str key "repository")))] ++
    if str key "stream_id" = "" then [] else [("stream_id", .str (str key "stream_id"))])

/-- `capsule_rows`: there are at most as many pages as sessions, and one more. -/
def capsuleRows (key : Json) : Program (List Json) := fun world =>
  pages library env ((world.ledger.tables .threadSessions).rows.length + 1) (pageArguments key)
    world

/-- `latest_capsule`. -/
def latestCapsule (key : Json) : Program Json := do
  let rows ← capsuleRows library env key
  latestByKey library rows key

/-- A capsule is accepted. -/
def accept (cap : Json) : Program Unit := fun world =>
  (.ok (), { world with accepted := world.accepted ++ [cap] })

/-- A capsule is bound to its session, and accepted when the ledger publishes it. -/
def publish (args cap : Json) : Program Json := do
  let value ← run library env "session_bind" args
  if value = .bool true then accept cap
  return value

/-- The facts of the project that a capsule does not tell. -/
def fillFacts (facts : Json) : List String → Json → Except Thrown Json
  | [], input => .ok input
  | field :: rest, input => do
    if input.contains field then fillFacts facts rest input
    else
      let input ← input.set field (← facts.at field)
      fillFacts facts rest input

/-- What a capsule is compared with: the session must not hold a capsule of another key, and the
caller must know the latest revision of this key. -/
def compare (args cap bound : Json) (own : Nat → Except Thrown Bool) : Program Nat := do
  let previous ← handoff library bound
  if (← version previous) = 2 ∧ capsuleKey previous ≠ capsuleKey cap then
    refuse "capsule session key is immutable"
  let old ← latestCapsule library env cap
  let latest ← revision old
  match args.find "expected_revision" with
  | none => refuse "capsule revision mismatch"
  | some expected =>
    if !expected.same (.int latest) then refuse "capsule revision mismatch"
    else if !(← own latest) then refuse "capsule revision mismatch"
    else return latest

/-- `capsule_save`. -/
def capsuleSave (args : Json) : Program Json := do
  let input ← args.at "capsule"
  let facts ← identity env (← input.valueString "project_dir" "")
  let input ← fillFacts facts ["repository", "code_head", "stream_id"] input
  let bound ← run library env "session_get"
    (.object [("session_id", .str (← input.valueString "session_id" ""))])
  let latest ← compare library env args input bound fun _ => .ok true
  let cap ← capsuleV2 library input (latest + 1) (← now env)
  let sid ← (← cap.at "session_id").getString
  if sid = "" then refuse "capsule session_id required"
  let project ← cap.at "project_dir"
  let _ ← publish library env
    (.object [("session_id", .str sid), ("project_dir", project),
      ("metadata", .object [("handoff", cap)])]) cap
  return cap

/-- `session_bind`: a capsule of version 2 is checked, and no other one takes its place. -/
def sessionBind (args : Json) : Program Json := do
  let metadata ← args.valueJson "metadata" (.object [])
  match metadata.find "handoff" with
  | none => run library env "session_bind" args
  | some cap =>
    if (← version cap) = 2 then
      if (← cap.valueString "session_id" "") ≠ (← args.valueString "session_id" "") then
        refuse "capsule session_id mismatch"
      let bound ← run library env "session_get"
        (.object [("session_id", ← args.at "session_id")])
      let latest ← compare library env args cap bound fun latest => do
        return (← cap.at "revision").same (.int (latest + 1))
      let cap ← capsuleV2 library cap (latest + 1) (← (← cap.at "saved_at").getDouble)
      let args ← args.set "metadata" (← metadata.set "handoff" cap)
      publish library env args cap
    else
      let bound ← run library env "session_get"
        (.object [("session_id", ← args.at "session_id")])
      if (← version (← handoff library bound)) = 2 then
        refuse "cannot overwrite v2 capsule with unversioned writer"
      run library env "session_bind" args

/-- `hook_handoff_prepare`. -/
def hookHandoffPrepare (args : Json) : Program Json := do
  let (session, thread) ← do
    if (← args.valueString "next_action" "") = "" then
      let session ← run library env "session_get"
        (.object [("session_id", ← args.at "session_id")])
      if str session "thread_id" = "" then pure (session, .object [])
      else
        let thread ← run library env "thread_get"
          (.object [("thread_id", .str (str session "thread_id"))])
        pure (session, thread)
    else pure (.object [], .object [])
  let key ← identity env (← args.valueString "project_dir" "")
  let key ← key.set "session_id" (← args.at "session_id")
  let old ← latestCapsule library env key
  env.prepare args session thread old (← now env)

/-! ## The tool -/

/-- A call of the tool. -/
structure Call where
  /-- The operation. -/
  op : String
  /-- Its arguments. -/
  args : Json

/-- `tool_ledger_op`. -/
def toolLedgerOp (call : Call) : Program Json := do
  if !call.args.isObject then refuse "args must be an object"
  match call.op with
  | "session_touch" => sessionTouch library env call.args
  | "stream_handoff" => streamHandoff library env call.args
  | "stream_claim" => streamClaim library env call.args
  | "stream_release" => streamRelease library env call.args
  | "stream_list" => streamList library env call.args
  | "capsule_save" => capsuleSave library env call.args
  | "session_bind" => sessionBind library env call.args
  | "hook_handoff_prepare" => hookHandoffPrepare library env call.args
  | op => run library env op call.args

/-- The calls of all sessions, in any order. -/
def machine : Machine World Call where
  initial := { ledger := .fresh, accepted := [], written := [], readings := 0 }
  step world call := some (toolLedgerOp library env call world).2

end Chitta.Gateway
