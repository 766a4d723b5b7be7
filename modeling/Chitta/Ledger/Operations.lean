import Chitta.Ledger.Listing

/-!
# The operations of the ledger

Every operation reads its arguments and the tables, stages the rows it wants to change and ends
with its result; what happens to staged rows is the same for all of them. `ts` is the time at
which the operation runs.
-/
namespace Chitta.Ledger

/-- A staged row; null removes it. -/
structure Change where
  /-- The table. -/
  table : TableName
  /-- The id. -/
  id : String
  /-- The row, upgraded. -/
  row : Json

/-- How an operation ends: with an answer, or with staged rows and the result for when they are
published. -/
inductive Planned where
  /-- A read, or a write that finds nothing to do. -/
  | answer (result : Json)
  /-- Staged rows. -/
  | commit (changes : List Change) (result : Json)

variable (library : Library) (ledger : TaskLedger)

/-- `change`: a row is staged. -/
def change (table : TableName) (id : String) (row : Json) : Except Thrown Change := do
  let row ← upgradeRow library table row
  return { table, id, row }

/-- One row is staged. -/
def commitOne (table : TableName) (id : String) (row result : Json) : Except Thrown Planned := do
  let staged ← change library table id row
  return .commit [staged] result

/-- `idarg`. -/
def idarg (a : Json) (name : String) : Except Thrown String := do
  let value ← a.at name
  value.getString

/-- `require`: a reference that is not null names a row. -/
def require (table : TableName) (id : Json) : Except Thrown Unit :=
  if id.isNull then .ok ()
  else do
    let id ← id.getString
    if ((ledger.tables table).get id).isNull then
      throw (.invalidArgument s!"unknown {table.name} reference")

/-- `valid`. -/
def valid (value : String) (allowed : List String) : Except Thrown Unit :=
  if value ∈ allowed then .ok () else .error (.invalidArgument "invalid ledger state")

/-- `thread_create`. -/
def threadCreate (a : Json) (ts : Rat) : Except Thrown Planned := do
  let id ← idarg a "id"
  let parent ← a.valueJson "parent" .null
  require ledger .threads parent
  if !((ledger.tables .threads).get id).isNull then return .answer (.str id)
  let title ← a.at "title"
  let realm ← a.valueString "realm" ""
  let fingerprint ← a.valueJson "fingerprint" .null
  commitOne library .threads id
    (.object [("thread_id", .str id), ("title", title), ("realm", .str realm),
      ("status", .str "active"), ("topic_fingerprint", fingerprint), ("created_at", .float ts),
      ("last_active_at", .float ts), ("sealed_at", .null), ("parent_thread_id", parent),
      ("metadata_json", .str "\x7b\x7d")])
    (.str id)

/-- `thread_get` and `session_get`. -/
def getRow (table : TableName) (a : Json) : Except Thrown Planned := do
  let id ← idarg a table.key
  return .answer ((ledger.tables table).get id)

/-- The fields that `thread_update` copies. -/
def threadFields : List String :=
  ["title", "realm", "status", "topic_fingerprint", "last_active_at", "metadata_json",
    "parent_thread_id"]

/-- The copied fields of a thread, and whether there was one. -/
def copyFields (fields : Json) : List String → Json → Bool → Except Thrown (Json × Bool)
  | [], row, any => .ok (row, any)
  | key :: rest, row, any =>
    match fields.find key with
    | none => copyFields fields rest row any
    | some value => do
      let row ← row.set key value
      copyFields fields rest row true

/-- The end of `thread_update` and `thread_seal`. -/
def commitThread (id : String) (row : Json) : Except Thrown Planned := do
  let status ← (← row.at "status").getString
  valid status ["active", "sealed", "dormant"]
  let parent ← row.at "parent_thread_id"
  require ledger .threads parent
  commitOne library .threads id row (.bool true)

/-- `thread_update`. -/
def threadUpdate (a : Json) : Except Thrown Planned := do
  let id ← idarg a "thread_id"
  let row := (ledger.tables .threads).get id
  if row.isNull then return .answer (.bool false)
  let fields ← a.at "fields"
  let (row, any) ← copyFields fields threadFields row false
  if !any then return .answer (.bool false)
  commitThread library ledger id row

/-- `thread_seal`. -/
def threadSeal (a : Json) (ts : Rat) : Except Thrown Planned := do
  let id ← idarg a "thread_id"
  let row := (ledger.tables .threads).get id
  if row.isNull then return .answer (.bool false)
  let row ← row.set "status" (.str "sealed")
  let row ← row.set "sealed_at" (.float ts)
  let row ← row.set "last_active_at" (.float ts)
  commitThread library ledger id row

/-- The row of a session that is bound for the first time. -/
def newSession (id : String) (ts : Rat) : Json :=
  .object [("session_id", .str id), ("thread_id", .null), ("client", .str ""),
    ("project_dir", .str ""), ("transcript_path", .str ""), ("status", .str "active"),
    ("started_at", .float ts), ("last_active_at", .float ts), ("ended_at", .null),
    ("metadata_json", .str "\x7b\x7d")]

/-- The texts of a session that a bind replaces when they are not empty. -/
def bindTexts (a : Json) : List String → Json → Except Thrown Json
  | [], row => .ok row
  | key :: rest, row => do
    let text ← a.valueString key ""
    if text = "" then bindTexts a rest row
    else do
      let row ← row.set key (.str text)
      bindTexts a rest row

/-- The metadata after a bind: the given fields replace the old ones. -/
def mergedMetadata (text : String) (a : Json) : Json :=
  let metadata :=
    match library.parse text with
    | some metadata => if metadata.isObject then metadata else .object []
    | none => .object []
  match a.find "metadata" with
  | some added => if added.isObject then metadata.update added else metadata
  | none => metadata

/-- The thread of a session after a bind. -/
def bindThread (a row : Json) : Except Thrown Json :=
  match given a "thread_id" with
  | none => .ok row
  | some thread => do
    require ledger .threads thread
    row.set "thread_id" thread

/-- `session_bind`. -/
def sessionBind (a : Json) (ts : Rat) : Except Thrown Planned := do
  let id ← idarg a "session_id"
  if id = "" then return .answer (.bool false)
  let old := (ledger.tables .threadSessions).get id
  let row := if old.isNull then newSession id ts else old
  let row ← bindTexts a ["client", "project_dir", "transcript_path"] row
  let row ← bindThread ledger a row
  let text ← (← row.field "metadata_json").getString
  let row ← row.set "metadata_json" (.str (library.dump (mergedMetadata library text a)))
  let status ← a.valueString "status" "active"
  let row ← row.set "status" (.str status)
  valid status ["active", "ended", "interrupted", "completed"]
  let row ← row.set "last_active_at" (.float ts)
  let row ← row.set "ended_at" .null
  commitOne library .threadSessions id row (.bool true)

/-- The lease that a touch extends or a close removes. -/
def touchLease (close : Bool) (ts : Rat) (id : String) (lease : Json) : Except Thrown Change :=
  if close then change library .threadLeases id .null
  else do
    let lease ← lease.set "last_heartbeat_at" (.float ts)
    let lease ← lease.set "expires_at" (.float (ts + 900))
    change library .threadLeases id lease

/-- The leases of a session. -/
def touchLeases (close : Bool) (ts : Rat) : List Json → Except Thrown (List Change)
  | [] => .ok []
  | lease :: rest => do
    let id ← (← lease.field "thread_id").getString
    let staged ← touchLease library close ts id lease
    let others ← touchLeases close ts rest
    return staged :: others

/-- The session, when it exists. -/
def touchRow (id : String) (row : Json) (close : Bool) (status : String) (ts : Rat) :
    Except Thrown (List Change) :=
  if row.isNull then .ok []
  else do
    let row ← row.set "last_active_at" (.float ts)
    let row ← row.set "status" (.str status)
    let row ← row.set "ended_at" (if close then .float ts else .null)
    let staged ← change library .threadSessions id row
    return [staged]

/-- `touch`. -/
def touch (id : String) (close : Bool) (status : String) (ts : Rat) : Except Thrown Planned := do
  let row := (ledger.tables .threadSessions).get id
  let session ← touchRow library id row close status ts
  let leases ← (ledger.tables .threadLeases).select library [("session_id", .str id)]
  let changes ← touchLeases library close ts leases
  return .commit (session ++ changes) (.bool !row.isNull)

/-- `session_touch` and `session_close`. -/
def touchSession (close : Bool) (a : Json) (ts : Rat) : Except Thrown Planned := do
  let given ← a.valueString "status" "ended"
  let status := if given ∈ ["ended", "interrupted", "completed"] then given else "ended"
  let id ← idarg a "session_id"
  touch library ledger id close (if close then status else "active") ts

/-- Whether another session holds the lease, still lives and is not forced out. -/
def liveOwner (old : Json) (session : String) (a : Json) (ts : Rat) : Except Thrown Bool :=
  if old.isNull then .ok false
  else do
    let owner ← old.field "session_id"
    if owner.same (.str session) then return false
    let expires ← (← old.field "expires_at").getDouble
    if expires ≤ ts then return false
    let force ← a.valueWith Json.getBool "force" false
    return !force

/-- Whether the session holds the lease already. -/
def sameOwner (old : Json) (session : String) : Except Thrown Bool :=
  if old.isNull then .ok false
  else do
    let owner ← old.field "session_id"
    return owner.same (.str session)

/-- The generation of the lease: it counts the owners. -/
def nextGeneration (old : Json) (same : Bool) : Except Thrown Int :=
  if old.isNull then .ok 1
  else do
    let generation ← (← old.field "generation").getInt
    return generation + if same then 0 else 1

/-- The time at which the owner acquired the lease. -/
def acquiredAt (old : Json) (same : Bool) (ts : Rat) : Except Thrown Json :=
  if same then old.field "acquired_at" else .ok (.float ts)

/-- The answer to a claim while another session holds the lease. -/
def refusedClaim (old : Json) (thread : String) : Except Thrown Planned := do
  let owner ← old.field "session_id"
  let expires ← old.field "expires_at"
  let generation ← old.field "generation"
  return .answer (.object [("claimed", .bool false), ("reason", .str "live_owner"),
    ("thread_id", .str thread), ("owner_session_id", owner), ("expires_at", expires),
    ("generation", generation)])

/-- `lease_claim`. -/
def leaseClaim (a : Json) (ts : Rat) : Except Thrown Planned := do
  let thread ← idarg a "thread_id"
  let session ← idarg a "session_id"
  require ledger .threads (.str thread)
  require ledger .threadSessions (.str session)
  let old := (ledger.tables .threadLeases).get thread
  let live ← liveOwner old session a ts
  if live then refusedClaim old thread
  else do
    let same ← sameOwner old session
    let generation ← nextGeneration old same
    let ttl ← a.valueWith Json.getInt "ttl" 900
    let expires : Rat := ts + (max 30 ttl : Int)
    let acquired ← acquiredAt old same ts
    let lease ← change library .threadLeases thread
      (.object [("thread_id", .str thread), ("session_id", .str session),
        ("generation", .int generation), ("acquired_at", acquired),
        ("last_heartbeat_at", .float ts), ("expires_at", .float expires)])
    let row ← ((ledger.tables .threadSessions).get session).set "thread_id" (.str thread)
    let row ← row.set "status" (.str "active")
    let row ← row.set "last_active_at" (.float ts)
    let bound ← change library .threadSessions session row
    return .commit [lease, bound] (.object [("claimed", .bool true), ("thread_id", .str thread),
      ("session_id", .str session), ("expires_at", .float expires),
      ("generation", .int generation)])

/-- Whether a release covers the lease of a thread: all are covered when no thread is given. -/
def covers (a thread : Json) : Bool :=
  match given a "thread_id" with
  | none => true
  | some only => only.same (.str "") || thread.same only

/-- The leases that are released. -/
def releaseLeases (a : Json) : List Json → Except Thrown (List Change)
  | [] => .ok []
  | row :: rest => do
    let thread ← row.index "thread_id"
    let others ← releaseLeases a rest
    if covers a thread then
      let id ← thread.getString
      let staged ← change library .threadLeases id .null
      return staged :: others
    else return others

/-- `lease_release`. -/
def leaseRelease (a : Json) : Except Thrown Planned := do
  let session ← idarg a "session_id"
  let leases ← (ledger.tables .threadLeases).select library [("session_id", .str session)]
  let changes ← releaseLeases library a leases
  return .commit changes (.bool !changes.isEmpty)

/-- `inbox_push`. -/
def inboxPush (a : Json) (ts : Rat) : Except Thrown Planned := do
  let id ← idarg a "id"
  let thread ← a.valueJson "thread_id" .null
  require ledger .threads thread
  if !((ledger.tables .inbox).get id).isNull then return .answer (.str id)
  let task ← a.valueString "task_id" ""
  let event ← a.at "event_type"
  let digest ← a.valueString "digest" ""
  let payload ← a.valueJson "payload" (.object [])
  let text := if payload.isNull then "\x7b\x7d" else library.dump payload
  let realm ← a.valueString "target_realm" ""
  commitOne library .inbox id
    (.object [("item_id", .str id), ("task_id", .str task), ("thread_id", thread),
      ("event_type", event), ("digest", .str digest), ("payload_json", .str text),
      ("target_realm", .str realm), ("created_at", .float ts), ("delivery_state", .str "pending"),
      ("delivered_at", .null), ("acked_at", .null)])
    (.str id)

/-- `inbox_ack`. -/
def inboxAck (a : Json) (ts : Rat) : Except Thrown Planned := do
  let id ← idarg a "item_id"
  let row := (ledger.tables .inbox).get id
  if row.isNull then return .answer (.bool false)
  let state ← a.valueString "new_state" "acked"
  valid state inboxStates
  let row ← row.set "delivery_state" (.str state)
  let row ← row.set (if state = "acked" then "acked_at" else "delivered_at") (.float ts)
  commitOne library .inbox id row (.bool true)

/-- `artifact_register`. -/
def artifactRegister (a : Json) (ts : Rat) : Except Thrown Planned := do
  let id ← idarg a "id"
  let thread ← a.valueJson "thread_id" .null
  require ledger .threads thread
  let parent ← a.valueJson "parent_artifact_id" .null
  require ledger .artifacts parent
  if !((ledger.tables .artifacts).get id).isNull then return .answer (.str id)
  let task ← a.valueString "task_id" ""
  let path ← a.at "path"
  let kind ← a.valueString "kind" "file"
  let mtime ← a.valueJson "mtime" .null
  let size ← a.valueJson "size" .null
  let md5 ← a.valueJson "md5" .null
  commitOne library .artifacts id
    (.object [("artifact_id", .str id), ("task_id", .str task), ("path", path),
      ("kind", .str kind), ("thread_id", thread), ("parent_artifact_id", parent),
      ("mtime", mtime), ("size", size), ("md5", md5), ("created_at", .float ts),
      ("metadata_json", .str "\x7b\x7d")])
    (.str id)

/-- `artifact_link`. -/
def artifactLink (a : Json) : Except Thrown Planned := do
  let id ← idarg a "child_id"
  let row := (ledger.tables .artifacts).get id
  if row.isNull then return .answer (.bool false)
  let parent ← a.at "parent_id"
  require ledger .artifacts parent
  let row ← row.set "parent_artifact_id" parent
  commitOne library .artifacts id row (.bool true)

/-- The id of the parent of an artifact, empty without one. -/
def parentOf (row : Json) : Except Thrown String := do
  let parent ← row.field "parent_artifact_id"
  if parent.isNull then return "" else parent.getString

/-- The rows of a lineage, at most `limit`, and the id at which the walk ends. -/
def lineageRows : Nat → String → List String → Except Thrown (List Json × String)
  | 0, id, _ => .ok ([], id)
  | limit + 1, id, seen =>
    if id = "" ∨ id ∈ seen then .ok ([], id)
    else
      let row := (ledger.tables .artifacts).get id
      if row.isNull then .ok ([], "")
      else do
        let next ← parentOf row
        let (rows, last) ← lineageRows limit next (id :: seen)
        return (row :: rows, last)

/-- `artifact_lineage`. -/
def artifactLineage (a : Json) : Except Thrown Planned := do
  let id ← idarg a "artifact_id"
  let (rows, last) ← lineageRows ledger 100 id []
  return .answer (.object [("rows", .arr rows), ("next_id", .str last)])

/-- `import`. -/
def importRow (a : Json) : Except Thrown Planned := do
  let name ← idarg a "table"
  let table ← TableName.ofName name
  let row ← a.at "row"
  let id ← (← row.at table.key).getString
  if !((ledger.tables table).get id).isNull then return .answer (.bool false)
  commitOne library table id row (.bool true)

/-- `counts`. -/
def counts : Planned :=
  .answer (.object (TableName.all.map fun table =>
    (table.name, .int (ledger.tables table).rows.length)))

/-- The operations by their names. -/
def plan (op : String) (a : Json) (ts : Rat) : Except Thrown Planned :=
  match op with
  | "thread_create" => threadCreate library ledger a ts
  | "thread_get" => getRow ledger .threads a
  | "session_get" => getRow ledger .threadSessions a
  | "thread_update" => threadUpdate library ledger a
  | "thread_seal" => threadSeal library ledger a ts
  | "session_bind" => sessionBind library ledger a ts
  | "session_touch" => touchSession library ledger false a ts
  | "session_close" => touchSession library ledger true a ts
  | "lease_claim" => leaseClaim library ledger a ts
  | "lease_release" => leaseRelease library ledger a
  | "inbox_push" => inboxPush library ledger a ts
  | "inbox_ack" => inboxAck library ledger a ts
  | "artifact_register" => artifactRegister library ledger a ts
  | "artifact_link" => artifactLink library ledger a
  | "artifact_lineage" => artifactLineage ledger a
  | "import" => importRow library ledger a
  | "counts" => .ok (counts ledger)
  | "thread_list" => do return .answer (← list library ledger .threads a ts)
  | "session_list" => do return .answer (← list library ledger .sessions a ts)
  | "lease_list" => do return .answer (← list library ledger .leases a ts)
  | "inbox_list" => do return .answer (← list library ledger .inbox a ts)
  | "artifact_list" => do return .answer (← list library ledger .artifacts a ts)
  | _ => .error (.invalidArgument s!"unknown ledger op: {op}")

/-! ## What an operation stages -/

/-- Every row that an operation stages has a property. -/
def Commits (property : Change → Prop) (planned : Except Thrown Planned) : Prop :=
  ∀ changes result, planned = .ok (.commit changes result) → ∀ staged ∈ changes, property staged

/-- A staged row has been upgraded. -/
def Staged (library : Library) (staged : Change) : Prop :=
  ∃ raw, upgradeRow library staged.table raw = .ok staged.row

/-- An operation stages upgraded rows. -/
def Stages (library : Library) (planned : Except Thrown Planned) : Prop :=
  ∀ changes result, planned = .ok (.commit changes result) →
    ∀ staged ∈ changes, Staged library staged

variable {library : Library} {ledger : TaskLedger} {property : Change → Prop}

/-- Only the end of an operation stages. -/
theorem Commits.bind {α : Type} {first : Except Thrown α} {second : α → Except Thrown Planned}
    (later : ∀ value, first = .ok value → Commits property (second value)) :
    Commits property (first >>= second) := by
  intro changes result planned
  obtain ⟨value, done, planned⟩ := bind_ok planned
  exact later value done changes result planned

/-- Both ends stage rows with the property. -/
theorem Commits.ite {condition : Prop} [Decidable condition]
    {first second : Except Thrown Planned} (yes : condition → Commits property first)
    (no : ¬condition → Commits property second) :
    Commits property (if condition then first else second) := by
  split
  · exact yes ‹_›
  · exact no ‹_›

/-- An answer stages nothing. -/
theorem Commits.answer (result : Json) : Commits property (pure (.answer result)) := by
  intro changes other planned
  have same := Except.ok.inj planned
  contradiction

/-- One staged row. -/
theorem Commits.one {table : TableName} {id : String} {row result : Json}
    (own : ∀ staged, change library table id row = .ok staged → property staged) :
    Commits property (commitOne library table id row result) := by
  intro changes other planned
  obtain ⟨staged, done, planned⟩ := bind_ok planned
  obtain ⟨rfl, _⟩ := Planned.commit.inj (Except.ok.inj planned)
  intro item member
  rw [List.mem_singleton.mp member]
  exact own staged done

/-- Only the end of an operation stages. -/
theorem Stages.bind {α : Type} {first : Except Thrown α} {second : α → Except Thrown Planned}
    (later : ∀ value, Stages library (second value)) : Stages library (first >>= second) :=
  Commits.bind fun value _ => later value

/-- Both ends stage upgraded rows. -/
theorem Stages.ite {condition : Prop} [Decidable condition] {first second : Except Thrown Planned}
    (yes : Stages library first) (no : Stages library second) :
    Stages library (if condition then first else second) :=
  Commits.ite (fun _ => yes) (fun _ => no)

/-- An answer stages nothing. -/
theorem Stages.answer (result : Json) : Stages library (pure (.answer result)) :=
  Commits.answer result

/-- A staged row. -/
theorem change_staged {table : TableName} {id : String} {row : Json} {staged : Change}
    (done : change library table id row = .ok staged) : Staged library staged := by
  obtain ⟨upgraded, fine, done⟩ := bind_ok done
  obtain rfl := Except.ok.inj done
  exact ⟨row, fine⟩

/-- One staged row. -/
theorem Stages.one (table : TableName) (id : String) (row result : Json) :
    Stages library (commitOne library table id row result) :=
  Commits.one fun _ done => change_staged done

/-- `thread_create`. -/
theorem threadCreate_stages (a : Json) (ts : Rat) :
    Stages library (threadCreate library ledger a ts) := by
  unfold threadCreate
  refine .bind fun id => .bind fun parent => .bind fun _ => .ite (.answer _) ?_
  exact .bind fun title => .bind fun realm => .bind fun fingerprint => .one _ _ _ _

/-- `thread_get` and `session_get`. -/
theorem getRow_stages (table : TableName) (a : Json) :
    Stages library (getRow ledger table a) := by
  unfold getRow
  exact .bind fun id => .answer _

/-- The end of `thread_update` and `thread_seal`. -/
theorem commitThread_stages (id : String) (row : Json) :
    Stages library (commitThread library ledger id row) := by
  unfold commitThread
  refine .bind fun value => .bind fun status => .bind fun _ => .bind fun parent => ?_
  exact .bind fun _ => .one _ _ _ _

/-- `thread_update`. -/
theorem threadUpdate_stages (a : Json) : Stages library (threadUpdate library ledger a) := by
  unfold threadUpdate
  refine .bind fun id => .ite (.answer _) (.bind fun fields => .bind fun copied => ?_)
  exact .ite (.answer _) (commitThread_stages id copied.1)

/-- `thread_seal`. -/
theorem threadSeal_stages (a : Json) (ts : Rat) :
    Stages library (threadSeal library ledger a ts) := by
  unfold threadSeal
  refine .bind fun id => .ite (.answer _) (.bind fun sealed => .bind fun timed => ?_)
  exact .bind fun row => commitThread_stages id row

/-- `session_bind`. -/
theorem sessionBind_stages (a : Json) (ts : Rat) :
    Stages library (sessionBind library ledger a ts) := by
  unfold sessionBind
  refine .bind fun id => .ite (.answer _) (.bind fun named => .bind fun threaded => ?_)
  refine .bind fun old => .bind fun text => .bind fun merged => .bind fun status => ?_
  refine .bind fun row => .bind fun _ => .bind fun timed => .bind fun ended => ?_
  exact .one _ _ _ _

/-- The lease of a touch. -/
theorem touchLease_staged {close : Bool} {ts : Rat} {id : String} {lease : Json}
    {staged : Change} (done : touchLease library close ts id lease = .ok staged) :
    Staged library staged := by
  unfold touchLease at done
  split at done
  · exact change_staged done
  · obtain ⟨beaten, _, done⟩ := bind_ok done
    obtain ⟨extended, _, done⟩ := bind_ok done
    exact change_staged done

/-- The leases of a touch. -/
theorem touchLeases_staged {close : Bool} {ts : Rat} {leases : List Json} {changes : List Change}
    (done : touchLeases library close ts leases = .ok changes) :
    ∀ staged ∈ changes, Staged library staged := by
  induction leases generalizing changes with
  | nil =>
    obtain rfl := Except.ok.inj done
    simp
  | cons lease rest ih =>
    obtain ⟨value, _, done⟩ := bind_ok done
    obtain ⟨id, _, done⟩ := bind_ok done
    obtain ⟨first, one, done⟩ := bind_ok done
    obtain ⟨others, more, done⟩ := bind_ok done
    obtain rfl := Except.ok.inj done
    exact List.forall_mem_cons.mpr ⟨touchLease_staged one, ih more⟩

/-- The session of a touch. -/
theorem touchRow_staged {id status : String} {row : Json} {close : Bool} {ts : Rat}
    {changes : List Change} (done : touchRow library id row close status ts = .ok changes) :
    ∀ staged ∈ changes, Staged library staged := by
  unfold touchRow at done
  split at done
  · obtain rfl := Except.ok.inj done
    simp
  · obtain ⟨active, _, done⟩ := bind_ok done
    obtain ⟨stated, _, done⟩ := bind_ok done
    obtain ⟨ended, _, done⟩ := bind_ok done
    obtain ⟨session, one, done⟩ := bind_ok done
    obtain rfl := Except.ok.inj done
    simpa using change_staged one

/-- `session_touch` and `session_close`. -/
theorem touchSession_stages (close : Bool) (a : Json) (ts : Rat) :
    Stages library (touchSession library ledger close a ts) := by
  unfold touchSession
  refine .bind fun stated => .bind fun id => ?_
  intro changes result planned
  obtain ⟨session, first, planned⟩ := bind_ok planned
  obtain ⟨leases, _, planned⟩ := bind_ok planned
  obtain ⟨others, second, planned⟩ := bind_ok planned
  obtain ⟨rfl, _⟩ := Planned.commit.inj (Except.ok.inj planned)
  exact List.forall_mem_append.mpr ⟨touchRow_staged first, touchLeases_staged second⟩

/-- A refused claim. -/
theorem refusedClaim_stages (old : Json) (thread : String) :
    Stages library (refusedClaim old thread) := by
  unfold refusedClaim
  exact .bind fun owner => .bind fun expires => .bind fun generation => .answer _

/-- `lease_claim`. -/
theorem leaseClaim_stages (a : Json) (ts : Rat) :
    Stages library (leaseClaim library ledger a ts) := by
  unfold leaseClaim
  refine .bind fun thread => .bind fun session => .bind fun _ => .bind fun _ => ?_
  refine .bind fun live => .ite (refusedClaim_stages _ thread) (.bind fun same => ?_)
  refine .bind fun generation => .bind fun ttl => .bind fun acquired => ?_
  intro changes result planned
  obtain ⟨lease, first, planned⟩ := bind_ok planned
  obtain ⟨bound, _, planned⟩ := bind_ok planned
  obtain ⟨stated, _, planned⟩ := bind_ok planned
  obtain ⟨row, _, planned⟩ := bind_ok planned
  obtain ⟨owner, second, planned⟩ := bind_ok planned
  obtain ⟨rfl, _⟩ := Planned.commit.inj (Except.ok.inj planned)
  simp only [List.forall_mem_cons, List.not_mem_nil, false_implies, implies_true, and_true]
  exact ⟨change_staged first, change_staged second⟩

/-- The leases of a release. -/
theorem releaseLeases_staged {a : Json} {leases : List Json} {changes : List Change}
    (done : releaseLeases library a leases = .ok changes) :
    ∀ staged ∈ changes, Staged library staged := by
  induction leases generalizing changes with
  | nil =>
    obtain rfl := Except.ok.inj done
    simp
  | cons lease rest ih =>
    obtain ⟨thread, _, done⟩ := bind_ok done
    obtain ⟨others, more, done⟩ := bind_ok done
    split at done
    · obtain ⟨id, _, done⟩ := bind_ok done
      obtain ⟨first, one, done⟩ := bind_ok done
      obtain rfl := Except.ok.inj done
      exact List.forall_mem_cons.mpr ⟨change_staged one, ih more⟩
    · obtain rfl := Except.ok.inj done
      exact ih more

/-- `lease_release`. -/
theorem leaseRelease_stages (a : Json) : Stages library (leaseRelease library ledger a) := by
  unfold leaseRelease
  refine .bind fun session => .bind fun leases => ?_
  intro changes result planned
  obtain ⟨released, done, planned⟩ := bind_ok planned
  obtain ⟨rfl, _⟩ := Planned.commit.inj (Except.ok.inj planned)
  exact releaseLeases_staged done

/-- `inbox_push`. -/
theorem inboxPush_stages (a : Json) (ts : Rat) :
    Stages library (inboxPush library ledger a ts) := by
  unfold inboxPush
  refine .bind fun id => .bind fun thread => .bind fun _ => .ite (.answer _) ?_
  refine .bind fun task => .bind fun event => .bind fun digest => .bind fun payload => ?_
  exact .bind fun realm => .one _ _ _ _

/-- `inbox_ack`. -/
theorem inboxAck_stages (a : Json) (ts : Rat) : Stages library (inboxAck library ledger a ts) := by
  unfold inboxAck
  refine .bind fun id => .ite (.answer _) (.bind fun state => .bind fun _ => ?_)
  exact .bind fun stated => .bind fun timed => .one _ _ _ _

/-- `artifact_register`. -/
theorem artifactRegister_stages (a : Json) (ts : Rat) :
    Stages library (artifactRegister library ledger a ts) := by
  unfold artifactRegister
  refine .bind fun id => .bind fun thread => .bind fun _ => .bind fun parent => ?_
  refine .bind fun _ => .ite (.answer _) (.bind fun task => .bind fun path => ?_)
  refine .bind fun kind => .bind fun mtime => .bind fun size => .bind fun md5 => ?_
  exact .one _ _ _ _

/-- `artifact_link`. -/
theorem artifactLink_stages (a : Json) : Stages library (artifactLink library ledger a) := by
  unfold artifactLink
  refine .bind fun id => .ite (.answer _) (.bind fun parent => .bind fun _ => ?_)
  exact .bind fun row => .one _ _ _ _

/-- `artifact_lineage`. -/
theorem artifactLineage_stages (a : Json) : Stages library (artifactLineage ledger a) := by
  unfold artifactLineage
  exact .bind fun id => .bind fun walked => .answer _

/-- `import`. -/
theorem importRow_stages (a : Json) : Stages library (importRow library ledger a) := by
  unfold importRow
  refine .bind fun name => .bind fun table => .bind fun row => .bind fun key => ?_
  exact .bind fun id => .ite (.answer _) (.one _ _ _ _)

/-- The list operations. -/
theorem list_stages (listing : Listing) (a : Json) (ts : Rat) :
    Stages library (do return .answer (← list library ledger listing a ts)) :=
  .bind fun page => .answer page

/-- Every operation stages upgraded rows. -/
theorem plan_stages (op : String) (a : Json) (ts : Rat) :
    Stages library (plan library ledger op a ts) := by
  unfold plan
  split
  · exact threadCreate_stages a ts
  · exact getRow_stages .threads a
  · exact getRow_stages .threadSessions a
  · exact threadUpdate_stages a
  · exact threadSeal_stages a ts
  · exact sessionBind_stages a ts
  · exact touchSession_stages false a ts
  · exact touchSession_stages true a ts
  · exact leaseClaim_stages a ts
  · exact leaseRelease_stages a
  · exact inboxPush_stages a ts
  · exact inboxAck_stages a ts
  · exact artifactRegister_stages a ts
  · exact artifactLink_stages a
  · exact artifactLineage_stages a
  · exact importRow_stages a
  · exact .answer _
  · exact list_stages .threads a ts
  · exact list_stages .sessions a ts
  · exact list_stages .leases a ts
  · exact list_stages .inbox a ts
  · exact list_stages .artifacts a ts
  · intro changes result planned
    contradiction

end Chitta.Ledger
