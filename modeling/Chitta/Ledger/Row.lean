import Chitta.Ledger.Path
import Chitta.Ledger.Table

/-!
# The rows of the ledger

The five tables with the fields of their rows, the columns that are derived from the capsule in
the metadata of a session, and the check that every row of a batch passes before the batch is
persisted.
-/
namespace Chitta.Ledger

/-- The tables, in the order of their names. -/
inductive TableName where
  /-- `artifacts`. -/
  | artifacts
  /-- `inbox`. -/
  | inbox
  /-- `thread_leases`. -/
  | threadLeases
  /-- `thread_sessions`. -/
  | threadSessions
  /-- `threads`. -/
  | threads
deriving DecidableEq, Repr

namespace TableName

/-- Every table. -/
def all : List TableName := [artifacts, inbox, threadLeases, threadSessions, threads]

/-- The name of a table. -/
def name : TableName → String
  | artifacts => "artifacts"
  | inbox => "inbox"
  | threadLeases => "thread_leases"
  | threadSessions => "thread_sessions"
  | threads => "threads"

/-- `tables.at`. -/
def ofName (name : String) : Except Thrown TableName :=
  match all.find? (·.name = name) with
  | some table => .ok table
  | none => .error (.outOfRange name)

/-- The primary key. -/
def key : TableName → String
  | artifacts => "artifact_id"
  | inbox => "item_id"
  | threadLeases => "thread_id"
  | threadSessions => "session_id"
  | threads => "thread_id"

/-- The indexed fields. -/
def indexed : TableName → List String
  | artifacts => ["task_id", "thread_id"]
  | inbox => ["delivery_state", "target_realm"]
  | threadLeases => ["session_id"]
  | threadSessions => ["project_dir", "repository", "status", "stream_id", "thread_id"]
  | threads => ["realm", "status"]

/-- The fields of a row. -/
def keys : TableName → List String
  | artifacts => ["artifact_id", "created_at", "kind", "md5", "metadata_json", "mtime",
      "parent_artifact_id", "path", "size", "task_id", "thread_id"]
  | inbox => ["acked_at", "created_at", "delivered_at", "delivery_state", "digest", "event_type",
      "item_id", "payload_json", "target_realm", "task_id", "thread_id"]
  | threadLeases => ["acquired_at", "expires_at", "generation", "last_heartbeat_at", "session_id",
      "thread_id"]
  | threadSessions => ["client", "ended_at", "last_active_at", "metadata_json", "project_dir",
      "repository", "session_id", "started_at", "status", "stream_id", "thread_id",
      "transcript_path"]
  | threads => ["created_at", "last_active_at", "metadata_json", "parent_thread_id", "realm",
      "sealed_at", "status", "thread_id", "title", "topic_fingerprint"]

/-- The allowed values of the status. -/
def statuses : TableName → List String
  | threads => ["active", "sealed", "dormant"]
  | _ => ["active", "ended", "interrupted", "completed"]

/-- The indexed fields are fields of the rows. -/
theorem indexed_keys (table : TableName) : ∀ field ∈ table.indexed, field ∈ table.keys := by
  cases table with
  | artifacts => decide
  | inbox => decide
  | threadLeases => decide
  | threadSessions => decide
  | threads => decide

end TableName

/-- The fields that hold numbers. -/
def numeric : List String :=
  ["created_at", "last_active_at", "sealed_at", "started_at", "ended_at", "acquired_at",
    "last_heartbeat_at", "expires_at", "delivered_at", "acked_at", "mtime", "size", "generation"]

/-- The fields that may be null. -/
def nullable : List String :=
  ["thread_id", "topic_fingerprint", "sealed_at", "ended_at", "parent_thread_id", "delivered_at",
    "acked_at", "mtime", "size", "md5", "parent_artifact_id"]

/-- The states of an inbox item. -/
def inboxStates : List String := ["pending", "delivered", "acked", "suppressed"]

/-- The handoff capsule in the text of a session's metadata, an empty object without one. -/
def handoffOf (library : Library) (text : String) : Except Thrown Json :=
  match library.parse text with
  | some metadata =>
    if metadata.isObject then metadata.valueJson "handoff" (.object []) else .ok (.object [])
  | none => .ok (.object [])

/-- The repository and the stream of a capsule of version 2, else two empty texts. -/
def capsuleColumns (cap : Json) : Except Thrown (String × String) := do
  if cap.isObject then
    let version ← cap.valueWith Json.getInt "version" 0
    if version = 2 then
      let repository ← cap.valueString "repository" ""
      let stream ← cap.valueString "stream_id" ""
      return (repositoryKey repository, stream)
    else return ("", "")
  else return ("", "")

/-- `upgrade_row`: the derived columns of a session. -/
def upgradeRow (library : Library) (table : TableName) (row : Json) : Except Thrown Json :=
  if table = .threadSessions ∧ row.isObject then do
    let text ← row.valueString "metadata_json" "{}"
    let cap ← handoffOf library text
    let (repository, stream) ← capsuleColumns cap
    let row ← row.set "repository" (.str repository)
    row.set "stream_id" (.str stream)
  else .ok row

/-- The check of one field of a row. -/
def validateField (row : Json) (key : String) : Except Thrown Unit :=
  if !row.contains key then .error (.invalidArgument s!"missing ledger field: {key}")
  else do
    let value ← row.at key
    if key ∈ nullable ∧ value.isNull then return ()
    else if (if key ∈ numeric then !value.isNumber else !value.isString) then
      throw (.invalidArgument s!"invalid ledger field type: {key}")
    else return ()

/-- The check of the status and of the delivery state, where the row has them. -/
def validateStates (table : TableName) (row : Json) : Except Thrown Unit := do
  if row.contains "status" then
    let status ← (← row.at "status").getString
    if status ∉ table.statuses then throw (.invalidArgument "invalid ledger status")
  if row.contains "delivery_state" then
    let state ← (← row.at "delivery_state").getString
    if state ∉ inboxStates then throw (.invalidArgument "invalid inbox state")

/-- `validate_row`: a null row removes and needs no check. -/
def validateRow (table : TableName) (id : String) (row : Json) : Except Thrown Unit :=
  match row with
  | .null => .ok ()
  | .obj fields =>
    if fields.length ≠ table.keys.length then
      .error (.invalidArgument "invalid ledger row keys")
    else do
      table.keys.forM (validateField row)
      let key ← row.at table.key
      if !key.same (.str id) then throw (.invalidArgument "ledger primary key mismatch")
      validateStates table row
  | _ => .error (.invalidArgument "invalid ledger row keys")

/-! ## What the check promises -/

/-- Every check of a list passed. -/
theorem forM_ok {α : Type} {check : α → Except Thrown Unit} {items : List α}
    (passed : items.forM check = .ok ()) : ∀ item ∈ items, check item = .ok () := by
  induction items with
  | nil => simp
  | cons first rest ih =>
    have both : (check first >>= fun _ => rest.forM check) = .ok () := passed
    obtain ⟨_, own, later⟩ := bind_ok both
    intro item member
    cases List.mem_cons.mp member with
    | inl here => exact here ▸ own
    | inr there => exact ih later item there

/-- A field that passed its check is there. -/
theorem validateField_contains {row : Json} {key : String}
    (checked : validateField row key = .ok ()) : row.contains key := by
  unfold validateField at checked
  split at checked
  · contradiction
  · rename_i present
    simpa using present

/-- A row that passed the check has every field of its table. -/
theorem validateRow_contains {table : TableName} {id : String} {row : Json}
    (checked : validateRow table id row = .ok ()) (present : row.isNull = false) :
    ∀ key ∈ table.keys, row.contains key := by
  cases row with
  | obj fields =>
    simp only [validateRow] at checked
    split at checked
    · contradiction
    · obtain ⟨_, passed, _⟩ := bind_ok checked
      intro key member
      exact validateField_contains (forM_ok passed key member)
  | null => contradiction
  | _ => contradiction

/-- A value that a field may have. -/
def Fitting (key : String) (value : Json) : Prop :=
  (key ∈ nullable ∧ value.isNull) ∨ if key ∈ numeric then value.isNumber else value.isString

/-- A field that passed its check has a fitting value. -/
theorem validateField_fitting {row : Json} {key : String}
    (checked : validateField row key = .ok ()) :
    ∃ value, row.find key = some value ∧ Fitting key value := by
  obtain ⟨value, found⟩ := Option.isSome_iff_exists.mp (validateField_contains checked)
  refine ⟨value, found, ?_⟩
  have present : row.contains key = true := Option.isSome_iff_exists.mpr ⟨value, found⟩
  simp only [validateField, present, Bool.not_true, Bool.false_eq_true, if_false,
    Json.at_of_find found, bind, Except.bind] at checked
  split at checked
  · rename_i absent
    exact .inl absent
  · right
    by_cases number : key ∈ numeric
    · simp only [if_pos number] at checked ⊢
      cases kind : value.isNumber with
      | true => rfl
      | false =>
        rw [kind] at checked
        contradiction
    · simp only [if_neg number] at checked ⊢
      cases kind : value.isString with
      | true => rfl
      | false =>
        rw [kind] at checked
        contradiction

/-- What the check of a row that is not null has made sure of. -/
theorem validateRow_cases {table : TableName} {id : String} {row : Json}
    (checked : validateRow table id row = .ok ()) (present : row.isNull = false) :
    (∀ key ∈ table.keys, validateField row key = .ok ()) ∧
      (∃ key, row.at table.key = .ok key ∧ key.same (.str id) = true) ∧
      validateStates table row = .ok () := by
  cases row with
  | obj fields =>
    simp only [validateRow] at checked
    split at checked
    · contradiction
    · obtain ⟨_, passed, checked⟩ := bind_ok checked
      obtain ⟨key, read, checked⟩ := bind_ok checked
      refine ⟨forM_ok passed, ⟨key, read, ?_⟩, ?_⟩
      · cases own : key.same (.str id) with
        | true => rfl
        | false =>
          rw [own] at checked
          contradiction
      · cases own : key.same (.str id) with
        | true =>
          rw [own] at checked
          exact checked
        | false =>
          rw [own] at checked
          contradiction
  | null => contradiction
  | _ => contradiction

/-- Every field of a checked row has a fitting value. -/
theorem validateRow_fitting {table : TableName} {id : String} {row : Json}
    (checked : validateRow table id row = .ok ()) (present : row.isNull = false) {key : String}
    (inside : key ∈ table.keys) : ∃ value, row.find key = some value ∧ Fitting key value :=
  validateField_fitting ((validateRow_cases checked present).1 key inside)

/-- A checked row has its id in the field of the primary key. -/
theorem validateRow_key {table : TableName} {id : String} {row : Json}
    (checked : validateRow table id row = .ok ()) (present : row.isNull = false) :
    row.find table.key = some (.str id) := by
  obtain ⟨key, read, same⟩ := (validateRow_cases checked present).2.1
  have found := Json.find_of_at read
  cases key with
  | str text =>
    have equal : text = id := by simpa [Json.same] using same
    rw [found, equal]
  | _ => simp [Json.same] at same

/-- A text field of a checked row that may not be null. -/
theorem validateRow_text {table : TableName} {id : String} {row : Json}
    (checked : validateRow table id row = .ok ()) (present : row.isNull = false) {key : String}
    (inside : key ∈ table.keys) (text : key ∉ numeric) (required : key ∉ nullable) :
    ∃ value, row.find key = some (.str value) := by
  obtain ⟨value, found, fitting⟩ := validateRow_fitting checked present inside
  have string := fitting.resolve_left fun null => required null.1
  rw [if_neg text] at string
  cases value with
  | str value => exact ⟨value, found⟩
  | _ => contradiction

/-- A field that is set loses no other. -/
theorem contains_set {row result value : Json} {key name : String}
    (done : row.set key value = .ok result) (present : row.contains name) :
    result.contains name := by
  rw [Json.contains, Json.find_set done]
  split
  · rfl
  · exact present

/-- Upgrading a row loses no field. -/
theorem upgradeRow_contains {library : Library} {table : TableName} {row upgraded : Json}
    (done : upgradeRow library table row = .ok upgraded) {name : String}
    (present : row.contains name) : upgraded.contains name := by
  unfold upgradeRow at done
  split at done
  · obtain ⟨text, _, done⟩ := bind_ok done
    obtain ⟨cap, _, done⟩ := bind_ok done
    obtain ⟨columns, _, done⟩ := bind_ok done
    obtain ⟨middle, first, done⟩ := bind_ok done
    exact contains_set done (contains_set first present)
  · exact Except.ok.inj done ▸ present

/-! ## Upgrading twice -/

/-- A field that is settled in a row. -/
def Json.Settled (row : Json) (key : String) (value : Json) : Prop :=
  match row with
  | .obj fields => Assoc.Settled key value fields
  | _ => False

/-- An assigned field is settled. -/
theorem settled_set {row after value : Json} {key : String}
    (done : row.set key value = .ok after) : Json.Settled after key value := by
  cases row with
  | obj fields => exact Except.ok.inj done ▸ Assoc.settled_assign key value fields
  | null => exact Except.ok.inj done ▸ Or.inl ⟨rfl, rfl⟩
  | _ => contradiction

/-- Assigning a later field keeps a field settled. -/
theorem Json.Settled.set {row after value added : Json} {key other : String}
    (settled : Json.Settled row key value) (later : key < other)
    (done : row.set other added = .ok after) : Json.Settled after key value := by
  cases row with
  | obj fields => exact Except.ok.inj done ▸ Assoc.Settled.assign_later settled later added
  | _ => contradiction

/-- Assigning a settled field changes nothing. -/
theorem Json.Settled.set_self {row value : Json} {key : String}
    (settled : Json.Settled row key value) : row.set key value = .ok row := by
  cases row with
  | obj fields => simp only [Json.set, Assoc.Settled.assign_self settled]
  | _ => contradiction

/-- Upgrading an upgraded row changes nothing. -/
theorem upgradeRow_stable {library : Library} {table : TableName} {row upgraded : Json}
    (done : upgradeRow library table row = .ok upgraded) :
    upgradeRow library table upgraded = .ok upgraded := by
  by_cases derived : table = .threadSessions ∧ row.isObject
  · rw [upgradeRow, if_pos derived] at done
    obtain ⟨text, read, done⟩ := bind_ok done
    obtain ⟨cap, parsed, done⟩ := bind_ok done
    obtain ⟨columns, computed, done⟩ := bind_ok done
    obtain ⟨middle, first, done⟩ := bind_ok done
    have object := Json.isObject_set done
    have kept : upgraded.find "metadata_json" = row.find "metadata_json" := by
      rw [Json.find_set done, Json.find_set first]
      simp
    have reread : upgraded.valueString "metadata_json" "{}" = .ok text := by
      rw [← read]
      exact Json.valueWith_congr object derived.2 kept Json.getString "{}"
    have repository : Json.Settled upgraded "repository" (.str columns.1) :=
      (settled_set first).set (by decide) done
    rw [upgradeRow, if_pos ⟨derived.1, object⟩]
    simp only [reread, parsed, computed, repository.set_self, bind, Except.bind]
    exact (settled_set done).set_self
  · rw [upgradeRow, if_neg derived] at done
    obtain rfl := Except.ok.inj done
    rw [upgradeRow, if_neg derived]

end Chitta.Ledger
