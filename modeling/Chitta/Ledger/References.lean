import Chitta.Ledger.Leases

/-!
# References between the tables

Rows name rows of other tables. An operation checks the references it writes or copies them from a
row that is stored, and only leases are ever removed, to which nothing refers; so without imports
every reference names a row that is there.
-/
namespace Chitta.Ledger

/-- The fields of a table that refer to rows. -/
def TableName.references : TableName → List (String × TableName)
  | .artifacts => [("thread_id", .threads), ("parent_artifact_id", .artifacts)]
  | .inbox => [("thread_id", .threads)]
  | .threadLeases => [("thread_id", .threads), ("session_id", .threadSessions)]
  | .threadSessions => [("thread_id", .threads)]
  | .threads => [("parent_thread_id", .threads)]

/-- A reference is null or names a row. -/
def NullOrNames (ledger : TaskLedger) (target : TableName) (value : Json) : Prop :=
  value = .null ∨ ∃ id, value = .str id ∧ ledger.Has target id

/-- The references of a row hold. -/
def Refers (ledger : TaskLedger) (table : TableName) (row : Json) : Prop :=
  ∀ reference ∈ table.references,
    ∃ value, row.find reference.1 = some value ∧ NullOrNames ledger reference.2 value

/-- A staged row removes a lease or has references that hold. -/
def Sane (ledger : TaskLedger) (staged : Change) : Prop :=
  (staged.row.isNull = true → staged.table = .threadLeases) ∧
    (staged.row.isNull = false → Refers ledger staged.table staged.row)

/-- The references of every row hold. -/
def ReferencesHold (ledger : TaskLedger) : Prop :=
  ∀ table id row, ledger.Stored table id row → Refers ledger table row

variable {library : Library} {ledger : TaskLedger}

/-- References are not derived fields, and none points to a lease. -/
theorem references_apart (table : TableName) : ∀ reference ∈ table.references,
    reference.1 ≠ "repository" ∧ reference.1 ≠ "stream_id" ∧ reference.2 ≠ .threadLeases := by
  cases table with
  | artifacts => decide
  | inbox => decide
  | threadLeases => decide
  | threadSessions => decide
  | threads => decide

/-- A row that is made from another has its references. -/
theorem MadeFrom.sane {staged : Change} {table : TableName} {id : String} {row : Json}
    (made : MadeFrom staged table id row) (present : row.isNull = false)
    (refers : Refers ledger table row) : Sane ledger staged := by
  constructor
  · intro null
    rw [made.isNull, present] at null
    contradiction
  · intro _ reference inside
    rw [made.table] at inside
    obtain ⟨one, two, _⟩ := references_apart table reference inside
    rw [made.find reference.1 one two]
    exact refers reference inside

/-- A checked value is null or names a row. -/
theorem nullOrNames_require {table : TableName} {value : Json}
    (done : require ledger table value = .ok ()) : NullOrNames ledger table value :=
  require_ok done

/-- A row keeps its references when a field is set that is none. -/
theorem Refers.set {table : TableName} {row after value : Json} {key : String}
    (refers : Refers ledger table row) (done : row.set key value = .ok after)
    (own : ∀ reference ∈ table.references, reference.1 = key →
      NullOrNames ledger reference.2 value) : Refers ledger table after := by
  intro reference inside
  rw [Json.find_set done]
  by_cases here : reference.1 = key
  · exact ⟨value, by rw [if_pos here], own reference inside here⟩
  · rw [if_neg here]
    exact refers reference inside

/-- A row with the references of another one. -/
theorem Refers.congr {table : TableName} {row other : Json} (refers : Refers ledger table row)
    (same : ∀ reference ∈ table.references, other.find reference.1 = row.find reference.1) :
    Refers ledger table other := by
  intro reference inside
  rw [same reference inside]
  exact refers reference inside

/-- The row of a table with one reference. -/
theorem Refers.one {table target : TableName} {row value : Json} {key : String}
    (only : table.references = [(key, target)]) (named : NullOrNames ledger target value)
    (found : row.find key = some value) : Refers ledger table row := by
  intro reference inside
  rw [only, List.mem_singleton] at inside
  subst inside
  exact ⟨value, found, named⟩

/-- The row of a table with two references. -/
theorem Refers.two {table target target' : TableName} {row value value' : Json}
    {key key' : String} (both : table.references = [(key, target), (key', target')])
    (named : NullOrNames ledger target value) (named' : NullOrNames ledger target' value')
    (found : row.find key = some value) (found' : row.find key' = some value') :
    Refers ledger table row := by
  intro reference inside
  rw [both, List.mem_cons, List.mem_singleton] at inside
  cases inside with
  | inl same =>
    subst same
    exact ⟨value, found, named⟩
  | inr same =>
    subst same
    exact ⟨value', found', named'⟩

/-! ## What the operations stage -/

/-- `thread_create`. -/
theorem threadCreate_sane (a : Json) (ts : Rat) :
    Commits (Sane ledger) (threadCreate library ledger a ts) := by
  unfold threadCreate
  refine .bind fun id _ => .bind fun parent _ => .bind fun _ required => ?_
  refine .ite (fun _ => .answer _) fun _ => ?_
  refine .bind fun title _ => .bind fun realm _ => .bind fun fingerprint _ => ?_
  refine .one fun staged done => (change_madeFrom done).sane (Json.isNull_object _) ?_
  refine .one rfl (nullOrNames_require required) ?_
  simp [Json.find_object, Assoc.lookup]

/-- The end of `thread_update` and `thread_seal`. -/
theorem commitThread_sane (id : String) (row : Json) :
    Commits (Sane ledger) (commitThread library ledger id row) := by
  unfold commitThread
  refine .bind fun value read => .bind fun status _ => .bind fun _ _ => ?_
  refine .bind fun parent found => .bind fun _ required => ?_
  refine .one fun staged done => (change_madeFrom done).sane ?_ ?_
  · exact Json.isNull_of_find (Json.find_of_at found)
  · exact .one rfl (nullOrNames_require required) (Json.find_of_at found)

/-- `thread_update`. -/
theorem threadUpdate_sane (a : Json) :
    Commits (Sane ledger) (threadUpdate library ledger a) := by
  unfold threadUpdate
  refine .bind fun id _ => .ite (fun _ => .answer _) fun _ => ?_
  refine .bind fun fields _ => .bind fun copied _ => .ite (fun _ => .answer _) fun _ => ?_
  exact commitThread_sane id copied.1

/-- `thread_seal`. -/
theorem threadSeal_sane (a : Json) (ts : Rat) :
    Commits (Sane ledger) (threadSeal library ledger a ts) := by
  unfold threadSeal
  refine .bind fun id _ => .ite (fun _ => .answer _) fun _ => ?_
  refine .bind fun sealed _ => .bind fun timed _ => .bind fun row _ => ?_
  exact commitThread_sane id row

/-- `session_bind`. -/
theorem sessionBind_sane (hold : ReferencesHold ledger) (a : Json) (ts : Rat) :
    Commits (Sane ledger) (sessionBind library ledger a ts) := by
  intro changes result planned staged inside
  obtain ⟨id, only, row, _, _, rfl, made, bound⟩ := sessionBind_cases planned
  obtain rfl := List.mem_singleton.mp inside
  refine made.sane (Json.isNull_of_find bound.ended) ?_
  have thread : ∃ value, row.find "thread_id" = some value ∧ NullOrNames ledger .threads value := by
    obtain ⟨value, _, required, found⟩ | ⟨_, kept⟩ := bound.thread
    · exact ⟨value, found, nullOrNames_require required⟩
    · rw [kept]
      unfold boundBase
      split
      · exact ⟨.null, by simp [newSession, Json.find_object, Assoc.lookup], .inl rfl⟩
      · rename_i present
        have there : ((ledger.tables .threadSessions).get id).isNull = false := by
          simpa using present
        have stored := stored_of_get there
        exact hold .threadSessions id _ stored ("thread_id", .threads) (by decide)
  simpa [Refers, TableName.references] using thread

/-- `session_touch` and `session_close`. -/
theorem touchSession_sane (valid : ledger.Valid library) (hold : ReferencesHold ledger)
    (close : Bool) (a : Json) (ts : Rat) :
    Commits (Sane ledger) (touchSession library ledger close a ts) := by
  intro changes result planned staged inside
  obtain ⟨id, status, session, leases, rows, _, _, row, selected, touched, rfl⟩ :=
    touchSession_cases planned
  cases List.mem_append.mp inside with
  | inl here =>
    obtain ⟨_, rfl⟩ | ⟨present, one, after, rfl, made, isRow, found⟩ := touchRow_cases row
    · contradiction
    · obtain rfl := List.mem_singleton.mp here
      refine made.sane isRow ((hold .threadSessions id _ (stored_of_get present)).congr ?_)
      simp [TableName.references, found]
  | inr there =>
    obtain ⟨lease, among, own⟩ := touched_lease touched there
    cases close with
    | true => exact ⟨fun _ => own.table, fun kept => by simp [own.removed rfl] at kept⟩
    | false =>
      obtain ⟨kept, found⟩ := own.extended rfl
      refine ⟨fun null => by simp [kept] at null, fun _ => ?_⟩
      obtain ⟨rows', again, mem⟩ := valid.leases id
      rw [selected] at again
      obtain rfl := Except.ok.inj again
      obtain ⟨thread, stored, _⟩ := (mem lease).mp among
      rw [own.table]
      refine (hold .threadLeases thread lease stored).congr ?_
      simp [TableName.references, found]

/-- `lease_claim`. -/
theorem leaseClaim_sane (a : Json) (ts : Rat) :
    Commits (Sane ledger) (leaseClaim library ledger a ts) := by
  intro changes result planned staged inside
  obtain ⟨thread, session, lease, row, first, second, _, _, rfl, one, two, claimed, _⟩ :=
    leaseClaim_cases planned
  have named : NullOrNames ledger .threads (.str thread) := .inr ⟨thread, rfl, claimed.hasThread⟩
  have owned : NullOrNames ledger .threadSessions (.str session) :=
    .inr ⟨session, rfl, _, claimed.hasSession⟩
  obtain rfl | rfl : staged = first ∨ staged = second := by simpa using inside
  · refine one.sane claimed.isLease ?_
    exact .two rfl named owned claimed.onThread claimed.owner
  · refine two.sane claimed.isRow ?_
    refine .one rfl named ?_
    simp [claimed.active]

/-- `lease_release`. -/
theorem leaseRelease_sane (a : Json) :
    Commits (Sane ledger) (leaseRelease library ledger a) := by
  intro changes result planned staged inside
  obtain ⟨session, rows, _, _, removed⟩ := leaseRelease_cases planned
  obtain ⟨table, null, _⟩ := removed staged inside
  exact ⟨fun _ => table, fun kept => by simp [null] at kept⟩

/-- `inbox_push`. -/
theorem inboxPush_sane (a : Json) (ts : Rat) :
    Commits (Sane ledger) (inboxPush library ledger a ts) := by
  unfold inboxPush
  refine .bind fun id _ => .bind fun thread _ => .bind fun _ required => ?_
  refine .ite (fun _ => .answer _) fun _ => .bind fun task _ => .bind fun event _ => ?_
  refine .bind fun digest _ => .bind fun payload _ => .bind fun realm _ => ?_
  refine .one fun staged done => (change_madeFrom done).sane (Json.isNull_object _) ?_
  refine .one rfl (nullOrNames_require required) ?_
  simp [Json.find_object, Assoc.lookup]

/-- `inbox_ack`. -/
theorem inboxAck_sane (hold : ReferencesHold ledger) (a : Json) (ts : Rat) :
    Commits (Sane ledger) (inboxAck library ledger a ts) := by
  unfold inboxAck
  refine .bind fun id _ => .ite (fun _ => .answer _) fun present => ?_
  refine .bind fun state _ => .bind fun _ _ => .bind fun stated first => ?_
  refine .bind fun timed second => .one fun staged done => ?_
  have stored := stored_of_get (by simpa using present)
  refine (change_madeFrom done).sane (Json.isNull_of_isObject (Json.isObject_set second)) ?_
  refine ((hold .inbox id _ stored).set first ?_).set second ?_
  · simp [TableName.references]
  · intro reference inside same
    exfalso
    split at same
    · revert inside
      simp [TableName.references, Prod.ext_iff, same]
    · revert inside
      simp [TableName.references, Prod.ext_iff, same]

/-- `artifact_register`. -/
theorem artifactRegister_sane (a : Json) (ts : Rat) :
    Commits (Sane ledger) (artifactRegister library ledger a ts) := by
  unfold artifactRegister
  refine .bind fun id _ => .bind fun thread _ => .bind fun _ first => ?_
  refine .bind fun parent _ => .bind fun _ second => .ite (fun _ => .answer _) fun _ => ?_
  refine .bind fun task _ => .bind fun path _ => .bind fun kind _ => .bind fun mtime _ => ?_
  refine .bind fun size _ => .bind fun md5 _ => ?_
  refine .one fun staged done => (change_madeFrom done).sane (Json.isNull_object _) ?_
  refine .two rfl (nullOrNames_require first) (nullOrNames_require second) ?_ ?_
  · simp [Json.find_object, Assoc.lookup]
  · simp [Json.find_object, Assoc.lookup]

/-- `artifact_link`. -/
theorem artifactLink_sane (hold : ReferencesHold ledger) (a : Json) :
    Commits (Sane ledger) (artifactLink library ledger a) := by
  unfold artifactLink
  refine .bind fun id _ => .ite (fun _ => .answer _) fun present => ?_
  refine .bind fun parent _ => .bind fun _ required => .bind fun linked set => ?_
  refine .one fun staged done => ?_
  have stored := stored_of_get (by simpa using present)
  refine (change_madeFrom done).sane (Json.isNull_of_isObject (Json.isObject_set set)) ?_
  refine (hold .artifacts id _ stored).set set ?_
  simp [TableName.references, nullOrNames_require required]

/-- Operations other than `import` stage rows whose references hold. -/
theorem plan_sane (valid : ledger.Valid library) (hold : ReferencesHold ledger) {op : String}
    (own : op ≠ "import") (a : Json) (ts : Rat) :
    Commits (Sane ledger) (plan library ledger op a ts) := by
  unfold plan
  split
  · exact threadCreate_sane a ts
  · exact .bind fun id _ => .answer _
  · exact .bind fun id _ => .answer _
  · exact threadUpdate_sane a
  · exact threadSeal_sane a ts
  · exact sessionBind_sane hold a ts
  · exact touchSession_sane valid hold false a ts
  · exact touchSession_sane valid hold true a ts
  · exact leaseClaim_sane a ts
  · exact leaseRelease_sane a
  · exact inboxPush_sane a ts
  · exact inboxAck_sane hold a ts
  · exact artifactRegister_sane a ts
  · exact artifactLink_sane hold a
  · exact .bind fun id _ => .bind fun walked _ => .answer _
  · contradiction
  · exact .answer _
  · exact .bind fun page _ => .answer _
  · exact .bind fun page _ => .answer _
  · exact .bind fun page _ => .answer _
  · exact .bind fun page _ => .answer _
  · exact .bind fun page _ => .answer _
  · intro changes result planned
    contradiction

/-! ## What a run leaves -/

/-- Only leases are removed. -/
theorem Published.has {op : String} {a value : Json} {ts : Rat} {after : TaskLedger}
    {changes : List Change} (published : Published library ledger op a ts after changes value)
    (sane : ∀ staged ∈ changes, Sane ledger staged) {table : TableName}
    (lasting : table ≠ .threadLeases) {id : String} (there : ledger.Has table id) :
    after.Has table id := by
  obtain ⟨row, stored⟩ := there
  have rows := published.rows table id
  rw [stored] at rows
  cases rowAfter_cases table id changes (some row) with
  | inl untouched => exact ⟨row, rows.trans untouched.1⟩
  | inr replaced =>
    obtain ⟨staged, inside, own, _, last⟩ := replaced
    have kept : staged.row.isNull = false := by
      cases null : staged.row.isNull with
      | false => rfl
      | true => exact absurd (own.symm.trans ((sane staged inside).1 null)) lasting
    rw [last, kept] at rows
    exact ⟨staged.row, rows⟩

/-- A reference that holds goes on to hold. -/
theorem Refers.published {op : String} {a value : Json} {ts : Rat} {after : TaskLedger}
    {changes : List Change} {table : TableName} {row : Json} (refers : Refers ledger table row)
    (published : Published library ledger op a ts after changes value)
    (sane : ∀ staged ∈ changes, Sane ledger staged) : Refers after table row := by
  intro reference inside
  obtain ⟨value, found, named⟩ := refers reference inside
  refine ⟨value, found, named.imp id fun there => ?_⟩
  obtain ⟨id, text, has⟩ := there
  have lasting := (references_apart table reference inside).2.2
  exact ⟨id, text, published.has sane lasting has⟩

/-- A run that is no import keeps the references. -/
theorem ReferencesHold.run (hold : ReferencesHold ledger) (valid : ledger.Valid library)
    {op : String} (own : op ≠ "import") (a : Json) (ts : Rat) (persist : Batch → Option Thrown) :
    ReferencesHold (Ledger.run library ledger op a ts persist).ledger := by
  cases valid.run op a ts persist with
  | inl same => rwa [same]
  | inr done =>
    obtain ⟨changes, value, published, _⟩ := done
    have sane := plan_sane valid hold own a ts changes value published.planned
    intro table id row stored
    have rows := published.rows table id
    rw [stored] at rows
    cases rowAfter_cases table id changes (Assoc.lookup id (ledger.tables table).rows) with
    | inl untouched =>
      have before := hold table id row (untouched.1.symm.trans rows.symm)
      exact before.published published sane
    | inr replaced =>
      obtain ⟨staged, inside, named, _, last⟩ := replaced
      rw [last] at rows
      cases null : staged.row.isNull with
      | true =>
        rw [null] at rows
        contradiction
      | false =>
        rw [null] at rows
        obtain rfl : row = staged.row := Option.some.inj rows
        exact named ▸ ((sane staged inside).2 null).published published sane

/-- The references hold in every ledger that runs without imports lead to. -/
theorem referencesHold_reached (reached : (machine library).Reaches RunsWithoutImport ledger) :
    ledger.Valid library ∧ ReferencesHold ledger := by
  induction reached with
  | initial => exact ⟨valid_fresh, fun table id row stored => by contradiction⟩
  | step action reached permitted taken ih =>
    refine ⟨valid_of_reaches (.step action reached permitted taken), ?_⟩
    cases action with
    | run op a ts persist =>
      obtain rfl := Option.some.inj taken
      exact ih.2.run ih.1 permitted a ts persist
    | replay batch => contradiction

/-- Every reference of a row is null or names a row, a lease names a thread and a session, and
every row passes its check. -/
theorem references_intact (reached : (machine library).Reaches RunsWithoutImport ledger) :
    ReferencesHold ledger ∧
      (∀ thread lease, ledger.Stored .threadLeases thread lease →
        lease.find "thread_id" = some (.str thread) ∧ ledger.Has .threads thread ∧
          ∃ session, lease.find "session_id" = some (.str session) ∧
            ledger.Has .threadSessions session) ∧
      ∀ table id row, ledger.Stored table id row → validateRow table id row = .ok () := by
  obtain ⟨valid, hold⟩ := referencesHold_reached reached
  refine ⟨hold, fun thread lease stored => ?_, fun table id row stored =>
    (valid.checked table id row stored).2⟩
  have named : ∀ field target text, (field, target) ∈ TableName.threadLeases.references →
      lease.find field = some (.str text) → ledger.Has target text := by
    intro field target text inside found
    obtain ⟨value, same, named⟩ := hold .threadLeases thread lease stored (field, target) inside
    obtain rfl := Option.some.inj (found.symm.trans same)
    obtain ⟨id, equal, has⟩ := named.resolve_left (by simp)
    exact Json.str.inj equal ▸ has
  have key := valid.key stored
  obtain ⟨present, checked⟩ := valid.checked .threadLeases thread lease stored
  have owner : ∃ session, lease.find "session_id" = some (.str session) := by
    apply validateRow_text checked present
    · decide
    · decide
    · decide
  obtain ⟨session, found⟩ := owner
  exact ⟨key, named "thread_id" .threads thread (by decide) key, session, found,
    named "session_id" .threadSessions session (by decide) found⟩

/-- A lease names its thread and its session. -/
theorem references_intact_leased : ∃ lease, leased.Stored .threadLeases "t-1" lease ∧
    leased.Has .threads "t-1" ∧ ∃ session, lease.find "session_id" = some (.str session) ∧
      leased.Has .threadSessions session := by
  obtain ⟨lease, stored, _⟩ := leased_owned
  exact ⟨lease, stored, ((references_intact leased_reached).2.1 "t-1" lease stored).2⟩

end Chitta.Ledger
