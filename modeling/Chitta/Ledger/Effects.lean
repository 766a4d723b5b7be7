import Chitta.Ledger.Publish

/-!
# What staged rows are made of

The facts that every statement about operations needs: which row a batch leaves under an id, what a
staged row has of the row it was made from, what a checked reference names, and which leases an
operation of a session finds.
-/
namespace Chitta.Ledger

/-- A row of a ledger. -/
def TaskLedger.Stored (ledger : TaskLedger) (table : TableName) (id : String) (row : Json) : Prop :=
  Assoc.lookup id (ledger.tables table).rows = some row

/-- A ledger has a row with this id. -/
def TaskLedger.Has (ledger : TaskLedger) (table : TableName) (id : String) : Prop :=
  ∃ row, ledger.Stored table id row

variable {library : Library} {ledger : TaskLedger}

/-- A row that is read and not null is stored. -/
theorem stored_of_get {table : TableName} {id : String}
    (present : ((ledger.tables table).get id).isNull = false) :
    ledger.Stored table id ((ledger.tables table).get id) := by
  unfold TaskLedger.Stored
  unfold Table.get at present ⊢
  cases found : Assoc.lookup id (ledger.tables table).rows with
  | none =>
    rw [found] at present
    contradiction
  | some row => rfl

/-- A stored row is read. -/
theorem get_of_stored {table : TableName} {id : String} {row : Json}
    (stored : ledger.Stored table id row) : (ledger.tables table).get id = row := by
  unfold TaskLedger.Stored at stored
  rw [Table.get, stored, Option.getD_some]

/-- A row after changes is the last one staged for it, or the one before when none was staged. -/
theorem rowAfter_cases (table : TableName) (id : String) (changes : List Change)
    (old : Option Json) :
    (rowAfter table id changes old = old ∧
      ∀ staged ∈ changes, ¬(staged.table = table ∧ staged.id = id)) ∨
    ∃ staged ∈ changes, staged.table = table ∧ staged.id = id ∧
      rowAfter table id changes old = if staged.row.isNull then none else some staged.row := by
  induction changes generalizing old with
  | nil => exact .inl ⟨rfl, by simp⟩
  | cons staged rest ih =>
    simp only [rowAfter]
    cases ih (if staged.table = table ∧ staged.id = id then
        if staged.row.isNull then none else some staged.row else old) with
    | inl untouched =>
      obtain ⟨same, others⟩ := untouched
      by_cases own : staged.table = table ∧ staged.id = id
      · rw [if_pos own] at same ⊢
        exact .inr ⟨staged, List.mem_cons_self, own.1, own.2, same⟩
      · rw [if_neg own] at same ⊢
        exact .inl ⟨same, List.forall_mem_cons.mpr ⟨own, others⟩⟩
    | inr later =>
      obtain ⟨last, inside, own⟩ := later
      exact .inr ⟨last, List.mem_cons_of_mem _ inside, own⟩

/-! ## Staged rows -/

/-- Upgrading writes the derived columns only. -/
theorem find_upgradeRow {table : TableName} {row upgraded : Json}
    (done : upgradeRow library table row = .ok upgraded) {name : String}
    (repository : name ≠ "repository") (stream : name ≠ "stream_id") :
    upgraded.find name = row.find name := by
  unfold upgradeRow at done
  split at done
  · obtain ⟨text, _, done⟩ := bind_ok done
    obtain ⟨cap, _, done⟩ := bind_ok done
    obtain ⟨columns, _, done⟩ := bind_ok done
    obtain ⟨middle, first, done⟩ := bind_ok done
    rw [Json.find_set done, if_neg stream, Json.find_set first, if_neg repository]
  · exact Except.ok.inj done ▸ rfl

/-- Upgrading keeps null null and the others not null. -/
theorem isNull_upgradeRow {table : TableName} {row upgraded : Json}
    (done : upgradeRow library table row = .ok upgraded) : upgraded.isNull = row.isNull := by
  unfold upgradeRow at done
  split at done
  · rename_i derived
    obtain ⟨text, _, done⟩ := bind_ok done
    obtain ⟨cap, _, done⟩ := bind_ok done
    obtain ⟨columns, _, done⟩ := bind_ok done
    obtain ⟨middle, first, done⟩ := bind_ok done
    rw [Json.isNull_of_isObject (Json.isObject_set done), Json.isNull_of_isObject derived.2]
  · exact Except.ok.inj done ▸ rfl

/-- What a staged row has of the row it was made from. -/
structure MadeFrom (staged : Change) (table : TableName) (id : String) (row : Json) : Prop where
  /-- The table. -/
  table : staged.table = table
  /-- The id. -/
  id : staged.id = id
  /-- The fields. -/
  find : ∀ name, name ≠ "repository" → name ≠ "stream_id" → staged.row.find name = row.find name
  /-- Whether it removes. -/
  isNull : staged.row.isNull = row.isNull

/-- A change is made from its row. -/
theorem change_madeFrom {table : TableName} {id : String} {row : Json} {staged : Change}
    (done : change library table id row = .ok staged) : MadeFrom staged table id row := by
  obtain ⟨upgraded, fine, done⟩ := bind_ok done
  obtain rfl := Except.ok.inj done
  exact ⟨rfl, rfl, fun _ => find_upgradeRow fine, isNull_upgradeRow fine⟩

/-- A checked reference is null or names a row. -/
theorem require_ok {table : TableName} {value : Json}
    (done : require ledger table value = .ok ()) :
    value = .null ∨ ∃ id, value = .str id ∧ ledger.Has table id := by
  unfold require at done
  split at done
  · rename_i null
    exact .inl (Json.eq_null null)
  · obtain ⟨id, read, done⟩ := bind_ok done
    cases value with
    | str text =>
      obtain rfl := Except.ok.inj read
      split at done
      · contradiction
      · rename_i present
        exact .inr ⟨text, rfl, _, stored_of_get (by simpa using present)⟩
    | _ => contradiction

/-! ## Stored rows -/

/-- The indexed fields hold neither numbers nor anything else than texts and null. -/
theorem indexed_textual (table : TableName) : ∀ field ∈ table.indexed, field ∉ numeric := by
  cases table with
  | artifacts => decide
  | inbox => decide
  | threadLeases => decide
  | threadSessions => decide
  | threads => decide

/-- The rows of a valid ledger have texts or null in the indexed fields. -/
theorem TaskLedger.Valid.textual (valid : ledger.Valid library) (table : TableName) :
    (ledger.tables table).Textual := by
  intro id row stored field inside
  rw [(valid.sound table).2] at inside
  obtain ⟨present, checked⟩ := valid.checked table id row stored
  obtain ⟨value, found, fitting⟩ :=
    validateRow_fitting checked present (table.indexed_keys field inside)
  refine ⟨value, found, ?_⟩
  cases fitting with
  | inl null => exact .inr null.2
  | inr typed =>
    rw [if_neg (indexed_textual table field inside)] at typed
    exact .inl typed

/-- A stored row has its id in the field of the primary key. -/
theorem TaskLedger.Valid.key (valid : ledger.Valid library) {table : TableName} {id : String}
    {row : Json} (stored : ledger.Stored table id row) : row.find table.key = some (.str id) := by
  obtain ⟨present, checked⟩ := valid.checked table id row stored
  exact validateRow_key checked present

/-- A session finds its leases. -/
theorem TaskLedger.Valid.leases (valid : ledger.Valid library) (session : String) :
    ∃ rows, (ledger.tables .threadLeases).select library [("session_id", .str session)] =
        .ok rows ∧
      ∀ lease, lease ∈ rows ↔ ∃ thread, ledger.Stored .threadLeases thread lease ∧
        lease.find "session_id" = some (.str session) := by
  have fields : "session_id" ∈ (ledger.tables .threadLeases).fields := by
    rw [(valid.sound .threadLeases).2]
    decide
  have indexed : ∀ filter ∈ [("session_id", Json.str session)],
      filter.1 ∈ (ledger.tables .threadLeases).fields := by simpa using fields
  have textual := valid.textual .threadLeases
  have selected := (valid.exact .threadLeases).select textual (textual.covers indexed)
  refine ⟨_, selected, fun lease => ?_⟩
  simp only [List.mem_map, List.mem_filter]
  constructor
  · rintro ⟨entry, ⟨inside, fitting⟩, rfl⟩
    have stored := (valid.exact .threadLeases).sorted.mem_iff.mp inside
    refine ⟨entry.1, stored, ?_⟩
    obtain ⟨own, found, kind⟩ :=
      valid.textual .threadLeases entry.1 entry.2 stored "session_id" fields
    have equal : own.same (.str session) := by simpa [fits, found] using fitting
    rw [found, eq_of_same kind equal]
  · rintro ⟨thread, stored, found⟩
    refine ⟨(thread, lease), ⟨(valid.exact .threadLeases).sorted.mem_iff.mpr stored, ?_⟩, rfl⟩
    simp [fits, found, Json.same]

/-! ## Binding a session -/

/-- The row that a bind starts from. -/
def boundBase (ledger : TaskLedger) (id : String) (ts : Rat) : Json :=
  if ((ledger.tables .threadSessions).get id).isNull then newSession id ts
  else (ledger.tables .threadSessions).get id

/-- The row that a bind stages. -/
structure BoundRow (library : Library) (ledger : TaskLedger) (a : Json) (ts : Rat) (id : String)
    (row : Json) : Prop where
  /-- The status is the given one. -/
  status : ∃ status, a.valueString "status" "active" = .ok status ∧
    status ∈ ["active", "ended", "interrupted", "completed"] ∧
    row.find "status" = some (.str status)
  /-- The session has not ended. -/
  ended : row.find "ended_at" = some .null
  /-- The time of the last change. -/
  active : row.find "last_active_at" = some (.float ts)
  /-- The thread is a checked one or that of the row before. -/
  thread : (∃ thread, given a "thread_id" = some thread ∧
      require ledger .threads thread = .ok () ∧ row.find "thread_id" = some thread) ∨
    (given a "thread_id" = none ∧
      row.find "thread_id" = (boundBase ledger id ts).find "thread_id")
  /-- The metadata are merged. -/
  metadata : ∃ text, (boundBase ledger id ts).find "metadata_json" = some (.str text) ∧
    row.find "metadata_json" = some (.str (library.dump (mergedMetadata library text a)))
  /-- The id is that of the row before. -/
  session : row.find "session_id" = (boundBase ledger id ts).find "session_id"

/-- The texts of a bind are the only fields it replaces. -/
theorem bindTexts_find {a row after : Json} {keys : List String}
    (done : bindTexts a keys row = .ok after) {name : String} (apart : name ∉ keys) :
    after.find name = row.find name := by
  induction keys generalizing row with
  | nil => exact Except.ok.inj done ▸ rfl
  | cons key rest ih =>
    have own : name ≠ key := fun same => apart (same ▸ List.mem_cons_self)
    have later : name ∉ rest := fun inside => apart (List.mem_cons_of_mem _ inside)
    obtain ⟨text, _, done⟩ := bind_ok done
    split at done
    · exact ih done later
    · obtain ⟨middle, put, done⟩ := bind_ok done
      rw [ih done later, Json.find_set put, if_neg own]

/-- An allowed value. -/
theorem valid_ok {value : String} {allowed : List String} (done : valid value allowed = .ok ()) :
    value ∈ allowed := by
  unfold valid at done
  split at done
  · assumption
  · contradiction

/-- A value that is read from a field and not null is there. -/
theorem field_find {row value : Json} {key : String} (read : row.field key = .ok value)
    (present : value.isNull = false) : row.find key = some value := by
  cases row with
  | obj fields =>
    have found := Except.ok.inj read
    cases own : Assoc.lookup key fields with
    | none =>
      rw [own] at found
      obtain rfl : value = .null := found.symm
      contradiction
    | some other =>
      rw [own] at found
      simp only [Json.find, own]
      exact congrArg some found
  | null =>
    obtain rfl : value = .null := (Except.ok.inj read).symm
    contradiction
  | _ => contradiction

/-- A text that is read from a field is there. -/
theorem field_text {row value : Json} {key text : String} (read : row.field key = .ok value)
    (string : value.getString = .ok text) : row.find key = some (.str text) := by
  cases value with
  | str other =>
    obtain rfl := Except.ok.inj string
    exact field_find read rfl
  | _ => contradiction

/-- A text that is read from a constant is there. -/
theorem index_text {row value : Json} {key text : String} (read : row.index key = .ok value)
    (string : value.getString = .ok text) : row.find key = some (.str text) := by
  cases value with
  | str other =>
    obtain rfl := Except.ok.inj string
    cases row with
    | obj fields =>
      simp only [Json.index] at read
      split at read
      · rename_i found
        obtain rfl := Except.ok.inj read
        exact found
      · contradiction
    | _ => contradiction
  | _ => contradiction

/-- What `session_bind` stages. -/
theorem sessionBind_cases {a result : Json} {ts : Rat} {changes : List Change}
    (planned : sessionBind library ledger a ts = .ok (.commit changes result)) :
    ∃ id staged row, (a.at "session_id" >>= Json.getString) = .ok id ∧ id ≠ "" ∧
      changes = [staged] ∧ MadeFrom staged .threadSessions id row ∧
      BoundRow library ledger a ts id row := by
  unfold sessionBind at planned
  obtain ⟨id, read, planned⟩ := bind_ok planned
  split at planned
  · exact absurd (Except.ok.inj planned) (by simp)
  · rename_i filled
    obtain ⟨named, texts, planned⟩ := bind_ok planned
    obtain ⟨threaded, bound, planned⟩ := bind_ok planned
    obtain ⟨old, field, planned⟩ := bind_ok planned
    obtain ⟨text, string, planned⟩ := bind_ok planned
    obtain ⟨merged, first, planned⟩ := bind_ok planned
    obtain ⟨status, given_status, planned⟩ := bind_ok planned
    obtain ⟨stated, second, planned⟩ := bind_ok planned
    obtain ⟨_, allowed, planned⟩ := bind_ok planned
    obtain ⟨timed, third, planned⟩ := bind_ok planned
    obtain ⟨row, fourth, planned⟩ := bind_ok planned
    obtain ⟨staged, done, planned⟩ := bind_ok planned
    obtain ⟨rfl, _⟩ := Planned.commit.inj (Except.ok.inj planned)
    have base : (if ((ledger.tables .threadSessions).get id).isNull = true then newSession id ts
        else (ledger.tables .threadSessions).get id) = boundBase ledger id ts := rfl
    rw [base] at texts
    -- The fields that the texts and the thread leave alone.
    have kept : ∀ name, name ∉ ["client", "project_dir", "transcript_path"] →
        name ≠ "thread_id" → threaded.find name = (boundBase ledger id ts).find name := by
      intro name apart other
      rw [← bindTexts_find texts apart]
      unfold bindThread at bound
      split at bound
      · exact Except.ok.inj bound ▸ rfl
      · obtain ⟨_, _, bound⟩ := bind_ok bound
        rw [Json.find_set bound, if_neg other]
    have found : ∀ name, row.find name =
        if name = "ended_at" then some .null
        else if name = "last_active_at" then some (.float ts)
        else if name = "status" then some (.str status)
        else if name = "metadata_json" then
          some (.str (library.dump (mergedMetadata library text a)))
        else threaded.find name := by
      intro name
      rw [Json.find_set fourth, Json.find_set third, Json.find_set second, Json.find_set first]
    refine ⟨id, staged, row, read, filled, rfl, change_madeFrom done, ?_⟩
    have thread : threaded.find "thread_id" = row.find "thread_id" := by simp [found]
    refine ⟨⟨status, given_status, valid_ok allowed, by simp [found]⟩, by simp [found],
      by simp [found], ?_, ⟨text, ?_, by simp [found]⟩, ?_⟩
    · rw [← thread]
      unfold bindThread at bound
      split at bound
      · rename_i none_given
        obtain rfl := Except.ok.inj bound
        exact .inr ⟨none_given, bindTexts_find texts (by decide)⟩
      · rename_i some_thread some_given
        obtain ⟨_, checked, bound⟩ := bind_ok bound
        exact .inl ⟨some_thread, some_given, checked, by rw [Json.find_set bound, if_pos rfl]⟩
    · rw [← kept "metadata_json" (by decide) (by decide)]
      exact field_text field string
    · rw [found]
      simp only [String.reduceEq, if_false]
      exact kept "session_id" (by decide) (by decide)

/-! ## Touching and closing a session -/

/-- The row that a touch stages for the session. -/
theorem touchRow_cases {id status : String} {row : Json} {close : Bool} {ts : Rat}
    {changes : List Change} (done : touchRow library id row close status ts = .ok changes) :
    (row.isNull = true ∧ changes = []) ∨
    (row.isNull = false ∧ ∃ staged after, changes = [staged] ∧
      MadeFrom staged .threadSessions id after ∧ after.isNull = false ∧
      ∀ name, after.find name =
        if name = "ended_at" then some (if close then .float ts else .null)
        else if name = "status" then some (.str status)
        else if name = "last_active_at" then some (.float ts)
        else row.find name) := by
  unfold touchRow at done
  split at done
  · rename_i gone
    exact .inl ⟨gone, (Except.ok.inj done).symm⟩
  · rename_i present
    obtain ⟨active, first, done⟩ := bind_ok done
    obtain ⟨stated, second, done⟩ := bind_ok done
    obtain ⟨ended, third, done⟩ := bind_ok done
    obtain ⟨staged, one, done⟩ := bind_ok done
    refine .inr ⟨by simpa using present, staged, ended, (Except.ok.inj done).symm,
      change_madeFrom one, Json.isNull_of_isObject (Json.isObject_set third), fun name => ?_⟩
    rw [Json.find_set third, Json.find_set second, Json.find_set first]

/-- What a touch or a close makes of a lease. -/
structure TouchedLease (close : Bool) (ts : Rat) (lease : Json) (staged : Change) : Prop where
  /-- The lease is changed under its thread. -/
  thread : ∃ id, lease.find "thread_id" = some (.str id) ∧ staged.id = id
  /-- The table. -/
  table : staged.table = .threadLeases
  /-- A close removes it. -/
  removed : close = true → staged.row.isNull = true
  /-- A touch extends it. -/
  extended : close = false → staged.row.isNull = false ∧ ∀ name, name ≠ "repository" →
    name ≠ "stream_id" → staged.row.find name =
      if name = "expires_at" then some (.float (ts + 900))
      else if name = "last_heartbeat_at" then some (.float ts)
      else lease.find name

/-- Every lease of a touched session is changed. -/
theorem touchLeases_cases {close : Bool} {ts : Rat} {leases : List Json} {changes : List Change}
    (done : touchLeases library close ts leases = .ok changes) :
    List.Forall₂ (TouchedLease close ts) leases changes := by
  induction leases generalizing changes with
  | nil =>
    obtain rfl := Except.ok.inj done
    exact .nil
  | cons lease rest ih =>
    obtain ⟨value, field, done⟩ := bind_ok done
    obtain ⟨id, string, done⟩ := bind_ok done
    obtain ⟨staged, one, done⟩ := bind_ok done
    obtain ⟨others, more, done⟩ := bind_ok done
    obtain rfl := Except.ok.inj done
    refine .cons ?_ (ih more)
    have thread := field_text field string
    unfold touchLease at one
    cases close with
    | true =>
      have made := change_madeFrom one
      exact ⟨⟨id, thread, made.id⟩, made.table, fun _ => made.isNull, by simp⟩
    | false =>
      obtain ⟨beaten, first, one⟩ := bind_ok one
      obtain ⟨extended, second, one⟩ := bind_ok one
      have made := change_madeFrom one
      refine ⟨⟨id, thread, made.id⟩, made.table, by simp, fun _ => ⟨?_, fun name one two => ?_⟩⟩
      · rw [made.isNull]
        exact Json.isNull_of_isObject (Json.isObject_set second)
      · rw [made.find name one two, Json.find_set second, Json.find_set first]

/-- A changed lease is that of a touched one. -/
theorem touched_lease {close : Bool} {ts : Rat} {leases : List Json} {changes : List Change}
    (touched : List.Forall₂ (TouchedLease close ts) leases changes) {staged : Change}
    (inside : staged ∈ changes) : ∃ lease ∈ leases, TouchedLease close ts lease staged :=
  exists_of_forall₂ touched.flip inside

/-- Every touched lease is changed. -/
theorem lease_touched {close : Bool} {ts : Rat} {leases : List Json} {changes : List Change}
    (touched : List.Forall₂ (TouchedLease close ts) leases changes) {lease : Json}
    (among : lease ∈ leases) : ∃ staged ∈ changes, TouchedLease close ts lease staged :=
  exists_of_forall₂ touched among

/-- What `session_touch` and `session_close` stage. -/
theorem touchSession_cases {close : Bool} {a result : Json} {ts : Rat} {changes : List Change}
    (planned : touchSession library ledger close a ts = .ok (.commit changes result)) :
    ∃ id status session leases rows, (a.at "session_id" >>= Json.getString) = .ok id ∧
      (status = "active" ↔ close = false) ∧
      touchRow library id ((ledger.tables .threadSessions).get id) close status ts =
        .ok session ∧
      (ledger.tables .threadLeases).select library [("session_id", .str id)] = .ok rows ∧
      List.Forall₂ (TouchedLease close ts) rows leases ∧ changes = session ++ leases := by
  unfold touchSession at planned
  obtain ⟨stated, _, planned⟩ := bind_ok planned
  obtain ⟨id, read, planned⟩ := bind_ok planned
  obtain ⟨session, first, planned⟩ := bind_ok planned
  obtain ⟨rows, selected, planned⟩ := bind_ok planned
  obtain ⟨leases, second, planned⟩ := bind_ok planned
  obtain ⟨rfl, _⟩ := Planned.commit.inj (Except.ok.inj planned)
  refine ⟨id, _, session, leases, rows, read, ?_, first, selected, touchLeases_cases second, rfl⟩
  cases close with
  | false => simp
  | true =>
    simp only [if_true, Bool.true_eq_false, iff_false]
    split
    · rename_i among
      rintro rfl
      revert among
      decide
    · decide

/-! ## Claiming and releasing a lease -/

/-- What a granted claim stages. -/
structure ClaimedLease (ledger : TaskLedger) (a : Json) (ts : Rat) (thread session : String)
    (lease row : Json) : Prop where
  /-- The thread is there. -/
  hasThread : ledger.Has .threads thread
  /-- The session is there. -/
  hasSession : ledger.Stored .threadSessions session
    ((ledger.tables .threadSessions).get session)
  /-- No other session holds a live lease that is not forced. -/
  free : liveOwner ((ledger.tables .threadLeases).get thread) session a ts = .ok false
  /-- The generation. -/
  generation : ∃ same generation,
    sameOwner ((ledger.tables .threadLeases).get thread) session = .ok same ∧
    nextGeneration ((ledger.tables .threadLeases).get thread) same = .ok generation ∧
    lease.find "generation" = some (.int generation)
  /-- The owner. -/
  owner : lease.find "session_id" = some (.str session)
  /-- The thread of the lease. -/
  onThread : lease.find "thread_id" = some (.str thread)
  /-- The end of the lease. -/
  expires : ∃ ttl, a.valueWith Json.getInt "ttl" 900 = .ok ttl ∧
    lease.find "expires_at" = some (.float (ts + (max 30 ttl : Int)))
  /-- The lease is not null. -/
  isLease : lease.isNull = false
  /-- The session afterwards. -/
  active : ∀ name, row.find name =
    if name = "last_active_at" then some (.float ts)
    else if name = "status" then some (.str "active")
    else if name = "thread_id" then some (.str thread)
    else ((ledger.tables .threadSessions).get session).find name
  /-- The session is not null. -/
  isRow : row.isNull = false

/-- What `lease_claim` stages. -/
theorem leaseClaim_cases {a result : Json} {ts : Rat} {changes : List Change}
    (planned : leaseClaim library ledger a ts = .ok (.commit changes result)) :
    ∃ thread session lease row first second, (a.at "thread_id" >>= Json.getString) = .ok thread ∧
      (a.at "session_id" >>= Json.getString) = .ok session ∧
      changes = [first, second] ∧ MadeFrom first .threadLeases thread lease ∧
      MadeFrom second .threadSessions session row ∧
      ClaimedLease ledger a ts thread session lease row ∧
      lease.find "generation" = result.find "generation" := by
  unfold leaseClaim at planned
  obtain ⟨thread, readThread, planned⟩ := bind_ok planned
  obtain ⟨session, readSession, planned⟩ := bind_ok planned
  obtain ⟨_, requiredThread, planned⟩ := bind_ok planned
  obtain ⟨_, requiredSession, planned⟩ := bind_ok planned
  obtain ⟨live, free, planned⟩ := bind_ok planned
  split at planned
  · unfold refusedClaim at planned
    obtain ⟨_, _, planned⟩ := bind_ok planned
    obtain ⟨_, _, planned⟩ := bind_ok planned
    obtain ⟨_, _, planned⟩ := bind_ok planned
    exact absurd (Except.ok.inj planned) (by simp)
  · rename_i dead
    obtain ⟨same, owns, planned⟩ := bind_ok planned
    obtain ⟨generation, next, planned⟩ := bind_ok planned
    obtain ⟨ttl, lasting, planned⟩ := bind_ok planned
    obtain ⟨acquired, _, planned⟩ := bind_ok planned
    obtain ⟨lease, first, planned⟩ := bind_ok planned
    obtain ⟨bound, one, planned⟩ := bind_ok planned
    obtain ⟨stated, two, planned⟩ := bind_ok planned
    obtain ⟨row, three, planned⟩ := bind_ok planned
    obtain ⟨owner, second, planned⟩ := bind_ok planned
    obtain ⟨rfl, rfl⟩ := Planned.commit.inj (Except.ok.inj planned)
    have dead' : live = false := by simpa using dead
    obtain ⟨id, equal, hasThread⟩ := (require_ok requiredThread).resolve_left (by simp)
    obtain ⟨other, again, hasSession⟩ := (require_ok requiredSession).resolve_left (by simp)
    obtain rfl := Json.str.inj equal
    obtain rfl := Json.str.inj again
    obtain ⟨old, stored⟩ := hasSession
    refine ⟨thread, session, _, row, lease, owner, readThread, readSession, rfl,
      change_madeFrom first, change_madeFrom second, ?_, ?_⟩
    · refine ⟨hasThread, get_of_stored stored ▸ stored, dead' ▸ free,
        ⟨same, generation, owns, next, ?_⟩, ?_, ?_, ⟨ttl, lasting, ?_⟩, rfl, fun name => ?_,
        Json.isNull_of_isObject (Json.isObject_set three)⟩
      · simp [Json.find_object, Assoc.lookup]
      · simp [Json.find_object, Assoc.lookup]
      · simp [Json.find_object, Assoc.lookup]
      · simp [Json.find_object, Assoc.lookup]
      · rw [Json.find_set three, Json.find_set two, Json.find_set one]
    · simp [Json.find_object, Assoc.lookup]

/-- The answer to a claim that is granted. -/
theorem leaseClaim_value {a result : Json} {ts : Rat} {changes : List Change}
    (planned : leaseClaim library ledger a ts = .ok (.commit changes result)) :
    changes ≠ [] ∧ result.find "claimed" = some (.bool true) ∧
      ∃ ttl, a.valueWith Json.getInt "ttl" 900 = .ok ttl ∧
        result.find "expires_at" = some (.float (ts + (max 30 ttl : Int))) := by
  unfold leaseClaim at planned
  obtain ⟨thread, _, planned⟩ := bind_ok planned
  obtain ⟨session, _, planned⟩ := bind_ok planned
  obtain ⟨_, _, planned⟩ := bind_ok planned
  obtain ⟨_, _, planned⟩ := bind_ok planned
  obtain ⟨live, _, planned⟩ := bind_ok planned
  split at planned
  · obtain ⟨_, _, planned⟩ := bind_ok planned
    obtain ⟨_, _, planned⟩ := bind_ok planned
    obtain ⟨_, _, planned⟩ := bind_ok planned
    exact absurd (Except.ok.inj planned) (by simp)
  · obtain ⟨same, _, planned⟩ := bind_ok planned
    obtain ⟨generation, _, planned⟩ := bind_ok planned
    obtain ⟨ttl, lasting, planned⟩ := bind_ok planned
    obtain ⟨acquired, _, planned⟩ := bind_ok planned
    obtain ⟨lease, _, planned⟩ := bind_ok planned
    obtain ⟨bound, _, planned⟩ := bind_ok planned
    obtain ⟨stated, _, planned⟩ := bind_ok planned
    obtain ⟨row, _, planned⟩ := bind_ok planned
    obtain ⟨owner, _, planned⟩ := bind_ok planned
    obtain ⟨rfl, rfl⟩ := Planned.commit.inj (Except.ok.inj planned)
    refine ⟨by simp, ?_, ttl, lasting, ?_⟩
    · simp [Json.find_object, Assoc.lookup]
    · simp [Json.find_object, Assoc.lookup]

/-- The answer to a claim that is refused. -/
theorem leaseClaim_answer {a result : Json} {ts : Rat}
    (planned : leaseClaim library ledger a ts = .ok (.answer result)) :
    ∃ thread session, idarg a "thread_id" = .ok thread ∧ idarg a "session_id" = .ok session ∧
      liveOwner ((ledger.tables .threadLeases).get thread) session a ts = .ok true ∧
      result.find "claimed" = some (.bool false) := by
  unfold leaseClaim at planned
  obtain ⟨thread, readThread, planned⟩ := bind_ok planned
  obtain ⟨session, readSession, planned⟩ := bind_ok planned
  obtain ⟨_, _, planned⟩ := bind_ok planned
  obtain ⟨_, _, planned⟩ := bind_ok planned
  obtain ⟨live, owned, planned⟩ := bind_ok planned
  split at planned
  · rename_i lives
    obtain ⟨owner, _, planned⟩ := bind_ok planned
    obtain ⟨expires, _, planned⟩ := bind_ok planned
    obtain ⟨generation, _, planned⟩ := bind_ok planned
    obtain rfl := Planned.answer.inj (Except.ok.inj planned)
    refine ⟨thread, session, readThread, readSession, lives ▸ owned, ?_⟩
    simp [Json.find_object, Assoc.lookup]
  · obtain ⟨same, _, planned⟩ := bind_ok planned
    obtain ⟨generation, _, planned⟩ := bind_ok planned
    obtain ⟨ttl, _, planned⟩ := bind_ok planned
    obtain ⟨acquired, _, planned⟩ := bind_ok planned
    obtain ⟨lease, _, planned⟩ := bind_ok planned
    obtain ⟨bound, _, planned⟩ := bind_ok planned
    obtain ⟨stated, _, planned⟩ := bind_ok planned
    obtain ⟨row, _, planned⟩ := bind_ok planned
    obtain ⟨owner, _, planned⟩ := bind_ok planned
    exact absurd (Except.ok.inj planned) (by simp)

/-- What `lease_release` stages. -/
theorem releaseLeases_cases {a : Json} {leases : List Json} {changes : List Change}
    (done : releaseLeases library a leases = .ok changes) :
    ∀ staged ∈ changes, staged.table = .threadLeases ∧ staged.row.isNull = true ∧
      ∃ lease ∈ leases, lease.find "thread_id" = some (.str staged.id) := by
  induction leases generalizing changes with
  | nil =>
    obtain rfl := Except.ok.inj done
    simp
  | cons lease rest ih =>
    obtain ⟨thread, read, done⟩ := bind_ok done
    obtain ⟨others, more, done⟩ := bind_ok done
    have later : ∀ staged ∈ others, staged.table = .threadLeases ∧ staged.row.isNull = true ∧
        ∃ other ∈ lease :: rest, other.find "thread_id" = some (.str staged.id) := by
      intro staged inside
      obtain ⟨table, null, other, among, found⟩ := ih more staged inside
      exact ⟨table, null, other, List.mem_cons_of_mem _ among, found⟩
    split at done
    · obtain ⟨id, string, done⟩ := bind_ok done
      obtain ⟨staged, one, done⟩ := bind_ok done
      obtain rfl := Except.ok.inj done
      have made := change_madeFrom one
      refine List.forall_mem_cons.mpr ⟨⟨made.table, made.isNull, lease, List.mem_cons_self, ?_⟩,
        later⟩
      rw [made.id]
      exact index_text read string
    · obtain rfl := Except.ok.inj done
      exact later

/-- What `lease_release` stages. -/
theorem leaseRelease_cases {a result : Json} {changes : List Change}
    (planned : leaseRelease library ledger a = .ok (.commit changes result)) :
    ∃ session rows, (a.at "session_id" >>= Json.getString) = .ok session ∧
      (ledger.tables .threadLeases).select library [("session_id", .str session)] = .ok rows ∧
      ∀ staged ∈ changes, staged.table = .threadLeases ∧ staged.row.isNull = true ∧
        ∃ lease ∈ rows, lease.find "thread_id" = some (.str staged.id) := by
  unfold leaseRelease at planned
  obtain ⟨session, read, planned⟩ := bind_ok planned
  obtain ⟨rows, selected, planned⟩ := bind_ok planned
  obtain ⟨released, done, planned⟩ := bind_ok planned
  obtain ⟨rfl, _⟩ := Planned.commit.inj (Except.ok.inj planned)
  exact ⟨session, rows, read, selected, releaseLeases_cases done⟩

end Chitta.Ledger
