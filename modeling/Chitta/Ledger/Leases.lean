import Chitta.Ledger.Effects

/-!
# Sessions and their leases

Five operations change sessions or leases. What each of them leaves under every id is said once;
who may take a lease, which generations it goes through and which sessions own leases are read off
from that.
-/
namespace Chitta.Ledger

/-- The row under an id. -/
abbrev TaskLedger.row (ledger : TaskLedger) (table : TableName) (id : String) : Option Json :=
  Assoc.lookup id (ledger.tables table).rows

/-- Two rows with the same fields, the derived ones aside. -/
def Similar (row other : Json) : Prop :=
  ∀ name, name ≠ "repository" → name ≠ "stream_id" → row.find name = other.find name

/-- A lease is owned by a session. -/
def OwnedBy (session : String) (lease : Json) : Prop :=
  lease.find "session_id" = some (.str session)

instance (session : String) (lease : Json) : Decidable (OwnedBy session lease) :=
  inferInstanceAs (Decidable (_ = _))

/-- The owner of a lease is no other session. -/
theorem liveOwner_own {session : String} {lease : Json} (owned : OwnedBy session lease) (a : Json)
    (ts : Rat) : liveOwner lease session a ts = .ok false := by
  cases lease with
  | obj fields =>
    have found : Assoc.lookup "session_id" fields = some (.str session) := owned
    simp [liveOwner, Json.isNull, Json.field, found, Json.same, bind, Except.bind, pure,
      Except.pure]
  | _ => contradiction

/-- What a touch or a close of a session leaves of a lease. -/
inductive LeaseTouched (close : Bool) (ts : Rat) (session : String) :
    Option Json → Option Json → Prop
  | other (lease : Option Json) (foreign : ∀ row, lease = some row → ¬OwnedBy session row) :
      LeaseTouched close ts session lease lease
  | removed (lease : Json) (owned : OwnedBy session lease) (closed : close = true) :
      LeaseTouched close ts session (some lease) none
  | extended (lease after : Json) (owned : OwnedBy session lease) (touched : close = false)
      (fields : ∀ name, name ≠ "repository" → name ≠ "stream_id" → after.find name =
        if name = "expires_at" then some (.float (ts + 900))
        else if name = "last_heartbeat_at" then some (.float ts)
        else lease.find name) :
      LeaseTouched close ts session (some lease) (some after)

/-- What an operation leaves of the sessions and the leases. -/
inductive Effect (library : Library) (ledger after : TaskLedger) (op : String) (a : Json)
    (ts : Rat) : Prop
  | apart (leases : ∀ id, after.row .threadLeases id = ledger.row .threadLeases id)
      (sessions : ∀ id, after.row .threadSessions id = ledger.row .threadSessions id)
  | imported (named : op = "import")
      (stay : ∀ table id row, ledger.Stored table id row → after.Stored table id row)
  | bound (named : op = "session_bind") (id : String) (row stored : Json)
      (read : idarg a "session_id" = .ok id)
      (made : BoundRow library ledger a ts id row) (similar : Similar stored row)
      (leases : ∀ id, after.row .threadLeases id = ledger.row .threadLeases id)
      (sessions : ∀ other, after.row .threadSessions other =
        if other = id then some stored else ledger.row .threadSessions other)
  | touched (close : Bool) (named : op = if close then "session_close" else "session_touch")
      (id status : String) (read : idarg a "session_id" = .ok id)
      (active : status = "active" ↔ close = false)
      (others : ∀ other, other ≠ id →
        after.row .threadSessions other = ledger.row .threadSessions other)
      (own : ∀ row, after.Stored .threadSessions id row → row.find "status" = some (.str status) ∧
        row.find "ended_at" = some (if close then .float ts else .null) ∧
        row.find "last_active_at" = some (.float ts))
      (leases : ∀ thread, LeaseTouched close ts id (ledger.row .threadLeases thread)
        (after.row .threadLeases thread))
  | claimed (named : op = "lease_claim") (thread session : String) (lease row stored bound : Json)
      (readThread : idarg a "thread_id" = .ok thread)
      (readSession : idarg a "session_id" = .ok session)
      (claimed : ClaimedLease ledger a ts thread session lease row)
      (similarLease : Similar stored lease) (similar : Similar bound row)
      (leases : ∀ other, after.row .threadLeases other =
        if other = thread then some stored else ledger.row .threadLeases other)
      (sessions : ∀ other, after.row .threadSessions other =
        if other = session then some bound else ledger.row .threadSessions other)
  | released (named : op = "lease_release") (session : String)
      (read : idarg a "session_id" = .ok session)
      (leases : ∀ thread, after.row .threadLeases thread = ledger.row .threadLeases thread ∨
        (after.row .threadLeases thread = none ∧
          ∃ lease, ledger.Stored .threadLeases thread lease ∧ OwnedBy session lease))
      (sessions : ∀ id, after.row .threadSessions id = ledger.row .threadSessions id)

variable {library : Library} {ledger after : TaskLedger} {op : String} {a value : Json} {ts : Rat}
variable {changes : List Change}

/-! ## Operations that touch neither -/

/-- A staged row of another table. -/
def Apart (staged : Change) : Prop :=
  staged.table ≠ .threadLeases ∧ staged.table ≠ .threadSessions

/-- One staged row of another table. -/
theorem Commits.apart {table : TableName} (lease : table ≠ .threadLeases)
    (session : table ≠ .threadSessions) (id : String) (row result : Json) :
    Commits Apart (commitOne library table id row result) := by
  refine .one fun staged done => ?_
  have own := (change_madeFrom done).table
  exact ⟨own ▸ lease, own ▸ session⟩

/-- `thread_create`. -/
theorem threadCreate_apart (a : Json) (ts : Rat) :
    Commits Apart (threadCreate library ledger a ts) := by
  unfold threadCreate
  refine .bind fun id _ => .bind fun parent _ => .bind fun _ _ => .ite (fun _ => .answer _) ?_
  intro _
  refine .bind fun title _ => .bind fun realm _ => .bind fun fingerprint _ => ?_
  exact .apart (by decide) (by decide) _ _ _

/-- The end of `thread_update` and `thread_seal`. -/
theorem commitThread_apart (id : String) (row : Json) :
    Commits Apart (commitThread library ledger id row) := by
  unfold commitThread
  refine .bind fun value _ => .bind fun status _ => .bind fun _ _ => .bind fun parent _ => ?_
  exact .bind fun _ _ => .apart (by decide) (by decide) _ _ _

/-- `thread_update`. -/
theorem threadUpdate_apart (a : Json) : Commits Apart (threadUpdate library ledger a) := by
  unfold threadUpdate
  refine .bind fun id _ => .ite (fun _ => .answer _) fun _ => .bind fun fields _ => ?_
  refine .bind fun copied _ => .ite (fun _ => .answer _) fun _ => ?_
  exact commitThread_apart id copied.1

/-- `thread_seal`. -/
theorem threadSeal_apart (a : Json) (ts : Rat) :
    Commits Apart (threadSeal library ledger a ts) := by
  unfold threadSeal
  refine .bind fun id _ => .ite (fun _ => .answer _) fun _ => .bind fun sealed _ => ?_
  exact .bind fun timed _ => .bind fun row _ => commitThread_apart id row

/-- `inbox_push`. -/
theorem inboxPush_apart (a : Json) (ts : Rat) :
    Commits Apart (inboxPush library ledger a ts) := by
  unfold inboxPush
  refine .bind fun id _ => .bind fun thread _ => .bind fun _ _ => .ite (fun _ => .answer _) ?_
  intro _
  refine .bind fun task _ => .bind fun event _ => .bind fun digest _ => ?_
  refine .bind fun payload _ => .bind fun realm _ => ?_
  exact .apart (by decide) (by decide) _ _ _

/-- `inbox_ack`. -/
theorem inboxAck_apart (a : Json) (ts : Rat) :
    Commits Apart (inboxAck library ledger a ts) := by
  unfold inboxAck
  refine .bind fun id _ => .ite (fun _ => .answer _) fun _ => .bind fun state _ => ?_
  refine .bind fun _ _ => .bind fun stated _ => .bind fun timed _ => ?_
  exact .apart (by decide) (by decide) _ _ _

/-- `artifact_register`. -/
theorem artifactRegister_apart (a : Json) (ts : Rat) :
    Commits Apart (artifactRegister library ledger a ts) := by
  unfold artifactRegister
  refine .bind fun id _ => .bind fun thread _ => .bind fun _ _ => .bind fun parent _ => ?_
  refine .bind fun _ _ => .ite (fun _ => .answer _) fun _ => .bind fun task _ => ?_
  refine .bind fun path _ => .bind fun kind _ => .bind fun mtime _ => .bind fun size _ => ?_
  exact .bind fun md5 _ => .apart (by decide) (by decide) _ _ _

/-- `artifact_link`. -/
theorem artifactLink_apart (a : Json) : Commits Apart (artifactLink library ledger a) := by
  unfold artifactLink
  refine .bind fun id _ => .ite (fun _ => .answer _) fun _ => .bind fun parent _ => ?_
  exact .bind fun _ _ => .bind fun row _ => .apart (by decide) (by decide) _ _ _

/-- Rows that nothing was staged for stay. -/
theorem Published.same (published : Published library ledger op a ts after changes value)
    {table : TableName} (none_staged : ∀ staged ∈ changes, staged.table ≠ table) (id : String) :
    after.row table id = ledger.row table id := by
  rw [TaskLedger.row, published.rows]
  cases rowAfter_cases table id changes (Assoc.lookup id (ledger.tables table).rows) with
  | inl untouched => exact untouched.1
  | inr replaced =>
    obtain ⟨staged, inside, own, _⟩ := replaced
    exact absurd own (none_staged staged inside)

/-- An operation whose staged rows are of other tables. -/
theorem Published.effect_apart (published : Published library ledger op a ts after changes value)
    (apart : ∀ staged ∈ changes, Apart staged) : Effect library ledger after op a ts :=
  .apart (published.same fun staged inside => (apart staged inside).1)
    (published.same fun staged inside => (apart staged inside).2)

/-! ## Operations of sessions -/

/-- A row made from another one has its fields. -/
theorem MadeFrom.similar {staged : Change} {table : TableName} {id : String} {row : Json}
    (made : MadeFrom staged table id row) : Similar staged.row row :=
  made.find

/-- `session_bind`. -/
theorem Published.effect_bind
    (published : Published library ledger op a ts after changes value)
    (named : op = "session_bind")
    (planned : sessionBind library ledger a ts = .ok (.commit changes value)) :
    Effect library ledger after op a ts := by
  obtain ⟨id, staged, row, read, _, rfl, made, bound⟩ := sessionBind_cases planned
  refine .bound named id row staged.row read bound made.similar ?_ ?_
  · refine published.same fun item inside => ?_
    rw [List.mem_singleton.mp inside, made.table]
    decide
  · intro other
    have present : staged.row.isNull = false := by
      rw [made.isNull]
      exact Json.isNull_of_find bound.ended
    rw [TaskLedger.row, published.rows]
    simp [rowAfter, made.table, made.id, present, eq_comm]

/-- The lease of a session under its thread. -/
theorem TaskLedger.Valid.owned (valid : ledger.Valid library) {session : String}
    {leases : List Json}
    (selected : (ledger.tables .threadLeases).select library [("session_id", .str session)] =
      .ok leases) (lease : Json) :
    lease ∈ leases ↔
      ∃ thread, ledger.Stored .threadLeases thread lease ∧ OwnedBy session lease := by
  obtain ⟨rows, again, mem⟩ := valid.leases session
  obtain rfl := Except.ok.inj (selected.symm.trans again)
  exact mem lease

/-- The thread of a lease is the id under which it is stored. -/
theorem TaskLedger.Valid.thread (valid : ledger.Valid library) {thread id : String} {lease : Json}
    (stored : ledger.Stored .threadLeases thread lease)
    (found : lease.find "thread_id" = some (.str id)) : id = thread := by
  have key := valid.key stored
  exact Json.str.inj (Option.some.inj (found.symm.trans key))

/-- A touch stages the row of its session. -/
theorem touchRow_staged_own {id status : String} {row : Json} {close : Bool} {session : List Change}
    (done : touchRow library id row close status ts = .ok session) :
    ∀ staged ∈ session, staged.table = .threadSessions ∧ staged.id = id := by
  intro staged inside
  cases touchRow_cases done with
  | inl gone =>
    rw [gone.2] at inside
    contradiction
  | inr there =>
    obtain ⟨_, one, changed, rfl, made, _⟩ := there
    rw [List.mem_singleton.mp inside]
    exact ⟨made.table, made.id⟩

/-- A touch stages leases for its leases. -/
theorem touchLeases_staged_own {close : Bool} {rows : List Json} {leases : List Change}
    (touched : List.Forall₂ (TouchedLease close ts) rows leases) :
    ∀ staged ∈ leases, staged.table = .threadLeases := by
  intro staged inside
  obtain ⟨_, _, own⟩ := touched_lease touched inside
  exact own.table

/-- The session after a touch. -/
theorem Published.touched_session (valid : ledger.Valid library) {id status : String}
    {close : Bool} {session leases : List Change}
    (published : Published library ledger op a ts after (session ++ leases) value)
    (done : touchRow library id ((ledger.tables .threadSessions).get id) close status ts =
      .ok session)
    (lease : ∀ staged ∈ leases, staged.table = .threadLeases) {row : Json}
    (stored : after.Stored .threadSessions id row) :
    row.find "status" = some (.str status) ∧
      row.find "ended_at" = some (if close then .float ts else .null) ∧
      row.find "last_active_at" = some (.float ts) := by
  have rows := published.rows .threadSessions id
  rw [stored] at rows
  have ofSession : ∀ staged ∈ session ++ leases, staged.table = .threadSessions →
      staged ∈ session := by
    intro staged inside table
    cases List.mem_append.mp inside with
    | inl here => exact here
    | inr there =>
      rw [lease staged there] at table
      contradiction
  cases touchRow_cases done with
  | inl gone =>
    -- There is no such session, and a touch creates none.
    exfalso
    cases rowAfter_cases .threadSessions id (session ++ leases)
        (Assoc.lookup id (ledger.tables .threadSessions).rows) with
    | inl untouched =>
      rw [untouched.1] at rows
      have present := (valid.checked .threadSessions id row rows.symm).1
      rw [← get_of_stored rows.symm, gone.1] at present
      contradiction
    | inr replaced =>
      obtain ⟨staged, inside, table, _⟩ := replaced
      have among := ofSession staged inside table
      rw [gone.2] at among
      contradiction
  | inr there =>
    obtain ⟨present, one, changed, rfl, made, isRow, fields⟩ := there
    cases rowAfter_cases .threadSessions id ([one] ++ leases)
        (Assoc.lookup id (ledger.tables .threadSessions).rows) with
    | inl untouched => exact absurd ⟨made.table, made.id⟩ (untouched.2 one (by simp))
    | inr replaced =>
      obtain ⟨staged, inside, table, _, last⟩ := replaced
      obtain rfl := List.mem_singleton.mp (ofSession staged inside table)
      rw [last, made.isNull, isRow] at rows
      obtain rfl : row = staged.row := Option.some.inj rows
      refine ⟨?_, ?_, ?_⟩
      · rw [made.find "status" (by decide) (by decide), fields]
        simp
      · rw [made.find "ended_at" (by decide) (by decide), fields]
        simp
      · rw [made.find "last_active_at" (by decide) (by decide), fields]
        simp

/-- A lease after a touch. -/
theorem Published.touched_lease (valid : ledger.Valid library) {id : String} {close : Bool}
    {session leases : List Change} {rows : List Json}
    (published : Published library ledger op a ts after (session ++ leases) value)
    (selected : (ledger.tables .threadLeases).select library [("session_id", .str id)] = .ok rows)
    (touched : List.Forall₂ (TouchedLease close ts) rows leases)
    (other : ∀ staged ∈ session, staged.table = .threadSessions) (thread : String) :
    LeaseTouched close ts id (ledger.row .threadLeases thread)
      (after.row .threadLeases thread) := by
  have owned := valid.owned selected
  rw [TaskLedger.row, TaskLedger.row, published.rows]
  cases rowAfter_cases .threadLeases thread (session ++ leases)
      (Assoc.lookup thread (ledger.tables .threadLeases).rows) with
  | inl untouched =>
    rw [untouched.1]
    refine .other _ fun lease stored own => ?_
    have member := (owned lease).mpr ⟨thread, stored, own⟩
    obtain ⟨staged, inside, of⟩ := lease_touched touched member
    obtain ⟨name, found, same⟩ := of.thread
    have own_thread := same.trans (valid.thread stored found)
    exact untouched.2 staged (List.mem_append_right _ inside) ⟨of.table, own_thread⟩
  | inr replaced =>
    obtain ⟨staged, inside, table, same, last⟩ := replaced
    have among : staged ∈ leases := by
      cases List.mem_append.mp inside with
      | inl here =>
        rw [other staged here] at table
        contradiction
      | inr there => exact there
    obtain ⟨lease, member, of⟩ := Ledger.touched_lease touched among
    obtain ⟨name, found, staged_id⟩ := of.thread
    obtain ⟨own_thread, stored, own⟩ := (owned lease).mp member
    obtain rfl : own_thread = thread :=
      (valid.thread stored found).symm.trans (staged_id.symm.trans same)
    rw [last, stored]
    cases closing : close with
    | true =>
      rw [of.removed closing]
      exact .removed lease own rfl
    | false =>
      obtain ⟨kept, fields⟩ := of.extended closing
      rw [kept]
      exact .extended lease staged.row own rfl fields

/-- `session_touch` and `session_close`. -/
theorem Published.effect_touch (valid : ledger.Valid library)
    (published : Published library ledger op a ts after changes value) (close : Bool)
    (named : op = if close then "session_close" else "session_touch")
    (planned : touchSession library ledger close a ts = .ok (.commit changes value)) :
    Effect library ledger after op a ts := by
  obtain ⟨id, status, session, leases, rows, read, active, row, selected, touched, rfl⟩ :=
    touchSession_cases planned
  have ofSession := touchRow_staged_own row
  have ofLease := touchLeases_staged_own touched
  refine .touched close named id status read active ?_
    (fun _ stored => published.touched_session valid row ofLease stored)
    (published.touched_lease valid selected touched fun staged inside =>
      (ofSession staged inside).1)
  intro other apart
  rw [TaskLedger.row, published.rows]
  cases rowAfter_cases .threadSessions other (session ++ leases)
      (Assoc.lookup other (ledger.tables .threadSessions).rows) with
  | inl untouched => exact untouched.1
  | inr replaced =>
    obtain ⟨staged, inside, table, same, _⟩ := replaced
    cases List.mem_append.mp inside with
    | inl here => exact absurd (same.symm.trans (ofSession staged here).2) apart
    | inr there =>
      rw [ofLease staged there] at table
      contradiction

/-- A published claim. -/
theorem Published.claimed (published : Published library ledger op a ts after changes value)
    (planned : leaseClaim library ledger a ts = .ok (.commit changes value)) :
    ∃ thread session lease row stored bound, idarg a "thread_id" = .ok thread ∧
      idarg a "session_id" = .ok session ∧ ClaimedLease ledger a ts thread session lease row ∧
      Similar stored lease ∧ Similar bound row ∧
      (∀ other, after.row .threadLeases other =
        if other = thread then some stored else ledger.row .threadLeases other) ∧
      (∀ other, after.row .threadSessions other =
        if other = session then some bound else ledger.row .threadSessions other) ∧
      lease.find "generation" = value.find "generation" := by
  obtain ⟨thread, session, lease, row, first, second, readThread, readSession, rfl, one, two,
    claimed, generation⟩ := leaseClaim_cases planned
  have isLease := one.isNull.trans claimed.isLease
  have isRow := two.isNull.trans claimed.isRow
  refine ⟨thread, session, lease, row, first.row, second.row, readThread, readSession, claimed,
    one.similar, two.similar, fun other => ?_, fun other => ?_, generation⟩
  · rw [TaskLedger.row, published.rows]
    simp [rowAfter, one.table, two.table, one.id, isLease, eq_comm]
  · rw [TaskLedger.row, published.rows]
    simp [rowAfter, one.table, two.table, two.id, isRow, eq_comm]

/-- `lease_claim`. -/
theorem Published.effect_claim
    (published : Published library ledger op a ts after changes value)
    (named : op = "lease_claim")
    (planned : leaseClaim library ledger a ts = .ok (.commit changes value)) :
    Effect library ledger after op a ts := by
  obtain ⟨thread, session, lease, row, stored, bound, readThread, readSession, claimed,
    similarLease, similar, leases, sessions, _⟩ := published.claimed planned
  exact .claimed named thread session lease row stored bound readThread readSession claimed
    similarLease similar leases sessions

/-- `lease_release`. -/
theorem Published.effect_release (valid : ledger.Valid library)
    (published : Published library ledger op a ts after changes value)
    (named : op = "lease_release")
    (planned : leaseRelease library ledger a = .ok (.commit changes value)) :
    Effect library ledger after op a ts := by
  obtain ⟨session, rows, read, selected, removed⟩ := leaseRelease_cases planned
  refine .released named session read ?_ ?_
  · intro thread
    rw [TaskLedger.row, published.rows]
    cases rowAfter_cases .threadLeases thread changes
        (Assoc.lookup thread (ledger.tables .threadLeases).rows) with
    | inl untouched => exact .inl untouched.1
    | inr replaced =>
      obtain ⟨staged, inside, _, same, last⟩ := replaced
      obtain ⟨_, null, lease, member, found⟩ := removed staged inside
      obtain ⟨own_thread, stored, own⟩ := (valid.owned selected lease).mp member
      obtain rfl : own_thread = thread := (valid.thread stored found).symm.trans same
      refine .inr ⟨?_, lease, stored, own⟩
      rw [last, null, if_pos rfl]
  · refine published.same fun staged inside => ?_
    rw [(removed staged inside).1]
    decide

/-- An import adds a row. -/
theorem Published.effect_import (valid : ledger.Valid library)
    (published : Published library ledger op a ts after changes value) (named : op = "import")
    (planned : importRow library ledger a = .ok (.commit changes value)) :
    Effect library ledger after op a ts := by
  obtain ⟨name, _, planned⟩ := bind_ok planned
  obtain ⟨table, _, planned⟩ := bind_ok planned
  obtain ⟨row, _, planned⟩ := bind_ok planned
  obtain ⟨key, _, planned⟩ := bind_ok planned
  obtain ⟨id, _, planned⟩ := bind_ok planned
  split at planned
  · exact absurd (Except.ok.inj planned) (by simp)
  · rename_i absent
    obtain ⟨staged, done, planned⟩ := bind_ok planned
    obtain ⟨rfl, _⟩ := Planned.commit.inj (Except.ok.inj planned)
    have made := change_madeFrom done
    refine .imported named fun other own before stored => ?_
    have rows := published.rows other own
    rw [stored] at rows
    cases rowAfter_cases other own [staged] (some before) with
    | inl untouched => exact rows.trans untouched.1
    | inr replaced =>
      exfalso
      obtain ⟨one, inside, ofTable, ofId, _⟩ := replaced
      obtain rfl := List.mem_singleton.mp inside
      obtain rfl := made.table.symm.trans ofTable
      obtain rfl := made.id.symm.trans ofId
      have present := (valid.checked table id before stored).1
      simp [get_of_stored stored, present] at absent

/-- What a published batch leaves of the sessions and the leases. -/
theorem Published.effect (valid : ledger.Valid library)
    (published : Published library ledger op a ts after changes value) :
    Effect library ledger after op a ts := by
  have planned := published.planned
  have answers : ∀ {α : Type} {first : Except Thrown α} {result : α → Json},
      (first >>= fun read => pure (Planned.answer (result read))) =
        .ok (.commit changes value) → Effect library ledger after op a ts := by
    intro α first result answered
    have apart : Commits Apart (first >>= fun read => pure (Planned.answer (result read))) :=
      .bind fun read _ => .answer _
    exact published.effect_apart (apart changes value answered)
  unfold plan at planned
  split at planned
  · exact published.effect_apart (threadCreate_apart a ts changes value planned)
  · exact answers planned
  · exact answers planned
  · exact published.effect_apart (threadUpdate_apart a changes value planned)
  · exact published.effect_apart (threadSeal_apart a ts changes value planned)
  · exact published.effect_bind rfl planned
  · exact published.effect_touch valid false rfl planned
  · exact published.effect_touch valid true rfl planned
  · exact published.effect_claim rfl planned
  · exact published.effect_release valid rfl planned
  · exact published.effect_apart (inboxPush_apart a ts changes value planned)
  · exact published.effect_apart (inboxAck_apart a ts changes value planned)
  · exact published.effect_apart (artifactRegister_apart a ts changes value planned)
  · exact published.effect_apart (artifactLink_apart a changes value planned)
  · obtain ⟨id, _, planned⟩ := bind_ok planned
    exact answers planned
  · exact published.effect_import valid rfl planned
  · exact absurd (Except.ok.inj planned) (by simp [counts])
  · exact answers planned
  · exact answers planned
  · exact answers planned
  · exact answers planned
  · exact answers planned
  · contradiction

/-- A run leaves a valid ledger as it is or has one of the effects. -/
theorem TaskLedger.Valid.effect (valid : ledger.Valid library) (op : String) (a : Json)
    (ts : Rat) (persist : Batch → Option Thrown) :
    (Ledger.run library ledger op a ts persist).ledger = ledger ∨
      Effect library ledger (Ledger.run library ledger op a ts persist).ledger op a ts := by
  cases valid.run op a ts persist with
  | inl same => exact .inl same
  | inr done =>
    obtain ⟨changes, value, published, _⟩ := done
    exact .inr (published.effect valid)

/-! ## What becomes of a lease -/

/-- What a run makes of the lease of a thread. -/
inductive LeaseStep (op : String) (a : Json) (ts : Rat) (thread : String) (lease : Json) :
    Option Json → Prop
  | kept : LeaseStep op a ts thread lease (some lease)
  | removed (owner : String) (named : op = "lease_release" ∨ op = "session_close")
      (read : idarg a "session_id" = .ok owner) (owned : OwnedBy owner lease) :
      LeaseStep op a ts thread lease none
  | extended (owner : String) (row : Json) (read : idarg a "session_id" = .ok owner)
      (owned : OwnedBy owner lease)
      (fields : ∀ name, name ≠ "repository" → name ≠ "stream_id" → row.find name =
        if name = "expires_at" then some (.float (ts + 900))
        else if name = "last_heartbeat_at" then some (.float ts)
        else lease.find name) :
      LeaseStep op a ts thread lease (some row)
  | claimed (claimant : String) (row : Json) (named : op = "lease_claim")
      (readThread : idarg a "thread_id" = .ok thread)
      (readSession : idarg a "session_id" = .ok claimant)
      (free : liveOwner lease claimant a ts = .ok false) (owned : OwnedBy claimant row)
      (generation : ∃ same generation, sameOwner lease claimant = .ok same ∧
        nextGeneration lease same = .ok generation ∧
        row.find "generation" = some (.int generation)) :
      LeaseStep op a ts thread lease (some row)

/-- Every effect is one of these to a lease. -/
theorem Effect.leaseStep {thread : String} {lease : Json}
    (effect : Effect library ledger after op a ts)
    (stored : ledger.Stored .threadLeases thread lease) :
    LeaseStep op a ts thread lease (after.row .threadLeases thread) := by
  cases effect with
  | apart leases _ =>
    rw [leases, TaskLedger.row, stored]
    exact .kept
  | imported _ stay =>
    rw [TaskLedger.row, stay .threadLeases thread lease stored]
    exact .kept
  | bound _ _ _ _ _ _ _ leases _ =>
    rw [leases, TaskLedger.row, stored]
    exact .kept
  | touched close named id _ read _ _ _ leases =>
    have touched := leases thread
    rw [TaskLedger.row, stored] at touched
    generalize after.row .threadLeases thread = last at touched
    cases touched with
    | other => exact .kept
    | removed _ owned closed =>
      subst closed
      exact .removed id (.inr named) read owned
    | extended _ row owned _ fields => exact .extended id row read owned fields
  | claimed named other claimant _ _ row _ readThread readSession claimed similar _ leases _ =>
    rw [leases]
    split
    · rename_i here
      subst here
      have old := get_of_stored stored
      obtain ⟨same, generation, owns, next, found⟩ := claimed.generation
      refine .claimed claimant row named readThread readSession (old ▸ claimed.free) ?_
        ⟨same, generation, old ▸ owns, old ▸ next, ?_⟩
      · rw [OwnedBy, similar "session_id" (by decide) (by decide), claimed.owner]
      · rw [similar "generation" (by decide) (by decide), found]
    · rw [TaskLedger.row, stored]
      exact .kept
  | released named releaser read leases _ =>
    cases leases thread with
    | inl same =>
      rw [same, TaskLedger.row, stored]
      exact .kept
    | inr gone =>
      obtain ⟨none_left, row, found, owned⟩ := gone
      obtain rfl := Option.some.inj (stored.symm.trans found)
      rw [none_left]
      exact .removed releaser (.inl named) read owned

/-- So does every run. -/
theorem TaskLedger.Valid.leaseStep {thread : String} {lease : Json} (valid : ledger.Valid library)
    (stored : ledger.Stored .threadLeases thread lease) (op : String) (a : Json) (ts : Rat)
    (persist : Batch → Option Thrown) :
    LeaseStep op a ts thread lease
      ((Ledger.run library ledger op a ts persist).ledger.row .threadLeases thread) := by
  cases valid.effect op a ts persist with
  | inl same =>
    rw [same, TaskLedger.row, stored]
    exact .kept
  | inr effect => exact effect.leaseStep stored

/-! ## A ledger with a lease -/

/-- The arguments of a session. -/
def sessionArguments (session : String) : Json := .object [("session_id", .str session)]

/-- The arguments of a claim. -/
def claimArguments (session : String) : Json :=
  .object [("thread_id", .str "t-1"), ("session_id", .str session)]

/-- A library for these. -/
def emptyLibrary : Library := plainLibrary [.object []]

/-- The ledger after an operation that is stored. -/
def performed (ledger : TaskLedger) (op : String) (a : Json) (ts : Rat) : TaskLedger :=
  (run emptyLibrary ledger op a ts fun _ => none).ledger

section

variable {op : String} {a : Json} {ts : Rat}

/-- An operation leads to it. -/
theorem step_performed : (machine emptyLibrary).step ledger (.run op a ts fun _ => none) =
    some (performed ledger op a ts) := rfl

/-- So does a run that ends with it. -/
theorem reaches_performed {allowed : TaskLedger → Action → Prop}
    (reached : (machine emptyLibrary).Reaches allowed ledger)
    (permitted : allowed ledger (.run op a ts fun _ => none)) :
    (machine emptyLibrary).Reaches allowed (performed ledger op a ts) :=
  .step _ reached permitted step_performed

end

/-- A thread and two sessions. -/
def twoSessions : TaskLedger :=
  let first := performed .fresh "thread_create" threadArguments 1
  let second := performed first "session_bind" (sessionArguments "s-1") 2
  performed second "session_bind" (sessionArguments "s-2") 3

/-- Runs lead to them. -/
theorem twoSessions_reached : (machine emptyLibrary).Reaches RunsWithoutImport twoSessions :=
  reaches_performed (reaches_performed (reaches_performed .initial
    (show "thread_create" ≠ "import" by decide)) (show "session_bind" ≠ "import" by decide))
    (show "session_bind" ≠ "import" by decide)

/-- The first session has a lease. -/
def leased : TaskLedger := performed twoSessions "lease_claim" (claimArguments "s-1") 4

/-- A claim leads to it. -/
theorem leased_reached : (machine emptyLibrary).Reaches RunsWithoutImport leased :=
  reaches_performed twoSessions_reached (show "lease_claim" ≠ "import" by decide)

/-- So it is reached when replays are accepted, too. -/
theorem leased_recorded : (machine emptyLibrary).Reaches (Recorded emptyLibrary) leased :=
  leased_reached.mono fun _ action permitted => by
    cases action with
    | run => trivial
    | replay => contradiction

/-- The first session owns the lease. -/
theorem leased_owned : ∃ lease, leased.Stored .threadLeases "t-1" lease ∧ OwnedBy "s-1" lease := by
  have owned : (leased.row .threadLeases "t-1").any
      (fun lease => decide (OwnedBy "s-1" lease)) = true := by decide +kernel
  obtain ⟨lease, stored, found⟩ := (Option.any_eq_true _ _).mp owned
  exact ⟨lease, stored, of_decide_eq_true found⟩

end Chitta.Ledger
