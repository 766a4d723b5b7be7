import Chitta.Gateway.ToolLedgerOp

/-!
# What transactions make of the capsules

A transaction that is no import leaves the capsule of a session as it is, or binds the session with
metadata whose capsule replaces it. The rows of sessions keep the columns that are derived from
their capsules.
-/
namespace Chitta.Gateway

open Ledger (Library TaskLedger Batch Change TableName Published Effect BoundRow Similar upgradeRow
  handoffOf mergedMetadata idarg boundBase rowAfter_cases stored_of_get get_of_stored)

/-- The row of a session, null without one. -/
abbrev sessionRow (ledger : TaskLedger) (id : String) : Json :=
  (ledger.tables .threadSessions).get id

/-- Metadata are written as a text that reads back, as far as their capsule is concerned. -/
def ReadsBack (library : Library) (metadata : Json) : Prop :=
  ∃ read ∈ library.parse (library.dump metadata),
    read.isObject = true ∧ read.find "handoff" = metadata.find "handoff"

instance (library : Library) (metadata : Json) : Decidable (ReadsBack library metadata) :=
  inferInstanceAs (Decidable (∃ read ∈ library.parse (library.dump metadata), _))

/-- The capsule that arguments bring. -/
def broughtHandoff (a : Json) : Option Json :=
  (a.find "metadata").bind fun added => added.find "handoff"

/-- Whether the fields of an object are in order; the objects of the JSON library are such. -/
def Ordered : Json → Prop
  | .obj fields => Assoc.Sorted fields
  | _ => True

instance : (json : Json) → Decidable (Ordered json)
  | .obj fields => inferInstanceAs (Decidable (List.Pairwise _ fields))
  | .null | .bool _ | .int _ | .float _ | .str _ | .arr _ => .isTrue trivial

variable {library : Library} {ledger after : TaskLedger}

/-! ## Capsules in texts -/

/-- The capsule of a row is that in the text of its metadata. -/
theorem handoff_of_text {row : Json} {text : String}
    (found : row.find "metadata_json" = some (.str text)) :
    handoff library row = handoffOf library text := by
  cases row with
  | obj fields =>
    simp only [Json.find] at found
    simp only [handoff, metadata, Json.isObject, Json.valueString, Json.valueWith, found,
      Json.getString, handoffOf, bind, Except.bind, pure, Except.pure, if_true]
    cases library.parse text with
    | none => rfl
    | some value =>
      dsimp only
      split
      · rfl
      · rfl
  | _ => contradiction

/-- An update replaces the fields that are brought, in an ordered object or when there is none. -/
theorem find_update {old added : Json} {key : String} (first : old.isObject = true)
    (second : added.isObject = true) (ordered : added.find key ≠ none → Ordered added) :
    (old.update added).find key = (added.find key).or (old.find key) := by
  cases old with
  | obj fields =>
    cases added with
    | obj others =>
      simp only [Json.update, Json.find, Assoc.lookup_foldl_assign]
      cases found : Assoc.lookup key others with
      | none => rw [Assoc.lookup_reverse_none found]
      | some value =>
        have sorted : Assoc.Sorted others := ordered (by simp [Json.find, found])
        rw [sorted.lookup_reverse, found]
    | _ => contradiction
  | _ => contradiction

/-- The capsule of merged metadata is the one that is brought, or the old one. -/
theorem handoff_merged {a : Json} {text : String}
    (ordered : ∀ added, a.find "metadata" = some added → added.find "handoff" ≠ none →
      Ordered added)
    (back : ReadsBack library (mergedMetadata library text a)) :
    ∃ old, handoffOf library text = .ok old ∧
      handoffOf library (library.dump (mergedMetadata library text a)) =
        .ok ((broughtHandoff a).getD old) := by
  obtain ⟨read, there, object, same⟩ := back
  -- What the text holds.
  obtain ⟨base, is_object, old, merged⟩ : ∃ base : Json, base.isObject = true ∧
      handoffOf library text = .ok ((base.find "handoff").getD (.object [])) ∧
      mergedMetadata library text a =
        (a.find "metadata").elim base
          fun added => if added.isObject then base.update added else base := by
    unfold handoffOf mergedMetadata
    cases library.parse text with
    | none => exact ⟨.object [], rfl, rfl, by cases a.find "metadata" <;> rfl⟩
    | some value =>
      cases value with
      | obj fields =>
        refine ⟨.obj fields, rfl, ?_, by cases a.find "metadata" <;> rfl⟩
        simp only [Json.isObject, if_true, Json.valueJson, Json.valueWith, Json.find]
        cases Assoc.lookup "handoff" fields with
        | none => rfl
        | some cap => rfl
      | _ => exact ⟨.object [], rfl, rfl, by cases a.find "metadata" <;> rfl⟩
  refine ⟨_, old, ?_⟩
  have after : (mergedMetadata library text a).find "handoff" =
      (broughtHandoff a).or (base.find "handoff") := by
    rw [merged]
    unfold broughtHandoff
    cases brought : a.find "metadata" with
    | none => rfl
    | some added =>
      dsimp only [Option.bind_some, Option.elim_some]
      split
      · rename_i second
        exact find_update is_object second (ordered added brought)
      · rename_i other
        cases added with
        | obj fields => exact absurd rfl other
        | _ => rfl
  have found : handoffOf library (library.dump (mergedMetadata library text a)) =
      .ok ((read.find "handoff").getD (.object [])) := by
    simp only [handoffOf, Option.mem_def.mp there, object, if_true]
    cases read with
    | obj fields =>
      simp only [Json.valueJson, Json.valueWith, Json.find]
      cases Assoc.lookup "handoff" fields with
      | none => rfl
      | some cap => rfl
    | _ => contradiction
  rw [found, same, after]
  cases broughtHandoff a with
  | none => rfl
  | some cap => rfl

/-! ## Transactions -/

/-- The metadata of a stored session are a text. -/
theorem metadata_stored (valid : ledger.Valid library) {id : String} {row : Json}
    (stored : ledger.Stored .threadSessions id row) :
    ∃ text, row.find "metadata_json" = some (.str text) := by
  obtain ⟨present, checked⟩ := valid.checked .threadSessions id row stored
  apply Ledger.validateRow_text checked present
  · decide
  · decide
  · decide

/-- The row of a session, from its entry. -/
theorem sessionRow_of_row {id : String} {row : Option Json}
    (same : ledger.row .threadSessions id = row) : sessionRow ledger id = row.getD .null := by
  rw [← same]
  rfl

/-- The text that a bind starts from. -/
theorem textOf_base {id text : String} {ts : Rat}
    (found : (boundBase ledger id ts).find "metadata_json" = some (.str text)) :
    textOf ledger id = text := by
  unfold boundBase at found
  unfold textOf
  split at found
  · rename_i absent
    rw [Json.eq_null absent]
    have fresh : (Ledger.newSession id ts).find "metadata_json" = some (.str "\x7b\x7d") := by
      simp [Ledger.newSession, Json.find_object, Assoc.lookup]
    rw [fresh] at found
    exact Json.str.inj (Option.some.inj found)
  · rw [found]

/-- What a transaction makes of the metadata of a session. -/
inductive Bound (library : Library) (ledger after : TaskLedger) (op : String) (a : Json)
    (id : String) : Prop
  | same (row : sessionRow after id = sessionRow ledger id)
  | kept (text : String) (before : (sessionRow ledger id).find "metadata_json" = some (.str text))
      (found : (sessionRow after id).find "metadata_json" = some (.str text))
  | merged (named : op = "session_bind") (read : idarg a "session_id" = .ok id)
      (found : (sessionRow after id).find "metadata_json" =
        some (.str (library.dump (mergedMetadata library (textOf ledger id) a))))

variable {op : String} {a value : Json} {ts : Rat} {changes : List Change}

/-- A touch or a close keeps the metadata. -/
theorem bound_touched (valid : ledger.Valid library)
    (published : Published library ledger op a ts after changes value) {close : Bool}
    (planned : Ledger.touchSession library ledger close a ts = .ok (.commit changes value))
    (id : String) : Bound library ledger after op a id := by
  obtain ⟨own, status, session, leases, rows, _, _, row, _, touched, rfl⟩ :=
    Ledger.touchSession_cases planned
  have entry := published.rows .threadSessions id
  cases rowAfter_cases .threadSessions id (session ++ leases)
      (Assoc.lookup id (ledger.tables .threadSessions).rows) with
  | inl untouched =>
    rw [untouched.1] at entry
    exact .same (sessionRow_of_row entry)
  | inr replaced =>
    obtain ⟨staged, inside, table, named, last⟩ := replaced
    have among : staged ∈ session := by
      cases List.mem_append.mp inside with
      | inl here => exact here
      | inr there =>
        rw [Ledger.touchLeases_staged_own touched staged there] at table
        contradiction
    cases Ledger.touchRow_cases row with
    | inl gone =>
      rw [gone.2] at among
      contradiction
    | inr there =>
      obtain ⟨present, one, changed, rfl, made, isRow, fields⟩ := there
      obtain rfl := List.mem_singleton.mp among
      obtain rfl : own = id := made.id.symm.trans named
      obtain ⟨text, found⟩ := metadata_stored valid (stored_of_get present)
      rw [last, made.isNull, isRow] at entry
      have after_row : sessionRow after own = staged.row := sessionRow_of_row entry
      refine .kept text found ?_
      rw [after_row, made.find "metadata_json" (by decide) (by decide), fields]
      simpa using found

/-- A published bind merges the metadata of its session and leaves the others. -/
theorem bound_bind (published : Published library ledger "session_bind" a ts after changes value) :
    ∃ id, idarg a "session_id" = .ok id ∧
      (sessionRow after id).find "metadata_json" =
        some (.str (library.dump (mergedMetadata library (textOf ledger id) a))) ∧
      ∀ other, other ≠ id → sessionRow after other = sessionRow ledger other := by
  obtain ⟨id, staged, row, read, _, rfl, made, bound⟩ := Ledger.sessionBind_cases published.planned
  obtain ⟨text, base, found⟩ := bound.metadata
  have present : staged.row.isNull = false := by
    rw [made.isNull]
    exact Json.isNull_of_find bound.ended
  have entry : ∀ other, after.row .threadSessions other =
      if id = other then some staged.row else ledger.row .threadSessions other := by
    intro other
    rw [TaskLedger.row, published.rows]
    simp [Ledger.rowAfter, made.table, made.id, present]
  refine ⟨id, read, ?_, fun other apart => ?_⟩
  · have own := entry id
    rw [if_pos rfl] at own
    rw [sessionRow_of_row own, Option.getD_some, made.find "metadata_json" (by decide) (by decide),
      found, textOf_base base]
  · have own := entry other
    rw [if_neg (Ne.symm apart)] at own
    exact sessionRow_of_row own

/-- What a published transaction makes of the metadata of a session. -/
theorem bound_published (valid : ledger.Valid library)
    (published : Published library ledger op a ts after changes value) (local_ : op ≠ "import")
    (id : String) : Bound library ledger after op a id := by
  cases published.effect valid with
  | apart leases sessions => exact .same (sessionRow_of_row (sessions id))
  | imported named stay => exact absurd named local_
  | bound named =>
    subst named
    obtain ⟨own, read, found, others⟩ := bound_bind published
    by_cases here : id = own
    · subst here
      exact .merged rfl read found
    · exact .same (others id here)
  | touched close named own status read active others state leases =>
    have planned := published.planned
    cases close with
    | true =>
      subst named
      exact bound_touched valid published planned id
    | false =>
      subst named
      exact bound_touched valid published planned id
  | claimed named thread session lease row stored bound readThread readSession claimed
      similarLease similar leases sessions =>
    have entry := sessions id
    by_cases here : id = session
    · subst here
      rw [if_pos rfl] at entry
      have after_row : sessionRow after id = bound := sessionRow_of_row entry
      obtain ⟨text, found⟩ := metadata_stored valid claimed.hasSession
      refine .kept text found ?_
      rw [after_row, similar "metadata_json" (by decide) (by decide), claimed.active]
      simpa using found
    · rw [if_neg here] at entry
      exact .same (sessionRow_of_row entry)
  | released named session read leases sessions => exact .same (sessionRow_of_row (sessions id))

/-- What a transaction makes of the metadata of a session. -/
theorem bound_run (valid : ledger.Valid library) (op : String) (a : Json) (ts : Rat)
    (persist : Batch → Option Thrown) (local_ : op ≠ "import") (id : String) :
    Bound library ledger (Ledger.run library ledger op a ts persist).ledger op a id := by
  cases valid.run op a ts persist with
  | inl same =>
    rw [same]
    exact .same rfl
  | inr done =>
    obtain ⟨changes, value, published, _⟩ := done
    exact bound_published valid published local_ id

/-- The derived columns of every session are those of its capsule. -/
def Upgraded (library : Library) (ledger : TaskLedger) : Prop :=
  ∀ id row, ledger.Stored .threadSessions id row →
    upgradeRow library .threadSessions row = .ok row

/-- A transaction keeps the derived columns. -/
theorem Upgraded.run (upgraded : Upgraded library ledger) (valid : ledger.Valid library)
    (op : String) (a : Json) (ts : Rat) (persist : Batch → Option Thrown) :
    Upgraded library (Ledger.run library ledger op a ts persist).ledger := by
  cases valid.run op a ts persist with
  | inl same => rwa [same]
  | inr done =>
    obtain ⟨changes, value, published, _⟩ := done
    intro id row stored
    have entry := published.rows .threadSessions id
    cases rowAfter_cases .threadSessions id changes
        (Assoc.lookup id (ledger.tables .threadSessions).rows) with
    | inl untouched =>
      rw [untouched.1, stored] at entry
      exact upgraded id row entry.symm
    | inr replaced =>
      obtain ⟨staged, inside, table, _, last⟩ := replaced
      rw [last, stored] at entry
      split at entry
      · contradiction
      · obtain rfl := Option.some.inj entry
        obtain ⟨raw, made⟩ := (published.checked staged inside).upgraded
        rw [table] at made
        exact Ledger.upgradeRow_stable made

/-- The sessions have the times at which the clock was read. -/
def Stamped (ledger : TaskLedger) : Prop :=
  ∀ id row, ledger.Stored .threadSessions id row →
    ∃ time, row.find "last_active_at" = some (.float time)

/-- A transaction keeps them. -/
theorem Stamped.run (stamped : Stamped ledger) (valid : ledger.Valid library)
    (op : String) (a : Json)
    (ts : Rat) (persist : Batch → Option Thrown) (local_ : op ≠ "import") :
    Stamped (Ledger.run library ledger op a ts persist).ledger := by
  cases valid.run op a ts persist with
  | inl same => rwa [same]
  | inr done =>
    obtain ⟨changes, value, published, _⟩ := done
    have unchanged : ∀ id row, (Ledger.run library ledger op a ts persist).ledger.Stored
        .threadSessions id row → (Ledger.run library ledger op a ts persist).ledger.row
        .threadSessions id = ledger.row .threadSessions id →
        ∃ time, row.find "last_active_at" = some (.float time) := by
      intro id row stored same
      exact stamped id row (same.symm.trans stored)
    intro id row stored
    cases published.effect valid with
    | apart leases sessions => exact unchanged id row stored (sessions id)
    | imported named stay => exact absurd named local_
    | bound named own bound kept read made similar leases sessions =>
      by_cases here : id = own
      · have entry := sessions id
        rw [if_pos here] at entry
        obtain rfl : kept = row := Option.some.inj (entry.symm.trans stored)
        exact ⟨ts, (similar "last_active_at" (by decide) (by decide)).trans made.active⟩
      · exact unchanged id row stored ((sessions id).trans (if_neg here))
    | touched close named own status read active others state leases =>
      by_cases here : id = own
      · subst here
        exact ⟨ts, (state row stored).2.2⟩
      · exact unchanged id row stored (others id here)
    | claimed named thread session lease bound kept after readThread readSession claimed
        similarLease
        similar leases sessions =>
      by_cases here : id = session
      · have entry := sessions id
        rw [if_pos here] at entry
        obtain rfl : after = row := Option.some.inj (entry.symm.trans stored)
        refine ⟨ts, (similar "last_active_at" (by decide) (by decide)).trans ?_⟩
        rw [claimed.active, if_pos rfl]
      · exact unchanged id row stored ((sessions id).trans (if_neg here))
    | released named session read leases sessions => exact unchanged id row stored (sessions id)

/-! ## The capsules of sessions -/

/-- The text that a bind starts from has the capsule of the session. -/
theorem handoff_textOf (valid : ledger.Valid library)
    (empty : library.parse "\x7b\x7d" = some (.object [])) (id : String) :
    handoffOf library (textOf ledger id) = handoff library (sessionRow ledger id) := by
  cases present : (sessionRow ledger id).isNull with
  | true =>
    have null := Json.eq_null present
    have text : textOf ledger id = "\x7b\x7d" := by simp only [textOf, null, Json.find]
    rw [text, null, handoffOf, empty]
    rfl
  | false =>
    obtain ⟨text, found⟩ := metadata_stored valid (stored_of_get present)
    rw [handoff_of_text found, textOf, found]

/-- The metadata that a bind writes. -/
theorem writes_bind {id : String} (read : idarg a "session_id" = .ok id) :
    writes library ledger "session_bind" a = [mergedMetadata library (textOf ledger id) a] := by
  obtain ⟨value, there, text⟩ := bind_ok read
  have found : a.find "session_id" = some (.str id) := by
    cases value with
    | str other =>
      obtain rfl := Except.ok.inj text
      exact Json.find_of_at there
    | _ => contradiction
  simp only [writes, found]

/-- The capsule of a session whose metadata were merged. -/
theorem handoff_of_merged (valid : ledger.Valid library)
    (empty : library.parse "\x7b\x7d" = some (.object []))
    (ordered : ∀ added, a.find "metadata" = some added → added.find "handoff" ≠ none →
      Ordered added)
    (back : ∀ metadata ∈ writes library ledger "session_bind" a, ReadsBack library metadata)
    {id : String} (read : idarg a "session_id" = .ok id)
    (found : (sessionRow after id).find "metadata_json" =
      some (.str (library.dump (mergedMetadata library (textOf ledger id) a)))) :
    ∃ old, handoff library (sessionRow ledger id) = .ok old ∧
      handoff library (sessionRow after id) = .ok ((broughtHandoff a).getD old) := by
  have own := back (mergedMetadata library (textOf ledger id) a) (by
    rw [writes_bind read]
    exact List.mem_singleton_self _)
  obtain ⟨old, before, merged⟩ := handoff_merged ordered own
  rw [handoff_textOf valid empty] at before
  exact ⟨old, before, (handoff_of_text found).trans merged⟩

/-- A transaction that brings no capsule keeps those of the sessions. -/
theorem handoff_run (valid : ledger.Valid library)
    (empty : library.parse "\x7b\x7d" = some (.object [])) (ts : Rat)
    (persist : Batch → Option Thrown) (local_ : op ≠ "import")
    (plain : op = "session_bind" → broughtHandoff a = none)
    (back : ∀ metadata ∈ writes library ledger op a, ReadsBack library metadata) (id : String) :
    handoff library (sessionRow (Ledger.run library ledger op a ts persist).ledger id) =
      handoff library (sessionRow ledger id) := by
  cases bound_run valid op a ts persist local_ id with
  | same row => rw [row]
  | kept text before found => rw [handoff_of_text found, handoff_of_text before]
  | merged named read found =>
    subst named
    have nothing := plain rfl
    have ordered : ∀ added, a.find "metadata" = some added → added.find "handoff" ≠ none →
        Ordered added := by
      intro added there brings
      rw [broughtHandoff, there, Option.bind_some] at nothing
      exact absurd nothing brings
    obtain ⟨old, before, merged⟩ := handoff_of_merged valid empty ordered back read found
    rw [merged, before, nothing, Option.getD_none]

/-- How a bind ends: it answers false, or it stages its session and answers true. -/
theorem sessionBind_ends {planned : Ledger.Planned}
    (done : Ledger.sessionBind library ledger a ts = .ok planned) :
    planned = .answer (.bool false) ∨ ∃ staged, planned = .commit [staged] (.bool true) := by
  unfold Ledger.sessionBind at done
  obtain ⟨id, _, done⟩ := bind_ok done
  split at done
  · exact .inl (Except.ok.inj done).symm
  · obtain ⟨_, _, done⟩ := bind_ok done
    obtain ⟨_, _, done⟩ := bind_ok done
    obtain ⟨_, _, done⟩ := bind_ok done
    obtain ⟨_, _, done⟩ := bind_ok done
    obtain ⟨_, _, done⟩ := bind_ok done
    obtain ⟨_, _, done⟩ := bind_ok done
    obtain ⟨_, _, done⟩ := bind_ok done
    obtain ⟨_, _, done⟩ := bind_ok done
    obtain ⟨_, _, done⟩ := bind_ok done
    obtain ⟨_, _, done⟩ := bind_ok done
    obtain ⟨staged, _, done⟩ := bind_ok done
    exact .inr ⟨staged, (Except.ok.inj done).symm⟩

/-- A bind that answers true is published, and any other one changes nothing. -/
theorem bind_ends (valid : ledger.Valid library) (a : Json) (ts : Rat)
    (persist : Batch → Option Thrown) :
    ((Ledger.run library ledger "session_bind" a ts persist).result ≠ .ok (.bool true) ∧
        (Ledger.run library ledger "session_bind" a ts persist).ledger = ledger) ∨
      ((Ledger.run library ledger "session_bind" a ts persist).result = .ok (.bool true) ∧
        ∃ changes value, Published library ledger "session_bind" a ts
          (Ledger.run library ledger "session_bind" a ts persist).ledger changes value) := by
  by_cases answer : (Ledger.run library ledger "session_bind" a ts persist).result =
      .ok (.bool true)
  · right
    refine ⟨answer, ?_⟩
    obtain planned | planned | published := valid.returned answer
    · cases sessionBind_ends planned with
      | inl refused => exact absurd refused (by simp)
      | inr staged =>
        obtain ⟨_, other⟩ := staged
        contradiction
    · cases sessionBind_ends planned with
      | inl refused => contradiction
      | inr staged =>
        obtain ⟨_, other⟩ := staged
        exact absurd other (by simp)
    · obtain ⟨changes, done⟩ := published
      exact ⟨changes, _, done⟩
  · left
    refine ⟨answer, ?_⟩
    cases valid.run "session_bind" a ts persist with
    | inl same => exact same
    | inr done =>
      obtain ⟨changes, value, published, result⟩ := done
      cases sessionBind_ends published.planned with
      | inl refused => contradiction
      | inr staged =>
        obtain ⟨one, other⟩ := staged
        obtain ⟨_, rfl⟩ := Ledger.Planned.commit.inj other
        exact absurd result answer

end Chitta.Gateway
