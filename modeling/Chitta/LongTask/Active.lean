import Chitta.LastWrite
import Chitta.LongTask.Tools
import Chitta.Utf8

/-!
# The views of the active long task

Two tools find the active task of a realm in the event log: one folds the log into the map of the
tasks that are open, the other keeps the task that was started last. The log shows a record in
several forms, which `tool_ledger_list` decodes; the two tools read the plain form only.
-/
namespace Chitta.LongTask

open Checkpoint (ToolResult)

/-! ## The log -/

/-- The kinds of the events of a long task. -/
inductive Kind where
  /-- The task starts. -/
  | start
  /-- Its payload changes. -/
  | update
  /-- A checkpoint. -/
  | checkpoint
  /-- The task is completed. -/
  | complete
  /-- The task has failed. -/
  | fail
deriving DecidableEq, Repr

/-- The name of a kind. -/
def Kind.name : Kind → String
  | start => "start"
  | update => "update"
  | checkpoint => "checkpoint"
  | complete => "complete"
  | fail => "fail"

/-- Where a record has its payload. -/
inductive PayloadForm where
  /-- In `payload_json`, as a text. -/
  | text
  /-- In `payload_json`, as an array of bytes. -/
  | bytes
  /-- In `payload`. -/
  | plain
deriving DecidableEq, Repr

/-- A record of a long task. -/
structure Entry where
  /-- The kind. -/
  kind : Kind
  /-- The task. -/
  task : String
  /-- The text of the payload. -/
  payload : String
  /-- It is inside of `MsgEvent`. -/
  wrapped : Bool
  /-- The task is in `target`, else in `entity_id`. -/
  inTarget : Bool
  /-- Where the payload is. -/
  form : PayloadForm
deriving DecidableEq, Repr

/-- The bytes of a text as an array. -/
def bytesJson (text : String) : Json := .arr ((Bytes.utf8 text).map fun byte => .int byte.toNat)

/-- The fields of a record. -/
def Entry.fields (entry : Entry) : Json :=
  .object [("domain", .str "long_task"), ("kind", .str entry.kind.name),
    (if entry.inTarget then "target" else "entity_id", .str entry.task),
    match entry.form with
    | .text => ("payload_json", .str entry.payload)
    | .bytes => ("payload_json", bytesJson entry.payload)
    | .plain => ("payload", .str entry.payload)]

/-- The record in the log. -/
def Entry.json (entry : Entry) : Json :=
  if entry.wrapped then .object [("MsgEvent", entry.fields)] else entry.fields

/-- The payload that is in `payload`. -/
def Entry.plainPayload (entry : Entry) : String :=
  match entry.form with
  | .plain => entry.payload
  | .text => ""
  | .bytes => ""

/-- The task that is in `entity_id`. -/
def Entry.entity (entry : Entry) : String := if entry.inTarget then "" else entry.task

/-- A byte of an array. -/
def byteOf : Json → Except Thrown UInt8
  | .int value => .ok (UInt8.ofInt value)
  | _ => .error (.typeError 302)

/-- The decoding of a record by `tool_ledger_list`: domain, kind, entity and payload. -/
def decodeRecord (record : Json) : Except Thrown (String × String × String × String) := do
  let op ← if record.contains "MsgEvent" then record.field "MsgEvent" else pure record
  let domain ← op.valueString "domain" ""
  let kind ← op.valueString "kind" ""
  let entity ← op.valueString "entity_id" ""
  let target ← op.valueString "target" entity
  let payload ← match op.find "payload_json" with
    | some (.str text) => pure text
    | some (.arr items) => do
      let bytes ← items.mapM byteOf
      pure ((String.fromUTF8? bytes.toByteArray).getD "")
    | _ => op.valueString "payload" ""
  return (domain, kind, target, payload)

/-- The bytes of a text are read back. -/
theorem mapM_byteOf (bytes : List UInt8) :
    (bytes.map fun byte => Json.int byte.toNat).mapM byteOf = .ok bytes := by
  induction bytes with
  | nil => rfl
  | cons byte rest ih =>
    have small := byte.toNat_lt
    have same : UInt8.ofInt (byte.toNat : Int) = byte := by
      have kept : ((byte.toNat : Int) % 256).toNat = byte.toNat := by omega
      simp [UInt8.ofInt, kept]
    rw [List.map_cons, List.mapM_cons, ih, byteOf, same]
    rfl

/-- The texts that are read in the fields of a record. -/
theorem fields_read (entry : Entry) :
    entry.fields.valueString "domain" "" = .ok "long_task" ∧
      entry.fields.valueString "kind" "" = .ok entry.kind.name ∧
      entry.fields.valueString "entity_id" "" = .ok entry.entity ∧
      entry.fields.valueString "payload" "" = .ok entry.plainPayload := by
  simp only [Entry.fields, Json.valueString, Json.valueWith_object]
  obtain ⟨kind, task, payload, wrapped, inTarget, form⟩ := entry
  cases inTarget <;> cases form <;> exact ⟨rfl, rfl, rfl, rfl⟩

/-- The fields of a record are decoded to its kind, task and payload. -/
theorem decodeRecord_fields (entry : Entry) :
    decodeRecord entry.fields = .ok ("long_task", entry.kind.name, entry.task, entry.payload) := by
  obtain ⟨domain, kind, entity, payload⟩ := fields_read entry
  have plain : entry.fields.contains "MsgEvent" = false := by
    rw [Json.contains, Entry.fields, Json.find_object]
    cases entry.inTarget <;> cases entry.form <;> rfl
  have target : entry.fields.valueString "target" entry.entity = .ok entry.task := by
    rw [Entry.fields, Entry.entity, Json.valueString, Json.valueWith_object]
    cases entry.inTarget <;> cases entry.form <;> rfl
  have found : entry.fields.find "payload_json" =
      match entry.form with
      | .text => some (.str entry.payload)
      | .bytes => some (bytesJson entry.payload)
      | .plain => none := by
    rw [Entry.fields, Json.find_object]
    cases entry.inTarget <;> cases entry.form <;> rfl
  have text : String.fromUTF8? (Bytes.utf8 entry.payload).toByteArray = some entry.payload := by
    rw [Utf8.toByteArray_utf8, String.fromUTF8?, dif_pos entry.payload.isValidUTF8]
    rfl
  simp only [decodeRecord, plain, Bool.false_eq_true, ↓reduceIte, bind, Except.bind, pure,
    Except.pure, domain, kind, entity, target, found, payload]
  cases form : entry.form with
  | text => rfl
  | bytes => simp only [bytesJson, mapM_byteOf, text, Option.getD_some]
  | plain => simp only [Entry.plainPayload, form]

/-- Every form of a record is decoded to its kind, task and payload. -/
theorem decodeRecord_json (entry : Entry) :
    decodeRecord entry.json = .ok ("long_task", entry.kind.name, entry.task, entry.payload) := by
  cases wrapped : entry.wrapped with
  | false =>
    rw [Entry.json, wrapped]
    exact decodeRecord_fields entry
  | true =>
    rw [Entry.json, wrapped, ← decodeRecord_fields entry]
    have plain : entry.fields.contains "MsgEvent" = false := by
      rw [Json.contains, Entry.fields, Json.find_object]
      cases entry.inTarget <;> cases entry.form <;> rfl
    conv_rhs => rw [decodeRecord, plain]
    rfl

/-- What an event does to the tasks. -/
structure Event where
  /-- The kind. -/
  kind : Kind
  /-- The task. -/
  task : String
  /-- The realm in the payload. -/
  realm : String
deriving DecidableEq, Repr

variable (env : Env)

/-- The realm of a payload; empty when it names none. -/
def realmOf (payload : String) : String := ((startRealm env payload).toOption).getD ""

/-- The event of a record. -/
def Entry.event (entry : Entry) : Event := ⟨entry.kind, entry.task, realmOf env entry.payload⟩

/-- What a tool that reads the plain form sees of a record: nothing inside of `MsgEvent`, no task
that is in `target`, and only a payload that is in `payload`. -/
def Entry.seen (entry : Entry) : Option Event :=
  if entry.wrapped then none
  else some ⟨entry.kind, entry.entity, realmOf env entry.plainPayload⟩

/-! ## Open tasks -/

/-- The task that an event starts in a realm or ends. -/
def Event.about (realm : String) (event : Event) : Option String :=
  match event.kind with
  | .start => if event.realm = realm then some event.task else none
  | .complete => some event.task
  | .fail => some event.task
  | .update => none
  | .checkpoint => none

/-- A task has a start event in the realm with no later complete or fail event. -/
def Open (events : List Event) (realm task : String) : Prop :=
  ∃ event, lastWrite (Event.about realm) task events = some event ∧ event.kind = .start

/-- An event starts a task in a realm. -/
def Event.startsIn (realm : String) (event : Event) : Bool :=
  decide (event.kind = .start) && decide (event.realm = realm)

/-- The task that was started last in a realm. -/
def lastStarted (events : List Event) (realm : String) : Option String :=
  ((events.filter (Event.startsIn realm)).getLast?).map (·.task)

variable {env} {realm task : String}

/-- An event that neither starts the task in the realm nor ends it changes nothing. -/
theorem open_concat_other {event : Event} (other : event.about realm ≠ some task)
    (events : List Event) : Open (events ++ [event]) realm task ↔ Open events realm task := by
  rw [Open, lastWrite_concat_other other, Open]

/-- An event about the task opens it or ends it. -/
theorem open_concat_about {event : Event} (about : event.about realm = some task)
    (events : List Event) : Open (events ++ [event]) realm task ↔ event.kind = .start := by
  rw [Open, lastWrite_concat about]
  constructor
  · rintro ⟨last, same, starts⟩
    rwa [Option.some.inj same]
  · exact fun starts => ⟨event, rfl, starts⟩

/-! ## The map of open tasks -/

/-- The fields of a payload that the views read have their types. -/
def Readable (payload : Json) : Prop :=
  ∃ goal realm iterations, payload.valueString "goal" "" = .ok goal ∧
    payload.valueString "realm" "" = .ok realm ∧
    payload.valueWith Json.getInt "iterations" 0 = .ok iterations

/-- An empty object is readable. -/
theorem readable_empty : Readable (.obj []) := ⟨"", "", 0, rfl, rfl, rfl⟩

/-- The map has the open tasks of a realm, with readable payloads. -/
structure Tracks (active : List (String × Json)) (events : List Event) (realm : String) : Prop where
  /-- Its keys are the open tasks. -/
  keys : ∀ task, (Assoc.lookup task active).isSome ↔ Open events realm task
  /-- Its payloads are readable. -/
  readable : ∀ entry ∈ active, Readable entry.2

/-- An event that is not about a task of the realm changes nothing. -/
theorem Tracks.skip {active : List (String × Json)} {events : List Event} {event : Event}
    (tracks : Tracks active events realm) (silent : event.about realm = none) :
    Tracks active (events ++ [event]) realm := by
  constructor
  · intro task
    have other : event.about realm ≠ some task := by simp [silent]
    rw [tracks.keys, open_concat_other other]
  · exact tracks.readable

/-- A start in the realm puts its task. -/
theorem Tracks.put {active : List (String × Json)} {events : List Event} {payload : Json}
    (tracks : Tracks active events realm) (task : String) (readable : Readable payload) :
    Tracks (Assoc.assign task payload active) (events ++ [⟨.start, task, realm⟩]) realm := by
  have about : Event.about realm ⟨.start, task, realm⟩ = some task := if_pos rfl
  constructor
  · intro other
    by_cases same : other = task
    · subst same
      simp [open_concat_about about]
    · have apart : Event.about realm ⟨.start, task, realm⟩ ≠ some other := by
        rw [about]
        exact fun equal => same (Option.some.inj equal).symm
      rw [Assoc.lookup_assign_other same, open_concat_other apart, tracks.keys]
  · intro entry inside
    rcases Assoc.mem_assign inside with rfl | before
    · exact readable
    · exact tracks.readable entry before

/-- An end drops its task. -/
theorem Tracks.drop {active : List (String × Json)} {events : List Event}
    (tracks : Tracks active events realm) (event : Event)
    (ends : event.kind = .complete ∨ event.kind = .fail) :
    Tracks (Assoc.remove event.task active) (events ++ [event]) realm := by
  have about : event.about realm = some event.task := by
    rcases ends with shape | shape <;> rw [Event.about, shape]
  have closes : event.kind ≠ .start := by
    rcases ends with shape | shape <;> rw [shape] <;> decide
  constructor
  · intro other
    by_cases same : other = event.task
    · subst same
      simp [open_concat_about about, closes]
    · have apart : event.about realm ≠ some other := by
        rw [about]
        exact fun equal => same (Option.some.inj equal).symm
      rw [Assoc.lookup_remove_other same, open_concat_other apart, tracks.keys]
  · intro entry inside
    exact tracks.readable entry (List.mem_of_mem_filter inside)

/-- A record of a start has a readable payload. -/
def Entry.Typed (env : Env) (entry : Entry) : Prop :=
  entry.kind = .start → Readable (parseJsonObj env entry.payload)

/-- What a view reads as the payload of a start is readable. -/
theorem Entry.Typed.plain {entry : Entry} (typed : entry.Typed env) (starts : entry.kind = .start) :
    Readable (parseJsonObj env entry.plainPayload) ∧
      startRealm env entry.plainPayload = .ok (realmOf env entry.plainPayload) := by
  have readable : Readable (parseJsonObj env entry.plainPayload) := by
    rw [Entry.plainPayload]
    cases entry.form with
    | plain => exact typed starts
    | text => exact readable_empty
    | bytes => exact readable_empty
  have read : ∃ realm, startRealm env entry.plainPayload = .ok realm := by
    obtain ⟨goal, realm, iterations, _, read, _⟩ := readable
    exact ⟨realm, read⟩
  obtain ⟨realm, read⟩ := read
  refine ⟨readable, ?_⟩
  rw [realmOf, read]
  rfl

/-- A record that is not wrapped is seen, and is its fields. -/
theorem Entry.seen_plain (entry : Entry) (env : Env) (plain : entry.wrapped = false) :
    (entry.seen env).toList = [⟨entry.kind, entry.entity, realmOf env entry.plainPayload⟩] ∧
      entry.json = entry.fields := by
  simp [Entry.seen, Entry.json, plain]

/-- One record of the scan keeps track of the events that it sees. -/
theorem scanActive_tracks {entry : Entry} (typed : entry.Typed env) (some_realm : realm ≠ "")
    {active : List (String × Json)} {events : List Event} (tracks : Tracks active events realm) :
    ∃ next, scanActive env realm active entry.json = .ok next ∧
      Tracks next (events ++ (entry.seen env).toList) realm := by
  cases wrapped : entry.wrapped with
  | true =>
    refine ⟨active, ?_, ?_⟩
    · rw [Entry.json, wrapped]
      rfl
    · simpa [Entry.seen, wrapped] using tracks
  | false =>
    obtain ⟨domain, kind, entity, payload⟩ := fields_read entry
    obtain ⟨seen, plain⟩ := entry.seen_plain env wrapped
    rw [seen, plain]
    simp only [scanActive, bind, Except.bind, pure, Except.pure, domain, kind, entity, payload]
    cases shape : entry.kind with
    | start =>
      obtain ⟨readable, read⟩ := typed.plain shape
      simp only [Kind.name, ne_eq, not_true_eq_false, ↓reduceIte, some_realm, read]
      by_cases own : realmOf env entry.plainPayload = realm
      · simp only [own, not_true_eq_false, ↓reduceIte]
        exact ⟨_, rfl, tracks.put entry.entity readable⟩
      · simp only [own, not_false_eq_true, ↓reduceIte]
        exact ⟨_, rfl, tracks.skip (by simp [Event.about, own])⟩
    | complete => exact ⟨_, rfl, tracks.drop ⟨_, _, _⟩ (.inl rfl)⟩
    | fail => exact ⟨_, rfl, tracks.drop ⟨_, _, _⟩ (.inr rfl)⟩
    | update => exact ⟨_, rfl, tracks.skip rfl⟩
    | checkpoint => exact ⟨_, rfl, tracks.skip rfl⟩

/-- The events that the views see. -/
def seenEvents (env : Env) (entries : List Entry) : List Event := entries.filterMap (Entry.seen env)

/-- What every record of a scan keeps about the events that are seen holds of the whole log. -/
theorem scan_keeps {State : Type} (kept : State → List Event → Prop)
    {scan : State → Json → Except Thrown State} {start : State} {entries : List Entry}
    (base : kept start [])
    (keep : ∀ entry ∈ entries, ∀ state events, kept state events →
      ∃ next, scan state entry.json = .ok next ∧ kept next (events ++ (entry.seen env).toList)) :
    ∃ state, (entries.map Entry.json).foldlM scan start = .ok state ∧
      kept state (seenEvents env entries) := by
  induction entries using List.reverseRecOn with
  | nil => exact ⟨start, rfl, base⟩
  | append_singleton entries entry ih =>
    have earlier := ih fun other inside => keep other (List.mem_append_left _ inside)
    obtain ⟨state, before, holds⟩ := earlier
    have last : entry ∈ entries ++ [entry] := List.mem_append_right _ List.mem_cons_self
    obtain ⟨next, now, later⟩ := keep entry last state _ holds
    refine ⟨next, ?_, ?_⟩
    · rw [List.map_append, List.foldlM_append, before]
      show (scan state entry.json >>= fun after => pure after) = _
      rw [now]
      rfl
    · have whole : seenEvents env (entries ++ [entry]) =
          seenEvents env entries ++ (entry.seen env).toList := by
        rw [seenEvents, List.filterMap_append]
        cases seen : entry.seen env <;> simp [seenEvents, seen]
      rw [whole]
      exact later

/-- The scan of the log collects the open tasks that it sees. -/
theorem scan_tracks {entries : List Entry} (typed : ∀ entry ∈ entries, entry.Typed env)
    (some_realm : realm ≠ "") :
    ∃ active, (entries.map Entry.json).foldlM (scanActive env realm) [] = .ok active ∧
      Tracks active (seenEvents env entries) realm := by
  apply scan_keeps fun active events => Tracks active events realm
  · exact ⟨fun task => by simp [Open, Assoc.lookup], by simp⟩
  · intro entry inside active events tracks
    exact scanActive_tracks (typed entry inside) some_realm tracks

/-! ## The task that was started last -/

/-- A start in the realm is the last one. -/
theorem lastStarted_start (events : List Event) (task : String) :
    lastStarted (events ++ [⟨.start, task, realm⟩]) realm = some task := by
  simp [lastStarted, Event.startsIn]

/-- Other events keep the last start. -/
theorem lastStarted_other {event : Event} (other : event.startsIn realm = false)
    (events : List Event) : lastStarted (events ++ [event]) realm = lastStarted events realm := by
  simp [lastStarted, other]

/-- The current task is the one that was started last, while it is open. -/
structure Latest (events : List Event) (realm current : String) : Prop where
  /-- It is open. -/
  started : ∀ task, lastStarted events realm = some task → Open events realm task → current = task
  /-- There is none. -/
  none : (∀ task, lastStarted events realm = some task → ¬ Open events realm task) → current = ""

/-- An event that is not about a task of the realm changes nothing. -/
theorem Latest.skip {events : List Event} {event : Event} {current : String}
    (latest : Latest events realm current) (silent : event.about realm = .none) :
    Latest (events ++ [event]) realm current := by
  have same : event.startsIn realm = false := by
    cases shape : event.kind with
    | start =>
      have foreign : event.realm ≠ realm := by
        intro own
        simp [Event.about, shape, own] at silent
      simp [Event.startsIn, foreign]
    | _ => simp [Event.startsIn, shape]
  have kept (task : String) : Open (events ++ [event]) realm task ↔ Open events realm task :=
    open_concat_other (by simp [silent]) events
  constructor
  · intro task last still
    rw [lastStarted_other same] at last
    exact latest.started task last ((kept task).mp still)
  · intro ended
    apply latest.none
    intro task last still
    rw [lastStarted_other same] at ended
    exact ended task last ((kept task).mpr still)

/-- A start in the realm is current. -/
theorem Latest.put (events : List Event) (task : String) :
    Latest (events ++ [⟨.start, task, realm⟩]) realm task := by
  have about : Event.about realm ⟨.start, task, realm⟩ = some task := if_pos rfl
  constructor
  · intro other last _
    rw [lastStarted_start] at last
    exact Option.some.inj last
  · intro ended
    exact absurd ((open_concat_about about events).mpr rfl)
      (ended task (lastStarted_start events task))

/-- An end of the current task leaves none. -/
theorem Latest.drop {events : List Event} {current : String}
    (latest : Latest events realm current) (event : Event)
    (ends : event.kind = .complete ∨ event.kind = .fail) :
    Latest (events ++ [event]) realm (if event.task = current then "" else current) := by
  have about : event.about realm = some event.task := by
    rcases ends with shape | shape <;> rw [Event.about, shape]
  have closes : event.kind ≠ .start := by
    rcases ends with shape | shape <;> rw [shape] <;> decide
  have same : event.startsIn realm = false := by simp [Event.startsIn, closes]
  have kept (task : String) :
      Open (events ++ [event]) realm task ↔ Open events realm task ∧ task ≠ event.task := by
    by_cases own : task = event.task
    · subst own
      simp [open_concat_about about, closes]
    · have apart : event.about realm ≠ some task := by
        rw [about]
        exact fun equal => own (Option.some.inj equal).symm
      simp [open_concat_other apart, own]
  constructor
  · intro task last still
    rw [lastStarted_other same] at last
    obtain ⟨before, apart⟩ := (kept task).mp still
    have current_eq := latest.started task last before
    rw [current_eq, if_neg apart.symm]
  · intro ended
    by_cases here : event.task = current
    · rw [if_pos here]
    · rw [if_neg here]
      apply latest.none
      intro task last before
      have current_eq := latest.started task last before
      rw [lastStarted_other same] at ended
      exact ended task last
        ((kept task).mpr ⟨before, fun equal => here (by rw [← equal, current_eq])⟩)

/-- One record of the scan keeps the task that was started last. -/
theorem scanLast_latest {entry : Entry} (typed : entry.Typed env) (some_realm : realm ≠ "")
    {current : String} {events : List Event} (latest : Latest events realm current) :
    ∃ next, scanLast env realm current entry.json = .ok next ∧
      Latest (events ++ (entry.seen env).toList) realm next := by
  cases wrapped : entry.wrapped with
  | true =>
    refine ⟨current, ?_, ?_⟩
    · rw [Entry.json, wrapped]
      rfl
    · simpa [Entry.seen, wrapped] using latest
  | false =>
    obtain ⟨domain, kind, entity, payload⟩ := fields_read entry
    obtain ⟨seen, plain⟩ := entry.seen_plain env wrapped
    rw [seen, plain]
    simp only [scanLast, bind, Except.bind, pure, Except.pure, domain, kind, entity, payload]
    cases shape : entry.kind with
    | start =>
      obtain ⟨_, read⟩ := typed.plain shape
      simp only [Kind.name, ne_eq, not_true_eq_false, ↓reduceIte, some_realm, read, or_false]
      by_cases own : realmOf env entry.plainPayload = realm
      · simp only [own, ↓reduceIte]
        exact ⟨_, rfl, Latest.put events entry.entity⟩
      · simp only [own, ↓reduceIte]
        exact ⟨_, rfl, latest.skip (by simp [Event.about, own])⟩
    | complete => exact ⟨_, rfl, latest.drop ⟨_, _, _⟩ (.inl rfl)⟩
    | fail => exact ⟨_, rfl, latest.drop ⟨_, _, _⟩ (.inr rfl)⟩
    | update => exact ⟨_, rfl, latest.skip rfl⟩
    | checkpoint => exact ⟨_, rfl, latest.skip rfl⟩

/-- The scan of the log finds the task that was started last, while it is open. -/
theorem scan_latest {entries : List Entry} (typed : ∀ entry ∈ entries, entry.Typed env)
    (some_realm : realm ≠ "") :
    ∃ current, (entries.map Entry.json).foldlM (scanLast env realm) "" = .ok current ∧
      Latest (seenEvents env entries) realm current := by
  apply scan_keeps fun current events => Latest events realm current
  · exact ⟨fun task last => by simp [lastStarted] at last, fun _ => rfl⟩
  · intro entry inside current events latest
    exact scanLast_latest (typed entry inside) some_realm latest

/-! ## The views -/

/-- The payloads in the task store are readable. -/
def StoredReadable (env : Env) (world : World) : Prop :=
  ∀ taskId, ∃ stored,
    (parseJsonObj env (((Assoc.lookup taskId world.tasks).map (env.taskText taskId)).getD
      "")).valueString "payload" "" = .ok stored ∧ Readable (parseJsonObj env stored)

/-- A field that is read with one fallback is read with every other. -/
theorem valueWith_fallback {α : Type} {get : Json → Except Thrown α} {json : Json} {key : String}
    {fallback value : α} (read : json.valueWith get key fallback = .ok value) (other : α) :
    ∃ result, json.valueWith get key other = .ok result := by
  cases json with
  | obj fields =>
    rw [Json.valueWith] at read ⊢
    cases found : Assoc.lookup key fields with
    | none => exact ⟨other, rfl⟩
    | some present =>
      rw [found] at read
      exact ⟨value, read⟩
  | _ => contradiction

/-- There is a report about every task. -/
theorem reportActive_ok {world : World} (stored : StoredReadable env world) {payload : Json}
    (readable : Readable payload) (taskId : String) :
    ∃ report, reportActive env world taskId payload = .ok report ∧ report.taskId = taskId := by
  obtain ⟨text, storedRead, current⟩ := stored taskId
  obtain ⟨goal, realm, _, goalRead, realmRead, _⟩ := readable
  obtain ⟨_, _, iterations, currentGoal, currentRealm, iterationsRead⟩ := current
  obtain ⟨shownGoal, goalShown⟩ := valueWith_fallback currentGoal goal
  obtain ⟨shownRealm, realmShown⟩ := valueWith_fallback currentRealm realm
  refine ⟨⟨taskId, shownGoal, shownRealm, iterations⟩, ?_, rfl⟩
  rw [← Json.valueString] at goalShown realmShown
  simp only [reportActive, bind, Except.bind, pure, Except.pure, storedRead, goalRead, goalShown,
    realmRead, realmShown, iterationsRead]

/-- The arguments name a realm, and the others that are read have their types. -/
structure Asks (params : Json) (realm : String) : Prop where
  /-- The realm. -/
  realm : params.valueString "realm" "" = .ok realm ∧ realm ≠ ""
  /-- The mood. -/
  mood : ∃ mood, params.valueString "mood" "flowing" = .ok mood
  /-- The summary. -/
  summary : ∃ summary, params.valueString "summary" "" = .ok summary

/-- A realm that is named does not depend on the fallback. -/
theorem Asks.fallback {params : Json} (asks : Asks params realm) (other : String) :
    params.valueString "realm" other = .ok realm := by
  obtain ⟨read, named⟩ := asks.realm
  cases params with
  | obj fields =>
    rw [Json.valueString, Json.valueWith] at read ⊢
    cases found : Assoc.lookup "realm" fields with
    | none =>
      rw [found] at read
      exact absurd (Except.ok.inj read).symm named
    | some value =>
      rw [found] at read
      exact read
  | _ => contradiction

/-- The tool takes an entry of the map, at the place that comes first. -/
theorem active_eq {entries : List Entry} {world : World} {params : Json}
    (typed : ∀ entry ∈ entries, entry.Typed env) (asks : Asks params realm)
    (stored : StoredReadable env world) (log : world.log = entries.map Entry.json) :
    ∃ active, Tracks active (seenEvents env entries) realm ∧
      ∀ first, match active[first (active.map (·.1)) % active.length]? with
        | none => toolLongTaskActive env first params world = .ok none
        | some (taskId, _) => ∃ report,
          toolLongTaskActive env first params world = .ok (some report) ∧
            report.taskId = taskId := by
  obtain ⟨active, scanned, tracks⟩ := scan_tracks typed asks.realm.2
  refine ⟨active, tracks, fun first => ?_⟩
  cases taken : active[first (active.map (·.1)) % active.length]? with
  | none =>
    simp only [toolLongTaskActive, bind, Except.bind, pure, Except.pure, asks.realm.1, log, scanned,
      taken]
  | some entry =>
    obtain ⟨taskId, payload⟩ := entry
    have readable := tracks.readable _ (List.mem_of_getElem? taken)
    obtain ⟨report, reported, named⟩ := reportActive_ok stored readable taskId
    refine ⟨report, ?_, named⟩
    simp only [toolLongTaskActive, bind, Except.bind, pure, Except.pure, asks.realm.1, log, scanned,
      taken, reported]

/-- A key of a map is looked up. -/
theorem lookup_isSome_of_mem {entries : List (String × Json)} {entry : String × Json}
    (inside : entry ∈ entries) : (Assoc.lookup entry.1 entries).isSome := by
  induction entries with
  | nil => contradiction
  | cons first rest ih =>
    rw [Assoc.lookup]
    split
    · rfl
    · rename_i apart
      rcases List.mem_cons.mp inside with rfl | later
      · exact absurd rfl apart
      · exact ih later

/-- The tool reports a task that is open, in some order of the map each of them. -/
theorem active_reports {entries : List Entry} {world : World} {params : Json}
    (typed : ∀ entry ∈ entries, entry.Typed env) (asks : Asks params realm)
    (stored : StoredReadable env world) (log : world.log = entries.map Entry.json) :
    (∀ first, (∃ report, toolLongTaskActive env first params world = .ok (some report)) ↔
      ∃ task, Open (seenEvents env entries) realm task) ∧
    ∀ task, (∃ first report, toolLongTaskActive env first params world = .ok (some report) ∧
      report.taskId = task) ↔ Open (seenEvents env entries) realm task := by
  obtain ⟨active, tracks, taken⟩ := active_eq typed asks stored log
  have reports (first : List String → Nat) (report : Active)
      (reported : toolLongTaskActive env first params world = .ok (some report)) :
      Open (seenEvents env entries) realm report.taskId := by
    have here := taken first
    cases entry : active[first (active.map (·.1)) % active.length]? with
    | none =>
      rw [entry] at here
      rw [here] at reported
      exact absurd (Except.ok.inj reported) (by simp)
    | some pair =>
      rw [entry] at here
      obtain ⟨other, reportedOther, named⟩ := here
      rw [reportedOther] at reported
      have same : other = report := Option.some.inj (Except.ok.inj reported)
      rw [← same, named, ← tracks.keys]
      exact lookup_isSome_of_mem (List.mem_of_getElem? entry)
  constructor
  · intro first
    constructor
    · rintro ⟨report, reported⟩
      exact ⟨report.taskId, reports first report reported⟩
    · rintro ⟨task, still⟩
      have here := taken first
      have some_entry : 0 < active.length := by
        apply List.length_pos_of_ne_nil
        rintro rfl
        have missing := (tracks.keys task).mpr still
        simp [Assoc.lookup] at missing
      have bound : first (active.map (·.1)) % active.length < active.length :=
        Nat.mod_lt _ some_entry
      rw [List.getElem?_eq_getElem bound] at here
      obtain ⟨report, reported, _⟩ := here
      exact ⟨report, reported⟩
  · intro task
    constructor
    · rintro ⟨first, report, reported, rfl⟩
      exact reports first report reported
    · intro still
      obtain ⟨payload, found⟩ := Option.isSome_iff_exists.mp ((tracks.keys task).mpr still)
      obtain ⟨place, bound, there⟩ := List.mem_iff_getElem.mp (Assoc.mem_of_lookup found)
      have here := taken fun _ => place
      rw [Nat.mod_eq_of_lt bound, List.getElem?_eq_getElem bound, there] at here
      obtain ⟨report, reported, named⟩ := here
      exact ⟨_, report, reported, named⟩

/-- The checkpoint is recorded on a long task. -/
def RecordsOn (env : Env) (params : Json) (world : World) (taskId : String) : Prop :=
  ∃ payload, (toolUnifiedCheckpoint env params world).2.log =
    world.log ++ [env.record "long_task" "checkpoint" taskId payload]

/-- Noting a summary keeps the log. -/
theorem noteSummary_keeps (taskId summary : String) (log : List Json) :
    Throwing.Keeps (fun world : World => world.log = log) (noteSummary env taskId summary) := by
  rw [noteSummary]
  apply Throwing.Keeps.ite
  · exact Throwing.Keeps.pure _
  · apply Throwing.Keeps.bind
    · exact fun world same => same
    · intro raw
      apply Throwing.Keeps.ite
      · exact Throwing.Keeps.pure _
      · refine Throwing.Keeps.lift_bind fun text _ => ?_
        refine Throwing.Keeps.lift_bind fun payload _ => ?_
        intro world same
        rw [taskUpdatePayload]
        cases Assoc.lookup taskId world.tasks with
        | none => exact same
        | some task =>
          dsimp only
          split
          · exact same
          · exact same

/-- What the tool appends to the log. -/
theorem checkpoint_log {world : World} {params : Json} {current : String} (asks : Asks params realm)
    (scanned : world.log.foldlM (scanLast env realm) "" = .ok current)
    (emits : env.emits world.log = true) :
    ∃ kind payload, (toolUnifiedCheckpoint env params world).2.log = world.log ++
      [if current ≠ "" then env.record "long_task" "checkpoint" current payload
        else env.record "ledger" "save" kind payload] := by
  obtain ⟨mood, moodRead⟩ := asks.mood
  obtain ⟨summary, summaryRead⟩ := asks.summary
  let scan : Program String := fun world => (world.log.foldlM (scanLast env realm) "", world)
  have found : scan world = (.ok current, world) := by
    show (world.log.foldlM (scanLast env realm) "", world) = _
    rw [scanned]
  rw [toolUnifiedCheckpoint, Throwing.bind_lift (asks.fallback "brahman"),
    Throwing.bind_lift moodRead, Throwing.bind_lift summaryRead, Throwing.bind_of_ok found]
  by_cases some_task : current ≠ ""
  · simp only [if_pos some_task]
    have emitted (payload : Json) : emitEvent env "long_task" "checkpoint" current payload world =
        (.ok world.log.length, { world with log := world.log ++
          [env.record "long_task" "checkpoint" current (env.dump payload)] }) := if_pos emits
    rw [Throwing.bind_of_ok (emitted _)]
    refine ⟨"", _, Throwing.Keeps.bind (noteSummary_keeps current summary _) ?_ _ rfl⟩
    intro noted
    exact Throwing.Keeps.ite (Throwing.Keeps.pure _) (Throwing.Keeps.pure _)
  · simp only [if_neg some_task]
    have emitted (key : String) (payload : Json) : emitEvent env "ledger" "save" key payload world =
        (.ok world.log.length, { world with log := world.log ++
          [env.record "ledger" "save" key (env.dump payload)] }) := if_pos emits
    rw [Throwing.bind_of_ok (emitted _ _)]
    exact ⟨_, _, rfl⟩

/-- The checkpoint is recorded on the task that the scan has found. -/
theorem recordsOn_iff {world : World} {params : Json} {current : String} (asks : Asks params realm)
    (scanned : world.log.foldlM (scanLast env realm) "" = .ok current)
    (emits : env.emits world.log = true) (task : String) :
    RecordsOn env params world task ↔ current = task ∧ task ≠ "" := by
  obtain ⟨kind, payload, written⟩ := checkpoint_log asks scanned emits
  rw [RecordsOn, written]
  by_cases some_task : current ≠ ""
  · rw [if_pos some_task]
    constructor
    · rintro ⟨other, same⟩
      have records := List.append_cancel_left same
      have entity := (env.record_inj (List.cons.inj records).1).2
      exact ⟨entity, entity ▸ some_task⟩
    · rintro ⟨rfl, _⟩
      exact ⟨payload, rfl⟩
  · rw [if_neg some_task]
    rw [not_not] at some_task
    constructor
    · rintro ⟨other, same⟩
      have records := List.append_cancel_left same
      have domain := (env.record_inj (List.cons.inj records).1).1
      exact absurd domain (by decide)
    · rintro ⟨rfl, named⟩
      exact absurd some_task named

/-- The two views agree about a realm: they find a task exactly when one is open, and an open one,
in whatever order the map is. -/
structure ViewsAgree (env : Env) (entries : List Entry) (realm : String) (params : Json)
    (world : World) : Prop where
  /-- `long_task_active` finds a task. -/
  found : ∀ first, (∃ report, toolLongTaskActive env first params world = .ok (some report)) ↔
    ∃ task, Open (entries.map (Entry.event env)) realm task
  /-- It is open. -/
  found_open : ∀ first report, toolLongTaskActive env first params world = .ok (some report) →
    Open (entries.map (Entry.event env)) realm report.taskId
  /-- `unified_checkpoint` records on a task. -/
  recorded : (∃ task, RecordsOn env params world task) ↔
    ∃ task, Open (entries.map (Entry.event env)) realm task
  /-- It is open. -/
  recorded_open : ∀ task, RecordsOn env params world task →
    Open (entries.map (Entry.event env)) realm task

/-- The records that are seen tell what the log says: a task that they leave open is open, and when
any task is open, the one that they start last in the realm is left open by them. -/
structure Telling (env : Env) (entries : List Entry) (realm : String) : Prop where
  /-- What is seen open is open. -/
  sound : ∀ task, Open (seenEvents env entries) realm task →
    Open (entries.map (Entry.event env)) realm task
  /-- The task that is seen to start last is open. -/
  last : (∃ task, Open (entries.map (Entry.event env)) realm task) →
    ∃ task, task ≠ "" ∧ lastStarted (seenEvents env entries) realm = some task ∧
      Open (seenEvents env entries) realm task

/-- The views of the active task agree about a realm if and only if the records that they see tell
what the log says. -/
theorem views_agree_iff {entries : List Entry} {world : World} {params : Json}
    (typed : ∀ entry ∈ entries, entry.Typed env) (asks : Asks params realm)
    (stored : StoredReadable env world) (log : world.log = entries.map Entry.json)
    (emits : env.emits world.log = true) :
    ViewsAgree env entries realm params world ↔ Telling env entries realm := by
  obtain ⟨finds, reports⟩ := active_reports typed asks stored log
  obtain ⟨current, scanned, latest⟩ := scan_latest typed asks.realm.2
  rw [← log] at scanned
  have records := recordsOn_iff asks scanned emits
  constructor
  · intro agree
    constructor
    · intro task still
      obtain ⟨first, report, reported, rfl⟩ := (reports task).mpr still
      exact agree.found_open first report reported
    · intro some_open
      obtain ⟨task, recorded⟩ := agree.recorded.mpr some_open
      obtain ⟨rfl, named⟩ := (records task).mp recorded
      have started : ∃ task, lastStarted (seenEvents env entries) realm = some task ∧
          Open (seenEvents env entries) realm task := by
        by_contra none_open
        push Not at none_open
        exact named (latest.none none_open)
      obtain ⟨task, last, still⟩ := started
      have same := latest.started task last still
      exact ⟨current, named, same ▸ last, same ▸ still⟩
  · intro telling
    have recorded_open : ∀ task, RecordsOn env params world task →
        Open (entries.map (Entry.event env)) realm task := by
      intro task recorded
      obtain ⟨rfl, named⟩ := (records task).mp recorded
      by_contra closed
      apply named
      apply latest.none
      intro task last still
      rw [← latest.started task last still] at still
      exact closed (telling.sound current still)
    constructor
    · intro first
      rw [finds first]
      constructor
      · rintro ⟨task, still⟩
        exact ⟨task, telling.sound task still⟩
      · intro some_open
        obtain ⟨task, _, _, still⟩ := telling.last some_open
        exact ⟨task, still⟩
    · intro first report reported
      exact telling.sound report.taskId ((reports report.taskId).mp ⟨first, report, reported, rfl⟩)
    · constructor
      · rintro ⟨task, recorded⟩
        exact ⟨task, recorded_open task recorded⟩
      · intro some_open
        obtain ⟨task, named, last, still⟩ := telling.last some_open
        exact ⟨task, (records task).mpr ⟨latest.started task last still, named⟩⟩
    · exact recorded_open

/-! ## Logs of one form -/

/-- A record in the form that the views read. -/
def Entry.Plain (entry : Entry) : Prop :=
  entry.wrapped = false ∧ entry.inTarget = false ∧ entry.form = .plain

/-- Everything is seen in a log of plain records. -/
theorem seenEvents_plain {entries : List Entry} (plain : ∀ entry ∈ entries, entry.Plain) :
    seenEvents env entries = entries.map (Entry.event env) := by
  induction entries with
  | nil => rfl
  | cons entry rest ih =>
    obtain ⟨wrapped, inTarget, form⟩ := plain entry List.mem_cons_self
    have seen : entry.seen env = some (entry.event env) := by
      simp [Entry.seen, Entry.event, Entry.entity, Entry.plainPayload, wrapped, inTarget, form]
    have later := ih fun other inside => plain other (List.mem_cons_of_mem _ inside)
    rw [seenEvents] at later
    rw [seenEvents, List.filterMap_cons_some seen, later, List.map_cons]

/-- A log of plain records tells what it says if and only if the task that was started last is open
whenever any is. -/
theorem telling_plain_iff {entries : List Entry} (plain : ∀ entry ∈ entries, entry.Plain) :
    Telling env entries realm ↔ ((∃ task, Open (entries.map (Entry.event env)) realm task) →
      ∃ task, task ≠ "" ∧ lastStarted (entries.map (Entry.event env)) realm = some task ∧
        Open (entries.map (Entry.event env)) realm task) := by
  have seen : seenEvents env entries = entries.map (Entry.event env) := seenEvents_plain plain
  constructor
  · intro telling
    rw [← seen]
    intro some_open
    exact telling.last (seen ▸ some_open)
  · intro last
    exact ⟨fun task still => seen ▸ still, fun some_open => by rw [seen]; exact last some_open⟩

/-- Wrapped records tell nothing: the views agree as long as no task is open. -/
theorem telling_wrapped_iff {entries : List Entry}
    (wrapped : ∀ entry ∈ entries, entry.wrapped = true) :
    Telling env entries realm ↔ ∀ task, ¬ Open (entries.map (Entry.event env)) realm task := by
  have seen : seenEvents env entries = [] := by
    rw [seenEvents, List.filterMap_eq_nil_iff]
    intro entry inside
    simp [Entry.seen, wrapped entry inside]
  constructor
  · intro telling task still
    obtain ⟨other, _, last, _⟩ := telling.last ⟨task, still⟩
    simp [seen, lastStarted] at last
  · intro none_open
    constructor
    · intro task still
      simp [seen, Open] at still
    · rintro ⟨task, still⟩
      exact absurd still (none_open task)

/-! ## Two tasks in a realm -/

/-- The text of the payload of the sample tasks. -/
def viewPayload : String := "\x7b\"goal\":\"index\",\"realm\":\"r\"\x7d"

/-- A record in the form that the views read tells its domain and entity. -/
theorem viewRecord_inj {domain kind entity payload domain' kind' entity' payload' : String}
    (same : Json.obj [("domain", .str domain), ("entity_id", .str entity), ("kind", .str kind),
        ("payload", .str payload)] =
      .obj [("domain", .str domain'), ("entity_id", .str entity'), ("kind", .str kind'),
        ("payload", .str payload')]) : domain = domain' ∧ entity = entity' := by
  simp_all

/-- A store without tasks whose log has the form that the views read. -/
def viewEnv : Env where
  parse text :=
    if text = viewPayload then some (.object [("goal", .str "index"), ("realm", .str "r")])
    else none
  dump _ := "\x7b\x7d"
  taskText _ _ := ""
  updates _ _ _ := true
  transition _ _ _ := none
  emits _ := true
  record domain kind entity payload := .obj [("domain", .str domain), ("entity_id", .str entity),
    ("kind", .str kind), ("payload", .str payload)]
  record_inj same := viewRecord_inj same
  time := 0

/-- A record in the plain form. -/
def plainEntry (kind : Kind) (task : String) : Entry :=
    ⟨kind, task, viewPayload, false, false, .plain⟩

/-- The sample records have readable payloads. -/
theorem plainEntry_typed (kind : Kind) (task : String) : (plainEntry kind task).Typed viewEnv := by
  intro _
  exact ⟨"index", "r", 0, rfl, rfl, rfl⟩

/-- The arguments of the sample calls. -/
def viewParams : Json := .object [("realm", .str "r")]

/-- The arguments name the realm. -/
theorem viewParams_asks : Asks viewParams "r" :=
  ⟨⟨rfl, by decide⟩, ⟨"flowing", rfl⟩, ⟨"", rfl⟩⟩

/-- The store without tasks is readable. -/
theorem view_stored (log : List Json) : StoredReadable viewEnv ⟨[], log⟩ :=
  fun _ => ⟨"", rfl, readable_empty⟩

/-- A task has started and is completed, and another one has started. -/
def startedLast : List Entry :=
  [plainEntry .start "a", plainEntry .complete "a", plainEntry .start "b"]

/-- The views agree about the task that has started last. -/
theorem views_agree_started : ViewsAgree viewEnv startedLast "r" viewParams
    ⟨[], startedLast.map Entry.json⟩ := by
  have typed : ∀ entry ∈ startedLast, entry.Typed viewEnv := by
    simp only [startedLast, List.forall_mem_cons, List.not_mem_nil, false_imp_iff, implies_true,
      and_true]
    exact ⟨plainEntry_typed _ _, plainEntry_typed _ _, plainEntry_typed _ _⟩
  apply (views_agree_iff typed viewParams_asks (view_stored _) rfl rfl).mpr
  apply (telling_plain_iff (by simp [startedLast, Entry.Plain, plainEntry])).mpr
  intro _
  exact ⟨"b", by decide, rfl, ⟨.start, "b", "r"⟩, by decide, rfl⟩

/-- Two tasks start and the second one is completed: the first one is open, and the checkpoint goes
to the ledger. -/
theorem open_task_passed_over : ¬ ∀ (env : Env) (entries : List Entry) (realm : String)
    (params : Json) (world : World), (∀ entry ∈ entries, entry.Typed env) → Asks params realm →
    StoredReadable env world → world.log = entries.map Entry.json → env.emits world.log = true →
      ViewsAgree env entries realm params world := by
  intro claim
  have typed : ∀ entry ∈ [plainEntry .start "a", plainEntry .start "b", plainEntry .complete "b"],
      entry.Typed viewEnv := by
    simp only [List.forall_mem_cons, List.not_mem_nil, false_imp_iff, implies_true, and_true]
    exact ⟨plainEntry_typed _ _, plainEntry_typed _ _, plainEntry_typed _ _⟩
  have agree := claim viewEnv _ "r" viewParams ⟨[], _⟩ typed viewParams_asks (view_stored _) rfl rfl
  have recorded := agree.recorded.mpr ⟨"a", ⟨.start, "a", "r"⟩, by decide, rfl⟩
  obtain ⟨task, on⟩ := recorded
  obtain ⟨none, named⟩ := (recordsOn_iff viewParams_asks (by rfl) rfl task).mp on
  exact named none.symm

end Chitta.LongTask
