import Mathlib.Data.List.Pairwise
import Chitta.Checkpoint.Tools

/-!
# The readers of checkpoints

Saves, deletes and events of other kinds in any order leave a log, from which three tools rebuild
the checkpoints. `load` and `get` look for the last save of a key and do not see tombstones; `list`
never forgets a tombstone. What the readers should show is the shelf of the writes.
-/
namespace Chitta.Checkpoint

open EventLog Newest

/-- Whether an event is about checkpoints. -/
def isCheckpoint (event : Event) : Bool :=
  event.isOf "ledger" "save" || event.isOf "ledger" "delete"

/-- An operation on the event store. -/
inductive Op where
  /-- A call of `ledger_save`. -/
  | save (params : Json)
  /-- A call of `ledger_delete`. -/
  | delete (params : Json)
  /-- An event about something else. -/
  | emit (event : Event) (foreign : isCheckpoint event = false)

/-- The log behind an operation; a tool that throws leaves it alone. -/
def Op.run (env : Env) (log : Log) : Op → Log
  | .save params => match toolLedgerSave env params log with
    | .ok (written, _) => written
    | .error _ => log
  | .delete params => match toolLedgerDelete params log with
    | .ok (written, _) => written
    | .error _ => log
  | .emit event _ => log ++ [event]

/-- The log that a history of operations leaves. -/
def logOf (env : Env) (history : List Op) : Log := history.foldl (Op.run env) []

/-- What an operation writes. -/
def Op.write (env : Env) : Op → Option (Write Args String)
  | .save params => match saveArgs env params with
    | .ok args => some (.put args)
    | .error _ => none
  | .delete params => match requestKey params with
    | .ok (some key) => some (.drop key)
    | _ => none
  | .emit _ _ => none

/-- The writes of a history. -/
def writesOf (env : Env) (history : List Op) : List (Write Args String) :=
  history.filterMap (Op.write env)

/-- The checkpoints: the arguments of the last save of every key that was not deleted since, the
newest first. -/
def checkpoints (env : Env) (history : List Op) : List Args :=
  shelf Args.key (writesOf env history)

/-- What `load` and `get` should show of a checkpoint. -/
def Args.shown (args : Args) (includeSnapshot : Bool) : Shown where
  sessionId := args.sessionId
  project := args.project
  transcriptPath := args.transcriptPath
  mood := args.mood
  coherence := args.coherence
  confidence := args.confidence
  snapshot := if includeSnapshot then truncateSnapshot args.snapshot else []
  snapshotTruncated := decide (2000 < args.snapshot.utf8ByteSize)
  todos := args.todos
  activeFiles := args.activeFiles
  decisions := args.decisions
  nextSteps := args.nextSteps
  blockers := args.blockers
  discoveries := args.discoveries

/-- What `list` should show of a checkpoint. -/
def Args.row (args : Args) : ListRow := ⟨args.key, args.sessionId, args.project, args.mood⟩

/-- Whether a checkpoint names a project. -/
def Args.isOf (project : String) (args : Args) : Bool := args.project = project

/-- The checkpoint that `load` should show: that of the key, and without a session the newest of the
project. -/
def loadable (current : List Args) (sessionId project : String) : Option Args :=
  match current.find? (has Args.key (ledgerKey sessionId project)) with
  | some args => some args
  | none => if sessionId = "" ∧ project ≠ "" then current.find? (Args.isOf project) else none

/-- The three readers show the checkpoints. -/
structure Agrees (env : Env) (history : List Op) : Prop where
  /-- `list` without a project, with a limit that covers them. -/
  list : ∀ params limit, params.valueString "project" "" = .ok "" →
    params.valueWith Json.getInt "limit" 10 = .ok limit →
    (checkpoints env history).length ≤ toSize limit →
    toolLedgerList params (logOf env history) = .ok (.ok ((checkpoints env history).map Args.row))
  /-- `get` of any key. -/
  get : ∀ params key includeSnapshot, requestKey params = .ok (some key) →
    params.valueWith Json.getBool "include_snapshot" false = .ok includeSnapshot →
    toolLedgerGet env params (logOf env history) =
      .ok (match (checkpoints env history).find? (has Args.key key) with
        | some args => .ok (key, args.shown includeSnapshot)
        | none => .error ("Checkpoint not found: " ++ key))
  /-- `load` of any session and project. -/
  load : ∀ params sessionId project includeSnapshot,
    params.valueString "session_id" "" = .ok sessionId →
    params.valueString "project" "" = .ok project →
    params.valueWith Json.getBool "include_snapshot" false = .ok includeSnapshot →
    toolLedgerLoad env params (logOf env history) =
      .ok (.ok ((loadable (checkpoints env history) sessionId project).map
        (·.shown includeSnapshot)))

/-- A checkpoint whose floats have a text. -/
def Args.Finite (args : Args) : Prop := args.coherence ≠ none ∧ args.confidence ≠ none

/-- The histories that the readers agree on. -/
structure Coherent (env : Env) (history : List Op) : Prop where
  /-- No key is both saved and deleted. -/
  apart : ∀ args ∈ puts (writesOf env history), Write.drop args.key ∉ writesOf env history
  /-- The coherence and the confidence of the checkpoints are finite floats. -/
  finite : ∀ args ∈ checkpoints env history, args.Finite
  /-- The newest save of a project without a session is among the 200 newest saves and was not
  replaced by a save of another project under the same key; or it is older and no checkpoint
  names the project. -/
  recent : ∀ project ≠ "",
    (∀ args ∈ puts (writesOf env history), args.key ≠ ledgerKey "" project) →
    ∀ newer args older, puts (writesOf env history) = newer ++ args :: older →
    args.project = project → (∀ other ∈ newer, other.project ≠ project) →
    (newer.length < 200 ∧ ∀ other ∈ newer, other.key ≠ args.key) ∨
      (200 ≤ newer.length ∧ ∀ current ∈ checkpoints env history, current.project ≠ project)

/-! ## The log of a history -/

/-- The event of a write. -/
def eventOf : Write Args String → Event
  | .put args => ⟨"ledger", "save", args.key, some args.payload⟩
  | .drop key => ⟨"ledger", "delete", key, none⟩

/-- The floats of the arguments are floats. -/
def Args.Rounded (env : Env) (args : Args) : Prop :=
  (∀ value, args.coherence = some value → env.round value = some value) ∧
    ∀ value, args.confidence = some value → env.round value = some value

variable {env : Env}

/-- What is read as a float is one. -/
theorem getSingle_round {params : Json} {key : String} {single : Single}
    (read : params.valueWith (getSingle env) key (env.round 0) = .ok single) :
    ∀ value, single = some value → env.round value = some value := by
  have rounded : ∃ number, single = env.round number := by
    cases params with
    | obj fields =>
      simp only [Json.valueWith] at read
      cases found : Assoc.lookup key fields with
      | none =>
        rw [found] at read
        exact ⟨0, (Except.ok.inj read).symm⟩
      | some field =>
        rw [found] at read
        cases field with
        | int value => exact ⟨value, (Except.ok.inj read).symm⟩
        | float value => exact ⟨value, (Except.ok.inj read).symm⟩
        | bool value => exact ⟨_, (Except.ok.inj read).symm⟩
        | _ => contradiction
    | _ => contradiction
  obtain ⟨number, rfl⟩ := rounded
  intro value same
  exact env.round_round same

/-- The arguments of a request have floats. -/
theorem saveArgs_rounded {params : Json} {args : Args} (read : saveArgs env params = .ok args) :
    args.Rounded env := by
  obtain ⟨project, _, read⟩ := bind_ok read
  obtain ⟨transcriptPath, _, read⟩ := bind_ok read
  obtain ⟨mood, _, read⟩ := bind_ok read
  obtain ⟨coherence, coherenceRead, read⟩ := bind_ok read
  obtain ⟨confidence, confidenceRead, read⟩ := bind_ok read
  obtain ⟨snapshot, _, read⟩ := bind_ok read
  obtain rfl := Except.ok.inj read
  exact ⟨getSingle_round coherenceRead, getSingle_round confidenceRead⟩

/-- The saved arguments have floats. -/
theorem rounded_of_mem {history : List Op} {args : Args}
    (inside : args ∈ puts (writesOf env history)) : args.Rounded env := by
  rw [mem_puts, writesOf, List.mem_filterMap] at inside
  obtain ⟨op, _, written⟩ := inside
  cases op with
  | save params =>
    simp only [Op.write] at written
    split at written
    · rename_i read
      obtain rfl := Write.put.inj (Option.some.inj written)
      exact saveArgs_rounded read
    · contradiction
  | delete params =>
    simp only [Op.write] at written
    split at written
    · cases written
    · contradiction
  | emit event foreign => contradiction

/-- An operation appends the event of its write, or another event, or nothing. -/
theorem run_cases (env : Env) (log : Log) (op : Op) :
    (∃ write, op.write env = some write ∧ op.run env log = log ++ [eventOf write]) ∨
      (op.write env = none ∧ ∃ event : Event, isCheckpoint event = false ∧
        op.run env log = log ++ [event]) ∨
      (op.write env = none ∧ op.run env log = log) := by
  cases op with
  | save params =>
    simp only [Op.write, Op.run, toolLedgerSave]
    cases saveArgs env params with
    | ok args => exact .inl ⟨.put args, rfl, rfl⟩
    | error thrown => exact .inr (.inr ⟨rfl, rfl⟩)
  | delete params =>
    simp only [Op.write, Op.run, toolLedgerDelete]
    cases requestKey params with
    | ok named =>
      cases named with
      | some key => exact .inl ⟨.drop key, rfl, rfl⟩
      | none => exact .inr (.inr ⟨rfl, rfl⟩)
    | error thrown => exact .inr (.inr ⟨rfl, rfl⟩)
  | emit event foreign => exact .inr (.inl ⟨rfl, event, foreign, rfl⟩)

/-- What holds of the empty log, and is kept by the events of writes and by other events, holds of
every log of a history. -/
theorem logOf_induction {motive : Log → List (Write Args String) → Prop}
    (initial : motive [] [])
    (written : ∀ log writes write, motive log writes →
      motive (log ++ [eventOf write]) (writes ++ [write]))
    (foreign : ∀ log writes event, isCheckpoint event = false → motive log writes →
      motive (log ++ [event]) writes) (history : List Op) :
    motive (logOf env history) (writesOf env history) := by
  induction history using List.reverseRecOn with
  | nil => exact initial
  | append_singleton history op ih =>
    have run : logOf env (history ++ [op]) = op.run env (logOf env history) := by
      simp [logOf, List.foldl_append]
    have wrote : writesOf env (history ++ [op]) =
        writesOf env history ++ (op.write env).toList := by
      rw [writesOf, List.filterMap_append]
      cases found : op.write env with
      | none => simp [found, writesOf]
      | some write => simp [found, writesOf]
    rw [run, wrote]
    rcases run_cases env (logOf env history) op with
      ⟨write, writes, appended⟩ | ⟨nothing, event, other, appended⟩ | ⟨nothing, same⟩
    · rw [writes, appended]
      exact written _ _ write ih
    · rw [nothing, appended]
      simpa using foreign _ _ event other ih
    · rw [nothing, same]
      simpa using ih

/-! ## The last save of a key -/

/-- Another event saves nothing. -/
theorem isOf_foreign {event : Event} (foreign : isCheckpoint event = false) :
    event.isOf "ledger" "save" = false := by
  rw [isCheckpoint, Bool.or_eq_false_iff] at foreign
  exact foreign.1

/-- The saves in the log, the newest first, are the saves of the history. -/
theorem saves_eq (env : Env) (history : List Op) :
    (logOf env history).reverse.filter (·.isOf "ledger" "save") =
      (puts (writesOf env history)).map fun args => eventOf (.put args) := by
  apply logOf_induction
    (motive := fun log writes => log.reverse.filter (·.isOf "ledger" "save") =
      (puts writes).map fun args => eventOf (.put args))
  · rfl
  · intro log writes write ih
    rw [List.reverse_append, List.filter_append, ih, puts_append, List.map_append]
    cases write with
    | put args => rfl
    | drop key => rfl
  · intro log writes event foreign ih
    rw [List.reverse_append, List.filter_append, ih]
    have skipped : [event].reverse.filter (·.isOf "ledger" "save") = [] := by
      simp [isOf_foreign foreign]
    rw [skipped, List.nil_append]

/-- The last event `save` of a key is the last save of the key. -/
theorem getLatestEvent_eq (env : Env) (history : List Op) (key : String) :
    getLatestEvent (logOf env history) "ledger" "save" key =
      ((puts (writesOf env history)).find? (has Args.key key)).map Args.payload := by
  have filtered := saves_eq env history
  have found : (logOf env history).reverse.find?
      (fun event => event.isOf "ledger" "save" && event.target = key) =
      ((logOf env history).reverse.filter (·.isOf "ledger" "save")).find?
        (fun event => event.target = key) := by
    rw [List.find?_filter]
    congr 1
    funext event
    simp
  rw [getLatestEvent, found, filtered, List.find?_map]
  have same : (fun event : Event => decide (event.target = key)) ∘
      (fun args => eventOf (.put args)) = has Args.key key := by
    funext args
    rfl
  rw [same]
  cases (puts (writesOf env history)).find? (has Args.key key) with
  | none => rfl
  | some args => rfl

/-- The project of a saved checkpoint is read. -/
theorem payload_project (args : Args) :
    args.payload.valueString "project" "" = .ok args.project := by
  have found : args.payload.find "project" = some (.str args.project) := by
    simp [Args.payload, Json.find_object, Assoc.lookup]
  exact Json.valueWith_of_find found Json.getString ""

/-- The scan for a project finds the first save that names it. -/
theorem ofProject_eq (project : String) (saves : List Args) :
    ofProject project (saves.map fun args => eventOf (.put args)) =
      .ok ((saves.find? (Args.isOf project)).map Args.payload) := by
  induction saves with
  | nil => rfl
  | cons args rest ih =>
    have read : ofProject project ((args :: rest).map fun args => eventOf (.put args)) =
        if args.project = project then .ok (some args.payload)
        else ofProject project (rest.map fun args => eventOf (.put args)) := by
      rw [List.map_cons, ofProject]
      simp only [eventOf]
      rw [if_pos (show args.payload.isObject = true from rfl), payload_project]
      rfl
    rw [read]
    by_cases same : args.project = project
    · rw [if_pos same, List.find?_cons_of_pos (by simpa [Args.isOf] using same)]
      rfl
    · rw [if_neg same, ih, List.find?_cons_of_neg (by simpa [Args.isOf] using same)]

/-- The saves among the newest 200 that name a project. -/
theorem fallback_eq (env : Env) (history : List Op) (project : String) :
    ofProject project (getEventsByDomainKind (logOf env history) "ledger" "save" 200) =
      .ok ((((puts (writesOf env history)).take 200).find? (Args.isOf project)).map
        Args.payload) := by
  rw [getEventsByDomainKind, saves_eq, ← List.map_take, ofProject_eq]

/-! ## What is shown -/

/-- A finite float is read back. -/
theorem getSingle_singleJson {value : Rat} (rounded : env.round value = some value) :
    getSingle env (singleJson (some value)) = .ok (some value) := by
  rw [singleJson, getSingle, rounded]

/-- The floats of a payload are its only fields whose reading can fail. -/
theorem showEntry_payload (args : Args) (includeSnapshot : Bool) :
    showEntry env args.payload includeSnapshot = (do
      let coherence ← getSingle env (singleJson args.coherence)
      let confidence ← getSingle env (singleJson args.confidence)
      return { args.shown includeSnapshot with coherence, confidence }) := by
  have text : ∀ name value, args.payload.find name = some (.str value) →
      args.payload.valueString name "" = .ok value := by
    intro name value found
    exact Json.valueWith_of_find found Json.getString ""
  have array : ∀ name value, args.payload.find name = some value →
      args.payload.valueJson name (.arr []) = .ok value := by
    intro name value found
    exact Json.valueWith_of_find found .ok (.arr [])
  have single : ∀ name value, args.payload.find name = some value →
      args.payload.valueWith (getSingle env) name (env.round 0) = getSingle env value := by
    intro name value found
    exact Json.valueWith_of_find found (getSingle env) (env.round 0)
  have fields : ∀ name, args.payload.find name = _ := Json.find_object _
  rw [showEntry, text "snapshot" args.snapshot, text "session_id" args.sessionId,
    text "project" args.project, text "transcript_path" args.transcriptPath,
    text "mood" args.mood, single "coherence" (singleJson args.coherence),
    single "confidence" (singleJson args.confidence), array "todos" args.todos,
    array "active_files" args.activeFiles, array "decisions" args.decisions,
    array "next_steps" args.nextSteps, array "blockers" args.blockers,
    array "discoveries" args.discoveries]
  · rfl
  all_goals
    rw [fields]
    simp [Assoc.lookup]

/-- A checkpoint with finite floats is shown as it was saved. -/
theorem showEntry_of_finite {args : Args} (rounded : args.Rounded env) (finite : args.Finite)
    (includeSnapshot : Bool) :
    showEntry env args.payload includeSnapshot = .ok (args.shown includeSnapshot) := by
  obtain ⟨coherence, coherent⟩ := Option.ne_none_iff_exists'.mp finite.1
  obtain ⟨confidence, confident⟩ := Option.ne_none_iff_exists'.mp finite.2
  rw [showEntry_payload, coherent, confident,
    getSingle_singleJson (rounded.1 coherence coherent),
    getSingle_singleJson (rounded.2 confidence confident), ← coherent, ← confident]
  rfl

/-- What is shown has finite floats. -/
theorem finite_of_showEntry {args : Args} {includeSnapshot : Bool} {shown : Shown}
    (read : showEntry env args.payload includeSnapshot = .ok shown) : args.Finite := by
  rw [showEntry_payload] at read
  obtain ⟨coherence, coherent, read⟩ := bind_ok read
  obtain ⟨confidence, confident, _⟩ := bind_ok read
  constructor
  · intro infinite
    rw [infinite] at coherent
    contradiction
  · intro infinite
    rw [infinite] at confident
    contradiction

/-- What is shown names the session and the project of the checkpoint. -/
theorem named_of_showEntry {args : Args} {includeSnapshot : Bool} {shown : Shown}
    (read : showEntry env args.payload includeSnapshot = .ok shown) :
    shown.sessionId = args.sessionId ∧ shown.project = args.project := by
  rw [showEntry_payload] at read
  obtain ⟨coherence, _, read⟩ := bind_ok read
  obtain ⟨confidence, _, read⟩ := bind_ok read
  obtain rfl := Except.ok.inj read
  exact ⟨rfl, rfl⟩

/-! ## The scan of the list -/

/-- The key and the payload of an entry. -/
def LedgerEntry.content (entry : LedgerEntry) : String × Json := (entry.key, entry.payload)

/-- The key and the payload of a checkpoint. -/
def Args.content (args : Args) : String × Json := (args.key, args.payload)

/-- No key is both saved and deleted. -/
def Apart (writes : List (Write Args String)) : Prop :=
  ∀ args ∈ puts writes, Write.drop args.key ∉ writes

/-- What the scan of a log knows of the writes. -/
structure Scanned (log : Log) (writes : List (Write Args String)) (scan : Scan) : Prop where
  /-- The entries are a map. -/
  sorted : Assoc.Sorted scan.latest
  /-- An entry is under its key. -/
  named : ∀ entry ∈ scan.latest, entry.2.key = entry.1
  /-- The tombstones are those of the log. -/
  deleted : ∀ key, key ∈ scan.deleted ↔ Write.drop key ∈ writes
  /-- A key with a tombstone has no entry. -/
  gone : ∀ entry ∈ scan.latest, entry.1 ∉ scan.deleted
  /-- The entries, the newest first, are the shelf of the writes if these keep apart. -/
  shelved : ∃ ordered : List LedgerEntry,
    ordered.Pairwise (fun newer older => older.seqno < newer.seqno) ∧
      (∀ entry ∈ ordered, entry.seqno < log.length) ∧
      ordered.Perm (scan.latest.map (·.2)) ∧
      (Apart writes → ordered.map LedgerEntry.content =
        (shelf Args.key writes).map Args.content)

/-- The scan of a longer log. -/
theorem scanLog_concat (log : Log) (event : Event) (filterProject : String) :
    scanLog filterProject (log ++ [event]) =
      scanLog filterProject log >>= fun scan =>
        scanEvent filterProject scan (event, log.length) := by
  have last : ∀ scan : Scan, [(event, log.length)].foldlM (scanEvent filterProject) scan =
      scanEvent filterProject scan (event, log.length) := by
    intro scan
    rw [List.foldlM_cons]
    cases scanEvent filterProject scan (event, log.length) with
    | ok next => rfl
    | error thrown => rfl
  rw [scanLog, List.zipIdx_append, List.foldlM_append]
  simp only [List.zipIdx_cons, List.zipIdx_nil, Nat.zero_add, last]
  rfl

/-- The writes keep apart when they did so with one more. -/
theorem Apart.before {writes : List (Write Args String)} {write : Write Args String}
    (apart : Apart (writes ++ [write])) : Apart writes := by
  intro args inside dropped
  have member : args ∈ puts (writes ++ [write]) := by
    rw [puts_append]
    exact List.mem_append_right _ inside
  exact apart args member (List.mem_append_left _ dropped)

/-- Contents of the other keys. -/
theorem content_without {ordered : List LedgerEntry} {current : List Args}
    (same : ordered.map LedgerEntry.content = current.map Args.content) (key : String) :
    (ordered.filter (·.key ≠ key)).map LedgerEntry.content =
      (without Args.key key current).map Args.content := by
  have left : (ordered.filter (·.key ≠ key)).map LedgerEntry.content =
      (ordered.map LedgerEntry.content).filter (·.1 ≠ key) := by
    rw [List.filter_map]
    rfl
  have right : (without Args.key key current).map Args.content =
      (current.map Args.content).filter (·.1 ≠ key) := by
    rw [List.filter_map]
    rfl
  rw [left, right, same]

/-- The entries of the other keys are the values of the map without the key. -/
theorem values_remove {latest : List (String × LedgerEntry)}
    (named : ∀ entry ∈ latest, entry.2.key = entry.1) (key : String) :
    (Assoc.remove key latest).map (·.2) = (latest.map (·.2)).filter (·.key ≠ key) := by
  rw [Assoc.remove, List.filter_map]
  congr 1
  apply List.filter_congr
  intro entry inside
  simp [named entry inside]

/-- A deleted key leaves the entries. -/
theorem Scanned.drop {log : Log} {writes : List (Write Args String)} {scan : Scan}
    (scanned : Scanned log writes scan) (key : String) (event : Event) :
    Scanned (log ++ [event]) (writes ++ [.drop key])
      ⟨Assoc.remove key scan.latest, Assoc.insertKey key scan.deleted⟩ where
  sorted := scanned.sorted.remove key
  named := by
    intro entry inside
    exact scanned.named entry (List.mem_filter.mp inside).1
  deleted := by
    intro name
    rw [Assoc.mem_insertKey, scanned.deleted]
    simp [or_comm]
  gone := by
    intro entry inside
    have kept := List.mem_filter.mp inside
    have other : entry.1 ≠ key := by simpa using kept.2
    rw [Assoc.mem_insertKey]
    rintro (same | before)
    · exact other same
    · exact scanned.gone entry kept.1 before
  shelved := by
    obtain ⟨ordered, descending, below, perm, contents⟩ := scanned.shelved
    refine ⟨ordered.filter (·.key ≠ key), descending.filter _, ?_, ?_, ?_⟩
    · intro entry inside
      have bound := below entry (List.mem_filter.mp inside).1
      rw [List.length_append]
      omega
    · rw [values_remove scanned.named]
      exact perm.filter _
    · intro apart
      rw [shelf_concat]
      exact content_without (contents apart.before) key

/-- Another event changes nothing. -/
theorem Scanned.foreign {log : Log} {writes : List (Write Args String)} {scan : Scan}
    (scanned : Scanned log writes scan) (event : Event) :
    Scanned (log ++ [event]) writes scan where
  sorted := scanned.sorted
  named := scanned.named
  deleted := scanned.deleted
  gone := scanned.gone
  shelved := by
    obtain ⟨ordered, descending, below, perm, contents⟩ := scanned.shelved
    refine ⟨ordered, descending, ?_, perm, contents⟩
    intro entry inside
    have bound := below entry inside
    rw [List.length_append]
    omega

/-- A save behind a tombstone changes nothing. -/
theorem Scanned.putDeleted {log : Log} {writes : List (Write Args String)} {scan : Scan}
    (scanned : Scanned log writes scan) {args : Args} (tombstone : args.key ∈ scan.deleted)
    (event : Event) : Scanned (log ++ [event]) (writes ++ [.put args]) scan where
  sorted := scanned.sorted
  named := scanned.named
  deleted := by
    intro name
    rw [scanned.deleted]
    simp
  gone := scanned.gone
  shelved := by
    obtain ⟨ordered, descending, below, perm, _⟩ := (scanned.foreign event).shelved
    refine ⟨ordered, descending, below, perm, fun apart => ?_⟩
    have member : args ∈ puts (writes ++ [Write.put args]) := by
      rw [mem_puts]
      exact List.mem_append_right _ List.mem_cons_self
    have dropped : Write.drop args.key ∈ writes := (scanned.deleted args.key).mp tombstone
    exact absurd (List.mem_append_left _ dropped) (apart args member)

/-- Another save becomes the newest entry. -/
theorem Scanned.put {log : Log} {writes : List (Write Args String)} {scan : Scan}
    (scanned : Scanned log writes scan) {args : Args} (alive : args.key ∉ scan.deleted)
    (event : Event) :
    Scanned (log ++ [event]) (writes ++ [.put args])
      { scan with
        latest := Assoc.assign args.key ⟨args.key, log.length, args.payload⟩ scan.latest } where
  sorted := scanned.sorted.assign _ _
  named := by
    intro entry inside
    rcases Assoc.mem_assign inside with rfl | kept
    · rfl
    · exact scanned.named entry kept
  deleted := by
    intro name
    rw [scanned.deleted]
    simp
  gone := by
    intro entry inside
    rcases Assoc.mem_assign inside with rfl | kept
    · exact alive
    · exact scanned.gone entry kept
  shelved := by
    obtain ⟨ordered, descending, below, perm, contents⟩ := scanned.shelved
    refine ⟨⟨args.key, log.length, args.payload⟩ :: ordered.filter (·.key ≠ args.key),
      ?_, ?_, ?_, ?_⟩
    · refine List.pairwise_cons.mpr ⟨?_, descending.filter _⟩
      intro entry inside
      exact below entry (List.mem_filter.mp inside).1
    · intro entry inside
      rw [List.length_append]
      rcases List.mem_cons.mp inside with rfl | kept
      · exact Nat.lt_succ_self _
      · have bound := below entry (List.mem_filter.mp kept).1
        omega
    · have assigned := (scanned.sorted.perm_assign args.key
        ⟨args.key, log.length, args.payload⟩).map (·.2)
      refine List.Perm.trans ?_ assigned.symm
      rw [List.map_cons, values_remove scanned.named]
      exact (perm.filter _).cons _
    · intro apart
      rw [shelf_concat, List.map_cons, content_without (contents apart.before) args.key]
      rfl

/-- The scan of a log without a project does not throw. -/
theorem scanLog_scanned (env : Env) (history : List Op) :
    ∃ scan, scanLog "" (logOf env history) = .ok scan ∧
      Scanned (logOf env history) (writesOf env history) scan := by
  apply logOf_induction
    (motive := fun log writes => ∃ scan, scanLog "" log = .ok scan ∧ Scanned log writes scan)
  · refine ⟨{}, rfl, List.Pairwise.nil, by simp, by simp, by simp, [], ?_⟩
    exact ⟨List.Pairwise.nil, by simp, List.Perm.nil, fun _ => rfl⟩
  · rintro log writes write ⟨scan, read, scanned⟩
    rw [scanLog_concat, read]
    cases write with
    | put args =>
      by_cases tombstone : args.key ∈ scan.deleted
      · refine ⟨scan, ?_, scanned.putDeleted tombstone _⟩
        simp [eventOf, scanEvent, tombstone, bind, Except.bind, pure, Except.pure]
      · refine ⟨_, ?_, scanned.put tombstone _⟩
        simp [eventOf, scanEvent, tombstone, bind, Except.bind, pure, Except.pure]
    | drop key =>
      refine ⟨_, ?_, scanned.drop key _⟩
      simp [eventOf, scanEvent, bind, Except.bind, pure, Except.pure]
  · rintro log writes event foreign ⟨scan, read, scanned⟩
    rw [scanLog_concat, read]
    refine ⟨scan, ?_, scanned.foreign event⟩
    simp only [isCheckpoint, Event.isOf, Bool.or_eq_false_iff, Bool.and_eq_false_iff,
      decide_eq_false_iff_not] at foreign
    by_cases ledger : event.domain = "ledger"
    · have saves : event.kind ≠ "save" := by simpa [ledger] using foreign.1
      have deletes : event.kind ≠ "delete" := by simpa [ledger] using foreign.2
      simp [scanEvent, ledger, saves, deletes, bind, Except.bind, pure, Except.pure]
    · simp [scanEvent, ledger, bind, Except.bind, pure, Except.pure]

/-- The row of an entry with the content of a checkpoint. -/
theorem listRow_of_content {entry : LedgerEntry} {args : Args}
    (same : entry.content = args.content) : listRow entry = .ok args.row := by
  have parts := Prod.mk.inj same
  have text : ∀ name value, args.payload.find name = some (.str value) →
      args.payload.valueString name "" = .ok value := by
    intro name value found
    exact Json.valueWith_of_find found Json.getString ""
  have fields : ∀ name, args.payload.find name = _ := Json.find_object _
  rw [listRow, parts.2, text "session_id" args.sessionId, text "mood" args.mood,
    payload_project, parts.1]
  · rfl
  all_goals
    rw [fields]
    simp [Assoc.lookup]

/-- The rows of entries with the contents of checkpoints. -/
theorem mapM_listRow {entries : List LedgerEntry} {current : List Args}
    (same : entries.map LedgerEntry.content = current.map Args.content) :
    entries.mapM listRow = .ok (current.map Args.row) := by
  induction entries generalizing current with
  | nil =>
    cases current with
    | nil => rfl
    | cons args rest => contradiction
  | cons entry entries ih =>
    cases current with
    | nil => contradiction
    | cons args rest =>
      rw [List.map_cons, List.map_cons] at same
      have heads := List.head_eq_of_cons_eq same
      have tails := List.tail_eq_of_cons_eq same
      rw [List.mapM_cons, listRow_of_content heads, ih tails]
      rfl

/-- Sorting the entries of the scan gives them in the order of the log, the newest first. -/
theorem sorted_eq {latest : List (String × LedgerEntry)} {ordered : List LedgerEntry}
    (descending : ordered.Pairwise fun newer older => older.seqno < newer.seqno)
    (perm : ordered.Perm (latest.map (·.2))) :
    (latest.map (·.2)).insertionSort (fun left right => right.seqno ≤ left.seqno) = ordered := by
  let order : LedgerEntry → LedgerEntry → Prop := fun left right => right.seqno ≤ left.seqno
  have sorting : ((latest.map (·.2)).insertionSort order).Perm ordered :=
    (List.perm_insertionSort _ _).trans perm.symm
  have sorted : ((latest.map (·.2)).insertionSort order).Pairwise order := by
    have total : Std.Total order := ⟨fun left right => Nat.le_total right.seqno left.seqno⟩
    have trans : IsTrans LedgerEntry order := ⟨fun _ _ _ first second => Nat.le_trans second first⟩
    exact List.pairwise_insertionSort _ _
  have weakly : ordered.Pairwise order := descending.imp fun later => Nat.le_of_lt later
  have distinct : ∀ left ∈ ordered, ∀ right ∈ ordered, left.seqno = right.seqno → left = right := by
    intro left inLeft right inRight same
    by_contra different
    have apart : ordered.Pairwise fun left right => left.seqno ≠ right.seqno :=
      descending.imp fun later => Nat.ne_of_gt later
    have symmetric : Std.Symm fun left right : LedgerEntry => left.seqno ≠ right.seqno :=
      ⟨fun _ _ differ => Ne.symm differ⟩
    exact apart.forall inLeft inRight different same
  apply List.Perm.eq_of_pairwise _ sorted weakly sorting
  intro left right inLeft inRight first second
  exact distinct left (sorting.mem_iff.mp inLeft) right inRight (Nat.le_antisymm second first)

/-- Histories without a key that is both saved and deleted are listed as they should be. -/
theorem toolLedgerList_of_apart {history : List Op} (apart : Apart (writesOf env history))
    {params : Json} {limit : Int} (all : params.valueString "project" "" = .ok "")
    (limited : params.valueWith Json.getInt "limit" 10 = .ok limit)
    (covers : (checkpoints env history).length ≤ toSize limit) :
    toolLedgerList params (logOf env history) =
      .ok (.ok ((checkpoints env history).map Args.row)) := by
  obtain ⟨scan, read, scanned⟩ := scanLog_scanned env history
  obtain ⟨ordered, descending, _, perm, contents⟩ := scanned.shelved
  have same := contents apart
  have lengths : ordered.length = (checkpoints env history).length := by
    have counted := congrArg List.length same
    rwa [List.length_map, List.length_map] at counted
  have whole : ordered.take (toSize limit) = ordered := by
    apply List.take_of_length_le
    rw [lengths]
    exact covers
  rw [toolLedgerList, all, limited]
  simp only [bind, Except.bind, read, sorted_eq descending perm, whole, mapM_listRow same]
  rfl

/-- A deleted key is not listed. -/
theorem not_listed_of_deleted {history : List Op} {key : String}
    (deleted : Write.drop key ∈ writesOf env history) {params : Json} {rows : List ListRow}
    (all : params.valueString "project" "" = .ok "")
    (listed : toolLedgerList params (logOf env history) = .ok (.ok rows)) :
    ∀ row ∈ rows, row.key ≠ key := by
  obtain ⟨scan, read, scanned⟩ := scanLog_scanned env history
  rw [toolLedgerList, all] at listed
  obtain ⟨filterProject, unfiltered, listed⟩ := bind_ok listed
  obtain rfl := Except.ok.inj unfiltered
  obtain ⟨limit, _, listed⟩ := bind_ok listed
  obtain ⟨scanned', same, listed⟩ := bind_ok listed
  rw [read] at same
  obtain rfl := Except.ok.inj same
  obtain ⟨listing, mapped, listed⟩ := bind_ok listed
  obtain rfl := ToolResult.ok.inj (Except.ok.inj listed)
  intro row inside same
  obtain ⟨entry, member, made⟩ := exists_of_forall₂ (forall₂_of_mapM mapped).flip inside
  obtain ⟨sessionId, _, made⟩ := bind_ok made
  obtain ⟨mood, _, made⟩ := bind_ok made
  obtain ⟨project, _, made⟩ := bind_ok made
  obtain rfl := Except.ok.inj made
  have value := (List.perm_insertionSort _ _).mem_iff.mp (List.mem_of_mem_take member)
  obtain ⟨pair, inMap, rfl⟩ := List.mem_map.mp value
  apply scanned.gone pair inMap
  have named : pair.2.key = key := same
  rw [scanned.deleted, ← scanned.named pair inMap, named]
  exact deleted

/-! ## The readers of one checkpoint -/

/-- What `get` shows is the last save of the key. -/
theorem toolLedgerGet_eq (env : Env) (history : List Op) {params : Json} {key : String}
    {includeSnapshot : Bool} (named : requestKey params = .ok (some key))
    (read : params.valueWith Json.getBool "include_snapshot" false = .ok includeSnapshot) :
    toolLedgerGet env params (logOf env history) =
      match (puts (writesOf env history)).find? (has Args.key key) with
      | none => .ok (.error ("Checkpoint not found: " ++ key))
      | some args => (showEntry env args.payload includeSnapshot).map fun shown =>
        .ok (key, shown) := by
  rw [toolLedgerGet, named]
  simp only [bind, Except.bind, getLatestEvent_eq, read]
  cases (puts (writesOf env history)).find? (has Args.key key) with
  | none => rfl
  | some args =>
    simp only [Option.map_some]
    cases showEntry env args.payload includeSnapshot with
    | ok shown => rfl
    | error thrown => rfl

/-- The save that `load` shows. -/
def loaded (saves : List Args) (sessionId project : String) : Option Args :=
  match saves.find? (has Args.key (ledgerKey sessionId project)) with
  | some args => some args
  | none =>
    if sessionId = "" ∧ project ≠ "" then (saves.take 200).find? (Args.isOf project) else none

/-- The payload that `load` shows is that of a save. -/
theorem loadPayload_eq (env : Env) (history : List Op) (sessionId project : String) :
    loadPayload sessionId project (logOf env history) =
      .ok ((loaded (puts (writesOf env history)) sessionId project).map Args.payload) := by
  rw [loadPayload, getLatestEvent_eq, loaded]
  cases (puts (writesOf env history)).find? (has Args.key (ledgerKey sessionId project)) with
  | some args => rfl
  | none =>
    by_cases scope : sessionId = "" ∧ project ≠ ""
    · rw [if_pos scope]
      simp only [Option.map_none, if_pos scope, fallback_eq]
    · rw [if_neg scope]
      simp only [Option.map_none, if_neg scope]

/-- What `load` shows is the last save of the key, or one of the project. -/
theorem toolLedgerLoad_eq (env : Env) (history : List Op) {params : Json}
    {sessionId project : String} {includeSnapshot : Bool}
    (session : params.valueString "session_id" "" = .ok sessionId)
    (named : params.valueString "project" "" = .ok project)
    (read : params.valueWith Json.getBool "include_snapshot" false = .ok includeSnapshot) :
    toolLedgerLoad env params (logOf env history) =
      match loaded (puts (writesOf env history)) sessionId project with
      | none => .ok (.ok none)
      | some args => (showEntry env args.payload includeSnapshot).map fun shown =>
        .ok (some shown) := by
  rw [toolLedgerLoad, session, named]
  simp only [bind, Except.bind, loadPayload_eq, read]
  cases loaded (puts (writesOf env history)) sessionId project with
  | none => rfl
  | some args =>
    simp only [Option.map_some]
    cases showEntry env args.payload includeSnapshot with
    | ok shown => rfl
    | error thrown => rfl

/-! ## Coherent histories -/

/-- In a coherent history the checkpoints are the first saves of their keys. -/
theorem checkpoints_eq {history : List Op} (apart : Apart (writesOf env history)) :
    checkpoints env history = firsts Args.key (puts (writesOf env history)) :=
  shelf_eq_firsts Args.key apart

/-- The scan for a project stops at the newest checkpoint of the project. -/
theorem find_recent {history : List Op} (coherent : Coherent env history) {project : String}
    (wanted : project ≠ "")
    (unsaved : (puts (writesOf env history)).find? (has Args.key (ledgerKey "" project)) = none) :
    ((puts (writesOf env history)).take 200).find? (Args.isOf project) =
      (checkpoints env history).find? (Args.isOf project) := by
  have fresh : ∀ args ∈ puts (writesOf env history), args.key ≠ ledgerKey "" project := by
    intro args inside
    simpa [has] using List.find?_eq_none.mp unsaved args inside
  cases newest : (puts (writesOf env history)).find? (Args.isOf project) with
  | none =>
    have never := List.find?_eq_none.mp newest
    rw [List.find?_eq_none.mpr fun args inside => never args (List.mem_of_mem_take inside)]
    exact (List.find?_eq_none.mpr fun args inside =>
      never args (mem_puts_of_mem_shelf Args.key inside)).symm
  | some args =>
    obtain ⟨named, newer, older, split, passed⟩ := List.find?_eq_some_iff_append.mp newest
    have none_newer : ∀ other ∈ newer, Args.isOf project other = false := by
      intro other inside
      simpa using passed other inside
    have others : ∀ other ∈ newer, other.project ≠ project := by
      intro other inside
      simpa [Args.isOf] using none_newer other inside
    have same : args.project = project := by simpa [Args.isOf] using named
    rcases coherent.recent project wanted fresh newer args older split same others with
      ⟨near, unreplaced⟩ | ⟨far, gone⟩
    · rw [checkpoints_eq coherent.apart, split,
        find_firsts_of_fresh Args.key none_newer named unreplaced]
      obtain ⟨room, counted⟩ : ∃ room, 200 - newer.length = room + 1 :=
        ⟨200 - newer.length - 1, by omega⟩
      rw [List.take_append, List.take_of_length_le (Nat.le_of_lt near), counted,
        List.take_succ_cons, List.find?_append, List.find?_cons_of_pos named,
        List.find?_eq_none.mpr (by simpa using none_newer)]
      rfl
    · have before : (newer ++ args :: older).take 200 = newer.take 200 := by
        rw [List.take_append_of_le_length far]
      rw [split, before]
      rw [List.find?_eq_none.mpr fun other inside => by
        simp [none_newer other (List.mem_of_mem_take inside)]]
      exact (List.find?_eq_none.mpr fun other inside => by
        simpa [Args.isOf] using gone other inside).symm

/-- In a coherent history `load` shows what it should. -/
theorem loaded_eq {history : List Op} (coherent : Coherent env history)
    (sessionId project : String) :
    loaded (puts (writesOf env history)) sessionId project =
      loadable (checkpoints env history) sessionId project := by
  have exact_eq : (checkpoints env history).find? (has Args.key (ledgerKey sessionId project)) =
      (puts (writesOf env history)).find? (has Args.key (ledgerKey sessionId project)) := by
    rw [checkpoints_eq coherent.apart, find_firsts]
  rw [loaded, loadable, exact_eq]
  cases direct : (puts (writesOf env history)).find?
    (has Args.key (ledgerKey sessionId project)) with
  | some args => rfl
  | none =>
    by_cases scope : sessionId = "" ∧ project ≠ ""
    · rw [if_pos scope, if_pos scope]
      rw [scope.1] at direct
      exact find_recent coherent scope.2 direct
    · rw [if_neg scope, if_neg scope]

/-- What `load` should show is a checkpoint. -/
theorem mem_of_loadable {current : List Args} {sessionId project : String} {args : Args}
    (shown : loadable current sessionId project = some args) : args ∈ current := by
  rw [loadable] at shown
  split at shown
  · rename_i found
    obtain rfl := Option.some.inj shown
    exact List.mem_of_find?_eq_some found
  · split at shown
    · exact List.mem_of_find?_eq_some shown
    · contradiction

/-- The readers agree on coherent histories. -/
theorem Coherent.agrees {history : List Op} (coherent : Coherent env history) :
    Agrees env history where
  list := by
    intro params limit all limited covers
    exact toolLedgerList_of_apart coherent.apart all limited covers
  get := by
    intro params key includeSnapshot named read
    have same : (checkpoints env history).find? (has Args.key key) =
        (puts (writesOf env history)).find? (has Args.key key) := by
      rw [checkpoints_eq coherent.apart, find_firsts]
    rw [toolLedgerGet_eq env history named read, ← same]
    cases found : (checkpoints env history).find? (has Args.key key) with
    | none => rfl
    | some args =>
      have inside := List.mem_of_find?_eq_some found
      have rounded := rounded_of_mem (mem_puts_of_mem_shelf Args.key inside)
      simp only [showEntry_of_finite rounded (coherent.finite args inside) includeSnapshot]
      rfl
  load := by
    intro params sessionId project includeSnapshot session named read
    rw [toolLedgerLoad_eq env history session named read, loaded_eq coherent]
    cases found : loadable (checkpoints env history) sessionId project with
    | none => rfl
    | some args =>
      have inside := mem_of_loadable found
      have rounded := rounded_of_mem (mem_puts_of_mem_shelf Args.key inside)
      simp only [showEntry_of_finite rounded (coherent.finite args inside) includeSnapshot]
      rfl

/-! ## Histories that the readers agree on -/

/-- A key is not empty. -/
theorem ledgerKey_ne (sessionId project : String) : ledgerKey sessionId project ≠ "" := by
  intro empty
  have sizes := congrArg String.utf8ByteSize empty
  rw [ledgerKey, String.utf8ByteSize_append, String.utf8ByteSize_append] at sizes
  have colon : ":".utf8ByteSize = 1 := rfl
  have none : "".utf8ByteSize = 0 := rfl
  omega

/-- A request for a key. -/
def keyParams (key : String) : Json := .obj [("key", .str key)]

/-- The request names the key. -/
theorem requestKey_keyParams {key : String} (named : key ≠ "") :
    requestKey (keyParams key) = .ok (some key) := by
  have read : (keyParams key).valueString "key" "" = .ok key := rfl
  rw [requestKey, read]
  show (if key = "" then _ else _) = _
  rw [if_neg named]
  rfl

/-- The checkpoint that `get` shows is a checkpoint, with finite floats. -/
theorem Agrees.shows {history : List Op} (agrees : Agrees env history) {args : Args}
    (inside : args ∈ puts (writesOf env history)) :
    ∃ last, (puts (writesOf env history)).find? (has Args.key args.key) = some last ∧
      last.Finite ∧ ∃ current ∈ checkpoints env history, current.key = args.key := by
  obtain ⟨last, found⟩ : ∃ last,
      (puts (writesOf env history)).find? (has Args.key args.key) = some last := by
    apply Option.isSome_iff_exists.mp
    rw [List.find?_isSome]
    exact ⟨args, inside, by simp [has]⟩
  have named : requestKey (keyParams args.key) = .ok (some args.key) :=
    requestKey_keyParams (ledgerKey_ne args.sessionId args.project)
  have shown := agrees.get (keyParams args.key) args.key false named rfl
  rw [toolLedgerGet_eq env history named rfl, found] at shown
  refine ⟨last, found, ?_⟩
  obtain ⟨content, read, result⟩ := map_ok shown
  refine ⟨finite_of_showEntry read, ?_⟩
  cases current : (checkpoints env history).find? (has Args.key args.key) with
  | none =>
    rw [current] at result
    cases result
  | some checkpoint =>
    have same : checkpoint.key = args.key := by simpa [has] using List.find?_some current
    exact ⟨checkpoint, List.mem_of_find?_eq_some current, same⟩

/-- A request for the whole list. -/
def listParams : Json := .obj [("limit", .int (-1))]

/-- A history has as many writes as operations at most, and the checkpoints are fewer yet. -/
theorem length_checkpoints (env : Env) (history : List Op) :
    (checkpoints env history).length ≤ history.length := by
  have fewer : ∀ writes : List (Write Args String),
      (shelf Args.key writes).length ≤ writes.length := by
    intro writes
    induction writes using List.reverseRecOn with
    | nil => exact Nat.le_refl _
    | append_singleton writes write ih =>
      rw [shelf_concat, List.length_append]
      have filtered : ∀ key,
          (without Args.key key (shelf Args.key writes)).length ≤ writes.length := by
        intro key
        exact Nat.le_trans (List.length_filter_le _ _) ih
      cases write with
      | put args => simpa [apply] using filtered args.key
      | drop key => exact Nat.le_succ_of_le (filtered key)
  exact Nat.le_trans (fewer _) (List.length_filterMap_le _ _)

/-- Readers that agree have no key that was saved and deleted: `get` shows it, `list` does not. -/
theorem Agrees.apart {history : List Op} (agrees : Agrees env history)
    (counted : history.length < 2 ^ 64) : Apart (writesOf env history) := by
  intro args inside deleted
  obtain ⟨_, _, _, current, there, same⟩ := agrees.shows inside
  have covers : (checkpoints env history).length ≤ toSize (-1) := by
    have most : toSize (-1) = 2 ^ 64 - 1 := rfl
    have few := length_checkpoints env history
    omega
  have listed := agrees.list listParams (-1) rfl rfl covers
  have unlisted := not_listed_of_deleted deleted rfl listed
  exact unlisted current.row (List.mem_map_of_mem there) same

/-- Readers that agree read the floats of the checkpoints. -/
theorem Agrees.finite {history : List Op} (agrees : Agrees env history)
    (apart : Apart (writesOf env history)) : ∀ args ∈ checkpoints env history, args.Finite := by
  intro args inside
  obtain ⟨last, found, finite, _⟩ := agrees.shows (mem_puts_of_mem_shelf Args.key inside)
  rw [checkpoints_eq apart] at inside
  rw [find_of_mem_firsts Args.key inside] at found
  obtain rfl := Option.some.inj found
  exact finite

/-- A request for the newest checkpoint of a project. -/
def projectParams (project : String) : Json := .obj [("project", .str project)]

/-- Readers that agree find the newest save of a project among the newest saves, where it is a
checkpoint, or have none to show. -/
theorem Agrees.recent {history : List Op} (agrees : Agrees env history)
    (apart : Apart (writesOf env history)) {project : String} (wanted : project ≠ "")
    (unsaved : ∀ args ∈ puts (writesOf env history), args.key ≠ ledgerKey "" project)
    {newer older : List Args} {args : Args}
    (split : puts (writesOf env history) = newer ++ args :: older) (named : args.project = project)
    (others : ∀ other ∈ newer, other.project ≠ project) :
    (newer.length < 200 ∧ ∀ other ∈ newer, other.key ≠ args.key) ∨
      (200 ≤ newer.length ∧ ∀ current ∈ checkpoints env history, current.project ≠ project) := by
  have skipped : newer.find? (Args.isOf project) = none := by
    apply List.find?_eq_none.mpr
    intro other inside
    simpa [Args.isOf] using others other inside
  have absent :
      (puts (writesOf env history)).find? (has Args.key (ledgerKey "" project)) = none := by
    apply List.find?_eq_none.mpr
    intro other inside
    simpa [has] using unsaved other inside
  have gone : (checkpoints env history).find? (has Args.key (ledgerKey "" project)) = none := by
    rw [checkpoints_eq apart, find_firsts, absent]
  have scope : "" = "" ∧ project ≠ "" := ⟨rfl, wanted⟩
  have expected : loadable (checkpoints env history) "" project =
      (checkpoints env history).find? (Args.isOf project) := by
    rw [loadable, gone]
    exact if_pos scope
  have tried : loaded (puts (writesOf env history)) "" project =
      ((puts (writesOf env history)).take 200).find? (Args.isOf project) := by
    rw [loaded, absent]
    exact if_pos scope
  have shown := agrees.load (projectParams project) "" project false rfl rfl rfl
  rw [toolLedgerLoad_eq env history rfl rfl rfl, expected, tried] at shown
  by_cases near : newer.length < 200
  · left
    refine ⟨near, ?_⟩
    have found : ((puts (writesOf env history)).take 200).find? (Args.isOf project) =
        some args := by
      obtain ⟨room, counted⟩ : ∃ room, 200 - newer.length = room + 1 :=
        ⟨200 - newer.length - 1, by omega⟩
      rw [split, List.take_append, List.take_of_length_le (Nat.le_of_lt near), counted,
        List.take_succ_cons, List.find?_append, skipped,
        List.find?_cons_of_pos (by simpa [Args.isOf] using named)]
      rfl
    rw [found] at shown
    intro other inside same
    obtain ⟨content, read, result⟩ := map_ok shown
    cases current : (checkpoints env history).find? (Args.isOf project) with
    | none =>
      rw [current] at result
      cases result
    | some checkpoint =>
      rw [current] at result
      have contents : content = checkpoint.shown false := Option.some.inj (ToolResult.ok.inj result)
      obtain ⟨session, project'⟩ := named_of_showEntry read
      have key : checkpoint.key = args.key := by
        rw [contents] at session project'
        rw [Args.key, Args.key, ← session, ← project']
        rfl
      have there := List.mem_of_find?_eq_some current
      rw [checkpoints_eq apart] at there
      have first := find_of_mem_firsts Args.key there
      -- The first save of the key is among the newer saves, none of which names the project.
      obtain ⟨replacing, replaced⟩ : ∃ replacing,
          newer.find? (has Args.key checkpoint.key) = some replacing := by
        apply Option.isSome_iff_exists.mp
        rw [List.find?_isSome]
        exact ⟨other, inside, by simpa [has, key] using same⟩
      rw [split, List.find?_append, replaced] at first
      obtain rfl := Option.some.inj first
      have isOf : replacing.project = project := by
        simpa [Args.isOf] using List.find?_some current
      exact others replacing (List.mem_of_find?_eq_some replaced) isOf
  · right
    have far : 200 ≤ newer.length := Nat.le_of_not_lt near
    refine ⟨far, ?_⟩
    have missed : ((puts (writesOf env history)).take 200).find? (Args.isOf project) = none := by
      rw [split, List.take_append_of_le_length far]
      apply List.find?_eq_none.mpr
      intro other inside
      exact List.find?_eq_none.mp skipped other (List.mem_of_mem_take inside)
    rw [missed] at shown
    intro current there isOf
    have nothing : (checkpoints env history).find? (Args.isOf project) = none := by
      cases newest : (checkpoints env history).find? (Args.isOf project) with
      | none => rfl
      | some checkpoint =>
        rw [newest] at shown
        have empty := ToolResult.ok.inj (Except.ok.inj shown)
        cases empty
    exact List.find?_eq_none.mp nothing current there (by simpa [Args.isOf] using isOf)

/-- The readers of checkpoints agree on a history exactly when it is coherent. The store numbers its
events with 64 bits. -/
theorem readers_agree (env : Env) (history : List Op) (counted : history.length < 2 ^ 64) :
    Agrees env history ↔ Coherent env history := by
  constructor
  · intro agrees
    have apart := agrees.apart counted
    refine ⟨apart, agrees.finite apart, ?_⟩
    intro project wanted unsaved newer args older split named others
    exact agrees.recent apart wanted unsaved split named others
  · exact Coherent.agrees

/-- An environment in which every number is a float. -/
def plainEnv : Env where
  session := none
  round value := some value
  round_round _ := rfl

/-- A save of a session. -/
def plainSave : Op := .save (.object [("session_id", .str "s"), ("project", .str "p")])

/-- A delete of its key. -/
def plainDelete : Op := .delete (.object [("key", .str "s:p")])

/-- What the save stores. -/
def plainArgs : Args where
  sessionId := "s"
  project := "p"
  transcriptPath := ""
  mood := ""
  coherence := some 0
  confidence := some 0
  snapshot := ""
  todos := .arr []
  activeFiles := .arr []
  decisions := .arr []
  nextSteps := .arr []
  blockers := .arr []
  discoveries := .arr []

/-- A save of another session in another project. -/
def otherSave : Op := .save (.object [("session_id", .str "u"), ("project", .str "q")])

/-- What that save stores. -/
def otherArgs : Args := { plainArgs with sessionId := "u", project := "q" }

/-- The readers agree on two saves. -/
theorem readers_agree_saved : Agrees plainEnv [plainSave, otherSave] := by
  have writes : writesOf plainEnv [plainSave, otherSave] = [.put plainArgs, .put otherArgs] := by
    decide
  have few : [plainSave, otherSave].length < 2 ^ 64 := by decide
  have keys : otherArgs.key ≠ plainArgs.key := by decide
  refine (readers_agree plainEnv [plainSave, otherSave] few).mpr ⟨?_, ?_, ?_⟩
  · intro args _ dropped
    rw [writes] at dropped
    simp at dropped
  · intro args inside
    have both : args = otherArgs ∨ args = plainArgs := by
      rw [checkpoints, writes] at inside
      simpa [shelf, apply, without, keys.symm] using inside
    rcases both with rfl | rfl <;> exact ⟨Option.some_ne_none _, Option.some_ne_none _⟩
  · intro project _ _ newer args older split _ _
    rw [writes] at split
    have short : newer = [] ∨ newer = [otherArgs] ∧ args = plainArgs := by
      rcases newer with _ | ⟨first, _ | ⟨second, rest⟩⟩
      · exact .inl rfl
      · simp_all [puts]
      · simp [puts] at split
    rcases short with rfl | ⟨rfl, rfl⟩
    · exact .inl ⟨by decide, by simp⟩
    · exact .inl ⟨by decide, by simpa using keys⟩

/-- A deleted checkpoint is still shown, and one that is saved again after that is not listed. -/
theorem readers_disagree :
    ¬Agrees plainEnv [plainSave, plainDelete] ∧
      ¬Agrees plainEnv [plainSave, plainDelete, plainSave] := by
  have deleted : writesOf plainEnv [plainSave, plainDelete] =
      [.put plainArgs, .drop "s:p"] := by decide
  have again : writesOf plainEnv [plainSave, plainDelete, plainSave] =
      [.put plainArgs, .drop "s:p", .put plainArgs] := by decide
  have key : plainArgs.key = "s:p" := rfl
  constructor
  · intro agrees
    have apart := agrees.apart (by decide)
    rw [deleted] at apart
    exact apart plainArgs (by simp [puts]) (by simp [key])
  · intro agrees
    have apart := agrees.apart (by decide)
    rw [again] at apart
    exact apart plainArgs (by simp [puts]) (by simp [key])

end Chitta.Checkpoint
