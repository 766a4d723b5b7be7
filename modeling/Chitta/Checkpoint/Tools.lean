import Mathlib.Data.List.Sort
import Chitta.EventLog
import Chitta.Newest

/-!
# The tools of checkpoints

A checkpoint is the last event `save` of its key in the event log; an event `delete` is a
tombstone. In the text of a payload an infinite float has become null. The texts for people repeat
the fields of the results and are left out. The names are those of the source.
-/
namespace Chitta.Checkpoint

open EventLog

/-- A float; none for an infinite one. -/
abbrev Single := Option Rat

/-- What the tools take from outside. -/
structure Env where
  /-- `CLAUDE_SESSION_ID`. -/
  session : Option String
  /-- The float next to a number. -/
  round : Rat → Single
  /-- A float is next to itself. -/
  round_round : ∀ {value single : Rat}, round value = some single → round single = some single

/-! ## The arguments of a checkpoint -/

/-- `ledger_key`. -/
def ledgerKey (sessionId project : String) : String := sessionId ++ ":" ++ project

/-- `get_session_id`. -/
def getSessionId (env : Env) (params : Json) : String :=
  match params.find "session_id" with
  | some (.str id) => if id = "" then env.session.getD "" else id
  | _ => env.session.getD ""

/-- `get<float>`. -/
def getSingle (env : Env) : Json → Except Thrown Single
  | .int value => .ok (env.round value)
  | .float value => .ok (env.round value)
  | .bool value => .ok (env.round (if value then 1 else 0))
  | _ => .error (.typeError 302)

/-- A float as a value: the text of an infinite one is null. -/
def singleJson : Single → Json
  | some value => .float value
  | none => .null

/-- `store_array`. -/
def storeArray (params : Json) (field : String) : Json :=
  match params.find field with
  | some (.arr items) => .arr items
  | _ => .arr []

/-- The arguments of a save, with their defaults. -/
structure Args where
  /-- The session. -/
  sessionId : String
  /-- The project. -/
  project : String
  /-- The transcript. -/
  transcriptPath : String
  /-- The mood. -/
  mood : String
  /-- The coherence. -/
  coherence : Single
  /-- The confidence. -/
  confidence : Single
  /-- The snapshot. -/
  snapshot : String
  /-- What is to be done. -/
  todos : Json
  /-- The files. -/
  activeFiles : Json
  /-- The decisions. -/
  decisions : Json
  /-- The next steps. -/
  nextSteps : Json
  /-- What stands in the way. -/
  blockers : Json
  /-- What was found. -/
  discoveries : Json
deriving DecidableEq

/-- The key of a checkpoint. -/
def Args.key (args : Args) : String := ledgerKey args.sessionId args.project

/-- The arguments in a request. -/
def saveArgs (env : Env) (params : Json) : Except Thrown Args := do
  let project ← params.valueString "project" "default"
  let transcriptPath ← params.valueString "transcript_path" ""
  let mood ← params.valueString "mood" ""
  let coherence ← params.valueWith (getSingle env) "coherence" (env.round 0)
  let confidence ← params.valueWith (getSingle env) "confidence" (env.round 0)
  let snapshot ← params.valueString "snapshot" ""
  return {
    sessionId := getSessionId env params
    project, transcriptPath, mood, coherence, confidence, snapshot
    todos := storeArray params "todos"
    activeFiles := storeArray params "active_files"
    decisions := storeArray params "decisions"
    nextSteps := storeArray params "next_steps"
    blockers := storeArray params "blockers"
    discoveries := storeArray params "discoveries" }

/-- The payload of the event. -/
def Args.payload (args : Args) : Json :=
  .object [
    ("session_id", .str args.sessionId),
    ("project", .str args.project),
    ("transcript_path", .str args.transcriptPath),
    ("mood", .str args.mood),
    ("coherence", singleJson args.coherence),
    ("confidence", singleJson args.confidence),
    ("snapshot", .str args.snapshot),
    ("todos", args.todos),
    ("active_files", args.activeFiles),
    ("decisions", args.decisions),
    ("next_steps", args.nextSteps),
    ("blockers", args.blockers),
    ("discoveries", args.discoveries)]

/-- The key that a request names; none when it names no key. -/
def requestKey (params : Json) : Except Thrown (Option String) := do
  let key ← params.valueString "key" ""
  if key = "" then
    let sessionId ← params.valueString "session_id" ""
    let project ← params.valueString "project" ""
    if sessionId = "" then return none else return some (ledgerKey sessionId project)
  else return some key

/-! ## Writing -/

/-- The result of a tool. -/
inductive ToolResult (α : Type) where
  /-- `ToolResult::ok`. -/
  | ok (content : α)
  /-- `ToolResult::error`. -/
  | error (text : String)

/-- The result of a save. -/
structure Saved where
  /-- The event. -/
  eventId : Nat
  /-- The session. -/
  sessionId : String
  /-- The project. -/
  project : String

/-- `tool_ledger_save`: the log counts its events. -/
def toolLedgerSave (env : Env) (params : Json) (log : Log) :
    Except Thrown (Log × ToolResult Saved) := do
  let args ← saveArgs env params
  let written := emitEvent log "ledger" "save" args.key (some args.payload)
  return (written, .ok ⟨written.length, args.sessionId, args.project⟩)

/-- `tool_ledger_delete`: the result names the key. -/
def toolLedgerDelete (params : Json) (log : Log) : Except Thrown (Log × ToolResult String) := do
  match ← requestKey params with
  | some key => return (emitEvent log "ledger" "delete" key none, .ok key)
  | none => return (log, .error "key or session_id required")

/-! ## Reading -/

/-- `truncate_snapshot`: the bytes that are shown. -/
def truncateSnapshot (snapshot : String) : List UInt8 :=
  let bytes := snapshot.toUTF8.toList
  if 2000 < bytes.length then bytes.take 2000 ++ "...".toUTF8.toList else bytes

/-- A checkpoint as `load` and `get` show it. -/
structure Shown where
  /-- The session. -/
  sessionId : String
  /-- The project. -/
  project : String
  /-- The transcript. -/
  transcriptPath : String
  /-- The mood. -/
  mood : String
  /-- The coherence. -/
  coherence : Single
  /-- The confidence. -/
  confidence : Single
  /-- The bytes of the snapshot. -/
  snapshot : List UInt8
  /-- Whether the snapshot has more than 2000 bytes. -/
  snapshotTruncated : Bool
  /-- What is to be done. -/
  todos : Json
  /-- The files. -/
  activeFiles : Json
  /-- The decisions. -/
  decisions : Json
  /-- The next steps. -/
  nextSteps : Json
  /-- What stands in the way. -/
  blockers : Json
  /-- What was found. -/
  discoveries : Json

/-- The fields that `load` and `get` read from a payload. -/
def showEntry (env : Env) (entry : Json) (includeSnapshot : Bool) : Except Thrown Shown := do
  let snapshot ← entry.valueString "snapshot" ""
  let sessionId ← entry.valueString "session_id" ""
  let project ← entry.valueString "project" ""
  let transcriptPath ← entry.valueString "transcript_path" ""
  let mood ← entry.valueString "mood" ""
  let coherence ← entry.valueWith (getSingle env) "coherence" (env.round 0)
  let confidence ← entry.valueWith (getSingle env) "confidence" (env.round 0)
  let todos ← entry.valueJson "todos" (.arr [])
  let activeFiles ← entry.valueJson "active_files" (.arr [])
  let decisions ← entry.valueJson "decisions" (.arr [])
  let nextSteps ← entry.valueJson "next_steps" (.arr [])
  let blockers ← entry.valueJson "blockers" (.arr [])
  let discoveries ← entry.valueJson "discoveries" (.arr [])
  return {
    sessionId, project, transcriptPath, mood, coherence, confidence
    snapshot := if includeSnapshot then truncateSnapshot snapshot else []
    snapshotTruncated := decide (2000 < snapshot.utf8ByteSize)
    todos, activeFiles, decisions, nextSteps, blockers, discoveries }

/-- The newest of these events whose payload has the project. -/
def ofProject (project : String) : List Event → Except Thrown (Option Json)
  | [] => .ok none
  | event :: older =>
    match event.payload with
    | some payload =>
      if payload.isObject then do
        let named ← payload.valueString "project" ""
        if named = project then return some payload else ofProject project older
      else ofProject project older
    | none => ofProject project older

/-- The payload that `load` shows: that of the key, and without a session the newest save of the
project. -/
def loadPayload (sessionId project : String) (log : Log) : Except Thrown (Option Json) :=
  match getLatestEvent log "ledger" "save" (ledgerKey sessionId project) with
  | some payload => .ok (some payload)
  | none =>
    if sessionId = "" ∧ project ≠ "" then
      ofProject project (getEventsByDomainKind log "ledger" "save" 200)
    else .ok none

/-- `tool_ledger_load`: none without a checkpoint. -/
def toolLedgerLoad (env : Env) (params : Json) (log : Log) :
    Except Thrown (ToolResult (Option Shown)) := do
  let sessionId ← params.valueString "session_id" ""
  let project ← params.valueString "project" ""
  match ← loadPayload sessionId project log with
  | none => return .ok none
  | some entry =>
    let includeSnapshot ← params.valueWith Json.getBool "include_snapshot" false
    let shown ← showEntry env entry includeSnapshot
    return .ok (some shown)

/-- `tool_ledger_get`. -/
def toolLedgerGet (env : Env) (params : Json) (log : Log) :
    Except Thrown (ToolResult (String × Shown)) := do
  match ← requestKey params with
  | none => return .error "key or session_id required"
  | some key =>
    match getLatestEvent log "ledger" "save" key with
    | none => return .error ("Checkpoint not found: " ++ key)
    | some entry =>
      let includeSnapshot ← params.valueWith Json.getBool "include_snapshot" false
      let shown ← showEntry env entry includeSnapshot
      return .ok (key, shown)

/-- An entry of the scan. -/
structure LedgerEntry where
  /-- The key. -/
  key : String
  /-- The number of the event. -/
  seqno : Nat
  /-- The payload. -/
  payload : Json

/-- What the scan of the log has collected. -/
structure Scan where
  /-- The last entry of each key. -/
  latest : List (String × LedgerEntry) := []
  /-- The keys with a tombstone. -/
  deleted : List String := []

/-- One event of the scan. -/
def scanEvent (filterProject : String) (scan : Scan) (numbered : Event × Nat) :
    Except Thrown Scan := do
  let (event, seqno) := numbered
  if event.domain ≠ "ledger" then return scan
  else if event.kind = "delete" then
    return ⟨Assoc.remove event.target scan.latest, Assoc.insertKey event.target scan.deleted⟩
  else if event.kind = "save" then
    if event.target ∈ scan.deleted then return scan
    else
      let payload := event.payload.getD (.object [])
      let project ← if filterProject = "" then pure "" else payload.valueString "project" ""
      if project ≠ filterProject then return scan
      else
        return { scan with
          latest := Assoc.assign event.target ⟨event.target, seqno, payload⟩ scan.latest }
  else return scan

/-- `iterate_log`. -/
def scanLog (filterProject : String) (log : Log) : Except Thrown Scan :=
  log.zipIdx.foldlM (scanEvent filterProject) {}

/-- A row of the list. -/
structure ListRow where
  /-- The key. -/
  key : String
  /-- The session. -/
  sessionId : String
  /-- The project. -/
  project : String
  /-- The mood. -/
  mood : String
deriving DecidableEq

/-- The row of an entry. -/
def listRow (entry : LedgerEntry) : Except Thrown ListRow := do
  let sessionId ← entry.payload.valueString "session_id" ""
  let mood ← entry.payload.valueString "mood" ""
  let project ← entry.payload.valueString "project" ""
  return ⟨entry.key, sessionId, project, mood⟩

/-- A `size_t` from an `int`. -/
def toSize (number : Int) : Nat := (number.emod (2 ^ 64)).toNat

/-- `tool_ledger_list`. -/
def toolLedgerList (params : Json) (log : Log) : Except Thrown (ToolResult (List ListRow)) := do
  let filterProject ← params.valueString "project" ""
  let limit ← params.valueWith Json.getInt "limit" 10
  let scan ← scanLog filterProject log
  let entries := (scan.latest.map (·.2)).insertionSort fun left right => right.seqno ≤ left.seqno
  let rows ← (entries.take (toSize limit)).mapM listRow
  return .ok rows

end Chitta.Checkpoint
