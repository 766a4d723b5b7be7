import Chitta.Checkpoint.Tools
import Chitta.Throwing

/-!
# The tools of long tasks

A long task is a record of the task store, with a status and the text of a payload, and its history
is in the event log. The two stores are outside this development: the task store may refuse an
update or a transition, and then changes nothing; the log keeps its records in the order in which
they are appended. Times and the texts for people are left out. The names are those of the source.
-/
namespace Chitta.LongTask

open Checkpoint (ToolResult)

/-- The record of a task. -/
structure Task where
  /-- The status. -/
  status : String
  /-- The text of the payload. -/
  payload : String
deriving DecidableEq, Repr

/-- The two stores. -/
structure World where
  /-- The tasks. -/
  tasks : List (String × Task)
  /-- The records of the event log, the oldest first. -/
  log : List Json

/-- What the tools take from outside. -/
structure Env where
  /-- `json::parse`; none when it throws. -/
  parse : String → Option Json
  /-- `dump`. -/
  dump : Json → String
  /-- `cf_task_get`: the text of a task, empty when it does not fit into the buffer. -/
  taskText : String → Task → String
  /-- `cf_task_update_payload` succeeds. -/
  updates : String → Task → String → Bool
  /-- `cf_task_transition`: the status after a command; none when it is refused. -/
  transition : String → Task → String → Option String
  /-- `cf_emit_event` succeeds. -/
  emits : List Json → Bool
  /-- The record of an event: its domain, kind, entity and payload. -/
  record : String → String → String → String → Json
  /-- A record tells its domain and entity. -/
  record_inj : ∀ {domain kind entity payload domain' kind' entity' payload'},
    record domain kind entity payload = record domain' kind' entity' payload' →
      domain = domain' ∧ entity = entity'
  /-- `std::time`. -/
  time : Int

/-- A tool at work. -/
abbrev Program (α : Type) := Throwing World Thrown α

variable (env : Env)

/-- `parse_json_obj`. -/
def parseJsonObj (text : String) : Json :=
  if text = "" then .obj [] else (env.parse text).getD (.obj [])

/-! ## The stores -/

/-- `task_get`: the empty text for a task that is not found. -/
def taskGet (taskId : String) : Program String := fun world =>
  (.ok (((Assoc.lookup taskId world.tasks).map (env.taskText taskId)).getD ""), world)

/-- A task is written. -/
def World.put (world : World) (taskId : String) (task : Task) : World :=
  { world with tasks := Assoc.assign taskId task world.tasks }

/-- `task_update_payload`. -/
def taskUpdatePayload (taskId payload : String) : Program Bool := fun world =>
  match Assoc.lookup taskId world.tasks with
  | none => (.ok false, world)
  | some task =>
    if env.updates taskId task payload then (.ok true, world.put taskId { task with payload })
    else (.ok false, world)

/-- `task_transition`. -/
def taskTransition (taskId newStatus : String) : Program Bool := fun world =>
  match Assoc.lookup taskId world.tasks with
  | none => (.ok false, world)
  | some task =>
    match env.transition taskId task newStatus with
    | none => (.ok false, world)
    | some status => (.ok true, world.put taskId { task with status })

/-- `emit_event`: the number of the event. -/
def emitEvent (domain kind entityId : String) (payload : Json) : Program Nat := fun world =>
  if env.emits world.log then
    (.ok world.log.length,
      { world with log := world.log ++ [env.record domain kind entityId (env.dump payload)] })
  else (.error (.runtimeError "emit_event"), world)

/-! ## Completing a task -/

/-- The payload of a completed task, from the text of the task. -/
def completedPayload (raw outcome : String) : Except Thrown String := do
  let stored ← (parseJsonObj env raw).valueString "payload" ""
  let payload ← (parseJsonObj env stored).set "status" (.str "completed")
  let payload ← payload.set "outcome" (.str outcome)
  return env.dump payload

/-- `tool_long_task_complete`. -/
def toolLongTaskComplete (params : Json) : Program (ToolResult Json) := do
  let taskId ← liftM (params.valueString "task_id" "")
  let outcome ← liftM (params.valueString "outcome" "")
  if taskId = "" ∨ outcome = "" then return .error "task_id and outcome are required"
  else
    let raw ← taskGet env taskId
    if raw = "" then return .error ("Task not found: " ++ taskId)
    else
      let payload ← liftM (completedPayload env raw outcome)
      let updated ← taskUpdatePayload env taskId payload
      if updated = false then return .error ("Failed to update task payload: " ++ taskId)
      else
        let moved ← taskTransition env taskId "complete"
        if moved = false then
          return .error ("Failed to transition task to complete: " ++ taskId)
        else
          let _ ← emitEvent env "long_task" "complete" taskId (.object [("outcome", .str outcome)])
          return .ok (.object [("task_id", .str taskId), ("status", .str "completed"),
            ("outcome", .str outcome)])

/-! ## The active task -/

/-- The realm of a start event. -/
def startRealm (payload : String) : Except Thrown String :=
  (parseJsonObj env payload).valueString "realm" ""

/-- One record of the scan of `tool_long_task_active`; the set of finished tasks is never read. -/
def scanActive (filterRealm : String) (active : List (String × Json)) (op : Json) :
    Except Thrown (List (String × Json)) := do
  let domain ← op.valueString "domain" ""
  if domain ≠ "long_task" then return active
  else
    let entityId ← op.valueString "entity_id" ""
    let kind ← op.valueString "kind" ""
    if kind = "start" then
      let payload ← op.valueString "payload" ""
      let realm ← if filterRealm = "" then pure "" else startRealm env payload
      if realm ≠ filterRealm then return active
      else return Assoc.assign entityId (parseJsonObj env payload) active
    else if kind = "complete" ∨ kind = "fail" then return Assoc.remove entityId active
    else return active

/-- What `tool_long_task_active` reports about a task. -/
structure Active where
  /-- The task. -/
  taskId : String
  /-- Its goal. -/
  goal : String
  /-- Its realm. -/
  realm : String
  /-- Its iterations. -/
  iterations : Int

/-- The report about a task with the payload of its start; the current payload is in the task
store. -/
def reportActive (world : World) (taskId : String) (payload : Json) : Except Thrown Active := do
  let raw := ((Assoc.lookup taskId world.tasks).map (env.taskText taskId)).getD ""
  let stored ← (parseJsonObj env raw).valueString "payload" ""
  let current := parseJsonObj env stored
  let startedGoal ← payload.valueString "goal" ""
  let goal ← current.valueString "goal" startedGoal
  let startedRealm ← payload.valueString "realm" ""
  let realm ← current.valueString "realm" startedRealm
  let iterations ← current.valueWith Json.getInt "iterations" 0
  return { taskId, goal, realm, iterations }

/-- `tool_long_task_active`: none when no task is found. The iteration of an `unordered_map` starts
anywhere, with these keys at the place `first`. -/
def toolLongTaskActive (first : List String → Nat) (params : Json) (world : World) :
    Except Thrown (Option Active) := do
  let filterRealm ← params.valueString "realm" ""
  let active ← world.log.foldlM (scanActive env filterRealm) []
  match active[first (active.map (·.1)) % active.length]? with
  | none => return none
  | some (taskId, payload) =>
    let report ← reportActive env world taskId payload
    return some report

/-! ## Checkpoints -/

/-- One record of the scan of `tool_unified_checkpoint`. -/
def scanLast (realm : String) (activeTaskId : String) (op : Json) : Except Thrown String := do
  let domain ← op.valueString "domain" ""
  if domain ≠ "long_task" then return activeTaskId
  else
    let kind ← op.valueString "kind" ""
    let entityId ← op.valueString "entity_id" ""
    if kind = "start" then
      let payload ← op.valueString "payload" ""
      let started ← startRealm env payload
      return if started = realm ∨ realm = "" then entityId else activeTaskId
    else if kind = "complete" ∨ kind = "fail" then
      return if entityId = activeTaskId then "" else activeTaskId
    else return activeTaskId

/-- The fields that are copied from the arguments. -/
def copiedFields (params : Json) : List (String × Json) :=
  ["next_steps", "active_files", "discoveries"].filterMap fun field =>
    (params.find field).map fun value => (field, value)

/-- The summary of a checkpoint becomes that of its task: whether the store took it. -/
def noteSummary (taskId summary : String) : Program Bool := do
  if summary = "" then return true
  else
    let raw ← taskGet env taskId
    if raw = "" then return true
    else
      let stored ← liftM ((parseJsonObj env raw).valueString "payload" "")
      let payload ← liftM ((parseJsonObj env stored).set "completed_summary" (.str summary))
      taskUpdatePayload env taskId (env.dump payload)

/-- Where `tool_unified_checkpoint` has recorded a checkpoint. -/
inductive Recorded where
  /-- On a long task. -/
  | longTask (taskId : String) (eventId : Nat)
  /-- In the ledger. -/
  | ledger (eventId : Nat)
deriving DecidableEq, Repr

/-- `tool_unified_checkpoint`. -/
def toolUnifiedCheckpoint (params : Json) : Program (ToolResult Recorded) := do
  let realm ← liftM (params.valueString "realm" "brahman")
  let mood ← liftM (params.valueString "mood" "flowing")
  let summary ← liftM (params.valueString "summary" "")
  let activeTaskId ← fun world => (world.log.foldlM (scanLast env realm) "", world)
  let fields := [("mood", .str mood), ("summary", .str summary)] ++ copiedFields params
  if activeTaskId ≠ "" then
    let eventId ← emitEvent env "long_task" "checkpoint" activeTaskId (.object fields)
    let noted ← noteSummary env activeTaskId summary
    if noted = false then
      return .error ("Failed to update active task checkpoint payload: " ++ activeTaskId)
    else return .ok (.longTask activeTaskId eventId)
  else
    let key := "checkpoint-" ++ toString env.time
    -- the float 0.85 as the number that its text shows
    let grade : Json := .float (14260634 / 16777216)
    let eventId ← emitEvent env "ledger" "save" key (.object (fields ++ [("session_id", .str key),
      ("project", .str realm), ("coherence", grade), ("confidence", grade),
      ("snapshot", .str summary)]))
    return .ok (.ledger eventId)

end Chitta.LongTask
