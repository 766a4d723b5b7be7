import Chitta.Json
import Chitta.ThreadPool.Pool

/-!
# The replies of the daemon

A request that is a JSON object is answered by one of a few envelopes, each of which has the id of
the request, or by the answer of a pool to a task that throws, whose id is null.
-/
namespace Chitta.Daemon

/-- Bytes of a message. -/
abbrev Bytes := List UInt8

/-- The text of JSON values. -/
structure Library where
  /-- `json::parse`, none for the discarded value. -/
  parse : Bytes → Option Json
  /-- `dump`. -/
  dump : Json → Bytes

/-- The bytes of a text. -/
def bytes (text : String) : Bytes := text.toUTF8.toList

/-- `INTERNAL_ERROR`. -/
def internalError : Int := -32603

/-- `make_error`. -/
def makeError (id : Json) (code : Int) (message : String) : Json :=
  .object
    [("jsonrpc", .str "2.0"), ("id", id),
      ("error", .object [("code", .int code), ("message", .str message)])]

/-- `make_response`. -/
def makeResponse (id result : Json) : Json :=
  .object [("jsonrpc", .str "2.0"), ("id", id), ("result", result)]

/-- The content of a result with one text. -/
def content (text : String) : Json :=
  .arr [.object [("type", .str "text"), ("text", .str text)]]

/-- `ToolResult`. -/
structure ToolResult where
  /-- `is_error`. -/
  isError : Bool
  /-- `text`. -/
  text : String
  /-- `structured`. -/
  structured : Json

/-- `make_tool_response`. -/
def makeToolResponse (id : Json) (result : ToolResult) : Json :=
  makeResponse id
    (.object
      [("content", content result.text), ("isError", .bool result.isError),
        ("structured", result.structured)])

/-- What the tools of the daemon do at a moment. -/
structure Tools where
  /-- `tool_list`. -/
  list : Json
  /-- `handlers_`: a tool may throw. -/
  find : String → Option (Json → Except Thrown ToolResult)
  /-- `startup_indexes_ready`. -/
  ready : Bool
  /-- `query_embed_cache_.stats()`. -/
  embedCache : Json

/-- The result of a tool while the indexes are being loaded. -/
def loadingIndexes : ToolResult where
  isError := true
  text := "Secondary indexes are loading; retry shortly."
  structured := .object
    [("error", .str "loading"), ("loading", .bool true), ("phase", .str "secondary_indexes"),
      ("retry_after_s", .int 1)]

/-- The tools that do not need the indexes. -/
def withoutIndexes : List String := ["health_check", "status", "recall", "recall_lanes"]

/-- The call of a tool. -/
def callTool (tools : Tools) (id params : Json) : Except Thrown Json := do
  let name ← params.valueString "name" ""
  let args ← params.valueJson "arguments" (.object [])
  match tools.find name with
  | none => return makeError id (-32601) ("Unknown tool: " ++ name)
  | some tool =>
    if !tools.ready && name ∉ withoutIndexes then return makeToolResponse id loadingIndexes
    let result ← tool args
    if name = "health_check" && !result.isError then
      let structured ← result.structured.set "embed_cache" tools.embedCache
      return makeToolResponse id { result with structured }
    return makeToolResponse id result

/-- `FieldRpcHandler::handle`. -/
def handle (tools : Tools) (request : Json) : Except Thrown Json := do
  let method ← request.valueString "method" ""
  let params ← request.valueJson "params" (.object [])
  let id ← request.valueJson "id" .null
  if method = "tools/list" then return makeResponse id tools.list
  if method = "tools/call" then return ← callTool tools id params
  return makeError id (-32601) ("Unknown method: " ++ method)

/-- What is said while the daemon is loading. -/
def loadingState (health : Bool) (phase : String) : Json :=
  .object
    ([("status", .str "warming_up"), ("loading", .bool true), ("phase", .str phase),
        ("replayed_records", .null), ("total", .null), ("eta_s", .null)] ++
      if health then [] else [("error", .str "loading"), ("retry_after_s", .int 1)])

/-- How the daemon answers a request. -/
inductive Reply where
  /-- The daemon is loading: whether its health is asked for, and the phase. -/
  | loading (health : Bool) (phase : String)
  /-- The acknowledgement of a watch. -/
  | watching (sadhana : Int)
  /-- `fast_health_check_json` without a store. -/
  | storeUnavailable
  /-- `fast_health_check_json`. -/
  | health (text : String) (out : Json)
  /-- The code is being learned already. -/
  | alreadyIndexing (path : String)
  /-- The log is being compacted already. -/
  | alreadyCompacting
  /-- An error of the daemon. -/
  | failed (message : String)
  /-- The handler has answered. -/
  | handled (response : Json)
  /-- The handler has thrown. -/
  | threw (what : String)

/-- The answer to a request with an id. -/
def Reply.json (id : Json) : Reply → Json
  | .loading asked phase =>
    makeResponse id
      (.object
        ([("text", .str "daemon loading, please retry"),
            ("content", content "daemon loading, please retry"),
            ("structured", loadingState asked phase)] ++
          if asked then [] else [("isError", .bool true)]))
  | .watching sadhana =>
    makeResponse id
      (.object
        [("content", content "watching"),
          ("structured", .object [("status", .str "watching"), ("sadhana_id", .int sadhana)])])
  | .storeUnavailable => makeError id (-32000) "store unavailable"
  | .health text out => makeResponse id (.object [("content", content text), ("structured", out)])
  | .alreadyIndexing path =>
    makeResponse id
      (.object
        [("content",
            content ("already indexing — skipped duplicate learn_codebase for " ++ path)),
          ("structured",
            .object
              [("status", .str "skipped"), ("reason", .str "already_in_progress"),
                ("path", .str path)])])
  | .alreadyCompacting =>
    makeResponse id
      (.object
        [("content", content "compact_wal already running — skipped"),
          ("structured",
            .object [("status", .str "skipped"), ("reason", .str "already_in_progress")])])
  | .failed message => makeError id internalError message
  | .handled response => response
  | .threw what => ThreadPool.errorResponse what

/-- The counts of a pool: its workers, active and pending tasks. -/
structure Counts where
  /-- `worker_count`. -/
  workers : Int
  /-- `active_count`. -/
  active : Int
  /-- `pending`. -/
  pending : Int

/-- A health check tells the counts of the pool, when it has a structured result. -/
def withCounts (counts : Counts) (response : Json) : Except Thrown Json :=
  match response.find "result" with
  | none => return response
  | some result =>
    match result.find "structured" with
    | none => return response
    | some structured => do
      let structured ← structured.set "pool_workers" (.int counts.workers)
      let structured ← structured.set "pool_active" (.int counts.active)
      let structured ← structured.set "pool_pending" (.int counts.pending)
      let result ← result.set "structured" structured
      response.set "result" result

/-- The task of a pool for a request; the counts are added for the pool of all requests. -/
def task (tools : Tools) (counts : Option Counts) (request : Json) : Except Thrown Json := do
  let response ← handle tools request
  match counts with
  | none => return response
  | some counts => withCounts counts response

/-- What a pool answers for a request. -/
def work (tools : Tools) (counts : Option Counts) (request : Json) (what : String) : Reply :=
  match task tools counts request with
  | .ok response => .handled response
  | .error _ => .threw what

/-- Whether a reply is made by the loop itself. -/
def Reply.inline : Reply → Bool
  | .handled _ | .threw _ => false
  | _ => true

/-! ## The id of a reply -/

/-- An error has the id it is made with. -/
@[simp] theorem find_id_makeError (id : Json) (code : Int) (message : String) :
    (makeError id code message).find "id" = some id := by
  rw [makeError, Json.find_object]
  simp [Assoc.lookup]

/-- So has a response. -/
@[simp] theorem find_id_makeResponse (id result : Json) :
    (makeResponse id result).find "id" = some id := by
  rw [makeResponse, Json.find_object]
  simp [Assoc.lookup]

/-- The call of a tool is answered with the id. -/
theorem find_id_callTool {tools : Tools} {id params response : Json}
    (done : callTool tools id params = .ok response) : response.find "id" = some id := by
  obtain ⟨name, _, done⟩ := bind_ok done
  obtain ⟨args, _, done⟩ := bind_ok done
  cases found : tools.find name with
  | none =>
    rw [found] at done
    exact Except.ok.inj done ▸ find_id_makeError id _ _
  | some tool =>
    rw [found] at done
    dsimp only at done
    split at done
    · exact Except.ok.inj done ▸ find_id_makeResponse id _
    · obtain ⟨result, _, done⟩ := bind_ok done
      split at done
      · obtain ⟨structured, _, done⟩ := bind_ok done
        exact Except.ok.inj done ▸ find_id_makeResponse id _
      · exact Except.ok.inj done ▸ find_id_makeResponse id _

/-- A request is answered with its id. -/
theorem find_id_handle {tools : Tools} {request response id : Json}
    (read : request.valueJson "id" .null = .ok id) (done : handle tools request = .ok response) :
    response.find "id" = some id := by
  obtain ⟨method, _, done⟩ := bind_ok done
  obtain ⟨params, _, done⟩ := bind_ok done
  obtain ⟨other, own, done⟩ := bind_ok done
  have same : id = other := Except.ok.inj (read.symm.trans own)
  rw [same]
  split at done
  · exact Except.ok.inj done ▸ find_id_makeResponse other _
  · split at done
    · exact find_id_callTool done
    · exact Except.ok.inj done ▸ find_id_makeError other _ _

/-- The counts leave the id alone. -/
theorem find_id_withCounts {counts : Counts} {response result : Json}
    (done : withCounts counts response = .ok result) : result.find "id" = response.find "id" := by
  unfold withCounts at done
  split at done
  · exact Except.ok.inj done ▸ rfl
  · split at done
    · exact Except.ok.inj done ▸ rfl
    · obtain ⟨_, _, done⟩ := bind_ok done
      obtain ⟨_, _, done⟩ := bind_ok done
      obtain ⟨_, _, done⟩ := bind_ok done
      obtain ⟨_, _, done⟩ := bind_ok done
      rw [Json.find_set done, if_neg (by decide)]

/-- A task is answered with the id of its request. -/
theorem find_id_task {tools : Tools} {counts : Option Counts} {request response id : Json}
    (read : request.valueJson "id" .null = .ok id)
    (done : task tools counts request = .ok response) : response.find "id" = some id := by
  obtain ⟨first, handled, done⟩ := bind_ok done
  have own := find_id_handle read handled
  cases counts with
  | none => exact Except.ok.inj done ▸ own
  | some counts => rw [find_id_withCounts done, own]

/-- A reply of the loop has the id. -/
theorem find_id_inline {reply : Reply} (inline : reply.inline = true) (id : Json) :
    (reply.json id).find "id" = some id := by
  cases reply with
  | handled response => contradiction
  | threw what => contradiction
  | storeUnavailable => exact find_id_makeError id _ _
  | failed message => exact find_id_makeError id _ _
  | _ => exact find_id_makeResponse id _

/-- The answer to a task that throws is an error without an id. -/
theorem find_errorResponse (what : String) :
    (ThreadPool.errorResponse what).find "id" = some .null ∧
      (ThreadPool.errorResponse what).contains "error" = true := by
  unfold ThreadPool.errorResponse Json.contains
  rw [Json.find_object, Json.find_object]
  exact ⟨by simp [Assoc.lookup], by simp [Assoc.lookup]⟩

end Chitta.Daemon
