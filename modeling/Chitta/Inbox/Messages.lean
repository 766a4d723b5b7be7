import Chitta.Json

/-!
# Messages between sessions

A message is an event `send` for its recipient, written once for every recipient when it is sent.
An acknowledgement is an event `ack` for the text of the message's number, or an event `ack_all` for
a session. The event store is outside this development: it numbers and dates its events as it
pleases, and gives the events of a target in an order of its own. The names are those of the source.
-/
namespace Chitta.Inbox

/-- An event. -/
structure Event where
  /-- The number. -/
  eventId : Nat
  /-- The domain. -/
  domain : String
  /-- The kind. -/
  kind : String
  /-- The target. -/
  target : String
  /-- The payload; none for the empty text. -/
  payload : Option Json
  /-- When it was appended. -/
  tsMs : Int

/-- The events, the oldest first. -/
abbrev Log := List Event

/-- What the tools take from outside. -/
structure Env where
  /-- `CLAUDE_SESSION_ID`. -/
  session : Option String
  /-- `gethostname`; none when it fails. -/
  host : Option String
  /-- The number of the event at a place of the log. -/
  eventId : Nat → Nat
  /-- The time of the event at a place of the log. -/
  time : Nat → Int
  /-- The order in which the store gives the events of a target. -/
  order : List Event → List Event
  /-- The store gives every event once. -/
  order_perm : ∀ events, (order events).Perm events

/-! ## The event store -/

/-- The event at the end of the log. -/
def nextEvent (env : Env) (place : Nat) (domain kind target : String) (payload : Option Json) :
    Event := ⟨env.eventId place, domain, kind, target, payload, env.time place⟩

/-- `emit_event`. -/
def emitEvent (env : Env) (log : Log) (domain kind target : String) (payload : Option Json) : Log :=
  log ++ [nextEvent env log.length domain kind target payload]

/-- Whether an event is of a domain, a kind and a target. -/
def Event.isFor (event : Event) (domain kind target : String) : Bool :=
  event.domain = domain && event.kind = kind && event.target = target

/-- `get_events_by_target`. -/
def getEventsByTarget (env : Env) (log : Log) (domain kind target : String) (limit : Nat) :
    List Event :=
  (env.order (log.filter (·.isFor domain kind target))).take limit

/-- `has_event`. -/
def hasEvent (log : Log) (domain kind target : String) : Bool :=
  log.any (·.isFor domain kind target)

/-! ## Sending -/

/-- The result of a tool. -/
inductive ToolResult where
  /-- `ToolResult::ok`: the text and the structured content. -/
  | ok (text : String) (structured : Json)
  /-- `ToolResult::error`. -/
  | error (text : String)

/-- A message. -/
structure Message where
  /-- The text. -/
  content : String
  /-- The session that sends it. -/
  senderSessionId : String
  /-- The realm of the sender. -/
  senderRealm : String
  /-- The host of the sender. -/
  senderHost : String
  /-- The priority. -/
  priority : Int
  /-- The type of the text. -/
  contentType : String

/-- The payload of the event. -/
def Message.payload (message : Message) : Json :=
  .object [
    ("content", .str message.content),
    ("sender_session_id", .str message.senderSessionId),
    ("sender_realm", .str message.senderRealm),
    ("sender_host", .str message.senderHost),
    ("priority", .int message.priority),
    ("content_type", .str message.contentType)]

/-- `get_session_id`. -/
def getSessionId (env : Env) : String := env.session.getD ""

/-- The realm behind `realm:`. -/
def realmOf (target : String) : Option String :=
  if "realm:".toList.isPrefixOf target.toList then some (.ofList (target.toList.drop 6)) else none

/-- The sessions that a broadcast reaches: not the sender, and only those of the realm if there is
one. -/
def broadcastTargets (sender realmFilter : String) : List Json → Except Thrown (List String)
  | [] => .ok []
  | session :: rest => do
    let sid ← session.valueString "session_id" ""
    if sid = "" ∨ sid = sender then broadcastTargets sender realmFilter rest
    else
      let realm ← if realmFilter = "" then pure "" else session.valueString "realm" ""
      if realm ≠ realmFilter then broadcastTargets sender realmFilter rest
      else
        let others ← broadcastTargets sender realmFilter rest
        return sid :: others

/-- The sessions that a message is for; the text of the active sessions is read now. -/
def resolveTargets (target sender : String) (sessions : Option Json) :
    Except Thrown (List String) :=
  if target = "*" ∨ (realmOf target).isSome then
    match sessions with
    | some (.arr items) => broadcastTargets sender ((realmOf target).getD "") items
    | _ => .ok []
  else .ok [target]

/-- A request to send. -/
structure Request where
  /-- The target as it was given. -/
  target : String
  /-- The message. -/
  message : Message
  /-- The sessions that it is for. -/
  targets : List String

/-- The request in the arguments, or the text of the error. -/
def readRequest (env : Env) (params : Json) (sessions : Option Json) :
    Except Thrown (Except String Request) := do
  let target ← params.valueString "target" ""
  let content ← params.valueString "content" ""
  if target = "" then return .error "target is required"
  else if content = "" then return .error "content is required"
  else
    let senderSessionId ← params.valueString "sender_session_id" (getSessionId env)
    let senderRealm ← params.valueString "sender_realm" ""
    let priority ← params.valueWith Json.getInt "priority" 1
    let contentType ← params.valueString "content_type" "text"
    let senderHost := env.host.getD ""
    let targets ← resolveTargets target senderSessionId sessions
    return .ok ⟨target,
      { content, senderSessionId, senderRealm, senderHost, priority, contentType }, targets⟩

/-- The events of a message, and what is told of them. -/
def deliver (env : Env) (message : Message) : List String → Log → Log × List Json
  | [], log => (log, [])
  | target :: rest, log =>
    let id := env.eventId log.length
    let others := deliver env message rest
      (emitEvent env log "msg" "send" target (some message.payload))
    let own := if id = 0 then []
      else [.object [("session_id", .str target), ("event_id", .int id)]]
    (others.1, own ++ others.2)

/-- `tool_msg_send`. -/
def toolMsgSend (env : Env) (params : Json) (sessions : Option Json) (log : Log) :
    Except Thrown (Log × ToolResult) := do
  match ← readRequest env params sessions with
  | .error text => return (log, .error text)
  | .ok request =>
    let sender := request.message.senderSessionId
    if request.targets = [] then
      return (log, .ok "No recipients found" (.object [
        ("target", .str request.target),
        ("recipients", .int 0),
        ("sender_session_id", .str sender)]))
    else
      let (written, delivered) := deliver env request.message request.targets log
      return (written, .ok s!"Message sent to {delivered.length} recipient(s)" (.object [
        ("target", .str request.target),
        ("recipients", .int delivered.length),
        ("delivered_to", .arr delivered),
        ("priority", .int request.message.priority),
        ("sender_session_id", .str sender)]))

/-! ## Acknowledging -/

/-- `std::stoll`; none when it throws. -/
def stoll (text : String) : Option Int :=
  let trimmed := text.toList.dropWhile Char.isWhitespace
  let (negative, rest) := match trimmed with
    | '-' :: rest => (true, rest)
    | '+' :: rest => (false, rest)
    | _ => (false, trimmed)
  let digits := rest.takeWhile Char.isDigit
  if digits = [] then none
  else
    let size : Int := digits.foldl (fun value digit => 10 * value + (digit.toNat - '0'.toNat)) 0
    let value := if negative then -size else size
    if -(2 ^ 63) ≤ value ∧ value < 2 ^ 63 then some value else none

/-- `parse_id`. -/
def parseId (params : Json) (key : String) : Int × String :=
  match params.find key with
  | some (.int value) =>
    let id := value.bmod (2 ^ 64)
    (id, toString id)
  | some (.str text) => ((stoll text).getD 0, text)
  | _ => (0, "")

/-- The message that an acknowledgement names; none when it names none. -/
def ackTarget (params : Json) : Except Thrown (Option String) := do
  let messageId ← params.valueString "message_id" ""
  if messageId = "" then
    -- A number has been refused already: the text above was read from it.
    let (id, text) := parseId params "message_id"
    if id ≤ 0 then return none else return some text
  else return some messageId

/-- `tool_msg_ack`. -/
def toolMsgAck (env : Env) (params : Json) (log : Log) : Except Thrown (Log × ToolResult) := do
  match ← ackTarget params with
  | none => return (log, .error "message_id is required")
  | some messageId =>
    return (emitEvent env log "msg" "ack" messageId none, .ok "Message acknowledged" (.object [
      ("message_id", .str messageId),
      ("event_id", .int (env.eventId log.length))]))

/-- The session of a request. -/
def requestSession (env : Env) (params : Json) : Except Thrown String :=
  params.valueString "session_id" (getSessionId env)

/-- `tool_msg_ack_all`. -/
def toolMsgAckAll (env : Env) (params : Json) (log : Log) : Except Thrown (Log × ToolResult) := do
  let sessionId ← requestSession env params
  return (emitEvent env log "msg" "ack_all" sessionId none,
    .ok "All messages acknowledged" (.object [
      ("session_id", .str sessionId),
      ("event_id", .int (env.eventId log.length))]))

/-! ## Reading -/

/-- The row of a message. -/
def inboxRow (event : Event) : Except Thrown Json := do
  let payload := event.payload.getD (.object [])
  let content ← payload.valueString "content" ""
  let senderSessionId ← payload.valueString "sender_session_id" ""
  let senderRealm ← payload.valueString "sender_realm" ""
  let senderHost ← payload.valueString "sender_host" ""
  let contentType ← payload.valueString "content_type" "text"
  let priority ← payload.valueWith Json.getInt "priority" 1
  return .object [
    ("memory_id", .int event.eventId),
    ("content", .str content),
    ("sender_session_id", .str senderSessionId),
    ("sender_realm", .str senderRealm),
    ("sender_host", .str senderHost),
    ("content_type", .str contentType),
    ("score", .int priority),
    ("ts_ms", .int (event.tsMs.bmod (2 ^ 32)))]

/-- The rows of the messages without an event `ack`. -/
def inboxRows (log : Log) : List Event → Except Thrown (List Json)
  | [] => .ok []
  | event :: rest =>
    if hasEvent log "msg" "ack" (toString event.eventId) then inboxRows log rest
    else do
      let row ← inboxRow event
      let rows ← inboxRows log rest
      return row :: rows

/-- A `size_t` from an `int`. -/
def toSize (number : Int) : Nat := (number.emod (2 ^ 64)).toNat

/-- The result with these messages. -/
def inboxResult (sessionId : String) (messages : List Json) : ToolResult :=
  .ok (if messages = [] then "No messages found"
      else s!"{messages.length} message(s) found for {sessionId}\n")
    (.object [
      ("session_id", .str sessionId),
      ("count", .int messages.length),
      ("messages", .arr messages)])

/-- `tool_msg_inbox`. -/
def toolMsgInbox (env : Env) (params : Json) (log : Log) : Except Thrown ToolResult := do
  let sessionId ← requestSession env params
  let limit ← params.valueWith Json.getInt "limit" 20
  let events := getEventsByTarget env log "msg" "send" sessionId (toSize limit)
  let messages ← inboxRows log events
  return inboxResult sessionId messages

end Chitta.Inbox
