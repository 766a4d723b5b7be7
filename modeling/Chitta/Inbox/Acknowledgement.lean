import Mathlib.Data.List.Basic
import Chitta.Inbox.Messages

/-!
# What the inbox shows

Sends, acknowledgements and other events in any order leave a log. The inbox of a session should
show the messages to it that were neither acknowledged by their numbers nor by a later
acknowledgement of everything. It goes by the events `ack` alone, and a number never becomes one.
-/
namespace Chitta.Inbox

/-- Whether an event is a message or the acknowledgement of one. -/
def Event.isMessage (event : Event) : Bool :=
  event.domain = "msg" && (event.kind = "send" || event.kind = "ack")

/-- An operation on the event store. -/
inductive Op where
  /-- A call of `msg_send`, with the active sessions at that time. -/
  | send (params : Json) (sessions : Option Json)
  /-- A call of `msg_ack`. -/
  | ack (params : Json)
  /-- A call of `msg_ack_all`. -/
  | ackAll (params : Json)
  /-- An event about something else. -/
  | emit (event : Event) (foreign : event.isMessage = false)

/-- The log behind a tool; one that throws leaves it alone. -/
def written (log : Log) (result : Except Thrown (Log × ToolResult)) : Log :=
  match result with
  | .ok (next, _) => next
  | .error _ => log

/-- The log behind an operation. -/
def Op.run (env : Env) (log : Log) : Op → Log
  | .send params sessions => written log (toolMsgSend env params sessions log)
  | .ack params => written log (toolMsgAck env params log)
  | .ackAll params => written log (toolMsgAckAll env params log)
  | .emit event _ => log ++ [event]

/-- The log that a history of operations leaves. -/
def logOf (env : Env) (history : List Op) : Log := history.foldl (Op.run env) []

/-! ## What should be shown -/

/-- A message on its way to a session. -/
structure Delivery where
  /-- Its number. -/
  eventId : Nat
  /-- The session. -/
  target : String
  /-- The message. -/
  message : Message
  /-- When it was sent. -/
  tsMs : Int

/-- The deliveries of a message, from a place of the log on. -/
def deliveries (env : Env) (message : Message) : List String → Nat → List Delivery
  | [], _ => []
  | target :: rest, place =>
    ⟨env.eventId place, target, message, env.time place⟩ :: deliveries env message rest (place + 1)

/-- The deliveries of an operation. -/
def Op.deliveries (env : Env) (op : Op) (place : Nat) : List Delivery :=
  match op with
  | .send params sessions => match readRequest env params sessions with
    | .ok (.ok request) => Inbox.deliveries env request.message request.targets place
    | _ => []
  | _ => []

/-- The deliveries to a session, each with the operations after it. -/
def sentTo (env : Env) (session : String) : List Op → Log → List (Delivery × List Op)
  | [], _ => []
  | op :: later, log =>
    ((op.deliveries env log.length).filter (·.target = session)).map (·, later) ++
      sentTo env session later (op.run env log)

/-- Whether an operation acknowledges a message by its number. -/
def Op.acksNumber (eventId : Nat) : Op → Bool
  | .ack params => params.find "message_id" = some (.int eventId)
  | _ => false

/-- Whether an operation acknowledges a message by the text of its number. -/
def Op.acksText (eventId : Nat) : Op → Bool
  | .ack params => params.find "message_id" = some (.str (toString eventId))
  | _ => false

/-- Whether an operation acknowledges everything of a session. -/
def Op.acksAll (env : Env) (session : String) : Op → Bool
  | .ackAll params => match requestSession env params with
    | .ok named => named = session
    | .error _ => false
  | _ => false

/-- Whether a message is acknowledged: by its number in any form at any time, or by a later
acknowledgement of everything. -/
def acknowledged (env : Env) (session : String) (history : List Op) (sent : Delivery × List Op) :
    Bool :=
  history.any (fun op => op.acksNumber sent.1.eventId || op.acksText sent.1.eventId) ||
    sent.2.any (·.acksAll env session)

/-- The messages that the inbox should show. -/
def pending (env : Env) (session : String) (history : List Op) : List Delivery :=
  ((sentTo env session history []).filter fun sent =>
    !acknowledged env session history sent).map (·.1)

/-- The row of a message. -/
def Delivery.row (delivery : Delivery) : Json :=
  .object [
    ("memory_id", .int delivery.eventId),
    ("content", .str delivery.message.content),
    ("sender_session_id", .str delivery.message.senderSessionId),
    ("sender_realm", .str delivery.message.senderRealm),
    ("sender_host", .str delivery.message.senderHost),
    ("content_type", .str delivery.message.contentType),
    ("score", .int delivery.message.priority),
    ("ts_ms", .int (delivery.tsMs.bmod (2 ^ 32)))]

/-- The inbox of a session shows its pending messages, in some order, to every request with a limit
that covers the messages that were sent to it. -/
def ShowsPending (env : Env) (session : String) (history : List Op) : Prop :=
  ∀ params limit, requestSession env params = .ok session →
    params.valueWith Json.getInt "limit" 20 = .ok limit →
    (sentTo env session history []).length ≤ toSize limit →
    ∃ rows, toolMsgInbox env params (logOf env history) = .ok (inboxResult session rows) ∧
      rows.Perm ((pending env session history).map Delivery.row)

/-- Every message to a session that is acknowledged is acknowledged by the text of its number. -/
def AcknowledgedByText (env : Env) (session : String) (history : List Op) : Prop :=
  ∀ sent ∈ sentTo env session history [], acknowledged env session history sent →
    history.any (·.acksText sent.1.eventId)

/-! ## The log of a history -/

/-- The event of a delivery. -/
def Delivery.event (delivery : Delivery) : Event :=
  ⟨delivery.eventId, "msg", "send", delivery.target, some delivery.message.payload, delivery.tsMs⟩

variable {env : Env}

/-- Delivering appends the deliveries. -/
theorem deliver_log (message : Message) (targets : List String) (log : Log) :
    (deliver env message targets log).1 =
      log ++ (deliveries env message targets log.length).map Delivery.event := by
  induction targets generalizing log with
  | nil => simp [deliver, deliveries]
  | cons target rest ih =>
    have rest_log := ih (emitEvent env log "msg" "send" target (some message.payload))
    have appended : (deliver env message (target :: rest) log).1 =
        (deliver env message rest
          (emitEvent env log "msg" "send" target (some message.payload))).1 := rfl
    rw [appended, rest_log, deliveries, emitEvent, List.length_append]
    simp [Delivery.event, nextEvent]

/-- The texts that an operation acknowledges. -/
def Op.ackText : Op → Option String
  | .ack params => match ackTarget params with
    | .ok named => named
    | .error _ => none
  | _ => none

/-- What an operation appends: its deliveries, an acknowledgement, or another event. -/
theorem run_cases (env : Env) (log : Log) (op : Op) :
    (op.ackText = none ∧
        op.run env log = log ++ (op.deliveries env log.length).map Delivery.event) ∨
      (op.deliveries env log.length = [] ∧ ∃ text, op.ackText = some text ∧
        op.run env log = emitEvent env log "msg" "ack" text none) ∨
      (op.deliveries env log.length = [] ∧ op.ackText = none ∧
        ∃ event : Event, event.isMessage = false ∧ op.run env log = log ++ [event]) := by
  cases op with
  | send params sessions =>
    left
    refine ⟨rfl, ?_⟩
    simp only [Op.run, Op.deliveries, toolMsgSend]
    cases readRequest env params sessions with
    | error thrown => simp [written, bind, Except.bind]
    | ok read =>
      cases read with
      | error text => simp [written, bind, Except.bind, pure, Except.pure]
      | ok request =>
        by_cases none : request.targets = []
        · simp [written, bind, Except.bind, pure, Except.pure, none, Inbox.deliveries]
        · simp [written, bind, Except.bind, pure, Except.pure, none, deliver_log]
  | ack params =>
    simp only [Op.run, Op.ackText, toolMsgAck]
    cases ackTarget params with
    | error thrown => exact .inl ⟨rfl, by simp [written, bind, Except.bind, Op.deliveries]⟩
    | ok named =>
      cases named with
      | none =>
        exact .inl ⟨rfl, by simp [written, bind, Except.bind, pure, Except.pure, Op.deliveries]⟩
      | some text => exact .inr (.inl ⟨rfl, text, rfl, rfl⟩)
  | ackAll params =>
    simp only [Op.run, toolMsgAckAll]
    cases requestSession env params with
    | error thrown => exact .inl ⟨rfl, by simp [written, bind, Except.bind, Op.deliveries]⟩
    | ok session => exact .inr (.inr ⟨rfl, rfl, _, rfl, rfl⟩)
  | emit event foreign => exact .inr (.inr ⟨rfl, rfl, event, foreign, rfl⟩)

/-- The messages in the log of a history. -/
theorem filter_sends (session : String) (history : List Op) (log : Log) :
    (history.foldl (Op.run env) log).filter (·.isFor "msg" "send" session) =
      log.filter (·.isFor "msg" "send" session) ++
        (sentTo env session history log).map (·.1.event) := by
  induction history generalizing log with
  | nil => simp [sentTo]
  | cons op later ih =>
    have here : (op.run env log).filter (·.isFor "msg" "send" session) =
        log.filter (·.isFor "msg" "send" session) ++
          ((op.deliveries env log.length).filter (·.target = session)).map Delivery.event := by
      rcases run_cases env log op with
        ⟨_, appended⟩ | ⟨nothing, text, _, appended⟩ | ⟨nothing, _, event, foreign, appended⟩
      · rw [appended, List.filter_append, List.filter_map]
        congr 2
      · rw [appended, nothing, emitEvent, List.filter_append]
        simp [Event.isFor, nextEvent]
      · rw [appended, nothing, List.filter_append]
        have skipped : event.isFor "msg" "send" session = false := by
          simp only [Event.isMessage, Event.isFor] at foreign ⊢
          grind
        simp [skipped]
    rw [List.foldl_cons, ih, here, sentTo, List.map_append, List.map_map, List.append_assoc]
    rfl

/-- The log has the acknowledgements of a history. -/
theorem hasEvent_ack (text : String) (history : List Op) (log : Log) :
    hasEvent (history.foldl (Op.run env) log) "msg" "ack" text =
      (hasEvent log "msg" "ack" text || history.any (fun op => op.ackText = some text)) := by
  induction history generalizing log with
  | nil => simp
  | cons op later ih =>
    have here : hasEvent (op.run env log) "msg" "ack" text =
        (hasEvent log "msg" "ack" text || decide (op.ackText = some text)) := by
      rcases run_cases env log op with
        ⟨nothing, appended⟩ | ⟨_, acked, named, appended⟩ | ⟨_, nothing, event, foreign, appended⟩
      · rw [appended, nothing]
        simp [hasEvent, List.any_append, Event.isFor, Delivery.event]
      · rw [appended, named]
        simp [hasEvent, emitEvent, nextEvent, List.any_append, Event.isFor]
      · rw [appended, nothing]
        have skipped : event.isFor "msg" "ack" text = false := by
          simp only [Event.isMessage, Event.isFor] at foreign ⊢
          grind
        simp [hasEvent, List.any_append, skipped]
    rw [List.foldl_cons, ih, here, List.any_cons, Bool.or_assoc]

/-! ## Acknowledgements by text -/

/-- An acknowledgement has the text that it names, if there is one. -/
theorem ackText_eq {params : Json} {text : String} (named : text ≠ "") :
    (Op.ack params).ackText = some text ↔ params.find "message_id" = some (.str text) := by
  cases params with
  | obj fields =>
    cases found : Assoc.lookup "message_id" fields with
    | none =>
      simp [Op.ackText, ackTarget, Json.valueString, Json.valueWith, parseId, Json.find, found,
        bind, Except.bind, pure, Except.pure]
    | some value =>
      cases value with
      | str given =>
        by_cases empty : given = ""
        · have unread : stoll "" = none := by decide
          have other : "" ≠ text := Ne.symm named
          simp [Op.ackText, ackTarget, Json.valueString, Json.valueWith, parseId, Json.find, found,
            Json.getString, bind, Except.bind, pure, Except.pure, empty, unread, other]
        · simp [Op.ackText, ackTarget, Json.valueString, Json.valueWith, Json.find, found,
            Json.getString, bind, Except.bind, pure, Except.pure, empty]
      | _ =>
        simp [Op.ackText, ackTarget, Json.valueString, Json.valueWith, Json.find, found,
          Json.getString, bind, Except.bind]
  | _ => simp [Op.ackText, ackTarget, Json.valueString, Json.valueWith, bind,
      Except.bind, Json.find]

/-- The text of a number is not empty. -/
theorem toString_ne (eventId : Nat) : toString eventId ≠ "" := Nat.repr_ne_empty

/-- An acknowledgement reaches the log when it gives the text of the number. -/
theorem acksText_iff (eventId : Nat) (op : Op) :
    op.ackText = some (toString eventId) ↔ op.acksText eventId = true := by
  cases op with
  | ack params =>
    rw [ackText_eq (toString_ne eventId)]
    simp [Op.acksText]
  | _ => simp [Op.ackText, Op.acksText]

/-- A message has an event `ack` when its number was acknowledged as a text. -/
theorem hasEvent_iff (eventId : Nat) (history : List Op) :
    hasEvent (logOf env history) "msg" "ack" (toString eventId) =
      history.any (·.acksText eventId) := by
  rw [logOf, hasEvent_ack]
  simp only [hasEvent, List.any_nil, Bool.false_or]
  congr 1
  funext op
  rw [Bool.eq_iff_iff, decide_eq_true_iff]
  exact acksText_iff eventId op

/-! ## The rows -/

/-- The row that is read from an event. -/
def rowOf (event : Event) : Json :=
  match inboxRow event with
  | .ok row => row
  | .error _ => .null

/-- A priority is a number of 32 bits. -/
theorem readRequest_priority {params : Json} {sessions : Option Json} {request : Request}
    (read : readRequest env params sessions = .ok (.ok request)) :
    -2147483648 ≤ request.message.priority ∧ request.message.priority ≤ 2147483647 := by
  obtain ⟨target, _, read⟩ := bind_ok read
  obtain ⟨content, _, read⟩ := bind_ok read
  split at read
  · cases read
  · split at read
    · cases read
    · obtain ⟨sender, _, read⟩ := bind_ok read
      obtain ⟨realm, _, read⟩ := bind_ok read
      obtain ⟨priority, number, read⟩ := bind_ok read
      obtain ⟨contentType, _, read⟩ := bind_ok read
      obtain ⟨targets, _, read⟩ := bind_ok read
      obtain rfl := Except.ok.inj (Except.ok.inj read)
      cases params with
      | obj fields =>
        simp only [Json.valueWith] at number
        split at number
        · exact Json.getInt_range number
        · obtain rfl := Except.ok.inj number
          have one : (-2147483648 : Int) ≤ 1 ∧ (1 : Int) ≤ 2147483647 := by decide
          exact one
      | _ => contradiction

/-- The deliveries of a message carry it. -/
theorem message_of_mem {message : Message} {targets : List String} {place : Nat}
    {delivery : Delivery} (inside : delivery ∈ deliveries env message targets place) :
    delivery.message = message := by
  induction targets generalizing place with
  | nil => cases inside
  | cons target rest ih =>
    rcases List.mem_cons.mp inside with rfl | later
    · rfl
    · exact ih later

/-- The message of an event is read as it was sent. -/
theorem inboxRow_event {delivery : Delivery} (low : -2147483648 ≤ delivery.message.priority)
    (high : delivery.message.priority ≤ 2147483647) :
    inboxRow delivery.event = .ok delivery.row := by
  have text : ∀ name fallback value, delivery.message.payload.find name = some (.str value) →
      delivery.message.payload.valueString name fallback = .ok value := by
    intro name fallback value found
    exact Json.valueWith_of_find found Json.getString fallback
  have fields : ∀ name, delivery.message.payload.find name = _ := Json.find_object _
  have priority : delivery.message.payload.valueWith Json.getInt "priority" 1 =
      .ok delivery.message.priority := by
    have found : delivery.message.payload.find "priority" =
        some (.int delivery.message.priority) := by
      rw [fields]
      simp [Assoc.lookup]
    rw [Json.valueWith_of_find found, Json.getInt_int low high]
  have payload : delivery.event.payload.getD (.object []) = delivery.message.payload := rfl
  rw [inboxRow, payload, text "content" "" delivery.message.content,
    text "sender_session_id" "" delivery.message.senderSessionId,
    text "sender_realm" "" delivery.message.senderRealm,
    text "sender_host" "" delivery.message.senderHost,
    text "content_type" "text" delivery.message.contentType, priority]
  · rfl
  all_goals
    rw [fields]
    simp [Assoc.lookup]

/-- The messages that were sent are read as they were sent. -/
theorem inboxRow_sent {session : String} {history : List Op} {log : Log}
    {sent : Delivery × List Op} (inside : sent ∈ sentTo env session history log) :
    inboxRow sent.1.event = .ok sent.1.row := by
  induction history generalizing log with
  | nil => cases inside
  | cons op later ih =>
    rcases List.mem_append.mp inside with here | there
    · obtain ⟨delivery, member, rfl⟩ := List.mem_map.mp here
      have own := (List.mem_filter.mp member).1
      cases op with
      | send params sessions =>
        simp only [Op.deliveries] at own
        split at own
        · rename_i request read
          obtain ⟨low, high⟩ := readRequest_priority read
          rw [← message_of_mem own] at low high
          exact inboxRow_event low high
        · cases own
      | _ => cases own
    · exact ih there

/-- The rows of events that can be read. -/
theorem inboxRows_eq (log : Log) {events : List Event}
    (read : ∀ event ∈ events, inboxRow event = .ok (rowOf event)) :
    inboxRows log events =
      .ok ((events.filter fun event => !hasEvent log "msg" "ack" (toString event.eventId)).map
        rowOf) := by
  induction events with
  | nil => rfl
  | cons event rest ih =>
    have others := ih fun other inside => read other (List.mem_cons_of_mem _ inside)
    rw [inboxRows, others]
    by_cases acked : hasEvent log "msg" "ack" (toString event.eventId) = true
    · rw [if_pos acked, List.filter_cons_of_neg (by simpa using acked)]
    · rw [if_neg acked, List.filter_cons_of_pos (by simpa using acked),
        read event List.mem_cons_self]
      rfl

/-- What the inbox shows: the messages to the session whose numbers were not acknowledged as
texts. -/
theorem toolMsgInbox_eq {session : String} (history : List Op) {params : Json} {limit : Int}
    (named : requestSession env params = .ok session)
    (limited : params.valueWith Json.getInt "limit" 20 = .ok limit)
    (covers : (sentTo env session history []).length ≤ toSize limit) :
    ∃ rows, toolMsgInbox env params (logOf env history) = .ok (inboxResult session rows) ∧
      rows.Perm (((sentTo env session history []).filter fun sent =>
        !history.any (·.acksText sent.1.eventId)).map (·.1.row)) := by
  have sends : (logOf env history).filter (·.isFor "msg" "send" session) =
      (sentTo env session history []).map (·.1.event) := filter_sends session history []
  have all : getEventsByTarget env (logOf env history) "msg" "send" session (toSize limit) =
      env.order ((sentTo env session history []).map (·.1.event)) := by
    rw [getEventsByTarget, sends]
    apply List.take_of_length_le
    rw [(env.order_perm _).length_eq, List.length_map]
    exact covers
  have readable : ∀ event ∈ env.order ((sentTo env session history []).map (·.1.event)),
      inboxRow event = .ok (rowOf event) := by
    intro event inside
    rw [(env.order_perm _).mem_iff] at inside
    obtain ⟨one, member, rfl⟩ := List.mem_map.mp inside
    rw [rowOf, inboxRow_sent member]
  have shown := inboxRows_eq (logOf env history) readable
  have permuted := ((env.order_perm ((sentTo env session history []).map (·.1.event))).filter
    fun event => !hasEvent (logOf env history) "msg" "ack" (toString event.eventId)).map rowOf
  refine ⟨_, ?_, permuted.trans (List.Perm.of_eq ?_)⟩
  · rw [toolMsgInbox, named]
    simp only [bind, Except.bind, limited, all, shown]
    rfl
  · rw [List.filter_map, List.map_map]
    have kept : ((fun event => !hasEvent (logOf env history) "msg" "ack" (toString event.eventId)) ∘
        fun one : Delivery × List Op => one.1.event) =
        fun one => !history.any (·.acksText one.1.eventId) := by
      funext one
      show (!hasEvent (logOf env history) "msg" "ack" (toString one.1.eventId)) = _
      rw [hasEvent_iff]
    rw [kept]
    apply List.map_congr_left
    intro one member
    show rowOf one.1.event = one.1.row
    rw [rowOf, inboxRow_sent (List.mem_filter.mp member).1]

/-! ## Histories that the inbox follows -/

/-- A message that was acknowledged as a text is acknowledged. -/
theorem acknowledged_of_text {session : String} {history : List Op} {sent : Delivery × List Op}
    (acked : history.any (·.acksText sent.1.eventId)) :
    acknowledged env session history sent = true := by
  obtain ⟨op, inside, names⟩ := List.any_eq_true.mp acked
  have found : history.any (fun op => op.acksNumber sent.1.eventId ||
      op.acksText sent.1.eventId) = true :=
    List.any_eq_true.mpr ⟨op, inside, by rw [names, Bool.or_true]⟩
  rw [acknowledged, found, Bool.true_or]

/-- An inbox in which every acknowledgement is by text shows what it should. -/
theorem AcknowledgedByText.shows {session : String} {history : List Op}
    (byText : AcknowledgedByText env session history) : ShowsPending env session history := by
  intro params limit named limited covers
  obtain ⟨rows, shown, perm⟩ := toolMsgInbox_eq history named limited covers
  refine ⟨rows, shown, perm.trans (List.Perm.of_eq ?_)⟩
  rw [pending, List.map_map]
  have same : (sentTo env session history []).filter (fun sent =>
      !history.any (·.acksText sent.1.eventId)) =
      (sentTo env session history []).filter fun sent =>
        !acknowledged env session history sent := by
    apply List.filter_congr
    intro sent member
    rw [Bool.not_inj_iff, Bool.eq_iff_iff]
    exact ⟨acknowledged_of_text, byText sent member⟩
  rw [same]
  rfl

/-- Results with the same structure have the same messages. -/
theorem inboxResult_inj {session : String} {first second : List Json}
    (same : inboxResult session first = inboxResult session second) : first = second := by
  have objects := (ToolResult.ok.inj same).2
  have fields := congrArg (Json.find · "messages") objects
  simp only [Json.find_object] at fields
  simpa [Assoc.lookup] using fields

/-- A request for the whole inbox of a session. -/
def wholeInbox (session : String) : Json :=
  .obj [("limit", .int (-1)), ("session_id", .str session)]

/-- In an inbox that shows what it should every acknowledgement is by text. -/
theorem ShowsPending.byText {session : String} {history : List Op}
    (shows : ShowsPending env session history) (counted : (logOf env history).length < 2 ^ 64) :
    AcknowledgedByText env session history := by
  have fewer : (sentTo env session history []).length ≤ (logOf env history).length := by
    have sends : (logOf env history).filter (·.isFor "msg" "send" session) =
        (sentTo env session history []).map (·.1.event) := filter_sends session history []
    have lengths := congrArg List.length sends
    rw [List.length_map] at lengths
    rw [← lengths]
    exact List.length_filter_le _ _
  have covers : (sentTo env session history []).length ≤ toSize (-1) := by
    have most : toSize (-1) = 2 ^ 64 - 1 := rfl
    omega
  have named : requestSession env (wholeInbox session) = .ok session := rfl
  have limited : (wholeInbox session).valueWith Json.getInt "limit" 20 = .ok (-1) := rfl
  obtain ⟨rows, listed, perm⟩ := toolMsgInbox_eq history named limited covers
  obtain ⟨expected, shown, wanted⟩ := shows (wholeInbox session) (-1) named limited covers
  rw [listed] at shown
  obtain rfl := inboxResult_inj (Except.ok.inj shown)
  -- Fewer messages are pending than shown, unless the two are the same.
  have lengths : ((sentTo env session history []).filter fun sent =>
      !acknowledged env session history sent).length =
      ((sentTo env session history []).filter fun sent =>
        !history.any (·.acksText sent.1.eventId)).length := by
    have both := (wanted.symm.trans perm).length_eq
    rwa [List.length_map, List.length_map, pending, List.length_map] at both
  have inner : ((sentTo env session history []).filter fun sent =>
      !acknowledged env session history sent).Sublist
      ((sentTo env session history []).filter fun sent =>
        !history.any (·.acksText sent.1.eventId)) := by
    apply List.monotone_filter_right
    intro sent unread
    rw [Bool.not_eq_true'] at unread ⊢
    rw [Bool.eq_false_iff]
    intro acked
    rw [acknowledged_of_text acked] at unread
    contradiction
  have same := inner.eq_of_length lengths
  intro sent member acked
  apply Bool.of_not_eq_false
  intro untold
  have showing : sent ∈ (sentTo env session history []).filter fun sent =>
      !history.any (·.acksText sent.1.eventId) :=
    List.mem_filter.mpr ⟨member, by rw [untold]; rfl⟩
  rw [← same] at showing
  have hidden := (List.mem_filter.mp showing).2
  rw [acked] at hidden
  contradiction

/-- The inbox of a session shows its pending messages exactly when every message to it that is
acknowledged is acknowledged by the text of its number. The store numbers its events with 64
bits. -/
theorem inbox_pending (env : Env) (session : String) (history : List Op)
    (counted : (logOf env history).length < 2 ^ 64) :
    ShowsPending env session history ↔ AcknowledgedByText env session history := by
  constructor
  · intro shows
    exact shows.byText counted
  · exact AcknowledgedByText.shows

/-- An environment that numbers its events from one and gives them as they came. -/
def plainEnv : Env where
  session := none
  host := some "host"
  eventId place := place + 1
  time place := place
  order events := events
  order_perm events := List.Perm.refl events

/-- A message to session `b`. -/
def plainSend : Op :=
  .send (.object [("target", .str "b"), ("content", .str "hi"), ("sender_session_id", .str "a")])
    none

/-- An acknowledgement by text. -/
def plainAck : Op := .ack (.object [("message_id", .str "1")])

/-- An acknowledgement by number. -/
def numberAck : Op := .ack (.object [("message_id", .int 1)])

/-- An acknowledgement of everything. -/
def plainAckAll : Op := .ackAll (.object [("session_id", .str "b")])

/-- An acknowledgement by text empties the inbox. -/
theorem inbox_pending_text : ShowsPending plainEnv "b" [plainSend, plainAck] := by
  have counted : (logOf plainEnv [plainSend, plainAck]).length < 2 ^ 64 := by decide
  apply (inbox_pending plainEnv "b" [plainSend, plainAck] counted).mpr
  have acked : ∀ sent ∈ sentTo plainEnv "b" [plainSend, plainAck] [],
      [plainSend, plainAck].any (·.acksText sent.1.eventId) = true := by decide
  intro sent member _
  exact acked sent member

/-- An acknowledgement by number leaves the message in the inbox, and so does one of everything. -/
theorem inbox_shows_acknowledged :
    ¬ShowsPending plainEnv "b" [plainSend, numberAck] ∧
      ¬ShowsPending plainEnv "b" [plainSend, plainAckAll] := by
  constructor
  · intro shows
    have byText := shows.byText (by decide)
    have never : ¬∀ sent ∈ sentTo plainEnv "b" [plainSend, numberAck] [],
        acknowledged plainEnv "b" [plainSend, numberAck] sent = true →
        [plainSend, numberAck].any (·.acksText sent.1.eventId) = true := by decide
    exact never byText
  · intro shows
    have byText := shows.byText (by decide)
    have never : ¬∀ sent ∈ sentTo plainEnv "b" [plainSend, plainAckAll] [],
        acknowledged plainEnv "b" [plainSend, plainAckAll] sent = true →
        [plainSend, plainAckAll].any (·.acksText sent.1.eventId) = true := by decide
    exact never byText

end Chitta.Inbox
