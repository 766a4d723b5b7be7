import Mathlib.Data.List.Count
import Chitta.Inbox.Acknowledgement

/-!
# The limit of the inbox

The inbox asks the store for as many messages as its limit says, and leaves the acknowledged ones
out afterwards. It shows fewer messages than it could when an acknowledged one is among them and an
unacknowledged one behind them, and none when the text of the messages does not fit into the buffer
for it.
-/
namespace Chitta.Inbox

/-- The size of the second buffer for the text of events; the first is smaller. -/
def bufferSize : Nat := 512 * 1024

/-- `get_events_by_target` with its buffers. The size is that of the text that the store writes. -/
def boundedEvents (env : Env) (size : List Event → Nat) (log : Log) (target : String)
    (limit : Nat) : List Event :=
  let events := getEventsByTarget env log "msg" "send" target limit
  if size events ≤ bufferSize then events else []

/-- `tool_msg_inbox` with these. -/
def boundedInbox (env : Env) (size : List Event → Nat) (params : Json) (log : Log) :
    Except Thrown ToolResult := do
  let sessionId ← requestSession env params
  let limit ← params.valueWith Json.getInt "limit" 20
  let messages ← inboxRows log (boundedEvents env size log sessionId (toSize limit))
  return inboxResult sessionId messages

/-! ## What the limit should count -/

/-- A send, an acknowledgement with a text as its id or something else; everything is never
acknowledged at once. -/
def Op.byText : Op → Bool
  | .ack params => ((params.find "message_id").map Json.isString).getD false
  | .ackAll _ => false
  | .send _ _ => true
  | .emit _ _ => true

/-- A limit as the inbox reads it. -/
def readLimit (limit : Nat) : Nat := toSize ((limit : Int).bmod (2 ^ 32))

/-- The messages to a session in the order of the store. -/
def inOrder (env : Env) (session : String) (history : List Op) : List Event :=
  env.order ((sentTo env session history []).map (·.1.event))

/-- Whether an event is not acknowledged. -/
def unread (history : List Op) (event : Event) : Bool := !history.any (·.acksText event.eventId)

/-- The inbox shows as many unacknowledged messages as the limit allows. -/
def CountsUnread (env : Env) (size : List Event → Nat) (session : String) (history : List Op)
    (limit : Nat) : Prop :=
  ∀ params, requestSession env params = .ok session →
    params.find "limit" = some (.int limit) →
    ∃ rows, boundedInbox env size params (logOf env history) = .ok (inboxResult session rows) ∧
      rows.length = min limit (pending env session history).length ∧
      rows.Subperm ((pending env session history).map Delivery.row)

/-- Nothing is unacknowledged; or the messages that the limit covers fit into the buffer, and either
no unacknowledged message is behind them and there are not more than the limit, or exactly as many
as the limit are among them. -/
def FirstSuffice (env : Env) (size : List Event → Nat) (session : String) (history : List Op)
    (limit : Nat) : Prop :=
  let events := inOrder env session history
  events.countP (unread history) = 0 ∨
    size (events.take (readLimit limit)) ≤ bufferSize ∧
      ((∀ event ∈ events.drop (readLimit limit), unread history event = false) ∧
          events.countP (unread history) ≤ limit ∨
        (events.take (readLimit limit)).countP (unread history) = limit)

variable {env : Env} {size : List Event → Nat} {session : String} {history : List Op}

/-- The messages that the store gives. -/
theorem boundedEvents_log (limit : Nat) :
    boundedEvents env size (logOf env history) session limit =
      if size ((inOrder env session history).take limit) ≤ bufferSize then
        (inOrder env session history).take limit
      else [] := by
  have sends : (logOf env history).filter (·.isFor "msg" "send" session) =
      (sentTo env session history []).map (·.1.event) := filter_sends session history []
  rw [boundedEvents, getEventsByTarget, sends]
  rfl

/-- A message in the order of the store is a sent one, and its row is read. -/
theorem inOrder_readable {event : Event} (inside : event ∈ inOrder env session history) :
    inboxRow event = .ok (rowOf event) := by
  rw [inOrder, (env.order_perm _).mem_iff] at inside
  obtain ⟨one, member, rfl⟩ := List.mem_map.mp inside
  rw [rowOf, inboxRow_sent member]

/-- The rows of some of the messages. -/
theorem inboxRows_some {events : List Event}
    (some_of : ∀ event ∈ events, event ∈ inOrder env session history) :
    inboxRows (logOf env history) events = .ok ((events.filter (unread history)).map rowOf) := by
  rw [inboxRows_eq (logOf env history) fun event inside => inOrder_readable (some_of event inside)]
  have same : (fun event : Event => !hasEvent (logOf env history) "msg" "ack"
      (toString event.eventId)) = unread history := by
    funext event
    rw [hasEvent_iff, unread]
  rw [same]

/-- What comes after a message is a part of the history. -/
theorem later_subset {log : Log} {sent : Delivery × List Op}
    (inside : sent ∈ sentTo env session history log) : ∀ op ∈ sent.2, op ∈ history := by
  induction history generalizing log with
  | nil => cases inside
  | cons first later ih =>
    intro op after
    rcases List.mem_append.mp inside with here | there
    · obtain ⟨delivery, _, rfl⟩ := List.mem_map.mp here
      exact List.mem_cons_of_mem _ after
    · exact List.mem_cons_of_mem _ (ih there op after)

/-- Without acknowledgements of other kinds a message is acknowledged as a text or not at all. -/
theorem acknowledged_byText (plain : ∀ op ∈ history, op.byText = true)
    {sent : Delivery × List Op} (inside : sent ∈ sentTo env session history []) :
    (!acknowledged env session history sent) = unread history sent.1.event := by
  have number : ∀ op ∈ history, op.acksNumber sent.1.eventId = false := by
    intro op there
    have kind := plain op there
    cases op with
    | ack params =>
      simp only [Op.acksNumber, decide_eq_false_iff_not]
      intro found
      simp [Op.byText, found, Json.isString] at kind
    | _ => rfl
  have everything : sent.2.any (·.acksAll env session) = false := by
    rw [List.any_eq_false]
    intro op after
    have kind := plain op (later_subset inside op after)
    cases op with
    | ackAll params => simp [Op.byText] at kind
    | _ => simp [Op.acksAll]
  have same : history.any (fun op => op.acksNumber sent.1.eventId || op.acksText sent.1.eventId) =
      history.any (·.acksText sent.1.eventId) := by
    rw [Bool.eq_iff_iff, List.any_eq_true, List.any_eq_true]
    constructor
    · rintro ⟨op, there, acks⟩
      rw [number op there, Bool.false_or] at acks
      exact ⟨op, there, acks⟩
    · rintro ⟨op, there, acks⟩
      exact ⟨op, there, by rw [acks, Bool.or_true]⟩
  rw [acknowledged, same, everything, Bool.or_false]
  rfl

/-- The unacknowledged messages in the order of the store are the pending ones. -/
theorem unread_perm (plain : ∀ op ∈ history, op.byText = true) :
    (((inOrder env session history).filter (unread history)).map rowOf).Perm
      ((pending env session history).map Delivery.row) := by
  have ordered := ((env.order_perm ((sentTo env session history []).map (·.1.event))).filter
    (unread history)).map rowOf
  refine ordered.trans (List.Perm.of_eq ?_)
  rw [List.filter_map, List.map_map, pending, List.map_map]
  have kept : (sentTo env session history []).filter (unread history ∘ fun one => one.1.event) =
      (sentTo env session history []).filter fun sent =>
        !acknowledged env session history sent := by
    apply List.filter_congr
    intro sent inside
    rw [acknowledged_byText plain inside]
    rfl
  rw [kept]
  apply List.map_congr_left
  intro one member
  show rowOf one.1.event = one.1.row
  rw [rowOf, inboxRow_sent (List.mem_filter.mp member).1]

/-- The number of pending messages. -/
theorem length_pending (plain : ∀ op ∈ history, op.byText = true) :
    (pending env session history).length =
      (inOrder env session history).countP (unread history) := by
  have lengths := (@unread_perm env session history plain).length_eq
  rw [List.length_map, List.length_map] at lengths
  rw [← lengths, List.countP_eq_length_filter]

/-- What the inbox shows: of the messages that the limit covers, if they fit, those that are not
acknowledged. -/
theorem boundedInbox_eq {params : Json} {limit : Nat}
    (named : requestSession env params = .ok session)
    (limited : params.find "limit" = some (.int limit)) :
    boundedInbox env size params (logOf env history) =
      .ok (inboxResult session
        ((if size ((inOrder env session history).take (readLimit limit)) ≤ bufferSize then
            ((inOrder env session history).take (readLimit limit)).filter (unread history)
          else []).map rowOf)) := by
  have read : params.valueWith Json.getInt "limit" 20 = .ok ((limit : Int).bmod (2 ^ 32)) := by
    rw [Json.valueWith_of_find limited]
    rfl
  have rows : inboxRows (logOf env history)
      (boundedEvents env size (logOf env history) session (readLimit limit)) = .ok
      ((if size ((inOrder env session history).take (readLimit limit)) ≤ bufferSize then
          ((inOrder env session history).take (readLimit limit)).filter (unread history)
        else []).map rowOf) := by
    rw [boundedEvents_log]
    split
    · exact inboxRows_some fun event inside => List.mem_of_mem_take inside
    · rfl
  rw [boundedInbox, named]
  simp only [bind, Except.bind, read]
  rw [← readLimit, rows]
  rfl

/-- A request with a limit. -/
def limitedInbox (session : String) (limit : Nat) : Json :=
  .obj [("limit", .int limit), ("session_id", .str session)]

/-- The inbox shows as many unacknowledged messages as its limit allows if and only if the messages
that the limit covers suffice. -/
theorem inbox_limit_iff (env : Env) (size : List Event → Nat) (session : String)
    (history : List Op) (plain : ∀ op ∈ history, op.byText = true) (limit : Nat)
    (positive : 0 < limit) :
    CountsUnread env size session history limit ↔ FirstSuffice env size session history limit := by
  let events := inOrder env session history
  let m := readLimit limit
  have parts : events.countP (unread history) =
      (events.take m).countP (unread history) + (events.drop m).countP (unread history) := by
    rw [← List.countP_append, List.take_append_drop]
  have behind : (events.drop m).countP (unread history) = 0 ↔
      ∀ event ∈ events.drop m, unread history event = false := by
    simp [List.countP_eq_zero]
  have total := @length_pending env session history plain
  constructor
  · intro counts
    obtain ⟨rows, shown, length, _⟩ := counts (limitedInbox session limit) rfl rfl
    rw [boundedInbox_eq rfl rfl] at shown
    obtain rfl := inboxResult_inj (Except.ok.inj shown)
    rw [List.length_map, total] at length
    by_cases fits : size (events.take m) ≤ bufferSize
    · rw [if_pos fits, ← List.countP_eq_length_filter] at length
      refine .inr ⟨fits, ?_⟩
      have length : (events.take m).countP (unread history) =
          min limit (events.countP (unread history)) := length
      by_cases few : events.countP (unread history) ≤ limit
      · exact .inl ⟨behind.mp (by omega), few⟩
      · exact .inr (show (events.take m).countP (unread history) = limit by omega)
    · rw [if_neg fits, List.length_nil] at length
      exact .inl (show events.countP (unread history) = 0 by
        have zero : 0 = min limit (events.countP (unread history)) := length
        omega)
  · intro suffice params named limited
    refine ⟨_, boundedInbox_eq named limited, ?_, ?_⟩
    · rw [List.length_map, total]
      rcases suffice with none_unread | ⟨fits, enough⟩
      · have none_taken : (events.take m).countP (unread history) = 0 := by
          have zero : events.countP (unread history) = 0 := none_unread
          omega
        rw [none_unread, Nat.min_zero]
        split
        · rw [← List.countP_eq_length_filter]
          exact none_taken
        · rfl
      · rw [if_pos fits, ← List.countP_eq_length_filter]
        show (events.take m).countP (unread history) =
          min limit (events.countP (unread history))
        rcases enough with ⟨none_behind, few⟩ | full
        · have zero := behind.mpr none_behind
          have few : events.countP (unread history) ≤ limit := few
          omega
        · have full : (events.take m).countP (unread history) = limit := full
          omega
    · have shown : ((if size (events.take m) ≤ bufferSize then
          (events.take m).filter (unread history) else []).map rowOf).Sublist
          ((events.filter (unread history)).map rowOf) := by
        apply List.Sublist.map
        split
        · exact (List.take_sublist m events).filter _
        · exact List.nil_sublist _
      exact shown.subperm.trans (unread_perm plain).subperm

/-! ## A limit that is used up -/

/-- An environment whose store gives the newest events first. -/
def newestEnv : Env :=
  { plainEnv with order := List.reverse, order_perm := List.reverse_perm }

/-- The size of the text of short messages. -/
def shortSize (events : List Event) : Nat := 2 + 256 * events.length

/-- An acknowledgement of the second message. -/
def secondAck : Op := .ack (.object [("message_id", .str "2")])

/-- A limit of two shows the message that is left of two. -/
theorem inbox_limit_iff_two :
    CountsUnread newestEnv shortSize "b" [plainSend, plainSend, secondAck] 2 := by
  have plain : ∀ op ∈ [plainSend, plainSend, secondAck], op.byText = true := by decide
  apply (inbox_limit_iff newestEnv shortSize "b" _ plain 2 (by decide)).mpr
  refine .inr ⟨by decide, .inl ⟨?_, by decide⟩⟩
  have none_behind : (inOrder newestEnv "b" [plainSend, plainSend, secondAck]).drop
      (readLimit 2) = [] := List.length_eq_zero_iff.mp (by decide)
  rw [none_behind]
  simp

/-- A limit of one shows nothing when the newest of two messages is acknowledged. -/
theorem limit_used_up :
    ¬ ∀ (env : Env) (size : List Event → Nat) (session : String) (history : List Op),
      (∀ op ∈ history, op.byText = true) → ∀ limit, 0 < limit →
      CountsUnread env size session history limit := by
  intro claim
  have plain : ∀ op ∈ [plainSend, plainSend, secondAck], op.byText = true := by decide
  obtain ⟨rows, shown, length, _⟩ := claim newestEnv shortSize "b" _ plain 1 (by decide)
    (limitedInbox "b" 1) rfl rfl
  rw [boundedInbox_eq rfl rfl] at shown
  obtain rfl := inboxResult_inj (Except.ok.inj shown)
  revert length
  rw [List.length_map]
  decide

end Chitta.Inbox
