import Chitta.Json

/-!
# The log of events

The event store is outside this development: it keeps its events in the order in which they are
appended and answers queries from them. The text of a payload is kept as the value that it is the
text of. The buffers of the field store for an answer (64 and then 512 KiB) are left out here; the
limit of the inbox models them. The names are those of the source.
-/
namespace Chitta.EventLog

/-- An event. -/
structure Event where
  /-- The domain. -/
  domain : String
  /-- The kind. -/
  kind : String
  /-- The target. -/
  target : String
  /-- The payload; none for the empty text. -/
  payload : Option Json

/-- The events, the oldest first. -/
abbrev Log := List Event

/-- `emit_event`. -/
def emitEvent (log : Log) (domain kind target : String) (payload : Option Json) : Log :=
  log ++ [⟨domain, kind, target, payload⟩]

/-- Whether an event is of a domain and a kind. -/
def Event.isOf (event : Event) (domain kind : String) : Bool :=
  event.domain = domain && event.kind = kind

/-- `get_latest_event`. -/
def getLatestEvent (log : Log) (domain kind target : String) : Option Json :=
  (log.reverse.find? fun event => event.isOf domain kind && event.target = target).bind
    (·.payload)

/-- `get_events_by_domain_kind`: the newest first. -/
def getEventsByDomainKind (log : Log) (domain kind : String) (limit : Nat) : List Event :=
  (log.reverse.filter (·.isOf domain kind)).take limit

/-- The event that was appended last is the latest of its target. -/
@[simp] theorem getLatestEvent_emit_self (log : Log) (domain kind target : String)
    (payload : Option Json) :
    getLatestEvent (emitEvent log domain kind target payload) domain kind target = payload := by
  simp [getLatestEvent, emitEvent, Event.isOf]

/-- An event of another kind is not the latest of a target. -/
@[simp] theorem getLatestEvent_emit_other {kind other : String} (apart : other ≠ kind) (log : Log)
    (domain domain' target target' : String) (payload : Option Json) :
    getLatestEvent (emitEvent log domain' other target' payload) domain kind target =
      getLatestEvent log domain kind target := by
  simp [getLatestEvent, emitEvent, Event.isOf, apart]

end Chitta.EventLog
