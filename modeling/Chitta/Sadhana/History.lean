import Chitta.Bytes
import Chitta.Json

/-!
# The history of a sadhana

What happens to a sadhana is appended to the event log, as the text of a record with a domain, a
kind, an entity and a payload. The history is read from the first record on, and reading ends when
there are enough events. The log itself is outside this development: it gives its records in the
order in which they were appended. The names are those of the source.
-/
namespace Chitta.Sadhana

open Bytes

/-- The record of the event log as a JSON value, and the payload in it. -/
abbrev Parse := String → Except Thrown Json

/-- The payload of a record: a text that is parsed, an object, or nothing. -/
def payloadOf (parse : Parse) (op : Json) : Except Thrown Json :=
  match op.find "payload" with
  | some (.str text) => parse text
  | some (.obj fields) => .ok (.obj fields)
  | _ => .ok .null

/-- One record of the log: the event of the sadhana, none when the record is of another one. -/
def readEvent (parse : Parse) (entityId opJson : String) : Except Thrown (Option Json) := do
  let op ← parse opJson
  let domain ← op.valueString "domain" ""
  if domain ≠ "sadhana" then return none
  else
    let entity ← op.valueString "entity_id" ""
    if entity ≠ entityId then return none
    else
      let kind ← op.valueString "kind" ""
      let payload ← payloadOf parse op
      let content ← payload.valueJson "content" (.obj [])
      let timestamp ← payload.valueWith Json.getInt64 "timestamp" 0
      let durationMs ← payload.valueWith Json.getInt "duration_ms" 0
      return some (.object [("event_type", .str kind), ("content", content),
        ("timestamp", .int timestamp), ("duration_ms", .int durationMs)])

/-- The event of a record; a record that throws is passed over. -/
def eventOf (parse : Parse) (entityId opJson : String) : Option Json :=
  match readEvent parse entityId opJson with
  | .ok event => event
  | .error _ => none

/-- `get_history`: the callback that the log calls with each of its records. -/
def getHistory (parse : Parse) (log : List String) (id : Int) (limit : Nat) : List Json :=
  log.foldl (fun history opJson =>
    if limit ≤ history.length then history
    else
      match eventOf parse (toString id) opJson with
      | some event => history ++ [event]
      | none => history) []

/-- The events of a sadhana, the oldest first. -/
def events (parse : Parse) (log : List String) (id : Int) : List Json :=
  log.filterMap (eventOf parse (toString id))

/-- The newest events of a sadhana, the newest first. -/
def newest (parse : Parse) (log : List String) (id : Int) (limit : Nat) : List Json :=
  (events parse log id).reverse.take limit

/-- A summary of the prompt, from an event; there are at most three. -/
def addSummary (summaries : List Text) (event : Json) : Except Thrown (List Text) := do
  if 3 ≤ summaries.length then return summaries
  else
    let eventType ← event.valueString "event_type" ""
    if eventType ≠ "cycle" ∧ eventType ≠ "checkpoint" then return summaries
    else
      let content ← event.index "content"
      if content.isObject = false then return summaries
      else
        let summary ← content.valueString "summary" ""
        let status ← content.valueString "status" ""
        if summary = "" then return summaries
        else
          return summaries ++ [utf8 "[" ++ utf8 status ++ utf8 "] " ++ (utf8 summary).take 150]

/-- `build_history_context`. -/
def buildHistoryContext (parse : Parse) (log : List String) (id : Int) : Except Thrown Text := do
  let summaries ← (getHistory parse log id 10).foldlM addSummary []
  if summaries = [] then return []
  else
    return utf8 "Recent cycle history (newest first):\n" ++
      summaries.flatMap fun summary => utf8 "- " ++ summary ++ [newline]

variable (parse : Parse)

/-! ## The oldest events -/

/-- The callback from a history on: it adds events while there is room. -/
theorem getHistory_from (entityId : String) (limit : Nat) (log : List String)
    (history : List Json) :
    log.foldl (fun history opJson =>
      if limit ≤ history.length then history
      else
        match eventOf parse entityId opJson with
        | some event => history ++ [event]
        | none => history) history =
      history ++ (log.filterMap (eventOf parse entityId)).take (limit - history.length) := by
  induction log generalizing history with
  | nil => simp
  | cons opJson log ih =>
    rw [List.foldl_cons, ih]
    by_cases full : limit ≤ history.length
    · rw [if_pos full, Nat.sub_eq_zero_of_le full, List.take_zero, List.take_zero]
    · rw [if_neg full]
      cases found : eventOf parse entityId opJson with
      | none => rw [List.filterMap_cons_none found]
      | some event =>
        have room : limit - history.length = limit - (history.length + 1) + 1 := by omega
        rw [List.filterMap_cons_some found, room, List.take_succ_cons, List.append_assoc,
          List.length_append]
        rfl

/-- The history is the oldest events, the oldest first. -/
theorem getHistory_eq (log : List String) (id : Int) (limit : Nat) :
    getHistory parse log id limit = (events parse log id).take limit := by
  have whole := getHistory_from parse (toString id) limit log []
  rwa [List.length_nil, Nat.sub_zero, List.nil_append] at whole

/-- When there are enough events, nothing that happens afterwards is in the history. -/
theorem getHistory_append {log : List String} {id : Int} {limit : Nat}
    (enough : limit ≤ (events parse log id).length) (more : List String) :
    getHistory parse (log ++ more) id limit = getHistory parse log id limit := by
  rw [getHistory_eq, getHistory_eq, events, List.filterMap_append, ← events,
    List.take_append_of_le_length enough]

/-- After ten events the history in the prompt stays the same forever. -/
theorem buildHistoryContext_append {log : List String} {id : Int}
    (enough : 10 ≤ (events parse log id).length) (more : List String) :
    buildHistoryContext parse (log ++ more) id = buildHistoryContext parse log id := by
  rw [buildHistoryContext, getHistory_append parse enough, ← buildHistoryContext]

/-! ## When these are the newest -/

/-- As many events as are asked for are the same from either end of a history. -/
def Mirrored (limit : Nat) (history : List Json) : Prop :=
  ∀ place < limit, history[place]? = history.reverse[place]?

/-- The first items of two lists are the same exactly when the items at each place are. -/
theorem take_eq_take_iff {α : Type} (limit : Nat) (one other : List α) :
    one.take limit = other.take limit ↔ ∀ place < limit, one[place]? = other[place]? := by
  constructor
  · intro same place below
    rw [← List.getElem?_take_of_lt below, same, List.getElem?_take_of_lt below]
  · intro same
    apply List.ext_getElem?
    intro place
    by_cases below : place < limit
    · rw [List.getElem?_take_of_lt below, List.getElem?_take_of_lt below, same place below]
    · rw [List.getElem?_eq_none, List.getElem?_eq_none]
      · exact Nat.le_trans (List.length_take_le _ _) (Nat.le_of_not_lt below)
      · exact Nat.le_trans (List.length_take_le _ _) (Nat.le_of_not_lt below)

/-- Different events are the same from either end only when there is at most one. -/
theorem mirrored_distinct {limit : Nat} {history : List Json} (distinct : history.Nodup) :
    Mirrored limit history ↔ limit = 0 ∨ history.length ≤ 1 := by
  constructor
  · intro mirrored
    by_cases none_asked : limit = 0
    · exact .inl none_asked
    · right
      have ends := mirrored 0 (Nat.pos_of_ne_zero none_asked)
      match history with
      | [] => exact Nat.zero_le 1
      | [_] => exact Nat.le_refl 1
      | first :: second :: rest =>
        rw [List.getElem?_cons_zero, ← List.head?_eq_getElem?, List.head?_reverse,
          List.getLast?_cons_cons] at ends
        have again : first ∈ second :: rest := List.mem_of_getLast? ends.symm
        exact absurd again (List.nodup_cons.mp distinct).1
  · rintro (rfl | short) place below
    · exact absurd below (Nat.not_lt_zero place)
    · match history with
      | [] => rfl
      | [_] => rfl
      | _ :: _ :: _ =>
        simp only [List.length_cons] at short
        omega

/-- The history is the newest events with the newest first exactly when as many events as are asked
for are the same from either end. -/
theorem history_newest_iff (log : List String) (id : Int) (limit : Nat) :
    getHistory parse log id limit = newest parse log id limit ↔
      Mirrored limit (events parse log id) := by
  rw [getHistory_eq, newest, take_eq_take_iff]
  rfl

/-- The text of the record of an event of the first sadhana. -/
def recordText (kind : String) : String :=
  "\x7b\"domain\":\"sadhana\",\"entity_id\":\"1\",\"kind\":\"" ++ kind ++
    "\",\"payload\":\x7b\x7d\x7d"

/-- The record as a JSON value. -/
def recordOf (kind : String) : Json :=
  .object [("domain", .str "sadhana"), ("entity_id", .str "1"), ("kind", .str kind),
    ("payload", .obj [])]

/-- A reader of the records of two kinds. -/
def parseRecord : Parse := fun text =>
  if text = recordText "created" then .ok (recordOf "created")
  else if text = recordText "started" then .ok (recordOf "started")
  else .error .parseError

/-- A sadhana is created and started; the newest event is that it was started, and the history with
one event is that it was created. -/
theorem history_of_started :
    getHistory parseRecord [recordText "created", recordText "started"] 1 1 ≠
      newest parseRecord [recordText "created", recordText "started"] 1 1 := by
  have all : events parseRecord [recordText "created", recordText "started"] 1 =
      [.object [("event_type", .str "created"), ("content", .obj []), ("timestamp", .int 0),
          ("duration_ms", .int 0)],
        .object [("event_type", .str "started"), ("content", .obj []), ("timestamp", .int 0),
          ("duration_ms", .int 0)]] := by
    rfl
  rw [getHistory_eq, newest, all]
  intro same
  have kinds := congrArg
    (fun history => history.map fun event => (event.valueString "event_type" "").toOption) same
  exact absurd kinds (by decide)

/-- Where no two events are the same, the history is the newest events exactly when none is asked
for or there is at most one. -/
theorem history_distinct (log : List String) (id : Int) (limit : Nat)
    (distinct : (events parse log id).Nodup) :
    getHistory parse log id limit = newest parse log id limit ↔
      limit = 0 ∨ (events parse log id).length ≤ 1 := by
  rw [getHistory_eq, newest, take_eq_take_iff]
  exact mirrored_distinct distinct

end Chitta.Sadhana
