import Chitta.Json

/-!
# What the queue reads in a line

Four places interpret a queue line: the ack id, the pre-pass that coalesces ledger saves, the
body of the item loop and the dead-letter entry. Each parses the text again and has its own way
of meeting a value of an unexpected shape. `parse` stands for the parser of the JSON library;
`none` is its discarded value.
-/
namespace Chitta.Queue

/-- The bytes of one line, without its end. -/
abbrev Line := List UInt8

/-- The parser of the JSON library. -/
abbrev Parser := Line → Option Json

/-- `std::string::find` of a text, as a test. -/
def Line.finds (text : Line) : Line → Bool
  | [] => text.isEmpty
  | byte :: rest => text.isPrefixOf (byte :: rest) || Line.finds text rest

/-- The characters `"ledger_save"` with their quotes. -/
def quotedLedgerSave : Line := [34, 108, 101, 100, 103, 101, 114, 95, 115, 97, 118, 101, 34]

/-- `queue_ack_id`: the string at `ack_id` of an object, else the empty string. -/
def queueAckId (parse : Parser) (line : Line) : String :=
  match parse line with
  | some item =>
    match item.find "ack_id" with
    | some (.str id) => id
    | _ => ""
  | none => ""

/-- The session and project of a ledger save, as the key of its event; none without a
session. -/
def saveKeyOf (args : Json) : Except Thrown (Option String) := do
  let session ← args.valueString "session_id" ""
  let project ← args.valueString "project" "default"
  return if session = "" then none else some (session ++ ":" ++ project)

/-- The key under which the pre-pass coalesces a line. The accessors are not guarded there. -/
def coalesceKey (parse : Parser) (line : Line) : Except Thrown (Option String) :=
  if Line.finds quotedLedgerSave line then
    match parse line with
    | none => .ok none
    | some item => do
      let tool ← item.valueString "tool" ""
      if tool ≠ "ledger_save" then return none
      let args ← item.valueJson "args" (.obj [])
      let session ← args.valueString "session_id" ""
      if session = "" then return none
      let project ← args.valueString "project" "default"
      return some (session ++ ":" ++ project)
  else .ok none

/-- The tool and the arguments that the item loop reads. -/
def readItem (parse : Parser) (line : Line) : Except Thrown (String × Json) :=
  match parse line with
  | none => .error .parseError
  | some item => do
    let tool ← item.valueString "tool" ""
    let args ← item.valueJson "args" (.obj [])
    return (tool, args)

/-- What identifies the item in its dead-letter entry. -/
inductive DeadItem where
  /-- The tool and the arguments of a line that parses. -/
  | parsed (tool : String) (args : Json)
  /-- The first 300 bytes of a line that does not. -/
  | raw (text : Line)

/-- An entry of the dead-letter file. -/
structure DeadLetter where
  /-- The exception that ended the item. -/
  error : Thrown
  /-- No retry has happened yet. -/
  retryCount : Nat := 0
  /-- The item. -/
  item : DeadItem

/-- `write_failed_item`, up to the append. Its own exceptions are logged and nothing is
written. -/
def failedItem (parse : Parser) (line : Line) (error : Thrown) : Except Thrown DeadLetter :=
  match parse line with
  | some item => do
    let tool ← item.valueString "tool" "unknown"
    let args ← item.valueJson "args" (.obj [])
    return { error, item := .parsed tool args }
  | none => .ok { error, item := .raw (line.take 300) }

/-- A line whose failure can be written to the dead-letter file: it does not parse, or it is an
object whose tool is absent or a string. -/
def describable (parse : Parser) (line : Line) : Bool :=
  match parse line with
  | none => true
  | some (.obj fields) =>
    match Assoc.lookup "tool" fields with
    | none => true
    | some tool => tool.isString
  | some _ => false

/-- The dead-letter entry can be built exactly for the describable lines. -/
theorem failedItem_isOk (parse : Parser) (line : Line) (error : Thrown) :
    (failedItem parse line error).toBool = describable parse line := by
  unfold failedItem describable
  cases parsed : parse line with
  | none => rfl
  | some item =>
    cases item with
    | obj fields =>
      have args : ∃ value, Json.valueJson (.obj fields) "args" (.obj []) = .ok value := by
        cases found : Assoc.lookup "args" fields with
        | none => exact ⟨.obj [], by simp only [Json.valueJson, Json.valueWith, found]⟩
        | some value => exact ⟨value, by simp only [Json.valueJson, Json.valueWith, found]⟩
      obtain ⟨value, args⟩ := args
      cases tool : Assoc.lookup "tool" fields with
      | none =>
        have read : Json.valueString (.obj fields) "tool" "unknown" = .ok "unknown" := by
          simp only [Json.valueString, Json.valueWith, tool]
        simp [read, args, tool, bind, Except.bind, pure, Except.pure, Except.toBool]
      | some name =>
        cases name <;>
          simp [Json.valueString, Json.valueWith, tool, Json.getString, args, Json.isString, bind,
            Except.bind, pure, Except.pure, Except.toBool]
    | _ => rfl

/-- A line without a readable tool ends its item with an exception. -/
theorem readItem_error (parse : Parser) {line : Line} (bad : describable parse line = false) :
    ∃ thrown, readItem parse line = .error thrown := by
  unfold describable at bad
  unfold readItem
  cases parsed : parse line with
  | none => simp [parsed] at bad
  | some item =>
    cases item with
    | obj fields =>
      simp only [parsed] at bad
      cases tool : Assoc.lookup "tool" fields with
      | none => simp [tool] at bad
      | some name =>
        simp only [tool] at bad
        cases name with
        | str text => simp [Json.isString] at bad
        | _ =>
          refine ⟨.typeError 302, ?_⟩
          simp only [Json.valueString, Json.valueWith, tool, Json.getString]
          rfl
    | _ => exact ⟨.typeError 306, rfl⟩

/-- The key and the payload of the event that a dispatched line stores, when it is a ledger save
of a session. The key is that of the save, before `emit_event` takes it as a C string. -/
def saveEvent (parse : Parser) (line : Line) : Option (String × Json) :=
  match readItem parse line with
  | .ok ("ledger_save", args) =>
    match saveKeyOf args with
    | .ok (some key) => some (key, args)
    | _ => none
  | _ => none

/-- The key of that event. -/
def saveKey (parse : Parser) (line : Line) : Option String := (saveEvent parse line).map (·.1)

/-- A line that the pre-pass coalesces is a save that the item loop and its handler can read, and
both compute the same key. -/
theorem readSave_of_coalesceKey (parse : Parser) {line : Line} {key : String}
    (coalesced : coalesceKey parse line = .ok (some key)) :
    ∃ args, readItem parse line = .ok ("ledger_save", args) ∧ saveKeyOf args = .ok (some key) := by
  unfold coalesceKey at coalesced
  split at coalesced
  · cases parsed : parse line with
    | none => simp [parsed] at coalesced
    | some item =>
      simp only [parsed] at coalesced
      obtain ⟨tool, readTool, coalesced⟩ := bind_ok coalesced
      split at coalesced
      · simp [pure, Except.pure] at coalesced
      · rename_i save
        obtain ⟨args, readArgs, coalesced⟩ := bind_ok coalesced
        obtain ⟨session, readSession, coalesced⟩ := bind_ok coalesced
        split at coalesced
        · simp [pure, Except.pure] at coalesced
        · rename_i named
          obtain ⟨project, readProject, coalesced⟩ := bind_ok coalesced
          have same : session ++ ":" ++ project = key :=
            Option.some.inj (Except.ok.inj coalesced)
          have isSave : tool = "ledger_save" := by simpa using save
          subst isSave
          have item_read : readItem parse line = .ok ("ledger_save", args) := by
            simp only [readItem, parsed, readTool, readArgs]
            rfl
          have key_read : saveKeyOf args = .ok (some key) := by
            simp only [saveKeyOf, readSession, readProject, ← same]
            simp [bind, Except.bind, pure, Except.pure, named]
          exact ⟨args, item_read, key_read⟩
  · simp at coalesced

/-- The key of the pre-pass is the key of the event. -/
theorem saveKey_of_coalesceKey (parse : Parser) {line : Line} {key : String}
    (coalesced : coalesceKey parse line = .ok (some key)) : saveKey parse line = some key := by
  obtain ⟨args, readItem, readKey⟩ := readSave_of_coalesceKey parse coalesced
  simp only [saveKey, saveEvent, readItem, readKey, Option.map_some]

end Chitta.Queue
