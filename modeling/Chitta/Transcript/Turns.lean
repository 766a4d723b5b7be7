import Chitta.Json

/-!
# The turn of a line

A transcript has one JSON value on each line. A line of a user or an assistant gives a turn, in the
format of either client; other lines, lines that are not JSON and lines of another shape give none.
Texts are bytes, since they are cut at byte positions. The text of a value is read by a library
outside this development. The names are those of the source.
-/
namespace Chitta.Transcript

/-- A text. -/
abbrev Bytes := List UInt8

/-- The bytes of a text. -/
def bytesOf (text : String) : Bytes := text.toUTF8.toList

/-- The options of a parse that a line depends on. -/
structure ContentOptions where
  /-- Whether long thoughts are kept. -/
  includeThinking : Bool := true
  /-- Whether reminders of the system are cut out. -/
  filterSystemReminders : Bool := true

/-! ## Cutting texts -/

/-- `find`: the place of the first occurrence. -/
def findText (wanted : Bytes) : Bytes → Option Nat
  | [] => if wanted = [] then some 0 else none
  | byte :: rest =>
    if wanted.isPrefixOf (byte :: rest) then some 0 else (findText wanted rest).map (· + 1)

/-- What begins a reminder. -/
def reminderStart : Bytes := bytesOf "<system-reminder>"

/-- What ends a reminder. -/
def reminderEnd : Bytes := bytesOf "</system-reminder>"

/-- One reminder cut out; an unfinished one goes with all that follows. -/
def cutReminder (text : Bytes) (start : Nat) : Bytes :=
  match findText reminderEnd (text.drop start) with
  | some size => text.take start ++ text.drop (start + size + 18)
  | none => text.take start

/-- The loop of `filter_system_reminders`. Every round cuts something, so the length of the text is
enough fuel. -/
def filterReminders : Nat → Bytes → Bytes
  | 0, text => text
  | fuel + 1, text =>
    match findText reminderStart text with
    | some start => filterReminders fuel (cutReminder text start)
    | none => text

/-- `filter_system_reminders`. -/
def filterSystemReminders (text : Bytes) : Bytes := filterReminders text.length text

/-- Whether a text has nothing but white space. -/
def isBlank (text : Bytes) : Bool := text.all fun byte => byte ∈ [32, 9, 10, 13]

/-- A piece on a line of its own. -/
def addLine (content piece : Bytes) : Bytes :=
  if content = [] then piece else content ++ 10 :: piece

/-- The tools whose calls are kept. -/
def keptTools : List String := ["Bash", "Read", "Write", "Edit", "Glob", "Grep"]

/-! ## The format of Claude -/

/-- The arguments of a tool that are kept. -/
def toolArguments (input : Json) : List String → Bytes → Except Thrown Bytes
  | [], text => .ok text
  | key :: rest, text =>
    if input.contains key then do
      let value ← (← input.index key).getString
      let spaced := if text = [] then [] else text ++ [32]
      toolArguments input rest (spaced ++ bytesOf key ++ 61 :: (bytesOf value).take 200)
    else toolArguments input rest text

/-- A block of the content. -/
def addBlock (options : ContentOptions) (content : Bytes) (block : Json) : Except Thrown Bytes := do
  let type ← block.valueString "type" ""
  if type = "text" ∧ block.contains "text" then
    let given ← (← block.index "text").getString
    let text := if options.filterSystemReminders then filterSystemReminders (bytesOf given)
      else bytesOf given
    return if isBlank text then content else addLine content text
  else if options.includeThinking ∧ type = "thinking" ∧ block.contains "thinking" then
    let thinking ← (← block.index "thinking").getString
    return if 100 < (bytesOf thinking).length then
      addLine content (bytesOf "<thinking>\n" ++ bytesOf thinking ++ bytesOf "\n</thinking>")
    else content
  else if type = "tool_use" ∧ block.contains "name" ∧ block.contains "input" then
    let name ← block.valueString "name" ""
    if name ∈ keptTools then
      let input ← toolArguments (← block.index "input") ["command", "file_path", "pattern"] []
      return if input = [] then content
        else addLine content (bytesOf "[tool:" ++ bytesOf name ++ bytesOf "] " ++ input)
    else return content
  else return content

/-- `extract_content`. -/
def extractContent (options : ContentOptions) (entry : Json) : Except Thrown Bytes :=
  if !entry.contains "message" then .ok []
  else do
    let message ← entry.index "message"
    if !message.contains "content" then return []
    else
      match ← message.index "content" with
      | .str text =>
        return if options.filterSystemReminders then filterSystemReminders (bytesOf text)
          else bytesOf text
      | .arr blocks => blocks.foldlM (addBlock options) []
      | _ => return []

/-! ## The format of Codex -/

/-- A block of the content. -/
def addBlockCodex (options : ContentOptions) (content : Bytes) (block : Json) :
    Except Thrown Bytes := do
  let type ← block.valueString "type" ""
  if (type = "input_text" ∨ type = "output_text") ∧ block.contains "text" then
    let given ← (← block.index "text").getString
    let text := if options.filterSystemReminders then filterSystemReminders (bytesOf given)
      else bytesOf given
    return if isBlank text then content else addLine content text
  else return content

/-- `extract_content_codex`. -/
def extractContentCodex (options : ContentOptions) (payload : Json) : Except Thrown Bytes :=
  if !payload.contains "content" then .ok []
  else do
    match ← payload.index "content" with
    | .arr blocks => blocks.foldlM (addBlockCodex options) []
    | _ => return []

/-- A piece of a summary. -/
def addSummary (content : Bytes) (piece : Json) : Except Thrown Bytes :=
  if piece.isObject ∧ piece.contains "text" then do
    let text ← (← piece.index "text").getString
    return if 100 < (bytesOf text).length then addLine content (bytesOf text) else content
  else .ok content

/-- `extract_reasoning_codex`. -/
def extractReasoningCodex (payload : Json) : Except Thrown Bytes := do
  let content ← match payload.find "summary" with
    | some (.arr pieces) => pieces.foldlM addSummary []
    | _ => pure []
  return if content = [] then []
    else bytesOf "<thinking>\n" ++ content ++ bytesOf "\n</thinking>"

/-- `extract_function_call_codex`. -/
def extractFunctionCallCodex (payload : Json) : Except Thrown Bytes := do
  let name ← payload.valueString "name" ""
  if name ∈ keptTools then
    let arguments ← payload.valueString "arguments" ""
    return bytesOf "[tool:" ++ bytesOf name ++ bytesOf "] " ++ (bytesOf arguments).take 200
  else return []

/-! ## Lines -/

/-- The role and the content of an entry, if it is of a kind that has them. -/
def entryTurn (options : ContentOptions) (entry : Json) :
    Except Thrown (Option (String × Bytes)) := do
  let type ← entry.valueString "type" ""
  if type = "user" ∨ type = "assistant" then
    return some (type, ← extractContent options entry)
  else if type = "response_item" ∧ entry.contains "payload" then
    let payload ← entry.field "payload"
    let payloadType ← payload.valueString "type" ""
    let role ← payload.valueString "role" ""
    if payloadType = "message" ∧ (role = "user" ∨ role = "assistant") then
      return some (role, ← extractContentCodex options payload)
    else if options.includeThinking ∧ payloadType = "reasoning" then
      return some ("assistant", ← extractReasoningCodex payload)
    else if payloadType = "function_call" then
      return some ("assistant", ← extractFunctionCallCodex payload)
    else return none
  else return none

/-- The role and the content of a line's turn. An exception of the library passes over the line. -/
def turnOf (parseJson : Bytes → Option Json) (options : ContentOptions) (line : Bytes) :
    Option (String × Bytes) :=
  if line = [] then none
  else
    match parseJson line with
    | none => none
    | some entry =>
      match entryTurn options entry with
      | .ok (some (role, content)) => if content = [] then none else some (role, content)
      | _ => none

/-! ## What is cut out -/

end Chitta.Transcript
