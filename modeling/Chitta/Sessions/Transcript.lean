import Mathlib.Algebra.GroupWithZero.Nat
import Chitta.Json
import Chitta.Utf8

/-!
# Reading a transcript in pages

`read_transcript` collects the turns of a transcript, one JSON value on each line, keeps those that
pass the filters, and returns a page of them: up to a number of turns and a number of characters.
A page that the characters end has a marker with the turn to go on from. The text of a line is read
by a library outside.
-/
namespace Chitta.Sessions

open Bytes Utf8

/-- `kMaxTranscriptPageSize`. -/
def maxTranscriptPageSize : Nat := 100

/-- `kMaxTranscriptCharsPerTurn`. -/
def maxTranscriptCharsPerTurn : Nat := 2000

/-- `max_output_chars`. -/
def maxOutputChars : Nat := 30000

/-- The arguments. -/
structure Request where
  /-- `start_turn`. -/
  startTurn : Int
  /-- `limit`. -/
  limit : Int
  /-- `max_chars_per_turn`. -/
  maxCharsPerTurn : Int
  /-- `role_filter`. -/
  roleFilter : String
  /-- `keyword`. -/
  keyword : Text
  /-- `metadata_only`. -/
  metadataOnly : Bool

/-- A number as a `size_t`. -/
def asSize (number : Int) : Nat := (number.emod (2 ^ 64)).toNat

/-- The number of turns on a page. -/
def Request.pageSize (request : Request) : Nat := min (asSize request.limit) maxTranscriptPageSize

/-- The bytes of a turn, or 0 for all. -/
def Request.maxChars (request : Request) : Nat :=
  min (asSize request.maxCharsPerTurn) maxTranscriptCharsPerTurn

/-! ## The turn of a line -/

/-- A text on a line of its own. -/
def addText (content text : Text) : Text :=
  (if content.isEmpty then content else content ++ [newline]) ++ text

/-- A block of a message in the format of Claude. -/
def addBlock (content : Text) (block : Json) : Text :=
  match block.find "text" with
  | some (.str text) => addText content (utf8 text)
  | _ => content

/-- The content of a message in the format of Claude. -/
def messageContent (obj : Json) : Text :=
  match obj.find "message" with
  | none => []
  | some message =>
    match message.find "content" with
    | some (.str text) => utf8 text
    | some (.arr blocks) => blocks.foldl addBlock []
    | _ => []

/-- A block of a message in the format of Codex. -/
def addTypedBlock (content : Text) (block : Json) : Except Thrown Text := do
  let type ← block.valueString "type" ""
  if type = "input_text" ∨ type = "output_text" then return addBlock content block
  else return content

/-- The message of a payload in the format of Codex. -/
def payloadTurn (payload : Json) : Except Thrown (Option (String × Text)) := do
  let type ← payload.valueString "type" ""
  let role ← payload.valueString "role" ""
  if type = "message" ∧ (role = "user" ∨ role = "assistant") then
    match payload.find "content" with
    | some (.arr blocks) => return some (role, ← blocks.foldlM addTypedBlock [])
    | _ => return none
  else return none

/-- The role and the content of a line; other lines are passed over. -/
def lineMessage (obj : Json) : Except Thrown (Option (String × Text)) := do
  let type ← obj.valueString "type" ""
  if type = "user" ∨ type = "assistant" then return some (type, messageContent obj)
  else if type = "response_item" then
    match obj.find "payload" with
    | some payload => payloadTurn payload
    | none => return none
  else return none

/-- The turn of a line: a message that is not empty. -/
def lineTurn (obj : Json) : Except Thrown (Option (String × Text)) := do
  match ← lineMessage obj with
  | some message => return if message.2.isEmpty then none else some message
  | none => return none

/-- `Turn`. -/
structure Turn where
  /-- The role. -/
  role : String
  /-- The content. -/
  content : Text
  /-- The number of the line. -/
  lineNumber : Nat
  /-- The number of the turn. -/
  turnIndex : Nat

variable (parse : Text → Option Json)

/-- What a line says: nothing when it is empty or not JSON. -/
def readLine (line : Text) : Except Thrown (Option (String × Text)) :=
  if line.isEmpty then .ok none
  else
    match parse line with
    | none => .ok none
    | some obj => lineTurn obj

/-- The loop over the lines. -/
def collectTurns : List Text → Nat → Nat → Except Thrown (List Turn)
  | [], _, _ => .ok []
  | line :: rest, lineNumber, turnIndex => do
    match ← readLine parse line with
    | none => collectTurns rest (lineNumber + 1) turnIndex
    | some (role, content) =>
      return ⟨role, content, lineNumber + 1, turnIndex⟩ ::
        (← collectTurns rest (lineNumber + 1) (turnIndex + 1))

/-! ## Pages -/

/-- The filters. -/
def Request.passes (request : Request) (role : String) (content : Text) : Bool :=
  (request.roleFilter == "" || role == request.roleFilter) &&
    (request.keyword.isEmpty || (cutAt request.keyword content).isSome)

/-- `utf8_trunc`. -/
def utf8Trunc (text : Text) (maxBytes : Nat) : Text :=
  if text.length ≤ maxBytes then text else text.take (lastStart text maxBytes)

/-- The content that is shown. -/
def shownContent (maxChars : Nat) (content : Text) : Text :=
  if 0 < maxChars ∧ maxChars < content.length then utf8Trunc content maxChars ++ utf8 "..."
  else content

/-- An entry of a page. -/
inductive Entry where
  /-- A turn. -/
  | turn (role : String) (content : Text) (turnIndex lineNumber : Nat)
  /-- `[output truncated — use start_turn=… to continue]`. -/
  | truncated (start : Nat)

/-- The entry of a turn. -/
def Turn.entry (maxChars : Nat) (turn : Turn) : Entry :=
  .turn turn.role (shownContent maxChars turn.content) turn.turnIndex turn.lineNumber

/-- The loop over the turns from a place on. -/
def fillPage (limit maxChars : Nat) : List Turn → Nat → Nat → Nat → List Entry
  | [], _, _, _ => []
  | turn :: rest, place, outputChars, returned =>
    if limit ≤ returned then []
    else
      let size := (shownContent maxChars turn.content).length
      if maxOutputChars < outputChars + size then [.truncated place]
      else
        turn.entry maxChars ::
          fillPage limit maxChars rest (place + 1) (outputChars + size) (returned + 1)

/-- The page of a reply. -/
structure Page where
  /-- `filtered_turns`. -/
  filteredTurns : Nat
  /-- `turns`. -/
  turns : List Entry
  /-- `start_turn`. -/
  startTurn : Nat

/-- `returned`. -/
def Page.returned (page : Page) : Nat := page.turns.length

/-- The reply. -/
structure Reply where
  /-- `total_turns`. -/
  totalTurns : Nat
  /-- `total_chars`. -/
  totalChars : Nat
  /-- `last_line`. -/
  lastLine : Nat
  /-- The page, unless only metadata are asked for. -/
  page : Option Page

/-- A start that counts from the end when it is negative. -/
def effectiveStart (startTurn : Int) (turns : Nat) : Nat :=
  if startTurn < 0 then (turns + startTurn).toNat else startTurn.toNat

/-- `tool_read_transcript` of a file. -/
def readTranscript (file : Text) (request : Request) : Except Thrown Reply := do
  let lines := Lines.lines newline file
  let allTurns ← collectTurns parse lines 0 0
  let filtered := allTurns.filter fun turn => request.passes turn.role turn.content
  let start := effectiveStart request.startTurn filtered.length
  let page : Page :=
    { filteredTurns := filtered.length
      turns := fillPage request.pageSize request.maxChars (filtered.drop start) start 0 0
      startTurn := start }
  return {
    totalTurns := allTurns.length
    totalChars := (allTurns.map fun turn => turn.content.length).sum
    lastLine := lines.length
    page := if request.metadataOnly then none else some page }

/-! ## Reading all pages -/

/-- The place from which the next page is asked for: that of the marker or what follows the
entries. -/
def Page.next (page : Page) : Nat :=
  (page.turns.findSome? fun entry =>
    match entry with
    | .truncated place => some place
    | .turn .. => none).getD (page.startTurn + page.returned)

/-- The turns of a page. -/
def Page.visited (page : Page) : List Entry :=
  page.turns.filter fun entry =>
    match entry with
    | .turn .. => true
    | .truncated _ => false

/-- A page that is asked for. -/
def Request.at (request : Request) (start : Nat) : Request :=
  { request with startTurn := start, metadataOnly := false }

/-- The pages one after the other, up to a number of pages: all entries, if the end was reached. -/
def readPages (file : Text) (request : Request) : Nat → Nat → Except Thrown (Option (List Entry))
  | 0, _ => .ok none
  | count + 1, start => do
    let reply ← readTranscript parse file (request.at start)
    match reply.page with
    | none => return none
    | some page =>
      if page.filteredTurns ≤ start then return some []
      else
        let later ← readPages file request count page.next
        return later.map fun entries => page.visited ++ entries

/-- The turns of a file. -/
def fileTurns (file : Text) : Except Thrown (List Turn) :=
  collectTurns parse (Lines.lines newline file) 0 0

/-- The turns that pass the filters, as they are shown. -/
def Request.entries (request : Request) (turns : List Turn) : List Entry :=
  (turns.filter fun turn => request.passes turn.role turn.content).map (Turn.entry request.maxChars)

/-- Reading in pages is complete. -/
structure Complete (file : Text) (request : Request) : Prop where
  /-- No page throws. -/
  returns : ∀ start, ∃ reply, readTranscript parse file (request.at start) = .ok reply
  /-- Every page before the end leads on. -/
  advances : ∀ start reply page, readTranscript parse file (request.at start) = .ok reply →
    reply.page = some page → start < page.filteredTurns → start < page.next
  /-- The pages from the start on reach the end and have every turn once and in order. -/
  visits : ∃ turns count, fileTurns parse file = .ok turns ∧
    readPages parse file request count 0 = .ok (some (request.entries turns))

/-! ## Lines that are read -/

/-- A text of an object, empty when there is none. -/
def textOf (json : Json) (name : String) : String :=
  match json.find name with
  | some (.str text) => text
  | _ => ""

/-- An object whose field is a text, if it is there. -/
def hasText (json : Json) (name : String) : Bool :=
  json.isObject && (json.find name).all Json.isString

/-- A payload that is read. -/
def readablePayload (payload : Json) : Bool :=
  hasText payload "type" && hasText payload "role" &&
    if textOf payload "type" = "message" ∧
        (textOf payload "role" = "user" ∨ textOf payload "role" = "assistant") then
      match payload.find "content" with
      | some (.arr blocks) => blocks.all fun block => hasText block "type"
      | _ => true
    else true

/-- A line that is read. -/
def readable (obj : Json) : Bool :=
  hasText obj "type" &&
    if textOf obj "type" = "response_item" then (obj.find "payload").all readablePayload else true

/-- A text is read with `value` exactly when it is a text of an object. -/
theorem valueString_cases (json : Json) (name : String) :
    (hasText json name = true ∧ json.valueString name "" = .ok (textOf json name)) ∨
      (hasText json name = false ∧ ∃ thrown, json.valueString name "" = .error thrown) := by
  cases json with
  | obj fields =>
    simp only [hasText, textOf, Json.valueString, Json.valueWith, Json.find, Json.isObject,
      Bool.true_and]
    cases found : Assoc.lookup name fields with
    | none => exact .inl ⟨rfl, rfl⟩
    | some value =>
      cases value with
      | str text => exact .inl ⟨rfl, rfl⟩
      | _ => exact .inr ⟨rfl, _, rfl⟩
  | _ => exact .inr ⟨rfl, _, rfl⟩

/-- Blocks are read exactly when they all have a type. -/
theorem addTypedBlocks_ok (blocks : List Json) (content : Text) :
    (∃ result, blocks.foldlM addTypedBlock content = .ok result) ↔
      blocks.all (fun block => hasText block "type") = true := by
  induction blocks generalizing content with
  | nil => simp [pure, Except.pure]
  | cons block rest ih =>
    rw [List.foldlM_cons, List.all_cons, Bool.and_eq_true]
    rcases valueString_cases block "type" with ⟨has, read⟩ | ⟨lacks, thrown, failed⟩
    · have added : ∃ next, addTypedBlock content block = .ok next := by
        rw [addTypedBlock, read]
        simp only [bind, Except.bind]
        split
        · exact ⟨_, rfl⟩
        · exact ⟨_, rfl⟩
      obtain ⟨next, added⟩ := added
      rw [added, ← ih next]
      simp [has, bind, Except.bind]
    · have failed' : addTypedBlock content block = .error thrown := by
        rw [addTypedBlock, failed]
        rfl
      rw [failed']
      simp [lacks, bind, Except.bind]

theorem payloadTurn_ok (payload : Json) :
    (∃ result, payloadTurn payload = .ok result) ↔ readablePayload payload = true := by
  rcases valueString_cases payload "type" with ⟨hasType, type⟩ | ⟨lacks, thrown, failed⟩
  · rcases valueString_cases payload "role" with ⟨hasRole, role⟩ | ⟨lacks, thrown, failed⟩
    · rw [payloadTurn, readablePayload, type, role, hasType, hasRole]
      simp only [bind, Except.bind, Bool.true_and]
      split
      · split
        · rename_i blocks _
          rw [← addTypedBlocks_ok blocks []]
          cases blocks.foldlM addTypedBlock [] with
          | ok text => simp [pure, Except.pure]
          | error thrown => simp
        · simp [pure, Except.pure]
      · simp [pure, Except.pure]
    · rw [payloadTurn, readablePayload, type, failed, lacks]
      simp [bind, Except.bind]
  · rw [payloadTurn, readablePayload, failed, lacks]
    simp [bind, Except.bind]

/-- A line gives a turn or none, and does not throw, exactly when it is readable. -/
theorem lineTurn_ok (obj : Json) :
    (∃ result, lineTurn obj = .ok result) ↔ readable obj = true := by
  have message : (∃ result, lineTurn obj = .ok result) ↔
      ∃ result, lineMessage obj = .ok result := by
    rw [lineTurn]
    cases lineMessage obj with
    | error thrown => simp [bind, Except.bind]
    | ok result =>
      cases result with
      | none => simp [bind, Except.bind, pure, Except.pure]
      | some message => simp [bind, Except.bind, pure, Except.pure]
  rw [message]
  rcases valueString_cases obj "type" with ⟨has, type⟩ | ⟨lacks, thrown, failed⟩
  · rw [lineMessage, readable, type, has]
    simp only [bind, Except.bind, Bool.true_and]
    by_cases claude : textOf obj "type" = "user" ∨ textOf obj "type" = "assistant"
    · have other : textOf obj "type" ≠ "response_item" := by
        rintro same
        rw [same] at claude
        simp at claude
      simp [claude, other, pure, Except.pure]
    · rw [if_neg claude]
      split
      · cases obj.find "payload" with
        | none => simp [pure, Except.pure]
        | some payload => simpa using payloadTurn_ok payload
      · simp [pure, Except.pure]
  · rw [lineMessage, readable, failed, lacks]
    simp [bind, Except.bind]

variable {parse}

/-- A line is read unless it parses to an object that is not readable. -/
theorem readLine_ok (line : Text) :
    (∃ result, readLine parse line = .ok result) ↔
      (line ≠ [] → ∀ obj, parse line = some obj → readable obj = true) := by
  rw [readLine]
  cases line with
  | nil => simp
  | cons byte rest =>
    simp only [List.isEmpty_cons, Bool.false_eq_true, ↓reduceIte]
    cases parse (byte :: rest) with
    | none => simp
    | some obj => simpa using lineTurn_ok obj

/-- The turns are collected exactly when every line is read. -/
theorem collectTurns_ok (lines : List Text) (lineNumber turnIndex : Nat) :
    (∃ turns, collectTurns parse lines lineNumber turnIndex = .ok turns) ↔
      ∀ line ∈ lines, ∃ result, readLine parse line = .ok result := by
  induction lines generalizing lineNumber turnIndex with
  | nil => simp [collectTurns]
  | cons line rest ih =>
    rw [collectTurns, List.forall_mem_cons]
    cases first : readLine parse line with
    | error thrown => simp [bind, Except.bind]
    | ok result =>
      cases result with
      | none =>
        rw [← ih (lineNumber + 1) turnIndex]
        simp [bind, Except.bind]
      | some message =>
        rw [← ih (lineNumber + 1) (turnIndex + 1)]
        simp only [bind, Except.bind]
        cases collectTurns parse rest (lineNumber + 1) (turnIndex + 1) with
        | error thrown => simp
        | ok turns => simp [pure, Except.pure]

/-- The turns are the messages of the lines. -/
theorem mem_collectTurns {lines : List Text} {lineNumber turnIndex : Nat} {turns : List Turn}
    (collected : collectTurns parse lines lineNumber turnIndex = .ok turns)
    (role : String) (content : Text) :
    (∃ turn ∈ turns, turn.role = role ∧ turn.content = content) ↔
      ∃ line ∈ lines, readLine parse line = .ok (some (role, content)) := by
  induction lines generalizing lineNumber turnIndex turns with
  | nil =>
    obtain rfl := Except.ok.inj collected
    simp
  | cons line rest ih =>
    rw [collectTurns] at collected
    cases first : readLine parse line with
    | error thrown =>
      rw [first] at collected
      contradiction
    | ok result =>
      rw [first] at collected
      cases result with
      | none =>
        rw [ih collected]
        simp [first]
      | some message =>
        simp only [bind, Except.bind] at collected
        cases later : collectTurns parse rest (lineNumber + 1) (turnIndex + 1) with
        | error thrown =>
          rw [later] at collected
          contradiction
        | ok others =>
          rw [later] at collected
          obtain rfl := Except.ok.inj collected
          simp only [List.mem_cons, exists_eq_or_imp, ih later, first, Except.ok.injEq,
            Option.some.injEq, Prod.ext_iff]

/-! ## What a page has -/

theorem length_utf8Trunc (text : Text) (maxBytes : Nat) :
    (utf8Trunc text maxBytes).length ≤ maxBytes := by
  rw [utf8Trunc]
  split
  · assumption
  · rw [List.length_take]
    exact Nat.le_trans (Nat.min_le_left _ _) (lastStart_le text maxBytes)

/-- A cut content fits on a page. -/
theorem length_shownContent {maxChars : Nat} (cut : 0 < maxChars)
    (most : maxChars ≤ maxTranscriptCharsPerTurn) (content : Text) :
    (shownContent maxChars content).length ≤ maxOutputChars := by
  have dots : (utf8 "...").length = 3 := by decide
  have short := length_utf8Trunc content maxChars
  simp only [maxTranscriptCharsPerTurn] at most
  rw [shownContent]
  split
  · rw [List.length_append, dots, maxOutputChars]
    omega
  · rename_i whole
    rw [maxOutputChars]
    omega

/-- The entry of a turn that fits on a page. -/
def Entry.Fits : Entry → Prop
  | .turn _ content _ _ => content.length ≤ maxOutputChars
  | .truncated _ => True

/-- A page has the turns of a part, and a marker at most, which names the turn behind them. -/
theorem fillPage_eq (limit maxChars : Nat) (turns : List Turn)
    (place outputChars returned : Nat) :
    ∃ taken tail, taken ≤ turns.length ∧
      fillPage limit maxChars turns place outputChars returned =
        (turns.take taken).map (Turn.entry maxChars) ++ tail ∧
      (tail = [] ∨ tail = [.truncated (place + taken)]) ∧
      ∀ entry ∈ (turns.take taken).map (Turn.entry maxChars), entry.Fits := by
  induction turns generalizing place outputChars returned with
  | nil => exact ⟨0, [], Nat.le_refl _, rfl, .inl rfl, by simp⟩
  | cons turn rest ih =>
    rw [fillPage]
    split
    · exact ⟨0, [], Nat.zero_le _, rfl, .inl rfl, by simp⟩
    · dsimp only
      split
      · exact ⟨0, [.truncated place], Nat.zero_le _, rfl, .inr rfl, by simp⟩
      · rename_i fits
        obtain ⟨taken, tail, bound, filled, marker, each⟩ := ih (place + 1)
          (outputChars + (shownContent maxChars turn.content).length) (returned + 1)
        refine ⟨taken + 1, tail, Nat.succ_le_succ bound, ?_, ?_, ?_⟩
        · rw [filled, List.take_succ_cons, List.map_cons, List.cons_append]
        · have same : place + 1 + taken = place + (taken + 1) := by omega
          rwa [same] at marker
        · rw [List.take_succ_cons, List.map_cons, List.forall_mem_cons]
          refine ⟨?_, each⟩
          show (shownContent maxChars turn.content).length ≤ maxOutputChars
          omega

/-- A page whose first turn fits has it. -/
theorem fillPage_first {limit maxChars : Nat} {turn : Turn} {rest : List Turn} (place : Nat)
    (positive : 0 < limit) (fits : (shownContent maxChars turn.content).length ≤ maxOutputChars) :
    ∃ taken tail, 0 < taken ∧ taken ≤ (turn :: rest).length ∧
      fillPage limit maxChars (turn :: rest) place 0 0 =
        ((turn :: rest).take taken).map (Turn.entry maxChars) ++ tail ∧
      (tail = [] ∨ tail = [.truncated (place + taken)]) := by
  obtain ⟨taken, tail, bound, filled, marker, _⟩ := fillPage_eq limit maxChars rest (place + 1)
    (0 + (shownContent maxChars turn.content).length) (0 + 1)
  refine ⟨taken + 1, tail, Nat.succ_pos _, Nat.succ_le_succ bound, ?_, ?_⟩
  · rw [fillPage, if_neg (Nat.not_le.mpr positive), if_neg (by omega), filled,
      List.take_succ_cons, List.map_cons, List.cons_append]
  · have same : place + 1 + taken = place + (taken + 1) := by omega
    rwa [same] at marker

/-- The turns of such a page and the place behind them. -/
theorem page_parts {page : Page} {maxChars taken : Nat} {turns : List Turn} {tail : List Entry}
    (bound : taken ≤ turns.length)
    (filled : page.turns = (turns.take taken).map (Turn.entry maxChars) ++ tail)
    (marker : tail = [] ∨ tail = [.truncated (page.startTurn + taken)]) :
    page.next = page.startTurn + taken ∧
      page.visited = (turns.take taken).map (Turn.entry maxChars) := by
  have shown : ∀ shown : List Turn, ((shown.map (Turn.entry maxChars)).filter fun entry =>
      match entry with
      | .turn .. => true
      | .truncated _ => false) = shown.map (Turn.entry maxChars) := by
    intro shown
    simp [Turn.entry]
  have unmarked : ∀ shown : List Turn, ((shown.map (Turn.entry maxChars)).findSome? fun entry =>
      match entry with
      | .truncated place => some place
      | .turn .. => none) = none := by
    intro shown
    simp [Turn.entry]
  rw [Page.next, Page.visited, Page.returned, filled, List.filter_append, shown,
    List.findSome?_append, unmarked, List.length_append, List.length_map, List.length_take,
    Nat.min_eq_left bound]
  rcases marker with rfl | rfl
  · simp
  · simp

/-! ## What reading in pages has -/

/-- Arguments in their ranges: a positive limit and a number of characters, both of 32 bits. -/
structure Request.InRange (request : Request) : Prop where
  /-- The limit is positive. -/
  limit_pos : 0 < request.limit
  /-- It has 32 bits. -/
  limit_int : request.limit < 2 ^ 31
  /-- The characters are not negative. -/
  chars_nonneg : 0 ≤ request.maxCharsPerTurn
  /-- They have 32 bits. -/
  chars_int : request.maxCharsPerTurn < 2 ^ 31

variable {file : Text} {request : Request} {turns : List Turn}

/-- A number of 32 bits that is not negative is its size. -/
theorem asSize_of_int {number : Int} (natural : 0 ≤ number) (small : number < 2 ^ 31) :
    asSize number = number.toNat := by
  show (number % 2 ^ 64).toNat = number.toNat
  rw [Int.emod_eq_of_lt natural (by omega)]

theorem Request.InRange.pageSize_pos (range : request.InRange) : 0 < request.pageSize := by
  have positive := range.limit_pos
  rw [Request.pageSize, asSize_of_int (Int.le_of_lt positive) range.limit_int,
    maxTranscriptPageSize]
  omega

theorem Request.InRange.maxChars_eq (range : request.InRange) :
    request.maxChars = min request.maxCharsPerTurn.toNat maxTranscriptCharsPerTurn := by
  rw [Request.maxChars, asSize_of_int range.chars_nonneg range.chars_int]

/-- The turns of a request. -/
def Request.filtered (request : Request) (turns : List Turn) : List Turn :=
  turns.filter fun turn => request.passes turn.role turn.content

/-- The page from a place on. -/
def Request.pageAt (request : Request) (turns : List Turn) (start : Nat) : Page where
  filteredTurns := (request.filtered turns).length
  turns := fillPage request.pageSize request.maxChars
    ((request.filtered turns).drop start) start 0 0
  startTurn := start

/-- A page of a file whose turns are collected. -/
theorem readTranscript_eq (collected : fileTurns parse file = .ok turns) (start : Nat) :
    ∃ reply, readTranscript parse file (request.at start) = .ok reply ∧
      reply.page = some (request.pageAt turns start) := by
  have begins (count : Nat) : effectiveStart (start : Int) count = start := by
    rw [effectiveStart, if_neg (by omega), Int.toNat_natCast]
  rw [fileTurns] at collected
  simp only [readTranscript, collected, bind, Except.bind, pure, Except.pure, Except.ok.injEq,
    exists_eq_left', Request.at, begins, Bool.false_eq_true, ↓reduceIte]
  rfl

/-- A file whose turns are not collected has no page. -/
theorem collected_of_returns {start : Nat} {reply : Reply}
    (returned : readTranscript parse file (request.at start) = .ok reply) :
    ∃ turns, fileTurns parse file = .ok turns := by
  rw [readTranscript] at returned
  obtain ⟨turns, collected, _⟩ := bind_ok returned
  exact ⟨turns, collected⟩

/-- A page that starts before the end, of turns that fit, leads on and has the turns up to where it
leads. -/
theorem pageAt_leads (range : request.InRange) {start : Nat}
    (fits : ∀ turn ∈ request.filtered turns,
      (shownContent request.maxChars turn.content).length ≤ maxOutputChars)
    (before : start < (request.filtered turns).length) :
    ∃ taken, 0 < taken ∧ (request.pageAt turns start).next = start + taken ∧
      (request.pageAt turns start).visited =
        (((request.filtered turns).drop start).take taken).map (Turn.entry request.maxChars) := by
  cases rest : (request.filtered turns).drop start with
  | nil =>
    have length := congrArg List.length rest
    rw [List.length_drop, List.length_nil] at length
    omega
  | cons turn others =>
    have inside : turn ∈ request.filtered turns :=
      List.mem_of_mem_drop (rest ▸ List.mem_cons_self)
    obtain ⟨taken, tail, positive, bound, shown, marker⟩ :=
      fillPage_first start range.pageSize_pos (fits turn inside)
    have filled : (request.pageAt turns start).turns =
        ((turn :: others).take taken).map (Turn.entry request.maxChars) ++ tail := by
      rw [Request.pageAt, rest, shown]
    obtain ⟨next, visited⟩ := page_parts bound filled marker
    exact ⟨taken, positive, next, visited⟩

/-- Enough pages have all turns from a place on. -/
theorem readPages_ok (range : request.InRange) (collected : fileTurns parse file = .ok turns)
    (fits : ∀ turn ∈ request.filtered turns,
      (shownContent request.maxChars turn.content).length ≤ maxOutputChars)
    {count start : Nat} (enough : (request.filtered turns).length - start < count) :
    readPages parse file request count start =
      .ok (some (((request.filtered turns).drop start).map (Turn.entry request.maxChars))) := by
  induction count generalizing start with
  | zero => omega
  | succ count ih =>
    obtain ⟨reply, read, paged⟩ := @readTranscript_eq parse file request turns collected start
    rw [readPages, read]
    simp only [bind, Except.bind, paged]
    split
    · rename_i ended
      rw [List.drop_eq_nil_of_le ended]
      rfl
    · rename_i more
      have before : start < (request.filtered turns).length := Nat.not_le.mp more
      obtain ⟨taken, positive, next, visited⟩ := pageAt_leads range fits before
      rw [next, ih (by omega), visited]
      simp only [pure, Except.pure, Option.map_some, ← List.map_append, ← List.drop_drop,
        List.take_append_drop]

/-- What is read in pages fits on a page. -/
theorem readPages_fit {count start : Nat} {entries : List Entry}
    (read : readPages parse file request count start = .ok (some entries)) :
    ∀ entry ∈ entries, entry.Fits := by
  induction count generalizing start entries with
  | zero => exact absurd (Except.ok.inj read) nofun
  | succ count ih =>
    obtain ⟨reply, replied, read⟩ := bind_ok read
    obtain ⟨turns, collected⟩ := collected_of_returns replied
    obtain ⟨same, returned, paged⟩ := @readTranscript_eq parse file request turns collected start
    obtain rfl := Except.ok.inj (replied.symm.trans returned)
    rw [paged] at read
    dsimp only at read
    split at read
    · obtain rfl := Option.some.inj (Except.ok.inj read)
      simp
    · obtain ⟨later, rest, read⟩ := bind_ok read
      cases later with
      | none => exact absurd (Except.ok.inj read) nofun
      | some others =>
        obtain rfl := Option.some.inj (Except.ok.inj read)
        obtain ⟨taken, tail, bound, filled, marker, each⟩ := fillPage_eq request.pageSize
          request.maxChars ((request.filtered turns).drop start) start 0 0
        have visited := (@page_parts (request.pageAt turns start) _ _ _ _ bound filled marker).2
        rw [visited]
        exact List.forall_mem_append.mpr ⟨each, ih rest⟩

/-- A transcript is read completely in pages exactly when every line that is JSON has the shape
that is read and, when turns are not cut, no turn that passes the filters is longer than a page. -/
theorem complete_iff (parse : Text → Option Json) (file : Text) (request : Request)
    (range : request.InRange) :
    Complete parse file request ↔
      (∀ line ∈ Lines.lines newline file, line ≠ [] →
        ∀ obj, parse line = some obj → readable obj = true) ∧
      (request.maxCharsPerTurn = 0 → ∀ line ∈ Lines.lines newline file, ∀ role content,
        readLine parse line = .ok (some (role, content)) → request.passes role content = true →
          content.length ≤ maxOutputChars) := by
  have reading : (∃ turns, fileTurns parse file = .ok turns) ↔
      ∀ line ∈ Lines.lines newline file, line ≠ [] →
        ∀ obj, parse line = some obj → readable obj = true := by
    rw [fileTurns.eq_1, collectTurns_ok]
    exact forall_congr' fun line => imp_congr_right fun _ => readLine_ok line
  rw [← reading]
  constructor
  · intro complete
    obtain ⟨turns, count, collected, read⟩ := complete.visits
    refine ⟨⟨turns, collected⟩, fun whole line inside role content said passes => ?_⟩
    obtain ⟨turn, there, rfl, rfl⟩ := (mem_collectTurns collected role content).mpr
      ⟨line, inside, said⟩
    have uncut : request.maxChars = 0 := by
      rw [range.maxChars_eq, whole]
      rfl
    have listed : turn.entry request.maxChars ∈ request.entries turns :=
      List.mem_map_of_mem (List.mem_filter.mpr ⟨there, passes⟩)
    have fits : (shownContent request.maxChars turn.content).length ≤ maxOutputChars :=
      readPages_fit read _ listed
    rwa [uncut, shownContent, if_neg (by omega)] at fits
  · rintro ⟨⟨turns, collected⟩, short⟩
    have fits : ∀ turn ∈ request.filtered turns,
        (shownContent request.maxChars turn.content).length ≤ maxOutputChars := by
      intro turn inside
      obtain ⟨there, passes⟩ := List.mem_filter.mp inside
      by_cases cut : request.maxCharsPerTurn = 0
      · have uncut : request.maxChars = 0 := by
          rw [range.maxChars_eq, cut]
          rfl
        obtain ⟨line, listed, said⟩ := (mem_collectTurns collected turn.role turn.content).mp
          ⟨turn, there, rfl, rfl⟩
        rw [uncut, shownContent, if_neg (by omega)]
        exact short cut line listed _ _ said passes
      · have natural := range.chars_nonneg
        have positive : 0 < request.maxChars := by
          rw [range.maxChars_eq, maxTranscriptCharsPerTurn]
          omega
        exact length_shownContent positive (Nat.min_le_right _ _) turn.content
    refine ⟨fun start => ?_, fun start reply page read paged before => ?_, ?_⟩
    · obtain ⟨reply, read, _⟩ := @readTranscript_eq parse file request turns collected start
      exact ⟨reply, read⟩
    · obtain ⟨same, returned, known⟩ := @readTranscript_eq parse file request turns collected start
      obtain rfl := Except.ok.inj (read.symm.trans returned)
      obtain rfl := Option.some.inj (paged.symm.trans known)
      obtain ⟨taken, positive, next, _⟩ := pageAt_leads range fits before
      rw [next]
      omega
    · exact ⟨turns, (request.filtered turns).length + 1, collected,
        readPages_ok range collected fits (by omega)⟩

/-- A library that reads an array and a message. -/
def twoLines (line : Text) : Option Json :=
  if line = utf8 "[]" then some (.arr [])
  else if line = utf8 "m" then
    some (.object [("type", .str "user"), ("message", .object [("content", .str "hello")])])
  else none

/-- The arguments as they are without any given. -/
def wholeRequest : Request := ⟨0, 20, 500, "", [], false⟩

/-- The arguments for pages of one turn. -/
def singlePages : Request := ⟨0, 1, 500, "", [], false⟩

/-- A transcript of two messages with a line between that is no JSON is read completely on pages of
one turn. -/
theorem complete_messages : Complete twoLines (utf8 "m\nx\nm\n") singlePages := by
  refine (complete_iff twoLines (utf8 "m\nx\nm\n") singlePages ⟨by decide, by decide, by decide,
    by decide⟩).mpr ⟨?_, fun whole => absurd whole (by decide)⟩
  have lines : Lines.lines newline (utf8 "m\nx\nm\n") = [utf8 "m", utf8 "x", utf8 "m"] := by
    decide
  have readable_lines : ∀ line ∈ [utf8 "m", utf8 "x", utf8 "m"],
      (twoLines line).all readable = true := by decide
  rw [lines]
  rintro line listed _ obj said
  have message := readable_lines line listed
  rw [said] at message
  exact message

/-- A line with an array is not read. -/
theorem array_line_throws : ¬ Complete twoLines (utf8 "[]\n") wholeRequest := by
  intro complete
  obtain ⟨reply, returned⟩ := complete.returns 0
  obtain ⟨turns, collected⟩ := collected_of_returns returned
  have lines : Lines.lines newline (utf8 "[]\n") = [utf8 "[]"] := by decide
  have read := (collectTurns_ok _ 0 0).mp ⟨turns, collected⟩ (utf8 "[]") (by simp [lines])
  have said : twoLines (utf8 "[]") = some (.arr []) := by decide
  have shape := (readLine_ok _).mp read (by decide) (.arr []) said
  contradiction

end Chitta.Sessions
