import Chitta.Queue.Line
import Chitta.Throwing

/-!
# The handlers of the queue's items

`dispatch` looks the tool of an item up in a table of handlers. A handler reads its arguments, calls
the store when the ones it needs are there, and returns false. Only `observe` has a branch that
returns true: an observation of a distillation whose confidence lies below the floor of its source.
The confidence has been clamped to the bounds of that source before, so the branch is never taken.
-/
namespace Chitta.Queue

/-- `SourcePolicy`: the bounds of a source. -/
structure SourcePolicy where
  /-- The cap of the confidence. -/
  maxConfidence : Float32
  /-- The floor of the confidence. -/
  minConfidence : Float32
  /-- The source may store what does not decay soon. -/
  allowDurable : Bool

/-- `source_policy`. -/
def sourcePolicy (source : String) : SourcePolicy :=
  if source = "hook_regex" then ⟨0.70, 0.00, false⟩
  else if source = "hook_compliance" then ⟨0.90, 0.50, false⟩
  else if source = "distillation" then ⟨1.00, 0.75, true⟩
  else if source = "mcp_tool" then ⟨1.00, 0.60, true⟩
  else if source = "system" then ⟨1.00, 0.80, true⟩
  else ⟨0.70, 0.00, false⟩

/-- `category_to_confidence`. -/
def categoryToConfidence (category : String) : Float32 :=
  if category = "correction" then 0.95
  else if category ∈ ["belief", "preference", "solution", "milestone"] then 0.90
  else if category ∈ ["decision", "failure", "gotcha"] then 0.85
  else if category = "episode" then 0.70
  else 0.80

/-- `std::min`: the first argument unless the second one is less. -/
def minOf (left right : Float32) : Float32 := if right < left then right else left

/-- `std::max`: the first argument unless it is less than the second one. -/
def maxOf (left right : Float32) : Float32 := if left < right then right else left

/-- The clamp to the bounds, the cap first. -/
def SourcePolicy.clamp (policy : SourcePolicy) (confidence : Float32) : Float32 :=
  maxOf (minOf confidence policy.maxConfidence) policy.minConfidence

/-- `get<float>`: booleans convert. -/
def getFloat (narrow : Rat → Float32) : Json → Except Thrown Float32
  | .int value => .ok (narrow value)
  | .float value => .ok (narrow value)
  | .bool value => .ok (narrow (if value then 1 else 0))
  | _ => .error (.typeError 302)

/-- The white space that `std::stoull` passes. -/
def isSpace (char : Char) : Bool := char.toNat = 32 || (9 ≤ char.toNat && char.toNat ≤ 13)

/-- `std::stoull`: white space, a sign, digits; a negative number is taken modulo `2 ^ 64`. -/
def stoull (text : String) : Except Thrown Nat :=
  let signed := text.toList.dropWhile isSpace
  let unsigned := match signed with
    | '-' :: rest => rest
    | '+' :: rest => rest
    | _ => signed
  let digits := unsigned.takeWhile Char.isDigit
  let value := digits.foldl (fun value digit => value * 10 + (digit.toNat - 48)) 0
  if digits = [] then .error (.invalidArgument "stoull")
  else if 2 ^ 64 ≤ value then .error (.outOfRange "stoull")
  else if signed.head? = some '-' then .ok ((2 ^ 64 - value) % 2 ^ 64)
  else .ok value

/-- The fields of `ExtractedSymbol` that the queue stores. -/
structure ExtractedSymbol where
  /-- The kind. -/
  kind : String
  /-- The name. -/
  name : String
  /-- The signature, empty when there is none. -/
  signature : String
  /-- The file. -/
  filePath : String
  /-- The first line. -/
  lineStart : Nat
  /-- The last line. -/
  lineEnd : Nat

/-- An accepted observation, as it is about to be stored. -/
structure Observation where
  /-- The category; it decides the kind and whether memories are superseded. -/
  category : String
  /-- The source; it decides the status. -/
  source : String
  /-- What the observation rests on. -/
  evidence : String
  /-- The realm. -/
  realm : String
  /-- The title and the content. -/
  text : String
  /-- The clamped confidence. -/
  confidence : Float32
  /-- The decay. -/
  decay : Float32

/-- The code outside the handlers: the store, the session handler, the counters and the writer of
the JSON library. Each call may change the state and throw. -/
structure Backend (State : Type) where
  /-- The conversion of a number to `float`. -/
  narrow : Rat → Float32
  /-- `dump`. -/
  dump : Json → Except Thrown String
  /-- `queue_count_++`. -/
  count : Throwing State Thrown Unit
  /-- `queue_fail_count_++`. -/
  countFail : Throwing State Thrown Unit
  /-- `habit_seq.fetch_add(1)`: the number before. -/
  habitSeq : Throwing State Thrown Nat
  /-- `pending_slow.push_back`. -/
  pushSlow : Line → Throwing State Thrown Unit
  /-- What `observe` does with an observation that is not rejected: anchors, memory, statuses,
  provenance and supersession. -/
  observed : Observation → Json → List Float32 → Throwing State Thrown Unit
  /-- `remember` without an embedding: kind, realm, content, confidence and decay. -/
  remember : String → String → String → Float32 → Float32 → Throwing State Thrown Nat
  /-- `get_content`. -/
  getContent : Nat → Throwing State Thrown String
  /-- `strengthen`. -/
  strengthen : Nat → Float32 → Throwing State Thrown Unit
  /-- `weaken`. -/
  weaken : Nat → Float32 → Throwing State Thrown Unit
  /-- `add_triplet`: subject, predicate, object, weight and source memory. -/
  addTriplet : String → String → String → Float32 → Nat → Throwing State Thrown Unit
  /-- `emit_event`: domain, action, key and payload. -/
  emitEvent : String → String → String → String → Throwing State Thrown Unit
  /-- `ledger_append`. -/
  ledgerAppend : String → Throwing State Thrown Unit
  /-- `span_ingest`. -/
  spanIngest : String → Throwing State Thrown Unit
  /-- `remove_symbols_by_file`. -/
  removeSymbolsByFile : String → Throwing State Thrown Unit
  /-- `upsert_symbol`: kind, name, signature, file, first and last line, and the embedding. -/
  upsertSymbol : String → String → String → String → Nat → Nat → List Float32 →
    Throwing State Thrown Unit
  /-- `dispatch_session`: the text of the answer and whether it is an error. -/
  dispatchSession : String → Json → Throwing State Thrown (String × Bool)
  /-- `embed_text`. -/
  embedText : String → Throwing State Thrown (List Float32)
  /-- `std::filesystem::exists`. -/
  pathExists : String → Throwing State Thrown Bool
  /-- `CodeIntel::extract_file`. -/
  extractFile : String → Throwing State Thrown (List ExtractedSymbol)
  /-- The wait for recalls and the exclusive lock, as far as the tool needs them. -/
  lock : String → Throwing State Thrown Unit

/-- `try { … } catch (...) {}`. -/
def attempt {State : Type} (body : Throwing State Thrown Unit) : Throwing State Thrown Unit :=
  fun state => (.ok (), (body state).2)

/-- The end of every handler but `observe`: `return false`. -/
def done {State : Type} (body : Throwing State Thrown Unit) : Throwing State Thrown Bool := do
  body
  return false

/-- An id in the arguments: an unsigned number, or a string of digits. -/
def asId : Json → Nat
  | .int value => value.toNat
  | .str text =>
    if text ≠ "" ∧ text.toList.all Char.isDigit then
      match stoull text with
      | .ok id => id
      | .error _ => 0
    else 0
  | _ => 0

/-- The id at a key, when it is not zero. -/
def idAt (args : Json) (key : String) : Option Nat :=
  match args.find key with
  | some value => if asId value = 0 then none else some (asId value)
  | none => none

/-- The first of these nodes that is the id of a stored memory. -/
def firstStored {State : Type} (store : Backend State) (args : Json) :
    List String → Throwing State Thrown Nat
  | [] => return 0
  | key :: rest => do
    match idAt args key with
    | none => firstStored store args rest
    | some id =>
      let content ← store.getContent id
      if content ≠ "" then return id
      firstStored store args rest

/-- `triplet_source_memory_id`. -/
def tripletSourceMemoryId {State : Type} (store : Backend State) (args : Json) :
    Throwing State Thrown Nat :=
  match ["source_memory_id", "memory_id", "memory-id"].findSome? (idAt args) with
  | some id => pure id
  | none => firstStored store args ["subject", "object"]

/-- `QueueToolDispatch`: the item and what was prepared for it before the lock. -/
structure QueueToolDispatch where
  /-- The arguments. -/
  args : Json
  /-- The tool. -/
  tool : String
  /-- The line. -/
  line : Line
  /-- The embedding of a correction, empty when none is needed. -/
  correctionEmb : List Float32
  /-- The symbols of a changed file. -/
  fileSyms : List ExtractedSymbol
  /-- Their embeddings. -/
  fileSymEmbs : List (List Float32)

namespace QueueToolDispatch

variable {State : Type}

/-- The text that is stored: the title comes first unless the content starts with it. -/
def fullText (title content : String) : String :=
  if title = "" ∨ title.toList.isPrefixOf content.toList then content
  else title ++ "\n" ++ content

/-- `observe`. -/
def observe (item : QueueToolDispatch) (store : Backend State) : Throwing State Thrown Bool := do
  let category ← item.args.valueString "category" "wisdom"
  let title ← item.args.valueString "title" ""
  let content ← item.args.valueString "content" ""
  if content = "" then return false
  let source ← item.args.valueString "source" "hook_regex"
  let evidence ← item.args.valueString "evidence" ""
  let policy := sourcePolicy source
  let stated ← (if item.args.contains "confidence" then
      item.args.valueWith (getFloat store.narrow) "confidence" 0.50
    else .ok (categoryToConfidence category) : Except Thrown Float32)
  let decay : Float32 := if policy.allowDurable then 0.005 else 0.02
  let confidence := policy.clamp stated
  if source = "distillation" ∧ confidence < policy.minConfidence then
    store.countFail
    return true
  let realm ← item.args.valueString "realm" "brahman"
  let text := fullText title content
  store.observed ⟨category, source, evidence, realm, text, confidence, decay⟩ item.args
    item.correctionEmb
  return false

/-- `strengthen`. -/
def strengthen (item : QueueToolDispatch) (store : Backend State) : Throwing State Thrown Bool :=
  done do
    let id ← item.args.valueString "id" ""
    let amount ← item.args.valueWith Json.getDouble "amount" 0.1
    if id ≠ "" then attempt do
      let memory ← stoull id
      store.strengthen memory (store.narrow amount)
      store.count

/-- `connect` and `store_claim`: a triplet of three arguments that are not empty. -/
def triplet (item : QueueToolDispatch) (store : Backend State) : Throwing State Thrown Unit := do
  let subject ← item.args.valueString "subject" ""
  let predicate ← item.args.valueString "predicate" ""
  let object ← item.args.valueString "object" ""
  if subject ≠ "" ∧ predicate ≠ "" ∧ object ≠ "" then
    let memory ← tripletSourceMemoryId store item.args
    store.addTriplet subject predicate object 1.0 memory
    store.count

/-- `connect`. -/
def connect (item : QueueToolDispatch) (store : Backend State) : Throwing State Thrown Bool :=
  done (item.triplet store)

/-- `store_claim`. -/
def storeClaim (item : QueueToolDispatch) (store : Backend State) : Throwing State Thrown Bool :=
  done (item.triplet store)

/-- `curiosity_note_gap`. -/
def curiosityNoteGap (item : QueueToolDispatch) (store : Backend State) :
    Throwing State Thrown Bool :=
  done do
    let gap ← item.args.valueString "gap" ""
    if gap ≠ "" then
      let _ ← store.remember "episode" "brahman" ("[curiosity] " ++ gap) 0.7 0.0
      store.count

/-- `store_policy`. -/
def storePolicy (item : QueueToolDispatch) (store : Backend State) : Throwing State Thrown Bool :=
  done do
    let policyType ← item.args.valueString "type" ""
    let content ← item.args.valueString "content" ""
    let confidence ← item.args.valueWith (getFloat store.narrow) "confidence" 0.5
    if policyType ≠ "" ∧ content ≠ "" then
      let text := "[policy:" ++ policyType ++ "] " ++ content
      let _ ← store.remember "wisdom" "brahman" text confidence 0.0
      store.count

/-- `learn_outcome`. -/
def learnOutcome (item : QueueToolDispatch) (store : Backend State) : Throwing State Thrown Bool :=
  done do
    let key := if item.args.contains "memory-id" then "memory-id" else "memory_id"
    let id ← item.args.valueString key ""
    let outcome ← item.args.valueString "outcome" ""
    let context ← item.args.valueString "context" ""
    if id ≠ "" ∧ outcome ≠ "" then attempt do
      let memory ← stoull id
      let payload ← store.dump (Json.object [("outcome", .str outcome), ("context", .str context)])
      store.emitEvent "analytics" "outcome" id payload
      if outcome = "positive" then store.strengthen memory 0.1
      else if outcome = "negative" then store.weaken memory 0.15
      store.count

/-- `session_lifecycle`. -/
def sessionLifecycle (item : QueueToolDispatch) (store : Backend State) :
    Throwing State Thrown Bool :=
  done do
    let (text, isError) ← store.dispatchSession item.tool item.args
    if isError then
      Throwing.fail (.runtimeError ("queued session/ledger operation failed: " ++ text))
    store.count

/-- `transcript_register`. -/
def transcriptRegister (item : QueueToolDispatch) (store : Backend State) :
    Throwing State Thrown Bool :=
  done do
    let session ← item.args.valueString "session_id" ""
    let path ← item.args.valueString "transcript_path" ""
    if path ≠ "" then
      let args ← item.args.set "transcript_id" (.str session)
      let payload ← store.dump args
      store.emitEvent "transcript" "register" session payload
      store.spanIngest path
      store.count

/-- The arguments become an event. -/
def emit (item : QueueToolDispatch) (store : Backend State) (domain action key : String) :
    Throwing State Thrown Unit := do
  let payload ← store.dump item.args
  store.emitEvent domain action key payload
  store.count

/-- `ledger_save`. -/
def ledgerSave (item : QueueToolDispatch) (store : Backend State) : Throwing State Thrown Bool :=
  done do
    let session ← item.args.valueString "session_id" ""
    let project ← item.args.valueString "project" "default"
    if session ≠ "" then item.emit store "ledger" "save" (session ++ ":" ++ project)

/-- `ledger_append`. -/
def ledgerAppend (item : QueueToolDispatch) (store : Backend State) : Throwing State Thrown Bool :=
  done do
    let entry ← store.dump item.args
    store.ledgerAppend entry
    store.count

/-- `narrative_log`. -/
def narrativeLog (item : QueueToolDispatch) (store : Backend State) : Throwing State Thrown Bool :=
  done do
    let session ← item.args.valueString "session_id" ""
    let summary ← item.args.valueString "summary" ""
    if session ≠ "" ∧ summary ≠ "" then item.emit store "analytics" "narrative_log" session

/-- `calibration_record`. -/
def calibrationRecord (item : QueueToolDispatch) (store : Backend State) :
    Throwing State Thrown Bool :=
  done do
    let domain ← item.args.valueString "domain" ""
    if domain ≠ "" then item.emit store "analytics" "calibration" domain

/-- `HABIT_SAMPLE`: one observation in so many becomes an event. -/
def habitSample : Nat := 20

/-- `habit_observe`. -/
def habitObserve (item : QueueToolDispatch) (store : Backend State) : Throwing State Thrown Bool :=
  done do
    let trigger ← item.args.valueString "trigger" ""
    let response ← item.args.valueString "response" ""
    if trigger ≠ "" ∧ response ≠ "" then
      let number ← store.habitSeq
      if number % habitSample = 0 then item.emit store "analytics" "habit" trigger

/-- `anticipation_success`. -/
def anticipationSuccess (item : QueueToolDispatch) (store : Backend State) :
    Throwing State Thrown Bool :=
  done do
    let id ← item.args.valueWith Json.getInt64 "id" 0
    if 0 < id then
      store.emitEvent "analytics" "anticipation_success" (toString id) "\x7b\x7d"
      store.count

/-- `store_turn`. -/
def storeTurn (item : QueueToolDispatch) (store : Backend State) : Throwing State Thrown Bool :=
  done do
    let session ← item.args.valueString "session_id" ""
    let content ← item.args.valueString "content" ""
    if session ≠ "" ∧ content ≠ "" then item.emit store "transcript" "turn" session

/-- `store_relationship_event`. -/
def storeRelationshipEvent (item : QueueToolDispatch) (store : Backend State) :
    Throwing State Thrown Bool :=
  done do
    let eventType ← item.args.valueString "event_type" ""
    let session ← item.args.valueString "session_id" ""
    if eventType ≠ "" then item.emit store "relationship" eventType session

/-- An event of a session. -/
def sessionEvent (action : String) (item : QueueToolDispatch) (store : Backend State) :
    Throwing State Thrown Bool :=
  done do
    let session ← item.args.valueString "session_id" ""
    if session ≠ "" then item.emit store "analytics" action session

/-- `log_session_tokens`. -/
def logSessionTokens (item : QueueToolDispatch) (store : Backend State) :
    Throwing State Thrown Bool :=
  sessionEvent "session_tokens" item store

/-- `log_correction_outcome`. -/
def logCorrectionOutcome (item : QueueToolDispatch) (store : Backend State) :
    Throwing State Thrown Bool :=
  sessionEvent "correction_outcome" item store

/-- `log_exposure`. -/
def logExposure (item : QueueToolDispatch) (store : Backend State) : Throwing State Thrown Bool :=
  sessionEvent "exposure" item store

/-- The symbols of a file, each with its embedding, none when there is no embedding left. -/
def upsertSymbols (store : Backend State) :
    List ExtractedSymbol → List (List Float32) → Throwing State Thrown Unit
  | [], _ => return ()
  | symbol :: rest, embeddings => do
    let signature := if symbol.signature = "" then symbol.name else symbol.signature
    store.upsertSymbol symbol.kind symbol.name signature symbol.filePath symbol.lineStart
      symbol.lineEnd (embeddings.headD [])
    upsertSymbols store rest embeddings.tail

/-- `extract_symbols`. -/
def extractSymbols (item : QueueToolDispatch) (store : Backend State) :
    Throwing State Thrown Bool :=
  done do
    let path ← item.args.valueString "path" ""
    if path ≠ "" then
      store.removeSymbolsByFile path
      upsertSymbols store item.fileSyms item.fileSymEmbs
      store.count

/-- `distill_trigger`. -/
def distillTrigger (item : QueueToolDispatch) (store : Backend State) :
    Throwing State Thrown Bool :=
  done (store.pushSlow item.line)

/-- The table of the handlers. -/
def handlers : List (String × (QueueToolDispatch → Backend State → Throwing State Thrown Bool)) :=
  [("observe", observe), ("strengthen", strengthen), ("connect", connect),
    ("curiosity_note_gap", curiosityNoteGap), ("store_policy", storePolicy),
    ("store_claim", storeClaim), ("learn_outcome", learnOutcome),
    ("ledger_op", sessionLifecycle), ("session_register", sessionLifecycle),
    ("session_heartbeat", sessionLifecycle), ("session_deregister", sessionLifecycle),
    ("transcript_register", transcriptRegister), ("ledger_save", ledgerSave),
    ("ledger_append", ledgerAppend), ("narrative_log", narrativeLog),
    ("calibration_record", calibrationRecord), ("habit_observe", habitObserve),
    ("anticipation_success", anticipationSuccess), ("store_turn", storeTurn),
    ("store_relationship_event", storeRelationshipEvent),
    ("log_session_tokens", logSessionTokens),
    ("log_correction_outcome", logCorrectionOutcome), ("log_exposure", logExposure),
    ("extract_symbols", extractSymbols), ("distill_trigger", distillTrigger)]

/-- `dispatch`: the handler of the tool; an unknown tool does nothing. -/
def dispatch (item : QueueToolDispatch) (store : Backend State) : Throwing State Thrown Bool :=
  match Assoc.lookup item.tool handlers with
  | some handler => handler item store
  | none => return false

end QueueToolDispatch

/-- The embedding of a correction that supersedes by its meaning. -/
def correctionEmbedding {State : Type} (store : Backend State) (tool : String) (args : Json) :
    Throwing State Thrown (List Float32) := do
  if tool ≠ "observe" then return []
  let category ← args.valueString "category" "wisdom"
  if category ≠ "correction" then return []
  let target ← args.valueString "target_id" ""
  if target ≠ "" ∨ args.contains "force_supersede_ids" then return []
  let title ← args.valueString "title" ""
  let content ← args.valueString "content" ""
  if content = "" then return []
  store.embedText (if title = "" then content else title ++ "\n" ++ content)

/-- The text of a symbol that is embedded. -/
def ExtractedSymbol.text (symbol : ExtractedSymbol) : String :=
  let named := symbol.kind ++ " " ++ symbol.name
  if symbol.signature = "" then named else named ++ " " ++ symbol.signature

/-- The symbols of a changed file and their embeddings. -/
def fileSymbols {State : Type} (store : Backend State) (tool : String) (args : Json) :
    Throwing State Thrown (List ExtractedSymbol × List (List Float32)) := do
  if tool ≠ "extract_symbols" then return ([], [])
  let path ← args.valueString "path" ""
  if path = "" then return ([], [])
  let found ← store.pathExists path
  if !found then return ([], [])
  let symbols ← store.extractFile path
  let embeddings ← symbols.mapM fun symbol => store.embedText symbol.text
  return (symbols, embeddings)

/-- The item loop from the read of an item to the answer of its handler. -/
def runItem {State : Type} (store : Backend State) (line : Line) (item : String × Json) :
    Throwing State Thrown Bool := do
  let (tool, args) := item
  let correctionEmb ← correctionEmbedding store tool args
  let (fileSyms, fileSymEmbs) ← fileSymbols store tool args
  store.lock tool
  QueueToolDispatch.dispatch ⟨args, tool, line, correctionEmb, fileSyms, fileSymEmbs⟩ store

/-! ## No handler reports a rejection -/

/-- No number is less than itself, and what is not a number is less than nothing. -/
theorem float_irrefl (number : Float32) : ¬number < number := by
  intro less
  have ordered : number.toModel.unpack.lt number.toModel.unpack = true := of_decide_eq_true less
  revert ordered
  unfold Float.Model.UnpackedFloat.lt Float.Model.UnpackedFloat.compare
  cases number.toModel.unpack with
  | notANumber => decide
  | infinity sign => cases sign <;> decide
  | zero sign => simp
  | finite sign mantissa exponent positive =>
    cases sign <;> dsimp only <;> simp

/-- A greater one of two numbers is not below the second. -/
theorem maxOf_not_below (left right : Float32) : ¬maxOf left right < right := by
  unfold maxOf
  split
  · exact float_irrefl right
  · assumption

/-- A clamped confidence is not below the floor. -/
theorem SourcePolicy.clamp_not_below (policy : SourcePolicy) (confidence : Float32) :
    ¬policy.clamp confidence < policy.minConfidence :=
  maxOf_not_below _ _

variable {State : Type}

/-- A handler that ends with `return false`. -/
theorem ensures_done (body : Throwing State Thrown Unit) :
    Throwing.Ensures (· = false) (done body) :=
  Throwing.Ensures.bind fun _ => Throwing.Ensures.pure rfl

namespace QueueToolDispatch

open Throwing

/-- An observation is not rejected. -/
theorem ensures_observe (item : QueueToolDispatch) (store : Backend State) :
    Ensures (· = false) (item.observe store) := by
  unfold observe
  apply Ensures.bind
  intro category
  apply Ensures.bind
  intro title
  apply Ensures.bind
  intro content
  apply Ensures.ite
  · intro _
    exact Ensures.pure rfl
  · intro _
    apply Ensures.bind
    intro source
    apply Ensures.bind
    intro evidence
    apply Ensures.bind
    intro stated
    apply Ensures.ite
    · intro rejected
      exact absurd rejected.2 (SourcePolicy.clamp_not_below _ _)
    · intro _
      apply Ensures.bind
      intro realm
      apply Ensures.bind
      intro _
      exact Ensures.pure rfl

/-- No handler of the table reports a rejection. -/
theorem ensures_handlers (item : QueueToolDispatch) (store : Backend State) :
    ∀ entry ∈ handlers, Ensures (· = false) (entry.2 item store) := by
  simp only [handlers, List.forall_mem_cons]
  refine ⟨ensures_observe item store, ?_⟩
  -- The other handlers end with `return false`, one after the other.
  repeat refine ⟨ensures_done _, ?_⟩
  exact List.forall_mem_nil _

/-- No item is rejected, whatever its tool and its arguments. -/
theorem ensures_dispatch (item : QueueToolDispatch) (store : Backend State) :
    Ensures (· = false) (item.dispatch store) := by
  unfold dispatch
  cases found : Assoc.lookup item.tool (handlers : List (String × (QueueToolDispatch →
      Backend State → Throwing State Thrown Bool))) with
  | none => exact Ensures.pure rfl
  | some handler => exact ensures_handlers item store _ (Assoc.mem_of_lookup found)

end QueueToolDispatch

/-- No item ends with a rejection. -/
theorem ensures_runItem (store : Backend State) (line : Line) (item : String × Json) :
    Throwing.Ensures (· = false) (runItem store line item) := by
  apply Throwing.Ensures.bind
  intro correctionEmb
  apply Throwing.Ensures.bind
  intro symbols
  apply Throwing.Ensures.bind
  intro _
  exact QueueToolDispatch.ensures_dispatch _ store

/-- The confidence of a distillation that states less than its floor is raised to the floor, which
is then accepted. -/
example : (sourcePolicy "distillation").clamp 0.5 = 0.75 := by decide

end Chitta.Queue
