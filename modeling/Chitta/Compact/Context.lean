import Chitta.Bytes
import Chitta.Checkpoint.Tools
import Chitta.Greedy
import Chitta.Queue.Dispatch

/-!
# The compaction of a context

`tool_compact_context` scores the messages of a conversation, looks at them from the best score
down and keeps each that fits into what the target leaves beside the system messages, which are all
kept. Scores are single-precision numbers and are computed as the source computes them. The
embedding of a text, the recall of memories, the sort of the standard library and the format of a
number are outside this development; the sort is one that the library promises, some permutation.
-/
namespace Chitta.Compact

open Bytes
open Checkpoint (ToolResult)
open Queue (getFloat maxOf)

/-! ## Texts and numbers -/

/-- The loop over the bytes in `estimate_tokens`. -/
def countWords : Bool → Text → Nat
  | _, [] => 0
  | inWord, ch :: rest =>
    if isSpace ch then countWords false rest
    else if inWord then countWords true rest
    else countWords true rest + 1

/-- `estimate_tokens`. -/
def estimateTokens (text : Text) : Nat :=
  ((countWords false text).toUInt64.toFloat32 * 1.3).toUInt64.toNat

/-- `std::clamp`. -/
def clamp (value low high : Float32) : Float32 :=
  if value < low then low else if high < value then high else value

/-- The three sums of `cosine_sim`. -/
def sums : List (Float32 × Float32) → Float32 × Float32 × Float32 → Float32 × Float32 × Float32
  | [], found => found
  | (a, b) :: rest, (dot, na, nb) => sums rest (dot + a * b, na + a * a, nb + b * b)

/-- `cosine_sim`. -/
def cosineSim (a b : List Float32) : Float32 :=
  if a.length ≠ b.length ∨ a.isEmpty then 0
  else
    let (dot, na, nb) := sums (a.zip b) (0, 0, 0)
    let denom := na.sqrt * nb.sqrt
    if 1e-9 < denom then dot / denom else 0

/-! ## Messages -/

/-- A block of the content. -/
def addBlock (out : Text) (block : Json) : Except Thrown Text := do
  if !block.isObject then return out
  else if (← block.valueString "type" "") = "text" ∧ block.contains "text" then
    let text ← (← block.index "text").getString
    return (if out = [] then out else out ++ [32]) ++ utf8 text
  else return out

/-- `extract_content`. -/
def extractContent (msg : Json) : Except Thrown Text :=
  match msg.find "content" with
  | some (.str text) => .ok (utf8 text)
  | some (.arr blocks) => blocks.foldlM addBlock []
  | _ => .ok []

/-- What is read of a message. -/
structure Turn where
  /-- `roles`. -/
  role : String
  /-- `contents`. -/
  content : Text
deriving DecidableEq

instance : Inhabited Turn := ⟨⟨"", []⟩⟩

/-- `token_counts`. -/
def Turn.tokens (turn : Turn) : Nat := estimateTokens turn.content

/-- `is_system`. -/
def Turn.isSystem (turn : Turn) : Bool := turn.role = "system"

/-- One turn of the loop that reads the messages. -/
def readTurn (msg : Json) : Except Thrown Turn := do
  let content ← extractContent msg
  let role ← msg.valueString "role" ""
  return ⟨role, content⟩

/-! ## Scores -/

/-- The embedder. -/
structure Embedder where
  /-- `embed_text`. -/
  embedText : Text → List Float32
  /-- `embed_query`. -/
  embedQuery : String → List Float32

/-- What the tool takes from outside. -/
structure Env where
  /-- `yantra_`. -/
  yantra : Option Embedder
  /-- `recall` of `field_store_`: the scores of the hits. -/
  recallScores : Option (List Float32 → Nat → List Float32)
  /-- A number of the request as a `float`. -/
  narrow : Rat → Float32
  /-- `std::sort` with a comparison. -/
  sort : (Nat → Nat → Bool) → List Nat → List Nat
  /-- A number with one digit behind the point. -/
  fixed : Float → String

variable (env : Env)

/-- `structural_weight`. -/
def structuralWeight (role : String) : Float32 :=
  if role = "system" then 2.0
  else if role = "user" then 1.0
  else if role = "assistant" then 0.8
  else if role = "tool" ∨ role = "tool_result" then 0.5
  else 0.6

/-- `embeddings`. -/
def embedding (turn : Turn) : List Float32 :=
  match env.yantra with
  | some embedder =>
    if turn.isSystem ∨ turn.content = [] then [] else embedder.embedText turn.content
  | none => []

/-- `query_emb`. -/
def queryEmb (query : String) : List Float32 :=
  match env.yantra with
  | some embedder => if query = "" then [] else embedder.embedQuery query
  | none => []

/-- `memory_coverages`. -/
def coverage (turn : Turn) : Float32 :=
  match env.recallScores with
  | some recalled =>
    if turn.isSystem ∨ (embedding env turn).isEmpty then 0
    else (recalled (embedding env turn) 3).foldl maxOf 0
  | none => 0

/-- The recency of a message. -/
def recency (nonSysTotal nonSysIdx : Nat) : Float32 :=
  if nonSysTotal ≤ 1 then 1.0
  else 0.1 + 0.9 * (nonSysIdx.toUInt64.toFloat32 / (nonSysTotal - 1).toUInt64.toFloat32)

/-- `scores`. -/
def scoresFrom (query : List Float32) (nonSysTotal : Nat) : Nat → List Turn → List Float32
  | _, [] => []
  | nonSysIdx, turn :: rest =>
    if turn.isSystem then 1e9 :: scoresFrom query nonSysTotal nonSysIdx rest
    else
      let emb := embedding env turn
      let semanticSim := if query.isEmpty ∨ emb.isEmpty then 0.5 else cosineSim emb query
      structuralWeight turn.role * (0.3 * recency nonSysTotal nonSysIdx + 0.4 * semanticSim +
        0.3 * (1.0 - coverage env turn)) :: scoresFrom query nonSysTotal (nonSysIdx + 1) rest

/-- `indices`: the messages from the best score down. -/
def ranking (query : String) (turns : List Turn) : List Nat :=
  let nonSysTotal := turns.countP fun turn => !turn.isSystem
  let scores := scoresFrom env (queryEmb env query) nonSysTotal 0 turns
  env.sort (fun a b => scores.getD b 0 < scores.getD a 0) (List.range turns.length)

/-! ## The messages that are kept -/

/-- The state of the loop that keeps messages. -/
structure Keeping where
  /-- `keep`. -/
  keep : List Bool
  /-- `kept_non_sys_tokens`. -/
  keptNonSysTokens : Nat

/-- One turn of the loop that keeps messages. -/
def keepOne (turns : List Turn) (budget : Nat) (state : Keeping) (idx : Nat) : Keeping :=
  let turn := turns.getD idx default
  if turn.isSystem then { state with keep := state.keep.set idx true }
  else if state.keptNonSysTokens + turn.tokens ≤ budget then
    ⟨state.keep.set idx true, state.keptNonSysTokens + turn.tokens⟩
  else state

/-- The items whose marks are set. -/
def marked {α : Type} : List Bool → List α → List α
  | keep :: marks, item :: rest => if keep then item :: marked marks rest else marked marks rest
  | _, _ => []

/-- `total_tokens`. -/
def totalTokens (turns : List Turn) : Nat := tally Turn.tokens turns

/-- `system_tokens`. -/
def systemTokens (turns : List Turn) : Nat :=
  tally (fun turn => if turn.isSystem then turn.tokens else 0) turns

/-- `target_tokens`. -/
def targetTokens (turns : List Turn) (targetRatio : Float32) : Nat :=
  ((totalTokens turns).toUInt64.toFloat32 * targetRatio).toUInt64.toNat

/-! ## What is dropped is distilled -/

/-- `contains_ci`. -/
def containsCi (hay : Text) (needle : String) : Bool :=
  (cutAt (utf8 needle) (hay.map lower)).isSome

/-- `classify_kind`. -/
def classifyKind (role : String) (text : Text) : String :=
  if ["wrong", "mistake", "incorrect", "that's not", "not what i", "should be",
      "actually, "].any (containsCi text) then "correction"
  else if ["i prefer", "i always", "please always", "please don't", "from now on", "in the future",
      "never do", "stop doing"].any (containsCi text) then "preference"
  else if ["every time", "whenever", "habit", "pattern", "convention",
      "standard"].any (containsCi text) then "habit"
  else if role = "assistant" ∧ ["the reason", "because", "the fix", "the way to", "the correct",
      "you should", "best practice", "important:"].any (containsCi text) then "wisdom"
  else "episode"

/-- The arguments of `remember`. -/
structure Memory where
  /-- The kind. -/
  kind : String
  /-- The realm. -/
  realm : String
  /-- The content. -/
  content : Text
  /-- The embedding. -/
  embedding : List Float32
  /-- The confidence. -/
  confidence : Float32
  /-- The rate of the decay. -/
  decayRate : Float32

/-- The content of the memory of a message. -/
def memContent (turn : Turn) : Text :=
  utf8 "[distill-on-drop:" ++ utf8 turn.role ++ utf8 "] " ++ turn.content.take 600

/-- A message that is dropped is worth a memory. -/
def novel (novelThreshold : Float32) (turn : Turn) : Bool :=
  !turn.isSystem && 40 ≤ turn.content.length && !(novelThreshold ≤ coverage env turn)

/-- The memory of a message. -/
def distilled (realm : String) (turn : Turn) : Memory where
  kind := classifyKind turn.role turn.content
  realm := realm
  content := memContent turn
  embedding := embedding env turn
  confidence := 0.5 + 0.25 * (1.0 - coverage env turn)
  decayRate := 0.001

/-- The messages that are stored as memories, in order. -/
def distill (enabled : Bool) (novelThreshold : Float32) (realm : String) (keep : List Bool)
    (turns : List Turn) : List Memory :=
  if enabled && env.yantra.isSome && env.recallScores.isSome then
    ((marked (keep.map not) turns).filter (novel env novelThreshold)).map (distilled env realm)
  else []

/-- `distilled_kinds`. -/
def distilledKinds (memories : List Memory) : List (String × Nat) :=
  memories.foldl (fun kinds memory =>
    Assoc.assign memory.kind ((Assoc.lookup memory.kind kinds).getD 0 + 1) kinds) []

/-! ## The tool -/

/-- `stats`. -/
structure Stats where
  /-- `before_tokens`. -/
  beforeTokens : Nat
  /-- `after_tokens`. -/
  afterTokens : Nat
  /-- `dropped`. -/
  dropped : Nat
  /-- `dropped_pct`. -/
  droppedPct : Float
  /-- `distilled`. -/
  distilled : Nat
  /-- `distilled_kinds`; absent when nothing had to be dropped. -/
  distilledKinds : Option (List (String × Nat))
  /-- `embedding`. -/
  embedding : Bool

/-- The result of the tool, with the memories that it stored. -/
structure Reply where
  /-- The text. -/
  text : String
  /-- The messages that are left. -/
  messages : List Json
  /-- The numbers. -/
  stats : Stats
  /-- The calls of `remember`. -/
  remembered : List Memory

/-- The share that a request asks for. -/
def targetRatio (params : Json) : Except Thrown Float32 := do
  let ratio ← params.valueWith (getFloat env.narrow) "target_ratio" 0.4
  return clamp ratio 0.05 1.0

/-- `budget`: what the target leaves beside the messages of the system. -/
def budgetOf (turns : List Turn) (target : Nat) : Nat :=
  if systemTokens turns < target then target - systemTokens turns else 0

/-- The loop over the messages from the best score down. -/
def keeping (query : String) (target : Nat) (turns : List Turn) : Keeping :=
  (ranking env query turns).foldl (keepOne turns (budgetOf turns target))
    ⟨List.replicate turns.length false, 0⟩

/-- The end of the tool: what is dropped is distilled, what is kept is returned. -/
def assemble (realm : String) (distillNovel : Bool) (novelThreshold : Float32)
    (messages : List Json) (turns : List Turn) (state : Keeping) : Reply :=
  let n := messages.length
  let memories := distill env distillNovel novelThreshold realm state.keep turns
  let keptMessages := marked state.keep messages
  let dropped := n - keptMessages.length
  let afterTokens := systemTokens turns + state.keptNonSysTokens
  let droppedPct :=
    if 0 < n then dropped.toUInt64.toFloat / n.toUInt64.toFloat * 100.0 else 0.0
  { text := "Compacted " ++ toString (totalTokens turns) ++ " → " ++ toString afterTokens ++
      " tok (" ++ toString dropped ++ " dropped" ++
      (if 0 < memories.length then ", " ++ toString memories.length ++ " distilled into memory"
        else "") ++ ", " ++ env.fixed droppedPct ++ "%)"
    messages := keptMessages
    stats := ⟨totalTokens turns, afterTokens, dropped, droppedPct, memories.length,
      some (distilledKinds memories), env.yantra.isSome⟩
    remembered := memories }

/-- `tool_compact_context`. -/
def toolCompactContext (params : Json) : Except Thrown (ToolResult Reply) :=
  match params.find "messages" with
  | some (.arr []) =>
    .ok (.ok ⟨"No messages to compact", [], ⟨0, 0, 0, 0.0, 0, none, false⟩, []⟩)
  | some (.arr messages) => do
    let query ← params.valueString "query" ""
    let ratio ← targetRatio env params
    let distillNovel ← params.valueWith Json.getBool "distill_novel" false
    let novelThreshold ← params.valueWith (getFloat env.narrow) "novel_threshold" 0.5
    let realm ← params.valueString "distill_realm" "brahman"
    let turns ← messages.mapM readTurn
    let total := totalTokens turns
    let target := targetTokens turns ratio
    if total ≤ target then
      return .ok ⟨"Already within budget", messages,
        ⟨total, total, 0, 0.0, 0, none, env.yantra.isSome⟩, []⟩
    else return .ok (assemble env realm distillNovel novelThreshold messages turns
      (keeping env query target turns))
  | _ => .ok (.error "messages (array) is required")

/-! ## Marks -/

section Marks

variable {α : Type} {keep : List Bool} {items : List α} {idx : Nat} {item : α}

/-- The marked items stay in order. -/
theorem marked_sublist (keep : List Bool) (items : List α) : (marked keep items).Sublist items := by
  induction items generalizing keep with
  | nil => cases keep <;> exact List.Sublist.slnil
  | cons item rest ih =>
    cases keep with
    | nil => exact List.nil_sublist _
    | cons keep marks =>
      cases keep with
      | true => exact (ih marks).cons_cons item
      | false => exact (ih marks).cons item

/-- A marked item has its mark. -/
theorem mem_marked : item ∈ marked keep items ↔
    ∃ idx : Nat, items[idx]? = some item ∧ keep[idx]? = some true := by
  induction items generalizing keep with
  | nil => cases keep <;> simp [marked]
  | cons first rest ih =>
    cases keep with
    | nil => simp [marked]
    | cons mark marks =>
      constructor
      · intro inside
        cases mark with
        | true =>
          rcases List.mem_cons.mp inside with rfl | later
          · exact ⟨0, rfl, rfl⟩
          · obtain ⟨idx, found, set⟩ := ih.mp later
            exact ⟨idx + 1, found, set⟩
        | false =>
          obtain ⟨idx, found, set⟩ := ih.mp inside
          exact ⟨idx + 1, found, set⟩
      · rintro ⟨idx, found, set⟩
        cases idx with
        | zero =>
          obtain rfl := Option.some.inj found
          obtain rfl := Option.some.inj set
          exact List.mem_cons_self
        | succ idx =>
          have later : item ∈ marked marks rest := ih.mpr ⟨idx, found, set⟩
          cases mark with
          | true => exact List.mem_cons_of_mem _ later
          | false => exact later

/-- A mark that is set adds its item. -/
theorem tally_marked_set (weight : α → Nat) (found : items[idx]? = some item)
    (clear : keep[idx]? = some false) :
    tally weight (marked (keep.set idx true) items) =
      tally weight (marked keep items) + weight item := by
  induction items generalizing keep idx with
  | nil => contradiction
  | cons first rest ih =>
    cases keep with
    | nil => contradiction
    | cons mark marks =>
      cases idx with
      | zero =>
        obtain rfl := Option.some.inj found
        obtain rfl := Option.some.inj clear
        show weight first + tally weight (marked marks rest) = tally weight (marked marks rest) + _
        omega
      | succ idx =>
        have inner := ih found clear
        cases mark with
        | true =>
          show weight first + tally weight (marked (marks.set idx true) rest) =
            weight first + tally weight (marked marks rest) + weight item
          omega
        | false => exact inner

/-- What only unmarked items weigh is not missing. -/
theorem tally_marked (weight : α → Nat) (length : keep.length = items.length)
    (heavy : ∀ (idx : Nat) item, items[idx]? = some item → 0 < weight item →
      keep[idx]? = some true) :
    tally weight (marked keep items) = tally weight items := by
  induction items generalizing keep with
  | nil => cases keep <;> rfl
  | cons first rest ih =>
    cases keep with
    | nil => contradiction
    | cons mark marks =>
      have others := ih (Nat.succ.inj length) fun idx item found => heavy (idx + 1) item found
      cases mark with
      | true =>
        show weight first + tally weight (marked marks rest) = weight first + tally weight rest
        omega
      | false =>
        have light : weight first = 0 := by
          refine Nat.eq_zero_of_not_pos fun positive => ?_
          exact Bool.noConfusion (Option.some.inj (heavy 0 first rfl positive))
        show tally weight (marked marks rest) = weight first + tally weight rest
        omega

end Marks

/-! ## The loop that keeps messages -/

section Loop

variable (turns : List Turn) (budget : Nat)

/-- The tokens of a message outside the system. -/
def Turn.ownTokens (turn : Turn) : Nat := if turn.isSystem then 0 else turn.tokens

/-- `token_counts` of a place. -/
def weigh (idx : Nat) : Nat := (turns.getD idx default).tokens

/-- The message at a place is not of the system. -/
def isOwn (idx : Nat) : Bool := !(turns.getD idx default).isSystem

/-- The messages outside the system that the loop keeps. -/
def taken (used : Nat) (indices : List Nat) : List Nat :=
  Greedy.fill (weigh turns) budget used (indices.filter (isOwn turns))

/-- What the loop does from a state to another one. -/
structure Kept (indices : List Nat) (before after : Keeping) : Prop where
  /-- No mark is added. -/
  length : after.keep.length = before.keep.length
  /-- The tokens are those of the messages that are kept. -/
  tokens : after.keptNonSysTokens = before.keptNonSysTokens +
    tally (weigh turns) (taken turns budget before.keptNonSysTokens indices)
  /-- The marks of the system and of what fits are set. -/
  marks : ∀ idx < turns.length, (after.keep[idx]? = some true ↔ before.keep[idx]? = some true ∨
    (idx ∈ indices ∧ isOwn turns idx = false) ∨
    idx ∈ taken turns budget before.keptNonSysTokens indices)
  /-- The marked messages have as many tokens as were counted. -/
  counted : tally Turn.ownTokens (marked after.keep turns) =
    tally Turn.ownTokens (marked before.keep turns) +
      tally (weigh turns) (taken turns budget before.keptNonSysTokens indices)

variable {turns budget} {indices : List Nat} {idx : Nat} {state : Keeping}

/-- A mark that is set, among the others. -/
theorem getElem?_mark (keep : List Bool) (idx place : Nat) (inside : idx < keep.length) :
    (keep.set idx true)[place]? = some true ↔ place = idx ∨ keep[place]? = some true := by
  rw [List.getElem?_set]
  by_cases same : idx = place
  · subst same
    simp [inside]
  · have other : place ≠ idx := fun equal => same equal.symm
    simp [same, other]

/-- A place in the list is the message there. -/
theorem getElem?_place (low : idx < turns.length) :
    turns[idx]? = some (turns.getD idx default) := by
  rw [List.getD_eq_getElem?_getD, List.getElem?_eq_getElem low, Option.getD_some]

/-- A message of the system is kept and counts nothing. -/
theorem Kept.system {after : Keeping} {rest : List Nat} (low : idx < turns.length)
    (unset : state.keep[idx]? = some false) (system : (turns.getD idx default).isSystem = true)
    (behind : Kept turns budget rest { state with keep := state.keep.set idx true } after) :
    Kept turns budget (idx :: rest) state after := by
  have room := (List.getElem?_eq_some_iff.mp unset).1
  have own : isOwn turns idx = false := by rw [isOwn, system, Bool.not_true]
  have same : taken turns budget state.keptNonSysTokens (idx :: rest) =
      taken turns budget state.keptNonSysTokens rest := by
    rw [taken, List.filter_cons_of_neg (by simp only [own, Bool.false_eq_true, not_false_eq_true])]
    rfl
  have light : (turns.getD idx default).ownTokens = 0 := if_pos system
  refine ⟨behind.length.trans (List.length_set ..), by rw [same]; exact behind.tokens, ?_, ?_⟩
  · intro place small
    rw [behind.marks place small, getElem?_mark _ _ _ room, same, List.mem_cons]
    constructor
    · rintro ((rfl | set) | kept)
      · exact .inr (.inl ⟨.inl rfl, own⟩)
      · exact .inl set
      · exact .inr (kept.imp (fun system => ⟨.inr system.1, system.2⟩) id)
    · rintro (set | ⟨rfl | there, system⟩ | fits)
      · exact .inl (.inr set)
      · exact .inl (.inl rfl)
      · exact .inr (.inl ⟨there, system⟩)
      · exact .inr (.inr fits)
  · rw [same, behind.counted]
    show tally _ (marked (state.keep.set idx true) turns) + _ = _
    rw [tally_marked_set _ (getElem?_place low) unset, light]
    rfl

/-- A message that fits is kept and counted. -/
theorem Kept.fits {after : Keeping} {rest : List Nat} (low : idx < turns.length)
    (unset : state.keep[idx]? = some false) (own : (turns.getD idx default).isSystem = false)
    (fits : state.keptNonSysTokens + weigh turns idx ≤ budget)
    (behind : Kept turns budget rest
      ⟨state.keep.set idx true, state.keptNonSysTokens + weigh turns idx⟩ after) :
    Kept turns budget (idx :: rest) state after := by
  have room := (List.getElem?_eq_some_iff.mp unset).1
  have same : taken turns budget state.keptNonSysTokens (idx :: rest) =
      idx :: taken turns budget (state.keptNonSysTokens + weigh turns idx) rest := by
    rw [taken, List.filter_cons_of_pos (by rw [isOwn, own, Bool.not_false])]
    exact Greedy.fill_fits fits
  have heavy : (turns.getD idx default).ownTokens = weigh turns idx := by
    rw [Turn.ownTokens, own]
    rfl
  refine ⟨behind.length.trans (List.length_set ..), ?_, ?_, ?_⟩
  · rw [behind.tokens, same, tally_cons, ← Nat.add_assoc]
  · intro place small
    rw [behind.marks place small, getElem?_mark _ _ _ room, same, List.mem_cons, List.mem_cons]
    constructor
    · rintro ((rfl | set) | system | kept)
      · exact .inr (.inr (.inl rfl))
      · exact .inl set
      · exact .inr (.inl ⟨.inr system.1, system.2⟩)
      · exact .inr (.inr (.inr kept))
    · rintro (set | ⟨rfl | there, system⟩ | rfl | kept)
      · exact .inl (.inr set)
      · exact .inl (.inl rfl)
      · exact .inr (.inl ⟨there, system⟩)
      · exact .inl (.inl rfl)
      · exact .inr (.inr kept)
  · rw [behind.counted, same, tally_cons, ← Nat.add_assoc]
    show tally _ (marked (state.keep.set idx true) turns) + _ = _
    rw [tally_marked_set _ (getElem?_place low) unset, heavy]

/-- A message that does not fit changes nothing. -/
theorem Kept.passes {after : Keeping} {rest : List Nat}
    (own : (turns.getD idx default).isSystem = false)
    (large : ¬state.keptNonSysTokens + weigh turns idx ≤ budget)
    (behind : Kept turns budget rest state after) :
    Kept turns budget (idx :: rest) state after := by
  have outside : isOwn turns idx = true := by rw [isOwn, own, Bool.not_false]
  have same : taken turns budget state.keptNonSysTokens (idx :: rest) =
      taken turns budget state.keptNonSysTokens rest := by
    rw [taken, List.filter_cons_of_pos outside]
    exact Greedy.fill_passes large
  refine ⟨behind.length, by rw [same]; exact behind.tokens, ?_, by rw [same]; exact behind.counted⟩
  intro place small
  rw [behind.marks place small, same, List.mem_cons]
  constructor
  · exact Or.imp_right (Or.imp_left fun system => ⟨.inr system.1, system.2⟩)
  · refine Or.imp_right (Or.imp_left ?_)
    rintro ⟨rfl | there, system⟩
    · rw [outside] at system
      contradiction
    · exact ⟨there, system⟩

/-- The loop keeps the messages of the system and of the others those that fit. -/
theorem foldl_keepOne (distinct : indices.Nodup) (inside : ∀ idx ∈ indices, idx < turns.length)
    (clear : ∀ idx ∈ indices, state.keep[idx]? = some false) :
    Kept turns budget indices state (indices.foldl (keepOne turns budget) state) := by
  induction indices generalizing state with
  | nil => exact ⟨rfl, rfl, fun idx low => by simp [taken, Greedy.fill], rfl⟩
  | cons idx rest ih =>
    obtain ⟨fresh, distinct⟩ := List.nodup_cons.mp distinct
    have low := inside idx List.mem_cons_self
    have unset := clear idx List.mem_cons_self
    have later : ∀ place ∈ rest, place < turns.length := fun place there =>
      inside place (List.mem_cons_of_mem _ there)
    have clear : ∀ place ∈ rest, state.keep[place]? = some false := fun place there =>
      clear place (List.mem_cons_of_mem _ there)
    have still : ∀ place ∈ rest, (state.keep.set idx true)[place]? = some false := by
      intro place there
      rw [List.getElem?_set_ne fun same : idx = place => fresh (same ▸ there)]
      exact clear place there
    rw [List.foldl_cons, keepOne]
    by_cases system : (turns.getD idx default).isSystem
    · rw [if_pos system]
      exact Kept.system low unset system (ih distinct later still)
    · rw [if_neg system]
      have own := Bool.eq_false_iff.mpr system
      by_cases fits : state.keptNonSysTokens + (turns.getD idx default).tokens ≤ budget
      · rw [if_pos fits]
        exact Kept.fits low unset own fits (ih distinct later still)
      · rw [if_neg fits]
        exact Kept.passes own fits (ih distinct later clear)

end Loop

/-! ## What the tool promises -/

/-- A reply keeps some of the messages, for a target of tokens. -/
structure Compaction (messages : List Json) (turns : List Turn) (target : Nat) (reply : Reply)
    (keep : List Bool) : Prop where
  /-- Every message is kept or dropped. -/
  length : keep.length = messages.length
  /-- The messages that are kept, as they came and in their order. -/
  left : reply.messages = marked keep messages
  /-- The others are counted. -/
  dropped : reply.stats.dropped + reply.messages.length = messages.length
  /-- Messages of the system are kept. -/
  system : ∀ (idx : Nat) turn, turns[idx]? = some turn → turn.isSystem = true →
    keep[idx]? = some true
  /-- The tokens of all messages. -/
  before : reply.stats.beforeTokens = tally Turn.tokens turns
  /-- The tokens of the messages that are kept. -/
  after : reply.stats.afterTokens = tally Turn.tokens (marked keep turns)
  /-- These stay within the target, unless the messages of the system alone do not. -/
  within : reply.stats.afterTokens ≤ max target (systemTokens turns)
  /-- No message that is dropped would still fit. -/
  full : ∀ (idx : Nat) turn, turns[idx]? = some turn → keep[idx]? = some false →
    max target (systemTokens turns) < reply.stats.afterTokens + turn.tokens
  /-- A memory is made of a message that is dropped. -/
  remembered : ∀ memory ∈ reply.remembered, ∃ (idx : Nat) (turn : Turn),
    turns[idx]? = some turn ∧ keep[idx]? = some false ∧ turn.isSystem = false ∧
      memory.content = memContent turn

/-- The sort of the standard library only reorders. -/
def Env.Sorts (env : Env) : Prop := ∀ less items, (env.sort less items).Perm items

/-- All tokens are those of the system and the others. -/
theorem tally_tokens (turns : List Turn) : tally Turn.tokens turns =
    systemTokens turns + tally Turn.ownTokens turns := by
  induction turns with
  | nil => rfl
  | cons turn rest ih =>
    rw [systemTokens] at ih ⊢
    rw [tally_cons, tally_cons, tally_cons, ih, Turn.ownTokens]
    split <;> omega

/-- Nothing is marked at first. -/
theorem marked_none {α : Type} (n : Nat) (items : List α) :
    marked (List.replicate n false) items = [] := by
  induction items generalizing n with
  | nil => cases n <;> rfl
  | cons item rest ih =>
    cases n with
    | zero => rfl
    | succ n => exact ih n

/-- Every message is marked when nothing has to be dropped. -/
theorem marked_all {α : Type} (items : List α) :
    marked (List.replicate items.length true) items = items := by
  induction items with
  | nil => rfl
  | cons item rest ih => exact congrArg (item :: ·) ih

/-- A mark that is cleared is not set. -/
theorem clear_iff {keep : List Bool} {idx : Nat} (low : idx < keep.length) :
    keep[idx]? = some false ↔ ¬keep[idx]? = some true := by
  rw [List.getElem?_eq_getElem low]
  cases keep[idx] <;> simp

/-- The room beside the messages of the system. -/
theorem budgetOf_add (turns : List Turn) (target : Nat) :
    budgetOf turns target + systemTokens turns = max target (systemTokens turns) := by
  rw [budgetOf]
  split <;> omega

variable {env}

/-- What the loop keeps, counted from nothing. -/
theorem kept_keeping (sorts : env.Sorts) (query : String) (target : Nat) (turns : List Turn) :
    Kept turns (budgetOf turns target) (ranking env query turns)
      ⟨List.replicate turns.length false, 0⟩ (keeping env query target turns) := by
  have order : (ranking env query turns).Perm (List.range turns.length) := sorts _ _
  refine foldl_keepOne (order.nodup_iff.mpr List.nodup_range) ?_ ?_
  · intro idx there
    exact List.mem_range.mp (order.mem_iff.mp there)
  · intro idx there
    exact List.getElem?_replicate_of_lt (List.mem_range.mp (order.mem_iff.mp there))

/-- What is assembled of the marks. -/
theorem compaction_assemble (sorts : env.Sorts) {query realm : String} {distillNovel : Bool}
    {novelThreshold : Float32} {target : Nat} {messages : List Json} {turns : List Turn}
    (lengths : turns.length = messages.length) :
    Compaction messages turns target (assemble env realm distillNovel novelThreshold messages turns
      (keeping env query target turns)) (keeping env query target turns).keep := by
  have order : (ranking env query turns).Perm (List.range turns.length) := sorts _ _
  have inside : ∀ idx, idx ∈ ranking env query turns ↔ idx < turns.length := fun idx =>
    order.mem_iff.trans List.mem_range
  have kept := kept_keeping sorts query target turns
  revert kept
  generalize keeping env query target turns = state
  intro kept
  have length : state.keep.length = messages.length :=
    kept.length.trans ((List.length_replicate ..).trans lengths)
  have used : state.keptNonSysTokens =
      tally (weigh turns) (taken turns (budgetOf turns target) 0 (ranking env query turns)) := by
    rw [kept.tokens]
    exact Nat.zero_add _
  have own : tally Turn.ownTokens (marked state.keep turns) = state.keptNonSysTokens := by
    rw [kept.counted, used, marked_none]
    exact Nat.zero_add _
  have low {idx : Nat} {turn : Turn} (found : turns[idx]? = some turn) : idx < turns.length :=
    (List.getElem?_eq_some_iff.mp found).1
  have place {idx : Nat} {turn : Turn} (found : turns[idx]? = some turn) :
      turns.getD idx default = turn := by
    rw [List.getD_eq_getElem?_getD, found, Option.getD_some]
  have system (idx : Nat) (turn : Turn) (found : turns[idx]? = some turn)
      (system : turn.isSystem = true) : state.keep[idx]? = some true := by
    refine (kept.marks idx (low found)).mpr (.inr (.inl ⟨(inside idx).mpr (low found), ?_⟩))
    rw [isOwn, place found, system, Bool.not_true]
  have alone : systemTokens (marked state.keep turns) = systemTokens turns := by
    refine tally_marked _ (length.trans lengths.symm) fun idx turn found heavy => ?_
    refine system idx turn found ?_
    by_contra other
    rw [if_neg other] at heavy
    contradiction
  have room : state.keptNonSysTokens ≤ budgetOf turns target := by
    have bound : 0 + tally (weigh turns) (taken turns (budgetOf turns target) 0
        (ranking env query turns)) ≤ budgetOf turns target := Greedy.fill_within _ (Nat.zero_le _)
    omega
  have limit := budgetOf_add turns target
  have short := (marked_sublist state.keep messages).length_le
  refine ⟨length, rfl, Nat.sub_add_cancel short, system, rfl, ?_, ?_, ?_, ?_⟩
  · show systemTokens turns + state.keptNonSysTokens = _
    rw [tally_tokens, alone, own]
  · show systemTokens turns + state.keptNonSysTokens ≤ _
    omega
  · intro idx turn found clear
    have small : idx < state.keep.length := length.trans lengths.symm ▸ low found
    have unset := (clear_iff small).mp clear
    have outside : turn.isSystem = false :=
      Bool.eq_false_iff.mpr fun inner => unset (system idx turn found inner)
    have missing : idx ∉ taken turns (budgetOf turns target) 0 (ranking env query turns) :=
      fun there =>
      unset ((kept.marks idx (low found)).mpr (.inr (.inr there)))
    have wanted : idx ∈ (ranking env query turns).filter (isOwn turns) := by
      refine List.mem_filter.mpr ⟨(inside idx).mpr (low found), ?_⟩
      rw [isOwn, place found, outside, Bool.not_false]
    have large := Greedy.full wanted missing
    rw [← taken, ← used, Nat.zero_add, weigh, place found] at large
    show max target (systemTokens turns) < systemTokens turns + state.keptNonSysTokens + turn.tokens
    omega
  · intro memory there
    have stored : memory ∈ distill env distillNovel novelThreshold realm state.keep turns := there
    rw [distill] at stored
    split at stored
    · obtain ⟨turn, among, rfl⟩ := List.mem_map.mp stored
      obtain ⟨out, new⟩ := List.mem_filter.mp among
      obtain ⟨idx, found, flag⟩ := mem_marked.mp out
      rw [List.getElem?_map, Option.map_eq_some_iff] at flag
      obtain ⟨mark, marked, negated⟩ := flag
      rw [novel, Bool.and_eq_true, Bool.and_eq_true, Bool.not_eq_true'] at new
      rw [Bool.not_eq_true'] at negated
      exact ⟨idx, turn, found, negated ▸ marked, new.1.1, rfl⟩
    · contradiction

/-- A request with messages is answered with a compaction of them for the target that its share of
all tokens makes: whatever the scores are, the messages of the system all stay, the others stay in
order and within the target, and none is dropped that would still fit. -/
theorem tool_compact_context_compacts (sorts : env.Sorts) {params : Json} {messages : List Json}
    {reply : Reply} (asked : params.find "messages" = some (.arr messages)) (some : messages ≠ [])
    (done : toolCompactContext env params = .ok (.ok reply)) :
    ∃ ratio turns keep, targetRatio env params = .ok ratio ∧ messages.mapM readTurn = .ok turns ∧
      Compaction messages turns (targetTokens turns ratio) reply keep := by
  cases messages with
  | nil => contradiction
  | cons first rest =>
    rw [toolCompactContext, asked] at done
    obtain ⟨query, -, done⟩ := bind_ok done
    obtain ⟨ratio, share, done⟩ := bind_ok done
    obtain ⟨distillNovel, -, done⟩ := bind_ok done
    obtain ⟨novelThreshold, -, done⟩ := bind_ok done
    obtain ⟨realm, -, done⟩ := bind_ok done
    obtain ⟨turns, read, done⟩ := bind_ok done
    have lengths : turns.length = (first :: rest).length :=
      (forall₂_of_mapM read).length_eq.symm
    dsimp only at done
    split at done
    · rename_i enough
      obtain rfl := ToolResult.ok.inj (Except.ok.inj done)
      refine ⟨ratio, turns, List.replicate (first :: rest).length true, share, read, ?_⟩
      refine ⟨List.length_replicate .., (marked_all _).symm, Nat.zero_add _, ?_, rfl,
        ?_, ?_, ?_, ?_⟩
      · intro idx turn found _
        have low := (List.getElem?_eq_some_iff.mp found).1
        exact List.getElem?_replicate_of_lt (lengths ▸ low)
      · rw [← lengths, marked_all]
        rfl
      · exact Nat.le_trans enough (Nat.le_max_left ..)
      · intro idx turn found clear
        have set := List.eq_of_mem_replicate (List.mem_of_getElem? clear)
        contradiction
      · intro memory there
        contradiction
    · obtain rfl := ToolResult.ok.inj (Except.ok.inj done)
      exact ⟨ratio, turns, _, share, read, compaction_assemble sorts lengths⟩

/-- A tool without an embedder, where the later messages score better. -/
def plainEnv : Env where
  yantra := none
  recallScores := none
  narrow := fun _ => 0
  sort := fun less indices => indices.insertionSort fun a b => less b a = false
  fixed := fun _ => "33.3"

/-- A message. -/
def plainMessage (role content : String) : Json :=
  .obj [("content", .str content), ("role", .str role)]

/-- Three messages. -/
def threeMessages : List Json :=
  [plainMessage "system" "be brief", plainMessage "user" "one two three four five six",
    plainMessage "user" "seven"]

/-- The tokens that an answer tells. -/
def answeredTokens {Reply : Type} (told : Reply → Option Nat) :
    Except Thrown (ToolResult Reply) → Option Nat
  | .ok (.ok reply) => told reply
  | _ => none

/-- What tells tokens is an answer. -/
theorem answer_of_tokens {Reply : Type} {told : Reply → Option Nat}
    {result : Except Thrown (ToolResult Reply)} {tokens : Nat}
    (counted : answeredTokens told result = some tokens) :
    ∃ reply, result = .ok (.ok reply) ∧ told reply = some tokens := by
  cases result with
  | error thrown => contradiction
  | ok result =>
    cases result with
    | error text => contradiction
    | ok reply => exact ⟨reply, rfl, counted⟩

/-- Of three messages the long one is dropped. -/
theorem compacts_three : ∃ reply, reply.stats.afterTokens = 3 ∧ ∃ ratio turns keep,
    targetRatio plainEnv (.obj [("messages", .arr threeMessages)]) = .ok ratio ∧
    threeMessages.mapM readTurn = .ok turns ∧
    Compaction threeMessages turns (targetTokens turns ratio) reply keep := by
  have told : answeredTokens (fun reply => some reply.stats.afterTokens)
      (toolCompactContext plainEnv (.obj [("messages", .arr threeMessages)])) = some 3 := by
    decide +kernel
  obtain ⟨reply, done, count⟩ := answer_of_tokens told
  exact ⟨reply, Option.some.inj count, tool_compact_context_compacts
    (fun _ indices => List.perm_insertionSort _ indices) rfl (List.cons_ne_nil _ _) done⟩

end Chitta.Compact
