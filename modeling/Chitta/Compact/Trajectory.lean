import Chitta.Compact.Context
import Chitta.Transcript.Parser
import Mathlib.Data.List.Sort

/-!
# The compaction of a trajectory

`tool_trajectory_compact` makes a briefing of a transcript. Turns that score above a threshold are
taken and the lowest of them dropped until the budget holds; then turns below the threshold are
added where they fit; then the last two turns, if the budget is not exceeded by more than a fifth.
Scores, median and threshold are single-precision numbers and the last test is in double
precision, both as in the source. The embedder, the file system and the sort are outside this
development.
-/
namespace Chitta.Compact.Trajectory

open Bytes Transcript
open Checkpoint (ToolResult)
open Queue (getFloat)

/-! ## Turns and scores -/

/-- `Turn`. -/
structure Turn where
  /-- The role. -/
  role : String
  /-- The content. -/
  content : Text
deriving DecidableEq

/-- The embedder. -/
structure Embedder where
  /-- `embed_query`. -/
  embedQuery : String → List Float32
  /-- `transform_batch`. -/
  transformBatch : List Text → List (List Float32)

/-- What the tool takes from outside. -/
structure Env where
  /-- `json::parse`. -/
  parseJson : Text → Option Json
  /-- A file, if it can be opened. -/
  file : String → Option Text
  /-- The variable `HOME`. -/
  home : Option String
  /-- `glob`: the first path. -/
  glob : String → Option String
  /-- `yantra_`. -/
  yantra : Option Embedder
  /-- A number of the request as a `float`. -/
  narrow : Rat → Float32
  /-- `std::sort` of scores. -/
  sortScores : List Float32 → List Float32
  /-- `std::sort` of candidates with a comparison. -/
  sort : (Nat → Nat → Bool) → List Nat → List Nat
  /-- A number with one digit behind the point. -/
  fixed : Float → String

variable (env : Env)

/-- `path`. -/
def transcriptPath (path sessionId : String) : String :=
  if path = "" ∧ sessionId ≠ "" then
    match env.home with
    | some home => (env.glob (home ++ "/.claude/projects/*/" ++ sessionId ++ ".jsonl")).getD ""
    | none => path
  else path

/-- The options of the parse. -/
def parseOptions : ParseOptions where
  includeThinking := false
  filterSystemReminders := true

/-- `turns`. -/
def turnsOf (roleFilter : String) (parsed : Parsed) : List Turn :=
  (parsed.turns.filter fun turn => (roleFilter = "" ∨ turn.role = roleFilter) ∧
    20 ≤ turn.content.length).map fun turn => ⟨turn.role, turn.content⟩

/-- `token_counts`. -/
def Turn.tokens (turn : Turn) : Nat := estimateTokens turn.content

/-- A turn in the briefing. -/
def Turn.told (turn : Turn) : Text :=
  utf8 "[" ++ utf8 turn.role ++ utf8 "]\n" ++ turn.content ++ utf8 "\n\n"

/-- `task_emb`. -/
def taskEmb (task : String) : List Float32 :=
  match env.yantra with
  | some embedder => embedder.embedQuery task
  | none => []

/-- `turn_embs`. -/
def turnEmbs (turns : List Turn) : List (List Float32) :=
  match env.yantra with
  | some embedder => embedder.transformBatch (turns.map fun turn => turn.content.take 512)
  | none => []

/-- A score. -/
def score (task : List Float32) (embs : List (List Float32)) (n i : Nat) (turn : Turn) : Float32 :=
  let emb := embs.getD i []
  let semantic := if task.isEmpty ∨ emb.isEmpty then 0.5 else cosineSim emb task
  let recency := if n ≤ 1 then 1.0
    else 0.2 + 0.8 * (i.toUInt64.toFloat32 / (n - 1).toUInt64.toFloat32)
  let roleW := if turn.role = "user" then 1.1 else 1.0
  roleW * (0.65 * semantic + 0.25 * recency + 0.10)

/-- `scores`. -/
def scores (task : String) (turns : List Turn) : List Float32 :=
  turns.mapIdx (score (taskEmb env task) (turnEmbs env turns) turns.length)

/-- The median of sorted numbers. -/
def medianOf (sorted : List Float32) : Float32 :=
  let n := sorted.length
  if n % 2 = 0 then (sorted.getD (n / 2 - 1) 0 + sorted.getD (n / 2) 0) / 2.0
  else sorted.getD (n / 2) 0

/-- `median`. -/
def median (scores : List Float32) : Float32 := medianOf (env.sortScores scores)

/-- `mad`. -/
def mad (scores : List Float32) : Float32 :=
  medianOf (env.sortScores (scores.map fun score => (score - median env scores).abs))

/-- `threshold`. -/
def threshold (madK : Float32) (scores : List Float32) : Float32 :=
  median env scores + madK * mad env scores

/-! ## The selection -/

section Selection

variable (turns : List Turn) (budget : Nat)

/-- The tokens of a candidate. -/
def weigh (idx : Nat) : Nat := ((turns[idx]?).map Turn.tokens).getD 0

/-- `selected_tokens` and the candidates that are left in `above_threshold`. -/
structure Selected where
  /-- `selected_tokens`. -/
  tokens : Nat
  /-- `above_threshold`: the places of the candidates. -/
  indices : List Nat

/-- The loop that drops the lowest candidates. -/
def dropLowest : Nat → List Nat → Selected
  | selected, [] => ⟨selected, []⟩
  | selected, idx :: rest =>
    if budget < selected then dropLowest (selected - weigh turns idx) rest
    else ⟨selected, idx :: rest⟩

/-- One turn of the loop that adds candidates from below. -/
def backfillOne (state : Selected) (idx : Nat) : Selected :=
  if budget < state.tokens + weigh turns idx then state
  else ⟨state.tokens + weigh turns idx, state.indices ++ [idx]⟩

/-- Tokens stay within the budget and a fifth of it. -/
def withinTail (tokens : Nat) : Bool :=
  tokens.toUInt64.toFloat ≤ budget.toUInt64.toFloat * 1.2

/-- One turn of the loop over the last turns. -/
def tailOne (state : Selected) (tail : Nat) : Selected :=
  if tail ∈ state.indices then state
  else if withinTail budget (state.tokens + weigh turns tail) then
    ⟨state.tokens + weigh turns tail, state.indices ++ [tail]⟩
  else state

/-- The last turns. -/
def tails (n : Nat) : List Nat := (List.range n).drop (if 2 < n then n - 2 else 0)

/-- The candidates from a threshold on, the lowest first. -/
def above (threshold : Float32) (scores : List Float32) : List Nat :=
  env.sort (fun a b => scores.getD a 0 < scores.getD b 0)
    ((List.range turns.length).filter fun idx => threshold ≤ scores.getD idx 0)

/-- The other candidates, the highest first. -/
def below (threshold : Float32) (scores : List Float32) : List Nat :=
  env.sort (fun a b => scores.getD b 0 < scores.getD a 0)
    ((List.range turns.length).filter fun idx => !decide (threshold ≤ scores.getD idx 0))

/-- The candidates after the two loops that look at the threshold. -/
def enforced (threshold : Float32) (scores : List Float32) : Selected :=
  let above := above env turns threshold scores
  (below env turns threshold scores).foldl (backfillOne turns budget)
    (dropLowest turns budget (tally (weigh turns) above) above)

/-- The candidates after the last turns. -/
def selected (threshold : Float32) (scores : List Float32) : Selected :=
  (tails turns.length).foldl (tailOne turns budget) (enforced env turns budget threshold scores)

/-- The candidates in the order of the transcript. -/
def chronological (indices : List Nat) : List Nat := env.sort (fun a b => a < b) indices

/-- The text of the chosen turns. -/
def briefing (indices : List Nat) : Text :=
  (indices.map fun idx => ((turns[idx]?).map Turn.told).getD []).flatten

end Selection

/-! ## The tool -/

/-- `stats`; what a briefing without selection lacks is absent. -/
structure Stats where
  /-- `total_turns`. -/
  totalTurns : Nat
  /-- `selected_turns`. -/
  selectedTurns : Nat
  /-- `total_tokens`. -/
  totalTokens : Nat
  /-- `selected_tokens`. -/
  selectedTokens : Option Nat
  /-- `budget_tokens`. -/
  budgetTokens : Nat
  /-- `compression_ratio`. -/
  compressionRatio : Float
  /-- `mad_threshold`. -/
  madThreshold : Option Float32
  /-- `median_score`. -/
  medianScore : Option Float32
  /-- `mad`. -/
  mad : Option Float32
  /-- `method`. -/
  method : String
  /-- `embedding`. -/
  embedding : Option Bool

/-- The result of the tool. -/
structure Reply where
  /-- The text. -/
  text : Text
  /-- The briefing. -/
  briefing : Text
  /-- The numbers. -/
  stats : Stats

/-- The briefing of all turns. -/
def passthrough (turns : List Turn) (budget : Nat) : Reply :=
  let briefing := (turns.map Turn.told).flatten
  ⟨briefing, briefing,
    ⟨turns.length, turns.length, tally Turn.tokens turns, none, budget, 1.0, none,
    none, none, "passthrough", none⟩⟩

/-- The briefing of the turns that are selected. -/
def select (task : String) (madK : Float32) (turns : List Turn) (budget : Nat) : Reply :=
  let n := turns.length
  let scores := scores env task turns
  let threshold := threshold env madK scores
  let selected := selected env turns budget threshold scores
  let indices := chronological env selected.indices
  let total := tally Turn.tokens turns
  let ratio := if 0 < total then selected.tokens.toUInt64.toFloat / total.toUInt64.toFloat else 1.0
  { text := utf8 ("Compacted " ++ toString n ++ " turns → " ++ toString indices.length ++ " (" ++
      toString total ++ " → " ++ toString selected.tokens ++ " tok, " ++
        env.fixed (ratio * 100.0) ++
      "%)")
    briefing := briefing turns indices
    stats := ⟨n, indices.length, total, some selected.tokens, budget, ratio, some threshold,
      some (median env scores), some (mad env scores),
      if env.yantra.isSome then "embedding+mad" else "recency_fallback",
      some env.yantra.isSome⟩ }

/-- The budget of a request: a negative number wraps around. -/
def budgetTokens (params : Json) : Except Thrown Nat := do
  let budget ← params.valueWith Json.getInt "budget_tokens" 4000
  return (budget.emod (2 ^ 64)).toNat

/-- The briefing of turns, of all of them if the budget allows it. -/
def brief (task : String) (madK : Float32) (turns : List Turn) (budget : Nat) : Reply :=
  if tally Turn.tokens turns ≤ budget then passthrough turns budget
  else select env task madK turns budget

/-- `tool_trajectory_compact`. -/
def toolTrajectoryCompact (params : Json) : Except Thrown (ToolResult Reply) := do
  let task ← params.valueString "task" ""
  if task = "" then
    return .error "task (string) is required — describe what the downstream agent needs"
  else
    let path ← params.valueString "path" ""
    let sessionId ← params.valueString "session_id" ""
    let budget ← budgetTokens params
    let madK ← params.valueWith (getFloat env.narrow) "mad_k" 1.5
    let roleFilter ← params.valueString "role_filter" ""
    let path := transcriptPath env path sessionId
    if path = "" then return .error "No transcript: provide path or session_id"
    else
      let parsed := parse env.parseJson path (env.file path) parseOptions
      if parsed.turns = [] ∧ parsed.lastError ≠ "" then return .error parsed.lastError
      else
        let turns := turnsOf roleFilter parsed
        if turns = [] then return .error "No turns found in transcript"
        else return .ok (brief env task madK turns budget)

/-! ## The loops -/

section Loops

variable (turns : List Turn) (budget : Nat)

/-- Dropping the lowest candidates leaves the longest run of the highest that stays within the
budget. -/
theorem dropLowest_spec (candidates : List Nat) : ∃ front back, candidates = front ++ back ∧
    dropLowest turns budget (tally (weigh turns) candidates) candidates =
      ⟨tally (weigh turns) back, back⟩ ∧
    tally (weigh turns) back ≤ budget ∧
    ∀ others last, front = others ++ [last] →
    budget < weigh turns last + tally (weigh turns) back := by
  induction candidates with
  | nil =>
    refine ⟨[], [], rfl, rfl, Nat.zero_le _, fun others last same => ?_⟩
    exact absurd same.symm (List.append_ne_nil_of_right_ne_nil _ (List.cons_ne_nil _ _))
  | cons idx rest ih =>
    rw [dropLowest]
    by_cases large : budget < tally (weigh turns) (idx :: rest)
    · obtain ⟨front, back, split, done, fits, last⟩ := ih
      have left : tally (weigh turns) (idx :: rest) - weigh turns idx = tally (weigh turns) rest :=
        Nat.add_sub_cancel_left _ _
      refine ⟨idx :: front, back, congrArg (idx :: ·) split, ?_, fits, ?_⟩
      · rw [if_pos large, left, done]
      · intro others item same
        cases others with
        | nil =>
          obtain ⟨rfl, rfl⟩ := List.cons.inj same
          rw [split] at large
          exact large
        | cons first others => exact last others item (List.cons.inj same).2
    · refine ⟨[], idx :: rest, rfl, if_neg large, Nat.le_of_not_lt large,
        fun others last same => ?_⟩
      exact absurd same.symm (List.append_ne_nil_of_right_ne_nil _ (List.cons_ne_nil _ _))

variable {turns budget}

/-- Candidates from below are added where they fit. -/
theorem foldl_backfillOne (candidates : List Nat) (state : Selected) :
    candidates.foldl (backfillOne turns budget) state =
      ⟨state.tokens + tally (weigh turns)
          (Greedy.fill (weigh turns) budget state.tokens candidates),
        state.indices ++ Greedy.fill (weigh turns) budget state.tokens candidates⟩ := by
  induction candidates generalizing state with
  | nil => rw [Greedy.fill, tally_nil, List.append_nil]; rfl
  | cons idx rest ih =>
    rw [List.foldl_cons, backfillOne]
    by_cases large : budget < state.tokens + weigh turns idx
    · rw [if_pos large, ih, Greedy.fill_passes (Nat.not_le_of_lt large)]
    · rw [if_neg large, ih, Greedy.fill_fits (Nat.le_of_not_lt large), tally_cons, Nat.add_assoc,
        List.append_assoc]
      rfl

variable (turns budget) in
/-- What the loop over the last turns does from a state to another one. -/
structure Tailed (last : List Nat) (before after : Selected) (extra : List Nat) : Prop where
  /-- Turns are added. -/
  indices : after.indices = before.indices ++ extra
  /-- They are counted. -/
  tokens : after.tokens = before.tokens + tally (weigh turns) extra
  /-- They are among the last ones. -/
  among : ∀ idx ∈ extra, idx ∈ last
  /-- None was there before, and none is added twice. -/
  fresh : ∀ idx ∈ extra, idx ∉ before.indices
  /-- None is added twice. -/
  distinct : extra.Nodup
  /-- With the last one that is added the test still held. -/
  limit : extra = [] ∨ withinTail budget after.tokens = true
  /-- A turn that is left out failed the test. -/
  left : ∀ idx ∈ last, idx ∉ after.indices →
    ∃ tokens ≤ after.tokens, withinTail budget (tokens + weigh turns idx) = false

/-- The loop over the last turns. -/
theorem foldl_tailOne (last : List Nat) (state : Selected) :
    ∃ extra, Tailed turns budget last state (last.foldl (tailOne turns budget) state) extra := by
  induction last generalizing state with
  | nil =>
    refine ⟨[], (List.append_nil _).symm, rfl, ?_, ?_, List.nodup_nil, .inl rfl, ?_⟩ <;>
    · intro idx there
      contradiction
  | cons idx rest ih =>
    rw [List.foldl_cons, tailOne]
    by_cases there : idx ∈ state.indices
    · rw [if_pos there]
      obtain ⟨extra, done⟩ := ih state
      refine ⟨extra, done.indices, done.tokens, fun place inside => ?_, done.fresh, done.distinct,
        done.limit, ?_⟩
      · exact List.mem_cons_of_mem _ (done.among place inside)
      · intro place inside out
        rcases List.mem_cons.mp inside with rfl | later
        · rw [done.indices] at out
          exact absurd (List.mem_append_left _ there) out
        · exact done.left place later out
    · rw [if_neg there]
      by_cases fits : withinTail budget (state.tokens + weigh turns idx) = true
      · rw [if_pos fits]
        obtain ⟨extra, done⟩ := ih ⟨state.tokens + weigh turns idx, state.indices ++ [idx]⟩
        have tokens := done.tokens
        have fresh : idx ∉ extra := fun inside => done.fresh idx inside
          (List.mem_append_right _ List.mem_cons_self)
        refine ⟨idx :: extra, ?_, ?_, ?_, ?_, List.nodup_cons.mpr ⟨fresh, done.distinct⟩,
          .inr ?_, ?_⟩
        · rw [done.indices, List.append_assoc]
          rfl
        · rw [tokens, tally_cons, ← Nat.add_assoc]
        · intro place inside
          exact (List.mem_cons.mp inside).elim (fun same => same ▸ List.mem_cons_self)
            fun later => List.mem_cons_of_mem _ (done.among place later)
        · intro place inside before
          rcases List.mem_cons.mp inside with rfl | later
          · exact there before
          · exact done.fresh place later (List.mem_append_left _ before)
        · rcases done.limit with rfl | held
          · rw [tokens]
            exact fits
          · exact held
        · intro place inside out
          rcases List.mem_cons.mp inside with rfl | later
          · rw [done.indices] at out
            exact absurd (List.mem_append_left _ (List.mem_append_right _ List.mem_cons_self)) out
          · exact done.left place later out
      · rw [if_neg fits]
        obtain ⟨extra, done⟩ := ih state
        refine ⟨extra, done.indices, done.tokens, fun place inside => ?_, done.fresh, done.distinct,
          done.limit, ?_⟩
        · exact List.mem_cons_of_mem _ (done.among place inside)
        · intro place inside out
          rcases List.mem_cons.mp inside with rfl | later
          · refine ⟨state.tokens, ?_, Bool.eq_false_iff.mpr fits⟩
            rw [done.tokens]
            exact Nat.le_add_right _ _
          · exact done.left place later out

end Loops

/-! ## What the tool promises -/

/-- What the sort of the standard library promises: it reorders, and places come in order. -/
structure Env.Sorts (env : Env) : Prop where
  /-- Nothing is lost or added. -/
  perm : ∀ less items, (env.sort less items).Perm items
  /-- Smaller places come first. -/
  ordered : ∀ items, (env.sort (fun a b => decide (a < b)) items).Pairwise (· ≤ ·)

/-- What a selection of turns is, for a budget, scores and a threshold. -/
structure Selection (turns : List Turn) (budget : Nat) (scores : List Float32)
    (threshold : Float32) (indices : List Nat) (tokens : Nat) : Prop where
  /-- The turns come in the order of the transcript, none twice. -/
  ordered : indices.Pairwise (· < ·)
  /-- They are turns of the transcript. -/
  inside : ∀ idx ∈ indices, idx < turns.length
  /-- Their tokens are counted. -/
  counted : tokens = tally (weigh turns) indices
  /-- The budget holds, or the test of the last turns does. -/
  limit : tokens ≤ budget ∨ withinTail budget tokens = true
  /-- Apart from the last turns the budget holds; a turn below the threshold is left out only if it
  does not fit, and one from the threshold on only if not all of these fit. -/
  core : ∃ core, (∀ idx ∈ core, idx ∈ indices) ∧
    (∀ idx ∈ indices, idx ∈ core ∨ idx ∈ tails turns.length) ∧
    tally (weigh turns) core ≤ budget ∧
    ∀ idx < turns.length, idx ∉ core →
      if threshold ≤ scores.getD idx 0 then
        budget < tally (weigh turns)
          ((List.range turns.length).filter fun idx => threshold ≤ scores.getD idx 0)
      else budget < tally (weigh turns) core + weigh turns idx
  /-- One of the last two turns is left out only if the test failed with it. -/
  tail : ∀ idx ∈ tails turns.length, idx ∉ indices →
    ∃ before ≤ tokens, withinTail budget (before + weigh turns idx) = false

/-- Lists in another order weigh the same. -/
theorem tally_perm {α : Type} (weight : α → Nat) {left right : List α} (same : left.Perm right) :
    tally weight left = tally weight right := by
  induction same with
  | nil => rfl
  | cons item _ ih => rw [tally_cons, tally_cons, ih]
  | swap first second rest =>
    rw [tally_cons, tally_cons, tally_cons, tally_cons]
    omega
  | trans _ _ first second => exact first.trans second

variable {env} {turns : List Turn} {budget : Nat} {threshold : Float32} {scores : List Float32}

/-- The candidates from the threshold on. -/
theorem mem_above (sorts : env.Sorts) {idx : Nat} : idx ∈ above env turns threshold scores ↔
    idx < turns.length ∧ threshold ≤ scores.getD idx 0 := by
  rw [above, (sorts.perm _ _).mem_iff, List.mem_filter, List.mem_range, decide_eq_true_iff]

/-- The other candidates. -/
theorem mem_below (sorts : env.Sorts) {idx : Nat} : idx ∈ below env turns threshold scores ↔
    idx < turns.length ∧ ¬threshold ≤ scores.getD idx 0 := by
  rw [below, (sorts.perm _ _).mem_iff, List.mem_filter, List.mem_range, Bool.not_eq_true',
    decide_eq_false_iff_not]

/-- The selection after the two loops that look at the threshold. -/
theorem enforced_spec (sorts : env.Sorts) : ∃ core,
    enforced env turns budget threshold scores = ⟨tally (weigh turns) core, core⟩ ∧ core.Nodup ∧
    (∀ idx ∈ core, idx < turns.length) ∧ tally (weigh turns) core ≤ budget ∧
    ∀ idx < turns.length, idx ∉ core →
      if threshold ≤ scores.getD idx 0 then
        budget < tally (weigh turns)
          ((List.range turns.length).filter fun idx => threshold ≤ scores.getD idx 0)
      else budget < tally (weigh turns) core + weigh turns idx := by
  obtain ⟨front, back, parts, done, fits, dropped⟩ :=
    dropLowest_spec turns budget (above env turns threshold scores)
  let added := Greedy.fill (weigh turns) budget (tally (weigh turns) back)
    (below env turns threshold scores)
  have high (idx : Nat) (there : idx ∈ back) : idx < turns.length ∧ threshold ≤ scores.getD idx 0 :=
    (mem_above sorts).mp (parts ▸ List.mem_append_right _ there)
  have low (idx : Nat) (there : idx ∈ added) :
      idx < turns.length ∧ ¬threshold ≤ scores.getD idx 0 :=
    (mem_below sorts).mp (Greedy.mem_of_mem_fill there)
  refine ⟨back ++ added, ?_, ?_, ?_, ?_, ?_⟩
  · show (below env turns threshold scores).foldl _ (dropLowest _ _ _ _) = _
    rw [done, foldl_backfillOne, tally_append]
  · refine List.nodup_append.mpr ⟨?_, ?_, ?_⟩
    · have distinct : (above env turns threshold scores).Nodup :=
        (sorts.perm _ _).nodup_iff.mpr (List.nodup_range.filter _)
      rw [parts] at distinct
      exact (List.nodup_append.mp distinct).2.1
    · have distinct : (below env turns threshold scores).Nodup :=
        (sorts.perm _ _).nodup_iff.mpr (List.nodup_range.filter _)
      exact (Greedy.fill_sublist _ _).nodup distinct
    · intro first inside second there same
      exact (low second there).2 (same ▸ (high first inside).2)
  · intro idx there
    rcases List.mem_append.mp there with inside | inside
    · exact (high idx inside).1
    · exact (low idx inside).1
  · rw [tally_append]
    exact Greedy.fill_within _ fits
  · intro idx small out
    rw [List.mem_append, not_or] at out
    split
    · rename_i reached
      -- the candidate was dropped, so all of them together were too large
      have there : idx ∈ above env turns threshold scores := (mem_above sorts).mpr ⟨small, reached⟩
      have gone : idx ∈ front := by
        rw [parts] at there
        exact (List.mem_append.mp there).resolve_right out.1
      have whole : tally (weigh turns) (above env turns threshold scores) = tally (weigh turns)
          ((List.range turns.length).filter fun idx => threshold ≤ scores.getD idx 0) :=
        tally_perm _ (sorts.perm _ _)
      rw [← whole, parts]
      obtain rfl | ⟨others, last, rfl⟩ := List.eq_nil_or_concat front
      · contradiction
      have large := dropped others last List.concat_eq_append
      rw [tally_append, List.concat_eq_append, tally_append, tally_cons, tally_nil]
      omega
    · rename_i missed
      have there : idx ∈ below env turns threshold scores := (mem_below sorts).mpr ⟨small, missed⟩
      rw [tally_append]
      exact Greedy.full there out.2

/-- The selection is a selection for the budget. -/
theorem selection_selected (sorts : env.Sorts) :
    Selection turns budget scores threshold
      (chronological env (selected env turns budget threshold scores).indices)
      (selected env turns budget threshold scores).tokens := by
  obtain ⟨core, done, distinct, inside, fits, left⟩ :=
    @enforced_spec env turns budget threshold scores sorts
  obtain ⟨extra, tailed⟩ := @foldl_tailOne turns budget (tails turns.length)
    (enforced env turns budget threshold scores)
  rw [← selected, done] at tailed
  revert tailed
  generalize selected env turns budget threshold scores = final
  intro tailed
  have order : (chronological env final.indices).Perm final.indices := sorts.perm _ _
  have places : final.indices = core ++ extra := tailed.indices
  have tokens : final.tokens = tally (weigh turns) core + tally (weigh turns) extra := tailed.tokens
  have member (idx : Nat) : idx ∈ chronological env final.indices ↔ idx ∈ core ∨ idx ∈ extra := by
    rw [order.mem_iff, places, List.mem_append]
  have apart : final.indices.Nodup := by
    rw [places]
    refine List.nodup_append.mpr ⟨distinct, tailed.distinct, ?_⟩
    intro first before second after same
    exact tailed.fresh second after (same ▸ before)
  refine ⟨?_, ?_, ?_, ?_, ?_, ?_⟩
  · have rising := (sorts.ordered final.indices).and (order.nodup_iff.mpr apart)
    exact rising.imp fun both => Nat.lt_of_le_of_ne both.1 both.2
  · intro idx there
    rcases (member idx).mp there with old | new
    · exact inside idx old
    · exact List.mem_range.mp (List.mem_of_mem_drop (tailed.among idx new))
  · rw [tally_perm _ order, places, tally_append]
    exact tokens
  · rcases tailed.limit with rfl | held
    · exact .inl (tokens ▸ fits)
    · exact .inr held
  · refine ⟨core, fun idx old => (member idx).mpr (.inl old), ?_, fits, left⟩
    intro idx there
    exact ((member idx).mp there).imp_right (tailed.among idx)
  · intro idx there out
    exact tailed.left idx there fun before => out (order.mem_iff.mpr before)

/-- A briefing of a transcript: either all of its turns in order within the budget, or a selection
of them in order for the scores and the threshold that the request makes. -/
def Briefed (env : Env) (task : String) (madK : Float32) (turns : List Turn) (budget : Nat)
    (reply : Reply) : Prop :=
  if tally Turn.tokens turns ≤ budget then
    reply.briefing = (turns.map Turn.told).flatten ∧ reply.stats.selectedTurns = turns.length
  else
    ∃ indices tokens, reply.briefing = briefing turns indices ∧
      reply.stats.selectedTurns = indices.length ∧ reply.stats.selectedTokens = some tokens ∧
      Selection turns budget (Trajectory.scores env task turns)
        (Trajectory.threshold env madK (Trajectory.scores env task turns)) indices tokens

/-- An error is no answer. -/
theorem refused_ne {α : Type} (text : String) (reply : α) :
    (pure (ToolResult.error text) : Except Thrown (ToolResult α)) ≠ .ok (.ok reply) := by
  intro same
  have refused : ToolResult.error text = ToolResult.ok reply := Except.ok.inj same
  contradiction

/-- A request that is answered is answered with a briefing of the turns of its transcript. -/
theorem tool_trajectory_compact_briefs (sorts : env.Sorts) {params : Json} {reply : Reply}
    (done : toolTrajectoryCompact env params = .ok (.ok reply)) :
    ∃ task madK path roleFilter budget, params.valueString "task" "" = .ok task ∧
      params.valueWith (getFloat env.narrow) "mad_k" 1.5 = .ok madK ∧
      params.valueString "role_filter" "" = .ok roleFilter ∧
      budgetTokens params = .ok budget ∧
      Briefed env task madK
        (turnsOf roleFilter (parse env.parseJson path (env.file path) parseOptions))
          budget reply := by
  obtain ⟨task, asked, done⟩ := bind_ok done
  split at done
  · exact absurd done (refused_ne _ reply)
  · obtain ⟨given, -, done⟩ := bind_ok done
    obtain ⟨sessionId, -, done⟩ := bind_ok done
    obtain ⟨budget, limit, done⟩ := bind_ok done
    obtain ⟨madK, factor, done⟩ := bind_ok done
    obtain ⟨roleFilter, wanted, done⟩ := bind_ok done
    refine ⟨task, madK, transcriptPath env given sessionId, roleFilter, budget, asked,
      factor, wanted,
      limit, ?_⟩
    revert done
    generalize transcriptPath env given sessionId = path
    intro done
    dsimp only at done
    split at done
    · exact absurd done (refused_ne _ reply)
    · revert done
      generalize parse env.parseJson path (env.file path) parseOptions = parsed
      intro done
      split at done
      · exact absurd done (refused_ne _ reply)
      · split at done
        · exact absurd done (refused_ne _ reply)
        · obtain rfl := ToolResult.ok.inj (Except.ok.inj done)
          rw [Briefed, brief]
          split
          · exact ⟨rfl, rfl⟩
          · exact ⟨_, _, rfl, rfl, rfl, selection_selected sorts⟩

/-- A turn of the user. -/
def plainEntry (content : String) : Json :=
  .obj [("message", .obj [("content", .str content)]), ("type", .str "user")]

/-- The line of that turn. -/
def plainLine (content : String) : Text :=
  utf8 ("\x7b\"message\":\x7b\"content\":\"" ++ content ++ "\"\x7d,\"type\":\"user\"\x7d")

/-- What is said in three turns. -/
def threeTurns : List String :=
  ["a b c d e f g h i j k l", "the second of all turns", "and the last one of the turns"]

/-- A tool without an embedder, with a transcript of three lines and the sort by insertion. -/
def plainEnv : Env where
  parseJson := fun line =>
    (threeTurns.find? fun content => plainLine content = line).map plainEntry
  file := fun _ => some (threeTurns.flatMap fun content => plainLine content ++ [10])
  home := none
  glob := fun _ => none
  yantra := none
  narrow := fun _ => 0
  sortScores := fun scores => scores.insertionSort fun a b => a ≤ b
  sort := fun less items => items.insertionSort fun a b => less b a = false
  fixed := fun _ => "53.8"

/-- The sort by insertion is a sort. -/
theorem sorts_plainEnv : plainEnv.Sorts := by
  refine ⟨fun less items => List.perm_insertionSort _ items, fun items => ?_⟩
  have total : Std.Total fun a b : Nat => decide (b < a) = false := by
    refine ⟨fun a b => ?_⟩
    rw [decide_eq_false_iff_not, decide_eq_false_iff_not]
    omega
  have trans : IsTrans Nat fun a b => decide (b < a) = false := by
    refine ⟨fun a b c first second => ?_⟩
    rw [decide_eq_false_iff_not] at first second ⊢
    omega
  have sorted := List.pairwise_insertionSort (fun a b : Nat => decide (b < a) = false) items
  exact sorted.imp fun ordered => Nat.le_of_not_lt (of_decide_eq_false ordered)

/-- A request for a short briefing. -/
def plainParams : Json :=
  .obj [("budget_tokens", .int 13), ("path", .str "t"), ("task", .str "x")]

/-- Of three turns the last one fits into the budget and the one before it into a fifth more. -/
theorem briefs_three : ∃ reply, toolTrajectoryCompact plainEnv plainParams = .ok (.ok reply) ∧
    reply.stats.selectedTokens = some 15 ∧
    ∃ task madK path roleFilter budget, plainParams.valueString "task" "" = .ok task ∧
      plainParams.valueWith (getFloat plainEnv.narrow) "mad_k" 1.5 = .ok madK ∧
      plainParams.valueString "role_filter" "" = .ok roleFilter ∧
      budgetTokens plainParams = .ok budget ∧
      Briefed plainEnv task madK
        (turnsOf roleFilter (parse plainEnv.parseJson path (plainEnv.file path) parseOptions))
          budget
        reply := by
  have told : answeredTokens (·.stats.selectedTokens) (toolTrajectoryCompact plainEnv plainParams) =
      some 15 := by
    decide +kernel
  obtain ⟨reply, done, count⟩ := answer_of_tokens told
  exact ⟨reply, done, count, tool_trajectory_compact_briefs sorts_plainEnv done⟩

end Chitta.Compact.Trajectory
