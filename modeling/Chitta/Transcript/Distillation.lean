import Chitta.EventLog
import Chitta.Transcript.Incremental

/-!
# Passes of a distillation

A pass parses the next lines of a transcript, has a model write down what there is to learn and
publishes how far it came as an event, from which the next pass goes on. A pass whose lines have no
turns publishes nothing, so the next one reads the same lines again. What a pass stores besides its
events is left out, and so is what it is named for. The names are those of the source.
-/
namespace Chitta.Transcript

open EventLog

/-- The options of the passes. -/
structure DistillConfig where
  /-- Whether transcripts are distilled. -/
  enabled : Bool
  /-- The turns that a pass needs when it was not asked for. -/
  minTurns : Int
  /-- The bytes of a conversation that the model reads; 0 for all. -/
  maxContextChars : Nat
  /-- The lines that a pass reads at most; 0 for all. -/
  maxLinesPerPass : Int

/-- What the passes take from outside. -/
structure Env where
  /-- `json::parse`. -/
  parseJson : Bytes → Option Json
  /-- The files that can be opened. -/
  file : String → Option Bytes
  /-- What the model writes about a conversation; empty when it fails. -/
  llm : Bytes → Bytes

/-! ## One pass -/

/-- The conversation of some turns, cut in the middle when it is too long. -/
def buildConversation (turns : List Turn) (maxChars : Nat) : Bytes :=
  let conversation := turns.flatMap fun turn =>
    bytesOf "[" ++ bytesOf turn.role ++ bytesOf "]\n" ++ turn.content ++ bytesOf "\n\n"
  if 0 < maxChars ∧ maxChars < conversation.length then
    let head := maxChars / 4
    let tail := maxChars * 3 / 4
    conversation.take head ++
      bytesOf s!"\n\n[... truncated {conversation.length} chars, keeping first {head} + last {tail} ...]\n\n" ++
      conversation.drop (conversation.length - tail)
  else conversation

/-- `PreparedDistillation`. -/
structure Prepared where
  /-- The first turn. -/
  startTurn : Nat := 0
  /-- The last turn. -/
  endTurn : Nat := 0
  /-- The last line. -/
  lastLine : Int := 0
  /-- The conversation. -/
  conversation : Bytes := []
  /-- What the model wrote. -/
  llmOutput : Bytes := []
  /-- Whether the pass may be committed. -/
  valid : Bool := false
  /-- Why not. -/
  error : String := ""

/-- `prepare_distillation`. -/
def prepareDistillation (env : Env) (config : DistillConfig) (path : String) (skipLines : Int)
    (queueTriggered : Bool) : Prepared :=
  let parsed := parse env.parseJson path (env.file path)
    { skipLines, maxLines := config.maxLinesPerPass }
  let lastLine := parsed.lastLine.getD 0
  if parsed.turns = [] then
    { lastLine, error := if parsed.lastError = "" then "No turns found" else parsed.lastError }
  else
    let needed := if queueTriggered then 1 else config.minTurns
    if (parsed.turns.length : Int) < needed then
      { lastLine, error := s!"Insufficient turns: {parsed.turns.length} < {needed}" }
    else
      let conversation := buildConversation parsed.turns config.maxContextChars
      let startTurn := (parsed.turns.head?.map Turn.turnIndex).getD 0
      let endTurn := (parsed.turns.getLast?.map Turn.turnIndex).getD 0
      let llmOutput := env.llm conversation
      if llmOutput = [] then
        { startTurn, endTurn, lastLine, conversation, error := "No result from LLM" }
      else { startTurn, endTurn, lastLine, conversation, llmOutput, valid := true }

/-- `run_distillation`: a prepared pass is committed and published. -/
def runDistillation (env : Env) (config : DistillConfig) (sessionId path : String)
    (lastProcessedLine : Int) (queueTriggered : Bool) (log : Log) : Log × Bool :=
  let prepared := prepareDistillation env config path lastProcessedLine queueTriggered
  if prepared.valid then
    let published := emitEvent log "transcript" "progress" sessionId
      (some (.object [("last_line", .int prepared.lastLine)]))
    (emitEvent published "transcript" "distilled" sessionId (some (.object [])), true)
  else (log, false)

/-- The path of a registered transcript; empty without one. -/
def transcriptPath (log : Log) (sessionId : String) : String :=
  match getLatestEvent log "transcript" "register" sessionId with
  | some registered =>
    match registered.valueString "transcript_path" "" with
    | .ok path => path
    | .error _ => ""
  | none => ""

/-- The line that the last pass published; 0 without one. -/
def watermark (log : Log) (sessionId : String) : Int :=
  match getLatestEvent log "transcript" "progress" sessionId with
  | some progress =>
    match progress.valueWith Json.getInt64 "last_line" 0 with
    | .ok line => line
    | .error _ => 0
  | none => 0

/-- `process_distill`. -/
def processDistill (env : Env) (config : DistillConfig) (args : Json) (log : Log) :
    Except Thrown Log :=
  if !config.enabled then .ok log
  else do
    let sessionId ← args.valueString "session_id" ""
    if sessionId = "" then return log
    else if transcriptPath log sessionId = "" then return log
    else
      return (runDistillation env config sessionId (transcriptPath log sessionId)
        (watermark log sessionId) true log).1

/-! ## Repeated passes -/

/-- The log behind some calls; a call that throws leaves it alone. -/
def calls (env : Env) (config : DistillConfig) (args : Json) (log : Log) : Nat → Log
  | 0 => log
  | count + 1 =>
    let before := calls env config args log count
    match processDistill env config args before with
    | .ok next => next
    | .error _ => before

/-- A transcript that is distilled in passes of a bounded size, by a model that always answers. -/
structure Distilled (env : Env) (config : DistillConfig) (args : Json) (log : Log)
    (sessionId path : String) (text : Bytes) : Prop where
  /-- Distillation is on. -/
  enabled : config.enabled = true
  /-- The passes are bounded. -/
  bounded : 0 < config.maxLinesPerPass
  /-- The calls name the session. -/
  named : args.valueString "session_id" "" = .ok sessionId
  /-- It has a name. -/
  session : sessionId ≠ ""
  /-- Its transcript is registered. -/
  registered : transcriptPath log sessionId = path
  /-- It has a path. -/
  located : path ≠ ""
  /-- It can be opened. -/
  readable : env.file path = some text
  /-- The model always answers. -/
  answers : ∀ conversation, env.llm conversation ≠ []
  /-- Its lines are counted in 64 bits. -/
  counted : (linesOf text).length < 2 ^ 63

/-- The passes come to the end of the transcript, and every pass that stops at its bound leaves a
greater watermark. -/
def Advances (env : Env) (config : DistillConfig) (args : Json) (log : Log)
    (sessionId path : String) (text : Bytes) : Prop :=
  (∃ count, watermark (calls env config args log count) sessionId = (linesOf text).length) ∧
    ∀ count, (parse env.parseJson path (env.file path)
        { skipLines := watermark (calls env config args log count) sessionId,
          maxLines := config.maxLinesPerPass }).hitLineCap = true →
      watermark (calls env config args log count) sessionId <
        watermark (calls env config args log (count + 1)) sessionId

/-- The lines of a pass. -/
def passLines (config : DistillConfig) (start : Nat) (text : Bytes) (pass : Nat) : List Bytes :=
  let bound := config.maxLinesPerPass.toNat
  ((linesOf text).drop (start + pass * bound)).take bound

/-- Whether some line has a turn. -/
def Speaks (env : Env) (lines : List Bytes) : Prop :=
  ∃ line ∈ lines, turnOf env.parseJson {} line ≠ none

instance (env : Env) (lines : List Bytes) : Decidable (Speaks env lines) :=
  inferInstanceAs (Decidable (∃ line ∈ lines, _))

/-- Every pass has a line with a turn. -/
def EveryPassSpeaks (env : Env) (config : DistillConfig) (start : Nat) (text : Bytes) : Prop :=
  ∀ pass, passLines config start text pass ≠ [] → Speaks env (passLines config start text pass)

variable {env : Env} {config : DistillConfig} {args : Json} {log : Log}
variable {sessionId path : String} {text : Bytes}

/-- The watermark of a log whose last pass published a line. -/
theorem watermark_published (log : Log) (sessionId : String) {line : Nat} (small : line < 2 ^ 63) :
    watermark (emitEvent (emitEvent log "transcript" "progress" sessionId
      (some (.object [("last_line", .int line)]))) "transcript" "distilled" sessionId
      (some (.object []))) sessionId = line := by
  have other : "distilled" ≠ "progress" := by decide
  have read : Json.valueWith Json.getInt64 (.object [("last_line", .int line)]) "last_line" 0 =
      .ok ((line : Int).bmod (2 ^ 64)) := rfl
  rw [watermark, getLatestEvent_emit_other other, getLatestEvent_emit_self]
  simp only [read]
  rw [Int.bmod_eq_emod]
  split <;> omega

/-- Some lines have no turns when nothing is told of them. -/
theorem numbered_eq_nil {start : Nat} {lines : List Bytes} :
    numbered 0 (tell env.parseJson {} start lines) = [] ↔ ¬Speaks env lines := by
  have empty : ∀ tolds : List Told, numbered 0 tolds = [] ↔ tolds = [] := by
    intro tolds
    cases tolds with
    | nil => simp [numbered]
    | cons told rest => simp [numbered]
  rw [empty, tell_eq_nil, Speaks]
  simp

/-- What a pass that was asked for has prepared. -/
theorem prepareDistillation_eq (readable : env.file path = some text)
    (answers : ∀ conversation, env.llm conversation ≠ []) {start : Nat}
    (within : start ≤ (linesOf text).length) :
    let stop := windowEnd config.maxLinesPerPass start (linesOf text).length
    (prepareDistillation env config path start true).lastLine = stop ∧
      ((prepareDistillation env config path start true).valid = true ↔
        Speaks env (((linesOf text).drop start).take (stop - start))) := by
  intro stop
  have parsed : parse env.parseJson path (env.file path)
      { skipLines := start, maxLines := config.maxLinesPerPass } =
      ⟨numbered 0 (tell env.parseJson {} start (((linesOf text).drop start).take (stop - start))),
        some (stop : Int), decide (stop < (linesOf text).length), ""⟩ := by
    rw [readable]
    exact parse_eq env.parseJson path text rfl within
  have spoken := @numbered_eq_nil env start (((linesOf text).drop start).take (stop - start))
  rw [prepareDistillation, parsed]
  by_cases silent : numbered 0 (tell env.parseJson {} start
      (((linesOf text).drop start).take (stop - start))) = []
  · have quiet := spoken.mp silent
    simp [silent, quiet]
  · have speaks : Speaks env (((linesOf text).drop start).take (stop - start)) := by
      by_contra quiet
      exact silent (spoken.mpr quiet)
    have some_turn := List.length_pos_iff.mpr silent
    have enough : ¬((numbered 0 (tell env.parseJson {} start
        (((linesOf text).drop start).take (stop - start)))).length : Int) < 1 := by
      omega
    simp [silent, enough, answers, speaks]

/-- A pass goes to the end of its window if a line of the window has a turn; otherwise nothing
happens. -/
theorem processDistill_eq (distilled : Distilled env config args log sessionId path text)
    {start stop : Nat} (reached : watermark log sessionId = start)
    (within : start ≤ (linesOf text).length)
    (ends : windowEnd config.maxLinesPerPass start (linesOf text).length = stop) :
    processDistill env config args log =
      .ok (if Speaks env (((linesOf text).drop start).take (stop - start)) then
        emitEvent (emitEvent log "transcript" "progress" sessionId
          (some (.object [("last_line", .int stop)]))) "transcript" "distilled" sessionId
          (some (.object []))
      else log) := by
  obtain ⟨last, valid⟩ :=
    @prepareDistillation_eq env config path text distilled.readable distilled.answers start within
  rw [ends] at last valid
  have located : transcriptPath log sessionId ≠ "" := by
    rw [distilled.registered]
    exact distilled.located
  have run : runDistillation env config sessionId path start true log =
      if Speaks env (((linesOf text).drop start).take (stop - start)) then
        (emitEvent (emitEvent log "transcript" "progress" sessionId
          (some (.object [("last_line", .int stop)]))) "transcript" "distilled" sessionId
          (some (.object [])), true)
      else (log, false) := by
    rw [runDistillation]
    by_cases speaks : Speaks env (((linesOf text).drop start).take (stop - start))
    · simp only [valid.mpr speaks, last, if_pos speaks, if_true]
    · have refused : (prepareDistillation env config path start true).valid = false := by
        rw [Bool.eq_false_iff]
        intro prepared
        exact speaks (valid.mp prepared)
      simp only [refused, if_neg speaks]
      rfl
  rw [processDistill, distilled.named]
  simp only [distilled.enabled, bind, Except.bind, if_neg distilled.session, if_neg located]
  rw [distilled.registered, reached, run]
  by_cases speaks : Speaks env (((linesOf text).drop start).take (stop - start))
  · rw [if_pos speaks, if_pos speaks]
    rfl
  · rw [if_neg speaks, if_neg speaks]
    rfl

/-- A pass leaves what the next one needs. -/
theorem Distilled.published (distilled : Distilled env config args log sessionId path text)
    (progress done : Option Json) :
    Distilled env config args (emitEvent (emitEvent log "transcript" "progress" sessionId progress)
      "transcript" "distilled" sessionId done) sessionId path text := by
  have first : "progress" ≠ "register" := by decide
  have second : "distilled" ≠ "register" := by decide
  refine { distilled with registered := ?_ }
  rw [← distilled.registered, transcriptPath, transcriptPath, getLatestEvent_emit_other second,
    getLatestEvent_emit_other first]

/-- The start of a pass. -/
def passStart (config : DistillConfig) (start pass : Nat) : Nat :=
  start + pass * config.maxLinesPerPass.toNat

/-- The window of a pass has its lines. -/
theorem window_eq_passLines {start pass : Nat} (bounded : 0 < config.maxLinesPerPass)
    (before : passStart config start pass < (linesOf text).length) :
    ((linesOf text).drop (passStart config start pass)).take
      (windowEnd config.maxLinesPerPass (passStart config start pass) (linesOf text).length -
        passStart config start pass) = passLines config start text pass := by
  rw [passLines, windowEnd, if_pos bounded]
  show ((linesOf text).drop (passStart config start pass)).take _ =
    ((linesOf text).drop (passStart config start pass)).take _
  rw [List.take_eq_take_iff, List.length_drop]
  omega

/-- The end of a pass is the start of the next one, or the end of the transcript. -/
theorem windowEnd_passStart {start pass : Nat} (bounded : 0 < config.maxLinesPerPass) :
    windowEnd config.maxLinesPerPass (passStart config start pass) (linesOf text).length =
      min (passStart config start (pass + 1)) (linesOf text).length := by
  have next : passStart config start (pass + 1) =
      passStart config start pass + config.maxLinesPerPass.toNat := by
    rw [passStart, passStart, Nat.succ_mul, Nat.add_assoc]
  rw [windowEnd, if_pos bounded, next]

/-- A call at the start of a pass whose lines have a turn comes to its end. -/
theorem call_speaks (distilled : Distilled env config args log sessionId path text)
    {start pass : Nat} (reached : watermark log sessionId = passStart config start pass)
    (before : passStart config start pass < (linesOf text).length)
    (speaks : Speaks env (passLines config start text pass)) :
    ∃ next, processDistill env config args log = .ok next ∧
      Distilled env config args next sessionId path text ∧
      watermark next sessionId =
        (min (passStart config start (pass + 1)) (linesOf text).length : Nat) := by
  have step := processDistill_eq distilled reached (Nat.le_of_lt before) rfl
  rw [window_eq_passLines distilled.bounded before, if_pos speaks,
    windowEnd_passStart distilled.bounded] at step
  have small : min (passStart config start (pass + 1)) (linesOf text).length < 2 ^ 63 :=
    Nat.lt_of_le_of_lt (Nat.min_le_right _ _) distilled.counted
  exact ⟨_, step, distilled.published _ _, watermark_published log sessionId small⟩

/-- A call at the start of a pass whose lines have no turn changes nothing. -/
theorem call_silent (distilled : Distilled env config args log sessionId path text)
    {start pass : Nat} (reached : watermark log sessionId = passStart config start pass)
    (before : passStart config start pass < (linesOf text).length)
    (silent : ¬Speaks env (passLines config start text pass)) :
    processDistill env config args log = .ok log := by
  have step := processDistill_eq distilled reached (Nat.le_of_lt before) rfl
  rw [window_eq_passLines distilled.bounded before, if_neg silent] at step
  exact step

/-- A call at the end of the transcript changes nothing. -/
theorem call_done (distilled : Distilled env config args log sessionId path text)
    (reached : watermark log sessionId = (linesOf text).length) :
    processDistill env config args log = .ok log := by
  have step := processDistill_eq distilled reached (Nat.le_refl _) rfl
  have nothing : ¬Speaks env (((linesOf text).drop (linesOf text).length).take
      (windowEnd config.maxLinesPerPass (linesOf text).length (linesOf text).length -
        (linesOf text).length)) := by
    rw [List.drop_length, List.take_nil]
    simp [Speaks]
  rw [if_neg nothing] at step
  exact step

/-- The log behind one more call. -/
theorem calls_succ {count : Nat} {next : Log}
    (called : processDistill env config args (calls env config args log count) = .ok next) :
    calls env config args log (count + 1) = next := by
  simp only [calls, called]

/-- A pass that begins before the end has lines. -/
theorem passLines_ne_nil {start pass : Nat} (bounded : 0 < config.maxLinesPerPass) :
    passLines config start text pass ≠ [] ↔
    passStart config start pass < (linesOf text).length := by
  rw [passLines, ← List.length_pos_iff, List.length_take, List.length_drop]
  show _ ↔ start + pass * config.maxLinesPerPass.toNat < _
  omega

/-- How far some calls came: to the end of as many passes, if all of these have turns, or to the
start of the first one without. -/
theorem calls_reach (distilled : Distilled env config args log sessionId path text) {start : Nat}
    (reached : watermark log sessionId = start) (within : start ≤ (linesOf text).length)
    (count : Nat) :
    Distilled env config args (calls env config args log count) sessionId path text ∧
      ((watermark (calls env config args log count) sessionId =
          (min (passStart config start count) (linesOf text).length : Nat) ∧
        ∀ pass < count, passStart config start pass < (linesOf text).length →
          Speaks env (passLines config start text pass)) ∨
      ∃ pass, passStart config start pass < (linesOf text).length ∧
        ¬Speaks env (passLines config start text pass) ∧
        watermark (calls env config args log count) sessionId = passStart config start pass) := by
  induction count with
  | zero =>
    refine ⟨distilled, .inl ⟨?_, fun _ early => absurd early (Nat.not_lt_zero _)⟩⟩
    rw [calls, reached, passStart, Nat.zero_mul, Nat.add_zero, Nat.min_eq_left within]
  | succ count ih =>
    obtain ⟨ready, ⟨mark, spoken⟩ | ⟨pass, before, silent, mark⟩⟩ := ih
    · by_cases before : passStart config start count < (linesOf text).length
      · rw [Nat.min_eq_left (Nat.le_of_lt before)] at mark
        by_cases speaks : Speaks env (passLines config start text count)
        · obtain ⟨next, called, still, moved⟩ := call_speaks ready mark before speaks
          rw [calls_succ called]
          refine ⟨still, .inl ⟨moved, ?_⟩⟩
          intro pass early some_line
          rcases Nat.lt_succ_iff_lt_or_eq.mp early with earlier | rfl
          · exact spoken pass earlier some_line
          · exact speaks
        · have called := call_silent ready mark before speaks
          rw [calls_succ called]
          exact ⟨ready, .inr ⟨count, before, speaks, mark⟩⟩
      · have done := Nat.le_of_not_lt before
        have later : passStart config start count ≤ passStart config start (count + 1) := by
          rw [passStart, passStart, Nat.succ_mul]
          omega
        rw [Nat.min_eq_right done] at mark
        have called := call_done ready mark
        rw [calls_succ called, Nat.min_eq_right (Nat.le_trans done later)]
        refine ⟨ready, .inl ⟨mark, ?_⟩⟩
        intro pass early some_line
        rcases Nat.lt_succ_iff_lt_or_eq.mp early with earlier | rfl
        · exact spoken pass earlier some_line
        · exact absurd some_line before
    · have called := call_silent ready mark before silent
      rw [calls_succ called]
      exact ⟨ready, .inr ⟨pass, before, silent, mark⟩⟩

/-- Passes that come to the end have found a turn in every pass. -/
theorem everyPassSpeaks_of_end (distilled : Distilled env config args log sessionId path text)
    {start : Nat} (reached : watermark log sessionId = start)
    (within : start ≤ (linesOf text).length) {count : Nat}
    (done : watermark (calls env config args log count) sessionId = (linesOf text).length) :
    EveryPassSpeaks env config start text := by
  intro pass some_line
  rw [passLines_ne_nil distilled.bounded] at some_line
  obtain ⟨_, ⟨mark, spoken⟩ | ⟨stuck, before, _, mark⟩⟩ :=
    calls_reach distilled reached within count
  · apply spoken pass _ some_line
    have ended : (linesOf text).length ≤ passStart config start count := by omega
    have ordered : passStart config start pass < passStart config start count := by omega
    rw [passStart, passStart] at ordered
    exact Nat.lt_of_mul_lt_mul_right (Nat.lt_of_add_lt_add_left ordered)
  · omega

/-- The watermark behind some calls when every pass has a turn. -/
theorem watermark_calls (distilled : Distilled env config args log sessionId path text)
    {start : Nat} (reached : watermark log sessionId = start)
    (within : start ≤ (linesOf text).length) (every : EveryPassSpeaks env config start text)
    (count : Nat) :
    watermark (calls env config args log count) sessionId =
      (min (passStart config start count) (linesOf text).length : Nat) := by
  obtain ⟨_, ⟨mark, _⟩ | ⟨pass, before, silent, _⟩⟩ := calls_reach distilled reached within count
  · exact mark
  · exact absurd (every pass ((passLines_ne_nil distilled.bounded).mpr before)) silent

/-- The passes of a transcript come to its end, each that stops at its bound with a greater
watermark, exactly when every pass has a line with a turn. -/
theorem passes_advance (distilled : Distilled env config args log sessionId path text) {start : Nat}
    (reached : watermark log sessionId = start) (within : start ≤ (linesOf text).length) :
    Advances env config args log sessionId path text ↔ EveryPassSpeaks env config start text := by
  have bound : 0 < config.maxLinesPerPass.toNat := by
    have bounded := distilled.bounded
    omega
  constructor
  · rintro ⟨⟨count, done⟩, _⟩
    exact everyPassSpeaks_of_end distilled reached within done
  · intro every
    have came := watermark_calls distilled reached within every
    refine ⟨⟨(linesOf text).length, ?_⟩, ?_⟩
    · have far : (linesOf text).length ≤ passStart config start (linesOf text).length := by
        have steps := Nat.le_mul_of_pos_right (linesOf text).length bound
        rw [passStart]
        omega
      rw [came, Nat.min_eq_right far]
    · intro count capped
      have inside : min (passStart config start count) (linesOf text).length ≤
          (linesOf text).length := Nat.min_le_right _ _
      have parsed := @parse_eq env.parseJson path text
        { skipLines := (min (passStart config start count) (linesOf text).length : Nat),
          maxLines := config.maxLinesPerPass } _ rfl inside
      rw [came, distilled.readable, parsed] at capped
      have more := of_decide_eq_true capped
      rw [windowEnd, if_pos distilled.bounded] at more
      have next : passStart config start (count + 1) =
          passStart config start count + config.maxLinesPerPass.toNat := by
        rw [passStart, passStart, Nat.succ_mul, Nat.add_assoc]
      rw [came, came, next]
      omega

/-- Passes over one file, by a model that answers with one byte. -/
def plainEnv (text : Bytes) : Env := ⟨plainJson, fun _ => some text, fun _ => [33]⟩

/-- Passes of one line. -/
def plainConfig : DistillConfig := ⟨true, 1, 0, 1⟩

/-- The arguments that name the session. -/
def plainArgs : Json := .object [("session_id", .str "s")]

/-- The log with the registered transcript. -/
def plainLog : Log :=
  emitEvent [] "transcript" "register" "s" (some (.object [("transcript_path", .str "t")]))

/-- What the passes over a file of few lines rest on. -/
theorem plain_distilled {text : Bytes} (counted : (linesOf text).length < 2 ^ 63) :
    Distilled (plainEnv text) plainConfig plainArgs plainLog "s" "t" text where
  enabled := rfl
  bounded := by decide
  named := rfl
  session := by decide
  registered := rfl
  located := by decide
  readable := rfl
  answers := by
    intro conversation
    exact List.cons_ne_nil _ _
  counted := counted

/-- Both lines of a file have turns, so the passes of one line come to the end. -/
theorem passes_advance_lines :
    Advances (plainEnv plainTwice) plainConfig plainArgs plainLog "s" "t" plainTwice := by
  have two : (linesOf plainTwice).length = 2 := by decide +kernel
  have few : (linesOf plainTwice).length < 2 ^ 63 := by omega
  apply (@passes_advance _ _ _ _ _ _ _ (plain_distilled few) 0 rfl (Nat.zero_le _)).mpr
  intro pass some_line
  rw [passLines_ne_nil (by decide), two] at some_line
  have speaks :
      ∀ pass < 2, Speaks (plainEnv plainTwice) (passLines plainConfig 0 plainTwice pass) := by
    decide +kernel
  refine speaks pass ?_
  have start : passStart plainConfig 0 pass = 0 + pass * 1 := rfl
  omega

/-- The first line of a file has no turn: no pass comes to the end. -/
theorem passes_stay :
    ¬Advances (plainEnv (120 :: newline :: plainLine ++ [newline])) plainConfig plainArgs plainLog
      "s" "t" (120 :: newline :: plainLine ++ [newline]) := by
  rintro ⟨⟨count, done⟩, _⟩
  have few : (linesOf (120 :: newline :: plainLine ++ [newline])).length < 2 ^ 63 := by
    decide +kernel
  have every := everyPassSpeaks_of_end (plain_distilled few) rfl (Nat.zero_le _) done
  have silent : ¬Speaks (plainEnv (120 :: newline :: plainLine ++ [newline]))
      (passLines plainConfig 0 (120 :: newline :: plainLine ++ [newline]) 0) := by decide +kernel
  exact silent (every 0 (by decide))

end Chitta.Transcript
