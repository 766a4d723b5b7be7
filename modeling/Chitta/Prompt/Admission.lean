import Mathlib.Data.List.Infix
import Chitta.Bytes
import Chitta.Json
import Chitta.Lines
import Chitta.Rotation

/-!
# The admission of recalled rows to a prompt

`prompt_policy::admit` goes through the rows that the recall lanes returned for a prompt. A row is
dropped for its confidence, for a prompt about something unknown, as internal noise or because an
earlier prompt of the session has shown it; of the others at most three are admitted, the lanes
taking turns. MD5, the calibration curve and the text of a JSON value are parameters.
-/
namespace Chitta.Prompt

open Bytes Regex Regex.Pattern

/-- What comes from outside the code. -/
structure Env where
  /-- `EVP_Digest` with `EVP_md5`; none when it fails. -/
  md5 : Text → Option (Fin 16 → UInt8)
  /-- The calibrated percentage of a measured one. -/
  calibrated : Int → Text
  /-- `dump` of a JSON value. -/
  dump : Json → Text

/-- The recall lanes. -/
inductive Lane where
  /-- Semantic recall. -/
  | sem
  /-- Recall by the context. -/
  | ctx
  /-- Hybrid recall. -/
  | hyb
  /-- Keywords. -/
  | kw
  /-- Corrections. -/
  | corr
  /-- Other realms. -/
  | xr
deriving DecidableEq, Repr

/-- The name of a lane. -/
def Lane.name : Lane → String
  | sem => "sem"
  | ctx => "ctx"
  | hyb => "hyb"
  | kw => "kw"
  | corr => "corr"
  | xr => "xr"

/-- `lanes`. -/
def allLanes : List Lane := [.sem, .ctx, .hyb, .kw, .corr, .xr]

/-- The order in which the lanes take turns. -/
def turnLanes : List Lane := [.corr, .kw, .sem, .ctx, .hyb, .xr]

/-- Why a row is dropped. -/
inductive Reason where
  /-- Its confidence is too low. -/
  | conf
  /-- An earlier prompt has shown it. -/
  | dup
  /-- It is noise. -/
  | «meta»
  /-- Enough rows were admitted. -/
  | cap
  /-- The prompt is about something unknown. -/
  | unk
deriving DecidableEq, Repr

/-- The name of a reason. -/
def Reason.name : Reason → String
  | conf => "conf"
  | dup => "dup"
  | «meta» => "meta"
  | cap => "cap"
  | unk => "unk"

/-- `reasons`. -/
def allReasons : List Reason := [.conf, .dup, .meta, .cap, .unk]

/-! ## Texts -/

/-- `prefix`: the first characters of a text. -/
def prefixChars : Nat → Text → Text
  | _, [] => []
  | count, byte :: rest =>
    if byte &&& 0xc0 ≠ 0x80 then
      match count with
      | 0 => []
      | count + 1 => byte :: prefixChars count rest
    else byte :: prefixChars count rest

/-- A byte in hexadecimal. -/
def hexByte (byte : UInt8) : List Char :=
  [Nat.digitChar (byte.toNat / 16), Nat.digitChar (byte.toNat % 16)]

/-- `hash`: the content hash of a line. -/
def hash (env : Env) (line : Text) : Except Thrown String :=
  match env.md5 (prefixChars 80 line) with
  | none => .error (.runtimeError "prompt content hash failed")
  | some digest =>
    .ok (String.ofList ((List.range 8).flatMap fun index => hexByte (digest (Fin.ofNat 16 index))))

/-- The words of a text. -/
def splitWords (text : Text) : List Text :=
  (findAll (more visible) text).map (·.matched)

/-- `words`. -/
def words (text : Text) : List Text := (splitWords text).eraseDups

/-- A character of a token. -/
def tokenByte (byte : UInt8) : Bool :=
  isLower byte || isDigit byte || byte == 95 || byte == 62 || byte == 47 || byte == 45

/-- `tokens`. -/
def tokens (text : Text) : List Text :=
  let pattern := seq (symbol fun byte => isLower byte || isDigit byte)
    (atLeast 3 (symbol tokenByte))
  ((findAll pattern (text.map lower)).map (·.matched)).eraseDups

/-- `shares`. -/
def shares (one other : List Text) : Bool := one.any fun word => other.contains word

/-- `matches`. -/
def matchesText (pattern : Pattern UInt8) (text : Text) : Bool := (search pattern text).isSome

/-- `std::stoi`. -/
def stoi (text : Text) : Except Thrown Int :=
  let body := text.dropWhile isSpace
  let digits := match body with
    | 43 :: rest => rest
    | 45 :: rest => rest
    | rest => rest
  let read := digits.takeWhile isDigit
  if read = [] then .error (.invalidArgument "stoi")
  else
    let size := read.foldl (fun value byte => 10 * value + (byte.toNat - 48 : Int)) 0
    let value := if body.head? = some 45 then -size else size
    if -2147483648 ≤ value ∧ value ≤ 2147483647 then .ok value else .error (.outOfRange "stoi")

/-! ## Patterns -/

/-- `[[:space:]]+`. -/
def blanks : Pattern UInt8 := more space

/-- `[[:punct:]]`. -/
def isPunct (byte : UInt8) : Bool :=
  (33 ≤ byte && byte ≤ 47) || (58 ≤ byte && byte ≤ 64) || (91 ≤ byte && byte ≤ 96) ||
    (123 ≤ byte && byte ≤ 126)

/-- The pattern of a terse negation. -/
def negationPattern : Pattern UInt8 :=
  either
    (all [either atStart space,
      oneOf [textNoCase "is", textNoCase "are", textNoCase "was", textNoCase "were"], blanks,
      textNoCase "not", either space atEnd])
    (all [atStart, either (textNoCase "no") (textNoCase "not"),
      either (symbol fun byte => isPunct byte || isSpace byte) atEnd])

/-- `confidence`. -/
def confidencePattern : Pattern UInt8 := all [text "[", group 1 (more digit), text "%]"]

/-- A row about thinking. -/
def thinkingPattern : Pattern UInt8 :=
  all [text "[episode]", many any, text "[thinking", any, text "block:"]

/-- A row about the state of a session or a cache break. -/
def sessionPattern : Pattern UInt8 :=
  either
    (all [textNoCase "[session:", more (symbol fun byte => byte != 93), text "]", blanks,
      oneOf [textNoCase "working", textNoCase "complete", textNoCase "completed",
        textNoCase "failed", textNoCase "blocked"],
      text "→", more digit, blanks, textNoCase "turns"])
    (textNoCase "[cache:break]")

/-- A row about a compaction. -/
def compactPattern : Pattern UInt8 :=
  either (all [textNoCase "pre-compact", blanks, textNoCase "context:"])
    (textNoCase "[pre-compact:")

/-- `([*]{0,2})?`. -/
def stars : Pattern UInt8 := maybe (atMost 2 (text "*"))

/-- A row of a discussion among agents. -/
def discussionPattern : Pattern UInt8 :=
  all [textNoCase "you are ", stars, either (textNoCase "claude") (textNoCase "codex"),
    maybe (seq (text ":") (more (symbol fun byte => byte != 32 && byte != 44 && byte != 42))),
    stars, many any, textNoCase "multi-agent discussion"]

/-- A row about a finished job. -/
def jobPattern : Pattern UInt8 :=
  all [oneOf [text "DONE", text "complete", text "completed", text "launched", text "shipped"],
    many any, text "Fable ",
    atLeast 6 (symbol fun byte => isDigit byte || (97 ≤ byte && byte ≤ 102))]

/-- A row that is a bare citation. -/
def citationPattern : Pattern UInt8 :=
  all [symbol isUpper, more (symbol isLower), text "_et_al_", times 4 digit, text "_",
    more (symbol fun byte => isUpper byte || isLower byte || isDigit byte)]

/-! ## The rows -/

/-- What `admit` reads of its state before the rows. -/
structure Settings where
  /-- The state, for what is read on demand. -/
  state : Json
  /-- `query_tokens`. -/
  qt : List Text
  /-- `distinct_tokens`. -/
  distinct : List Text
  /-- `context_tokens`. -/
  ctx : List Text
  /-- `seen_hashes`. -/
  seen : String
  /-- `session_id`. -/
  sid : String
  /-- A percentage is given. -/
  measured : Bool
  /-- `c2_pct`. -/
  c2 : Int
  /-- `small_realm`. -/
  small : Bool
  /-- The prompt is about something unknown. -/
  unknown : Bool
  /-- `terse_negation`. -/
  negation : Bool
  /-- `memories`. -/
  memories : Text

/-- The session has a name. -/
def Settings.persist (settings : Settings) : Bool :=
  settings.sid ≠ "" && settings.sid ≠ "unknown"

/-- The settings of a state. -/
def readSettings (state : Json) : Except Thrown Settings := do
  let query ← state.valueString "query" ""
  let qt ← state.valueString "query_tokens" ""
  let distinct ← state.valueString "distinct_tokens" ""
  let ctx ← state.valueString "context_tokens" ""
  let seen ← state.valueString "seen_hashes" ""
  let sid ← state.valueString "session_id" "unknown"
  let percentage ← state.valueString "c2_pct" ""
  let measured := percentage ≠ ""
  let c2 ← if measured then stoi (utf8 percentage) else .ok 0
  let small ← state.valueWith Json.getBool "small_realm" false
  let silence ← state.valueWith Json.getBool "unknown_silence" true
  let memories ← state.valueString "memories" ""
  return {
    state
    qt := words (utf8 qt)
    distinct := words (utf8 distinct)
    ctx := words (utf8 ctx)
    seen
    sid
    measured
    c2
    small
    unknown := silence && measured && c2 < 81
    negation := (splitWords (utf8 query)).length ≤ 8 && matchesText negationPattern (utf8 query)
    memories := utf8 memories }

/-- A row that may be admitted. -/
structure Candidate where
  /-- Its lane. -/
  lane : Lane
  /-- Its text. -/
  line : Text
  /-- The hash of its text. -/
  key : String
deriving DecidableEq, Repr

/-- What is noted about a row of a lane that follows the meaning. -/
structure Shadow where
  /-- The hash. -/
  h : String
  /-- The confidence. -/
  conf : Int
  /-- It shares a token with the query. -/
  shares : Bool
  /-- It shares a token with the context. -/
  sctx : Bool
  /-- The lane. -/
  lane : Lane
  /-- The number of the tokens of the query. -/
  qn : Nat
  /-- The session. -/
  s : String

/-- What the loop over the rows collects. -/
structure Rows where
  /-- The rows that may be admitted. -/
  candidates : List Candidate := []
  /-- A reason for every row that was dropped. -/
  drops : List Reason := []
  /-- `shadow`. -/
  shadow : List Shadow := []
  /-- `debug_text`. -/
  debug : Text := []

/-- A row is dropped. -/
def Rows.drop (rows : Rows) (reason : Reason) : Rows :=
    { rows with drops := rows.drops ++ [reason] }

/-- A row may be admitted. -/
def Rows.push (rows : Rows) (candidate : Candidate) : Rows :=
  { rows with candidates := rows.candidates ++ [candidate] }

/-- The lane in front of a row, and the row without it. -/
def splitLane (line : Text) : Lane × Text :=
  match ([.ctx, .hyb, .kw, .corr, .xr] : List Lane).find? fun lane =>
      decide (utf8 ("[" ++ lane.name ++ "]") <+: line) with
  | some lane => (lane, line.drop (utf8 ("[" ++ lane.name ++ "]")).length)
  | none => (.sem, line)

/-- The confidence of a row. -/
def rowConfidence (line : Text) : Except Thrown Int :=
  match search confidencePattern line with
  | some found => stoi (groupText found.groups 1)
  | none => stoi []

/-- The least confidence of a lane. -/
def leastConfidence (lane : Lane) : Int := if lane = .hyb ∨ lane = .kw then 1 else 30

/-- A row is silent in a prompt about something unknown. -/
def silenced (settings : Settings) (lane : Lane) (content : List Text) : Bool :=
  let shared := shares settings.distinct content
  match lane with
  | .sem | .ctx => !(settings.small && shared)
  | .corr => true
  | .kw | .hyb | .xr => !shared

/-- A keyword row that rests on a single token. -/
def singleToken (settings : Settings) (lane : Lane) (conf : Int) : Except Thrown Bool :=
  if lane = .kw ∧ settings.distinct.length < 2 then do
    let least ← settings.state.valueWith Json.getInt "kw_single_token_min" 60
    return conf < least
  else .ok false

/-- A row is noise. -/
def isNoise (line : Text) : Bool :=
  matchesText thinkingPattern line || (cutAt (utf8 "[thought]") line).isSome ||
    matchesText sessionPattern line || matchesText compactPattern line ||
    matchesText discussionPattern line ||
    (!line.contains 63 && matchesText jobPattern line) ||
    (prefixChars 89 line == line && matchesText citationPattern line)

/-- The tests of a row before its hash: why it is dropped. -/
def screen (settings : Settings) (lane : Lane) (line : Text) (conf : Int) :
    Except Thrown (Option Reason) :=
  if conf < leastConfidence lane then .ok (some .conf)
  else if settings.unknown && silenced settings lane (tokens line) then .ok (some .unk)
  else do
    let single ← singleToken settings lane conf
    return if single then some .conf else if isNoise line then some .meta else none

/-- An earlier prompt returned the hash: it is found in the hashes of them all. -/
def seenBefore (seen key : String) : Bool := decide (key.toList <:+: seen.toList)

/-- A row with its hash: a repetition is dropped, and the semantic lanes are noted. -/
def keep (settings : Settings) (rows : Rows) (lane : Lane) (line : Text) (conf : Int)
    (key : String) : Except Thrown Rows :=
  if settings.persist && seenBefore settings.seen key then .ok (rows.drop .dup)
  else if (lane = .sem ∨ lane = .ctx) ∧ settings.qt ≠ [] then do
    let content := tokens line
    let turnShare := shares settings.qt content
    let note : Shadow :=
      ⟨key, conf, turnShare, shares settings.ctx content, lane, settings.qt.length, settings.sid⟩
    let noted := { rows with shadow := rows.shadow ++ [note] }
    let enforce ← if lane = .sem then settings.state.valueWith Json.getBool "anchor_enforce" false
      else .ok false
    return if enforce && !turnShare && decide (3 ≤ settings.qt.length) &&
        decide (settings.qt.length ≤ 50) then noted.drop .meta
      else noted.push ⟨lane, line, key⟩
  else .ok (rows.push ⟨lane, line, key⟩)

/-- The line of the debug text about a row. -/
def debugLine (settings : Settings) (lane : Lane) (line : Text) (conf : Int) : Text :=
  utf8 ("[admit-debug] lane=" ++ lane.name ++ " conf=" ++ toString conf ++ " c2=" ++
    (if settings.measured then toString settings.c2 else "none") ++ " qtok=" ++
    toString settings.qt.length ++ " sr=" ++ (if settings.small then "1" else "0") ++ " | ") ++
    prefixChars 90 line ++ [newline]

/-- One line of the memories. -/
def admitLine (env : Env) (settings : Settings) (rows : Rows) (line : Text) :
    Except Thrown Rows :=
  if (search confidencePattern line).isNone then .ok rows
  else
    let (lane, row) := splitLane line
    if settings.negation then .ok (rows.drop .unk)
    else do
      let conf ← rowConfidence row
      let debug ← settings.state.valueWith Json.getBool "debug" false
      let rows :=
        if debug then { rows with debug := rows.debug ++ debugLine settings lane row conf }
        else rows
      match ← screen settings lane row conf with
      | some reason => .ok (rows.drop reason)
      | none => do
        let key ← hash env row
        keep settings rows lane row conf key

/-! ## The choice -/

/-- The number of rows that are admitted at most. -/
def maxAdmitted : Nat := 3

/-- One round of the lanes, from a number of admitted rows: the rows it admits, and the others. -/
def selectRound : Nat → List Lane → List Candidate → List Candidate × List Candidate
  | _, [], left => ([], left)
  | count, lane :: lanes, left =>
    match Rotation.extract (fun candidate => decide (candidate.lane = lane)) left with
    | none => selectRound count lanes left
    | some (candidate, others) =>
      if count + 1 = maxAdmitted then ([candidate], others)
      else
        let later := selectRound (count + 1) lanes others
        (candidate :: later.1, later.2)

/-- The rounds; every one but the last admits a row. -/
def selectFrom : Nat → Nat → List Candidate → List Candidate
  | 0, _, _ => []
  | rounds + 1, count, left =>
    if count < maxAdmitted then
      let round := selectRound count turnLanes left
      if round.1.isEmpty then []
      else round.1 ++ selectFrom rounds (count + round.1.length) round.2
    else []

/-- The rows that are admitted. -/
def select (candidates : List Candidate) : List Candidate := selectFrom maxAdmitted 0 candidates

/-! ## The result -/

/-- The result of `admit`. -/
structure Admission where
  /-- The admitted rows. -/
  chosen : List Candidate
  /-- `fused_block`. -/
  fusedBlock : Text
  /-- `count`. -/
  count : Nat
  /-- `admit_line`. -/
  admitLine : Text
  /-- `c2_tag`. -/
  c2Tag : Text
  /-- `c2_cal`. -/
  c2Cal : Text
  /-- `c2_phrase`. -/
  c2Phrase : Text
  /-- `admitted`. -/
  admitted : Lane → Nat
  /-- `dropped`. -/
  dropped : Reason → Nat
  /-- `hashes`. -/
  hashes : List String
  /-- `shadow`. -/
  shadow : List Shadow
  /-- `debug_text`. -/
  debugText : Text
  /-- `terse_negation`. -/
  terseNegation : Bool
  /-- `timing_field`. -/
  timingField : Text
  /-- `admit_tail`. -/
  admitTail : Text

/-- The line of the block for a row. -/
def blockLine (candidate : Candidate) : Text :=
  utf8 ("[" ++ candidate.lane.name ++ "]") ++ prefixChars 150 candidate.line ++ [newline]

/-- The tag of a percentage. -/
def c2Tag (settings : Settings) : Text :=
  if settings.measured then utf8 (if 81 ≤ settings.c2 then "KNOWN" else "UNKNOWN") else []

/-- The phrase of a percentage. -/
def c2Phrase (settings : Settings) : Text :=
  if settings.measured then
    utf8 (if 81 ≤ settings.c2 then
        " | relevant memory present — verify before fully trusting; recall() more if it matters"
      else " | boundary of known memory — do not lean on this; ask or recall explicitly")
  else []

/-- The calibrated percentage. -/
def c2Cal (env : Env) (settings : Settings) : Text :=
  if settings.measured then env.calibrated settings.c2 else []

/-- The counts that are not zero, with their names. -/
def countTexts (counts : List (String × Nat)) : Text :=
  utf8 (String.join ((counts.filter fun count => 0 < count.2).map fun count =>
    " " ++ count.1 ++ ":" ++ toString count.2))

/-- `summary`. -/
def summary (env : Env) (settings : Settings) (admitted : Lane → Nat) (dropped : Reason → Nat)
    (count : Nat) : Except Thrown Text := do
  let inside := countTexts (allLanes.map fun lane => (lane.name, admitted lane))
  let out := countTexts (allReasons.map fun reason => (reason.name, dropped reason))
  if 0 < count ∨ out ≠ [] then
    let ablated ← settings.state.valueString "ablated" ""
    return utf8 "[admit]" ++ (if ablated = "" then [] else utf8 (" abl:" ++ ablated)) ++
      (if c2Tag settings = [] then []
        else utf8 " C2:" ++ c2Tag settings ++ utf8 "(" ++ c2Cal env settings ++ utf8 "%)") ++
      (if settings.small then utf8 " sr:on" else []) ++
      (if inside = [] then utf8 " none" else inside) ++ utf8 " | drop" ++
      (if out = [] then utf8 " none" else out)
  else return []

/-- The time of one lane, behind those before it. -/
def timingLane (env : Env) (ms timeouts : Json) (timing : Text) (lane : String) :
    Except Thrown Text :=
  match ms.find lane with
  | none => .ok timing
  | some time => do
    let late ← timeouts.valueWith Json.getBool lane false
    return (if timing = [] then [] else timing ++ utf8 ",") ++ utf8 (lane ++ "=") ++
      env.dump time ++ (if late then utf8 "!" else [])

/-- `timing`. -/
def timing (env : Env) (settings : Settings) : Except Thrown Text := do
  let ms ← settings.state.valueJson "lane_ms" (.obj [])
  let timeouts ← settings.state.valueJson "lane_timeout" (.obj [])
  ["sem", "ctx", "hyb", "kw", "corr", "corrk", "xr"].foldlM (timingLane env ms timeouts) []

/-- The rows of a state that may be admitted. -/
def collect (env : Env) (settings : Settings) : Except Thrown Rows :=
  (Lines.lines newline settings.memories).foldlM (admitLine env settings) {}

/-- `admit`. -/
def admitPrompt (env : Env) (state : Json) : Except Thrown Admission := do
  let settings ← readSettings state
  let rows ← collect env settings
  let chosen := select rows.candidates
  let admitted := fun lane => chosen.countP fun candidate => decide (candidate.lane = lane)
  let dropped := fun reason =>
    if reason = .cap then rows.candidates.length - chosen.length else rows.drops.count reason
  let line ← summary env settings admitted dropped chosen.length
  let timing ← timing env settings
  return {
    chosen
    fusedBlock := chosen.flatMap blockLine
    count := chosen.length
    admitLine := line
    c2Tag := c2Tag settings
    c2Cal := c2Cal env settings
    c2Phrase := c2Phrase settings
    admitted
    dropped
    hashes := if settings.persist then chosen.map (·.key) else []
    shadow := rows.shadow
    debugText := rows.debug
    terseNegation := settings.negation
    timingField := timing
    admitTail := utf8 " | t:" ++ timing ++ (if timing = [] then [] else utf8 ",") ++
      utf8 "total=@HOOK_MS@" ++ c2Phrase settings }

end Chitta.Prompt
