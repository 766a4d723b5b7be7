import Chitta.Lines
import Chitta.Transcript.Turns

/-!
# Parsing a transcript from a line on

The parser passes over the lines that were processed before and reads the others up to a number of
lines. The turns that it returns are those of the lines of a window, and the last line is where the
window ends.
-/
namespace Chitta.Transcript

/-- The byte that ends a line. -/
def newline : UInt8 := 10

/-- The lines that `std::getline` returns from a file. -/
def linesOf (file : Bytes) : List Bytes := Lines.lines newline file

/-- `TranscriptParseOptions`. -/
structure ParseOptions extends ContentOptions where
  /-- The lines that are passed over. -/
  skipLines : Int := 0
  /-- The lines that are read at most; 0 for all. -/
  maxLines : Int := 0

/-- `ConversationTurn`. -/
structure Turn where
  /-- The role. -/
  role : String
  /-- The text. -/
  content : Bytes
  /-- The line in the file, counted from one. -/
  lineNumber : Int
  /-- The place among the turns of a parse. -/
  turnIndex : Nat
deriving DecidableEq

/-- The result of a parse. -/
structure Parsed where
  /-- The turns. -/
  turns : List Turn
  /-- The last line; none when the file cannot be opened. -/
  lastLine : Option Int
  /-- Whether the parse stopped at the number of lines. -/
  hitLineCap : Bool
  /-- `last_error_`. -/
  lastError : String

/-- The loop that passes over lines. -/
def skipTo (skip : Int) : Int → List Bytes → Int × List Bytes
  | current, [] => (current, [])
  | current, line :: rest =>
    if current < skip then skipTo skip (current + 1) rest else (current, line :: rest)

/-- The loop that reads lines: the turns, the last line and whether the cap was hit. -/
def readLines (parseJson : Bytes → Option Json) (options : ParseOptions) :
    Int → Nat → List Bytes → List Turn × Int × Bool
  | current, _, [] => ([], current, false)
  | current, index, line :: rest =>
    if 0 < options.maxLines ∧ options.maxLines ≤ current - options.skipLines then
      ([], current, true)
    else
      match turnOf parseJson options.toContentOptions line with
      | none => readLines parseJson options (current + 1) index rest
      | some (role, content) =>
        let others := readLines parseJson options (current + 1) (index + 1) rest
        (⟨role, content, current + 1, index⟩ :: others.1, others.2)

/-- `TranscriptParser::parse` of the file at a path, if it can be opened. -/
def parse (parseJson : Bytes → Option Json) (path : String) (file : Option Bytes)
    (options : ParseOptions) : Parsed :=
  match file with
  | none => ⟨[], none, false, "Cannot open file: " ++ path⟩
  | some text =>
    let start := skipTo options.skipLines 0 (linesOf text)
    let read := readLines parseJson options start.1 0 start.2
    ⟨read.1, some read.2.1, read.2.2, ""⟩

/-! ## Windows -/

/-- Where the window of a parse ends: behind all lines, or at the number of lines. -/
def windowEnd (maxLines : Int) (skip count : Nat) : Nat :=
  if 0 < maxLines then min (skip + maxLines.toNat) count else count

/-- What a line tells, with its number. -/
structure Told where
  /-- The role. -/
  role : String
  /-- The text. -/
  content : Bytes
  /-- The line in the file, counted from one. -/
  lineNumber : Int
deriving DecidableEq

/-- A turn without its place in a parse. -/
def Turn.told (turn : Turn) : Told := ⟨turn.role, turn.content, turn.lineNumber⟩

/-- What some lines tell, the first of which is behind a number of lines. -/
def tell (parseJson : Bytes → Option Json) (options : ContentOptions) : Nat → List Bytes → List Told
  | _, [] => []
  | start, line :: rest =>
    match turnOf parseJson options line with
    | none => tell parseJson options (start + 1) rest
    | some (role, content) =>
      ⟨role, content, start + 1⟩ :: tell parseJson options (start + 1) rest

/-- Turns with places from a number on. -/
def numbered : Nat → List Told → List Turn
  | _, [] => []
  | index, told :: rest =>
    ⟨told.role, told.content, told.lineNumber, index⟩ :: numbered (index + 1) rest

variable {parseJson : Bytes → Option Json} {content : ContentOptions} {options : ParseOptions}

/-- The turns of a window say what its lines tell. -/
@[simp] theorem told_numbered (index : Nat) (tolds : List Told) :
    (numbered index tolds).map Turn.told = tolds := by
  induction tolds generalizing index with
  | nil => rfl
  | cons told rest ih => simp [numbered, Turn.told, ih]

/-- What the lines of two parts tell. -/
theorem tell_append (start : Nat) (first second : List Bytes) :
    tell parseJson content start (first ++ second) =
      tell parseJson content start first ++
        tell parseJson content (start + first.length) second := by
  induction first generalizing start with
  | nil => rfl
  | cons line rest ih =>
    have moved : start + 1 + rest.length = start + (line :: rest).length := by
      rw [List.length_cons]
      omega
    cases found : turnOf parseJson content line with
    | none => simp only [List.cons_append, tell, found, ih, moved]
    | some turn => simp only [List.cons_append, tell, found, ih, moved]

/-- Every line is told with a number from the window. -/
theorem lineNumber_of_mem {start : Nat} {lines : List Bytes} {told : Told}
    (inside : told ∈ tell parseJson content start lines) :
    (start : Int) < told.lineNumber ∧ told.lineNumber ≤ start + lines.length := by
  induction lines generalizing start with
  | nil => cases inside
  | cons line rest ih =>
    have later : told ∈ tell parseJson content (start + 1) rest →
        (start : Int) < told.lineNumber ∧ told.lineNumber ≤ start + (line :: rest).length := by
      intro there
      have bounds := ih there
      rw [List.length_cons]
      omega
    simp only [tell] at inside
    split at inside
    · exact later inside
    · rcases List.mem_cons.mp inside with rfl | there
      · rw [List.length_cons]
        simp only
        omega
      · exact later there

/-- Passing over lines stops behind them, or at the end of the file. -/
theorem skipTo_eq (skip current : Nat) (lines : List Bytes) (before : current ≤ skip) :
    skipTo skip current lines =
      (((current + min (skip - current) lines.length : Nat) : Int),
          lines.drop (skip - current)) := by
  induction lines generalizing current with
  | nil => simp [skipTo]
  | cons line rest ih =>
    rw [skipTo]
    by_cases there : current = skip
    · have reached : ¬(current : Int) < skip := by omega
      rw [if_neg reached, there, Nat.sub_self]
      simp
    · have passing : (current : Int) < skip := by omega
      have step : skip - current = skip - (current + 1) + 1 := by omega
      have inner := ih (current + 1) (by omega)
      rw [if_pos passing]
      have cast : (current : Int) + 1 = ((current + 1 : Nat) : Int) := by omega
      rw [cast, inner, step, List.drop_succ_cons, List.length_cons]
      congr 2
      omega

/-- How many of some lines may still be read. -/
def room (maxLines : Int) (used count : Nat) : Nat :=
  if 0 < maxLines then maxLines.toNat - used else count

/-- Reading a line leaves room for one line less. -/
theorem room_succ {maxLines : Int} {used count : Nat}
    (free : ¬(0 < maxLines ∧ maxLines ≤ used)) :
    room maxLines used (count + 1) = room maxLines (used + 1) count + 1 := by
  by_cases bounded : 0 < maxLines
  · rw [room, room, if_pos bounded, if_pos bounded]
    omega
  · rw [room, room, if_neg bounded, if_neg bounded]

/-- Reading from a line on gives what the lines of the window tell, ends at the end of the window
and hits the cap when lines are left. -/
theorem readLines_eq {skip : Nat} (skipped : options.skipLines = skip) (used index : Nat)
    (lines : List Bytes) :
    readLines parseJson options ((skip + used : Nat) : Int) index lines =
      (numbered index (tell parseJson options.toContentOptions (skip + used)
          (lines.take (room options.maxLines used lines.length))),
        ((skip + used + min (room options.maxLines used lines.length) lines.length : Nat) : Int),
        decide (room options.maxLines used lines.length < lines.length)) := by
  induction lines generalizing used index with
  | nil => simp [readLines, tell, numbered]
  | cons line rest ih =>
    have distance : ((skip + used : Nat) : Int) - options.skipLines = used := by
      rw [skipped]
      omega
    rw [readLines, distance]
    by_cases capped : 0 < options.maxLines ∧ options.maxLines ≤ used
    · have full : room options.maxLines used (line :: rest).length = 0 := by
        rw [room, if_pos capped.1]
        omega
      rw [if_pos capped, full]
      simp [tell, numbered]
    · have next : ((skip + used : Nat) : Int) + 1 = ((skip + (used + 1) : Nat) : Int) := by omega
      have counted : (skip + (used + 1) + min (room options.maxLines (used + 1) rest.length)
          rest.length : Nat) =
          skip + used + min (room options.maxLines (used + 1) rest.length + 1)
            (rest.length + 1) := by
        omega
      rw [if_neg capped, next, List.length_cons, room_succ capped, List.take_succ_cons, tell]
      cases turnOf parseJson options.toContentOptions line with
      | none =>
        simp only [ih, counted, Nat.add_lt_add_iff_right]
        rfl
      | some turn =>
        simp only [ih, counted, Nat.add_lt_add_iff_right, numbered]
        rfl

/-- What a parse of a file returns. -/
theorem parse_eq (parseJson : Bytes → Option Json) (path : String) (text : Bytes)
    {options : ParseOptions} {skip : Nat} (skipped : options.skipLines = skip)
    (within : skip ≤ (linesOf text).length) :
    let stop := windowEnd options.maxLines skip (linesOf text).length
    parse parseJson path (some text) options =
      ⟨numbered 0 (tell parseJson options.toContentOptions skip
        (((linesOf text).drop skip).take (stop - skip))),
        some (stop : Int), decide (stop < (linesOf text).length), ""⟩ := by
  intro stop
  have start : skipTo options.skipLines 0 (linesOf text) =
      (((skip + 0 : Nat) : Int), (linesOf text).drop skip) := by
    have reached := skipTo_eq skip 0 (linesOf text) (Nat.zero_le _)
    rw [Nat.sub_zero, Nat.min_eq_left within] at reached
    rw [skipped, Nat.add_zero]
    simpa using reached
  have left : ((linesOf text).drop skip).length = (linesOf text).length - skip := List.length_drop
  have ends : skip + 0 + min (room options.maxLines 0 ((linesOf text).drop skip).length)
      ((linesOf text).drop skip).length = stop := by
    rw [left]
    simp only [stop, windowEnd, room]
    split <;> omega
  have cut : ((linesOf text).drop skip).take
      (room options.maxLines 0 ((linesOf text).drop skip).length) =
      ((linesOf text).drop skip).take (stop - skip) := by
    rw [← ends, List.take_eq_take_iff]
    omega
  have more : decide (room options.maxLines 0 ((linesOf text).drop skip).length <
      ((linesOf text).drop skip).length) = decide (stop < (linesOf text).length) := by
    rw [decide_eq_decide, ← ends, left]
    omega
  have read :
      readLines parseJson options ((skip + 0 : Nat) : Int) 0 ((linesOf text).drop skip) = _ :=
    readLines_eq skipped 0 0 ((linesOf text).drop skip)
  rw [ends, cut, more] at read
  simp only [parse, start]
  rw [read]
  rfl

end Chitta.Transcript
