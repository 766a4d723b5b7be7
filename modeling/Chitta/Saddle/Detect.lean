import Mathlib.Data.List.Sort
import Mathlib.Data.List.Perm.Subperm
import Mathlib.Algebra.Order.Ring.Rat
import Chitta.Gateway.Capsule
import Chitta.Saddle.Shape

/-!
# Saddles

A saddle is a shape of commands that keeps failing in a session. The failures of a window are
gathered in groups in the order of time: a failure joins the first group with a similar shape or
opens one, and a success ends every group with a similar shape. The group that failed last is
reported when it has enough failures.

Numbers are doubles: a whole number is rounded, and so are quotients. The texts of numbers are
parameters.
-/
namespace Chitta.Saddle

open Bytes Gateway Regex Regex.Pattern HookUnicode

/-- What the detector needs from the library: doubles and the texts of values. -/
structure Env where
  /-- The operations on doubles. -/
  doubles : Doubles
  /-- `dump`. -/
  dump : Json → String
  /-- A double as a stream writes it. -/
  print : Rat → String

variable (env : Env)

/-! ## Reading values -/

/-- `get<double>`. -/
def getNumber : Json → Except Thrown Rat
  | .int value => .ok (env.doubles.ofInt value)
  | .float value => .ok value
  | _ => .error (.typeError 302)

/-- `get<unsigned>`: fractions and booleans convert, and 32 bits are kept. -/
def getUnsigned : Json → Except Thrown Nat
  | .int value => .ok (value.emod (2 ^ 32)).toNat
  | .float value => .ok ((Json.truncate value).emod (2 ^ 32)).toNat
  | .bool value => .ok (if value then 1 else 0)
  | _ => .error (.typeError 302)

/-- The values that a loop over a value visits. -/
def items : Json → List Json
  | .null => []
  | .arr values => values
  | .obj fields => fields.map (·.2)
  | other => [other]

/-- The value of a field of a row, null when it has none. -/
def fieldOf (row : Json) (key : String) : Json := (row.find key).getD .null

/-- The number of a value. -/
def numberOf (json : Json) : Rat :=
  match getNumber env json with
  | .ok value => value
  | .error _ => 0

/-- When a row happened. -/
def timeOf (row : Json) : Rat := numberOf env (fieldOf row "ts")

/-- The text of a value. -/
def textOf : Json → String
  | .str text => text
  | _ => ""

/-- The shape of the command of a row. -/
def shapeOf (row : Json) : Text := normalize (utf8 (textOf (fieldOf row "cmd_head")))

/-! ## Rows -/

/-- `truth`; texts are never empty for the library. -/
def truth : Json → Bool
  | .null => false
  | .bool value => value
  | .int value => env.doubles.ofInt value ≠ 0
  | .float value => value ≠ 0
  | .str _ => true
  | .arr values => !values.isEmpty
  | .obj fields => !fields.isEmpty

/-- A digit of any script as one of the ASCII digits. -/
def asciiDigit (c : Nat) : Nat :=
  match decimal.find? fun r => r.1 ≤ c && c ≤ r.2 with
  | some r => 48 + (c - r.1) % 10
  | none => c

/-- An ASCII digit. -/
def isAsciiDigit (c : Nat) : Bool := 48 ≤ c && c ≤ 57

/-- `^[+-]?[0-9]+(_[0-9]+)*$`. -/
def numeral : Pattern Nat :=
  all [atStart, maybe (symbol fun c => c == 43 || c == 45), more (symbol isAsciiDigit),
    many (group 1 (seq (symbol (· == 95)) (more (symbol isAsciiDigit)))), atEnd]

/-- `failed`: an unknown exit code is no failure unless the output looks like one. -/
def failed (row : Json) : Bool :=
  match fieldOf row "exit_code" with
  | .null => truth env (fieldOf row "likely_fail")
  | .bool value => value
  | .int value => Json.truncate (env.doubles.ofInt value) ≠ 0
  | .float value => Json.truncate value ≠ 0
  | .str text =>
    let number := (strip (decode (utf8 text))).map asciiDigit
    if (search numeral number).isSome then number.any fun c => 49 ≤ c && c ≤ 57 else false
  | _ => false

/-- Whether a row has the exit code of a success. -/
def succeeded (row : Json) : Bool :=
  match fieldOf row "exit_code" with
  | .int value => env.doubles.ofInt value = 0
  | .float value => value = 0
  | .bool value => !value
  | .str text => text = "0"
  | _ => false

/-- Whether a value is an outcome of a session in the window before some time. -/
def observed (session : String) (now minutes : Rat) (row : Json) : Bool :=
  row.isObject && str row "session_id" = session && str row "event" = "bash_outcome" &&
    (fieldOf row "ts").isNumber && (fieldOf row "cmd_head").isString &&
    !(timeOf env row < env.doubles.windowStart now minutes || now < timeOf env row) &&
    !(strip (decode (utf8 (textOf (fieldOf row "cmd_head"))))).isEmpty

/-- Rows in the order of time; rows of one time keep their order. -/
def inTime (rows : List Json) : List Json :=
  rows.insertionSort fun left right => timeOf env left ≤ timeOf env right

/-! ## Groups -/

/-- Failures of similar commands. -/
structure Group where
  /-- The shape of the first one. -/
  shape : Text
  /-- The failures. -/
  fails : List Json

/-- A failure joins the first group with a similar shape, or it opens a group. -/
def absorb (threshold : Rat) (shape : Text) (row : Json) : List Group → List Group
  | [] => [⟨shape, [row]⟩]
  | g :: rest =>
    if similar env.doubles g.shape shape threshold then { g with fails := g.fails ++ [row] } :: rest
    else g :: absorb threshold shape row rest

/-- The groups after a row. -/
def track (threshold : Rat) (groups : List Group) (row : Json) : List Group :=
  if failed env row then absorb env threshold (shapeOf row) row groups
  else if succeeded env row then
    groups.filter fun g => !similar env.doubles g.shape (shapeOf row) threshold
  else groups

/-- When a group failed last. -/
def Group.last (g : Group) : Rat :=
  match g.fails.getLast? with
  | some row => timeOf env row
  | none => 0

/-- The group to report so far, after another group. -/
def elect (args : Json) (threshold : Rat) (winner : Option Group) (g : Group) :
    Except Thrown (Option Group) := do
  let minFails ← args.valueWith getUnsigned "min_fails" 3
  let hasCmd := args.contains "cmd" && !(fieldOf args "cmd").isNull
  let cmd := normalize (utf8 (str args "cmd"))
  if g.fails.length < minFails || (hasCmd && !similar env.doubles g.shape cmd threshold) then
    return winner
  match winner with
  | none => return some g
  | some other => return if other.last env < g.last env then some g else winner

/-- The report of a group. -/
def report (session : String) (minutes : Rat) (g : Group) (first last : Json) : Json :=
  let err := fieldOf last "stderr_head"
  let raw :=
    if truth env err then
      match err with
      | .str text => text
      | other => env.dump other
    else "error unavailable"
  let error := encode ((collapse (decode (utf8 raw))).take 160)
  let identity := session ++ ":" ++ env.dump (fieldOf first "ts") ++ ":" ++ encode g.shape
  .object
    [("saddle_id", .str identity), ("start_ts", fieldOf first "ts"), ("end_ts", fieldOf last "ts"),
      ("n_fails", .int g.fails.length), ("escaped", .bool false),
      ("cmd_head", .str (String.ofList ((textOf (fieldOf first "cmd_head")).toList.take 80))),
      ("stderr_head", .str error), ("window_minutes", .float minutes),
      ("message", .str ("[saddle] this command shape failed " ++ toString g.fails.length ++
        "× in " ++ env.print minutes ++ " min (last: " ++ error ++
        "). Change approach or read the error before retrying."))]

/-- `^[a-zA-Z0-9_-]+$`. -/
def isSession (session : String) : Bool :=
  !(utf8 session).isEmpty && (utf8 session).all fun byte => isWord byte || byte == 45

/-- The double nearest to 0.8. -/
def fourFifths : Rat := 3602879701896397 / 4503599627370496

/-- `detect`: null when there is no saddle. -/
def detect (args : Json) : Except Thrown Json := do
  let session := str args "session_id"
  if !isSession session then return .null
  let now ← args.valueWith (getNumber env) "now_ms" 0
  let minutes ← args.valueWith (getNumber env) "minutes" 7
  let threshold ← args.valueWith (getNumber env) "similarity" fourFifths
  let listed ← args.valueJson "events" (.arr [])
  let events := inTime env ((items listed).filter (observed env session now minutes))
  let groups := events.foldl (track env threshold) []
  match ← groups.foldlM (elect env args threshold) none with
  | none => return .null
  | some winner =>
    match winner.fails.head?, winner.fails.getLast? with
    | some first, some last => return report env session minutes winner first last
    | _, _ => .error .undefined

/-! ## What the groups hold -/

/-- The failures of a group among the rows so far: the first one gave its shape, and no success of a
similar command is behind it. -/
structure Gathered (threshold : Rat) (seen : List Json) (g : Group) (first : Json)
    (others before after : List Json) : Prop where
  /-- The first failure and the others. -/
  fails : g.fails = first :: others
  /-- The shape is that of the first one. -/
  shape : g.shape = shapeOf first
  /-- Where the first failure is. -/
  seen : seen = before ++ first :: after
  /-- The others are behind it. -/
  later : others.Sublist after
  /-- They are failures of similar commands. -/
  alike : ∀ row ∈ g.fails,
    failed env row = true ∧ similar env.doubles g.shape (shapeOf row) threshold = true
  /-- Successes behind it are those of other commands. -/
  opened : ∀ row ∈ after, succeeded env row = true →
    similar env.doubles g.shape (shapeOf row) threshold = false

/-- The groups hold failures of the rows so far. -/
def Gathers (threshold : Rat) (seen : List Json) (groups : List Group) : Prop :=
  ∀ g ∈ groups, ∃ first others before after,
    Gathered env threshold seen g first others before after

variable {env} {threshold : Rat} {seen : List Json} {groups : List Group}

/-- A number that is zero has no whole part. -/
theorem truncate_zero : Json.truncate 0 = 0 := by decide

/-- The text of a zero is no failure. -/
theorem zero_passes :
    ((strip (decode (utf8 "0"))).map asciiDigit).any (fun c => 49 ≤ c && c ≤ 57) = false := by
  decide

/-- A success is no failure. -/
theorem failed_of_succeeded {row : Json} (success : succeeded env row = true) :
    failed env row = false := by
  unfold succeeded at success
  unfold failed
  cases code : fieldOf row "exit_code" with
  | null =>
    rw [code] at success
    contradiction
  | bool value =>
    rw [code] at success
    simpa using success
  | int value =>
    rw [code] at success
    have zero := of_decide_eq_true success
    simp only [zero, truncate_zero, ne_eq, not_true_eq_false, decide_false]
  | float value =>
    rw [code] at success
    have zero := of_decide_eq_true success
    simp only [zero, truncate_zero, ne_eq, not_true_eq_false, decide_false]
  | str text =>
    rw [code] at success
    have zero := of_decide_eq_true success
    simp only [zero, zero_passes, ite_self]
  | arr values => rfl
  | obj fields => rfl

/-- A row that does not end a group comes behind its failures. -/
theorem Gathered.append {g : Group} {first : Json} {others before after : List Json}
    (gathered : Gathered env threshold seen g first others before after) {row : Json}
    (kept : succeeded env row = true →
      similar env.doubles g.shape (shapeOf row) threshold = false) :
    Gathered env threshold (seen ++ [row]) g first others before (after ++ [row]) where
  fails := gathered.fails
  shape := gathered.shape
  seen := by simp [gathered.seen]
  later := gathered.later.trans (List.sublist_append_left _ _)
  alike := gathered.alike
  opened other inside success := by
    cases List.mem_append.mp inside with
    | inl early => exact gathered.opened other early success
    | inr last =>
      rw [List.mem_singleton.mp last] at success ⊢
      exact kept success

/-- A failure joins a group. -/
theorem Gathered.join {g : Group} {first : Json} {others before after : List Json}
    (gathered : Gathered env threshold seen g first others before after) {row : Json}
    (failure : failed env row = true)
    (alike : similar env.doubles g.shape (shapeOf row) threshold = true) :
    Gathered env threshold (seen ++ [row]) { g with fails := g.fails ++ [row] } first
      (others ++ [row]) before (after ++ [row]) := by
  have kept : succeeded env row = true →
      similar env.doubles g.shape (shapeOf row) threshold = false := by
    intro success
    rw [failed_of_succeeded success] at failure
    contradiction
  have behind := gathered.append kept
  refine ⟨?_, behind.shape, behind.seen, gathered.later.append (List.Sublist.refl _), ?_,
    behind.opened⟩
  · show g.fails ++ [row] = first :: (others ++ [row])
    rw [gathered.fails, List.cons_append]
  · intro other inside
    cases List.mem_append.mp inside with
    | inl early => exact gathered.alike other early
    | inr last =>
      rw [List.mem_singleton.mp last]
      exact ⟨failure, alike⟩

/-- A failure opens a group. -/
theorem Gathered.opening {shape : Text} {row : Json} (named : shape = shapeOf row)
    (failure : failed env row = true) :
    Gathered env threshold (seen ++ [row]) ⟨shape, [row]⟩ row [] seen [] where
  fails := rfl
  shape := named
  seen := rfl
  later := List.Sublist.refl _
  alike other own := by
    rw [List.mem_singleton.mp own, ← named]
    exact ⟨failure, similar_self _ _ _⟩
  opened := nofun

/-- A failure joins a group or opens one. -/
theorem Gathers.absorb (gathers : Gathers env threshold seen groups) {row : Json}
    (failure : failed env row = true) :
    Gathers env threshold (seen ++ [row]) (absorb env threshold (shapeOf row) row groups) := by
  have stays : ∀ g ∈ groups, ∃ first others before after,
      Gathered env threshold (seen ++ [row]) g first others before after := by
    intro g inside
    obtain ⟨first, others, before, after, gathered⟩ := gathers g inside
    refine ⟨first, others, before, after ++ [row], gathered.append fun success => ?_⟩
    rw [failed_of_succeeded success] at failure
    contradiction
  induction groups with
  | nil =>
    intro g inside
    rw [List.mem_singleton.mp inside]
    exact ⟨row, [], seen, [], .opening rfl failure⟩
  | cons g rest ih =>
    unfold Saddle.absorb
    split
    · rename_i alike
      intro other inside
      cases List.mem_cons.mp inside with
      | inl joined =>
        rw [joined]
        obtain ⟨first, others, before, after, gathered⟩ := gathers g List.mem_cons_self
        exact ⟨_, _, _, _, gathered.join failure alike⟩
      | inr there => exact stays other (List.mem_cons_of_mem _ there)
    · intro other inside
      cases List.mem_cons.mp inside with
      | inl same =>
        rw [same]
        exact stays g List.mem_cons_self
      | inr there =>
        exact ih (fun one here => gathers one (List.mem_cons_of_mem _ here))
          (fun one here => stays one (List.mem_cons_of_mem _ here)) other there

/-- A row is tracked. -/
theorem Gathers.track (gathers : Gathers env threshold seen groups) (row : Json) :
    Gathers env threshold (seen ++ [row]) (track env threshold groups row) := by
  unfold Saddle.track
  split
  · rename_i failure
    exact gathers.absorb failure
  · split
    · intro g inside
      obtain ⟨own, apart⟩ := List.mem_filter.mp inside
      obtain ⟨first, others, before, after, gathered⟩ := gathers g own
      refine ⟨first, others, before, after ++ [row], gathered.append fun _ => ?_⟩
      simpa using apart
    · rename_i unknown
      intro g inside
      obtain ⟨first, others, before, after, gathered⟩ := gathers g inside
      exact ⟨first, others, before, after ++ [row],
        gathered.append fun success => absurd success unknown⟩

/-- All rows are tracked. -/
theorem gathers_foldl (env : Env) (threshold : Rat) (rows : List Json) :
    Gathers env threshold rows (rows.foldl (track env threshold) []) := by
  have all : ∀ (rest seen : List Json) (groups : List Group), Gathers env threshold seen groups →
      Gathers env threshold (seen ++ rest) (rest.foldl (Saddle.track env threshold) groups) := by
    intro rest
    induction rest with
    | nil =>
      intro seen groups gathers
      rw [List.append_nil]
      exact gathers
    | cons row rest ih =>
      intro seen groups gathers
      have later := ih (seen ++ [row]) _ (gathers.track row)
      rw [List.append_assoc] at later
      exact later
  exact all rows [] [] nofun

/-! ## The group that is reported -/

/-- A group to report is one of the groups and has enough failures. -/
def Elected (args : Json) (groups : List Group) (winner : Option Group) : Prop :=
  ∀ w ∈ winner, w ∈ groups ∧
    ∃ minFails, args.valueWith getUnsigned "min_fails" 3 = .ok minFails ∧ minFails ≤ w.fails.length

/-- Another group is considered. -/
theorem Elected.elect {args : Json} {winner next : Option Group}
    (elected : Elected args groups winner) {g : Group} (inside : g ∈ groups)
    (made : elect env args threshold winner g = .ok next) : Elected args groups next := by
  unfold Saddle.elect at made
  obtain ⟨minFails, read, made⟩ := bind_ok made
  have own : ∀ short : ¬g.fails.length < minFails, Elected args groups (some g) := by
    intro short w same
    rw [← Option.some.inj same]
    exact ⟨inside, minFails, read, Nat.not_lt.mp short⟩
  dsimp only at made
  split at made
  · rw [← Except.ok.inj made]
    exact elected
  · rename_i passed
    have enough : ¬g.fails.length < minFails := by
      intro short
      apply passed
      rw [decide_eq_true short, Bool.true_or]
    split at made
    · rw [← Except.ok.inj made]
      exact own enough
    · split at made
      · rw [← Except.ok.inj made]
        exact own enough
      · rw [← Except.ok.inj made]
        exact elected

/-- All groups are considered. -/
theorem elected_foldlM {args : Json} {winner : Option Group}
    (made : groups.foldlM (elect env args threshold) none = .ok winner) :
    Elected args groups winner := by
  have all : ∀ (rest : List Group) (start : Option Group), (∀ g ∈ rest, g ∈ groups) →
      Elected args groups start → rest.foldlM (elect env args threshold) start = .ok winner →
      Elected args groups winner := by
    intro rest
    induction rest with
    | nil =>
      intro start _ elected made
      rw [← Except.ok.inj made]
      exact elected
    | cons g rest ih =>
      intro start inside elected made
      rw [List.foldlM_cons] at made
      obtain ⟨middle, first, made⟩ := bind_ok made
      exact ih middle (fun other there => inside other (List.mem_cons_of_mem _ there))
        (elected.elect (inside g List.mem_cons_self) first) made
  exact all groups none (fun _ inside => inside) nofun made

/-- What a report says: the failures are rows of the window with shapes similar to that of the first
one, there are enough of them, and no success of a similar command is later than the first. -/
structure Reported (env : Env) (threshold : Rat) (minFails : Nat) (rows : List Json)
    (fails : List Json) (first : Json) (result : Json) : Prop where
  /-- The failures are rows of the window. -/
  window : fails.Subperm rows
  /-- They are failures. -/
  failing : ∀ row ∈ fails, failed env row = true
  /-- Their shapes are similar to that of the group. -/
  alike : ∀ row ∈ fails, similar env.doubles (shapeOf first) (shapeOf row) threshold = true
  /-- The number of failures. -/
  count : result.find "n_fails" = some (.int fails.length)
  /-- The group begins with the first failure. -/
  head : fails.head? = some first
  /-- No other failure is earlier. -/
  earliest : ∀ row ∈ fails, timeOf env first ≤ timeOf env row
  /-- The report has its time. -/
  start : result.find "start_ts" = some (fieldOf first "ts")
  /-- No success of a similar command is later. -/
  opened : ∀ row ∈ rows, succeeded env row = true →
    similar env.doubles (shapeOf first) (shapeOf row) threshold = true →
    ¬timeOf env first < timeOf env row
  /-- There are enough failures. -/
  enough : minFails ≤ fails.length

/-- The rows in the order of time. -/
theorem inTime_sorted (env : Env) (rows : List Json) :
    (inTime env rows).Pairwise fun left right => timeOf env left ≤ timeOf env right := by
  have total : Std.Total fun left right : Json => timeOf env left ≤ timeOf env right :=
    ⟨fun left right => le_total _ _⟩
  have transitive : IsTrans Json fun left right => timeOf env left ≤ timeOf env right :=
    ⟨fun _ _ _ => le_trans⟩
  exact List.pairwise_insertionSort _ rows

/-- A reported group is as it says. -/
theorem reported_of_gathered {rows : List Json} {winner : Group} {first last : Json}
    {others before after : List Json}
    (gathered : Gathered env threshold (inTime env rows) winner first others before after)
    {minFails : Nat} (enough : minFails ≤ winner.fails.length) (session : String) (minutes : Rat) :
    Reported env threshold minFails rows winner.fails first
      (report env session minutes winner first last) := by
  have order := inTime_sorted env rows
  have perm : (inTime env rows).Perm rows := List.perm_insertionSort _ rows
  have part : winner.fails.Sublist (first :: after) := by
    rw [gathered.fails]
    exact gathered.later.cons_cons first
  have whole : winner.fails.Sublist (inTime env rows) := by
    rw [gathered.seen]
    exact part.trans (List.sublist_append_right before _)
  rw [gathered.seen] at order
  obtain ⟨_, behind, across⟩ := List.pairwise_append.mp order
  refine ⟨whole.subperm.trans perm.subperm, fun row inside => (gathered.alike row inside).1,
    fun row inside => ?_, ?_, ?_, fun row inside => ?_, ?_, ?_, enough⟩
  · rw [← gathered.shape]
    exact (gathered.alike row inside).2
  · simp [report, Json.find_object, Assoc.lookup]
  · rw [gathered.fails]
    rfl
  · cases List.mem_cons.mp (part.subset inside) with
    | inl same => rw [same]
    | inr later => exact (List.pairwise_cons.mp behind).1 row later
  · simp [report, Json.find_object, Assoc.lookup]
  · intro row inside success alike late
    have there : row ∈ before ++ first :: after := by
      rw [← gathered.seen]
      exact perm.mem_iff.mpr inside
    rw [← gathered.shape] at alike
    cases List.mem_append.mp there with
    | inl early =>
      exact absurd late (not_lt.mpr (across row early first List.mem_cons_self))
    | inr rest =>
      cases List.mem_cons.mp rest with
      | inl same =>
        rw [same] at late
        exact lt_irrefl _ late
      | inr later =>
        rw [gathered.opened row later success] at alike
        contradiction

/-! ## Soundness -/

/-- A whole number of 32 bits without a sign is read as it is. -/
theorem getUnsigned_int {number : Nat} (small : number < 2 ^ 32) :
    getUnsigned (.int number) = .ok number := by
  have same : (number : Int).emod (2 ^ 32) = number := Int.emod_eq_of_lt (by omega) (by omega)
  simp only [getUnsigned, same, Int.toNat_natCast]

/-- What a saddle says of the rows that were given: it is a report of failures in the window, with
the limit that was read. -/
def Sound (env : Env) (args result : Json) : Prop :=
  ∃ now minutes threshold listed minFails fails first,
    args.valueWith (getNumber env) "now_ms" 0 = .ok now ∧
    args.valueWith (getNumber env) "minutes" 7 = .ok minutes ∧
    args.valueWith (getNumber env) "similarity" fourFifths = .ok threshold ∧
    args.valueJson "events" (.arr []) = .ok listed ∧
    args.valueWith getUnsigned "min_fails" 3 = .ok minFails ∧
    Reported env threshold minFails
      ((items listed).filter (observed env (str args "session_id") now minutes)) fails first result

/-- A saddle is sound. -/
theorem sound_of_detect {args result : Json} (detected : detect env args = .ok result)
    (saddle : result ≠ .null) : Sound env args result := by
  unfold detect at detected
  dsimp only at detected
  split at detected
  · exact absurd (Except.ok.inj detected).symm saddle
  · obtain ⟨now, readNow, detected⟩ := bind_ok detected
    obtain ⟨minutes, readMinutes, detected⟩ := bind_ok detected
    obtain ⟨threshold, readThreshold, detected⟩ := bind_ok detected
    obtain ⟨listed, readListed, detected⟩ := bind_ok detected
    obtain ⟨winner, found, detected⟩ := bind_ok detected
    have elected := elected_foldlM found
    cases winner with
    | none => exact absurd (Except.ok.inj detected).symm saddle
    | some winner =>
      obtain ⟨inside, minFails, readMinFails, enough⟩ := elected winner rfl
      obtain ⟨first, others, before, after, gathered⟩ := gathers_foldl env threshold _ winner inside
      dsimp only at detected
      split at detected
      · rename_i one last head _
        have same : first = one := by
          rw [gathered.fails] at head
          exact Option.some.inj head
        subst same
        rw [← Except.ok.inj detected]
        exact ⟨now, minutes, threshold, listed, minFails, winner.fails, first, readNow, readMinutes,
          readThreshold, readListed, readMinFails, reported_of_gathered gathered enough _ _⟩
      · contradiction

/-- A saddle reports failures of similar commands in the window, with no later success of such a
command, and as many as the limit as it is read; a whole limit of 32 bits is read as it is. Shapes
do not depend on runs of digits and white space. -/
theorem saddle_sound (env : Env) :
    (∀ args result, detect env args = .ok result → result ≠ .null → Sound env args result) ∧
    (∀ (args : Json) (number : Nat), number < 2 ^ 32 → args.find "min_fails" = some (.int number) →
      args.valueWith getUnsigned "min_fails" 3 = .ok number) ∧
    ∀ raw other, Rerun [isDecimal, isSpace] (decode raw) (decode other) →
      normalize raw = normalize other := by
  refine ⟨fun args result => sound_of_detect, ?_, fun raw other => normalize_rerun⟩
  intro args number small found
  rw [Json.valueWith_of_find found, getUnsigned_int small]

/-! ## A command that fails -/

/-- Doubles without rounding, and the texts of whole numbers. -/
def exact : Env where
  doubles :=
    { ofInt := fun value => value
      quotient := fun part whole => 2 * part / whole
      windowStart := fun now minutes => now - minutes * 60000 }
  dump json :=
    match json with
    | .int value => toString value
    | _ => "null"
  print value := toString value.num

/-- A failure of a command. -/
def failure (ts : Int) (command : String) : Json :=
  .object [("session_id", .str "s"), ("event", .str "bash_outcome"), ("ts", .int ts),
    ("cmd_head", .str command), ("exit_code", .int 1)]

/-- A request about some rows. -/
def request (minFails : Json) (rows : List Json) : Json :=
  .object [("session_id", .str "s"), ("now_ms", .int 9), ("min_fails", minFails),
    ("events", .arr rows)]

/-- A command fails twice with other numbers. -/
def retried : Json := request (.int 2) [failure 3 "get /7", failure 2 "get  /12"]

/-- The number of failures that is reported. -/
def failures (detected : Except Thrown Json) : Option Json :=
  match detected with
  | .ok result => result.find "n_fails"
  | .error _ => none

/-- The two failures are a saddle. -/
theorem saddle_sound_retried : ∃ result, detect exact retried = .ok result ∧
    result.find "n_fails" = some (.int 2) ∧ Sound exact retried result := by
  have evaluated : failures (detect exact retried) = some (.int 2) := by decide +kernel
  cases detected : detect exact retried with
  | error thrown =>
    rw [detected] at evaluated
    contradiction
  | ok result =>
    rw [detected] at evaluated
    refine ⟨result, rfl, evaluated, (saddle_sound exact).1 retried result detected ?_⟩
    intro gone
    rw [gone] at evaluated
    contradiction

/-- A limit with a fraction is read without it: one failure is a saddle though it is less than one
and a half. -/
theorem saddle_below_limit : ∃ (args result : Json) (limit : Rat) (count : Nat),
    detect exact args = .ok result ∧ args.find "min_fails" = some (.float limit) ∧
      result.find "n_fails" = some (.int count) ∧ (count : Rat) < limit := by
  have evaluated : failures (detect exact (request (.float (3 / 2)) [failure 3 "get /7"])) =
      some (.int 1) := by decide +kernel
  cases detected : detect exact (request (.float (3 / 2)) [failure 3 "get /7"]) with
  | error thrown =>
    rw [detected] at evaluated
    contradiction
  | ok result =>
    rw [detected] at evaluated
    exact ⟨_, result, 3 / 2, 1, detected, by decide +kernel, evaluated, by decide +kernel⟩

end Chitta.Saddle
