import Chitta.Queue.Lane
import Chitta.Queue.SlowLane

/-!
# The dead letters of both lanes

`write_failed_item` parses the failed line once more and reads its tool and its arguments before
it appends an entry and counts the failure; an exception of these reads is only logged. The two
lanes guard their items alike: a `QueueAckError` pauses the lane with the line in place, any other
`std::exception` goes to `write_failed_item`. The pre-pass of the fast lane reads the lines outside
that guard. So an exception leaves exactly one entry for its line when it meets the guard and the
line is not JSON, or an object whose tool is absent or a string; otherwise nothing is recorded.
-/
namespace Chitta.Queue

/-- An exception, as the guards of the lanes tell it apart. -/
inductive Raised where
  /-- A `QueueAckError`. -/
  | ack (what : String)
  /-- Any other `std::exception`. -/
  | standard (error : Thrown)
  /-- No `std::exception`. -/
  | foreign
deriving DecidableEq

/-- The failed queue and `queue_fail_count_`. -/
structure Recorder where
  /-- The entries of the failed queue. -/
  file : List DeadLetter := []
  /-- The counter. -/
  fails : Nat := 0

/-- `write_failed_item`; `appends` is the answer of `append_line_atomic`. -/
def writeFailedItem (parse : Parser) (appends : Bool) (line : Line) (error : Thrown)
    (recorder : Recorder) : Recorder :=
  match failedItem parse line error with
  | .ok letter =>
    { file := if appends then recorder.file ++ [letter] else recorder.file
      fails := recorder.fails + 1 }
  | .error _ => recorder

/-- What became of the work on a line. -/
structure Worked where
  /-- The exception that was thrown. -/
  thrown : Option Raised
  /-- The exception left the loop over the lines. -/
  escaped : Bool
  /-- The failed queue afterwards. -/
  recorder : Recorder

/-- The guard around an item, the same in `run` and `run_slow`. -/
def guarded (parse : Parser) (appends : Bool) (line : Line) :
    Except Raised Unit × Recorder → Worked
  | (.ok (), recorder) => ⟨none, false, recorder⟩
  | (.error (.ack what), recorder) => ⟨some (.ack what), true, recorder⟩
  | (.error (.standard error), recorder) =>
    ⟨some (.standard error), false, writeFailedItem parse appends line error recorder⟩
  | (.error .foreign, recorder) => ⟨some .foreign, true, recorder⟩

/-- What the fast lane meets besides the line. -/
structure FastWorld where
  /-- The applied ack ids. -/
  applied : List String
  /-- The pre-pass found a later save of the same key. -/
  superseded : Bool
  /-- How the ack of a superseded line fails, when it does. -/
  retained : Option String
  /-- Preparations, handler, handoff and ack of an item with this tool and these arguments. -/
  works : String → Json → Except Raised Unit

/-- The item of the fast lane. -/
def fastItem (parse : Parser) (world : FastWorld) (line : Line) : Except Raised Unit :=
  if acked world.applied (queueAckId parse line) then .ok ()
  else
    match readItem parse line with
    | .error error => .error (.standard error)
    | .ok (tool, args) => world.works tool args

/-- The work of `run` on a line: the pre-pass, the ack of a superseded save, the item. -/
def fastWork (parse : Parser) (appends : Bool) (world : FastWorld) (line : Line)
    (recorder : Recorder) : Worked :=
  match coalesceKey parse line with
  | .error error => ⟨some (.standard error), true, recorder⟩
  | .ok _ =>
    if world.superseded then
      match world.retained with
      | some what => ⟨some (.ack what), true, recorder⟩
      | none => ⟨none, false, recorder⟩
    else guarded parse appends line (fastItem parse world line, recorder)

/-- What the slow lane meets besides the line. -/
structure SlowWorld where
  /-- The applied ack ids. -/
  applied : List String
  /-- The file of attempt counters; none when it cannot be read. -/
  attempts : Option Json
  /-- The lookup of the endpoint, empty when there is none. -/
  looksUp : Except Raised String
  /-- `process_distill`. -/
  distills : Except Raised Unit
  /-- `AppliedAcks::record`. -/
  records : Except Raised Unit

/-- `bump_distill_attempt`: the new count. The file is replaced whatever it held. -/
def bumpDistillAttempt (attempts : Option Json) (session : String) : Except Thrown Int := do
  let counters := attempts.getD (.obj [])
  let count ← counters.valueWith Json.getInt session 0
  return count + 1

/-- The distillation of a session below the limit. Without an endpoint the rest of the batch is
put back. `clear_distill_attempt` throws on no content of its file. -/
def distill (world : SlowWorld) : Except Raised Unit := do
  let endpoint ← world.looksUp
  if endpoint = "" then return ()
  world.distills
  world.records

/-- The exception that the limit makes up for its entry. -/
def poisonPill : Thrown :=
  .runtimeError s!"distill poison-pill: exceeded {maxDistillAttempts} attempts"

/-- The item of the slow lane. An item past the limit is dead-lettered without an exception, and
nothing after its entry throws one. -/
def slowItem (parse : Parser) (appends : Bool) (world : SlowWorld) (line : Line)
    (recorder : Recorder) : Except Raised Unit × Recorder :=
  if slowAcked parse world.applied line then (.ok (), recorder)
  else
    match readTrigger parse line with
    | .error error => (.error (.standard error), recorder)
    | .ok none => (world.records, recorder)
    | .ok (some session) =>
      if session = "" then (distill world, recorder)
      else
        match bumpDistillAttempt world.attempts session with
        | .error error => (.error (.standard error), recorder)
        | .ok count =>
          if maxDistillAttempts < count then
            (.ok (), writeFailedItem parse appends line poisonPill recorder)
          else (distill world, recorder)

/-- The work of `run_slow` on a line. -/
def slowWork (parse : Parser) (appends : Bool) (world : SlowWorld) (line : Line)
    (recorder : Recorder) : Worked :=
  guarded parse appends line (slowItem parse appends world line recorder)

/-- A lane and what it meets. -/
inductive World where
  /-- The fast lane. -/
  | fast (world : FastWorld)
  /-- The slow lane. -/
  | slow (world : SlowWorld)

/-- The work of a lane on a line. -/
def work (parse : Parser) (appends : Bool) (world : World) (line : Line) (recorder : Recorder) :
    Worked :=
  match world with
  | .fast world => fastWork parse appends world line recorder
  | .slow world => slowWork parse appends world line recorder

/-- The entry describes the line: its tool and its arguments, or its first bytes when it is not
JSON. -/
def DeadLetter.Describes (parse : Parser) (line : Line) (letter : DeadLetter) : Prop :=
  match parse line with
  | none => letter.item = .raw (line.take 300)
  | some item =>
    ∃ tool args, letter.item = .parsed tool args ∧
      item.valueString "tool" "unknown" = .ok tool ∧
      item.valueJson "args" (.obj []) = .ok args

/-- Exactly one entry for the line is new, it names the exception, and the counter has gone up by
one. -/
def DeadLettered (parse : Parser) (line : Line) (raised : Raised) (before after : Recorder) :
    Prop :=
  ∃ letter : DeadLetter, letter.Describes parse line ∧
    (∀ error, raised = .standard error → letter.error = error) ∧
    after.file = before.file ++ [letter] ∧ after.fails = before.fails + 1

/-- The line gets past the reads that the lane makes outside the guard of its items. -/
def ReachesGuard (parse : Parser) (world : World) (line : Line) : Prop :=
  match world with
  | .fast _ => (coalesceKey parse line).toBool = true
  | .slow _ => True

variable {parse : Parser} {world : World} {line : Line} {recorder : Recorder} {raised : Raised}

/-- The entry that is built for a line describes it. -/
theorem failedItem_describes {error : Thrown} {letter : DeadLetter}
    (built : failedItem parse line error = .ok letter) :
    letter.Describes parse line ∧ letter.error = error := by
  unfold failedItem at built
  unfold DeadLetter.Describes
  cases parsed : parse line with
  | none =>
    simp only [parsed] at built
    obtain rfl := Except.ok.inj built
    exact ⟨rfl, rfl⟩
  | some item =>
    simp only [parsed] at built
    obtain ⟨tool, readTool, built⟩ := bind_ok built
    obtain ⟨args, readArgs, built⟩ := bind_ok built
    obtain rfl := Except.ok.inj built
    exact ⟨⟨tool, args, rfl, readTool, readArgs⟩, rfl⟩

/-- A describable line is dead-lettered. -/
theorem writeFailedItem_describable {error : Thrown} (described : describable parse line = true) :
    DeadLettered parse line (.standard error) recorder
      (writeFailedItem parse true line error recorder) := by
  have built := failedItem_isOk parse line error
  rw [described] at built
  unfold writeFailedItem
  cases entry : failedItem parse line error with
  | error inner => simp [entry, Except.toBool] at built
  | ok letter =>
    have describes := failedItem_describes entry
    refine ⟨letter, describes.1, fun other same => ?_, rfl, rfl⟩
    obtain rfl := Raised.standard.inj same
    exact describes.2

/-- Of any other line nothing is recorded. -/
theorem writeFailedItem_silent {appends : Bool} {error : Thrown}
    (undescribed : describable parse line = false) :
    writeFailedItem parse appends line error recorder = recorder := by
  have built := failedItem_isOk parse line error
  rw [undescribed] at built
  unfold writeFailedItem
  cases entry : failedItem parse line error with
  | error inner => rfl
  | ok letter => simp [entry, Except.toBool] at built

/-- An unchanged failed queue has no new entry. -/
theorem not_deadLettered_self : ¬ DeadLettered parse line raised recorder recorder := by
  rintro ⟨_, _, _, _, counted⟩
  omega

/-- What the guard records of an exception. -/
theorem guarded_deadLettered {item : Except Raised Unit × Recorder}
    (untouched : ∀ error, item.1 = .error error → item.2 = recorder)
    (threw : (guarded parse true line item).thrown = some raised) :
    DeadLettered parse line raised recorder (guarded parse true line item).recorder ↔
      (∃ error, raised = .standard error) ∧ describable parse line = true := by
  obtain ⟨result, after⟩ := item
  cases result with
  | ok done => contradiction
  | error error =>
    obtain rfl : after = recorder := untouched error rfl
    cases error with
    | ack what =>
      obtain rfl := Option.some.inj threw
      simp [guarded, not_deadLettered_self]
    | foreign =>
      obtain rfl := Option.some.inj threw
      simp [guarded, not_deadLettered_self]
    | standard error =>
      obtain rfl := Option.some.inj threw
      cases described : describable parse line with
      | true => simp [guarded, writeFailedItem_describable described]
      | false => simp [guarded, writeFailedItem_silent described, not_deadLettered_self]

/-- An item of the slow lane that ends with an exception has written no entry. -/
theorem slowItem_untouched {appends : Bool} {world : SlowWorld} (error : Raised)
    (threw : (slowItem parse appends world line recorder).1 = .error error) :
    (slowItem parse appends world line recorder).2 = recorder := by
  unfold slowItem at threw ⊢
  split
  · rfl
  · split
    · rfl
    · rfl
    · split
      · rfl
      · split
        · rfl
        · split
          · simp_all
          · rfl

/-- Of a line whose processing throws, exactly one describing entry is appended and counted
exactly when the exception is a `std::exception` other than a `QueueAckError`, the line got past
the pre-pass, and it is not JSON or an object whose tool is absent or a string. -/
theorem failed_line_dead_lettered
    (threw : (work parse true world line recorder).thrown = some raised) :
    DeadLettered parse line raised recorder (work parse true world line recorder).recorder ↔
      (∃ error, raised = .standard error) ∧ ReachesGuard parse world line ∧
        describable parse line = true := by
  cases world with
  | slow world =>
    simp only [ReachesGuard, true_and]
    exact guarded_deadLettered slowItem_untouched threw
  | fast world =>
    simp only [work, fastWork, ReachesGuard] at threw ⊢
    cases key : coalesceKey parse line with
    | error error => simp [Except.toBool, not_deadLettered_self]
    | ok key' =>
      simp only [key] at threw
      simp only [Except.toBool, true_and]
      by_cases superseded : world.superseded = true
      · simp only [superseded, ↓reduceIte] at threw ⊢
        cases retained : world.retained with
        | none => simp [retained] at threw
        | some what =>
          simp only [retained, Option.some.injEq] at threw
          subst threw
          simp [not_deadLettered_self]
      · simp only [superseded, Bool.false_eq_true, ↓reduceIte] at threw ⊢
        exact guarded_deadLettered (fun _ _ => rfl) threw

/-- An item past the limit of its session leaves exactly one describing entry, without an
exception. -/
theorem limited_dead_lettered {world : SlowWorld} {session : String} {count : Int}
    (fresh : slowAcked parse world.applied line = false)
    (trigger : readTrigger parse line = .ok (some session)) (named : session ≠ "")
    (bumped : bumpDistillAttempt world.attempts session = .ok count)
    (limited : maxDistillAttempts < count) :
    (slowWork parse true world line recorder).thrown = none ∧
      DeadLettered parse line (.standard poisonPill) recorder
        (slowWork parse true world line recorder).recorder := by
  have described : describable parse line = true := by
    cases unreadable : describable parse line with
    | true => rfl
    | false =>
      obtain ⟨thrown, unread⟩ := readItem_error parse unreadable
      rw [readTrigger, unread] at trigger
      contradiction
  have item : slowItem parse true world line recorder =
      (.ok (), writeFailedItem parse true line poisonPill recorder) := by
    simp only [slowItem, fresh, trigger, named, bumped, limited]
    rfl
  rw [slowWork, item]
  exact ⟨rfl, writeFailedItem_describable described⟩

/-- A world in which every item that is not a distill trigger is worked off. -/
def quietWorld : World := .slow
  { applied := [], attempts := none, looksUp := .ok "", distills := .ok (), records := .ok () }

/-- The line `{` is not JSON; its failure is recorded. -/
theorem failed_line_dead_lettered_unparsed :
    DeadLettered (fun _ => none) [123] (.standard .parseError) {}
      (work (fun _ => none) true quietWorld [123] {}).recorder :=
  (@failed_line_dead_lettered (fun _ => none) quietWorld [123] {} (.standard .parseError) rfl).mpr
    ⟨⟨.parseError, rfl⟩, trivial, rfl⟩

/-- The line `[]` ends its item with an exception and leaves no entry. -/
theorem array_line_dropped :
    (work (fun _ => some (.arr [])) true quietWorld [91, 93] {}).thrown =
        some (.standard (.typeError 306)) ∧
      ¬ DeadLettered (fun _ => some (.arr [])) [91, 93] (.standard (.typeError 306)) {}
        (work (fun _ => some (.arr [])) true quietWorld [91, 93] {}).recorder := by
  refine ⟨rfl, ?_⟩
  rintro ⟨letter, _, _, _, counted⟩
  have silent : (work (fun _ => some (.arr [])) true quietWorld [91, 93] {}).recorder.fails = 0 :=
    rfl
  simp [silent] at counted

end Chitta.Queue
