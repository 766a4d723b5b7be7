import Chitta.Machine
import Chitta.Queue.Line

/-!
# The fast lane of the queue, one file operation at a time

`run` claims the queue file by renaming it, works through its lines and removes it; three
sidecar files tell a restarted process how far it came: the claimed file itself, the watermark
and the ledger of applied ack ids. `recover_processing` appends what is left to the queue. Each
step performs at most one operation on a file, reads aside, and a crash may fall between any two
steps. A failed sync or ledger write pauses the lane for good, as a crash does. Both readers
skip empty lines, so a file is the list of its other lines. The histories record what happened
to each line; no step reads them.
-/
namespace Chitta.Queue

/-- A line in a file, numbered in the order in which producers appended the lines. -/
structure Entry where
  /-- The number; only the histories use it. -/
  number : Nat
  /-- The text. -/
  line : Line
deriving DecidableEq, Repr

/-- A claimed batch inside the item loop. -/
structure Batch where
  /-- The lines the loop has left behind. -/
  before : List Entry
  /-- The lines to come, each with its mark from the coalescing pre-pass. -/
  todo : List (Entry × Bool)
  /-- The count that becomes the watermark. -/
  processed : Nat
  /-- The applied ack ids in memory. -/
  applied : List String
deriving DecidableEq, Repr

/-- The number of lines of the batch. -/
def Batch.size (batch : Batch) : Nat := batch.before.length + batch.todo.length

/-- The batch after the loop has read its next line. -/
def Batch.next (batch : Batch) (entry : Entry) (rest : List (Entry × Bool)) : Batch :=
  { batch with before := batch.before ++ [entry], todo := rest }

/-- The point the process has reached. -/
inductive Pc where
  /-- No process runs, or its lane has ended. -/
  | down
  /-- Recovery appends the remaining lines to the queue. -/
  | requeue (todo : List Entry)
  /-- Recovery has removed the claimed file and is about to remove the watermark. -/
  | recovered
  /-- The lane waits for a queue file. -/
  | idle
  /-- The queue file is renamed and about to be read. -/
  | claimed
  /-- The item loop. -/
  | items (batch : Batch)
  /-- An ack id is about to be made durable; `cadence` says that a watermark may follow. -/
  | recording (batch : Batch) (id : String) (cadence : Bool)
  /-- The watermark of the interval is about to be written. -/
  | saving (batch : Batch)
  /-- The claimed file of a finished batch is removed, its watermark not yet. -/
  | finished
deriving DecidableEq, Repr

/-- The files of the lane, the process and the histories. -/
structure Lane where
  /-- The queue file. -/
  queue : Option (List Entry) := none
  /-- The claimed file, `.processing`. -/
  processing : Option (List Entry) := none
  /-- The watermark, `.processing.ckpt`. -/
  ckpt : Option Nat := none
  /-- The ledger of applied ack ids, `.applied-acks`. -/
  acks : Option (List String) := none
  /-- The process. -/
  pc : Pc := .down
  /-- The lines that producers appended. -/
  appended : List Entry := []
  /-- The lines handed to their handler without an exception, in order. -/
  dispatched : List Entry := []
  /-- The lines skipped as superseded saves. -/
  superseded : List Entry := []
  /-- The lines written to the dead-letter file. -/
  dead : List Entry := []
  /-- Every ack id that was ever made durable. -/
  persisted : List String := []
deriving DecidableEq, Repr

/-- How a dispatched handler ends. -/
inductive Outcome where
  /-- It returns false. -/
  | accepted
  /-- It returns true, as a rejected observation does. -/
  | rejected
  /-- It throws. -/
  | failed (error : Thrown)
deriving DecidableEq, Repr

/-- What can happen next. -/
inductive Action where
  /-- A producer appends a line. -/
  | enqueue (line : Line)
  /-- A process starts and looks for a claimed file. -/
  | start
  /-- The process performs its next operation; `running` is what the loop reads of the shutdown
  flag. -/
  | tick (running : Bool) (outcome : Outcome)
  /-- The process dies. -/
  | crash
deriving DecidableEq, Repr

/-- Items between two watermarks. -/
def ckptInterval : Nat := 200

/-- The marks of the coalescing pre-pass: a save that has a later save of its key. -/
def coalesceMarks : List (Option String) → List Bool
  | [] => []
  | key :: rest => (key.isSome && decide (key ∈ rest)) :: coalesceMarks rest

/-- The keys the pre-pass reads; the first exception leaves `run`. -/
def coalesceKeys (parse : Parser) : List Line → Except Thrown (List (Option String))
  | [] => .ok []
  | line :: rest => do
    let key ← coalesceKey parse line
    let keys ← coalesceKeys parse rest
    return key :: keys

/-- The ack id of an entry. -/
def Entry.ackId (parse : Parser) (entry : Entry) : String := queueAckId parse entry.line

/-- The event key of an entry. -/
def Entry.key (parse : Parser) (entry : Entry) : Option String := saveKey parse entry.line

/-- `AppliedAcks::contains`. -/
def acked (ids : List String) (id : String) : Bool := id ≠ "" && decide (id ∈ ids)

/-- `AppliedAcks::rotate`: the ids that the batch still carries. -/
def rotate (parse : Parser) (ids : List String) (lines : List Entry) : List String :=
  ids.filter fun id => id ≠ "" && decide (id ∈ lines.map (·.ackId parse))

namespace Lane

/-- The lines of the queue file, none when it is missing. -/
def queued (lane : Lane) : List Entry := lane.queue.getD []

/-- The lines of the claimed file, none when it is missing. -/
def claimedLines (lane : Lane) : List Entry := lane.processing.getD []

/-- The watermark that recovery reads. -/
def watermark (lane : Lane) : Nat := lane.ckpt.getD 0

/-- The applied ids that recovery and the next claim read. -/
def appliedIds (lane : Lane) : List String := lane.acks.getD []

/-- The lines that recovery appends to the queue. -/
def unprocessed (parse : Parser) (lane : Lane) : List Entry :=
  (lane.claimedLines.drop lane.watermark).filter fun entry =>
    !acked lane.appliedIds (entry.ackId parse)

/-- Append a line to the queue file. -/
def push (lane : Lane) (entry : Entry) : Lane :=
  { lane with queue := some (lane.queued ++ [entry]) }

/-- A producer appends a line; an empty one only creates the file. -/
def enqueue (lane : Lane) (line : Line) : Lane :=
  if line = [] then { lane with queue := some lane.queued }
  else
    let entry : Entry := ⟨lane.appended.length, line⟩
    { lane.push entry with appended := lane.appended ++ [entry] }

/-- The start of a process, up to opening the queue file for the recovered lines. -/
def start (parse : Parser) (lane : Lane) : Lane :=
  match lane.processing with
  | none => { lane with pc := .idle }
  | some _ => { lane with queue := some lane.queued, pc := .requeue (lane.unprocessed parse) }

/-- The steps after the read of a claimed file: an empty one is removed; otherwise the ack
ledger is rotated and the pre-pass runs, whose exception ends the process. -/
def readClaimed (parse : Parser) (lane : Lane) : Lane :=
  match lane.claimedLines with
  | [] => { lane with processing := none, pc := .idle }
  | lines =>
    let retained := rotate parse lane.appliedIds lines
    let rotated := if retained = lane.appliedIds then lane.acks else some retained
    match coalesceKeys parse (lines.map (·.line)) with
    | .error _ => { lane with acks := rotated, pc := .down }
    | .ok keys =>
      { lane with
        acks := rotated
        pc := .items ⟨[], lines.zip (coalesceMarks keys), 0, retained⟩ }

/-- The end of the batch: a full count removes the claimed file, a smaller one leaves it with a
watermark and ends the lane. -/
def close (lane : Lane) (batch : Batch) : Lane :=
  if batch.processed < batch.size then
    { lane with ckpt := some batch.processed, pc := .down }
  else { lane with processing := none, pc := .finished }

/-- The count after a line, and the watermark when the interval is full. -/
def advance (batch : Batch) (cadence : Bool) : Pc :=
  let counted := { batch with processed := batch.processed + 1 }
  if cadence && counted.processed % ckptInterval = 0 then .saving counted else .items counted

/-- Where a superseded save leads: its ack id is recorded unless it has none or is recorded
already. -/
def afterSkip (parse : Parser) (batch : Batch) (entry : Entry) : Pc :=
  let id := entry.ackId parse
  if id = "" || acked batch.applied id then advance batch false else .recording batch id false

/-- A superseded save. -/
def skip (parse : Parser) (lane : Lane) (batch : Batch) (entry : Entry) : Lane :=
  { lane with superseded := lane.superseded ++ [entry], pc := afterSkip parse batch entry }

/-- An item that ended with an exception: its dead-letter entry, when it can be built, and the
count. -/
def fail (parse : Parser) (lane : Lane) (batch : Batch) (entry : Entry) (error : Thrown) :
    Lane :=
  { lane with
    dead := match failedItem parse entry.line error with
      | .ok _ => lane.dead ++ [entry]
      | .error _ => lane.dead
    pc := advance batch true }

/-- Where an item leads whose handler returned. -/
def afterSuccess (parse : Parser) (batch : Batch) (entry : Entry) (rejected : Bool) : Pc :=
  let id := entry.ackId parse
  if id ≠ "" then .recording batch id true
  -- A rejected observation goes on without the count.
  else if rejected then .items batch
  else advance batch true

/-- An item whose handler returned. -/
def succeed (parse : Parser) (lane : Lane) (batch : Batch) (entry : Entry) (rejected : Bool) :
    Lane :=
  { lane with
    dispatched := lane.dispatched ++ [entry]
    pc := afterSuccess parse batch entry rejected }

/-- The body of the item loop. -/
def item (parse : Parser) (lane : Lane) (batch : Batch) (entry : Entry) (outcome : Outcome) :
    Lane :=
  if acked batch.applied (entry.ackId parse) then { lane with pc := advance batch false }
  else
    match readItem parse entry.line with
    | .error thrown => lane.fail parse batch entry thrown
    | .ok _ =>
      match outcome with
      | .failed error => lane.fail parse batch entry error
      | .accepted => lane.succeed parse batch entry false
      | .rejected => lane.succeed parse batch entry true

/-- The next operation of the process. -/
def tick (parse : Parser) (lane : Lane) (running : Bool) (outcome : Outcome) : Option Lane :=
  match lane.pc with
  | .down => none
  | .requeue (entry :: rest) => some { lane.push entry with pc := .requeue rest }
  | .requeue [] => some { lane with processing := none, pc := .recovered }
  | .recovered => some { lane with ckpt := none, pc := .idle }
  | .idle =>
    match lane.queue with
    | none => none
    | some lines => some { lane with processing := some lines, queue := none, pc := .claimed }
  | .claimed => some (lane.readClaimed parse)
  | .items batch =>
    match batch.todo with
    | [] => some (lane.close batch)
    | (entry, superseded) :: rest =>
      if !running then some (lane.close batch)
      else if superseded then some (lane.skip parse (Batch.next batch entry rest) entry)
      else some (lane.item parse (Batch.next batch entry rest) entry outcome)
  | .recording batch id cadence =>
    let applied := id :: batch.applied
    some { lane with
      acks := some applied
      persisted := id :: lane.persisted
      pc := advance { batch with applied } cadence }
  | .saving batch => some { lane with ckpt := some batch.processed, pc := .items batch }
  | .finished => some { lane with ckpt := none, pc := .idle }

/-- One action. -/
def step (parse : Parser) (lane : Lane) : Action → Option Lane
  | .enqueue line => some (lane.enqueue line)
  | .start => if lane.pc = .down then some (lane.start parse) else none
  | .tick running outcome => lane.tick parse running outcome
  | .crash => some { lane with pc := .down }

end Lane

/-- The lane over empty directories, before its first process. -/
def system (parse : Parser) : Machine Lane Action where
  initial := {}
  step := Lane.step parse

/-! ## The pre-pass -/

/-- The pre-pass returns when it can read every line, and then one key for each. -/
theorem coalesceKeys_eq_ok {parse : Parser} {lines : List Line} {keys : List (Option String)} :
    coalesceKeys parse lines = .ok keys ↔ lines.map (coalesceKey parse) = keys.map .ok := by
  induction lines generalizing keys with
  | nil =>
    constructor
    · intro read
      rw [← Except.ok.inj read]
      rfl
    · intro same
      rw [List.map_eq_nil_iff.mp same.symm]
      rfl
  | cons line rest ih =>
    constructor
    · intro read
      obtain ⟨key, own, read⟩ := bind_ok read
      obtain ⟨others, later, read⟩ := bind_ok read
      rw [← Except.ok.inj read, List.map_cons, List.map_cons, own, ih.mp later]
    · intro same
      cases keys with
      | nil => contradiction
      | cons key others =>
        obtain ⟨own, later⟩ := List.cons.inj same
        simp only [coalesceKeys, own, ih.mpr later]
        rfl

/-- The pre-pass reads one key for each line. -/
theorem length_coalesceKeys {parse : Parser} {lines : List Line} {keys : List (Option String)}
    (read : coalesceKeys parse lines = .ok keys) : keys.length = lines.length := by
  have same := congrArg List.length (coalesceKeys_eq_ok.mp read)
  simpa using same.symm

/-- The pre-pass returns when every line can be read. -/
theorem coalesceKeys_readable {parse : Parser} {lines : List Line} :
    (∃ keys, coalesceKeys parse lines = .ok keys) ↔
      ∀ line ∈ lines, ∃ key, coalesceKey parse line = .ok key := by
  constructor
  · rintro ⟨keys, read⟩ line inside
    have reads : coalesceKey parse line ∈ lines.map (coalesceKey parse) :=
      List.mem_map_of_mem inside
    rw [coalesceKeys_eq_ok.mp read] at reads
    obtain ⟨key, _, same⟩ := List.mem_map.mp reads
    exact ⟨key, same.symm⟩
  · intro readable
    induction lines with
    | nil => exact ⟨[], rfl⟩
    | cons line rest ih =>
      obtain ⟨key, own⟩ := readable line List.mem_cons_self
      obtain ⟨keys, later⟩ := ih fun other inside => readable other (List.mem_cons_of_mem _ inside)
      refine ⟨key :: keys, ?_⟩
      simp only [coalesceKeys, own, later]
      rfl

/-- A key that the pre-pass reads is the key of one of the lines. -/
theorem coalesceKeys_mem {parse : Parser} {lines : List Line} {keys : List (Option String)}
    (read : coalesceKeys parse lines = .ok keys) (key : Option String) :
    key ∈ keys ↔ ∃ line ∈ lines, coalesceKey parse line = .ok key := by
  have same := coalesceKeys_eq_ok.mp read
  constructor
  · intro member
    have found : .ok key ∈ lines.map (coalesceKey parse) := by
      rw [same]
      exact List.mem_map_of_mem member
    exact List.mem_map.mp found
  · rintro ⟨line, member, reads⟩
    have found : (.ok key : Except Thrown _) ∈ keys.map .ok := by
      rw [← same, ← reads]
      exact List.mem_map_of_mem member
    obtain ⟨other, inside, equal⟩ := List.mem_map.mp found
    exact Except.ok.inj equal ▸ inside

/-- The pre-pass marks each key that it reads. -/
@[simp] theorem length_coalesceMarks (keys : List (Option String)) :
    (coalesceMarks keys).length = keys.length := by
  induction keys with
  | nil => rfl
  | cons key rest ih => simp [coalesceMarks, ih]

/-- The marked lines are the lines that were read. -/
theorem marked_lines {parse : Parser} {lines : List Entry} {keys : List (Option String)}
    (read : coalesceKeys parse (lines.map (·.line)) = .ok keys) :
    (lines.zip (coalesceMarks keys)).map (·.1) = lines := by
  have same : (coalesceMarks keys).length = lines.length := by
    rw [length_coalesceMarks, length_coalesceKeys read, List.length_map]
  exact List.map_fst_zip (Nat.le_of_eq same.symm)

/-! ## What a step can do -/

variable {parse : Parser} {lane next : Lane} {action : Action}

/-- The ack ledger after its rotation to a batch. -/
def Lane.rotated (parse : Parser) (lane : Lane) : Option (List String) :=
  if rotate parse lane.appliedIds lane.claimedLines = lane.appliedIds then lane.acks
  else some (rotate parse lane.appliedIds lane.claimedLines)

/-- The line that the next operation hands to its handler while the process runs: it is neither
superseded nor passed for its ack id. -/
def Lane.upcoming (parse : Parser) (lane : Lane) : Option Entry :=
  match lane.pc with
  | .items batch =>
    match batch.todo with
    | (entry, false) :: _ =>
      if acked batch.applied (entry.ackId parse) then none else some entry
    | _ => none
  | _ => none

/-- The line at the head of the item loop, when nothing passes it over. -/
theorem Lane.upcoming_items {batch : Batch} {entry : Entry} {rest : List (Entry × Bool)}
    (pc : lane.pc = .items batch) (todo : batch.todo = (entry, false) :: rest)
    (unknown : acked batch.applied (entry.ackId parse) = false) :
    lane.upcoming parse = some entry := by
  simp only [Lane.upcoming, pc, todo, unknown, Bool.false_eq_true, ↓reduceIte]

/-- An upcoming line is at the head of the item loop. -/
theorem Lane.of_upcoming {entry : Entry} (found : lane.upcoming parse = some entry) :
    ∃ batch rest, lane.pc = .items batch ∧ batch.todo = (entry, false) :: rest ∧
      acked batch.applied (entry.ackId parse) = false := by
  unfold Lane.upcoming at found
  split at found
  · rename_i batch pc
    split at found
    · rename_i head rest todo
      split at found
      · contradiction
      · rename_i unknown
        obtain rfl := Option.some.inj found
        exact ⟨batch, rest, pc, todo, by simpa using unknown⟩
    · contradiction
  · contradiction

/-- The change each action makes: one constructor for each operation, with what holds when it is
performed. -/
inductive Change (parse : Parser) (lane : Lane) : Action → Lane → Prop
  | created : Change parse lane (.enqueue []) { lane with queue := some lane.queued }
  | appended (line : Line) (nonempty : line ≠ []) :
      Change parse lane (.enqueue line) { lane.push ⟨lane.appended.length, line⟩ with
        appended := lane.appended ++ [⟨lane.appended.length, line⟩] }
  | crashed : Change parse lane .crash { lane with pc := .down }
  | started (pc : lane.pc = .down) (absent : lane.processing = none) :
      Change parse lane .start { lane with pc := .idle }
  | recovering (pc : lane.pc = .down) (file : List Entry) (found : lane.processing = some file) :
      Change parse lane .start
        { lane with queue := some lane.queued, pc := .requeue (lane.unprocessed parse) }
  | requeued (running : Bool) (outcome : Outcome) (entry : Entry) (rest : List Entry)
      (pc : lane.pc = .requeue (entry :: rest)) :
      Change parse lane (.tick running outcome) { lane.push entry with pc := .requeue rest }
  | emptied (running : Bool) (outcome : Outcome) (pc : lane.pc = .requeue []) :
      Change parse lane (.tick running outcome)
        { lane with processing := none, pc := .recovered }
  | cleared (running : Bool) (outcome : Outcome)
      (pc : lane.pc = .recovered ∨ lane.pc = .finished) :
      Change parse lane (.tick running outcome) { lane with ckpt := none, pc := .idle }
  | claimed (running : Bool) (outcome : Outcome) (lines : List Entry) (pc : lane.pc = .idle)
      (found : lane.queue = some lines) :
      Change parse lane (.tick running outcome)
        { lane with processing := some lines, queue := none, pc := .claimed }
  | discarded (running : Bool) (outcome : Outcome) (pc : lane.pc = .claimed)
      (empty : lane.claimedLines = []) :
      Change parse lane (.tick running outcome) { lane with processing := none, pc := .idle }
  | refused (running : Bool) (outcome : Outcome) (pc : lane.pc = .claimed) (thrown : Thrown)
      (bad : coalesceKeys parse (lane.claimedLines.map (·.line)) = .error thrown) :
      Change parse lane (.tick running outcome)
        { lane with acks := lane.rotated parse, pc := .down }
  | opened (running : Bool) (outcome : Outcome) (pc : lane.pc = .claimed)
      (nonempty : lane.claimedLines ≠ []) (keys : List (Option String))
      (read : coalesceKeys parse (lane.claimedLines.map (·.line)) = .ok keys) :
      Change parse lane (.tick running outcome)
        { lane with
          acks := lane.rotated parse
          pc := .items ⟨[], lane.claimedLines.zip (coalesceMarks keys), 0,
            rotate parse lane.appliedIds lane.claimedLines⟩ }
  | stopped (running : Bool) (outcome : Outcome) (batch : Batch) (pc : lane.pc = .items batch)
      (short : batch.processed < batch.size) :
      Change parse lane (.tick running outcome)
        { lane with ckpt := some batch.processed, pc := .down }
  | removed (running : Bool) (outcome : Outcome) (batch : Batch) (pc : lane.pc = .items batch)
      (full : batch.size ≤ batch.processed) :
      Change parse lane (.tick running outcome)
        { lane with processing := none, pc := .finished }
  | skipped (outcome : Outcome) (batch : Batch) (entry : Entry) (rest : List (Entry × Bool))
      (pc : lane.pc = .items batch) (todo : batch.todo = (entry, true) :: rest) :
      Change parse lane (.tick true outcome)
        (lane.skip parse (Batch.next batch entry rest) entry)
  | passed (outcome : Outcome) (batch : Batch) (entry : Entry) (rest : List (Entry × Bool))
      (pc : lane.pc = .items batch) (todo : batch.todo = (entry, false) :: rest)
      (known : acked batch.applied (entry.ackId parse) = true) :
      Change parse lane (.tick true outcome)
        { lane with pc := Lane.advance (Batch.next batch entry rest) false }
  | failed (outcome : Outcome) (batch : Batch) (entry : Entry) (rest : List (Entry × Bool))
      (pc : lane.pc = .items batch) (todo : batch.todo = (entry, false) :: rest)
      (unknown : acked batch.applied (entry.ackId parse) = false) (thrown : Thrown)
      (cause : readItem parse entry.line = .error thrown ∨ outcome = .failed thrown) :
      Change parse lane (.tick true outcome)
        (lane.fail parse (Batch.next batch entry rest) entry thrown)
  | succeeded (outcome : Outcome) (batch : Batch) (entry : Entry) (rest : List (Entry × Bool))
      (rejected : Bool) (pc : lane.pc = .items batch) (todo : batch.todo = (entry, false) :: rest)
      (unknown : acked batch.applied (entry.ackId parse) = false) (item : String × Json)
      (read : readItem parse entry.line = .ok item)
      (returned : outcome = if rejected then .rejected else .accepted) :
      Change parse lane (.tick true outcome)
        (lane.succeed parse (Batch.next batch entry rest) entry rejected)
  | recorded (running : Bool) (outcome : Outcome) (batch : Batch) (id : String) (cadence : Bool)
      (pc : lane.pc = .recording batch id cadence) :
      Change parse lane (.tick running outcome)
        { lane with
          acks := some (id :: batch.applied)
          persisted := id :: lane.persisted
          pc := Lane.advance { batch with applied := id :: batch.applied } cadence }
  | saved (running : Bool) (outcome : Outcome) (batch : Batch) (pc : lane.pc = .saving batch) :
      Change parse lane (.tick running outcome)
        { lane with ckpt := some batch.processed, pc := .items batch }

/-- The end of the item loop stops the lane or removes the claimed file. -/
theorem close_change (running : Bool) (outcome : Outcome) {batch : Batch}
    (pc : lane.pc = .items batch) :
    Change parse lane (.tick running outcome) (lane.close batch) := by
  unfold Lane.close
  split
  · rename_i short
    exact .stopped running outcome batch pc short
  · rename_i full
    exact .removed running outcome batch pc (Nat.le_of_not_lt full)

/-- A line of the item loop that is not superseded. -/
theorem item_change (outcome : Outcome) {batch : Batch} {entry : Entry}
    {rest : List (Entry × Bool)} (pc : lane.pc = .items batch)
    (todo : batch.todo = (entry, false) :: rest) :
    Change parse lane (.tick true outcome)
      (lane.item parse (Batch.next batch entry rest) entry outcome) := by
  unfold Lane.item
  cases known : acked (Batch.next batch entry rest).applied (entry.ackId parse) with
  | true => exact .passed outcome batch entry rest pc todo known
  | false =>
    simp only [Bool.false_eq_true, ↓reduceIte]
    cases read : readItem parse entry.line with
    | error thrown => exact .failed outcome batch entry rest pc todo known thrown (.inl read)
    | ok item =>
      cases outcome with
      | failed error => exact .failed _ batch entry rest pc todo known error (.inr rfl)
      | accepted => exact .succeeded _ batch entry rest false pc todo known item read rfl
      | rejected => exact .succeeded _ batch entry rest true pc todo known item read rfl

/-- The read of a claimed file. -/
theorem readClaimed_change (running : Bool) (outcome : Outcome) (pc : lane.pc = .claimed) :
    Change parse lane (.tick running outcome) (lane.readClaimed parse) := by
  unfold Lane.readClaimed
  cases lines : lane.claimedLines with
  | nil => exact .discarded running outcome pc lines
  | cons first others =>
    have nonempty : lane.claimedLines ≠ [] := by simp [lines]
    dsimp only
    rw [← lines]
    cases read : coalesceKeys parse (lane.claimedLines.map (·.line)) with
    | error thrown => exact .refused running outcome pc thrown read
    | ok keys => exact .opened running outcome pc nonempty keys read

/-- Every step is one of these changes. -/
theorem step_change (taken : lane.step parse action = some next) :
    Change parse lane action next := by
  cases action with
  | enqueue line =>
    simp only [Lane.step, Option.some.injEq] at taken
    subst taken
    unfold Lane.enqueue
    split
    · rename_i empty
      exact empty ▸ .created
    · rename_i nonempty
      exact .appended line nonempty
  | crash =>
    simp only [Lane.step, Option.some.injEq] at taken
    exact taken ▸ .crashed
  | start =>
    simp only [Lane.step] at taken
    split at taken
    · rename_i pc
      obtain rfl := Option.some.inj taken
      cases found : lane.processing with
      | none =>
        have same : lane.start parse = { lane with pc := .idle } := by
          simp only [Lane.start, found]
        exact same ▸ .started pc found
      | some file =>
        have same : lane.start parse = { lane with
            queue := some lane.queued, pc := .requeue (lane.unprocessed parse) } := by
          simp only [Lane.start, found]
        exact same ▸ .recovering pc file found
    · contradiction
  | tick running outcome =>
    simp only [Lane.step, Lane.tick] at taken
    cases pc : lane.pc with
    | down => simp [pc] at taken
    | requeue todo =>
      cases todo with
      | nil =>
        simp only [pc, Option.some.injEq] at taken
        exact taken ▸ .emptied running outcome pc
      | cons entry rest =>
        simp only [pc, Option.some.injEq] at taken
        exact taken ▸ .requeued running outcome entry rest pc
    | recovered =>
      simp only [pc, Option.some.injEq] at taken
      exact taken ▸ .cleared running outcome (.inl pc)
    | finished =>
      simp only [pc, Option.some.injEq] at taken
      exact taken ▸ .cleared running outcome (.inr pc)
    | idle =>
      cases queue : lane.queue with
      | none => simp [pc, queue] at taken
      | some lines =>
        simp only [pc, queue, Option.some.injEq] at taken
        exact taken ▸ .claimed running outcome lines pc queue
    | claimed =>
      simp only [pc, Option.some.injEq] at taken
      exact taken ▸ readClaimed_change running outcome pc
    | recording batch id cadence =>
      simp only [pc, Option.some.injEq] at taken
      exact taken ▸ .recorded running outcome batch id cadence pc
    | saving batch =>
      simp only [pc, Option.some.injEq] at taken
      exact taken ▸ .saved running outcome batch pc
    | items batch =>
      simp only [pc] at taken
      cases todo : batch.todo with
      | nil =>
        simp only [todo, Option.some.injEq] at taken
        exact taken ▸ close_change running outcome pc
      | cons head rest =>
        obtain ⟨entry, superseded⟩ := head
        simp only [todo] at taken
        cases running with
        | false =>
          simp only [Bool.not_false, ↓reduceIte, Option.some.injEq] at taken
          exact taken ▸ close_change false outcome pc
        | true =>
          cases superseded with
          | true =>
            simp only [Bool.not_true, Bool.false_eq_true, ↓reduceIte, Option.some.injEq] at taken
            exact taken ▸ .skipped outcome batch entry rest pc todo
          | false =>
            simp only [Bool.not_true, Bool.false_eq_true, ↓reduceIte, Option.some.injEq] at taken
            exact taken ▸ item_change outcome pc todo

end Chitta.Queue
