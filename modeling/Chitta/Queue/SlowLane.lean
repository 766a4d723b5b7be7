import Mathlib.Logic.Function.Basic
import Chitta.Machine
import Chitta.Queue.Line

/-!
# The slow lane and its attempt counter

`run_slow` works off the distill queue. It claims and recovers its files as the fast lane does
and writes the watermark after every item. Before a session is distilled, a counter of its own is
raised durably; the counter is removed when the distillation returns. A session whose counter has
passed the limit goes to the dead-letter file instead. When no endpoint answers, the rest of the
batch goes back to the queue. Each step performs at most one operation on a file, reads aside. The
log tells, newest first, what happened to the sessions; no step reads it.
-/
namespace Chitta.Queue

/-- `kMaxDistillAttempts`. -/
def maxDistillAttempts : Nat := 3

/-- What happened to a session. -/
inductive Event where
  /-- Its counter was raised. -/
  | bumped (session : String)
  /-- An item of it was dead-lettered by the limit. -/
  | buried (session : String)
  /-- Discovery answered with an endpoint, empty when it found none. -/
  | probed (session answer : String)
  /-- An item of it was put back for want of an endpoint. -/
  | deferred (session : String)
  /-- `process_distill` was called. -/
  | started (session : String)
  /-- `process_distill` returned. -/
  | completed (session : String)
  /-- An exception left `process_distill`. -/
  | threw (session : String)
  /-- Its counter was removed. -/
  | cleared (session : String)
  /-- The process died while its counter was raised, but outside `process_distill`. -/
  | cut (session : String)
deriving DecidableEq, Repr

/-- A claimed batch of the slow lane. -/
structure SlowBatch where
  /-- Every line. -/
  lines : List Line
  /-- The lines to come. -/
  todo : List Line
  /-- The lines worked off. -/
  processed : Nat
  /-- The applied ack ids in memory. -/
  applied : List String
deriving DecidableEq, Repr

/-- The batch after the loop has read its next line. -/
def SlowBatch.next (batch : SlowBatch) (rest : List Line) : SlowBatch := { batch with todo := rest }

/-- The batch after a line is worked off. -/
def SlowBatch.count (batch : SlowBatch) : SlowBatch :=
  { batch with processed := batch.processed + 1 }

/-- The item of a trigger. -/
structure Trigger where
  /-- Its line. -/
  line : Line
  /-- Its session. -/
  session : String
deriving DecidableEq, Repr

/-- The point that the process has reached. -/
inductive SlowPc where
  /-- No process runs, or its lane has ended. -/
  | down
  /-- Recovery appends the remaining lines. -/
  | requeue (todo : List Line)
  /-- The lane waits for a queue file. -/
  | idle
  /-- The queue file is renamed and about to be read. -/
  | claimed
  /-- The item loop. -/
  | items (batch : SlowBatch)
  /-- The limit is passed; the dead-letter entry is about to be written. -/
  | burying (batch : SlowBatch) (trigger : Trigger)
  /-- The endpoint is about to be looked up. -/
  | probing (batch : SlowBatch) (trigger : Trigger)
  /-- `process_distill` runs. -/
  | distilling (batch : SlowBatch) (trigger : Trigger)
  /-- The counter is about to be removed; `limited` says that the limit was passed. -/
  | clearing (batch : SlowBatch) (trigger : Trigger) (limited : Bool)
  /-- An ack id is about to be made durable. -/
  | recording (batch : SlowBatch) (line : Line)
  /-- The watermark is about to be written. -/
  | saving (batch : SlowBatch)
  /-- The rest of the batch goes back to the queue. -/
  | deferring (todo : List Line)
  /-- The claimed file is removed, its watermark not yet. -/
  | finished
deriving DecidableEq, Repr

/-- The files of the slow lane, the process and the log. -/
structure SlowLane where
  /-- The queue file. -/
  queue : Option (List Line) := none
  /-- The claimed file. -/
  processing : Option (List Line) := none
  /-- The watermark. -/
  ckpt : Option Nat := none
  /-- The ledger of applied ack ids. -/
  acks : Option (List String) := none
  /-- The file of counters; a session without an entry has 0. -/
  attempts : String → Nat := fun _ => 0
  /-- The dead-letter file. -/
  dead : List DeadLetter := []
  /-- The local endpoint of `run_slow`. -/
  endpoint : String := ""
  /-- The process. -/
  pc : SlowPc := .down
  /-- The log, newest first. -/
  log : List Event := []

/-- What can happen next. -/
inductive SlowAction where
  /-- The fast lane hands a line over. -/
  | handoff (line : Line)
  /-- A process starts and looks for a claimed file. -/
  | start
  /-- The process performs its next operation: `running` is what the loop reads of the shutdown
  flag, `answer` is what discovery finds and `thrown` is the exception of `process_distill`. -/
  | tick (running : Bool) (answer : String) (thrown : Option Thrown)
  /-- The process dies. -/
  | crash

/-- `AppliedAcks::contains`. -/
def slowAcked (parse : Parser) (ids : List String) (line : Line) : Bool :=
  queueAckId parse line ≠ "" && decide (queueAckId parse line ∈ ids)

/-- `AppliedAcks::rotate`. -/
def slowRotate (parse : Parser) (ids : List String) (lines : List Line) : List String :=
  ids.filter fun id => id ≠ "" && decide (id ∈ lines.map (queueAckId parse))

/-- The session of a distill trigger; none for another tool. -/
def readTrigger (parse : Parser) (line : Line) : Except Thrown (Option String) := do
  let (tool, args) ← readItem parse line
  if tool ≠ "distill_trigger" then return none
  let session ← args.valueString "session_id" ""
  return some session

namespace SlowLane

/-- The lines that recovery appends. -/
def unprocessed (parse : Parser) (lane : SlowLane) : List Line :=
  ((lane.processing.getD []).drop (lane.ckpt.getD 0)).filter fun line =>
    !slowAcked parse (lane.acks.getD []) line

/-- Append a line to the queue file. -/
def push (lane : SlowLane) (line : Line) : SlowLane :=
  { lane with queue := some (lane.queue.getD [] ++ [line]) }

/-- The start of a process. -/
def start (parse : Parser) (lane : SlowLane) : SlowLane :=
  match lane.processing with
  | none => { lane with endpoint := "", pc := .idle }
  | some _ =>
    { lane with
      queue := some (lane.queue.getD [])
      endpoint := ""
      pc := .requeue (lane.unprocessed parse) }

/-- The steps after the read of a claimed file. -/
def readClaimed (parse : Parser) (lane : SlowLane) : SlowLane :=
  match lane.processing.getD [] with
  | [] => { lane with processing := none, pc := .idle }
  | lines =>
    let ids := lane.acks.getD []
    let retained := slowRotate parse ids lines
    { lane with
      acks := if retained = ids then lane.acks else some retained
      pc := .items ⟨lines, lines, 0, retained⟩ }

/-- The end of the batch. -/
def close (lane : SlowLane) (batch : SlowBatch) : SlowLane :=
  if batch.processed < batch.lines.length then
    { lane with ckpt := some batch.processed, pc := .down }
  else { lane with processing := none, pc := .finished }

/-- The dead-letter entry of a line, when it can be built. -/
def writeFailed (parse : Parser) (lane : SlowLane) (line : Line) (error : Thrown) : SlowLane :=
  match failedItem parse line error with
  | .ok letter => { lane with dead := lane.dead ++ [letter] }
  | .error _ => lane

/-- `bump_distill_attempt`, and where the new count leads. -/
def bump (lane : SlowLane) (batch : SlowBatch) (trigger : Trigger) : SlowLane :=
  let count := lane.attempts trigger.session + 1
  { lane with
    attempts := Function.update lane.attempts trigger.session count
    pc := if maxDistillAttempts < count then .burying batch trigger else .probing batch trigger
    log := .bumped trigger.session :: lane.log }

/-- The body of the item loop, up to its first operation. -/
def item (parse : Parser) (lane : SlowLane) (batch : SlowBatch) (line : Line) : SlowLane :=
  if slowAcked parse batch.applied line then { lane with pc := .items batch.count }
  else
    match readTrigger parse line with
    | .error thrown => { lane.writeFailed parse line thrown with pc := .saving batch }
    | .ok none => { lane with pc := .recording batch line }
    | .ok (some session) =>
      if session = "" then { lane with pc := .probing batch ⟨line, session⟩ }
      else lane.bump batch ⟨line, session⟩

/-- The dead-letter entry of the limit. -/
def bury (parse : Parser) (lane : SlowLane) (batch : SlowBatch) (trigger : Trigger) : SlowLane :=
  let exceeded := s!"distill poison-pill: exceeded {maxDistillAttempts} attempts"
  { lane.writeFailed parse trigger.line (.runtimeError exceeded) with
    pc := .clearing batch trigger true
    log := .buried trigger.session :: lane.log }

/-- The log after the lookup: discovery is asked only when no endpoint is configured. -/
def asked (configured session answer : String) (log : List Event) : List Event :=
  if configured = "" then .probed session answer :: log else log

/-- The local endpoint after the lookup: only discovery assigns it. -/
def lookUp (lane : SlowLane) (configured : String) (answer : String) : String :=
  if configured = "" then answer else lane.endpoint

/-- The lookup of the endpoint, and the call of `process_distill` when there is one. -/
def probe (configured : String) (lane : SlowLane) (batch : SlowBatch) (trigger : Trigger)
    (answer : String) : SlowLane :=
  let endpoint := lane.lookUp configured answer
  let log := asked configured trigger.session answer lane.log
  if endpoint = "" then
    { lane with
      endpoint
      pc := .deferring (batch.lines.drop batch.processed)
      log := .deferred trigger.session :: log }
  else
    { lane with
      endpoint
      pc := .distilling batch trigger
      log := .started trigger.session :: log }

/-- The end of `process_distill`. A session without a name has no counter. -/
def distilled (parse : Parser) (lane : SlowLane) (batch : SlowBatch) (trigger : Trigger)
    (thrown : Option Thrown) : SlowLane :=
  match thrown with
  | some error =>
    { lane.writeFailed parse trigger.line error with
      pc := .saving batch
      log := .threw trigger.session :: lane.log }
  | none =>
    { lane with
      pc := if trigger.session = "" then .recording batch trigger.line
        else .clearing batch trigger false
      log := .completed trigger.session :: lane.log }

/-- `clear_distill_attempt`, and what follows it. -/
def clear (lane : SlowLane) (batch : SlowBatch) (trigger : Trigger) (limited : Bool) : SlowLane :=
  { lane with
    attempts := Function.update lane.attempts trigger.session 0
    pc := if limited then .saving batch else .recording batch trigger.line
    log := .cleared trigger.session :: lane.log }

/-- `AppliedAcks::record`. -/
def record (parse : Parser) (lane : SlowLane) (batch : SlowBatch) (line : Line) : SlowLane :=
  let id := queueAckId parse line
  if id = "" || decide (id ∈ batch.applied) then { lane with pc := .saving batch }
  else
    let applied := id :: batch.applied
    { lane with acks := some applied, pc := .saving { batch with applied } }

/-- The next operation of the process. -/
def tick (parse : Parser) (configured : String) (lane : SlowLane) (running : Bool)
    (answer : String) (thrown : Option Thrown) : Option SlowLane :=
  match lane.pc with
  | .down => none
  | .requeue (line :: rest) => some { lane.push line with pc := .requeue rest }
  | .requeue [] => some { lane with processing := none, pc := .finished }
  | .idle =>
    match lane.queue with
    | none => none
    | some lines => some { lane with processing := some lines, queue := none, pc := .claimed }
  | .claimed => some (lane.readClaimed parse)
  | .items batch =>
    match batch.todo with
    | [] => some (lane.close batch)
    | line :: rest =>
      if running then some (lane.item parse (batch.next rest) line) else some (lane.close batch)
  | .burying batch trigger => some (lane.bury parse batch trigger)
  | .probing batch trigger => some (lane.probe configured batch trigger answer)
  | .distilling batch trigger => some (lane.distilled parse batch trigger thrown)
  | .clearing batch trigger limited => some (lane.clear batch trigger limited)
  | .recording batch line => some (lane.record parse batch line)
  | .saving batch =>
    some { lane with ckpt := some (batch.processed + 1), pc := .items batch.count }
  | .deferring (line :: rest) => some { lane.push line with pc := .deferring rest }
  | .deferring [] => some { lane with processing := none, pc := .finished }
  | .finished => some { lane with ckpt := none, pc := .idle }

/-- The session whose counter is raised, while the process is outside `process_distill`. -/
def openSession (lane : SlowLane) : Option String :=
  match lane.pc with
  | .burying _ trigger => some trigger.session
  | .probing _ trigger => if trigger.session = "" then none else some trigger.session
  | .clearing _ trigger _ => some trigger.session
  | _ => none

/-- The process dies. -/
def crash (lane : SlowLane) : SlowLane :=
  { lane with
    pc := .down
    log := match lane.openSession with
      | some session => .cut session :: lane.log
      | none => lane.log }

/-- One action. An empty line only creates the queue file. -/
def step (parse : Parser) (configured : String) (lane : SlowLane) : SlowAction → Option SlowLane
  | .handoff line =>
    if line = [] then some { lane with queue := some (lane.queue.getD []) }
    else some (lane.push line)
  | .start => if lane.pc = .down then some (lane.start parse) else none
  | .tick running answer thrown => lane.tick parse configured running answer thrown
  | .crash => some lane.crash

/-- A dead-letter entry touches no counter. -/
@[simp] theorem writeFailed_attempts (parse : Parser) (lane : SlowLane) (line : Line)
    (error : Thrown) : (lane.writeFailed parse line error).attempts = lane.attempts := by
  unfold writeFailed
  split
  · rfl
  · rfl

/-- A dead-letter entry is not logged by itself. -/
@[simp] theorem writeFailed_log (parse : Parser) (lane : SlowLane) (line : Line)
    (error : Thrown) : (lane.writeFailed parse line error).log = lane.log := by
  unfold writeFailed
  split
  · rfl
  · rfl

end SlowLane

/-- The slow lane over empty directories; `configured` is the endpoint of its configuration. -/
def slowSystem (parse : Parser) (configured : String) : Machine SlowLane SlowAction where
  initial := {}
  step := SlowLane.step parse configured

end Chitta.Queue
