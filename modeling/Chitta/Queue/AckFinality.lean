import Mathlib.Tactic.Set
import Chitta.Queue.Lane

/-!
# Applied acks are final

The ack ledger forgets every id that the current batch does not carry. What is forgotten can
not come back: the ids of queued lines are never durable, and a durable id of a claimed line is
still in the ledger, so the recovery filters the line and the item loop passes it. The
condition is that producers do not reuse an ack id.
-/
namespace Chitta.Queue

variable {parse : Parser} {lane after : Lane} {action : Action}

/-- Producers do not reuse an ack id. -/
def FreshAcks (parse : Parser) (lane : Lane) : Action → Prop
  | .enqueue line => queueAckId parse line = "" ∨
      ∀ entry ∈ lane.appended, entry.ackId parse ≠ queueAckId parse line
  | _ => True

instance (parse : Parser) (lane : Lane) :
    (action : Action) → Decidable (FreshAcks parse lane action)
  | .enqueue _ => inferInstanceAs (Decidable (_ ∨ _))
  | .start | .tick .. | .crash => .isTrue trivial

/-- The lines of a batch, in the order of the claimed file. -/
def Batch.lines (batch : Batch) : List Entry := batch.before ++ batch.todo.map (·.1)

/-- The batch in memory is the claimed file, and its applied ids are those of the ledger. -/
structure Holds (lane : Lane) (batch : Batch) : Prop where
  /-- The lines are those of the claimed file. -/
  lines : lane.claimedLines = batch.lines
  /-- The applied ids are those of the ledger file. -/
  applied : lane.appliedIds = batch.applied

/-- No queued line carries the ack id of a claimed line. -/
def Apart (parse : Parser) (lane : Lane) : Prop :=
  ∀ entry ∈ lane.queued, ∀ other ∈ lane.claimedLines, entry.ackId parse ≠ "" →
    entry.ackId parse ≠ other.ackId parse

/-- What holds at a point of the process. -/
def Located (parse : Parser) (lane : Lane) : Pc → Prop
  | .down => True
  | .requeue todo => ∀ entry ∈ todo, entry ∈ lane.claimedLines ∧ entry.ackId parse ∉ lane.persisted
  | .recovered | .idle | .finished => lane.processing = none
  | .claimed => Apart parse lane
  | .items batch | .saving batch => Holds lane batch ∧ Apart parse lane
  | .recording batch id _ => Holds lane batch ∧ Apart parse lane ∧ id ≠ "" ∧
      ∃ entry ∈ batch.before, entry.ackId parse = id

/-- The invariant of the runs without reused ack ids. -/
structure Tracked (parse : Parser) (lane : Lane) : Prop where
  /-- Every line in a file was appended by a producer. -/
  known : ∀ entry, entry ∈ lane.queued ∨ entry ∈ lane.claimedLines → entry ∈ lane.appended
  /-- An ack id belongs to one line. -/
  unique : ∀ entry ∈ lane.appended, ∀ other ∈ lane.appended, entry.ackId parse ≠ "" →
    entry.ackId parse = other.ackId parse → entry = other
  /-- The empty id is never recorded. -/
  named : "" ∉ lane.persisted
  /-- A durable id belongs to a line. -/
  owned : ∀ id ∈ lane.persisted, ∃ entry ∈ lane.appended, entry.ackId parse = id
  /-- The ledger holds durable ids only. -/
  durable : ∀ id ∈ lane.appliedIds, id ∈ lane.persisted
  /-- The ids of queued lines are not durable. -/
  queue : ∀ entry ∈ lane.queued, entry.ackId parse ∉ lane.persisted
  /-- The durable ids of claimed lines are still in the ledger. -/
  claimed : ∀ entry ∈ lane.claimedLines, entry.ackId parse ∈ lane.persisted →
    entry.ackId parse ∈ lane.appliedIds
  /-- The process is where its files say. -/
  located : Located parse lane lane.pc

/-- A step that leaves the lines in the files, the producers' lines and the durable ids alone. -/
def SameFiles (lane after : Lane) : Prop :=
  after.queued = lane.queued ∧ after.processing = lane.processing ∧
    after.appliedIds = lane.appliedIds ∧ after.appended = lane.appended ∧
    after.persisted = lane.persisted

/-- A point of the process depends on the files only. -/
theorem Located.congr {pc : Pc} (located : Located parse lane pc) (files : SameFiles lane after) :
    Located parse after pc := by
  obtain ⟨queue, processing, applied, _, persisted⟩ := files
  have lines : after.claimedLines = lane.claimedLines := by
    rw [Lane.claimedLines, Lane.claimedLines, processing]
  have apart : Apart parse lane → Apart parse after := by
    intro before
    rw [Apart, queue, lines]
    exact before
  have holds {batch : Batch} (before : Holds lane batch) : Holds after batch :=
    ⟨lines.trans before.lines, applied.trans before.applied⟩
  cases pc with
  | down => trivial
  | requeue todo =>
    rw [Located, lines, persisted]
    exact located
  | recovered => exact processing.trans located
  | idle => exact processing.trans located
  | finished => exact processing.trans located
  | claimed => exact apart located
  | items batch => exact ⟨holds located.1, apart located.2⟩
  | saving batch => exact ⟨holds located.1, apart located.2⟩
  | recording batch id cadence => exact ⟨holds located.1, apart located.2.1, located.2.2⟩

/-- Such a step keeps the invariant when it reaches a point where its files may be. -/
theorem Tracked.move (tracked : Tracked parse lane) (files : SameFiles lane after)
    (located : Located parse lane after.pc) : Tracked parse after := by
  have moved := located.congr files
  obtain ⟨queue, processing, applied, appended, persisted⟩ := files
  have lines : after.claimedLines = lane.claimedLines := by
    rw [Lane.claimedLines, Lane.claimedLines, processing]
  constructor
  · rw [queue, lines, appended]
    exact tracked.known
  · rw [appended]
    exact tracked.unique
  · rw [persisted]
    exact tracked.named
  · rw [persisted, appended]
    exact tracked.owned
  · rw [applied, persisted]
    exact tracked.durable
  · rw [queue, persisted]
    exact tracked.queue
  · rw [lines, applied, persisted]
    exact tracked.claimed
  · exact moved

/-- The batch after its next line still has the same lines. -/
theorem Batch.lines_next {batch : Batch} {entry : Entry} {superseded : Bool}
    {rest : List (Entry × Bool)} (todo : batch.todo = (entry, superseded) :: rest) :
    (batch.next entry rest).lines = batch.lines := by
  simp [Batch.lines, Batch.next, todo]

/-- The item loop moves on within the same files. -/
theorem Holds.read {batch : Batch} (holds : Holds lane batch) {entry : Entry} {superseded : Bool}
    {rest : List (Entry × Bool)} (todo : batch.todo = (entry, superseded) :: rest) :
    Holds lane (batch.next entry rest) :=
  ⟨holds.lines.trans (Batch.lines_next todo).symm, holds.applied⟩

/-- After a count the process is in the item loop or about to write the watermark. -/
theorem advance_cases (batch : Batch) (cadence : Bool) :
    Lane.advance batch cadence = .saving { batch with processed := batch.processed + 1 } ∨
    Lane.advance batch cadence = .items { batch with processed := batch.processed + 1 } := by
  unfold Lane.advance
  dsimp only
  split
  · exact .inl rfl
  · exact .inr rfl

/-- A count leaves the process where the files say. -/
theorem Located.advance {batch : Batch} (holds : Holds lane batch) (apart : Apart parse lane)
    (cadence : Bool) : Located parse lane (Lane.advance batch cadence) := by
  have counted : Holds lane { batch with processed := batch.processed + 1 } :=
    ⟨holds.lines, holds.applied⟩
  cases advance_cases batch cadence with
  | inl saving =>
    rw [saving]
    exact ⟨counted, apart⟩
  | inr items =>
    rw [items]
    exact ⟨counted, apart⟩

/-- An appended line keeps the invariant. -/
theorem Tracked.appended (tracked : Tracked parse lane) {line : Line}
    (fresh : FreshAcks parse lane (.enqueue line)) :
    Tracked parse { lane.push ⟨lane.appended.length, line⟩ with
      appended := lane.appended ++ [⟨lane.appended.length, line⟩] } := by
  set added : Entry := ⟨lane.appended.length, line⟩ with defined
  have id : added.ackId parse = queueAckId parse line := rfl
  have apart : ∀ entry ∈ lane.appended, added.ackId parse ≠ "" →
      added.ackId parse ≠ entry.ackId parse := by
    intro entry member named same
    cases fresh with
    | inl absent => exact named (id.trans absent)
    | inr distinct => exact distinct entry member (same.symm.trans id)
  have forgotten : added.ackId parse ∉ lane.persisted := by
    intro persisted
    obtain ⟨owner, member, same⟩ := tracked.owned _ persisted
    have named : added.ackId parse ≠ "" := fun empty => tracked.named (empty ▸ persisted)
    exact apart owner member named same.symm
  have distant : Apart parse lane → Apart parse { lane.push added with
      appended := lane.appended ++ [added] } := by
    intro before entry queued other file named
    cases List.mem_append.mp queued with
    | inl old => exact before entry old other file named
    | inr new =>
      obtain rfl := List.mem_singleton.mp new
      exact apart other (tracked.known other (.inr file)) named
  constructor
  · intro entry member
    cases member with
    | inl queued =>
      cases List.mem_append.mp queued with
      | inl old => exact List.mem_append_left _ (tracked.known entry (.inl old))
      | inr new => exact List.mem_append_right _ new
    | inr file => exact List.mem_append_left _ (tracked.known entry (.inr file))
  · intro entry member other others named same
    cases List.mem_append.mp member with
    | inl old =>
      cases List.mem_append.mp others with
      | inl older => exact tracked.unique entry old other older named same
      | inr new =>
        obtain rfl := List.mem_singleton.mp new
        exact absurd same.symm (apart entry old (same ▸ named))
    | inr new =>
      obtain rfl := List.mem_singleton.mp new
      cases List.mem_append.mp others with
      | inl old => exact absurd same (apart other old named)
      | inr newer => exact (List.mem_singleton.mp newer).symm
  · exact tracked.named
  · intro id persisted
    obtain ⟨owner, member, same⟩ := tracked.owned id persisted
    exact ⟨owner, List.mem_append_left _ member, same⟩
  · exact tracked.durable
  · intro entry queued
    cases List.mem_append.mp queued with
    | inl old => exact tracked.queue entry old
    | inr new => exact List.mem_singleton.mp new ▸ forgotten
  · exact tracked.claimed
  · have located := tracked.located
    change Located parse _ lane.pc
    cases pc : lane.pc <;> rw [pc] at located
    case down => trivial
    case requeue => exact located
    case recovered => exact located
    case idle => exact located
    case finished => exact located
    case claimed => exact distant located
    case items => exact ⟨⟨located.1.lines, located.1.applied⟩, distant located.2⟩
    case saving => exact ⟨⟨located.1.lines, located.1.applied⟩, distant located.2⟩
    case recording =>
      exact ⟨⟨located.1.lines, located.1.applied⟩, distant located.2.1, located.2.2⟩

/-- Appending a recovered line to the queue keeps the invariant. -/
theorem Tracked.requeued (tracked : Tracked parse lane) {entry : Entry} {rest : List Entry}
    (pc : lane.pc = .requeue (entry :: rest)) :
    Tracked parse { lane.push entry with pc := .requeue rest } := by
  have located := tracked.located
  rw [pc] at located
  obtain ⟨claimed, forgotten⟩ := located entry List.mem_cons_self
  constructor
  · intro other member
    cases member with
    | inl queued =>
      cases List.mem_append.mp queued with
      | inl old => exact tracked.known other (.inl old)
      | inr new => exact tracked.known other (.inr (List.mem_singleton.mp new ▸ claimed))
    | inr file => exact tracked.known other (.inr file)
  · exact tracked.unique
  · exact tracked.named
  · exact tracked.owned
  · exact tracked.durable
  · intro other queued
    cases List.mem_append.mp queued with
    | inl old => exact tracked.queue other old
    | inr new => exact List.mem_singleton.mp new ▸ forgotten
  · exact tracked.claimed
  · exact fun other member => located other (List.mem_cons_of_mem _ member)

/-- Removing the claimed file keeps the invariant. -/
theorem Tracked.removed (tracked : Tracked parse lane) {pc : Pc}
    (place : pc = .recovered ∨ pc = .idle ∨ pc = .finished) :
    Tracked parse { lane with processing := none, pc } := by
  constructor
  · intro entry member
    cases member with
    | inl queued => exact tracked.known entry (.inl queued)
    | inr file => contradiction
  · exact tracked.unique
  · exact tracked.named
  · exact tracked.owned
  · exact tracked.durable
  · exact tracked.queue
  · intro entry file
    contradiction
  · rcases place with rfl | rfl | rfl <;> rfl

/-- Renaming the queue file keeps the invariant. -/
theorem Tracked.claims (tracked : Tracked parse lane) {lines : List Entry}
    (found : lane.queue = some lines) :
    Tracked parse { lane with processing := some lines, queue := none, pc := .claimed } := by
  have queued : lane.queued = lines := by rw [Lane.queued, found]; rfl
  constructor
  · intro entry member
    cases member with
    | inl empty => contradiction
    | inr file => exact tracked.known entry (.inl (queued ▸ file))
  · exact tracked.unique
  · exact tracked.named
  · exact tracked.owned
  · exact tracked.durable
  · intro entry empty
    contradiction
  · intro entry file persisted
    exact absurd persisted (tracked.queue entry (queued ▸ file))
  · intro entry empty
    contradiction

/-- The ledger after the rotation holds the ids of the batch. -/
theorem appliedIds_rotated (parse : Parser) (lane : Lane) (pc : Pc) :
    Lane.appliedIds { lane with acks := lane.rotated parse, pc } =
      rotate parse lane.appliedIds lane.claimedLines := by
  rw [Lane.appliedIds, Lane.rotated]
  split
  · rename_i same
    exact same.symm
  · rfl

/-- Rotating the ledger keeps the invariant: the ids it forgets are on no claimed line. -/
theorem Tracked.rotates (tracked : Tracked parse lane) {pc : Pc}
    (located : Located parse { lane with acks := lane.rotated parse, pc } pc) :
    Tracked parse { lane with acks := lane.rotated parse, pc } := by
  have applied := appliedIds_rotated parse lane pc
  constructor
  · exact tracked.known
  · exact tracked.unique
  · exact tracked.named
  · exact tracked.owned
  · intro id member
    rw [applied] at member
    exact tracked.durable id (List.mem_filter.mp member).1
  · exact tracked.queue
  · intro entry file persisted
    have kept := tracked.claimed entry file persisted
    have named : entry.ackId parse ≠ "" := fun empty => tracked.named (empty ▸ persisted)
    have carried : entry.ackId parse ∈ lane.claimedLines.map (·.ackId parse) :=
      List.mem_map_of_mem file
    rw [applied, rotate, List.mem_filter]
    exact ⟨kept, by simp only [named, ne_eq, not_false_eq_true, decide_true, carried,
      Bool.and_self]⟩
  · exact located

/-- Recording the id of a line the loop has left behind keeps the invariant. -/
theorem Tracked.recorded (tracked : Tracked parse lane) {batch : Batch} {id : String}
    {cadence : Bool} (pc : lane.pc = .recording batch id cadence) :
    Tracked parse { lane with
      acks := some (id :: batch.applied)
      persisted := id :: lane.persisted
      pc := Lane.advance { batch with applied := id :: batch.applied } cadence } := by
  have located := tracked.located
  rw [pc] at located
  obtain ⟨holds, apart, named, source, member, same⟩ := located
  have file : source ∈ lane.claimedLines := by
    rw [holds.lines]
    exact List.mem_append_left _ member
  constructor
  · exact tracked.known
  · exact tracked.unique
  · intro empty
    cases List.mem_cons.mp empty with
    | inl new => exact named new.symm
    | inr old => exact tracked.named old
  · intro other persisted
    cases List.mem_cons.mp persisted with
    | inl new => exact ⟨source, tracked.known source (.inr file), same.trans new.symm⟩
    | inr old => exact tracked.owned other old
  · intro other recorded
    cases List.mem_cons.mp recorded with
    | inl new => exact List.mem_cons.mpr (.inl new)
    | inr old => exact List.mem_cons_of_mem _ (tracked.durable other (holds.applied ▸ old))
  · intro entry queued persisted
    cases List.mem_cons.mp persisted with
    | inl new => exact apart entry queued source file (new ▸ named) (new.trans same.symm)
    | inr old => exact tracked.queue entry queued old
  · intro entry line persisted
    cases List.mem_cons.mp persisted with
    | inl new => exact List.mem_cons.mpr (.inl new)
    | inr old =>
      have kept := tracked.claimed entry line old
      rw [holds.applied] at kept
      exact List.mem_cons_of_mem _ kept
  · have kept : Holds { lane with
        acks := some (id :: batch.applied)
        persisted := id :: lane.persisted
        pc := Lane.advance { batch with applied := id :: batch.applied } cadence }
        { batch with applied := id :: batch.applied } := ⟨holds.lines, rfl⟩
    exact Located.advance kept apart cadence

/-- Every line of the item loop leaves its batch where the files say. -/
theorem Tracked.read (tracked : Tracked parse lane) {batch : Batch} {entry : Entry}
    {superseded : Bool} {rest : List (Entry × Bool)} (pc : lane.pc = .items batch)
    (todo : batch.todo = (entry, superseded) :: rest) :
    Holds lane (batch.next entry rest) ∧ Apart parse lane := by
  have located := tracked.located
  rw [pc] at located
  exact ⟨located.1.read todo, located.2⟩

/-- The id that is about to be recorded is that of the line the loop has just left. -/
theorem Located.recording {batch : Batch} {entry : Entry} {rest : List (Entry × Bool)}
    (holds : Holds lane (batch.next entry rest)) (apart : Apart parse lane)
    (named : entry.ackId parse ≠ "") (cadence : Bool) :
    Located parse lane (.recording (batch.next entry rest) (entry.ackId parse) cadence) := by
  refine ⟨holds, apart, named, entry, ?_, rfl⟩
  exact List.mem_append_right _ (List.mem_singleton_self entry)

/-- The lines that recovery appends are claimed and their ids are not durable. -/
theorem Tracked.unprocessed (tracked : Tracked parse lane) :
    Located parse lane (.requeue (lane.unprocessed parse)) := by
  intro entry member
  rw [Lane.unprocessed, List.mem_filter] at member
  have claimed : entry ∈ lane.claimedLines := List.mem_of_mem_drop member.1
  refine ⟨claimed, fun persisted => ?_⟩
  have kept := tracked.claimed entry claimed persisted
  have named : entry.ackId parse ≠ "" := fun empty => tracked.named (empty ▸ persisted)
  simp [acked, named, kept] at member

/-- A superseded save leaves the process where the files say. -/
theorem Located.afterSkip {batch : Batch} {entry : Entry} {rest : List (Entry × Bool)}
    (holds : Holds lane (batch.next entry rest)) (apart : Apart parse lane) :
    Located parse lane (Lane.afterSkip parse (batch.next entry rest) entry) := by
  unfold Lane.afterSkip
  dsimp only
  split
  · exact Located.advance holds apart false
  · rename_i unknown
    have named : entry.ackId parse ≠ "" := fun empty => unknown (by simp [empty])
    exact Located.recording holds apart named false

/-- A dispatched line leaves the process where the files say. -/
theorem Located.afterSuccess {batch : Batch} {entry : Entry} {rest : List (Entry × Bool)}
    (holds : Holds lane (batch.next entry rest)) (apart : Apart parse lane) (rejected : Bool) :
    Located parse lane (Lane.afterSuccess parse (batch.next entry rest) entry rejected) := by
  unfold Lane.afterSuccess
  dsimp only
  split
  · rename_i named
    exact Located.recording holds apart named true
  · split
    · exact ⟨holds, apart⟩
    · exact Located.advance holds apart true

/-- Every step of a producer with fresh ids and of the process keeps the invariant. -/
theorem Tracked.step (tracked : Tracked parse lane) (fresh : FreshAcks parse lane action)
    (change : Change parse lane action after) : Tracked parse after := by
  have located := tracked.located
  cases change with
  | created => exact tracked.move ⟨rfl, rfl, rfl, rfl, rfl⟩ located
  | appended line nonempty => exact tracked.appended fresh
  | crashed => exact tracked.move ⟨rfl, rfl, rfl, rfl, rfl⟩ trivial
  | started pc absent => exact tracked.move ⟨rfl, rfl, rfl, rfl, rfl⟩ absent
  | recovering pc file found =>
    exact tracked.move ⟨rfl, rfl, rfl, rfl, rfl⟩ tracked.unprocessed
  | requeued running outcome entry rest pc => exact tracked.requeued pc
  | emptied running outcome pc => exact tracked.removed (.inl rfl)
  | cleared running outcome pc =>
    have absent : lane.processing = none := by
      cases pc with
      | inl recovered =>
        rw [recovered] at located
        exact located
      | inr finished =>
        rw [finished] at located
        exact located
    exact tracked.move ⟨rfl, rfl, rfl, rfl, rfl⟩ absent
  | claimed running outcome lines pc found => exact tracked.claims found
  | discarded running outcome pc empty => exact tracked.removed (.inr (.inl rfl))
  | refused running outcome pc thrown bad => exact tracked.rotates trivial
  | opened running outcome pc nonempty keys read =>
    rw [pc] at located
    apply tracked.rotates
    exact ⟨⟨(marked_lines read).symm, appliedIds_rotated parse lane _⟩, located⟩
  | stopped running outcome batch pc short => exact tracked.move ⟨rfl, rfl, rfl, rfl, rfl⟩ trivial
  | removed running outcome batch pc full => exact tracked.removed (.inr (.inr rfl))
  | skipped outcome batch entry rest pc todo =>
    obtain ⟨holds, apart⟩ := tracked.read pc todo
    exact tracked.move ⟨rfl, rfl, rfl, rfl, rfl⟩ (Located.afterSkip holds apart)
  | passed outcome batch entry rest pc todo known =>
    obtain ⟨holds, apart⟩ := tracked.read pc todo
    exact tracked.move ⟨rfl, rfl, rfl, rfl, rfl⟩ (Located.advance holds apart false)
  | failed outcome batch entry rest pc todo unknown thrown cause =>
    obtain ⟨holds, apart⟩ := tracked.read pc todo
    exact tracked.move ⟨rfl, rfl, rfl, rfl, rfl⟩ (Located.advance holds apart true)
  | succeeded outcome batch entry rest rejected pc todo unknown item read returned =>
    obtain ⟨holds, apart⟩ := tracked.read pc todo
    exact tracked.move ⟨rfl, rfl, rfl, rfl, rfl⟩ (Located.afterSuccess holds apart rejected)
  | recorded running outcome batch id cadence pc => exact tracked.recorded pc
  | saved running outcome batch pc =>
    rw [pc] at located
    exact tracked.move ⟨rfl, rfl, rfl, rfl, rfl⟩ located

/-- The invariant holds in every run whose producers do not reuse an ack id. -/
theorem reaches_tracked (reached : (system parse).Reaches (FreshAcks parse) lane) :
    Tracked parse lane := by
  refine reached.invariant ?_ fun _ _ _ tracked fresh taken =>
    tracked.step fresh (step_change taken)
  constructor <;> simp [system, Lane.queued, Lane.claimedLines, Lane.appliedIds, Located]

/-- The action is the operation that hands this line to its handler. -/
def Dispatches (parse : Parser) (lane : Lane) (action : Action) (entry : Entry) : Prop :=
  (∃ outcome, action = .tick true outcome) ∧ lane.upcoming parse = some entry

/-- Only such a step adds a line to the dispatched ones. -/
theorem dispatches_of_dispatched (change : Change parse lane action after) {entry : Entry}
    (more : after.dispatched = lane.dispatched ++ [entry]) :
    Dispatches parse lane action entry := by
  cases change with
  | succeeded outcome batch head rest rejected pc todo unknown item read returned =>
    have same : [head] = [entry] := List.append_cancel_left more
    obtain rfl := List.singleton_inj.mp same
    exact ⟨⟨outcome, rfl⟩, Lane.upcoming_items pc todo unknown⟩
  | _ =>
    have shorter := congrArg List.length more
    simp [Lane.push, Lane.skip, Lane.fail] at shorter

/-- No step takes back a durable id. -/
theorem persisted_grows (change : Change parse lane action after) {id : String}
    (durable : id ∈ lane.persisted) : id ∈ after.persisted := by
  cases change with
  | recorded running outcome batch other cadence pc => exact List.mem_cons_of_mem _ durable
  | _ => exact durable

/-- Once an ack id has been in the ledger, no step dispatches a line that carries it, whatever
the ledger has forgotten since. -/
theorem acked_never_dispatched (reached : (system parse).Reaches (FreshAcks parse) lane) :
    (∀ id ∈ lane.appliedIds, id ∈ lane.persisted) ∧
    ∀ action after, lane.step parse action = some after →
      (∀ id ∈ lane.persisted, id ∈ after.persisted) ∧
      ∀ entry, (Dispatches parse lane action entry ∨
          after.dispatched = lane.dispatched ++ [entry]) →
        entry.ackId parse ∉ lane.persisted := by
  have tracked := reaches_tracked reached
  refine ⟨tracked.durable, fun action after taken => ?_⟩
  have change := step_change taken
  refine ⟨fun id durable => persisted_grows change durable, fun entry either persisted => ?_⟩
  have dispatches : Dispatches parse lane action entry := by
    cases either with
    | inl dispatches => exact dispatches
    | inr more => exact dispatches_of_dispatched change more
  obtain ⟨batch, rest, pc, todo, unknown⟩ := Lane.of_upcoming dispatches.2
  have located := tracked.located
  rw [pc] at located
  have claimed : entry ∈ lane.claimedLines := by
    rw [located.1.lines, Batch.lines, todo]
    simp
  have kept := tracked.claimed entry claimed persisted
  rw [located.1.applied] at kept
  have named : entry.ackId parse ≠ "" := fun empty => tracked.named (empty ▸ persisted)
  simp [acked, named, kept] at unknown

/-- The text `{"ack_id":"a"}`. -/
def ackedLine : Line := [123, 34, 97, 99, 107, 95, 105, 100, 34, 58, 34, 97, 34, 125]

/-- A parser that knows this text only. -/
def ackedParser : Parser := fun line =>
  if line = ackedLine then some (.obj [("ack_id", .str "a")]) else none

/-- A line is dispatched and its ack recorded; the process dies and restarts, and recovers. -/
def ackedRun : List Action :=
  [.enqueue ackedLine, .start, .tick true .accepted, .tick true .accepted, .tick true .accepted,
    .tick true .accepted, .crash, .start]

/-- The restarted lane has the id on record and no step dispatches a line that carries it. -/
theorem acked_never_dispatched_recovered :
    ∃ lane, (system ackedParser).runAllowed (FreshAcks ackedParser) (system ackedParser).initial
        ackedRun = some lane ∧ lane.pc = .requeue [] ∧
      ∀ action after, lane.step ackedParser action = some after →
        ∀ entry, after.dispatched = lane.dispatched ++ [entry] → entry.ackId ackedParser ≠ "a" := by
  obtain ⟨lane, replayed, pc, durable⟩ : ∃ lane,
      (system ackedParser).runAllowed (FreshAcks ackedParser) (system ackedParser).initial
        ackedRun = some lane ∧ lane.pc = .requeue [] ∧ lane.persisted = ["a"] :=
    ⟨_, rfl, rfl, rfl⟩
  have final := acked_never_dispatched (.of_runAllowed ackedRun .initial replayed)
  refine ⟨lane, replayed, pc, fun action after taken entry more same => ?_⟩
  apply (final.2 action after taken).2 entry (.inr more)
  rw [same, durable]
  exact List.mem_singleton_self "a"

end Chitta.Queue
