import Chitta.Queue.AckFinality

/-!
# No line is lost across crashes

A line that no handler, no later save and no dead-letter entry has taken is in the queue, or in
the claimed file at or after the watermark. Recovery and a finished batch remove the claimed
file before its watermark; a process that dies in between leaves the watermark behind, and the
next claimed batch is then read with it. The condition excludes that claim, the reuse of an ack
id, and the dispatch of a line whose failure cannot be written to the dead-letter file.
-/
namespace Chitta.Queue

variable {parse : Parser} {lane after : Lane} {action : Action}

/-- A handler, a later save or a dead-letter entry has taken the line. -/
def Settled (lane : Lane) (entry : Entry) : Prop :=
  entry ∈ lane.dispatched ∨ entry ∈ lane.superseded ∨ entry ∈ lane.dead

/-- The line is settled, or it waits where recovery finds it. -/
def Accounted (lane : Lane) (entry : Entry) : Prop :=
  Settled lane entry ∨ entry ∈ lane.queued ∨ entry ∈ lane.claimedLines.drop lane.watermark

instance (lane : Lane) (entry : Entry) : Decidable (Accounted lane entry) :=
  inferInstanceAs (Decidable ((_ ∨ _ ∨ _) ∨ _ ∨ _))

/-- The condition on a step: no ack id is reused, no batch is claimed beside a watermark that a
removed batch has left, and no line is dispatched whose dead-letter entry could not be built. -/
def Lossless (parse : Parser) (lane : Lane) : Action → Prop
  | .enqueue line => FreshAcks parse lane (.enqueue line)
  | .tick running _ =>
    (lane.pc = .idle → lane.watermark = 0 ∨ lane.queued = []) ∧
    (running = true → ∀ entry ∈ lane.upcoming parse, describable parse entry.line = true)
  | _ => True

instance (parse : Parser) (lane : Lane) : (action : Action) → Decidable (Lossless parse lane action)
  | .enqueue line => inferInstanceAs (Decidable (FreshAcks parse lane (.enqueue line)))
  | .tick .. => inferInstanceAs (Decidable ((_ → _ ∨ _) ∧ (_ → ∀ entry ∈ _, _)))
  | .start | .crash => .isTrue trivial

/-- The condition includes that no ack id is reused. -/
theorem Lossless.fresh (lossless : Lossless parse lane action) : FreshAcks parse lane action := by
  cases action with
  | enqueue line => exact lossless
  | _ => trivial

/-- The lines the item loop has left behind are settled, and the count does not exceed them. -/
structure Counted (lane : Lane) (batch : Batch) (count : Nat) : Prop where
  /-- The lines are settled. -/
  settled : ∀ entry ∈ batch.before, Settled lane entry
  /-- The count is within them. -/
  within : count ≤ batch.before.length

/-- What is settled at a point of the process. -/
def Placed (lane : Lane) : Pc → Prop
  | .requeue todo => ∀ entry ∈ lane.claimedLines.drop lane.watermark,
      Settled lane entry ∨ entry ∈ lane.queued ∨ entry ∈ todo
  | .items batch | .saving batch => Counted lane batch batch.processed
  | .recording batch _ _ => Counted lane batch (batch.processed + 1)
  | _ => True

/-- The invariant of the lossless runs. -/
structure Retained (parse : Parser) (lane : Lane) : Prop where
  /-- The ack ids and the files. -/
  tracked : Tracked parse lane
  /-- Every line is accounted for. -/
  accounted : ∀ entry ∈ lane.appended, Accounted lane entry
  /-- A line with a durable id is settled. -/
  acked : ∀ entry ∈ lane.appended, entry.ackId parse ∈ lane.persisted → Settled lane entry
  /-- The process has settled what its point says. -/
  placed : Placed lane lane.pc

/-! ## Settled lines stay settled -/

/-- No step takes a settled line back. -/
theorem settled_grows (change : Change parse lane action after) {entry : Entry}
    (settled : Settled lane entry) : Settled after entry := by
  cases change with
  | skipped outcome batch head rest pc todo =>
    rcases settled with done | old | dead
    · exact .inl done
    · exact .inr (.inl (List.mem_append_left _ old))
    · exact .inr (.inr dead)
  | failed outcome batch head rest pc todo unknown thrown cause =>
    rcases settled with done | old | dead
    · exact .inl done
    · exact .inr (.inl old)
    · refine .inr (.inr ?_)
      unfold Lane.fail
      dsimp only
      split
      · exact List.mem_append_left _ dead
      · exact dead
  | succeeded outcome batch head rest rejected pc todo unknown item read returned =>
    rcases settled with done | old | dead
    · exact .inl (List.mem_append_left _ done)
    · exact .inr (.inl old)
    · exact .inr (.inr dead)
  | _ => exact settled

/-- The count of settled lines survives a step. -/
theorem Counted.grow (change : Change parse lane action after) {batch : Batch} {count : Nat}
    (counted : Counted lane batch count) : Counted after batch count :=
  ⟨fun entry member => settled_grows change (counted.settled entry member), counted.within⟩

/-- Leaving a settled line behind leaves room for the count. -/
theorem Counted.next {batch : Batch} (counted : Counted lane batch batch.processed)
    {entry : Entry} (settled : Settled lane entry) (rest : List (Entry × Bool)) :
    Counted lane (batch.next entry rest) (batch.processed + 1) := by
  constructor
  · intro other member
    cases List.mem_append.mp member with
    | inl old => exact counted.settled other old
    | inr new => exact List.mem_singleton.mp new ▸ settled
  · have within := counted.within
    simp only [Batch.next, List.length_append, List.length_singleton]
    omega

/-- After a count the process has settled what its point says. -/
theorem Placed.advance {batch : Batch} (counted : Counted lane batch (batch.processed + 1))
    (cadence : Bool) : Placed lane (Lane.advance batch cadence) := by
  have kept : Counted lane { batch with processed := batch.processed + 1 }
      (batch.processed + 1) := ⟨counted.settled, counted.within⟩
  cases advance_cases batch cadence with
  | inl saving =>
    rw [saving]
    exact kept
  | inr items =>
    rw [items]
    exact kept

/-- A superseded save has settled its line. -/
theorem Placed.afterSkip {batch : Batch} {entry : Entry}
    (counted : Counted lane batch (batch.processed + 1)) :
    Placed lane (Lane.afterSkip parse batch entry) := by
  unfold Lane.afterSkip
  dsimp only
  split
  · exact Placed.advance counted false
  · exact counted

/-- A dispatched line is settled. -/
theorem Placed.afterSuccess {batch : Batch} {entry : Entry}
    (counted : Counted lane batch (batch.processed + 1)) (rejected : Bool) :
    Placed lane (Lane.afterSuccess parse batch entry rejected) := by
  unfold Lane.afterSuccess
  dsimp only
  split
  · exact counted
  · split
    · exact ⟨counted.settled, Nat.le_of_succ_le counted.within⟩
    · exact Placed.advance counted true

/-- A line of the claimed file is settled, or at or after any count of settled lines. -/
theorem Counted.drop {batch : Batch} {count : Nat} (counted : Counted lane batch count)
    {entry : Entry} (member : entry ∈ batch.lines) :
    Settled lane entry ∨ entry ∈ batch.lines.drop count := by
  cases List.mem_append.mp member with
  | inl before => exact .inl (counted.settled entry before)
  | inr todo =>
    right
    rw [Batch.lines, List.drop_append_of_le_length counted.within]
    exact List.mem_append_right _ todo

/-! ## One step -/

/-- A step that moves no line and no watermark keeps every line accounted for. -/
theorem accounted_keep (change : Change parse lane action after)
    (accounted : ∀ entry ∈ lane.appended, Accounted lane entry)
    (queued : after.queued = lane.queued) (claimed : after.claimedLines = lane.claimedLines)
    (watermark : after.watermark = lane.watermark) (appended : after.appended = lane.appended) :
    ∀ entry ∈ after.appended, Accounted after entry := by
  intro entry member
  rw [appended] at member
  cases accounted entry member with
  | inl settled => exact .inl (settled_grows change settled)
  | inr waiting =>
    right
    rw [queued, claimed, watermark]
    exact waiting

/-- A new watermark keeps every line accounted for when it counts settled lines. -/
theorem accounted_mark (change : Change parse lane action after)
    (accounted : ∀ entry ∈ lane.appended, Accounted lane entry) {batch : Batch}
    (holds : Holds lane batch) (counted : Counted lane batch batch.processed)
    (queued : after.queued = lane.queued) (claimed : after.claimedLines = lane.claimedLines)
    (watermark : after.watermark = batch.processed) (appended : after.appended = lane.appended) :
    ∀ entry ∈ after.appended, Accounted after entry := by
  intro entry member
  rw [appended] at member
  rcases accounted entry member with settled | waiting | file
  · exact .inl (settled_grows change settled)
  · exact .inr (.inl (queued ▸ waiting))
  · have line : entry ∈ batch.lines := holds.lines ▸ List.mem_of_mem_drop file
    cases counted.drop line with
    | inl settled => exact .inl (settled_grows change settled)
    | inr later =>
      refine .inr (.inr ?_)
      rw [claimed, watermark, holds.lines]
      exact later

/-- Removing the claimed file keeps every line accounted for when its lines are settled or
queued. -/
theorem accounted_remove (change : Change parse lane action after)
    (accounted : ∀ entry ∈ lane.appended, Accounted lane entry)
    (elsewhere : ∀ entry ∈ lane.claimedLines.drop lane.watermark,
      Settled lane entry ∨ entry ∈ lane.queued)
    (queued : after.queued = lane.queued) (appended : after.appended = lane.appended) :
    ∀ entry ∈ after.appended, Accounted after entry := by
  intro entry member
  rw [appended] at member
  have kept : Settled lane entry ∨ entry ∈ lane.queued := by
    rcases accounted entry member with settled | waiting | file
    · exact .inl settled
    · exact .inr waiting
    · exact elsewhere entry file
  cases kept with
  | inl settled => exact .inl (settled_grows change settled)
  | inr waiting => exact .inr (.inl (queued ▸ waiting))

/-- A point of the process keeps what it has settled while the queue grows. -/
theorem Placed.congr {pc : Pc} (placed : Placed lane pc) (change : Change parse lane action after)
    (queued : ∀ entry ∈ lane.queued, entry ∈ after.queued)
    (claimed : after.claimedLines = lane.claimedLines)
    (watermark : after.watermark = lane.watermark) : Placed after pc := by
  cases pc with
  | requeue todo =>
    intro entry member
    rw [claimed, watermark] at member
    rcases placed entry member with settled | waiting | later
    · exact .inl (settled_grows change settled)
    · exact .inr (.inl (queued entry waiting))
    · exact .inr (.inr later)
  | items batch => exact Counted.grow change placed
  | saving batch => exact Counted.grow change placed
  | recording batch id cadence => exact Counted.grow change placed
  | _ => trivial

/-- A durable id still belongs to a settled line after a step that makes no id durable. -/
theorem acked_keep (change : Change parse lane action after)
    (acked : ∀ entry ∈ lane.appended, entry.ackId parse ∈ lane.persisted → Settled lane entry)
    (appended : after.appended = lane.appended) (persisted : after.persisted = lane.persisted) :
    ∀ entry ∈ after.appended, entry.ackId parse ∈ after.persisted → Settled after entry := by
  intro entry member durable
  rw [appended] at member
  rw [persisted] at durable
  exact settled_grows change (acked entry member durable)

/-- Recovery starts with every line settled, queued or still to be appended. -/
theorem Retained.unprocessed (retained : Retained parse lane) :
    Placed lane (.requeue (lane.unprocessed parse)) := by
  intro entry claimed
  have file : entry ∈ lane.claimedLines := List.mem_of_mem_drop claimed
  cases known : Queue.acked lane.appliedIds (entry.ackId parse) with
  | true =>
    left
    simp only [Queue.acked, Bool.and_eq_true, decide_eq_true_eq] at known
    exact retained.acked entry (retained.tracked.known entry (.inr file))
      (retained.tracked.durable _ known.2)
  | false =>
    refine .inr (.inr ?_)
    rw [Lane.unprocessed, List.mem_filter]
    exact ⟨claimed, by simp [known]⟩

/-- An appended line waits in the queue. -/
theorem Retained.appended (retained : Retained parse lane) {line : Line} (nonempty : line ≠ [])
    (fresh : FreshAcks parse lane (.enqueue line)) :
    Retained parse { lane.push ⟨lane.appended.length, line⟩ with
      appended := lane.appended ++ [⟨lane.appended.length, line⟩] } := by
  have change : Change parse lane (.enqueue line) _ := .appended line nonempty
  have tracked := retained.tracked.appended fresh
  refine ⟨tracked, fun entry member => ?_, fun entry member durable => ?_, ?_⟩
  · cases List.mem_append.mp member with
    | inl old =>
      rcases retained.accounted entry old with settled | waiting | file
      · exact .inl settled
      · exact .inr (.inl (List.mem_append_left _ waiting))
      · exact .inr (.inr file)
    | inr new => exact .inr (.inl (List.mem_append_right _ new))
  · cases List.mem_append.mp member with
    | inl old => exact retained.acked entry old durable
    | inr new =>
      have queued : entry ∈ lane.queued ++ [⟨lane.appended.length, line⟩] :=
        List.mem_append_right _ new
      exact absurd durable (tracked.queue entry queued)
  · exact retained.placed.congr change (fun _ waiting => List.mem_append_left _ waiting) rfl rfl

/-- A recovered line waits in the queue. -/
theorem Retained.requeued (retained : Retained parse lane) {entry : Entry} {rest : List Entry}
    (pc : lane.pc = .requeue (entry :: rest)) :
    Retained parse { lane.push entry with pc := .requeue rest } := by
  have placed := retained.placed
  rw [pc] at placed
  refine ⟨retained.tracked.requeued pc, fun other member => ?_, retained.acked, ?_⟩
  · rcases retained.accounted other member with settled | waiting | file
    · exact .inl settled
    · exact .inr (.inl (List.mem_append_left _ waiting))
    · exact .inr (.inr file)
  · intro other file
    rcases placed other file with settled | waiting | later
    · exact .inl settled
    · exact .inr (.inl (List.mem_append_left _ waiting))
    · cases List.mem_cons.mp later with
      | inl same => exact .inr (.inl (List.mem_append_right _ (List.mem_singleton.mpr same)))
      | inr others => exact .inr (.inr others)

/-- A claimed batch waits in the claimed file, because no watermark is left over. -/
theorem Retained.claims (retained : Retained parse lane) {lines : List Entry}
    (pc : lane.pc = .idle) (found : lane.queue = some lines)
    (unmarked : lane.watermark = 0 ∨ lane.queued = []) :
    Retained parse { lane with processing := some lines, queue := none, pc := .claimed } := by
  have queued : lane.queued = lines := by rw [Lane.queued, found]; rfl
  have absent : lane.claimedLines = [] := by
    have located := retained.tracked.located
    rw [pc] at located
    rw [Lane.claimedLines, located]
    rfl
  refine ⟨retained.tracked.claims found, fun entry member => ?_, retained.acked, trivial⟩
  rcases retained.accounted entry member with settled | waiting | file
  · exact .inl settled
  · refine .inr (.inr ?_)
    change entry ∈ lines.drop lane.watermark
    cases unmarked with
    | inl zero =>
      rw [zero, List.drop_zero, ← queued]
      exact waiting
    | inr empty =>
      rw [empty] at waiting
      contradiction
  · rw [absent, List.drop_nil] at file
    contradiction

/-- The id of a settled line becomes durable. -/
theorem Retained.recorded (retained : Retained parse lane) {batch : Batch} {id : String}
    {cadence : Bool} (pc : lane.pc = .recording batch id cadence) :
    ∀ entry ∈ lane.appended, entry.ackId parse ∈ id :: lane.persisted → Settled lane entry := by
  have located := retained.tracked.located
  have placed := retained.placed
  rw [pc] at located placed
  obtain ⟨holds, _, named, source, member, same⟩ := located
  intro entry appended durable
  cases List.mem_cons.mp durable with
  | inr old => exact retained.acked entry appended old
  | inl new =>
    have file : source ∈ lane.claimedLines := by
      rw [holds.lines]
      exact List.mem_append_left _ member
    have known := retained.tracked.known source (.inr file)
    -- An id belongs to one line, and the loop has left that line behind.
    have one : entry = source :=
      retained.tracked.unique entry appended source known (new ▸ named) (new.trans same.symm)
    exact one ▸ placed.settled source member

/-- A lossless step keeps the invariant. -/
theorem Retained.step (retained : Retained parse lane) (lossless : Lossless parse lane action)
    (change : Change parse lane action after) : Retained parse after := by
  have tracked := retained.tracked.step lossless.fresh change
  have located := retained.tracked.located
  have placed := retained.placed
  have accounted := retained.accounted
  have whole := change
  cases change with
  | created =>
    exact ⟨tracked, accounted_keep whole accounted rfl rfl rfl rfl,
      acked_keep whole retained.acked rfl rfl, placed.congr whole (fun _ kept => kept) rfl rfl⟩
  | appended line nonempty => exact retained.appended nonempty lossless
  | crashed =>
    exact ⟨tracked, accounted_keep whole accounted rfl rfl rfl rfl,
      acked_keep whole retained.acked rfl rfl, trivial⟩
  | started pc absent =>
    exact ⟨tracked, accounted_keep whole accounted rfl rfl rfl rfl,
      acked_keep whole retained.acked rfl rfl, trivial⟩
  | recovering pc file found =>
    exact ⟨tracked, accounted_keep whole accounted rfl rfl rfl rfl,
      acked_keep whole retained.acked rfl rfl,
      retained.unprocessed.congr whole (fun _ kept => kept) rfl rfl⟩
  | requeued running outcome entry rest pc => exact retained.requeued pc
  | emptied running outcome pc =>
    rw [pc] at placed
    refine ⟨tracked, accounted_remove whole accounted (fun entry claimed => ?_) rfl rfl,
      acked_keep whole retained.acked rfl rfl, trivial⟩
    rcases placed entry claimed with settled | queued | nothing
    · exact .inl settled
    · exact .inr queued
    · contradiction
  | cleared running outcome pc =>
    have absent : lane.claimedLines = [] := by
      have gone : lane.processing = none := by
        cases pc with
        | inl recovered => rw [recovered] at located; exact located
        | inr finished => rw [finished] at located; exact located
      rw [Lane.claimedLines, gone]
      rfl
    refine ⟨tracked, accounted_remove whole accounted (fun entry claimed => ?_) rfl rfl,
      acked_keep whole retained.acked rfl rfl, trivial⟩
    rw [absent, List.drop_nil] at claimed
    contradiction
  | claimed running outcome lines pc found => exact retained.claims pc found (lossless.1 pc)
  | discarded running outcome pc empty =>
    refine ⟨tracked, accounted_remove whole accounted (fun entry claimed => ?_) rfl rfl,
      acked_keep whole retained.acked rfl rfl, trivial⟩
    rw [empty, List.drop_nil] at claimed
    contradiction
  | refused running outcome pc thrown bad =>
    exact ⟨tracked, accounted_keep whole accounted rfl rfl rfl rfl,
      acked_keep whole retained.acked rfl rfl, trivial⟩
  | opened running outcome pc nonempty keys read =>
    refine ⟨tracked, accounted_keep whole accounted rfl rfl rfl rfl,
      acked_keep whole retained.acked rfl rfl, ?_⟩
    exact ⟨fun entry member => by contradiction, Nat.le_refl 0⟩
  | stopped running outcome batch pc short =>
    rw [pc] at located placed
    exact ⟨tracked, accounted_mark whole accounted located.1 placed rfl rfl rfl rfl,
      acked_keep whole retained.acked rfl rfl, trivial⟩
  | removed running outcome batch pc full =>
    rw [pc] at located placed
    refine ⟨tracked, accounted_remove whole accounted (fun entry claimed => ?_) rfl rfl,
      acked_keep whole retained.acked rfl rfl, trivial⟩
    -- A full count leaves no line to come.
    have within := placed.within
    have empty : batch.todo = [] := by
      rw [Batch.size] at full
      exact List.length_eq_zero_iff.mp (by omega)
    have line : entry ∈ batch.lines := located.1.lines ▸ List.mem_of_mem_drop claimed
    rw [Batch.lines, empty, List.map_nil, List.append_nil] at line
    exact .inl (placed.settled entry line)
  | skipped outcome batch entry rest pc todo =>
    rw [pc] at placed
    have settled : Settled (lane.skip parse (batch.next entry rest) entry) entry :=
      .inr (.inl (List.mem_append_right _ (List.mem_singleton_self entry)))
    have counted := (Counted.grow whole placed).next settled rest
    exact ⟨tracked, accounted_keep whole accounted rfl rfl rfl rfl,
      acked_keep whole retained.acked rfl rfl, Placed.afterSkip counted⟩
  | passed outcome batch entry rest pc todo known =>
    rw [pc] at located placed
    have file : entry ∈ lane.claimedLines := by
      rw [located.1.lines, Batch.lines, todo]
      simp
    have settled : Settled lane entry := by
      simp only [Queue.acked, Bool.and_eq_true, decide_eq_true_eq] at known
      apply retained.acked entry (retained.tracked.known entry (.inr file))
      apply retained.tracked.durable
      rw [located.1.applied]
      exact known.2
    have counted := (Counted.grow whole placed).next (settled_grows whole settled) rest
    exact ⟨tracked, accounted_keep whole accounted rfl rfl rfl rfl,
      acked_keep whole retained.acked rfl rfl, Placed.advance counted false⟩
  | failed outcome batch entry rest pc todo unknown thrown cause =>
    rw [pc] at placed
    have readable := lossless.2 rfl entry (Lane.upcoming_items pc todo unknown)
    have written : ∃ letter, failedItem parse entry.line thrown = .ok letter := by
      have built := failedItem_isOk parse entry.line thrown
      rw [readable] at built
      cases result : failedItem parse entry.line thrown with
      | ok letter => exact ⟨letter, rfl⟩
      | error inner => rw [result] at built; contradiction
    obtain ⟨letter, written⟩ := written
    have settled : Settled (lane.fail parse (batch.next entry rest) entry thrown) entry := by
      refine .inr (.inr ?_)
      simp [Lane.fail, written]
    have counted := (Counted.grow whole placed).next settled rest
    exact ⟨tracked, accounted_keep whole accounted rfl rfl rfl rfl,
      acked_keep whole retained.acked rfl rfl, Placed.advance counted true⟩
  | succeeded outcome batch entry rest rejected pc todo unknown item read returned =>
    rw [pc] at placed
    have settled : Settled (lane.succeed parse (batch.next entry rest) entry rejected) entry :=
      .inl (List.mem_append_right _ (List.mem_singleton_self entry))
    have counted := (Counted.grow whole placed).next settled rest
    exact ⟨tracked, accounted_keep whole accounted rfl rfl rfl rfl,
      acked_keep whole retained.acked rfl rfl, Placed.afterSuccess counted rejected⟩
  | recorded running outcome batch id cadence pc =>
    have settled := retained.recorded pc
    rw [pc] at placed
    have counted : Counted { lane with
        acks := some (id :: batch.applied)
        persisted := id :: lane.persisted
        pc := Lane.advance { batch with applied := id :: batch.applied } cadence }
        { batch with applied := id :: batch.applied } (batch.processed + 1) :=
      ⟨placed.settled, placed.within⟩
    exact ⟨tracked, accounted_keep whole accounted rfl rfl rfl rfl, settled,
      Placed.advance counted cadence⟩
  | saved running outcome batch pc =>
    rw [pc] at located placed
    exact ⟨tracked, accounted_mark whole accounted located.1 placed rfl rfl rfl rfl,
      acked_keep whole retained.acked rfl rfl, Counted.grow whole placed⟩

/-- In every run whose steps meet the condition, every line that was ever appended is dispatched,
superseded or dead-lettered, or it waits in the queue or in the claimed file at or after the
watermark. -/
theorem appended_accounted (reached : (system parse).Reaches (Lossless parse) lane) :
    ∀ entry ∈ lane.appended, Accounted lane entry := by
  have retained : Retained parse lane := by
    refine reached.invariant ?_ fun _ _ _ retained lossless taken =>
      retained.step lossless (step_change taken)
    refine ⟨reaches_tracked .initial, ?_, ?_, trivial⟩
    · intro entry member
      contradiction
    · intro entry member
      contradiction
  exact retained.accounted

/-! ## The watermark of a removed batch -/

/-- The text `{}`, a line that names no tool. -/
def plainLine : Line := [123, 125]

/-- A parser that knows this text only. -/
def plainParser : Parser := fun line => if line = plainLine then some (.obj []) else none

/-- A batch of two lines is interrupted by a shutdown after the first; the next process recovers
the second. -/
def interruptedRun : List Action :=
  [.enqueue plainLine, .enqueue plainLine, .start, .tick true .accepted, .tick true .accepted,
    .tick true .accepted, .tick false .accepted, .start, .tick true .accepted,
    .tick true .accepted]

/-- The process dies before it removes the watermark, and so does the next one after it has
claimed the recovered line; the third process recovers. -/
def orphanRun : List Action :=
  interruptedRun ++ [.crash, .start, .tick true .accepted, .crash, .start, .tick true .accepted,
    .tick true .accepted]

/-- The recovered line has been appended and is nowhere: the watermark of the removed batch
skipped it. -/
theorem orphan_watermark_loses : ∃ lane, (system plainParser).Reachable lane ∧
    ∃ entry ∈ lane.appended, ¬ Accounted lane entry ∧ entry ∉ lane.claimedLines := by
  obtain ⟨lane, replayed, appended, lost, gone⟩ : ∃ lane,
      (system plainParser).run (system plainParser).initial orphanRun = some lane ∧
        (⟨1, plainLine⟩ : Entry) ∈ lane.appended ∧ ¬ Accounted lane ⟨1, plainLine⟩ ∧
        (⟨1, plainLine⟩ : Entry) ∉ lane.claimedLines :=
    ⟨_, rfl, by decide, by decide, by decide⟩
  exact ⟨lane, .of_run orphanRun .initial replayed, _, appended, lost, gone⟩

/-- When the process removes the watermark before the next claim, the line is kept. -/
theorem appended_accounted_interrupted :
    ∃ lane, (system plainParser).runAllowed (Lossless plainParser) (system plainParser).initial
        (interruptedRun ++ [.tick true .accepted, .tick true .accepted, .crash]) = some lane ∧
      lane.appended.length = 2 ∧ ∀ entry ∈ lane.appended, Accounted lane entry := by
  obtain ⟨lane, replayed, two⟩ : ∃ lane,
      (system plainParser).runAllowed (Lossless plainParser) (system plainParser).initial
        (interruptedRun ++ [.tick true .accepted, .tick true .accepted, .crash]) = some lane ∧
      lane.appended.length = 2 := ⟨_, rfl, rfl⟩
  exact ⟨lane, replayed, two, appended_accounted (.of_runAllowed _ .initial replayed)⟩

end Chitta.Queue
