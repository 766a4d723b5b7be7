import Chitta.Queue.Coalescing

/-!
# The lane performs the pass

The pass over a batch is what the lane does between the read of the claimed file and its removal,
when no shutdown, failure or crash intervenes and each handler ends as the store makes it end: every
line of the pass takes the lane one to three operations, and the histories grow by the fates that
the pass gives.
-/
namespace Chitta.Queue

variable {parse : Parser} {store : Store} {lane : Lane}

/-- The two states differ in no history of lines and in no claimed file. -/
structure SameLines (lane after : Lane) : Prop where
  /-- The dispatched lines. -/
  dispatched : after.dispatched = lane.dispatched
  /-- The superseded lines. -/
  superseded : after.superseded = lane.superseded
  /-- The dead-lettered lines. -/
  dead : after.dead = lane.dead
  /-- The claimed file. -/
  processing : after.processing = lane.processing

/-- The lines of one fate, in order. -/
def linesOf (fate : Fate) (batch : List Entry) (fates : List Fate) : List Entry :=
  ((batch.zip fates).filter (·.2 = fate)).map (·.1)

/-- The histories have grown by the fates of these lines. -/
structure Recorded (lane after : Lane) (batch : List Entry) (fates : List Fate) : Prop where
  /-- The dispatched lines. -/
  dispatched : after.dispatched = lane.dispatched ++ linesOf .dispatched batch fates
  /-- The superseded lines. -/
  superseded : after.superseded = lane.superseded ++ linesOf .superseded batch fates
  /-- The dead-lettered lines. -/
  dead : after.dead = lane.dead ++ linesOf .buried batch fates
  /-- The claimed file. -/
  processing : after.processing = lane.processing

/-- Operations that touch no history keep what was recorded. -/
theorem Recorded.same {middle after : Lane} {batch : List Entry} {fates : List Fate}
    (recorded : Recorded lane middle batch fates) (same : SameLines middle after) :
    Recorded lane after batch fates where
  dispatched := same.dispatched.trans recorded.dispatched
  superseded := same.superseded.trans recorded.superseded
  dead := same.dead.trans recorded.dead
  processing := same.processing.trans recorded.processing

/-- After a first line come the others. -/
theorem linesOf_cons (fate own : Fate) (entry : Entry) (rest : List Entry) (fates : List Fate) :
    linesOf fate (entry :: rest) (own :: fates) =
      linesOf fate [entry] [own] ++ linesOf fate rest fates := by
  by_cases same : own = fate
  · simp [linesOf, same]
  · simp [linesOf, same]

/-- The histories of a line and then of the others. -/
theorem Recorded.cons {middle after : Lane} {entry : Entry} {rest : List Entry} {fate : Fate}
    {fates : List Fate} (first : Recorded lane middle [entry] [fate])
    (others : Recorded middle after rest fates) :
    Recorded lane after (entry :: rest) (fate :: fates) where
  dispatched := by
    rw [others.dispatched, first.dispatched, linesOf_cons _ fate entry rest, List.append_assoc]
  superseded := by
    rw [others.superseded, first.superseded, linesOf_cons _ fate entry rest, List.append_assoc]
  dead := by
    rw [others.dead, first.dead, linesOf_cons _ fate entry rest, List.append_assoc]
  processing := others.processing.trans first.processing

/-- How the handler of a line ends. -/
def handled (parse : Parser) (store : Store) (entry : Entry) : Outcome :=
  match itemError parse store entry with
  | some thrown => .failed thrown
  | none => .accepted

/-- How the handler ends that the next operation of the process calls, if it calls one. -/
def Lane.outcome (parse : Parser) (store : Store) (lane : Lane) : Outcome :=
  match lane.pc with
  | .items batch =>
    match batch.todo with
    | (entry, _) :: _ => handled parse store entry
    | [] => .accepted
  | _ => .accepted

/-- The next operation of the process over a store, without a shutdown. -/
def Own (parse : Parser) (store : Store) (lane : Lane) (action : Action) : Prop :=
  action = .tick true (lane.outcome parse store)

/-- The process gets from one state to another by its own operations over a store. -/
def Performs (parse : Parser) (store : Store) (lane after : Lane) : Prop :=
  (system parse).Leads (Own parse store) lane after

/-- Operations follow each other. -/
theorem Performs.trans {middle after : Lane} (first : Performs parse store lane middle)
    (second : Performs parse store middle after) : Performs parse store lane after := by
  induction second with
  | refl => exact first
  | step action _ own taken ih => exact ih.step action own taken

/-- One operation. -/
theorem Performs.one {after : Lane} {outcome : Outcome} (own : lane.outcome parse store = outcome)
    (taken : lane.tick parse true outcome = some after) : Performs parse store lane after :=
  .step (.tick true outcome) .refl (by rw [Own, own]) taken

/-- After a count the lane goes on with the next line, past the watermark if one is due. -/
theorem advance_performs (parse : Parser) (store : Store) {batch : Batch} {cadence : Bool}
    (pc : lane.pc = Lane.advance batch cadence) :
    ∃ after, Performs parse store lane after ∧ SameLines lane after ∧
      after.pc = .items { batch with processed := batch.processed + 1 } := by
  unfold Lane.advance at pc
  dsimp only at pc
  split at pc
  · have taken : lane.tick parse true .accepted = some { lane with
        ckpt := some (batch.processed + 1)
        pc := .items { batch with processed := batch.processed + 1 } } := by
      simp only [Lane.tick, pc]
    exact ⟨_, .one (by rw [Lane.outcome, pc]) taken, ⟨rfl, rfl, rfl, rfl⟩, rfl⟩
  · exact ⟨lane, .refl, ⟨rfl, rfl, rfl, rfl⟩, pc⟩

/-- The point after an ack id was recorded, or was found not to need it. -/
def afterRecord (parse : Parser) (batch : Batch) (entry : Entry) (cadence : Bool) : Pc :=
  if entry.ackId parse = "" || acked batch.applied (entry.ackId parse) then
    Lane.advance batch cadence
  else .recording batch (entry.ackId parse) cadence

/-- Recording an ack id and counting the line. -/
theorem record_performs (store : Store) {batch : Batch} {entry : Entry} {cadence : Bool}
    {ids : List String}
    (pc : lane.pc = afterRecord parse batch entry cadence)
    (recorded : record parse .always batch.applied entry = some ids) :
    ∃ after, Performs parse store lane after ∧ SameLines lane after ∧
      after.pc = .items { batch with processed := batch.processed + 1, applied := ids } := by
  unfold afterRecord at pc
  simp only [record, Durability.always, ↓reduceIte] at recorded
  split at pc
  · rename_i known
    simp only [known, ↓reduceIte, Option.some.injEq] at recorded
    subst recorded
    exact advance_performs parse store pc
  · rename_i unknown
    simp only [unknown, Bool.false_eq_true, ↓reduceIte, Option.some.injEq] at recorded
    subst recorded
    let middle : Lane := { lane with
      acks := some (entry.ackId parse :: batch.applied)
      persisted := entry.ackId parse :: lane.persisted
      pc := Lane.advance { batch with applied := entry.ackId parse :: batch.applied } cadence }
    have taken : lane.tick parse true .accepted = some middle := by
      simp only [Lane.tick, pc, middle]
    have counted : middle.pc =
        Lane.advance { batch with applied := entry.ackId parse :: batch.applied } cadence := rfl
    obtain ⟨after, performs, same, there⟩ := advance_performs parse store counted
    exact ⟨after, (Performs.one (by rw [Lane.outcome, pc]) taken).trans performs,
      ⟨same.dispatched, same.superseded, same.dead, same.processing⟩, there⟩

/-- An operation that gives a line its fate and leads on without a record. -/
theorem Performs.counted {middle : Lane} {batch : Batch} {entry : Entry} {fate : Fate}
    {cadence : Bool} {outcome : Outcome} (own : lane.outcome parse store = outcome)
    (taken : lane.tick parse true outcome = some middle)
    (recorded : Recorded lane middle [entry] [fate])
    (pc : middle.pc = Lane.advance batch cadence) :
    ∃ after, Performs parse store lane after ∧ Recorded lane after [entry] [fate] ∧
      after.pc = .items { batch with processed := batch.processed + 1 } := by
  obtain ⟨after, performs, same, there⟩ := advance_performs parse store pc
  exact ⟨after, (Performs.one own taken).trans performs, recorded.same same, there⟩

/-- An item that ends with an exception. -/
theorem item_fails {batch : Batch} {entry : Entry} {thrown : Thrown}
    (unknown : ¬ acked batch.applied (entry.ackId parse) = true)
    (threw : itemError parse store entry = some thrown) :
    lane.item parse batch entry (handled parse store entry) =
      lane.fail parse batch entry thrown := by
  simp only [Lane.item, unknown, Bool.false_eq_true, ↓reduceIte, handled, threw]
  cases read : readItem parse entry.line with
  | ok item => rfl
  | error other =>
    simp only [itemError, read, Option.some.injEq] at threw
    rw [threw]

/-- An item that its handler works off. -/
theorem item_succeeds {batch : Batch} {entry : Entry}
    (unknown : ¬ acked batch.applied (entry.ackId parse) = true)
    (returned : itemError parse store entry = none) :
    lane.item parse batch entry (handled parse store entry) =
      lane.succeed parse batch entry false := by
  simp only [Lane.item, unknown, Bool.false_eq_true, ↓reduceIte, handled, returned]
  cases read : readItem parse entry.line with
  | ok item => rfl
  | error other => simp [itemError, read] at returned

/-- A failed item is in the dead-letter file exactly when the pass buries it. -/
theorem fail_records {batch : Batch} {entry : Entry} (thrown : Thrown) :
    Recorded lane (lane.fail parse batch entry thrown) [entry] [bury parse entry thrown] := by
  unfold Lane.fail bury
  cases failedItem parse entry.line thrown with
  | ok letter =>
    exact ⟨by simp [linesOf], by simp [linesOf], by simp [linesOf], rfl⟩
  | error inner =>
    exact ⟨by simp [linesOf], by simp [linesOf], by simp [linesOf], rfl⟩

/-- The operations for one line give it the fate of the pass. -/
theorem item_performs {batch : Batch} {entry : Entry} {superseded : Bool}
    {rest : List (Entry × Bool)} {fate : Fate} {ids : List String}
    (pc : lane.pc = .items batch) (todo : batch.todo = (entry, superseded) :: rest)
    (step : passItem parse store .always batch.applied entry superseded = (fate, some ids)) :
    ∃ after, Performs parse store lane after ∧ Recorded lane after [entry] [fate] ∧
      after.pc = .items { batch.next entry rest with
        processed := batch.processed + 1, applied := ids } := by
  unfold passItem at step
  have own : lane.outcome parse store = handled parse store entry := by
    simp only [Lane.outcome, pc, todo]
  cases superseded with
  | true =>
    obtain ⟨rfl, recorded⟩ := Prod.mk.inj step
    have taken : lane.tick parse true (handled parse store entry) =
        some (lane.skip parse (batch.next entry rest) entry) := by
      simp only [Lane.tick, pc, todo, Bool.not_true, Bool.false_eq_true, ↓reduceIte]
    have there : (lane.skip parse (batch.next entry rest) entry).pc =
        afterRecord parse (batch.next entry rest) entry false := rfl
    obtain ⟨after, performs, same, reached⟩ := record_performs store there recorded
    refine ⟨after, (Performs.one own taken).trans performs, .same ?_ same, reached⟩
    exact ⟨by simp [Lane.skip, linesOf], by simp [Lane.skip, linesOf],
      by simp [Lane.skip, linesOf], rfl⟩
  | false =>
    have taken : lane.tick parse true (handled parse store entry) =
        some (lane.item parse (batch.next entry rest) entry (handled parse store entry)) := by
      simp only [Lane.tick, pc, todo, Bool.not_true, Bool.false_eq_true, ↓reduceIte]
    simp only [Bool.false_eq_true, ↓reduceIte] at step
    split at step
    · rename_i known
      obtain ⟨rfl, rfl⟩ : Fate.passed = fate ∧ batch.applied = ids := by simpa using step
      have item : lane.item parse (batch.next entry rest) entry (handled parse store entry) =
          { lane with pc := Lane.advance (batch.next entry rest) false } := if_pos known
      rw [item] at taken
      have there : ({ lane with pc := Lane.advance (batch.next entry rest) false } : Lane).pc =
          Lane.advance (batch.next entry rest) false := rfl
      exact Performs.counted own taken
        ⟨by simp [linesOf], by simp [linesOf], by simp [linesOf], rfl⟩ there
    · rename_i unknown
      have fresh : ¬ acked (batch.next entry rest).applied (entry.ackId parse) = true := unknown
      cases threw : itemError parse store entry with
      | some thrown =>
        rw [threw] at step
        obtain ⟨rfl, rfl⟩ : bury parse entry thrown = fate ∧ batch.applied = ids := by
          simpa using step
        rw [item_fails fresh threw] at taken
        exact Performs.counted own taken (fail_records thrown) rfl
      | none =>
        rw [threw] at step
        obtain ⟨rfl, recorded⟩ := Prod.mk.inj step
        rw [item_succeeds fresh threw] at taken
        have there : (lane.succeed parse (batch.next entry rest) entry false).pc =
            afterRecord parse (batch.next entry rest) entry true := by
          simp only [Lane.succeed, Lane.afterSuccess, afterRecord, fresh, Bool.or_false]
          by_cases named : entry.ackId parse = ""
          · simp [named]
          · simp [named]
        obtain ⟨after, performs, same, reached⟩ := record_performs store there recorded
        refine ⟨after, (Performs.one own taken).trans performs, .same ?_ same, reached⟩
        exact ⟨by simp [Lane.succeed, linesOf], by simp [Lane.succeed, linesOf],
          by simp [Lane.succeed, linesOf], rfl⟩

/-- The loop gives every line the fate of the pass. -/
theorem items_perform (parse : Parser) (store : Store) {todo : List (Entry × Bool)} {batch : Batch}
    (pc : lane.pc = .items batch) (remaining : batch.todo = todo) :
    ∃ after last, Performs parse store lane after ∧
      Recorded lane after (todo.map (·.1))
        (passItems parse store .always todo batch.applied).fates ∧
      after.pc = .items last ∧ last.todo = [] ∧
      last.before.length = batch.before.length + todo.length ∧
      last.processed = batch.processed + todo.length := by
  induction todo generalizing lane batch with
  | nil =>
    exact ⟨lane, batch, .refl, ⟨by simp [linesOf], by simp [linesOf], by simp [linesOf], rfl⟩,
      pc, remaining, rfl, rfl⟩
  | cons head rest ih =>
    obtain ⟨entry, superseded⟩ := head
    obtain ⟨fate, ids, step⟩ := passItem_always parse store batch.applied entry superseded
    obtain ⟨middle, performs, recorded, there⟩ := item_performs pc remaining step
    obtain ⟨after, last, continued, others, reached, worked, passed, counted⟩ := ih there rfl
    refine ⟨after, last, performs.trans continued, ?_, reached, worked, ?_, ?_⟩
    · simp only [List.map_cons, passItems, step]
      exact recorded.cons others
    · simp only [passed, Batch.next, List.length_append, List.length_cons, List.length_nil]
      omega
    · simp only [counted, List.length_cons]
      omega

/-- From a claimed batch whose pre-pass returns the lane performs the pass and removes the file:
every line has the fate that the pass gives it. -/
theorem lane_performs_pass {batch : List Entry} {keys : List (Option String)}
    (pc : lane.pc = .claimed) (file : lane.claimedLines = batch) (nonempty : batch ≠ [])
    (acks : lane.appliedIds = store.acks)
    (read : coalesceKeys parse (batch.map (·.line)) = .ok keys) :
    ∃ after, Performs parse store lane after ∧ after.pc = .finished ∧ after.processing = none ∧
      let fates := (pass parse store .always batch).fates
      after.dispatched = lane.dispatched ++ linesOf .dispatched batch fates ∧
        after.superseded = lane.superseded ++ linesOf .superseded batch fates ∧
        after.dead = lane.dead ++ linesOf .buried batch fates := by
  have taken : lane.tick parse true .accepted = some (lane.readClaimed parse) := by
    simp only [Lane.tick, pc]
  let batchRead : Batch := ⟨[], batch.zip (coalesceMarks keys), 0, rotate parse store.acks batch⟩
  let middle : Lane := { lane with acks := lane.rotated parse, pc := .items batchRead }
  have opened : lane.readClaimed parse = middle := by
    subst file
    cases lines : lane.claimedLines with
    | nil => exact absurd lines nonempty
    | cons first others =>
      rw [lines] at read
      simp only [Lane.readClaimed, lines, read, Lane.rotated, acks, middle, batchRead]
  rw [opened] at taken
  have looping : middle.pc = .items batchRead := rfl
  have remaining : batchRead.todo = batch.zip (coalesceMarks keys) := rfl
  obtain ⟨ended, last, performs, recorded, reached, worked, passed, counted⟩ :=
    items_perform parse store looping remaining
  have fates : (pass parse store .always batch).fates =
      (passItems parse store .always (batch.zip (coalesceMarks keys)) batchRead.applied).fates := by
    simp only [pass, Durability.always, read, ↓reduceIte, batchRead]
  rw [marked_lines read, ← fates] at recorded
  have full : ¬ last.processed < last.size := by
    simp only [Batch.size, worked, passed, counted, batchRead, List.length_nil]
    omega
  have closed : ended.tick parse true .accepted =
      some { ended with processing := none, pc := .finished } := by
    simp only [Lane.tick, reached, worked, Lane.close, full, ↓reduceIte]
  have last_own : ended.outcome parse store = .accepted := by
    simp only [Lane.outcome, reached, worked]
  exact ⟨_, (Performs.one (by rw [Lane.outcome, pc]) taken).trans
      (performs.trans (.one last_own closed)), rfl, rfl,
    recorded.dispatched, recorded.superseded, recorded.dead⟩

/-- A lane that has claimed two saves of a session and between them a line that is no JSON. -/
def savesLane : Lane where
  processing := some [⟨0, newerSave⟩, ⟨1, [123]⟩, ⟨2, repeatedSave⟩]
  pc := .claimed
  appended := [⟨0, newerSave⟩, ⟨1, [123]⟩, ⟨2, repeatedSave⟩]

/-- A store whose handlers return. -/
def newStore : Store := ⟨[], fun _ => none⟩

/-- The first save is superseded, the line between is dead-lettered, and the second save is
dispatched. -/
theorem lane_performs_pass_saves :
    ∃ after, Performs ackedSaveParser newStore savesLane after ∧ after.pc = .finished ∧
      after.processing = none ∧ after.dispatched = [⟨2, repeatedSave⟩] ∧
      after.superseded = [⟨0, newerSave⟩] ∧ after.dead = [⟨1, [123]⟩] := by
  have file : savesLane.claimedLines =
      [⟨0, newerSave⟩, ⟨1, [123]⟩, ⟨2, repeatedSave⟩] := rfl
  have acks : savesLane.appliedIds = newStore.acks := rfl
  have read : coalesceKeys ackedSaveParser [newerSave, [123], repeatedSave] =
      .ok [some "s:default", none, some "s:default"] := rfl
  obtain ⟨after, performs, finished, removed, dispatched, superseded, buried⟩ :=
    lane_performs_pass rfl file (List.cons_ne_nil _ _) acks read
  exact ⟨after, performs, finished, removed, dispatched, superseded, buried⟩

end Chitta.Queue
