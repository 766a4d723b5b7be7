import Chitta.Queue.AckFinality
import Chitta.Queue.Dispatch

/-!
# The watermark counts the lines that the item loop has taken

The loop counts a line on every way through its body but one: a handler that answers true for a line
without an ack id. The handlers answer false whenever they return, so in every run whose items end
as their handlers end them the count is the number of the lines taken. A batch whose loop runs to
the end is therefore removed, and only a shutdown leaves one behind.
-/
namespace Chitta.Queue

variable {parse : Parser} {lane after : Lane} {action : Action}

/-- The end of an item, as the loop meets it. -/
def Outcome.ofResult : Except Thrown Bool → Outcome
  | .ok false => .accepted
  | .ok true => .rejected
  | .error error => .failed error

/-- The condition on a step: an item that is handed to its handler ends as the handler ends it, with
any behaviour of the code outside. -/
def Handled (parse : Parser) (lane : Lane) : Action → Prop
  | .tick true outcome => ∀ entry ∈ lane.upcoming parse, ∀ item,
      readItem parse entry.line = .ok item → ∃ (State : Type) (store : Backend State)
        (state : State),
        outcome = .ofResult (runItem store entry.line item state).1
  | _ => True

/-- The count at a point of the process. -/
def Exact (lane : Lane) : Pc → Prop
  | .items batch | .saving batch =>
    lane.claimedLines = batch.lines ∧ batch.processed = batch.before.length
  | .recording batch _ _ =>
    lane.claimedLines = batch.lines ∧ batch.processed + 1 = batch.before.length
  | _ => True

/-- No item that is handed to its handler is rejected. -/
theorem Handled.not_rejected {outcome : Outcome}
    (handled : Handled parse lane (.tick true outcome)) {entry : Entry}
    (upcoming : lane.upcoming parse = some entry) {item : String × Json}
    (read : readItem parse entry.line = .ok item) : outcome ≠ .rejected := by
  obtain ⟨State, store, state, ends⟩ := handled entry upcoming item read
  rw [ends]
  cases result : (runItem store entry.line item state).1 with
  | error error => simp [Outcome.ofResult]
  | ok answer =>
    have accepted : answer = false := ensures_runItem store entry.line item state answer result
    rw [accepted]
    simp [Outcome.ofResult]

/-- The count of the next line is exact. -/
theorem Exact.advance {batch : Batch} (lines : lane.claimedLines = batch.lines)
    (count : batch.processed + 1 = batch.before.length) (cadence : Bool) :
    Exact lane (Lane.advance batch cadence) := by
  cases advance_cases batch cadence with
  | inl saving =>
    rw [saving]
    exact ⟨lines, count⟩
  | inr items =>
    rw [items]
    exact ⟨lines, count⟩

/-- The lines taken after the next line. -/
theorem length_before_next (batch : Batch) (entry : Entry) (rest : List (Entry × Bool)) :
    (batch.next entry rest).before.length = batch.before.length + 1 := by
  simp [Batch.next]

/-- A line is taken: the count is one behind. -/
theorem Exact.next {batch : Batch} (exact : Exact lane (.items batch)) {entry : Entry}
    {superseded : Bool} {rest : List (Entry × Bool)}
    (todo : batch.todo = (entry, superseded) :: rest) :
    lane.claimedLines = (batch.next entry rest).lines ∧
      (batch.next entry rest).processed + 1 = (batch.next entry rest).before.length := by
  have lines : lane.claimedLines = (batch.next entry rest).lines :=
    exact.1.trans (Batch.lines_next todo).symm
  have count : batch.processed + 1 = (batch.next entry rest).before.length := by
    have before := length_before_next batch entry rest
    have counted := exact.2
    omega
  exact ⟨lines, count⟩

/-- A superseded save is counted. -/
theorem Exact.afterSkip {batch : Batch} (lines : lane.claimedLines = batch.lines)
    (count : batch.processed + 1 = batch.before.length) (entry : Entry) :
    Exact lane (Lane.afterSkip parse batch entry) := by
  unfold Lane.afterSkip
  dsimp only
  split
  · exact Exact.advance lines count false
  · exact ⟨lines, count⟩

/-- An accepted item is counted. -/
theorem Exact.afterSuccess {batch : Batch} (lines : lane.claimedLines = batch.lines)
    (count : batch.processed + 1 = batch.before.length) (entry : Entry) :
    Exact lane (Lane.afterSuccess parse batch entry false) := by
  unfold Lane.afterSuccess
  dsimp only
  split
  · exact ⟨lines, count⟩
  · exact Exact.advance lines count true

/-- The count depends on the claimed file only. -/
theorem Exact.congr {pc : Pc} (exact : Exact lane pc)
    (same : after.claimedLines = lane.claimedLines) : Exact after pc := by
  cases pc <;> simp only [Exact, same] at exact ⊢ <;> exact exact

/-- Every step whose items end as their handlers end them keeps the count exact. -/
theorem Exact.step (exact : Exact lane lane.pc) (handled : Handled parse lane action)
    (change : Change parse lane action after) : Exact after after.pc := by
  cases change with
  | created => exact exact.congr rfl
  | appended line nonempty => exact exact.congr rfl
  | opened running outcome pc nonempty keys read =>
    have lines : lane.claimedLines = (lane.claimedLines.zip (coalesceMarks keys)).map (·.1) :=
      (marked_lines read).symm
    exact ⟨lines, rfl⟩
  | skipped outcome batch entry rest pc todo =>
    rw [pc] at exact
    have taken := exact.next todo
    have counted : Exact lane (Lane.afterSkip parse (batch.next entry rest) entry) :=
      Exact.afterSkip taken.1 taken.2 entry
    exact counted.congr rfl
  | passed outcome batch entry rest pc todo known =>
    rw [pc] at exact
    have taken := exact.next todo
    exact (Exact.advance taken.1 taken.2 false).congr rfl
  | failed outcome batch entry rest pc todo unknown thrown cause =>
    rw [pc] at exact
    have taken := exact.next todo
    exact (Exact.advance taken.1 taken.2 true).congr rfl
  | succeeded outcome batch entry rest rejected pc todo unknown item read returned =>
    rw [pc] at exact
    have taken := exact.next todo
    have upcoming := Lane.upcoming_items pc todo unknown
    have answered := handled.not_rejected upcoming read
    cases rejected with
    | true => exact absurd returned answered
    | false => exact (Exact.afterSuccess taken.1 taken.2 entry).congr rfl
  | recorded running outcome batch id cadence pc =>
    rw [pc] at exact
    let recorded : Batch := { batch with applied := id :: batch.applied }
    have lines : lane.claimedLines = recorded.lines := exact.1
    have counted : Exact lane (Lane.advance recorded cadence) :=
      Exact.advance lines exact.2 cadence
    exact counted.congr rfl
  | saved running outcome batch pc =>
    rw [pc] at exact
    have items : Exact lane (.items batch) := exact
    exact items.congr rfl
  | _ => trivial

/-- Every run whose items end as their handlers end them keeps the count exact. -/
theorem reaches_exact (reached : (system parse).Reaches (Handled parse) lane) :
    Exact lane lane.pc := by
  apply Machine.Reaches.invariant _ _ reached
  · trivial
  · intro state action next exact handled taken
    exact exact.step handled (step_change taken)

/-! ## The end of the loop -/

/-- The lines taken are the first ones of the claimed file. -/
theorem Exact.before_eq {batch : Batch} (exact : Exact lane (.items batch)) :
    batch.before = lane.claimedLines.take batch.processed := by
  rw [exact.1, exact.2, Batch.lines, List.take_left]

/-- At the end of the loop every line is counted. -/
theorem Exact.size_eq {batch : Batch} (exact : Exact lane (.items batch))
    (ended : batch.todo = []) :
    batch.processed = batch.size ∧ batch.processed = lane.claimedLines.length := by
  have counted := exact.2
  have size : batch.size = batch.before.length := by
    simp [Batch.size, ended]
  have lines : lane.claimedLines.length = batch.before.length := by
    rw [exact.1]
    simp [Batch.lines, ended]
  omega

/-- A batch whose loop has run to its end is removed. -/
theorem Exact.removes {batch : Batch} (exact : Exact lane lane.pc) (pc : lane.pc = .items batch)
    (ended : batch.todo = []) (running : Bool) (outcome : Outcome) :
    lane.step parse (.tick running outcome) =
      some { lane with processing := none, pc := .finished } := by
  rw [pc] at exact
  have full : ¬batch.processed < batch.size := by
    have size := (exact.size_eq ended).1
    omega
  simp only [Lane.step, Lane.tick, pc, ended, Lane.close, if_neg full]

/-- A count does not end the lane. -/
theorem advance_ne_down (batch : Batch) (cadence : Bool) : Lane.advance batch cadence ≠ .down := by
  cases advance_cases batch cadence with
  | inl saving => simp [saving]
  | inr items => simp [items]

/-- The body of the item loop does not end the lane. -/
theorem item_ne_down (batch : Batch) (entry : Entry) (outcome : Outcome) :
    (lane.item parse batch entry outcome).pc ≠ .down := by
  unfold Lane.item
  split
  · exact advance_ne_down batch false
  · split
    · exact advance_ne_down batch true
    · have succeeds : ∀ rejected, (lane.succeed parse batch entry rejected).pc ≠ .down := by
        intro rejected
        simp only [Lane.succeed, Lane.afterSuccess]
        split
        · simp
        · split
          · simp
          · exact advance_ne_down batch true
      cases outcome with
      | failed error => exact advance_ne_down batch true
      | accepted => exact succeeds false
      | rejected => exact succeeds true

/-- A superseded save does not end the lane. -/
theorem skip_ne_down (batch : Batch) (entry : Entry) :
    (lane.skip parse batch entry).pc ≠ .down := by
  simp only [Lane.skip, Lane.afterSkip]
  split
  · exact advance_ne_down batch false
  · simp

/-- The lane ends inside a batch at a shutdown only, and leaves the number of lines taken. -/
theorem Exact.stops {batch : Batch} (exact : Exact lane lane.pc) (pc : lane.pc = .items batch)
    {running : Bool} {outcome : Outcome}
    (taken : lane.step parse (.tick running outcome) = some after) (down : after.pc = .down) :
    running = false ∧ batch.todo ≠ [] ∧ after.ckpt = some batch.before.length := by
  cases todo : batch.todo with
  | nil =>
    rw [exact.removes pc todo] at taken
    obtain rfl := Option.some.inj taken
    contradiction
  | cons head rest =>
    obtain ⟨entry, superseded⟩ := head
    simp only [Lane.step, Lane.tick, pc, todo] at taken
    cases running with
    | true =>
      cases superseded with
      | true =>
        obtain rfl := Option.some.inj taken
        exact absurd down (skip_ne_down _ entry)
      | false =>
        obtain rfl := Option.some.inj taken
        exact absurd down (item_ne_down _ entry outcome)
    | false =>
      obtain rfl := Option.some.inj taken
      rw [pc] at exact
      have short : batch.processed < batch.size := by
        have counted := exact.2
        have size : batch.size = batch.before.length + (rest.length + 1) := by
          simp [Batch.size, todo]
        omega
      have watermark : (lane.close batch).ckpt = some batch.before.length := by
        rw [← exact.2]
        simp only [Lane.close, if_pos short]
      exact ⟨rfl, List.cons_ne_nil _ _, watermark⟩

/-- In every run whose items end as their handlers end them the count is the number of lines taken,
the lines taken are the first ones of the claimed file, a batch whose loop has run to its end is
removed, only a shutdown ends the lane inside a batch, and no item is rejected. -/
theorem processed_counts_taken (reached : (system parse).Reaches (Handled parse) lane) :
    (∀ batch, lane.pc = .items batch ∨ lane.pc = .saving batch →
      batch.processed = batch.before.length ∧
      batch.before = lane.claimedLines.take batch.processed) ∧
    (∀ batch id cadence, lane.pc = .recording batch id cadence →
      batch.processed + 1 = batch.before.length) ∧
    (∀ batch, lane.pc = .items batch → batch.todo = [] →
      batch.processed = lane.claimedLines.length ∧
      ∀ running outcome, lane.step parse (.tick running outcome) =
        some { lane with processing := none, pc := .finished }) ∧
    (∀ batch running outcome next, lane.pc = .items batch →
      lane.step parse (.tick running outcome) = some next → next.pc = .down →
      running = false ∧ batch.todo ≠ [] ∧ next.ckpt = some batch.before.length) ∧
    ∀ outcome, Handled parse lane (.tick true outcome) →
      ∀ entry ∈ lane.upcoming parse, ∀ item, readItem parse entry.line = .ok item →
        outcome ≠ .rejected := by
  have exact := reaches_exact reached
  refine ⟨?counted, ?recording, ?removed, ?stopped, ?accepted⟩
  case counted =>
    intro batch point
    have items : Exact lane (.items batch) := by
      cases point with
      | inl pc => exact pc ▸ exact
      | inr pc =>
        rw [pc] at exact
        exact exact
    exact ⟨items.2, items.before_eq⟩
  case recording =>
    intro batch id cadence pc
    rw [pc] at exact
    exact exact.2
  case removed =>
    intro batch pc ended
    have items : Exact lane (.items batch) := pc ▸ exact
    exact ⟨(items.size_eq ended).2, exact.removes pc ended⟩
  case stopped =>
    intro batch running outcome next pc taken down
    exact exact.stops pc taken down
  case accepted =>
    intro outcome handled entry upcoming item read
    exact handled.not_rejected upcoming read

/-- An observation of a distillation that states less than its floor. -/
def lowLine : Line :=
  ("\x7b\"tool\":\"observe\",\"args\":\x7b\"content\":\"a\",\"source\":\"distillation\"," ++
    "\"confidence\":0.5\x7d\x7d").toList.map fun char => UInt8.ofNat char.toNat

/-- Its arguments. -/
def lowArgs : Json :=
  .obj [("confidence", .float 0.5), ("content", .str "a"), ("source", .str "distillation")]

/-- A parser that knows this text only. -/
def lowParser : Parser := fun line =>
  if line = lowLine then some (.obj [("args", lowArgs), ("tool", .str "observe")]) else none

/-- A store that takes everything and holds nothing. -/
def idleStore : Backend Unit where
  narrow number := if number = 0.5 then 0.5 else 0
  dump _ := .ok ""
  count := pure ()
  countFail := pure ()
  habitSeq := pure 0
  pushSlow _ := pure ()
  observed _ _ _ := pure ()
  remember _ _ _ _ _ := pure 1
  getContent _ := pure ""
  strengthen _ _ := pure ()
  weaken _ _ := pure ()
  addTriplet _ _ _ _ _ := pure ()
  emitEvent _ _ _ _ := pure ()
  ledgerAppend _ := pure ()
  spanIngest _ := pure ()
  removeSymbolsByFile _ := pure ()
  upsertSymbol _ _ _ _ _ _ _ := pure ()
  dispatchSession _ _ := pure ("", false)
  embedText _ := pure []
  pathExists _ := pure false
  extractFile _ := pure []
  lock _ := pure ()

/-- The line is appended and claimed, up to the item loop. -/
def lowRun : List Action :=
  [.enqueue lowLine, .start, .tick false .accepted, .tick false .accepted]

/-- The observation is stored with the floor as its confidence and counted, and the batch is
removed. -/
theorem processed_counts_taken_clamped :
    ∃ lane batch, (system lowParser).Reaches (Handled lowParser) lane ∧
      lane.pc = .items batch ∧ batch.todo = [] ∧ batch.processed = 1 ∧
      batch.processed = lane.claimedLines.length ∧
      ∀ running outcome, lane.step lowParser (.tick running outcome) =
        some { lane with processing := none, pc := .finished } := by
  obtain ⟨lane, next, batch, replayed, upcoming, taken, pc, ended, count⟩ :
      ∃ lane next batch,
        (system lowParser).run (system lowParser).initial lowRun = some lane ∧
        lane.upcoming lowParser = some ⟨0, lowLine⟩ ∧
        (system lowParser).step lane (.tick true .accepted) = some next ∧
        next.pc = .items batch ∧ batch.todo = [] ∧ batch.processed = 1 :=
    ⟨_, _, _, rfl, rfl, rfl, rfl, rfl, rfl⟩
  have claimed : (system lowParser).Reaches (Handled lowParser) lane := by
    apply Machine.Reaches.of_run_always lowRun _ .initial replayed
    simp [lowRun, Handled]
  have handled : Handled lowParser lane (.tick true .accepted) := by
    intro entry found item read
    rw [upcoming] at found
    obtain rfl := Option.some.inj found
    have same : readItem lowParser lowLine = .ok ("observe", lowArgs) := rfl
    obtain rfl := Except.ok.inj (same.symm.trans read)
    exact ⟨Unit, idleStore, (), by decide +kernel⟩
  have reached := claimed.step _ handled taken
  have removed := (processed_counts_taken reached).2.2.1 batch pc ended
  exact ⟨next, batch, reached, pc, ended, count, removed⟩

end Chitta.Queue
