import Chitta.LastWrite
import Chitta.Queue.NoLoss

/-!
# The last ledger save of a session wins

A dispatched ledger save stores the latest event of its session and project. The order of the
saves comes from the order of the queue file, from the pre-pass that keeps the last save of a
batch, and from recovery, which appends what is left of a batch behind lines that were queued
later. Recovery therefore keeps the order only while the last save it appends for a key is the
newest one; the condition says so, and excludes the other ways in which a save can be passed
over: a watermark or an ack id that belongs to another line, and a store that fails.
-/
namespace Chitta.Queue

variable {parse : Parser} {lane after : Lane} {action : Action} {key : String}

/-- The last save of a key among some lines. -/
abbrev lastSave (parse : Parser) (key : String) (lines : List Entry) : Option Entry :=
  lastWrite (Entry.key parse) key lines

/-- The lines that the process has in hand or in the claimed file, in their order. -/
def Lane.remaining (lane : Lane) : List Entry :=
  match lane.pc with
  | .claimed => lane.claimedLines
  | .items batch | .saving batch | .recording batch _ _ => batch.todo.map (·.1)
  | _ => []

/-- The lines that recovery has still to append. -/
def Lane.requeueing (lane : Lane) : List Entry :=
  match lane.pc with
  | .requeue todo => todo
  | _ => []

/-- The last save of each key comes behind no line with its ack id, nor is its id among those
seen before. -/
def Unrepeated (parse : Parser) : List String → List Entry → Prop
  | _, [] => True
  | seen, entry :: rest =>
    (∀ key ∈ entry.key parse, lastSave parse key rest = none →
      entry.ackId parse = "" ∨ entry.ackId parse ∉ seen) ∧
    Unrepeated parse (entry.ackId parse :: seen) rest

instance decidableUnrepeated (parse : Parser) :
    (seen : List String) → (lines : List Entry) → Decidable (Unrepeated parse seen lines)
  | _, [] => .isTrue trivial
  | seen, entry :: rest =>
    let _ := decidableUnrepeated parse (entry.ackId parse :: seen) rest
    inferInstanceAs (Decidable ((∀ key ∈ entry.key parse, lastSave parse key rest = none →
      entry.ackId parse = "" ∨ entry.ackId parse ∉ seen) ∧ _))

/-- The condition on a step: no ack id is reused; a batch is claimed beside no watermark, and
the last save of a key in it is the first line with its ack id; recovery appends a save only
when the last save of its key that it has still to append is the newest of all; and the handler
of a save does not throw. -/
def InOrder (parse : Parser) (lane : Lane) : Action → Prop
  | .enqueue line => FreshAcks parse lane (.enqueue line)
  | .tick running outcome =>
    (lane.pc = .idle →
      (lane.watermark = 0 ∨ lane.queued = []) ∧ Unrepeated parse [] lane.queued) ∧
    (∀ entry ∈ lane.requeueing.head?, ∀ key ∈ entry.key parse,
      lastSave parse key lane.requeueing = lastSave parse key lane.appended) ∧
    (running = true → ∀ entry ∈ lane.upcoming parse, entry.key parse ≠ none →
      outcome = .accepted ∨ outcome = .rejected)
  | _ => True

instance (parse : Parser) (lane : Lane) : (action : Action) → Decidable (InOrder parse lane action)
  | .enqueue line => inferInstanceAs (Decidable (FreshAcks parse lane (.enqueue line)))
  | .tick .. => inferInstanceAs (Decidable ((_ → _ ∧ _) ∧ (∀ entry ∈ _, ∀ key ∈ _, _) ∧
      (_ → ∀ entry ∈ _, _ → _ ∨ _)))
  | .start | .crash => .isTrue trivial

/-- The condition includes that no ack id is reused. -/
theorem InOrder.fresh (inOrder : InOrder parse lane action) : FreshAcks parse lane action := by
  cases action with
  | enqueue line => exact inOrder
  | _ => trivial

/-! ## Ack ids in a batch -/

/-- Fewer ids seen before can only help. -/
theorem Unrepeated.weaken {seen fewer : List String} {lines : List Entry}
    (unrepeated : Unrepeated parse seen lines)
    (less : ∀ entry ∈ lines, entry.ackId parse ∈ fewer → entry.ackId parse ∈ seen) :
    Unrepeated parse fewer lines := by
  induction lines generalizing seen fewer with
  | nil => trivial
  | cons entry rest ih =>
    obtain ⟨first, others⟩ := unrepeated
    constructor
    · intro key writes last
      cases first key writes last with
      | inl unnamed => exact .inl unnamed
      | inr unseen => exact .inr fun member => unseen (less entry List.mem_cons_self member)
    · apply ih others
      intro other member found
      cases List.mem_cons.mp found with
      | inl same => exact List.mem_cons.mpr (.inl same)
      | inr old => exact List.mem_cons_of_mem _ (less other (List.mem_cons_of_mem _ member) old)

/-- The last save of a key is not passed over. -/
theorem Unrepeated.last {seen : List String} {lines : List Entry} {last : Entry}
    (unrepeated : Unrepeated parse seen lines) (found : lastSave parse key lines = some last) :
    acked seen (last.ackId parse) = false := by
  induction lines with
  | nil => contradiction
  | cons entry rest ih =>
    obtain ⟨first, others⟩ := unrepeated
    rw [lastSave, lastWrite_cons] at found
    cases later : lastSave parse key rest with
    | some other =>
      rw [lastSave] at later
      rw [later, Option.some_or] at found
      have kept : Unrepeated parse seen rest :=
        others.weaken fun _ _ member => List.mem_cons_of_mem _ member
      exact ih kept (later.trans found)
    | none =>
      rw [lastSave] at later
      rw [later, Option.none_or] at found
      split at found
      · rename_i writes
        obtain rfl := Option.some.inj found
        cases first key (by simp [writes]) later with
        | inl unnamed => simp [acked, unnamed]
        | inr unseen => simp [acked, unseen]
      · contradiction

/-! ## The marks of the pre-pass -/

/-- A marked line is a save with a later save of its key. -/
def Marked (parse : Parser) : List (Entry × Bool) → Prop
  | [] => True
  | (entry, superseded) :: rest =>
    (superseded = true → ∀ key ∈ entry.key parse, lastSave parse key (rest.map (·.1)) ≠ none) ∧
    Marked parse rest

/-- The pre-pass marks only such lines. -/
theorem marked_zip {lines : List Entry} {keys : List (Option String)}
    (read : coalesceKeys parse (lines.map (·.line)) = .ok keys) :
    Marked parse (lines.zip (coalesceMarks keys)) := by
  induction lines generalizing keys with
  | nil => trivial
  | cons entry rest ih =>
    obtain ⟨first, own, read⟩ := bind_ok read
    obtain ⟨others, later, read⟩ := bind_ok read
    obtain rfl := Except.ok.inj read
    have zipped : (rest.zip (coalesceMarks others)).map (·.1) = rest := marked_lines later
    refine ⟨fun superseded key writes => ?_, ih later⟩
    change lastSave parse key ((rest.zip (coalesceMarks others)).map (·.1)) ≠ none
    rw [zipped]
    simp only [Bool.and_eq_true, decide_eq_true_eq] at superseded
    obtain ⟨present, repeated⟩ := superseded
    obtain ⟨found, same⟩ := Option.isSome_iff_exists.mp present
    subst same
    have entry_key : entry.key parse = some found := saveKey_of_coalesceKey parse own
    have one : found = key := Option.some.inj (entry_key.symm.trans writes)
    obtain ⟨line, written, reads⟩ := (coalesceKeys_mem later _).mp repeated
    obtain ⟨other, inside, rfl⟩ := List.mem_map.mp written
    have saves : other.key parse = some found := saveKey_of_coalesceKey parse reads
    exact lastWrite_ne_none inside (one ▸ saves)

/-! ## The order of the saves -/

/-- The last save of every key is the newest one when the remaining lines come after the
dispatched and before the queued ones. -/
def Lined (parse : Parser) (lane : Lane) (remaining : List Entry) : Prop :=
  ∀ key, ((lastSave parse key lane.queued).or (lastSave parse key remaining)).or
    (lastSave parse key lane.dispatched) = lastSave parse key lane.appended

/-- For every key the newest save is the last one that recovery has to append, or it needs no
recovery. -/
def Recoverable (parse : Parser) (lane : Lane) (todo : List Entry) : Prop :=
  ∀ key, lastSave parse key todo ≠ none ∧
      lastSave parse key todo = lastSave parse key lane.appended ∨
    (lastSave parse key lane.queued).or (lastSave parse key lane.dispatched) =
      lastSave parse key lane.appended

/-- A line that is no save, or has a later save of its key, can be left behind. -/
theorem Lined.pass {entry : Entry} {rest : List Entry} (lined : Lined parse lane (entry :: rest))
    (safe : ∀ key ∈ entry.key parse, lastSave parse key rest ≠ none) :
    Lined parse lane rest := by
  intro key
  have order := lined key
  by_cases writes : entry.key parse = some key
  · simp only [lastSave, lastWrite_cons_before (safe key writes)] at order
    exact order
  · simp only [lastSave, lastWrite_cons_other writes] at order
    exact order

/-- A dispatched line moves from the remaining lines to the end of the dispatched ones. -/
theorem Lined.dispatch {entry : Entry} {rest : List Entry} {pc : Pc}
    (lined : Lined parse lane (entry :: rest)) :
    Lined parse { lane with dispatched := lane.dispatched ++ [entry], pc } rest := by
  intro key
  have order := lined key
  simp only [lastSave] at order
  rw [← List.singleton_append, lastWrite_append] at order
  change ((lastSave parse key lane.queued).or (lastSave parse key rest)).or
    (lastSave parse key (lane.dispatched ++ [entry])) = lastSave parse key lane.appended
  simp only [lastSave]
  rw [← order, lastWrite_append]
  simp only [Option.or_assoc]

/-- When nothing remains, recovery has nothing to order. -/
theorem Recoverable.lined (recoverable : Recoverable parse lane []) : Lined parse lane [] := by
  intro key
  cases recoverable key with
  | inl impossible => exact absurd rfl impossible.1
  | inr ordered =>
    simp only [lastSave, lastWrite_nil, Option.or_none]
    exact ordered

/-- A crash leaves every key to recovery whose last remaining save recovery finds as the last
one. -/
theorem Lined.recoverable {remaining todo : List Entry} (lined : Lined parse lane remaining)
    (same : ∀ key, lastSave parse key remaining ≠ none →
      lastSave parse key todo = lastSave parse key remaining) : Recoverable parse lane todo := by
  intro key
  have order := lined key
  cases queued : lastSave parse key lane.queued with
  | some newest =>
    right
    rw [queued, Option.some_or, Option.some_or] at order
    rw [Option.some_or]
    exact order
  | none =>
    rw [queued, Option.none_or] at order
    cases later : lastSave parse key remaining with
    | some newest =>
      left
      have present : lastSave parse key remaining ≠ none := by simp [later]
      rw [later, Option.some_or] at order
      rw [same key present, later]
      exact ⟨by simp, order⟩
    | none =>
      right
      rw [later, Option.none_or] at order
      rw [Option.none_or]
      exact order

/-- An appended save is the newest of its key. -/
theorem Lined.appended {remaining : List Entry} (lined : Lined parse lane remaining)
    (entry : Entry) : Lined parse { lane.push entry with appended := lane.appended ++ [entry] }
      remaining := by
  intro key
  change ((lastSave parse key (lane.queued ++ [entry])).or _).or _ =
    lastSave parse key (lane.appended ++ [entry])
  by_cases writes : entry.key parse = some key
  · simp only [lastSave, lastWrite_concat writes, Option.some_or]
  · simp only [lastSave, lastWrite_concat_other writes]
    exact lined key

/-- An appended save needs no recovery. -/
theorem Recoverable.appended {todo : List Entry} (recoverable : Recoverable parse lane todo)
    (entry : Entry) : Recoverable parse { lane.push entry with
      appended := lane.appended ++ [entry] } todo := by
  intro key
  change lastSave parse key todo ≠ none ∧
      lastSave parse key todo = lastSave parse key (lane.appended ++ [entry]) ∨
    (lastSave parse key (lane.queued ++ [entry])).or (lastSave parse key lane.dispatched) =
      lastSave parse key (lane.appended ++ [entry])
  by_cases writes : entry.key parse = some key
  · right
    simp only [lastSave, lastWrite_concat writes, Option.some_or]
  · simp only [lastSave, lastWrite_concat_other writes]
    exact recoverable key

/-- Recovery appends a line whose key it brings to its newest save. -/
theorem Recoverable.requeued {entry : Entry} {rest : List Entry} {pc : Pc}
    (recoverable : Recoverable parse lane (entry :: rest))
    (newest : ∀ key ∈ entry.key parse,
      lastSave parse key (entry :: rest) = lastSave parse key lane.appended) :
    Recoverable parse { lane.push entry with pc } rest := by
  intro key
  change lastSave parse key rest ≠ none ∧
      lastSave parse key rest = lastSave parse key lane.appended ∨
    (lastSave parse key (lane.queued ++ [entry])).or (lastSave parse key lane.dispatched) =
      lastSave parse key lane.appended
  by_cases writes : entry.key parse = some key
  · have last := newest key writes
    by_cases later : lastSave parse key rest = none
    · right
      simp only [lastSave] at later last
      rw [lastWrite_cons, later, if_pos writes, Option.none_or] at last
      simp only [lastSave, lastWrite_concat writes, Option.some_or]
      exact last
    · left
      rw [lastSave, lastWrite_cons_before later] at last
      exact ⟨later, last⟩
  · have before := recoverable key
    simp only [lastSave, lastWrite_cons_other writes] at before
    simp only [lastSave, lastWrite_concat_other writes]
    exact before

/-- Recovery that starts again has at least the lines it had left. -/
theorem Recoverable.suffix {todo all : List Entry} (recoverable : Recoverable parse lane todo)
    (part : todo <:+ all) : Recoverable parse lane all := by
  intro key
  cases recoverable key with
  | inr ordered => exact .inr ordered
  | inl pending =>
    left
    obtain ⟨front, rfl⟩ := part
    have same : lastSave parse key (front ++ todo) = lastSave parse key todo := by
      obtain ⟨last, found⟩ := Option.ne_none_iff_exists'.mp pending.1
      simp only [lastSave] at found ⊢
      rw [lastWrite_append, found, Option.some_or]
    rw [same]
    exact pending

/-! ## The points of the process -/

/-- What holds of a batch for the order of its saves: the watermark counts lines the loop has
left behind, the last saves to come are passed over for no id seen before, and only superseded
lines are marked. -/
structure Kept (parse : Parser) (lane : Lane) (batch : Batch) (seen : List String) (count : Nat) :
    Prop where
  /-- The watermark of the file. -/
  mark : lane.watermark ≤ batch.before.length
  /-- The count in memory. -/
  within : count ≤ batch.before.length
  /-- The last saves to come. -/
  unrepeated : Unrepeated parse seen (batch.todo.map (·.1))
  /-- The marks of the lines to come. -/
  marked : Marked parse batch.todo

/-- What holds at a point of the process. -/
def Sequenced (parse : Parser) (lane : Lane) : Pc → Prop
  | .down => Recoverable parse lane (lane.unprocessed parse)
  | .requeue todo => Recoverable parse lane todo ∧ todo <:+ lane.unprocessed parse
  | .recovered | .idle | .finished => Lined parse lane []
  | .claimed => Lined parse lane lane.claimedLines ∧
      (lane.watermark = 0 ∨ lane.claimedLines = []) ∧ Unrepeated parse [] lane.claimedLines ∧
      ∀ entry ∈ lane.claimedLines, entry.ackId parse ∉ lane.persisted
  | .items batch | .saving batch => Lined parse lane (batch.todo.map (·.1)) ∧
      Kept parse lane batch batch.applied batch.processed
  | .recording batch id _ => Lined parse lane (batch.todo.map (·.1)) ∧
      Kept parse lane batch (id :: batch.applied) (batch.processed + 1)

/-- The invariant of the ordered runs. -/
structure Ordered (parse : Parser) (lane : Lane) : Prop where
  /-- The ack ids and the files. -/
  tracked : Tracked parse lane
  /-- The saves are in order at the point of the process. -/
  sequenced : Sequenced parse lane lane.pc

/-- Recovery finds the last save of every key among the lines to come. -/
theorem Kept.unprocessed {batch : Batch} {seen : List String} {count : Nat}
    (kept : Kept parse lane batch seen count) (holds : Holds lane batch)
    (known : ∀ id ∈ batch.applied, id ∈ seen)
    (some_left : lastSave parse key (batch.todo.map (·.1)) ≠ none) :
    lastSave parse key (lane.unprocessed parse) = lastSave parse key (batch.todo.map (·.1)) := by
  obtain ⟨last, found⟩ := Option.ne_none_iff_exists'.mp some_left
  have unrepeated : Unrepeated parse batch.applied (batch.todo.map (·.1)) :=
    kept.unrepeated.weaken fun _ _ member => known _ member
  have unknown := unrepeated.last found
  rw [found, Lane.unprocessed, holds.lines, holds.applied, Batch.lines,
    List.drop_append_of_le_length kept.mark, List.filter_append]
  have filtered : lastSave parse key ((batch.todo.map (·.1)).filter fun entry =>
      !acked batch.applied (entry.ackId parse)) = some last :=
    lastWrite_filter found (by simp [unknown])
  simp only [lastSave] at filtered ⊢
  rw [lastWrite_append, filtered, Option.some_or]

/-- A crash in the item loop leaves every key to recovery. -/
theorem Kept.recoverable {batch : Batch} {seen : List String} {count : Nat}
    (kept : Kept parse lane batch seen count) (holds : Holds lane batch)
    (known : ∀ id ∈ batch.applied, id ∈ seen) (lined : Lined parse lane (batch.todo.map (·.1))) :
    Recoverable parse lane (lane.unprocessed parse) :=
  lined.recoverable fun _ some_left => kept.unprocessed holds known some_left

/-- Recovery of a claimed batch finds all of its lines. -/
theorem unprocessed_claimed (lane : Lane) (unmarked : lane.watermark = 0 ∨ lane.claimedLines = [])
    (unknown : ∀ entry ∈ lane.claimedLines, acked lane.appliedIds (entry.ackId parse) = false) :
    lane.unprocessed parse = lane.claimedLines := by
  have whole : lane.claimedLines.drop lane.watermark = lane.claimedLines := by
    cases unmarked with
    | inl zero => rw [zero, List.drop_zero]
    | inr empty => rw [empty, List.drop_nil]
  rw [Lane.unprocessed, whole, List.filter_eq_self]
  intro entry member
  rw [unknown entry member]
  rfl

/-- A process without a claimed file has nothing to recover. -/
theorem unprocessed_absent (absent : lane.processing = none) : lane.unprocessed parse = [] := by
  rw [Lane.unprocessed, Lane.claimedLines, absent]
  simp

/-- The process may die at every point. -/
theorem Ordered.recoverable (ordered : Ordered parse lane) :
    Recoverable parse lane (lane.unprocessed parse) := by
  have located := ordered.tracked.located
  have sequenced := ordered.sequenced
  cases pc : lane.pc with
  | down =>
    rw [pc] at sequenced
    exact sequenced
  | requeue todo =>
    rw [pc] at sequenced
    exact sequenced.1.suffix sequenced.2
  | recovered =>
    rw [pc] at located sequenced
    rw [unprocessed_absent located]
    exact Lined.recoverable sequenced fun _ _ => rfl
  | idle =>
    rw [pc] at located sequenced
    rw [unprocessed_absent located]
    exact Lined.recoverable sequenced fun _ _ => rfl
  | finished =>
    rw [pc] at located sequenced
    rw [unprocessed_absent located]
    exact Lined.recoverable sequenced fun _ _ => rfl
  | claimed =>
    rw [pc] at sequenced
    obtain ⟨lined, unmarked, _, forgotten⟩ := sequenced
    have unknown : ∀ entry ∈ lane.claimedLines,
        acked lane.appliedIds (entry.ackId parse) = false := by
      intro entry member
      have absent : entry.ackId parse ∉ lane.appliedIds :=
        fun applied => forgotten entry member (ordered.tracked.durable _ applied)
      simp [acked, absent]
    rw [unprocessed_claimed lane unmarked unknown]
    exact lined.recoverable fun _ _ => rfl
  | items batch =>
    rw [pc] at located sequenced
    exact sequenced.2.recoverable located.1 (fun _ member => member) sequenced.1
  | saving batch =>
    rw [pc] at located sequenced
    exact sequenced.2.recoverable located.1 (fun _ member => member) sequenced.1
  | recording batch id cadence =>
    rw [pc] at located sequenced
    exact sequenced.2.recoverable located.1 (fun _ member => List.mem_cons_of_mem _ member)
      sequenced.1

/-- The batch after its next line. -/
theorem Kept.next {batch : Batch} {entry : Entry} {superseded : Bool} {rest : List (Entry × Bool)}
    (kept : Kept parse lane batch batch.applied batch.processed)
    (todo : batch.todo = (entry, superseded) :: rest) :
    Kept parse lane (batch.next entry rest) (entry.ackId parse :: batch.applied)
      (batch.processed + 1) := by
  obtain ⟨mark, within, unrepeated, marked⟩ := kept
  rw [todo] at unrepeated marked
  have longer : (batch.before ++ [entry]).length = batch.before.length + 1 := by simp
  refine ⟨?_, ?_, unrepeated.2, marked.2⟩
  · change lane.watermark ≤ (batch.before ++ [entry]).length
    omega
  · change batch.processed + 1 ≤ (batch.before ++ [entry]).length
    omega

/-- A smaller set of seen ids and a smaller count hold as well. -/
theorem Kept.mono {batch : Batch} {seen fewer : List String} {count less : Nat}
    (kept : Kept parse lane batch seen count) (sub : ∀ id ∈ fewer, id ∈ seen)
    (smaller : less ≤ count) : Kept parse lane batch fewer less :=
  ⟨kept.mark, Nat.le_trans smaller kept.within,
    kept.unrepeated.weaken fun _ _ member => sub _ member, kept.marked⟩

/-- After a count the saves to come are in order. -/
theorem Sequenced.advance (lane : Lane) {batch : Batch}
    (lined : Lined parse lane (batch.todo.map (·.1)))
    (kept : Kept parse lane batch batch.applied (batch.processed + 1)) (cadence : Bool) :
    Sequenced parse lane (Lane.advance batch cadence) := by
  have counted : Kept parse lane { batch with processed := batch.processed + 1 } batch.applied
      (batch.processed + 1) := ⟨kept.mark, kept.within, kept.unrepeated, kept.marked⟩
  cases advance_cases batch cadence with
  | inl saving =>
    rw [saving]
    exact ⟨lined, counted⟩
  | inr items =>
    rw [items]
    exact ⟨lined, counted⟩

/-- A superseded save leaves the saves to come in order. -/
theorem Sequenced.afterSkip {batch : Batch} {entry : Entry} {rest : List (Entry × Bool)}
    (lined : Lined parse lane (rest.map (·.1)))
    (kept : Kept parse lane (batch.next entry rest) (entry.ackId parse :: batch.applied)
      (batch.processed + 1)) :
    Sequenced parse lane (Lane.afterSkip parse (batch.next entry rest) entry) := by
  unfold Lane.afterSkip
  dsimp only
  split
  · exact Sequenced.advance lane lined
      (kept.mono (fun _ member => List.mem_cons_of_mem _ member) (Nat.le_refl _)) false
  · exact ⟨lined, kept⟩

/-- A dispatched line leaves the saves to come in order. -/
theorem Sequenced.afterSuccess {batch : Batch} {entry : Entry} {rest : List (Entry × Bool)}
    (lined : Lined parse lane (rest.map (·.1)))
    (kept : Kept parse lane (batch.next entry rest) (entry.ackId parse :: batch.applied)
      (batch.processed + 1)) (rejected : Bool) :
    Sequenced parse lane (Lane.afterSuccess parse (batch.next entry rest) entry rejected) := by
  have fewer := kept.mono (fun _ member => List.mem_cons_of_mem _ member) (Nat.le_refl _)
  unfold Lane.afterSuccess
  dsimp only
  split
  · exact ⟨lined, kept⟩
  · split
    · exact ⟨lined, fewer.mono (fun _ member => member) (Nat.le_succ _)⟩
    · exact Sequenced.advance lane lined fewer true

/-- Creating the queue file keeps the saves in order at every point of the process. -/
theorem Sequenced.created {pc : Pc} (sequenced : Sequenced parse lane pc) :
    Sequenced parse { lane with queue := some lane.queued } pc := by
  cases pc with
  | items batch =>
    exact ⟨sequenced.1,
      ⟨sequenced.2.mark, sequenced.2.within, sequenced.2.unrepeated, sequenced.2.marked⟩⟩
  | saving batch =>
    exact ⟨sequenced.1,
      ⟨sequenced.2.mark, sequenced.2.within, sequenced.2.unrepeated, sequenced.2.marked⟩⟩
  | recording batch id cadence =>
    exact ⟨sequenced.1,
      ⟨sequenced.2.mark, sequenced.2.within, sequenced.2.unrepeated, sequenced.2.marked⟩⟩
  | _ => exact sequenced

/-- An appended line keeps the saves in order at every point of the process. -/
theorem Sequenced.appended {pc : Pc} (sequenced : Sequenced parse lane pc) (entry : Entry) :
    Sequenced parse { lane.push entry with appended := lane.appended ++ [entry] } pc := by
  cases pc with
  | down => exact Recoverable.appended sequenced entry
  | requeue todo => exact ⟨sequenced.1.appended entry, sequenced.2⟩
  | recovered => exact Lined.appended sequenced entry
  | idle => exact Lined.appended sequenced entry
  | finished => exact Lined.appended sequenced entry
  | claimed => exact ⟨sequenced.1.appended entry, sequenced.2⟩
  | items batch =>
    exact ⟨sequenced.1.appended entry,
      ⟨sequenced.2.mark, sequenced.2.within, sequenced.2.unrepeated, sequenced.2.marked⟩⟩
  | saving batch =>
    exact ⟨sequenced.1.appended entry,
      ⟨sequenced.2.mark, sequenced.2.within, sequenced.2.unrepeated, sequenced.2.marked⟩⟩
  | recording batch id cadence =>
    exact ⟨sequenced.1.appended entry,
      ⟨sequenced.2.mark, sequenced.2.within, sequenced.2.unrepeated, sequenced.2.marked⟩⟩

/-- A line whose body throws is no save, when the handlers of saves do not throw. -/
theorem failed_key {outcome : Outcome} {entry : Entry} {thrown : Thrown}
    (cause : readItem parse entry.line = .error thrown ∨ outcome = .failed thrown)
    (returns : entry.key parse ≠ none → outcome = .accepted ∨ outcome = .rejected) :
    entry.key parse = none := by
  cases cause with
  | inl unreadable => simp only [Entry.key, saveKey, saveEvent, unreadable, Option.map_none]
  | inr threw =>
    cases found : entry.key parse with
    | none => rfl
    | some key =>
      cases returns (by simp [found]) with
      | inl accepted => rw [threw] at accepted; contradiction
      | inr rejected => rw [threw] at rejected; contradiction

/-- An ordered step keeps the invariant. -/
theorem Ordered.step (ordered : Ordered parse lane) (inOrder : InOrder parse lane action)
    (change : Change parse lane action after) : Ordered parse after := by
  refine ⟨ordered.tracked.step inOrder.fresh change, ?_⟩
  have located := ordered.tracked.located
  have sequenced := ordered.sequenced
  cases change with
  | created => exact sequenced.created
  | appended line nonempty => exact sequenced.appended _
  | crashed => exact ordered.recoverable
  | started pc absent =>
    have recoverable := ordered.recoverable
    rw [unprocessed_absent absent] at recoverable
    exact recoverable.lined
  | recovering pc file found => exact ⟨ordered.recoverable, List.suffix_rfl⟩
  | requeued running outcome entry rest pc =>
    rw [pc] at sequenced
    have newest := inOrder.2.1
    simp only [Lane.requeueing, pc] at newest
    refine ⟨sequenced.1.requeued (newest entry rfl), ?_⟩
    exact (List.suffix_cons entry rest).trans sequenced.2
  | emptied running outcome pc =>
    rw [pc] at sequenced
    exact sequenced.1.lined
  | cleared running outcome pc =>
    cases pc with
    | inl recovered => rw [recovered] at sequenced; exact sequenced
    | inr finished => rw [finished] at sequenced; exact sequenced
  | claimed running outcome lines pc found =>
    have queued : lane.queued = lines := by rw [Lane.queued, found]; rfl
    rw [pc] at sequenced
    obtain ⟨unmarked, unrepeated⟩ := inOrder.1 pc
    have forgotten := ordered.tracked.queue
    rw [queued] at unmarked unrepeated forgotten
    refine ⟨fun key => ?_, unmarked, unrepeated, forgotten⟩
    have order := sequenced key
    rw [queued] at order
    simp only [lastSave, lastWrite_nil, Option.or_none] at order
    exact order
  | discarded running outcome pc empty =>
    rw [pc] at sequenced
    have lined := sequenced.1
    rw [empty] at lined
    exact lined
  | refused running outcome pc thrown bad =>
    rw [pc] at sequenced
    obtain ⟨lined, unmarked, _, forgotten⟩ := sequenced
    have rotated := appliedIds_rotated parse lane .down
    have all : Lane.unprocessed parse { lane with acks := lane.rotated parse, pc := .down } =
        lane.claimedLines := by
      apply unprocessed_claimed { lane with acks := lane.rotated parse, pc := .down } unmarked
      intro entry member
      have absent : entry.ackId parse ∉ rotate parse lane.appliedIds lane.claimedLines := by
        intro retained
        have applied := (List.mem_filter.mp retained).1
        exact forgotten entry member (ordered.tracked.durable _ applied)
      rw [rotated]
      simp [acked, absent]
    change Recoverable parse _ (Lane.unprocessed parse _)
    rw [all]
    exact lined.recoverable fun _ _ => rfl
  | opened running outcome pc nonempty keys read =>
    rw [pc] at sequenced
    obtain ⟨lined, unmarked, unrepeated, forgotten⟩ := sequenced
    have zipped : (lane.claimedLines.zip (coalesceMarks keys)).map (·.1) = lane.claimedLines :=
      marked_lines read
    have zero : lane.watermark = 0 := by
      cases unmarked with
      | inl zero => exact zero
      | inr empty => exact absurd empty nonempty
    refine ⟨?_, Nat.le_of_eq zero, Nat.le_refl 0, ?_, marked_zip read⟩
    · change Lined parse lane ((lane.claimedLines.zip (coalesceMarks keys)).map (·.1))
      rw [zipped]
      exact lined
    · change Unrepeated parse (rotate parse lane.appliedIds lane.claimedLines)
        ((lane.claimedLines.zip (coalesceMarks keys)).map (·.1))
      rw [zipped]
      apply unrepeated.weaken
      intro entry member retained
      have applied := (List.mem_filter.mp retained).1
      exact absurd (ordered.tracked.durable _ applied) (forgotten entry member)
  | stopped running outcome batch pc short =>
    rw [pc] at located sequenced
    obtain ⟨lined, kept⟩ := sequenced
    have marked : Kept parse { lane with ckpt := some batch.processed, pc := .down } batch
        batch.applied batch.processed :=
      ⟨kept.within, kept.within, kept.unrepeated, kept.marked⟩
    exact marked.recoverable ⟨located.1.lines, located.1.applied⟩ (fun _ member => member) lined
  | removed running outcome batch pc full =>
    rw [pc] at sequenced
    obtain ⟨lined, kept⟩ := sequenced
    have within := kept.within
    have empty : batch.todo = [] := by
      rw [Batch.size] at full
      exact List.length_eq_zero_iff.mp (by omega)
    rw [empty] at lined
    exact lined
  | skipped outcome batch entry rest pc todo =>
    rw [pc] at sequenced
    obtain ⟨lined, kept⟩ := sequenced
    have next := kept.next todo
    have superseded := kept.marked
    rw [todo] at lined superseded
    have passed : Lined parse lane (rest.map (·.1)) := lined.pass (superseded.1 rfl)
    exact Sequenced.afterSkip passed
      ⟨next.mark, next.within, next.unrepeated, next.marked⟩
  | passed outcome batch entry rest pc todo known =>
    rw [pc] at sequenced
    obtain ⟨lined, kept⟩ := sequenced
    have next := (kept.next todo).mono (fun _ member => List.mem_cons_of_mem _ member)
      (Nat.le_refl _)
    have unrepeated := kept.unrepeated
    rw [todo] at lined unrepeated
    have behind : Lined parse lane (rest.map (·.1)) := by
      apply lined.pass
      intro key writes last
      cases unrepeated.1 key writes last with
      | inl unnamed => simp [acked, unnamed] at known
      | inr unseen => simp [acked, unseen] at known
    exact Sequenced.advance { lane with pc := Lane.advance (batch.next entry rest) false } behind
      ⟨next.mark, next.within, next.unrepeated, next.marked⟩ false
  | failed outcome batch entry rest pc todo unknown thrown cause =>
    have returns := inOrder.2.2 rfl entry (Lane.upcoming_items pc todo unknown)
    have no_key := failed_key cause returns
    rw [pc] at sequenced
    obtain ⟨lined, kept⟩ := sequenced
    have next := (kept.next todo).mono (fun _ member => List.mem_cons_of_mem _ member)
      (Nat.le_refl _)
    rw [todo] at lined
    have behind : Lined parse lane (rest.map (·.1)) := by
      apply lined.pass
      intro key writes
      rw [no_key] at writes
      contradiction
    exact Sequenced.advance (lane.fail parse (batch.next entry rest) entry thrown) behind
      ⟨next.mark, next.within, next.unrepeated, next.marked⟩ true
  | succeeded outcome batch entry rest rejected pc todo unknown item read returned =>
    rw [pc] at sequenced
    obtain ⟨lined, kept⟩ := sequenced
    have next := kept.next todo
    rw [todo] at lined
    have moved : Lined parse (lane.succeed parse (batch.next entry rest) entry rejected)
        (rest.map (·.1)) := lined.dispatch
    exact Sequenced.afterSuccess moved
      ⟨next.mark, next.within, next.unrepeated, next.marked⟩ rejected
  | recorded running outcome batch id cadence pc =>
    rw [pc] at sequenced
    obtain ⟨lined, kept⟩ := sequenced
    set updated : Batch := { batch with applied := id :: batch.applied }
    set recorded : Lane := { lane with
      acks := some (id :: batch.applied)
      persisted := id :: lane.persisted
      pc := Lane.advance updated cadence }
    have counted : Kept parse recorded updated updated.applied (updated.processed + 1) :=
      ⟨kept.mark, kept.within, kept.unrepeated, kept.marked⟩
    have moved : Lined parse recorded (updated.todo.map (·.1)) := lined
    exact Sequenced.advance recorded moved counted cadence
  | saved running outcome batch pc =>
    rw [pc] at sequenced
    obtain ⟨lined, kept⟩ := sequenced
    exact ⟨lined, kept.within, kept.within, kept.unrepeated, kept.marked⟩

/-! ## Whole runs -/

/-- The invariant holds in every ordered run. -/
theorem reaches_ordered (reached : (system parse).Reaches (InOrder parse) lane) :
    Ordered parse lane := by
  refine reached.invariant ⟨reaches_tracked .initial, ?_⟩ fun _ _ _ ordered inOrder taken =>
    ordered.step inOrder (step_change taken)
  intro key
  exact .inr rfl

/-- The events that the saves among some dispatched lines have stored, in order. -/
def saveEvents (parse : Parser) (lines : List Entry) : List (String × Json) :=
  lines.filterMap fun entry => saveEvent parse entry.line

/-- The latest event of a key. -/
def latestEvent (key : String) (events : List (String × Json)) : Option (String × Json) :=
  lastWrite (fun event => some event.1) key events

/-- The latest event among the saves of some lines is that of their last save. -/
theorem latestEvent_saveEvents (key : String) (lines : List Entry) :
    latestEvent key (saveEvents parse lines) =
      (lastSave parse key lines).bind fun entry => saveEvent parse entry.line :=
  lastWrite_filterMap _ lines

/-- In every run whose steps meet the condition, once the queue is drained the latest event of
every key is that of the last save a producer appended for it. -/
theorem drained_latest_save (reached : (system parse).Reaches (InOrder parse) lane)
    (queued : lane.queued = []) (claimed : lane.claimedLines = []) (key : String) :
    lastSave parse key lane.dispatched = lastSave parse key lane.appended ∧
    latestEvent key (saveEvents parse lane.dispatched) =
      latestEvent key (saveEvents parse lane.appended) := by
  have recoverable := (reaches_ordered reached).recoverable
  have nothing : lane.unprocessed parse = [] := by
    rw [Lane.unprocessed, claimed, List.drop_nil, List.filter_nil]
  rw [nothing] at recoverable
  have lined := recoverable.lined key
  rw [queued] at lined
  simp only [lastSave, lastWrite_nil, Option.none_or] at lined
  refine ⟨lined, ?_⟩
  rw [latestEvent_saveEvents, latestEvent_saveEvents, lastSave, lastSave, lined]

/-! ## An older save behind a newer one -/

/-- The text `{"tool":"ledger_save","args":{"session_id":"s","n":1}}`. -/
def firstSave : Line := [
  123, 34, 116, 111, 111, 108, 34, 58, 34, 108, 101, 100, 103, 101, 114, 95, 115, 97, 118, 101,
  34, 44, 34, 97, 114, 103, 115, 34, 58, 123, 34, 115, 101, 115, 115, 105, 111, 110, 95, 105,
  100, 34, 58, 34, 115, 34, 44, 34, 110, 34, 58, 49, 125, 125]

/-- The text `{"tool":"ledger_save","args":{"session_id":"s","n":2}}`. -/
def secondSave : Line := [
  123, 34, 116, 111, 111, 108, 34, 58, 34, 108, 101, 100, 103, 101, 114, 95, 115, 97, 118, 101,
  34, 44, 34, 97, 114, 103, 115, 34, 58, 123, 34, 115, 101, 115, 115, 105, 111, 110, 95, 105,
  100, 34, 58, 34, 115, 34, 44, 34, 110, 34, 58, 50, 125, 125]

/-- The value of such a text. -/
def saveItem (number : Int) : Json :=
  .obj [("args", .obj [("n", .int number), ("session_id", .str "s")]),
    ("tool", .str "ledger_save")]

/-- A parser that knows these texts only. -/
def saveParser : Parser := fun line =>
  if line = firstSave then some (saveItem 1)
  else if line = secondSave then some (saveItem 2)
  else none

/-- A save is claimed; the process dies; a newer save is queued; the next process appends the
older one behind it and drains the queue. -/
def overtakenRun : List Action :=
  [.enqueue firstSave, .start, .tick true .accepted, .crash, .enqueue secondSave, .start] ++
  List.replicate 9 (.tick true .accepted)

/-- The drained queue leaves the older save as the latest event. -/
theorem recovery_resurrects_save : ∃ lane, (system saveParser).Reachable lane ∧
    lane.queued = [] ∧ lane.claimedLines = [] ∧
    lastSave saveParser "s:default" lane.dispatched = some ⟨0, firstSave⟩ ∧
    lastSave saveParser "s:default" lane.appended = some ⟨1, secondSave⟩ := by
  obtain ⟨lane, replayed, queued, claimed, latest, newest⟩ : ∃ lane,
      (system saveParser).run (system saveParser).initial overtakenRun = some lane ∧
        lane.queued = [] ∧ lane.claimedLines = [] ∧
        lastSave saveParser "s:default" lane.dispatched = some ⟨0, firstSave⟩ ∧
        lastSave saveParser "s:default" lane.appended = some ⟨1, secondSave⟩ :=
    ⟨_, rfl, rfl, rfl, rfl, rfl⟩
  exact ⟨lane, .of_run overtakenRun .initial replayed, queued, claimed, latest, newest⟩

/-- A save is claimed; the process dies; the next process recovers it, and a newer save is queued
behind it and drained with it. -/
def recoveredRun : List Action :=
  [.enqueue firstSave, .start, .tick true .accepted, .crash, .start, .tick true .accepted,
    .enqueue secondSave] ++ List.replicate 8 (.tick true .accepted)

/-- The drained queue leaves the newer save as the latest event. -/
theorem drained_latest_save_recovered : ∃ lane,
    (system saveParser).runAllowed (InOrder saveParser) (system saveParser).initial recoveredRun =
      some lane ∧
    lastSave saveParser "s:default" lane.dispatched =
    lastSave saveParser "s:default" lane.appended ∧
    lastSave saveParser "s:default" lane.appended = some ⟨1, secondSave⟩ := by
  obtain ⟨lane, replayed, queued, claimed, newest⟩ : ∃ lane,
      (system saveParser).runAllowed (InOrder saveParser) (system saveParser).initial recoveredRun =
        some lane ∧ lane.queued = [] ∧ lane.claimedLines = [] ∧
        lastSave saveParser "s:default" lane.appended = some ⟨1, secondSave⟩ :=
    ⟨_, rfl, rfl, rfl, rfl⟩
  have latest := drained_latest_save (.of_runAllowed _ .initial replayed) queued claimed "s:default"
  exact ⟨lane, replayed, latest.1, newest⟩

end Chitta.Queue
