import Chitta.Queue.Lane

/-!
# One pass over a claimed batch

The whole of what `run` does with a batch, as one computation: the rotation of the ack ledger,
the coalescing pre-pass, and the item loop with its exception handler. The pass gives each line
it reaches its fate and says how it ended. An exception of the ack ledger pauses the lane with
the claimed file in place; any other exception that leaves `run` ends the daemon. What handlers
do with a line they can read, and when the ack ledger fails, is up to the environment.
-/
namespace Chitta.Queue

/-- What becomes of a line. -/
inductive Fate where
  /-- Its handler returned. -/
  | dispatched
  /-- A later save of its key replaces it. -/
  | superseded
  /-- Its ack id was applied before. -/
  | passed
  /-- It is in the dead-letter file. -/
  | buried
  /-- Nothing is left of it. -/
  | dropped
deriving DecidableEq, Repr

/-- How a pass ends. -/
inductive Ending where
  /-- The loop has left every line behind. -/
  | finished
  /-- A `QueueAckError` paused the lane. -/
  | paused
  /-- Another exception left `run`. -/
  | escaped (thrown : Thrown)
deriving DecidableEq, Repr

/-- The fates of the lines that were reached, in order, and the end. -/
structure Pass where
  /-- The fates. -/
  fates : List Fate
  /-- The end. -/
  ending : Ending
deriving DecidableEq, Repr

/-- The store as a pass finds it. -/
structure Store where
  /-- The ids in the ledger of applied acks. -/
  acks : List String
  /-- The exception of the handler that a line reaches, if it throws one. The rejection of an
  observation is not among the ends: the confidence has just been raised to the floor it is
  tested against. -/
  handler : Entry → Option Thrown

/-- Where the ack ledger and the syncs before it succeed. -/
structure Durability where
  /-- The ledger can be read and rotated. -/
  rotates : Bool
  /-- The ack id of a line can be made durable. -/
  records : Entry → Bool

/-- Nothing fails. -/
def Durability.always : Durability := ⟨true, fun _ => true⟩

/-- The exception that ends the item of a line, from the reads of the loop body or from the
handler. The handler of a save reads both parts of the key before it stores anything. -/
def itemError (parse : Parser) (store : Store) (entry : Entry) : Option Thrown :=
  match readItem parse entry.line with
  | .error thrown => some thrown
  | .ok (tool, args) =>
    if tool = "ledger_save" then
      match saveKeyOf args with
      | .error thrown => some thrown
      | .ok none => none
      | .ok (some _) => store.handler entry
    else store.handler entry

/-- `AppliedAcks::record`: the ids afterwards, none when the ack could not be made durable. -/
def record (parse : Parser) (durable : Durability) (applied : List String) (entry : Entry) :
    Option (List String) :=
  let id := entry.ackId parse
  if id = "" || acked applied id then some applied
  else if durable.records entry then some (id :: applied)
  else none

/-- What is left of a line whose item ended with an exception. -/
def bury (parse : Parser) (entry : Entry) (thrown : Thrown) : Fate :=
  match failedItem parse entry.line thrown with
  | .ok _ => .buried
  | .error _ => .dropped

/-- One line of the item loop: its fate, and the applied ids unless the lane pauses. -/
def passItem (parse : Parser) (store : Store) (durable : Durability) (applied : List String)
    (entry : Entry) (superseded : Bool) : Fate × Option (List String) :=
  if superseded then (.superseded, record parse durable applied entry)
  else if acked applied (entry.ackId parse) then (.passed, some applied)
  else
    match itemError parse store entry with
    | some thrown => (bury parse entry thrown, some applied)
    | none => (.dispatched, record parse durable applied entry)

/-- The item loop. -/
def passItems (parse : Parser) (store : Store) (durable : Durability) :
    List (Entry × Bool) → List String → Pass
  | [], _ => ⟨[], .finished⟩
  | (entry, superseded) :: rest, applied =>
    match passItem parse store durable applied entry superseded with
    | (fate, none) => ⟨[fate], .paused⟩
    | (fate, some applied) =>
      let later := passItems parse store durable rest applied
      ⟨fate :: later.fates, later.ending⟩

/-- The pass over a claimed batch. -/
def pass (parse : Parser) (store : Store) (durable : Durability) (batch : List Entry) : Pass :=
  if durable.rotates then
    match coalesceKeys parse (batch.map (·.line)) with
    | .error thrown => ⟨[], .escaped thrown⟩
    | .ok keys =>
      passItems parse store durable (batch.zip (coalesceMarks keys))
        (rotate parse store.acks batch)
  else ⟨[], .paused⟩

/-- A line that cannot be worked off: an exception ends its item, and not one that the store
raised against a save that could be read. -/
def malformed (parse : Parser) (store : Store) (entry : Entry) : Bool :=
  match readItem parse entry.line with
  | .error _ => true
  | .ok (tool, args) =>
    if tool = "ledger_save" then !(saveKeyOf args).toBool else (store.handler entry).isSome

/-- The batch survives the pass. -/
structure Survives (parse : Parser) (store : Store) (durable : Durability)
    (batch : List Entry) : Prop where
  /-- Only exceptions of the ack ledger escape. -/
  contained : ∀ thrown, (pass parse store durable batch).ending ≠ .escaped thrown
  /-- A pass that is not paused reaches every line. -/
  reached : (pass parse store durable batch).ending = .finished →
    (pass parse store durable batch).fates.length = batch.length
  /-- No line that is reached is dropped. -/
  consumed : .dropped ∉ (pass parse store durable batch).fates
  /-- A malformed line ends in the dead-letter file, unless its ack id says that it was worked
  off before. -/
  buried : ∀ entry fate, (entry, fate) ∈ batch.zip (pass parse store durable batch).fates →
    malformed parse store entry = true → fate = .buried ∨ fate = .passed
  /-- The other lines fare as if the malformed lines were absent. -/
  undisturbed :
    (((batch.zip (pass parse store durable batch).fates).filter
        fun line => !malformed parse store line.1).map (·.2)) =
      (pass parse store durable (batch.filter fun entry => !malformed parse store entry)).fates

/-! ## When a batch survives -/

/-- A later line of the batch saves under the key of this one. -/
def Superseded (parse : Parser) (entry : Entry) (after : List Entry) : Prop :=
  ∃ key, coalesceKey parse entry.line = .ok (some key) ∧
    ∃ later ∈ after, coalesceKey parse later.line = .ok (some key)

/-- An ack id is applied when `todo` is still to come: the ledger has it, or a line before carries
it and was superseded or worked off. -/
def Applied (parse : Parser) (store : Store) (id : String) (before todo : List Entry) : Prop :=
  id ≠ "" ∧
    (id ∈ store.acks ∨
      ∃ first entry between, before = first ++ entry :: between ∧ entry.ackId parse = id ∧
        (Superseded parse entry (between ++ todo) ∨ itemError parse store entry = none))

/-- The batches that survive: the pre-pass can read every line, and every line can be described
in the dead-letter file unless its ack id is applied by the time it is reached. -/
structure Survivable (parse : Parser) (store : Store) (batch : List Entry) : Prop where
  /-- The accessors of the pre-pass do not throw. -/
  keyed : ∀ entry ∈ batch, ∃ key, coalesceKey parse entry.line = .ok key
  /-- The accessors of the dead-letter entry do not throw. -/
  described : ∀ before entry after, batch = before ++ entry :: after →
    describable parse entry.line = true ∨
      Applied parse store (entry.ackId parse) before (entry :: after)

variable {parse : Parser} {store : Store} {durable : Durability} {entry : Entry}

/-! ## What the reads of a line have in common -/

/-- A line that the loop works off can be described. -/
theorem describable_of_returned (returned : itemError parse store entry = none) :
    describable parse entry.line = true := by
  cases described : describable parse entry.line with
  | true => rfl
  | false =>
    obtain ⟨thrown, unread⟩ := readItem_error parse described
    simp [itemError, unread] at returned

/-- A superseded line can be described. -/
theorem describable_of_superseded {after : List Entry}
    (superseded : Superseded parse entry after) : describable parse entry.line = true := by
  obtain ⟨key, coalesced, _⟩ := superseded
  obtain ⟨args, read, _⟩ := readSave_of_coalesceKey parse coalesced
  cases described : describable parse entry.line with
  | true => rfl
  | false =>
    obtain ⟨thrown, unread⟩ := readItem_error parse described
    rw [read] at unread
    contradiction

/-- The pre-pass coalesces no malformed line. -/
theorem malformed_unkeyed (bad : malformed parse store entry = true)
    (keyed : ∃ key, coalesceKey parse entry.line = .ok key) :
    coalesceKey parse entry.line = .ok none := by
  obtain ⟨key, read⟩ := keyed
  cases key with
  | none => exact read
  | some key =>
    obtain ⟨args, readItem, readKey⟩ := readSave_of_coalesceKey parse read
    simp [malformed, readItem, readKey, Except.toBool] at bad

/-- A malformed line ends its item with an exception. -/
theorem malformed_throws (bad : malformed parse store entry = true) :
    ∃ thrown, itemError parse store entry = some thrown := by
  unfold malformed at bad
  unfold itemError
  cases read : readItem parse entry.line with
  | error thrown => exact ⟨thrown, rfl⟩
  | ok item =>
    simp only [read] at bad
    dsimp only
    split at bad
    · cases key : saveKeyOf item.2 with
      | error thrown => exact ⟨thrown, by simp_all⟩
      | ok key => simp [key, Except.toBool] at bad
    · rename_i other
      obtain ⟨thrown, threw⟩ := Option.isSome_iff_exists.mp bad
      exact ⟨thrown, by simp [other, threw]⟩

/-- A line is buried exactly when it can be described. -/
theorem bury_eq (thrown : Thrown) :
    bury parse entry thrown = if describable parse entry.line then .buried else .dropped := by
  have built := failedItem_isOk parse entry.line thrown
  unfold bury
  cases entryBuilt : failedItem parse entry.line thrown with
  | ok letter =>
    rw [entryBuilt] at built
    rw [← built]
    rfl
  | error inner =>
    rw [entryBuilt] at built
    rw [← built]
    rfl

/-- The ids after a recorded line. -/
theorem record_acked {applied ids : List String}
    (recorded : record parse durable applied entry = some ids) (id : String) :
    acked ids id = true ↔ acked applied id = true ∨ (id ≠ "" ∧ entry.ackId parse = id) := by
  simp only [record] at recorded
  split at recorded
  · rename_i known
    obtain rfl := Option.some.inj recorded
    constructor
    · exact .inl
    · rintro (was | ⟨named, same⟩)
      · exact was
      · rw [same] at known
        simpa [named] using known
  · split at recorded
    · obtain rfl := Option.some.inj recorded
      simp only [acked, Bool.and_eq_true, decide_eq_true_eq, List.mem_cons]
      constructor
      · rintro ⟨named, new | old⟩
        · exact .inr ⟨named, new.symm⟩
        · exact .inl ⟨named, old⟩
      · rintro (⟨named, old⟩ | ⟨named, same⟩)
        · exact ⟨named, .inr old⟩
        · exact ⟨named, .inl same.symm⟩
    · contradiction

/-! ## The fates -/

/-- The fate of a line between the lines before and after it. -/
inductive Fated (parse : Parser) (store : Store) (before : List Entry) (entry : Entry)
    (after : List Entry) : Fate → Prop
  | superseded (saved : Superseded parse entry after) :
      Fated parse store before entry after .superseded
  | passed (applied : Applied parse store (entry.ackId parse) before (entry :: after)) :
      Fated parse store before entry after .passed
  | buried (thrown : Thrown) (threw : itemError parse store entry = some thrown)
      (described : describable parse entry.line = true) :
      Fated parse store before entry after .buried
  | dropped (unapplied : ¬ Applied parse store (entry.ackId parse) before (entry :: after))
      (undescribed : describable parse entry.line = false) :
      Fated parse store before entry after .dropped
  | dispatched (returned : itemError parse store entry = none) :
      Fated parse store before entry after .dispatched

/-- Every line that was reached has its fate. -/
def AllFated (parse : Parser) (store : Store) : List Entry → List Entry → List Fate → Prop
  | before, entry :: after, fate :: fates =>
    Fated parse store before entry after fate ∧
      AllFated parse store (before ++ [entry]) after fates
  | _, _, [] => True
  | _, [], _ :: _ => False

/-- No line has been reached yet. -/
@[simp] theorem allFated_nil (before todo : List Entry) : AllFated parse store before todo [] := by
  cases todo with
  | nil => trivial
  | cons entry rest => trivial

/-- The ids in memory are the applied ones, as far as the remaining lines ask. -/
def Known (parse : Parser) (store : Store) (before todo : List Entry) (applied : List String) :
    Prop :=
  ∀ entry ∈ todo, acked applied (entry.ackId parse) = true ↔
    Applied parse store (entry.ackId parse) before todo

/-- A line that is left behind adds its own id, when it is superseded or worked off. -/
theorem applied_concat (id : String) (before rest : List Entry) (entry : Entry) :
    Applied parse store id (before ++ [entry]) rest ↔
      Applied parse store id before (entry :: rest) ∨
        (id ≠ "" ∧ entry.ackId parse = id ∧
          (Superseded parse entry rest ∨ itemError parse store entry = none)) := by
  constructor
  · rintro ⟨named, listed | ⟨first, earlier, between, split, same, done⟩⟩
    · exact .inl ⟨named, .inl listed⟩
    · cases between.eq_nil_or_concat with
      | inl empty =>
        subst empty
        obtain ⟨_, own⟩ := List.append_inj' split rfl
        obtain rfl : entry = earlier := by simpa using own
        exact .inr ⟨named, same, done⟩
      | inr more =>
        obtain ⟨inner, last, rfl⟩ := more
        have regroup : before ++ [entry] = (first ++ earlier :: inner) ++ [last] := by
          simpa using split
        obtain ⟨prior, own⟩ := List.append_inj' regroup rfl
        obtain rfl : entry = last := by simpa using own
        refine .inl ⟨named, .inr ⟨first, earlier, inner, prior, same, ?_⟩⟩
        simpa using done
  · rintro (⟨named, listed | ⟨first, earlier, between, split, same, done⟩⟩ | ⟨named, same, done⟩)
    · exact ⟨named, .inl listed⟩
    · refine ⟨named, .inr ⟨first, earlier, between ++ [entry], ?_, same, ?_⟩⟩
      · simp [split]
      · simpa using done
    · exact ⟨named, .inr ⟨before, entry, [], rfl, same, by simpa using done⟩⟩

/-- The mark of a line says that it is superseded. -/
theorem mark_iff {rest : List Entry} {key : Option String} {others : List (Option String)}
    (own : coalesceKey parse entry.line = .ok key)
    (later : coalesceKeys parse (rest.map (·.line)) = .ok others) :
    (key.isSome && decide (key ∈ others)) = true ↔ Superseded parse entry rest := by
  rw [Bool.and_eq_true, decide_eq_true_eq, coalesceKeys_mem later]
  constructor
  · rintro ⟨present, line, written, reads⟩
    obtain ⟨name, rfl⟩ := Option.isSome_iff_exists.mp present
    obtain ⟨other, inside, rfl⟩ := List.mem_map.mp written
    exact ⟨name, own, other, inside, reads⟩
  · rintro ⟨name, mine, other, inside, reads⟩
    obtain rfl := Except.ok.inj (own.symm.trans mine)
    exact ⟨rfl, other.line, List.mem_map_of_mem inside, reads⟩

/-- One line gets its fate, and the ids in memory stay the applied ones. -/
theorem passItem_fated (durable : Durability) {before rest : List Entry} {applied : List String}
    {superseded : Bool}
    (mark : superseded = true ↔ Superseded parse entry rest)
    (known : Known parse store before (entry :: rest) applied) :
    Fated parse store before entry rest
        (passItem parse store durable applied entry superseded).1 ∧
      ∀ ids, (passItem parse store durable applied entry superseded).2 = some ids →
        Known parse store (before ++ [entry]) rest ids := by
  have own := known entry List.mem_cons_self
  have recorded : (Superseded parse entry rest ∨ itemError parse store entry = none) →
      ∀ ids, record parse durable applied entry = some ids →
        Known parse store (before ++ [entry]) rest ids := by
    intro done ids saved other inside
    rw [record_acked saved, applied_concat, known other (List.mem_cons_of_mem _ inside)]
    simp only [done, and_true]
  unfold passItem
  cases superseded with
  | true =>
    have saved : Superseded parse entry rest := mark.mp rfl
    exact ⟨.superseded saved, recorded (.inl saved)⟩
  | false =>
    have unsaved : ¬ Superseded parse entry rest := fun saved => by
      have marked := mark.mpr saved
      contradiction
    simp only [Bool.false_eq_true, ↓reduceIte]
    split
    · rename_i acked
      have applied_before := own.mp acked
      refine ⟨.passed applied_before, ?_⟩
      rintro ids saved other inside
      obtain rfl := Option.some.inj saved
      rw [applied_concat, known other (List.mem_cons_of_mem _ inside)]
      constructor
      · exact .inl
      · rintro (was | ⟨_, same, _⟩)
        · exact was
        · exact same ▸ applied_before
    · rename_i unknown
      have unapplied := fun was => unknown (own.mpr was)
      cases item : itemError parse store entry with
      | none => exact ⟨.dispatched item, recorded (.inr item)⟩
      | some thrown =>
        constructor
        · dsimp only
          rw [bury_eq]
          split
          · rename_i described
            exact .buried thrown item described
          · rename_i undescribed
            exact .dropped unapplied (by simpa using undescribed)
        · rintro ids saved other inside
          obtain rfl := Option.some.inj saved
          rw [applied_concat, known other (List.mem_cons_of_mem _ inside)]
          simp [unsaved, item]

/-- Every line that the loop reaches gets its fate. -/
theorem passItems_fated (durable : Durability) {todo before : List Entry} {applied : List String}
    {keys : List (Option String)}
    (read : coalesceKeys parse (todo.map (·.line)) = .ok keys)
    (known : Known parse store before todo applied) :
    AllFated parse store before todo
      (passItems parse store durable (todo.zip (coalesceMarks keys)) applied).fates := by
  induction todo generalizing before applied keys with
  | nil => trivial
  | cons entry rest ih =>
    obtain ⟨key, own, read⟩ := bind_ok read
    obtain ⟨others, later, read⟩ := bind_ok read
    obtain rfl := Except.ok.inj read
    obtain ⟨fated, knows⟩ := passItem_fated durable (mark_iff own later) known
    simp only [coalesceMarks, List.zip_cons_cons, passItems]
    cases step : passItem parse store durable applied entry
        (key.isSome && decide (key ∈ others)) with
    | mk fate ids =>
      rw [step] at fated knows
      cases ids with
      | none => exact ⟨fated, allFated_nil _ _⟩
      | some ids => exact ⟨fated, ih later (knows ids rfl)⟩

/-- The rotation keeps the ids that a line of the batch carries. -/
theorem acked_rotate (ids : List String) {batch : List Entry} (inside : entry ∈ batch) :
    acked (rotate parse ids batch) (entry.ackId parse) = acked ids (entry.ackId parse) := by
  have carried : entry.ackId parse ∈ batch.map (·.ackId parse) :=
    List.mem_map_of_mem inside
  rw [Bool.eq_iff_iff]
  simp only [acked, rotate, List.mem_filter, Bool.and_eq_true, decide_eq_true_eq]
  constructor
  · rintro ⟨named, listed, _⟩
    exact ⟨named, listed⟩
  · rintro ⟨named, listed⟩
    exact ⟨named, listed, named, carried⟩

/-- The ids that the pass starts with are the applied ones. -/
theorem known_rotate (batch : List Entry) :
    Known parse store [] batch (rotate parse store.acks batch) := by
  intro entry inside
  rw [acked_rotate store.acks inside]
  simp only [acked, Bool.and_eq_true, decide_eq_true_eq, Applied]
  constructor
  · rintro ⟨named, listed⟩
    exact ⟨named, .inl listed⟩
  · rintro ⟨named, listed | ⟨first, earlier, between, split, _⟩⟩
    · exact ⟨named, listed⟩
    · simp at split

/-- The fates of a pass. -/
theorem pass_fated (durable : Durability) (batch : List Entry) :
    AllFated parse store [] batch (pass parse store durable batch).fates := by
  unfold pass
  split
  · split
    · exact allFated_nil [] batch
    · rename_i keys read
      exact passItems_fated durable read (known_rotate batch)
  · exact allFated_nil [] batch

/-- The fate of a line that was reached. -/
theorem AllFated.of_mem {before todo : List Entry} {fates : List Fate} {fate : Fate}
    (all : AllFated parse store before todo fates) (member : (entry, fate) ∈ todo.zip fates) :
    ∃ earlier after, todo = earlier ++ entry :: after ∧
      Fated parse store (before ++ earlier) entry after fate := by
  induction todo generalizing before fates with
  | nil => simp at member
  | cons head rest ih =>
    cases fates with
    | nil => simp at member
    | cons first others =>
      obtain ⟨own, later⟩ := all
      cases List.mem_cons.mp member with
      | inl here =>
        obtain ⟨rfl, rfl⟩ := Prod.mk.inj here
        exact ⟨[], rest, rfl, by simpa using own⟩
      | inr there =>
        obtain ⟨earlier, after, split, fated⟩ := ih later there
        exact ⟨head :: earlier, after, by simp [split], by simpa using fated⟩

/-- A pass in which nothing fails reaches the line between any two parts of the batch. -/
theorem AllFated.at_split {before earlier after : List Entry} {fates : List Fate}
    (all : AllFated parse store before (earlier ++ entry :: after) fates)
    (full : fates.length = (earlier ++ entry :: after).length) :
    ∃ fate ∈ fates, Fated parse store (before ++ earlier) entry after fate := by
  induction earlier generalizing before fates with
  | nil =>
    cases fates with
    | nil => simp at full
    | cons fate others => exact ⟨fate, List.mem_cons_self, by simpa using all.1⟩
  | cons head rest ih =>
    cases fates with
    | nil => simp at full
    | cons first others =>
      obtain ⟨fate, member, fated⟩ := ih all.2 (by simpa using full)
      exact ⟨fate, List.mem_cons_of_mem _ member, by simpa using fated⟩

/-- The loop reaches every line unless the lane pauses, and no other exception leaves it. -/
theorem passItems_ending (parse : Parser) (store : Store) (durable : Durability)
    (todo : List (Entry × Bool))
    (applied : List String) :
    ((passItems parse store durable todo applied).ending = .finished ∧
        (passItems parse store durable todo applied).fates.length = todo.length) ∨
      (passItems parse store durable todo applied).ending = .paused := by
  induction todo generalizing applied with
  | nil => exact .inl ⟨rfl, rfl⟩
  | cons head rest ih =>
    simp only [passItems]
    split
    · exact .inr rfl
    · rename_i fate ids _
      cases ih ids with
      | inl finished => exact .inl ⟨finished.1, by simp [finished.2]⟩
      | inr paused => exact .inr paused

/-- A line does not pause the lane when nothing fails. -/
theorem passItem_always (parse : Parser) (store : Store) (applied : List String) (entry : Entry)
    (superseded : Bool) :
    ∃ fate ids, passItem parse store .always applied entry superseded = (fate, some ids) := by
  have recorded : ∃ ids, record parse .always applied entry = some ids := by
    simp only [record, Durability.always, ↓reduceIte]
    split
    · exact ⟨_, rfl⟩
    · exact ⟨_, rfl⟩
  obtain ⟨ids, recorded⟩ := recorded
  unfold passItem
  rw [recorded]
  split
  · exact ⟨_, _, rfl⟩
  · split
    · exact ⟨_, _, rfl⟩
    · split
      · exact ⟨_, _, rfl⟩
      · exact ⟨_, _, rfl⟩

/-- The loop does not pause when nothing fails. -/
theorem passItems_always (todo : List (Entry × Bool)) (applied : List String) :
    (passItems parse store .always todo applied).ending = .finished := by
  induction todo generalizing applied with
  | nil => rfl
  | cons head rest ih =>
    obtain ⟨entry, superseded⟩ := head
    obtain ⟨fate, ids, step⟩ := passItem_always parse store applied entry superseded
    simp only [passItems, step]
    exact ih ids

/-! ## The lines beside the malformed ones -/

/-- A line without a key is not marked. -/
theorem unkeyed_unmarked {batch : List Entry} {keys : List (Option String)}
    {line : Entry × Bool} (read : coalesceKeys parse (batch.map (·.line)) = .ok keys)
    (inside : line ∈ batch.zip (coalesceMarks keys))
    (unkeyed : coalesceKey parse line.1.line = .ok none) : line.2 = false := by
  induction batch generalizing keys with
  | nil => simp at inside
  | cons entry rest ih =>
    obtain ⟨key, own, read⟩ := bind_ok read
    obtain ⟨others, later, read⟩ := bind_ok read
    obtain rfl := Except.ok.inj read
    cases List.mem_cons.mp inside with
    | inl here =>
      subst here
      obtain rfl := Except.ok.inj (own.symm.trans unkeyed)
      rfl
    | inr there => exact ih later there

/-- Leaving out lines without a key changes no mark of the other lines. -/
theorem marks_filter {batch : List Entry} {keys : List (Option String)} {keep : Entry → Bool}
    (read : coalesceKeys parse (batch.map (·.line)) = .ok keys)
    (unkeyed : ∀ entry ∈ batch, keep entry = false → coalesceKey parse entry.line = .ok none) :
    ∃ kept, coalesceKeys parse ((batch.filter keep).map (·.line)) = .ok kept ∧
      (∀ key, some key ∈ kept ↔ some key ∈ keys) ∧
      (batch.zip (coalesceMarks keys)).filter (fun line => keep line.1) =
        (batch.filter keep).zip (coalesceMarks kept) := by
  induction batch generalizing keys with
  | nil =>
    obtain rfl := Except.ok.inj read
    exact ⟨[], rfl, fun _ => Iff.rfl, rfl⟩
  | cons entry rest ih =>
    obtain ⟨key, own, read⟩ := bind_ok read
    obtain ⟨others, later, read⟩ := bind_ok read
    obtain rfl := Except.ok.inj read
    obtain ⟨kept, reads, same, marks⟩ := ih later fun other inside =>
      unkeyed other (List.mem_cons_of_mem _ inside)
    cases keeps : keep entry with
    | false =>
      obtain rfl := Except.ok.inj (own.symm.trans (unkeyed entry List.mem_cons_self keeps))
      refine ⟨kept, by simpa [keeps] using reads, fun key => ?_, ?_⟩
      · simp [same key]
      · simpa [coalesceMarks, keeps] using marks
    | true =>
      refine ⟨key :: kept, ?_, fun name => ?_, ?_⟩
      · simp only [List.filter_cons, keeps, ↓reduceIte, List.map_cons, coalesceKeys, own, reads]
        rfl
      · simp [same name]
      · have mark :
            (key.isSome && decide (key ∈ others)) = (key.isSome && decide (key ∈ kept)) := by
          cases key with
          | none => rfl
          | some name => simp [same name]
        simp only [coalesceMarks, List.zip_cons_cons, List.filter_cons, keeps, ↓reduceIte, marks,
          mark]

/-- Both loops pause, or both go on with ids that agree wherever they agreed before. -/
def GoOn (applied alone : List String) : Option (List String) → Option (List String) → Prop
  | some ids, some others =>
    ∀ id, acked alone id = acked applied id → acked others id = acked ids id
  | none, none => True
  | _, _ => False

/-- Ids that agree on a line agree after it is recorded. -/
theorem record_same (durable : Durability) {applied alone : List String}
    (same : acked alone (entry.ackId parse) = acked applied (entry.ackId parse)) :
    GoOn applied alone (record parse durable applied entry) (record parse durable alone entry) := by
  simp only [record, same]
  split
  · exact fun id agree => agree
  · split
    · intro id agree
      simp only [acked] at agree ⊢
      cases named : decide (id ≠ "") with
      | false => rfl
      | true =>
        simp only [named, Bool.true_and] at agree ⊢
        simp only [List.mem_cons, Bool.decide_or, agree]
    · trivial

/-- Ids that agree on a line give it one fate. -/
theorem passItem_same (store : Store) (durable : Durability) {applied alone : List String}
    (superseded : Bool)
    (same : acked alone (entry.ackId parse) = acked applied (entry.ackId parse)) :
    (passItem parse store durable alone entry superseded).1 =
        (passItem parse store durable applied entry superseded).1 ∧
      GoOn applied alone (passItem parse store durable applied entry superseded).2
        (passItem parse store durable alone entry superseded).2 := by
  simp only [passItem, same]
  split
  · exact ⟨rfl, record_same durable same⟩
  · split
    · exact ⟨rfl, fun id agree => agree⟩
    · split
      · exact ⟨rfl, fun id agree => agree⟩
      · exact ⟨rfl, record_same durable same⟩

/-- The other lines get the same fates without the malformed lines. -/
theorem passItems_filter (store : Store) (durable : Durability) {todo : List (Entry × Bool)}
    {applied alone : List String}
    (unmarked : ∀ line ∈ todo, malformed parse store line.1 = true → line.2 = false)
    (same : ∀ line ∈ todo, malformed parse store line.1 = false →
      acked alone (line.1.ackId parse) = acked applied (line.1.ackId parse)) :
    ((((todo.map (·.1)).zip (passItems parse store durable todo applied).fates).filter
        fun line => !malformed parse store line.1).map (·.2)) =
      (passItems parse store durable (todo.filter fun line => !malformed parse store line.1)
        alone).fates := by
  induction todo generalizing applied alone with
  | nil => rfl
  | cons head rest ih =>
    obtain ⟨entry, superseded⟩ := head
    have unmarkedRest := fun line inside => unmarked line (List.mem_cons_of_mem _ inside)
    have sameRest := fun line inside => same line (List.mem_cons_of_mem _ inside)
    cases bad : malformed parse store entry with
    | true =>
      obtain rfl := unmarked _ List.mem_cons_self bad
      obtain ⟨thrown, threw⟩ := malformed_throws bad
      have step : ∃ fate, passItem parse store durable applied entry false =
          (fate, some applied) := by
        simp only [passItem, threw, Bool.false_eq_true, ↓reduceIte]
        split
        · exact ⟨_, rfl⟩
        · exact ⟨_, rfl⟩
      obtain ⟨fate, step⟩ := step
      simp only [passItems, step, List.map_cons, List.zip_cons_cons, List.filter_cons, bad,
        Bool.not_true, Bool.false_eq_true, ↓reduceIte]
      exact ih unmarkedRest sameRest
    | false =>
      obtain ⟨oneFate, goOn⟩ := passItem_same store durable superseded
        (same (entry, superseded) List.mem_cons_self bad)
      cases step : passItem parse store durable applied entry superseded with
      | mk fate ids =>
        cases stepAlone : passItem parse store durable alone entry superseded with
        | mk fateAlone others =>
          rw [step, stepAlone] at oneFate goOn
          obtain rfl := oneFate
          simp only [passItems, step, List.map_cons, List.filter_cons, bad, Bool.not_false,
            ↓reduceIte, stepAlone]
          cases ids with
          | none =>
            cases others with
            | none => simp [bad]
            | some others => contradiction
          | some ids =>
            cases others with
            | none => contradiction
            | some others =>
              have later := ih unmarkedRest fun line inside formed =>
                goOn _ (sameRest line inside formed)
              simp [bad, later]

/-! ## The batches that survive -/

/-- A fate is that of some line. -/
theorem AllFated.of_fate {before todo : List Entry} {fates : List Fate} {fate : Fate}
    (all : AllFated parse store before todo fates) (member : fate ∈ fates) :
    ∃ entry, (entry, fate) ∈ todo.zip fates := by
  induction todo generalizing before fates with
  | nil =>
    cases fates with
    | nil => contradiction
    | cons first others => exact all.elim
  | cons head rest ih =>
    cases fates with
    | nil => contradiction
    | cons first others =>
      cases List.mem_cons.mp member with
      | inl here => exact ⟨head, by simp [here]⟩
      | inr there =>
        obtain ⟨entry, found⟩ := ih all.2 there
        exact ⟨entry, List.mem_cons_of_mem _ found⟩

/-- Every entry of the batch has a key, in terms of the lines. -/
theorem readable_lines {batch : List Entry} :
    (∃ keys, coalesceKeys parse (batch.map (·.line)) = .ok keys) ↔
      ∀ entry ∈ batch, ∃ key, coalesceKey parse entry.line = .ok key := by
  rw [coalesceKeys_readable]
  exact List.forall_mem_map

/-- In a survivable batch no line is dropped, and a malformed one is buried or passed. -/
theorem Survivable.fated {batch before after : List Entry} {fate : Fate}
    (survivable : Survivable parse store batch) (split : batch = before ++ entry :: after)
    (fated : Fated parse store before entry after fate) :
    fate ≠ .dropped ∧
      (malformed parse store entry = true → fate = .buried ∨ fate = .passed) := by
  have inside : entry ∈ batch := split ▸ List.mem_append_right _ List.mem_cons_self
  cases fated with
  | superseded saved =>
    refine ⟨by decide, fun bad => ?_⟩
    obtain ⟨key, keyed, _⟩ := saved
    have unkeyed := malformed_unkeyed bad (survivable.keyed entry inside)
    rw [keyed] at unkeyed
    have absent := Except.ok.inj unkeyed
    contradiction
  | passed applied => exact ⟨by decide, fun _ => .inr rfl⟩
  | buried thrown threw described => exact ⟨by decide, fun _ => .inl rfl⟩
  | dropped unapplied undescribed =>
    cases survivable.described before entry after split with
    | inl described => rw [undescribed] at described; contradiction
    | inr applied => exact absurd applied unapplied
  | dispatched returned =>
    refine ⟨by decide, fun bad => ?_⟩
    obtain ⟨thrown, threw⟩ := malformed_throws bad
    rw [returned] at threw
    contradiction

/-- A pass whose pre-pass returns reaches every line or is paused. -/
theorem pass_ending (store : Store) (durable : Durability) {batch : List Entry}
    {keys : List (Option String)} (read : coalesceKeys parse (batch.map (·.line)) = .ok keys) :
    (∀ thrown, (pass parse store durable batch).ending ≠ .escaped thrown) ∧
      ((pass parse store durable batch).ending = .finished →
        (pass parse store durable batch).fates.length = batch.length) := by
  have marks : (coalesceMarks keys).length = batch.length := by
    rw [length_coalesceMarks, length_coalesceKeys read, List.length_map]
  cases rotates : durable.rotates with
  | false => simp [pass, rotates]
  | true =>
    simp only [pass, rotates, read, ↓reduceIte]
    have ends := passItems_ending parse store durable (batch.zip (coalesceMarks keys))
      (rotate parse store.acks batch)
    rcases ends with ⟨finished, full⟩ | paused
    · refine ⟨fun thrown escaped => ?_, fun _ => ?_⟩
      · rw [finished] at escaped
        contradiction
      · rw [full, List.length_zip, marks, Nat.min_self]
    · rw [paused]
      exact ⟨fun _ escaped => by contradiction, fun finished => by contradiction⟩

/-- The well-formed lines of a batch whose pre-pass returns fare as without the others. -/
theorem pass_filter (store : Store) (durable : Durability) {batch : List Entry}
    {keys : List (Option String)} (read : coalesceKeys parse (batch.map (·.line)) = .ok keys) :
    (((batch.zip (pass parse store durable batch).fates).filter
        fun line => !malformed parse store line.1).map (·.2)) =
      (pass parse store durable
          (batch.filter fun entry => !malformed parse store entry)).fates := by
  have readable := readable_lines.mp ⟨keys, read⟩
  have unkeyed : ∀ entry ∈ batch, (!malformed parse store entry) = false →
      coalesceKey parse entry.line = .ok none := by
    intro entry inside bad
    exact malformed_unkeyed (by simpa using bad) (readable entry inside)
  obtain ⟨kept, reads, _, marks⟩ := marks_filter read unkeyed
  cases rotates : durable.rotates with
  | false => simp [pass, rotates]
  | true =>
    simp only [pass, rotates, read, reads, ↓reduceIte, ← marks]
    have unmarked : ∀ line ∈ batch.zip (coalesceMarks keys),
        malformed parse store line.1 = true → line.2 = false := by
      intro line inside bad
      have carried := (List.of_mem_zip inside).1
      exact unkeyed_unmarked read inside (malformed_unkeyed bad (readable _ carried))
    have same : ∀ line ∈ batch.zip (coalesceMarks keys), malformed parse store line.1 = false →
        acked (rotate parse store.acks (batch.filter fun entry => !malformed parse store entry))
          (line.1.ackId parse) = acked (rotate parse store.acks batch) (line.1.ackId parse) := by
      intro line inside formed
      have carried : line.1 ∈ batch := (List.of_mem_zip inside).1
      have kept : line.1 ∈ batch.filter fun entry => !malformed parse store entry :=
        List.mem_filter.mpr ⟨carried, by simp [formed]⟩
      rw [acked_rotate store.acks kept, acked_rotate store.acks carried]
    have filtered := passItems_filter store durable unmarked same
    rw [marked_lines read] at filtered
    exact filtered

/-- A survivable batch survives every pass. -/
theorem Survivable.survives {batch : List Entry} (survivable : Survivable parse store batch)
    (durable : Durability) : Survives parse store durable batch := by
  have all : AllFated parse store [] batch (pass parse store durable batch).fates :=
    pass_fated durable batch
  obtain ⟨keys, read⟩ := readable_lines.mpr survivable.keyed
  have ends := pass_ending store durable read
  refine ⟨ends.1, ends.2, fun dropped => ?_, fun entry fate member bad => ?_,
    pass_filter store durable read⟩
  · obtain ⟨entry, member⟩ := all.of_fate dropped
    obtain ⟨before, after, split, fated⟩ := all.of_mem member
    exact (survivable.fated split fated).1 rfl
  · obtain ⟨before, after, split, fated⟩ := all.of_mem member
    exact (survivable.fated split fated).2 bad

/-- A batch that survives the pass in which nothing fails is survivable. -/
theorem survivable_of_survives {batch : List Entry}
    (survives : Survives parse store .always batch) : Survivable parse store batch := by
  cases read : coalesceKeys parse (batch.map (·.line)) with
  | error thrown =>
    have escaped : (pass parse store .always batch).ending = .escaped thrown := by
      simp only [pass, Durability.always, ↓reduceIte, read]
    exact absurd escaped (survives.contained thrown)
  | ok keys =>
    have finished : (pass parse store .always batch).ending = .finished := by
      simp only [pass, Durability.always, ↓reduceIte, read]
      exact passItems_always _ _
    refine ⟨readable_lines.mp ⟨keys, read⟩, fun before entry after split => ?_⟩
    have all : AllFated parse store [] (before ++ entry :: after)
        (pass parse store .always batch).fates := split ▸ pass_fated .always batch
    obtain ⟨fate, member, fated⟩ := all.at_split (split ▸ survives.reached finished)
    cases fated with
    | superseded saved => exact .inl (describable_of_superseded saved)
    | passed applied => exact .inr applied
    | buried thrown threw described => exact .inl described
    | dropped unapplied undescribed => exact absurd member survives.consumed
    | dispatched returned => exact .inl (describable_of_returned returned)

/-- A batch survives every pass exactly when it is survivable. -/
theorem batch_survives_iff (parse : Parser) (store : Store) (batch : List Entry) :
    (∀ durable, Survives parse store durable batch) ↔ Survivable parse store batch := by
  constructor
  · intro survives
    exact survivable_of_survives (survives .always)
  · exact Survivable.survives

/-! ## A line that ends the daemon -/

/-- The text `["ledger_save"]`, JSON without an object. -/
def arrayLine : Line := [91] ++ quotedLedgerSave ++ [93]

/-- A parser that knows this text only. -/
def arrayParser : Parser := fun line =>
  if line = arrayLine then some (.arr [.str "ledger_save"]) else none

/-- The pre-pass asks the array for its tool and nothing catches the exception. -/
theorem array_line_escapes :
    ¬ ∀ (store : Store) (durable : Durability),
      Survives arrayParser store durable [⟨0, arrayLine⟩] := by
  intro survives
  have survived := survives ⟨[], fun _ => none⟩ .always
  have escaped : (pass arrayParser ⟨[], fun _ => none⟩ .always [⟨0, arrayLine⟩]).ending =
      .escaped (.typeError 306) := rfl
  exact survived.contained _ escaped

end Chitta.Queue
