import Mathlib.Data.List.Nodup
import Chitta.LastWrite
import Chitta.Queue.Pass

/-!
# What coalescing leaves of a batch

The pre-pass skips every ledger save that has a later save of its session and project in the
batch. The item loop passes over a line whose ack id is applied, and a handler may fail, so the
later save need not be worked off; then the skipped one is lost. The latest save event of each key
is therefore the one that the lines leave when they are worked through in order exactly when, of
every key, the last save worked off in order is neither skipped nor preceded by a skipped line with
its ack id.
-/
namespace Chitta.Queue

/-- The text that a C string holds. -/
def cText (text : String) : String :=
  String.ofList (text.toList.takeWhile fun char => char ≠ Char.ofNat 0)

/-- The entity of the event that `ledger_save` emits for a line; `emit_event` takes a C string. -/
def eventEntity (parse : Parser) (entry : Entry) : Option String :=
  (saveKey parse entry.line).map cText

/-- The lines of a claimed file. -/
def claimedBatch (lines : List Line) : List Entry :=
  lines.mapIdx fun index line => ⟨index, line⟩

/-- The pass without the marks of the pre-pass: every line in order. -/
def passInOrder (parse : Parser) (store : Store) (durable : Durability) (batch : List Entry) :
    Pass :=
  if durable.rotates then
    passItems parse store durable (batch.map fun entry => (entry, false))
      (rotate parse store.acks batch)
  else ⟨[], .paused⟩

/-- The lines that a pass handed to their handlers without an exception. -/
def dispatchedLines (batch : List Entry) (fates : List Fate) : List Entry :=
  ((batch.zip fates).filter fun line => decide (line.2 = .dispatched)).map (·.1)

/-- The line whose event is the latest of an entity after a pass; none when the event from before
the batch still is. -/
def latestSave (parse : Parser) (entity : String) (batch : List Entry) (fates : List Fate) :
    Option Entry :=
  lastWrite (eventEntity parse) entity (dispatchedLines batch fates)

/-- Coalescing preserves the outcome: the latest events are those of the pass in order, and only
ledger saves of a session are skipped. -/
structure Preserves (parse : Parser) (store : Store) (durable : Durability) (batch : List Entry) :
    Prop where
  /-- The latest events. -/
  latest : ∀ entity,
    latestSave parse entity batch (pass parse store durable batch).fates =
      latestSave parse entity batch (passInOrder parse store durable batch).fates
  /-- The skipped lines. -/
  skipped : ∀ entry, (entry, Fate.superseded) ∈ batch.zip (pass parse store durable batch).fates →
    ∃ args session, readItem parse entry.line = .ok ("ledger_save", args) ∧
      args.valueString "session_id" "" = .ok session ∧ session ≠ ""

/-- An ack id is applied in order: the ledger has it, or a line before carries it and its item
returned. -/
def AppliedInOrder (parse : Parser) (store : Store) (id : String) (before : List Entry) : Prop :=
  id ≠ "" ∧
    (id ∈ store.acks ∨
      ∃ earlier ∈ before, earlier.ackId parse = id ∧ itemError parse store earlier = none)

/-- A line is worked off in order: its item returns, and its ack id is not applied before. -/
def WorkedOff (parse : Parser) (store : Store) (before : List Entry) (entry : Entry) : Prop :=
  itemError parse store entry = none ∧ ¬ AppliedInOrder parse store (entry.ackId parse) before

/-- No line of a part of the batch saves under the entity and is worked off in order. -/
def NoSave (parse : Parser) (store : Store) (entity : String) (before todo : List Entry) : Prop :=
  ∀ between later after, todo = between ++ later :: after →
    eventEntity parse later = some entity → ¬ WorkedOff parse store (before ++ between) later

/-- Of an entity, the last save worked off in order is not superseded, and its ack id is not
applied, by a superseded line before it in particular. -/
def Spared (parse : Parser) (store : Store) (entity : String) (before todo : List Entry) : Prop :=
  ∀ between entry after, todo = between ++ entry :: after →
    eventEntity parse entry = some entity → WorkedOff parse store (before ++ between) entry →
      NoSave parse store entity (before ++ between ++ [entry]) after →
        ¬ Superseded parse entry after ∧
          ¬ Applied parse store (entry.ackId parse) (before ++ between) (entry :: after)

variable {parse : Parser} {store : Store} {durable : Durability} {entity : String}
  {entry : Entry} {before rest : List Entry}

/-! ## Parts of a batch -/

/-- The saves of a part with one more line at its start. -/
theorem noSave_cons :
    NoSave parse store entity before (entry :: rest) ↔
      (eventEntity parse entry = some entity → ¬ WorkedOff parse store before entry) ∧
        NoSave parse store entity (before ++ [entry]) rest := by
  constructor
  · intro none
    constructor
    · intro saves
      simpa using none [] entry rest rfl saves
    · intro between later after split saves
      simpa using none (entry :: between) later after (by simp [split]) saves
  · rintro ⟨own, others⟩ between later after split saves
    cases between with
    | nil =>
      obtain ⟨rfl, rfl⟩ := List.cons.inj split
      simpa using own saves
    | cons head between =>
      obtain ⟨rfl, rfl⟩ := List.cons.inj split
      simpa using others between later after rfl saves

/-- The condition on a part with one more line at its start. -/
theorem spared_cons :
    Spared parse store entity before (entry :: rest) ↔
      (eventEntity parse entry = some entity → WorkedOff parse store before entry →
        NoSave parse store entity (before ++ [entry]) rest →
          ¬ Superseded parse entry rest ∧
            ¬ Applied parse store (entry.ackId parse) before (entry :: rest)) ∧
        Spared parse store entity (before ++ [entry]) rest := by
  constructor
  · intro spared
    constructor
    · intro saves worked none
      simpa using spared [] entry rest rfl saves (by simpa using worked) (by simpa using none)
    · intro between later after split saves worked none
      simpa using spared (entry :: between) later after (by simp [split]) saves
        (by simpa using worked) (by simpa using none)
  · rintro ⟨own, others⟩ between later after split saves worked none
    cases between with
    | nil =>
      obtain ⟨rfl, rfl⟩ := List.cons.inj split
      simpa using own saves (by simpa using worked) (by simpa using none)
    | cons head between =>
      obtain ⟨rfl, rfl⟩ := List.cons.inj split
      simpa using others between later after rfl saves (by simpa using worked)
        (by simpa using none)

/-- The dispatched lines of a part with one more line at its start. -/
theorem dispatchedLines_cons (fate : Fate) (fates : List Fate) :
    dispatchedLines (entry :: rest) (fate :: fates) =
      (if fate = .dispatched then [entry] else []) ++ dispatchedLines rest fates := by
  by_cases dispatched : fate = .dispatched
  · simp [dispatchedLines, dispatched]
  · simp [dispatchedLines, dispatched]

/-- The dispatched lines are lines of the batch. -/
theorem mem_of_dispatched {batch : List Entry} {fates : List Fate}
    (member : entry ∈ dispatchedLines batch fates) : entry ∈ batch := by
  obtain ⟨⟨line, fate⟩, found, rfl⟩ := List.mem_map.mp member
  exact (List.of_mem_zip (List.mem_filter.mp found).1).1

/-! ## One line -/

/-- The ids in memory are the ones applied in order, as far as the remaining lines ask. -/
def KnownInOrder (parse : Parser) (store : Store) (before todo : List Entry)
    (applied : List String) : Prop :=
  ∀ entry ∈ todo, acked applied (entry.ackId parse) = true ↔
    AppliedInOrder parse store (entry.ackId parse) before

/-- A line that is left behind adds its own id when its item returns. -/
theorem appliedInOrder_concat (id : String) :
    AppliedInOrder parse store id (before ++ [entry]) ↔
      AppliedInOrder parse store id before ∨
        (id ≠ "" ∧ entry.ackId parse = id ∧ itemError parse store entry = none) := by
  constructor
  · rintro ⟨named, listed | ⟨earlier, inside, same, returned⟩⟩
    · exact .inl ⟨named, .inl listed⟩
    · rcases List.mem_append.mp inside with old | new
      · exact .inl ⟨named, .inr ⟨earlier, old, same, returned⟩⟩
      · obtain rfl := List.mem_singleton.mp new
        exact .inr ⟨named, same, returned⟩
  · rintro (⟨named, listed | ⟨earlier, inside, same, returned⟩⟩ | ⟨named, same, returned⟩)
    · exact ⟨named, .inl listed⟩
    · exact ⟨named, .inr ⟨earlier, List.mem_append_left _ inside, same, returned⟩⟩
    · exact ⟨named, .inr ⟨entry, by simp, same, returned⟩⟩

/-- An id that is applied in order is applied. -/
theorem AppliedInOrder.applied {id : String} (inOrder : AppliedInOrder parse store id before)
    (todo : List Entry) : Applied parse store id before todo := by
  obtain ⟨named, listed | ⟨earlier, inside, same, returned⟩⟩ := inOrder
  · exact ⟨named, .inl listed⟩
  · obtain ⟨first, between, split⟩ := List.append_of_mem inside
    exact ⟨named, .inr ⟨first, earlier, between, split, same, .inr returned⟩⟩

/-- A dead-letter entry is no dispatch. -/
theorem bury_ne_dispatched (thrown : Thrown) : bury parse entry thrown ≠ .dispatched := by
  unfold bury
  split
  · simp
  · simp

/-- The lines that the item loop hands to their handlers without an exception. -/
theorem passItem_dispatched {applied : List String} {superseded : Bool} :
    (passItem parse store durable applied entry superseded).1 = .dispatched ↔
      superseded = false ∧ acked applied (entry.ackId parse) = false ∧
        itemError parse store entry = none := by
  unfold passItem
  cases superseded with
  | true => simp
  | false =>
    cases known : acked applied (entry.ackId parse) with
    | true => simp
    | false =>
      cases item : itemError parse store entry with
      | none => simp
      | some thrown => simp [bury_ne_dispatched]

/-- In order, a line is worked off as the ids before it say, and adds its own. -/
theorem passItem_inOrder (durable : Durability) {applied : List String}
    (known : KnownInOrder parse store before (entry :: rest) applied) :
    ((passItem parse store durable applied entry false).1 = .dispatched ↔
        WorkedOff parse store before entry) ∧
      ∀ ids, (passItem parse store durable applied entry false).2 = some ids →
        KnownInOrder parse store (before ++ [entry]) rest ids := by
  have own := known entry List.mem_cons_self
  have fate : (passItem parse store durable applied entry false).1 = .dispatched ↔
      WorkedOff parse store before entry := by
    rw [passItem_dispatched, WorkedOff, ← own, Bool.not_eq_true, @and_comm (itemError _ _ _ = _)]
    simp only [true_and]
  refine ⟨fate, fun ids saved other inside => ?_⟩
  rw [appliedInOrder_concat, ← known other (List.mem_cons_of_mem _ inside)]
  simp only [passItem, Bool.false_eq_true, ↓reduceIte] at saved
  split at saved
  · rename_i passed
    obtain rfl := Option.some.inj saved
    constructor
    · exact .inl
    · rintro (was | ⟨_, same, _⟩)
      · exact was
      · exact same ▸ passed
  · cases item : itemError parse store entry with
    | none =>
      simp only [item] at saved
      rw [record_acked saved]
      simp
    | some thrown =>
      simp only [item, Option.some.injEq] at saved
      simp [saved]

/-! ## The two passes -/

/-- The latest event of a part with one more line at its start. -/
theorem latestSave_cons (fate : Fate) (fates : List Fate) :
    latestSave parse entity (entry :: rest) (fate :: fates) =
      (latestSave parse entity rest fates).or
        (if fate = .dispatched ∧ eventEntity parse entry = some entity then some entry
          else none) := by
  rw [latestSave, dispatchedLines_cons, lastWrite_append]
  congr 1
  by_cases dispatched : fate = .dispatched
  · simp only [dispatched, ↓reduceIte, true_and]
    rw [lastWrite_cons, lastWrite_nil, Option.none_or]
  · simp [dispatched]

/-- The latest event comes from a line of the part. -/
theorem latestSave_ne {fates : List Fate} (fresh : entry ∉ rest) :
    latestSave parse entity rest fates ≠ some entry :=
  fun found => fresh (mem_of_dispatched (lastWrite_some found).1)

/-- Two choices between a later item and the first one agree exactly when the later items do and
the first one is in both or does not matter. -/
theorem or_same_iff {Item : Type} {item : Item} {one other : Option Item} {kept plain : Prop}
    [Decidable kept] [Decidable plain] (notOne : one ≠ some item) (notOther : other ≠ some item)
    (less : kept → plain) :
    one.or (if kept then some item else none) = other.or (if plain then some item else none) ↔
      (plain → other = none → kept) ∧ one = other := by
  cases other with
  | some last =>
    cases one with
    | some first => simp
    | none =>
      have differ : item ≠ last := fun same => notOther (same ▸ rfl)
      by_cases keep : kept
      · simp [keep, differ]
      · simp [keep]
  | none =>
    cases one with
    | some first =>
      have differ : first ≠ item := fun same => notOne (same ▸ rfl)
      by_cases all : plain
      · simp [all, differ]
      · simp [all]
    | none =>
      by_cases keep : kept
      · simp [keep, less keep]
      · simp [keep]

/-- Nothing of an entity is stored in order exactly when no save of it is worked off. -/
theorem latestSave_none (durable : Durability) (entity : String) {todo : List Entry}
    {applied : List String}
    (known : KnownInOrder parse store before todo applied)
    (finished : (passItems parse store durable (todo.map fun entry => (entry, false))
      applied).ending = .finished) :
    latestSave parse entity todo (passItems parse store durable
        (todo.map fun entry => (entry, false)) applied).fates = none ↔
      NoSave parse store entity before todo := by
  induction todo generalizing before applied with
  | nil => simp [latestSave, dispatchedLines, NoSave]
  | cons entry rest ih =>
    obtain ⟨fate, next⟩ := passItem_inOrder durable known
    rw [noSave_cons]
    simp only [List.map_cons, passItems] at finished ⊢
    cases step : passItem parse store durable applied entry false with
    | mk own ids =>
      rw [step] at fate next
      simp only [step] at finished ⊢
      cases ids with
      | none => contradiction
      | some ids =>
        have others := ih (next ids rfl) finished
        rw [latestSave_cons, Option.or_eq_none_iff, others, ← fate, and_comm]
        by_cases dispatched : own = .dispatched
        · simp [dispatched]
        · simp [dispatched]

/-- Both passes leave the same latest event of an entity exactly when its last save is spared. -/
theorem latestSave_same {todo : List Entry} {applied inOrder : List String}
    {keys : List (Option String)} (read : coalesceKeys parse (todo.map (·.line)) = .ok keys)
    (known : Known parse store before todo applied)
    (knownInOrder : KnownInOrder parse store before todo inOrder) (distinct : todo.Nodup)
    (finished : (passItems parse store durable (todo.zip (coalesceMarks keys)) applied).ending =
      .finished)
    (ordered : (passItems parse store durable (todo.map fun entry => (entry, false))
      inOrder).ending = .finished) :
    latestSave parse entity todo
        (passItems parse store durable (todo.zip (coalesceMarks keys)) applied).fates =
      latestSave parse entity todo (passItems parse store durable
        (todo.map fun entry => (entry, false)) inOrder).fates ↔
      Spared parse store entity before todo := by
  induction todo generalizing before applied inOrder keys with
  | nil => simp [latestSave, dispatchedLines, Spared]
  | cons entry rest ih =>
    obtain ⟨key, own, read⟩ := bind_ok read
    obtain ⟨others, later, read⟩ := bind_ok read
    obtain rfl := Except.ok.inj read
    have mark := mark_iff own later
    obtain ⟨_, next⟩ := passItem_fated durable mark known
    obtain ⟨fate, nextInOrder⟩ := passItem_inOrder durable knownInOrder
    have dispatch := @passItem_dispatched parse store durable entry applied
      (key.isSome && decide (key ∈ others))
    rw [← Bool.not_eq_true, mark, ← Bool.not_eq_true, known entry List.mem_cons_self] at dispatch
    rw [spared_cons]
    simp only [List.map_cons, coalesceMarks, List.zip_cons_cons, passItems] at finished ordered ⊢
    cases step : passItem parse store durable applied entry
        (key.isSome && decide (key ∈ others)) with
    | mk coalesced ids =>
      cases stepInOrder : passItem parse store durable inOrder entry false with
      | mk plain idsInOrder =>
        rw [step] at next dispatch
        rw [stepInOrder] at fate nextInOrder
        simp only [step] at finished ⊢
        simp only [stepInOrder] at ordered ⊢
        cases ids with
        | none => contradiction
        | some ids =>
          cases idsInOrder with
          | none => contradiction
          | some idsInOrder =>
            have tail := ih later (next ids rfl) (nextInOrder idsInOrder rfl)
              (List.nodup_cons.mp distinct).2 finished ordered
            have empty := latestSave_none durable entity (nextInOrder idsInOrder rfl) ordered
            have fresh := (List.nodup_cons.mp distinct).1
            have less : coalesced = .dispatched ∧ eventEntity parse entry = some entity →
                plain = .dispatched ∧ eventEntity parse entry = some entity := by
              rintro ⟨dispatched, saves⟩
              obtain ⟨_, unapplied, returned⟩ := dispatch.mp dispatched
              refine ⟨fate.mpr ⟨returned, fun inOrder => ?_⟩, saves⟩
              exact unapplied (inOrder.applied _)
            rw [latestSave_cons, latestSave_cons,
              or_same_iff (latestSave_ne fresh) (latestSave_ne fresh) less, tail, empty]
            refine and_congr_left fun _ => ?_
            rw [dispatch, fate]
            constructor
            · intro kept saves worked none
              obtain ⟨⟨unsaved, unapplied, _⟩, _⟩ := kept ⟨worked, saves⟩ none
              exact ⟨unsaved, unapplied⟩
            · rintro spared ⟨worked, saves⟩ none
              obtain ⟨unsaved, unapplied⟩ := spared saves worked none
              exact ⟨⟨unsaved, unapplied, worked.1⟩, saves⟩

/-! ## The batch -/

/-- The lines of a claimed file differ in their numbers. -/
theorem nodup_claimedBatch (lines : List Line) : (claimedBatch lines).Nodup := by
  have numbers : (claimedBatch lines).map Entry.number = List.range lines.length := by
    apply List.ext_getElem
    · simp [claimedBatch]
    · intro index left right
      simp [claimedBatch]
  exact List.Nodup.of_map _ (numbers ▸ List.nodup_range)

/-- The ids that the pass in order starts with. -/
theorem knownInOrder_rotate (batch : List Entry) :
    KnownInOrder parse store [] batch (rotate parse store.acks batch) := by
  intro entry inside
  rw [acked_rotate store.acks inside]
  simp [acked, AppliedInOrder]

/-- A superseded line is a ledger save of a session. -/
theorem superseded_save {after : List Entry} (superseded : Superseded parse entry after) :
    ∃ args session, readItem parse entry.line = .ok ("ledger_save", args) ∧
      args.valueString "session_id" "" = .ok session ∧ session ≠ "" := by
  obtain ⟨key, coalesced, _⟩ := superseded
  obtain ⟨args, read, readKey⟩ := readSave_of_coalesceKey parse coalesced
  obtain ⟨session, readSession, readKey⟩ := bind_ok readKey
  obtain ⟨project, _, readKey⟩ := bind_ok readKey
  refine ⟨args, session, read, readSession, fun unnamed => ?_⟩
  simp [unnamed, pure, Except.pure] at readKey

/-- A pass that works through its lines leaves, for every key, the save events of the pass in order
exactly when of every key the last save worked off in order is not superseded and its ack id not
applied by a superseded line before it; and only saves of a session are skipped. -/
theorem coalescing_preserves_iff {lines : List Line}
    (finished : (pass parse store durable (claimedBatch lines)).ending = .finished)
    (ordered : (passInOrder parse store durable (claimedBatch lines)).ending = .finished) :
    Preserves parse store durable (claimedBatch lines) ↔
      ∀ entity, Spared parse store entity [] (claimedBatch lines) := by
  have all : AllFated parse store [] (claimedBatch lines)
      (pass parse store durable (claimedBatch lines)).fates := pass_fated durable _
  have skipped : ∀ entry, (entry, Fate.superseded) ∈
      (claimedBatch lines).zip (pass parse store durable (claimedBatch lines)).fates →
      ∃ args session, readItem parse entry.line = .ok ("ledger_save", args) ∧
        args.valueString "session_id" "" = .ok session ∧ session ≠ "" := by
    intro entry member
    obtain ⟨earlier, after, _, fated⟩ := all.of_mem member
    cases fated with
    | superseded saved => exact superseded_save saved
  have latest : ∀ entity,
      latestSave parse entity (claimedBatch lines)
          (pass parse store durable (claimedBatch lines)).fates =
        latestSave parse entity (claimedBatch lines)
          (passInOrder parse store durable (claimedBatch lines)).fates ↔
        Spared parse store entity [] (claimedBatch lines) := by
    intro entity
    unfold pass at finished ⊢
    unfold passInOrder at ordered ⊢
    split
    · rename_i rotates
      simp only [rotates, ↓reduceIte] at finished ordered
      cases read : coalesceKeys parse ((claimedBatch lines).map (·.line)) with
      | error thrown => simp [read] at finished
      | ok keys =>
        simp only [read] at finished
        exact latestSave_same read (known_rotate _) (knownInOrder_rotate _)
          (nodup_claimedBatch lines) finished ordered
    · rename_i stuck
      simp [stuck] at finished
  constructor
  · intro preserves entity
    exact (latest entity).mp (preserves.latest entity)
  · intro spared
    exact ⟨fun entity => (latest entity).mpr (spared entity), skipped⟩

/-- A batch in which no ack id is applied or carried twice and no item of a save ends with an
exception is spared. -/
theorem spared_of_fresh {batch : List Entry}
    (returns : ∀ entry ∈ batch, saveKey parse entry.line ≠ none →
      itemError parse store entry = none)
    (unlisted : ∀ entry ∈ batch, entry.ackId parse ∉ store.acks)
    (distinct : batch.Pairwise fun first second =>
      first.ackId parse = "" ∨ first.ackId parse ≠ second.ackId parse) (entity : String) :
    Spared parse store entity [] batch := by
  -- every save of the batch is worked off in order, so the last one of a key is the last line
  have worked : ∀ earlier entry after, batch = earlier ++ entry :: after →
      saveKey parse entry.line ≠ none → WorkedOff parse store earlier entry ∧
        ¬ Applied parse store (entry.ackId parse) earlier (entry :: after) := by
    intro earlier entry after split saves
    have inside : entry ∈ batch := split ▸ List.mem_append_right _ List.mem_cons_self
    have unapplied : ¬ Applied parse store (entry.ackId parse) earlier (entry :: after) := by
      rintro ⟨named, listed | ⟨first, other, between, before, same, _⟩⟩
      · exact unlisted entry inside listed
      · rw [split, before] at distinct
        have apart := (List.pairwise_append.mp distinct).2.2 other (by simp) entry (by simp)
        rcases apart with unnamed | differ
        · exact named (same ▸ unnamed)
        · exact differ same
    exact ⟨⟨returns entry inside saves, fun inOrder => unapplied (inOrder.applied _)⟩, unapplied⟩
  intro earlier entry after split saves _ last
  have isSave : saveKey parse entry.line ≠ none := by
    intro absent
    simp [eventEntity, absent] at saves
  refine ⟨?_, (worked earlier entry after split isSave).2⟩
  rintro ⟨key, coalesced, later, inside, same⟩
  have laterSave := saveKey_of_coalesceKey parse same
  have laterEntity : eventEntity parse later = some entity := by
    rw [eventEntity, laterSave, ← saveKey_of_coalesceKey parse coalesced]
    exact saves
  obtain ⟨between, rest, rfl⟩ := List.append_of_mem inside
  refine last between later rest rfl laterEntity ?_
  have there := (worked (earlier ++ entry :: between) later rest (by simp [split])
    (by simp [laterSave])).1
  simpa using there

/-- The text `{"tool":"ledger_save","args":{"session_id":"s","n":1},"ack_id":"a"}`. -/
def newerSave : Line := [
  123, 34, 116, 111, 111, 108, 34, 58, 34, 108, 101, 100, 103, 101, 114, 95, 115, 97, 118, 101,
  34, 44, 34, 97, 114, 103, 115, 34, 58, 123, 34, 115, 101, 115, 115, 105, 111, 110, 95, 105,
  100, 34, 58, 34, 115, 34, 44, 34, 110, 34, 58, 49, 125, 44, 34, 97, 99, 107, 95, 105, 100, 34,
  58, 34, 97, 34, 125]

/-- The text `{"tool":"ledger_save","args":{"session_id":"s","n":2},"ack_id":"b"}`. -/
def repeatedSave : Line := [
  123, 34, 116, 111, 111, 108, 34, 58, 34, 108, 101, 100, 103, 101, 114, 95, 115, 97, 118, 101,
  34, 44, 34, 97, 114, 103, 115, 34, 58, 123, 34, 115, 101, 115, 115, 105, 111, 110, 95, 105,
  100, 34, 58, 34, 115, 34, 44, 34, 110, 34, 58, 50, 125, 44, 34, 97, 99, 107, 95, 105, 100, 34,
  58, 34, 98, 34, 125]

/-- A parser that knows these texts only. -/
def ackedSaveParser : Parser := fun line =>
  if line = newerSave then
    some (.obj [("ack_id", .str "a"), ("args", .obj [("n", .int 1), ("session_id", .str "s")]),
      ("tool", .str "ledger_save")])
  else if line = repeatedSave then
    some (.obj [("ack_id", .str "b"), ("args", .obj [("n", .int 2), ("session_id", .str "s")]),
      ("tool", .str "ledger_save")])
  else none

/-- Two saves of a session whose ack ids are new: only the second one is stored. -/
theorem coalescing_preserves_iff_fresh :
    Preserves ackedSaveParser ⟨[], fun _ => none⟩ .always
      (claimedBatch [newerSave, repeatedSave]) := by
  refine (coalescing_preserves_iff (by decide) (by decide)).mpr fun entity => ?_
  exact spared_of_fresh (by decide) (by decide) (by decide) entity

/-- A producer repeats a save that was worked off before, behind a newer one: the newer one is
skipped for it, and then the repeated one is passed over by its ack id. -/
theorem repeated_save_supersedes :
    (pass ackedSaveParser ⟨["b"], fun _ => none⟩ .always
        (claimedBatch [newerSave, repeatedSave])).ending = .finished ∧
      (passInOrder ackedSaveParser ⟨["b"], fun _ => none⟩ .always
        (claimedBatch [newerSave, repeatedSave])).ending = .finished ∧
      ¬ Preserves ackedSaveParser ⟨["b"], fun _ => none⟩ .always
        (claimedBatch [newerSave, repeatedSave]) := by
  refine ⟨by decide, by decide, fun preserves => ?_⟩
  have same := preserves.latest "s:default"
  have skipped : latestSave ackedSaveParser "s:default" (claimedBatch [newerSave, repeatedSave])
      (pass ackedSaveParser ⟨["b"], fun _ => none⟩ .always
        (claimedBatch [newerSave, repeatedSave])).fates = none := by
    decide
  have stored : latestSave ackedSaveParser "s:default" (claimedBatch [newerSave, repeatedSave])
      (passInOrder ackedSaveParser ⟨["b"], fun _ => none⟩ .always
        (claimedBatch [newerSave, repeatedSave])).fates = some ⟨0, newerSave⟩ := by
    decide
  rw [skipped, stored] at same
  contradiction

end Chitta.Queue
