import Mathlib.Logic.Function.Basic
import Chitta.Machine
import Chitta.Ledger.Operations

/-!
# Atomic publication

`run` validates every staged row, hands the whole batch to the journal and then puts the rows
one after the other. An accessor that throws between two puts would leave half a batch behind;
the check before the journal rules it out, because a row that passed it has the fields of the
indexes and so do the rows that are stored.
-/
namespace Chitta.Ledger

/-- A batch of the journal. -/
structure Batch where
  /-- Its revision. -/
  revision : Nat
  /-- Its rows. -/
  changes : List Change

/-- A row is put into its table. -/
def TaskLedger.put (library : Library) (ledger : TaskLedger) (table : TableName) (id : String)
    (row : Json) : TaskLedger × Option Thrown :=
  let (after, thrown) := (ledger.tables table).put library id row
  ({ ledger with tables := Function.update ledger.tables table after }, thrown)

/-- The loop of `replay_locked`: each row is upgraded and put, up to the first exception. -/
def replayChanges (library : Library) (ledger : TaskLedger) :
    List Change → TaskLedger × Option Thrown
  | [] => (ledger, none)
  | staged :: rest =>
    match upgradeRow library staged.table staged.row with
    | .error thrown => (ledger, some thrown)
    | .ok row =>
      match ledger.put library staged.table staged.id row with
      | (after, some thrown) => (after, some thrown)
      | (after, none) => replayChanges library after rest

/-- `replay_locked`. -/
def replayLocked (library : Library) (ledger : TaskLedger) (batch : Batch) :
    TaskLedger × Option Thrown :=
  match replayChanges library ledger batch.changes with
  | (after, some thrown) => (after, some thrown)
  | (after, none) => ({ after with revision := max after.revision batch.revision }, none)

/-- What a run leaves behind: the ledger, the batches for which the journal was called, and the
result. -/
structure Ran where
  /-- The ledger. -/
  ledger : TaskLedger
  /-- The batches handed to the journal. -/
  persisted : List Batch
  /-- The result. -/
  result : Except Thrown Json

/-- The check of every staged row. -/
def validateChanges (changes : List Change) : Except Thrown Unit :=
  changes.forM fun staged => validateRow staged.table staged.id staged.row

/-- `finish`: `persist` is the journal, with the exception it throws. -/
def finish (library : Library) (ledger : TaskLedger) (persist : Batch → Option Thrown)
    (changes : List Change) (result : Json) : Ran :=
  if changes.isEmpty then ⟨ledger, [], .ok result⟩
  else
    let batch : Batch := ⟨ledger.revision + 1, changes⟩
    match validateChanges changes with
    | .error thrown => ⟨ledger, [], .error thrown⟩
    | .ok () =>
      match persist batch with
      | some thrown => ⟨ledger, [batch], .error thrown⟩
      | none =>
        match replayLocked library ledger batch with
        | (after, some thrown) => ⟨after, [batch], .error thrown⟩
        | (after, none) => ⟨after, [batch], .ok result⟩

/-- `run`. -/
def run (library : Library) (ledger : TaskLedger) (op : String) (a : Json) (ts : Rat)
    (persist : Batch → Option Thrown) : Ran :=
  match plan library ledger op a ts with
  | .error thrown => ⟨ledger, [], .error thrown⟩
  | .ok (.answer result) => ⟨ledger, [], .ok result⟩
  | .ok (.commit changes result) => finish library ledger persist changes result

/-- What happens to a ledger. -/
inductive Action where
  /-- An operation runs; the journal throws what `persist` says. -/
  | run (op : String) (a : Json) (ts : Rat) (persist : Batch → Option Thrown)
  /-- A batch is replayed. A batch whose text breaks off or has no revision acts as that of the
  rows before, with the revision 0. -/
  | replay (batch : Batch)

/-- A ledger from its construction on. -/
def machine (library : Library) : Machine TaskLedger Action where
  initial := .fresh
  step ledger action :=
    match action with
    | .run op a ts persist => some (run library ledger op a ts persist).ledger
    | .replay batch => some (replayLocked library ledger batch).1

/-! ## Sound ledgers -/

/-- Every stored row has the fields of the indexes of its table. -/
def TaskLedger.Sound (ledger : TaskLedger) : Prop :=
  ∀ table, (ledger.tables table).Sound ∧ (ledger.tables table).fields = table.indexed

variable {library : Library} {ledger : TaskLedger}

/-- An empty ledger is sound. -/
theorem sound_fresh : TaskLedger.fresh.Sound := by
  intro table
  constructor
  · intro id row found
    simp [TaskLedger.fresh, Assoc.lookup] at found
  · simp [TaskLedger.fresh, Table.fields, Function.comp_def]

/-- A put keeps a ledger sound. -/
theorem TaskLedger.Sound.put (sound : ledger.Sound) (library : Library) (table : TableName)
    (id : String) (row : Json) : (ledger.put library table id row).1.Sound := by
  intro other
  simp only [TaskLedger.put]
  by_cases here : other = table
  · subst here
    simp only [Function.update_self, Table.fields_put]
    exact ⟨(sound other).1.put library id row, (sound other).2⟩
  · simp only [Function.update_of_ne here]
    exact sound other

/-- The loop of a replay keeps a ledger sound, also when it throws. -/
theorem TaskLedger.Sound.replayChanges (sound : ledger.Sound) (library : Library)
    (changes : List Change) :
    (replayChanges library ledger changes).1.Sound := by
  induction changes generalizing ledger with
  | nil => exact sound
  | cons staged rest ih =>
    simp only [Ledger.replayChanges]
    split
    · exact sound
    · rename_i row upgraded
      have kept := sound.put library staged.table staged.id row
      split
      · rename_i done
        rwa [done] at kept
      · rename_i done
        rw [done] at kept
        exact ih kept

/-- A replay keeps a ledger sound. -/
theorem TaskLedger.Sound.replayLocked (sound : ledger.Sound) (library : Library)
    (batch : Batch) :
    (replayLocked library ledger batch).1.Sound := by
  have kept := sound.replayChanges library batch.changes
  unfold Ledger.replayLocked
  split <;> rename_i done <;> rw [done] at kept <;> exact kept

/-! ## Publication does not throw -/

/-- A staged row can be put: it upgrades, and to a row with the indexed fields. -/
def Puttable (library : Library) (staged : Change) : Prop :=
  ∃ row, upgradeRow library staged.table staged.row = .ok row ∧
    (row.isNull = false → Indexed staged.table.indexed row)

/-- An upgraded row that passed the check can be put. -/
theorem Staged.puttable {staged : Change} (upgraded : Staged library staged)
    (checked : validateRow staged.table staged.id staged.row = .ok ()) :
    Puttable library staged := by
  obtain ⟨raw, done⟩ := upgraded
  have twice := upgradeRow_stable done
  refine ⟨staged.row, twice, fun present field inside => ?_⟩
  have key := staged.table.indexed_keys field inside
  exact upgradeRow_contains twice (validateRow_contains checked present field key)

/-- Puttable rows are replayed without an exception. -/
theorem TaskLedger.Sound.replayChanges_returns {changes : List Change} (sound : ledger.Sound)
    (puttable : ∀ staged ∈ changes, Puttable library staged) :
    (Ledger.replayChanges library ledger changes).2 = none := by
  induction changes generalizing ledger with
  | nil => rfl
  | cons staged rest ih =>
    obtain ⟨own, later⟩ := List.forall_mem_cons.mp puttable
    obtain ⟨row, upgraded, has⟩ := own
    have kept := sound.put library staged.table staged.id row
    have done : (ledger.put library staged.table staged.id row).2 = none := by
      obtain ⟨after, put⟩ := (sound staged.table).1.put_returns library staged.id
        ((sound staged.table).2 ▸ has)
      simp only [TaskLedger.put, put]
    simp only [Ledger.replayChanges, upgraded]
    split
    · rename_i thrown put
      rw [put] at done
      contradiction
    · rename_i put
      rw [put] at kept
      exact ih kept later

/-- A batch of puttable rows is replayed without an exception. -/
theorem TaskLedger.Sound.replayLocked_returns (sound : ledger.Sound) (batch : Batch)
    (puttable : ∀ staged ∈ batch.changes, Puttable library staged) :
    (Ledger.replayLocked library ledger batch).2 = none := by
  have done := sound.replayChanges_returns puttable
  unfold Ledger.replayLocked
  split
  · rename_i thrown
    rw [thrown] at done
    contradiction
  · rfl

/-! ## What a run does -/

/-- A run leaves the ledger as it is, and then no batch was accepted and a refused one is
reported, or it publishes the batch that it planned. -/
inductive Outcome (library : Library) (ledger : TaskLedger) (op : String) (a : Json) (ts : Rat)
    (persist : Batch → Option Thrown) : Ran → Prop
  | unchanged (ran : Ran) (same : ran.ledger = ledger)
      (refused : ∀ batch ∈ ran.persisted, persist batch ≠ none)
      (reported : ran.persisted = [] ∨ ∃ thrown, ran.result = .error thrown) :
      Outcome library ledger op a ts persist ran
  | published (changes : List Change) (value : Json)
      (planned : plan library ledger op a ts = .ok (.commit changes value))
      (accepted : persist ⟨ledger.revision + 1, changes⟩ = none)
      (after : TaskLedger)
      (replayed : replayLocked library ledger ⟨ledger.revision + 1, changes⟩ = (after, none)) :
      Outcome library ledger op a ts persist
        ⟨after, [⟨ledger.revision + 1, changes⟩], .ok value⟩

/-- What a run of a sound ledger does. -/
theorem TaskLedger.Sound.outcome (sound : ledger.Sound) (library : Library) (op : String)
    (a : Json) (ts : Rat) (persist : Batch → Option Thrown) :
    Outcome library ledger op a ts persist (run library ledger op a ts persist) := by
  unfold run
  split
  · exact .unchanged _ rfl (by simp) (.inl rfl)
  · exact .unchanged _ rfl (by simp) (.inl rfl)
  · rename_i changes value planned
    unfold finish
    split
    · exact .unchanged _ rfl (by simp) (.inl rfl)
    · split
      · exact .unchanged _ rfl (by simp) (.inl rfl)
      · rename_i checked
        dsimp only
        split
        · rename_i thrown refused
          exact .unchanged _ rfl (by simp [refused]) (.inr ⟨thrown, rfl⟩)
        · rename_i accepted
          have puttable : ∀ staged ∈ changes, Puttable library staged := fun staged member =>
            (plan_stages op a ts changes value planned staged member).puttable
              (forM_ok checked staged member)
          have returns := sound.replayLocked_returns ⟨ledger.revision + 1, changes⟩ puttable
          split
          · rename_i thrown
            rw [thrown] at returns
            contradiction
          · rename_i replayed
            exact .published changes value planned accepted _ replayed

/-- A run keeps a ledger sound. -/
theorem TaskLedger.Sound.run (sound : ledger.Sound) (library : Library) (op : String) (a : Json)
    (ts : Rat) (persist : Batch → Option Thrown) :
    (Ledger.run library ledger op a ts persist).ledger.Sound := by
  have outcome := sound.outcome library op a ts persist
  generalize Ledger.run library ledger op a ts persist = ran at outcome
  cases outcome with
  | unchanged _ same _ _ => exact same ▸ sound
  | published changes value planned accepted after replayed =>
    have kept := sound.replayLocked library ⟨ledger.revision + 1, changes⟩
    rwa [replayed] at kept

/-- Every ledger that runs and replays lead to is sound. -/
theorem sound_reached (reached : (machine library).Reachable ledger) : ledger.Sound := by
  refine reached.invariant sound_fresh ?_
  intro before action after sound _ taken
  cases action with
  | run op a ts persist =>
    obtain rfl := Option.some.inj taken
    exact sound.run library op a ts persist
  | replay batch =>
    obtain rfl := Option.some.inj taken
    exact sound.replayLocked library batch

/-- A run that throws changes nothing, and one that returns after a call of the journal has
called it once, for the whole batch that it planned and then published. -/
theorem run_atomic (reached : (machine library).Reachable ledger) (op : String) (a : Json)
    (ts : Rat) (persist : Batch → Option Thrown) :
    (∀ thrown, (run library ledger op a ts persist).result = .error thrown →
      (run library ledger op a ts persist).ledger = ledger) ∧
    (∀ value, (run library ledger op a ts persist).result = .ok value →
      (run library ledger op a ts persist).persisted ≠ [] →
      ∃ changes, plan library ledger op a ts = .ok (.commit changes value) ∧
        (run library ledger op a ts persist).persisted = [⟨ledger.revision + 1, changes⟩] ∧
        replayLocked library ledger ⟨ledger.revision + 1, changes⟩ =
          ((run library ledger op a ts persist).ledger, none)) := by
  have outcome := (sound_reached reached).outcome library op a ts persist
  generalize run library ledger op a ts persist = ran at outcome
  constructor
  · intro thrown failed
    cases outcome with
    | unchanged _ same _ _ => exact same
    | published => contradiction
  · intro value returned called
    cases outcome with
    | unchanged _ _ _ reported =>
      cases reported with
      | inl silent => exact absurd silent called
      | inr failed =>
        obtain ⟨thrown, failed⟩ := failed
        rw [failed] at returned
        contradiction
    | published changes other planned _ _ replayed =>
      obtain rfl := Except.ok.inj returned
      exact ⟨changes, planned, rfl, replayed⟩

/-! ## A library for concrete runs -/

mutual

/-- The text of a value whose strings need no escapes and whose numbers are whole. -/
def plainText : Json → String
  | .null => "null"
  | .bool value => if value then "true" else "false"
  | .int value => toString value
  | .float value => toString value.num ++ ".0"
  | .str value => "\"" ++ value ++ "\""
  | .arr items => "[" ++ plainItems items ++ "]"
  | .obj fields => "\x7b" ++ plainFields fields ++ "\x7d"

/-- The items of an array. -/
def plainItems : List Json → String
  | [] => ""
  | [item] => plainText item
  | item :: rest => plainText item ++ "," ++ plainItems rest

/-- The fields of an object. -/
def plainFields : List (String × Json) → String
  | [] => ""
  | [(key, value)] => "\"" ++ key ++ "\":" ++ plainText value
  | (key, value) :: rest => "\"" ++ key ++ "\":" ++ plainText value ++ "," ++ plainFields rest

end

/-- A library that reads the texts of these values and matches globs without wildcards. -/
def plainLibrary (values : List Json) : Library where
  parse text := values.find? fun value => plainText value = text
  dump := plainText
  glob pattern text := pattern = text

/-- The arguments of a thread. -/
def threadArguments : Json := .object [("id", .str "t-1"), ("title", .str "plan")]

/-- A journal that fails leaves the first thread of a ledger uncreated; one that does not is called
once. -/
theorem run_atomic_refused :
    (run (plainLibrary []) .fresh "thread_create" threadArguments 1
        (fun _ => some (.runtimeError "WAL unavailable"))).ledger = .fresh ∧
      ∃ changes, (run (plainLibrary []) .fresh "thread_create" threadArguments 1
        (fun _ => none)).persisted = [⟨1, changes⟩] := by
  have reached : (machine (plainLibrary [])).Reachable .fresh := .initial
  constructor
  · apply (run_atomic reached "thread_create" threadArguments 1 _).1
    exact show _ = Except.error (.runtimeError "WAL unavailable") from rfl
  · have called : 0 < (run (plainLibrary []) .fresh "thread_create" threadArguments 1
        (fun _ => none)).persisted.length := by decide
    obtain ⟨changes, _, once, _⟩ := (run_atomic reached "thread_create" threadArguments 1
      (fun _ => none)).2 (.str "t-1") rfl (List.ne_nil_of_length_pos called)
    exact ⟨changes, once⟩

end Chitta.Ledger
