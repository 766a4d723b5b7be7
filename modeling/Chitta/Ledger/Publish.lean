import Chitta.Ledger.Atomicity
import Chitta.Ledger.Selection

/-!
# What a run makes of the rows

A ledger that only operations have changed holds rows that passed their check, under their own
ids, and indexes that mirror them. A run leaves such a ledger as it is or publishes the batch it
planned, and then the row of an id is the last one staged for it.
-/
namespace Chitta.Ledger

/-- A row after changes, one after the other; null removes it. -/
def rowAfter (table : TableName) (id : String) : List Change → Option Json → Option Json
  | [], row => row
  | staged :: rest, row =>
    rowAfter table id rest
      (if staged.table = table ∧ staged.id = id then
        if staged.row.isNull then none else some staged.row
      else row)

/-- The tables mirror rows that passed their check. -/
structure TaskLedger.Valid (library : Library) (ledger : TaskLedger) : Prop where
  /-- The rows have the fields of the indexes. -/
  sound : ledger.Sound
  /-- The indexes mirror the rows. -/
  exact : ∀ table, (ledger.tables table).Exact library
  /-- The rows passed their check. -/
  checked : ∀ table id row, Assoc.lookup id (ledger.tables table).rows = some row →
    row.isNull = false ∧ validateRow table id row = .ok ()

/-- An upgraded row that passed its check. -/
structure Change.Checked (library : Library) (staged : Change) : Prop where
  /-- It is upgraded. -/
  upgraded : Staged library staged
  /-- It passed its check. -/
  passed : validateRow staged.table staged.id staged.row = .ok ()

variable {library : Library} {ledger : TaskLedger}

/-! ## Publishing -/

/-- An empty ledger is valid. -/
theorem valid_fresh : TaskLedger.fresh.Valid library where
  sound := sound_fresh
  exact table := by
    refine ⟨List.Pairwise.nil, fun field index inside => ?_⟩
    obtain ⟨name, _, same⟩ := List.mem_map.mp inside
    obtain ⟨rfl, rfl⟩ := Prod.mk.inj same
    refine ⟨fun text id => ?_, fun text ids found => ?_⟩
    · simp [Index.Has, Assoc.lookup, TaskLedger.fresh]
    · contradiction
  checked table id row found := by contradiction

/-- A put that did not throw changed one table. -/
theorem put_done {after : TaskLedger} {table : TableName} {id : String} {row : Json}
    (done : ledger.put library table id row = (after, none)) :
    ∃ changed, (ledger.tables table).put library id row = (changed, none) ∧
      after = { ledger with tables := Function.update ledger.tables table changed } := by
  unfold TaskLedger.put at done
  generalize (ledger.tables table).put library id row = result at done ⊢
  obtain ⟨changed, thrown⟩ := result
  obtain ⟨same, rfl⟩ := Prod.mk.inj done
  exact ⟨changed, rfl, same.symm⟩

/-- The rows after a put. -/
theorem lookup_put {after : TaskLedger} {table : TableName} {id : String} {row : Json}
    (exact : (ledger.tables table).Exact library)
    (done : ledger.put library table id row = (after, none)) (other : TableName) (name : String) :
    Assoc.lookup name (after.tables other).rows =
      if table = other ∧ id = name then if row.isNull then none else some row
      else Assoc.lookup name (ledger.tables other).rows := by
  obtain ⟨changed, put, rfl⟩ := put_done done
  by_cases here : table = other
  · subst here
    simp only [Function.update_self, (exact.put put).1, lookup_putRows, true_and]
    by_cases same : name = id
    · simp [same]
    · simp [same, Ne.symm same]
  · simp [here, Function.update_of_ne (Ne.symm here)]

/-- A put of a checked row keeps a ledger valid. -/
theorem TaskLedger.Valid.put {after : TaskLedger} (valid : ledger.Valid library) {staged : Change}
    (checked : validateRow staged.table staged.id staged.row = .ok ())
    (done : ledger.put library staged.table staged.id staged.row = (after, none)) :
    after.Valid library := by
  have rows := lookup_put (valid.exact staged.table) done
  refine ⟨?_, fun table => ?_, fun table id row found => ?_⟩
  · have kept := valid.sound.put library staged.table staged.id staged.row
    rwa [done] at kept
  · obtain ⟨changed, put, rfl⟩ := put_done done
    by_cases here : table = staged.table
    · subst here
      simp only [Function.update_self]
      exact ((valid.exact staged.table).put put).2
    · simp only [Function.update_of_ne here]
      exact valid.exact table
  · rw [rows] at found
    split at found
    · rename_i own
      split at found
      · contradiction
      · rename_i present
        obtain rfl := Option.some.inj found
        exact ⟨by simpa using present, own.1 ▸ own.2 ▸ checked⟩
    · exact valid.checked table id row found

/-- Checked changes are published one after the other, as they were staged. -/
theorem TaskLedger.Valid.replayChanges {after : TaskLedger} {changes : List Change}
    (valid : ledger.Valid library) (checked : ∀ staged ∈ changes, staged.Checked library)
    (done : Ledger.replayChanges library ledger changes = (after, none)) :
    after.Valid library ∧ ∀ table id, Assoc.lookup id (after.tables table).rows =
      rowAfter table id changes (Assoc.lookup id (ledger.tables table).rows) := by
  induction changes generalizing ledger with
  | nil =>
    obtain ⟨rfl, _⟩ := Prod.mk.inj done
    exact ⟨valid, fun _ _ => rfl⟩
  | cons staged rest ih =>
    obtain ⟨own, later⟩ := List.forall_mem_cons.mp checked
    obtain ⟨raw, upgraded⟩ := own.upgraded
    simp only [Ledger.replayChanges, upgradeRow_stable upgraded] at done
    split at done
    · simp at done
    · rename_i middle put
      obtain ⟨kept, rows⟩ := ih (valid.put own.passed put) later done
      refine ⟨kept, fun table id => ?_⟩
      rw [rows, rowAfter, lookup_put (valid.exact staged.table) put]

/-- A batch that an operation planned and published. -/
structure Published (library : Library) (ledger : TaskLedger) (op : String) (a : Json) (ts : Rat)
    (after : TaskLedger) (changes : List Change) (value : Json) : Prop where
  /-- The operation planned it. -/
  planned : plan library ledger op a ts = .ok (.commit changes value)
  /-- Its rows are checked. -/
  checked : ∀ staged ∈ changes, staged.Checked library
  /-- The ledger afterwards is valid. -/
  valid : after.Valid library
  /-- The rows afterwards. -/
  rows : ∀ table id, Assoc.lookup id (after.tables table).rows =
    rowAfter table id changes (Assoc.lookup id (ledger.tables table).rows)

/-- A batch that passed its checks is published as it was planned. -/
theorem TaskLedger.Valid.publish (valid : ledger.Valid library) {op : String} {a value : Json}
    {ts : Rat} {changes : List Change} {after : TaskLedger}
    (planned : plan library ledger op a ts = .ok (.commit changes value))
    (validated : validateChanges changes = .ok ())
    (replayed : replayLocked library ledger ⟨ledger.revision + 1, changes⟩ = (after, none)) :
    Published library ledger op a ts after changes value := by
  have checked : ∀ staged ∈ changes, staged.Checked library := fun staged member =>
    ⟨plan_stages op a ts changes value planned staged member, forM_ok validated staged member⟩
  unfold replayLocked at replayed
  split at replayed
  · simp at replayed
  · rename_i middle done
    obtain ⟨rfl, _⟩ := Prod.mk.inj replayed
    obtain ⟨kept, rows⟩ := valid.replayChanges checked done
    have valid' : TaskLedger.Valid library { middle with
        revision := max middle.revision (ledger.revision + 1) } :=
      ⟨kept.sound, kept.exact, kept.checked⟩
    exact ⟨planned, checked, valid', rows⟩

/-- A run leaves a valid ledger as it is or publishes what it planned. -/
theorem TaskLedger.Valid.run (valid : ledger.Valid library) (op : String) (a : Json) (ts : Rat)
    (persist : Batch → Option Thrown) :
    (Ledger.run library ledger op a ts persist).ledger = ledger ∨
      ∃ changes value, Published library ledger op a ts
        (Ledger.run library ledger op a ts persist).ledger changes value ∧
        (Ledger.run library ledger op a ts persist).result = .ok value := by
  have outcome := valid.sound.outcome library op a ts persist
  have checks : ∀ changes value, plan library ledger op a ts = .ok (.commit changes value) →
      (Ledger.run library ledger op a ts persist).ledger = ledger ∨
        validateChanges changes = .ok () := by
    intro changes value planned
    cases validated : validateChanges changes with
    | ok passed => exact .inr rfl
    | error thrown =>
      left
      simp only [Ledger.run, planned, finish, validated]
      split <;> rfl
  generalize Ledger.run library ledger op a ts persist = ran at outcome checks
  cases outcome with
  | unchanged _ same _ _ => exact .inl same
  | published changes value planned accepted after replayed =>
    cases checks changes value planned with
    | inl same => exact .inl same
    | inr validated =>
      exact .inr ⟨changes, value, valid.publish planned validated replayed, rfl⟩

/-- A replay that returns has reached the revision of its batch. -/
theorem revision_le_replayLocked {after : TaskLedger} {batch : Batch}
    (done : replayLocked library ledger batch = (after, none)) :
    batch.revision ≤ after.revision := by
  unfold replayLocked at done
  split at done
  · simp at done
  · obtain ⟨rfl, _⟩ := Prod.mk.inj done
    exact Nat.le_max_right _ _

/-- An operation plans a batch that passes its checks and that the journal takes. -/
def Accepted (library : Library) (ledger : TaskLedger) (op : String) (a : Json) (ts : Rat)
    (persist : Batch → Option Thrown) : Prop :=
  ∃ changes value, plan library ledger op a ts = .ok (.commit changes value) ∧ changes ≠ [] ∧
    validateChanges changes = .ok () ∧ persist ⟨ledger.revision + 1, changes⟩ = none

/-- An accepted operation publishes its batch. -/
theorem TaskLedger.Valid.run_accepted (valid : ledger.Valid library) {op : String} {a : Json}
    {ts : Rat} {persist : Batch → Option Thrown}
    (accepted : Accepted library ledger op a ts persist) :
    ∃ changes value after, Published library ledger op a ts after changes value ∧
      Ledger.run library ledger op a ts persist =
        ⟨after, [⟨ledger.revision + 1, changes⟩], .ok value⟩ ∧
          ledger.revision < after.revision := by
  obtain ⟨changes, value, planned, some_, validated, taken⟩ := accepted
  have puttable : ∀ staged ∈ changes, Puttable library staged := fun staged member =>
    (plan_stages op a ts changes value planned staged member).puttable
      (forM_ok validated staged member)
  have returns := valid.sound.replayLocked_returns ⟨ledger.revision + 1, changes⟩ puttable
  cases replayed : replayLocked library ledger ⟨ledger.revision + 1, changes⟩ with
  | mk after thrown =>
    rw [replayed] at returns
    obtain rfl : thrown = none := returns
    refine ⟨changes, value, after, valid.publish planned validated replayed, ?_,
      revision_le_replayLocked replayed⟩
    have staged : changes.isEmpty = false := by simpa using some_
    simp only [Ledger.run, planned, finish, staged, validated, taken, replayed, Bool.false_eq_true,
      if_false]

/-- An operation that is not accepted changes nothing, and returns only when it has nothing to
write. -/
theorem run_refused {op : String} {a : Json} {ts : Rat} {persist : Batch → Option Thrown}
    (refused : ¬Accepted library ledger op a ts persist) :
    (run library ledger op a ts persist).ledger = ledger ∧
      ((∃ thrown, (run library ledger op a ts persist).result = .error thrown) ∨
        ∃ value, (run library ledger op a ts persist).result = .ok value ∧
          (plan library ledger op a ts = .ok (.answer value) ∨
            plan library ledger op a ts = .ok (.commit [] value))) := by
  unfold run
  split
  · rename_i thrown _
    exact ⟨rfl, .inl ⟨thrown, rfl⟩⟩
  · rename_i value planned
    exact ⟨rfl, .inr ⟨value, rfl, .inl planned⟩⟩
  · rename_i changes value planned
    unfold finish
    split
    · rename_i none_staged
      obtain rfl := List.isEmpty_iff.mp none_staged
      exact ⟨rfl, .inr ⟨value, rfl, .inr planned⟩⟩
    · rename_i staged
      split
      · rename_i thrown _
        exact ⟨rfl, .inl ⟨thrown, rfl⟩⟩
      · rename_i validated
        dsimp only
        split
        · rename_i thrown _
          exact ⟨rfl, .inl ⟨thrown, rfl⟩⟩
        · rename_i taken
          have some_ : changes ≠ [] := fun none_staged =>
            staged (List.isEmpty_iff.mpr none_staged)
          exact absurd ⟨changes, value, planned, some_, validated, taken⟩ refused

/-- An operation that returns has rows to write. -/
def Writing (planned : Except Thrown Planned) : Prop :=
  ∀ value, planned ≠ .ok (.answer value) ∧ planned ≠ .ok (.commit [] value)

/-- A sequence whose end writes. -/
theorem Writing.bind {α : Type} {first : Except Thrown α} {second : α → Except Thrown Planned}
    (later : ∀ value, first = .ok value → Writing (second value)) : Writing (first >>= second) := by
  intro value
  constructor
  · intro planned
    obtain ⟨middle, read, planned⟩ := bind_ok planned
    exact (later middle read value).1 planned
  · intro planned
    obtain ⟨middle, read, planned⟩ := bind_ok planned
    exact (later middle read value).2 planned

/-- Staged rows are written. -/
theorem Writing.commit {changes : List Change} (staged : changes ≠ []) (result : Json) :
    Writing (.ok (.commit changes result)) := by
  intro value
  constructor
  · intro planned
    exact absurd (Except.ok.inj planned) (by simp)
  · intro planned
    exact staged (Planned.commit.inj (Except.ok.inj planned)).1

/-- One staged row is written. -/
theorem Writing.one (table : TableName) (id : String) (row result : Json) :
    Writing (commitOne library table id row result) :=
  .bind fun staged _ => .commit (List.cons_ne_nil staged []) result

/-- An operation that has rows to write returns exactly when it is accepted. -/
theorem TaskLedger.Valid.returns_iff (valid : ledger.Valid library) {op : String} {a : Json}
    {ts : Rat} {persist : Batch → Option Thrown}
    (writing : Writing (plan library ledger op a ts)) :
    (∃ value, (Ledger.run library ledger op a ts persist).result = .ok value) ↔
      Accepted library ledger op a ts persist := by
  constructor
  · rintro ⟨value, returned⟩
    by_contra refused
    cases (run_refused refused).2 with
    | inl thrown =>
      obtain ⟨thrown, failed⟩ := thrown
      rw [failed] at returned
      contradiction
    | inr nothing =>
      obtain ⟨other, _, planned⟩ := nothing
      cases planned with
      | inl answer => exact (writing other).1 answer
      | inr commit => exact (writing other).2 commit
  · intro accepted
    obtain ⟨_, value, _, _, ran, _⟩ := valid.run_accepted accepted
    exact ⟨value, by rw [ran]⟩

/-- Rows that are staged by a run that returns move the revision. -/
theorem revision_lt_finish {persist : Batch → Option Thrown} {changes : List Change}
    {result value : Json} (staged : changes ≠ [])
    (done : (finish library ledger persist changes result).result = .ok value) :
    ledger.revision < (finish library ledger persist changes result).ledger.revision := by
  unfold finish at done ⊢
  rw [if_neg (by simpa using staged)] at done ⊢
  dsimp only at done ⊢
  cases checked : validateChanges changes with
  | error thrown =>
    rw [checked] at done
    contradiction
  | ok passed =>
    rw [checked] at done
    dsimp only at done ⊢
    split
    · rename_i refused
      rw [refused] at done
      contradiction
    · rename_i accepted
      rw [accepted] at done
      dsimp only at done ⊢
      split
      · rename_i thrown
        rw [thrown] at done
        contradiction
      · rename_i replayed
        exact revision_le_replayLocked replayed

/-- A run that returns an answer or an empty batch has changed nothing, and any other that returns
has published what it staged. -/
theorem TaskLedger.Valid.returned (valid : ledger.Valid library) {op : String} {a value : Json}
    {ts : Rat} {persist : Batch → Option Thrown}
    (done : (Ledger.run library ledger op a ts persist).result = .ok value) :
    plan library ledger op a ts = .ok (.answer value) ∨
      plan library ledger op a ts = .ok (.commit [] value) ∨
      ∃ changes, Published library ledger op a ts
        (Ledger.run library ledger op a ts persist).ledger changes value := by
  have outcome := valid.run op a ts persist
  cases planned : plan library ledger op a ts with
  | error thrown =>
    simp only [Ledger.run, planned] at done
    contradiction
  | ok ended =>
    cases ended with
    | answer result =>
      simp only [Ledger.run, planned] at done
      exact .inl (by rw [Except.ok.inj done])
    | commit changes result =>
      right
      cases outcome with
      | inr published =>
        obtain ⟨staged, last, published, same⟩ := published
        obtain rfl := Except.ok.inj (same.symm.trans done)
        exact .inr ⟨staged, published⟩
      | inl same =>
        left
        simp only [Ledger.run, planned] at done same
        by_cases empty : changes = []
        · subst empty
          rw [Except.ok.inj done]
        · have moved := revision_lt_finish empty done
          rw [same] at moved
          exact absurd moved (Nat.lt_irrefl _)

/-- The runs of a ledger that never replays. -/
def Runs (_ : TaskLedger) (action : Action) : Prop :=
  match action with
  | .run .. => True
  | .replay _ => False

/-- The runs of a ledger that never replays and imports nothing. -/
def RunsWithoutImport (_ : TaskLedger) (action : Action) : Prop :=
  match action with
  | .run op .. => op ≠ "import"
  | .replay _ => False

/-- Runs without imports are runs. -/
theorem RunsWithoutImport.runs {action : Action} (permitted : RunsWithoutImport ledger action) :
    Runs ledger action := by
  cases action with
  | run => trivial
  | replay => exact permitted

/-- Runs, and replays of batches whose rows were checked when they were persisted. -/
def Journaled (library : Library) (_ : TaskLedger) (action : Action) : Prop :=
  match action with
  | .run .. => True
  | .replay batch => ∀ staged ∈ batch.changes, staged.Checked library

/-- A journaled row passes its check when it is upgraded. -/
def Replayable (library : Library) (staged : Change) : Prop :=
  ∃ row, upgradeRow library staged.table staged.row = .ok row ∧
    validateRow staged.table staged.id row = .ok ()

/-- Runs, and replays of batches whose rows are replayable. -/
def Recorded (library : Library) (_ : TaskLedger) (action : Action) : Prop :=
  match action with
  | .run .. => True
  | .replay batch => ∀ staged ∈ batch.changes, Replayable library staged

/-- A checked row is replayable. -/
theorem Change.Checked.replayable {staged : Change} (checked : staged.Checked library) :
    Replayable library staged := by
  obtain ⟨raw, upgraded⟩ := checked.upgraded
  exact ⟨staged.row, upgradeRow_stable upgraded, checked.passed⟩

/-- A replayable row has the indexed fields when it is put. -/
theorem Replayable.puttable {staged : Change} (replayable : Replayable library staged) :
    Puttable library staged := by
  obtain ⟨row, upgraded, checked⟩ := replayable
  refine ⟨row, upgraded, ?_⟩
  intro present field inside
  exact validateRow_contains checked present field (staged.table.indexed_keys field inside)

/-- Replayable rows are put and keep a ledger valid. -/
theorem TaskLedger.Valid.replayRows {changes : List Change} (valid : ledger.Valid library)
    (replayable : ∀ staged ∈ changes, Replayable library staged) :
    ∃ after, Ledger.replayChanges library ledger changes = (after, none) ∧ after.Valid library := by
  induction changes generalizing ledger with
  | nil => exact ⟨ledger, rfl, valid⟩
  | cons staged rest ih =>
    obtain ⟨own, later⟩ := List.forall_mem_cons.mp replayable
    obtain ⟨row, upgraded, has⟩ := own.puttable
    obtain ⟨again, same, checked⟩ := own
    obtain rfl : row = again := Except.ok.inj (upgraded.symm.trans same)
    obtain ⟨changed, put⟩ := (valid.sound staged.table).1.put_returns library staged.id
      ((valid.sound staged.table).2 ▸ has)
    have done : ledger.put library staged.table staged.id row =
        ({ ledger with tables := Function.update ledger.tables staged.table changed }, none) := by
      rw [TaskLedger.put, put]
    have kept := @TaskLedger.Valid.put library ledger _ valid ⟨staged.table, staged.id, row⟩ checked
      done
    simp only [Ledger.replayChanges, upgraded, done]
    exact ih kept later

/-- A replay of replayable rows keeps a ledger valid. -/
theorem TaskLedger.Valid.replay (valid : ledger.Valid library) {batch : Batch}
    (replayable : ∀ staged ∈ batch.changes, Replayable library staged) :
    (replayLocked library ledger batch).1.Valid library := by
  obtain ⟨after, done, kept⟩ := valid.replayRows replayable
  rw [replayLocked, done]
  exact ⟨kept.sound, kept.exact, kept.checked⟩

/-- A ledger that runs and replays of its journal have changed is valid. -/
theorem valid_recorded (reached : (machine library).Reaches (Recorded library) ledger) :
    ledger.Valid library := by
  apply reached.invariant valid_fresh
  intro before action after valid permitted taken
  cases action with
  | run op a ts persist =>
    have next := Option.some.inj taken
    rw [← next]
    cases valid.run op a ts persist with
    | inl same => rwa [same]
    | inr published =>
      obtain ⟨_, _, done, _⟩ := published
      exact done.valid
  | replay batch =>
    have next := Option.some.inj taken
    rw [← next]
    exact valid.replay permitted

/-- A ledger replays checked rows as they are. -/
theorem reaches_replay (reached : (machine library).Reaches (Recorded library) ledger)
    (batch : Batch) (checked : ∀ staged ∈ batch.changes, staged.Checked library) :
    ∃ after, (machine library).Reaches (Recorded library) after ∧
      ∀ table id, Assoc.lookup id (after.tables table).rows =
        rowAfter table id batch.changes (Assoc.lookup id (ledger.tables table).rows) := by
  have replayable : ∀ staged ∈ batch.changes, Replayable library staged :=
    fun staged inside => (checked staged inside).replayable
  have valid := valid_recorded reached
  obtain ⟨after, done, _⟩ := valid.replayRows replayable
  refine ⟨(replayLocked library ledger batch).1, .step (.replay batch) reached replayable rfl, ?_⟩
  rw [replayLocked, done]
  exact (valid.replayChanges checked done).2

/-- A ledger that runs and replays of checked rows have changed is valid. -/
theorem valid_journaled (reached : (machine library).Reaches (Journaled library) ledger) :
    ledger.Valid library := by
  apply valid_recorded
  apply reached.mono
  intro _ action permitted
  cases action with
  | run => trivial
  | replay => exact fun staged inside => (permitted staged inside).replayable

/-- A ledger that only runs have changed is valid. -/
theorem valid_reached (reached : (machine library).Reaches Runs ledger) : ledger.Valid library := by
  refine valid_journaled (reached.mono fun _ action permitted => ?_)
  cases action with
  | run => trivial
  | replay => contradiction

/-- Without imports in particular. -/
theorem valid_of_reaches (reached : (machine library).Reaches RunsWithoutImport ledger) :
    ledger.Valid library := by
  exact valid_reached (reached.mono fun _ _ permitted => permitted.runs)

end Chitta.Ledger
