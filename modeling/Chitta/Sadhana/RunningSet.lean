import Chitta.Sadhana.Commands

/-!
# The sadhanas that run

The map of the sadhanas that run and the states in the store are changed in separate steps. They
agree between commands as long as a sadhana is put into the map only when there is room and the
store has it as running, and is written as paused or stopped only when it is not in the map.
-/
namespace Chitta.Sadhana

variable {config : SadhanaConfig} {manager next : Manager}

/-- The store has a sadhana as running. -/
def Runs (manager : Manager) (id : Int) : Prop := ∃ s, manager.get id = some s ∧ s.state = .running

/-- Whether a command has changed the map or the store and the other comes next. -/
def Proc.unsettled (proc : Proc) : Bool :=
  match proc.command, proc.phase with
  | .start, .written _ => true
  | .pause, .erased => true
  | .pause, .loaded _ => true
  | .stop _ _, .erased => true
  | .stop _ _, .loaded _ => true
  | _, _ => false

/-- The map and the store agree but for the commands in progress. -/
structure Settled (config : SadhanaConfig) (manager : Manager) : Prop where
  /-- The map is not too large. -/
  few : manager.running.keys.length ≤ config.maxConcurrent
  /-- Every entry has an agent. -/
  brains : ∀ id rs, manager.running.lookup id = some rs → rs.brain.isSome
  /-- The store has the entries as running. -/
  sound : ∀ id, id ∈ manager.running → Runs manager id
  /-- What the store has as running is in the map, or a command is in progress. -/
  complete : ∀ id, Runs manager id → id ∈ manager.running ∨
    ∃ proc ∈ manager.procs, proc.id = id ∧ proc.unsettled

/-! ## What a step does to the others -/

/-- A step of a command leaves the others. -/
theorem others_stay {index : Nat} {proc other : Proc} (found : manager.procs[index]? = some proc)
    (inside : other ∈ manager.procs) (apart : other ≠ proc) (now : Int) (ok : Bool) :
    other ∈ (manager.proceed config index proc now ok).procs := by
  have erased : other ∈ manager.procs.eraseIdx index :=
    (List.mem_cons.mp ((perm_eraseIdx found).mem_iff.mp inside)).resolve_left apart
  rcases @proceed_procs config manager index proc now ok with same | gone | ⟨phase, moved, _⟩
  · rw [same]
    exact inside
  · rw [gone]
    exact erased
  · rw [moved]
    exact (perm_set found _).mem_iff.mpr (List.mem_cons_of_mem _ erased)

/-! ## What keeps the map and the store in agreement -/

/-- A sadhana that the store has as running is there, and no other is written. -/
theorem runs_congr {id : Int} (same : next.get id = manager.get id) :
    Runs next id ↔ Runs manager id := by
  rw [Runs, Runs, same]

/-- A change that leaves which sadhanas run and which are in the map, and the commands that have
changed one of both. -/
theorem Settled.same (settled : Settled config manager)
    (runs : ∀ id, Runs next id ↔ Runs manager id)
    (few : next.running.keys.length ≤ manager.running.keys.length)
    (brains : ∀ id rs, next.running.lookup id = some rs → rs.brain.isSome)
    (members : ∀ id, id ∈ next.running ↔ id ∈ manager.running)
    (procs : ∀ proc ∈ manager.procs, proc.unsettled → proc ∈ next.procs) :
    Settled config next where
  few := Nat.le_trans few settled.few
  brains := brains
  sound id inside := (runs id).mpr (settled.sound id ((members id).mp inside))
  complete id persisted := by
    refine (settled.complete id ((runs id).mp persisted)).imp (members id).mpr ?_
    rintro ⟨proc, inside, own, unsettled⟩
    exact ⟨proc, procs proc inside unsettled, own, unsettled⟩

/-- An entry of the map is replaced. -/
theorem keys_insert_of_mem {running : AList fun _ : Int => RunningState} {id : Int}
    (inside : id ∈ running) (rs : RunningState) :
    (running.insert id rs).keys.length = running.keys.length := by
  have positive : 0 < running.keys.length := List.length_pos_of_mem inside
  rw [AList.keys_insert, List.length_cons, List.length_erase_of_mem inside]
  omega

/-- A new entry of the map. -/
theorem keys_insert_le (running : AList fun _ : Int => RunningState) (id : Int)
    (rs : RunningState) : (running.insert id rs).keys.length ≤ running.keys.length + 1 := by
  rw [AList.keys_insert, List.length_cons]
  exact Nat.succ_le_succ (List.length_erase_le)

/-- The entry of a sadhana in the map is changed; it keeps an agent. -/
theorem Settled.update (settled : Settled config manager) {id : Int} {rs changed : RunningState}
    (found : manager.running.lookup id = some rs) (brain : changed.brain.isSome = rs.brain.isSome)
    (runs : ∀ id, Runs next id ↔ Runs manager id)
    (running : next.running = manager.running.insert id changed)
    (procs : ∀ proc ∈ manager.procs, proc.unsettled → proc ∈ next.procs) :
    Settled config next := by
  have inside : id ∈ manager.running := AList.lookup_isSome.mp (found ▸ rfl)
  refine settled.same runs ?_ ?_ ?_ procs
  · rw [running, keys_insert_of_mem inside]
  · intro other entry there
    rw [running] at there
    by_cases same : other = id
    · rw [same, AList.lookup_insert, Option.some.injEq] at there
      rw [← there, brain]
      exact settled.brains id rs found
    · rw [AList.lookup_insert_ne same] at there
      exact settled.brains other entry there
  · intro other
    rw [running, AList.mem_insert]
    exact ⟨fun either => either.elim (fun same => same ▸ inside) fun before => before, .inr⟩

/-- The map holds the same entry of another sadhana after a step of a command. -/
theorem lookup_elsewhere (index : Nat) {proc : Proc} (now : Int) (ok : Bool) {id : Int}
    (apart : id ≠ proc.id) :
    (manager.proceed config index proc now ok).running.lookup id = manager.running.lookup id := by
  rw [proceed_running]
  split
  · exact AList.lookup_insert_ne apart
  · exact AList.lookup_erase_ne apart
  · exact AList.lookup_erase_ne apart
  · unfold Manager.setBrainModel
    split
    · exact AList.lookup_insert_ne apart
    · rfl
  · rfl

/-- The store holds the same record of another sadhana after a step of a command. -/
theorem get_elsewhere (index : Nat) {proc : Proc} (now : Int) (ok : Bool) {id : Int}
    (apart : id ≠ proc.id) :
    (manager.proceed config index proc now ok).get id = manager.get id := by
  have tasks := @proceed_tasks config manager index proc now ok
  split at tasks
  · exact get_insert_ne apart _ tasks
  · rw [Manager.get, Manager.get, tasks]

/-- What a step of a command has to do for its own sadhana. -/
theorem Settled.own (settled : Settled config manager) {index : Nat} {proc : Proc}
    (found : manager.procs[index]? = some proc) {now : Int} {ok : Bool}
    (step : next = manager.proceed config index proc now ok)
    (few : next.running.keys.length ≤ config.maxConcurrent)
    (brains : ∀ rs, next.running.lookup proc.id = some rs → rs.brain.isSome)
    (sound : proc.id ∈ next.running → Runs next proc.id)
    (complete : Runs next proc.id → proc.id ∈ next.running ∨
      ∃ other ∈ next.procs, other.id = proc.id ∧ other.unsettled) : Settled config next := by
  subst step
  have members : ∀ id, id ≠ proc.id →
      (id ∈ (manager.proceed config index proc now ok).running ↔ id ∈ manager.running) := by
    intro id apart
    rw [← AList.lookup_isSome, ← AList.lookup_isSome, lookup_elsewhere index now ok apart]
  refine ⟨few, fun id rs there => ?_, fun id inside => ?_, fun id persisted => ?_⟩
  · by_cases same : id = proc.id
    · exact brains rs (same ▸ there)
    · rw [lookup_elsewhere index now ok same] at there
      exact settled.brains id rs there
  · by_cases same : id = proc.id
    · rw [same] at inside ⊢
      exact sound inside
    · rw [members id same] at inside
      exact (runs_congr (get_elsewhere index now ok same)).mpr (settled.sound id inside)
  · by_cases same : id = proc.id
    · rw [same] at persisted ⊢
      exact complete persisted
    · have before := settled.complete id
        ((runs_congr (get_elsewhere index now ok same)).mp persisted)
      refine before.imp (members id same).mpr ?_
      rintro ⟨other, inside, own, unsettled⟩
      have apart : other ≠ proc := fun equal => same (own.symm.trans (congrArg Proc.id equal))
      exact ⟨other, others_stay found inside apart now ok, own, unsettled⟩

/-- A step that leaves whether its sadhana runs and the map, of a command that has changed
neither. -/
theorem Settled.quiet (settled : Settled config manager) {index : Nat} {proc : Proc}
    (found : manager.procs[index]? = some proc) (calm : proc.unsettled = false) {now : Int}
    {ok : Bool}
    (runs : Runs (manager.proceed config index proc now ok) proc.id ↔ Runs manager proc.id)
    (running : (manager.proceed config index proc now ok).running = manager.running) :
    Settled config (manager.proceed config index proc now ok) := by
  refine settled.own found rfl ?_ ?_ ?_ ?_
  · rw [running]
    exact settled.few
  · rw [running]
    exact settled.brains proc.id
  · rw [running, runs]
    exact settled.sound proc.id
  · rw [running, runs]
    intro persisted
    refine (settled.complete proc.id persisted).imp_right ?_
    rintro ⟨other, inside, own, unsettled⟩
    refine ⟨other, others_stay found inside ?_ now ok, own, unsettled⟩
    rintro rfl
    rw [calm] at unsettled
    contradiction

/-- A command that goes on is among those in progress. -/
theorem mem_goto {index : Nat} {proc : Proc} (found : manager.procs[index]? = some proc)
    (phase : Phase) : { proc with phase } ∈ (manager.goto index proc phase).procs :=
  (perm_set found _).mem_iff.mpr List.mem_cons_self

/-- After a step a command has changed the map or the store and the other comes next. -/
theorem Settled.unsettle (settled : Settled config manager) {index : Nat} {proc : Proc}
    (found : manager.procs[index]? = some proc) {now : Int} {ok : Bool}
    (few : (manager.proceed config index proc now ok).running.keys.length ≤
      manager.running.keys.length)
    (same : ∀ rs, (manager.proceed config index proc now ok).running.lookup proc.id = some rs →
      manager.running.lookup proc.id = some rs)
    (sound : proc.id ∈ (manager.proceed config index proc now ok).running →
      Runs (manager.proceed config index proc now ok) proc.id)
    {phase : Phase} (goes : { proc with phase } ∈ (manager.proceed config index proc now ok).procs)
    (unsettled : ({ proc with phase } : Proc).unsettled) :
    Settled config (manager.proceed config index proc now ok) :=
  settled.own found rfl (Nat.le_trans few settled.few)
    (fun rs there => settled.brains _ rs (same rs there)) sound
    fun _ => .inr ⟨_, goes, rfl, unsettled⟩

/-! ## Orderly steps -/

/-- A step of a command that keeps the map and the store in agreement: `start` puts a sadhana into
the map when there is room and the store has it as running, `pause` and `stop` write one that is not
in the map, and the others write the state that the record has. -/
def Proc.orderly (config : SadhanaConfig) (manager : Manager) (proc : Proc) (ok : Bool) : Prop :=
  match proc.command, proc.phase with
  | .start, .written _ =>
    (proc.id ∈ manager.running ∨ manager.running.keys.length < config.maxConcurrent) ∧
      Runs manager proc.id
  | .start, _ => True
  | .pause, .loaded _ => ok = true ∧ proc.id ∉ manager.running
  | .stop _ _, .loaded _ => ok = true ∧ proc.id ∉ manager.running
  | _, .loaded s => ok = true → ∀ record, manager.get proc.id = some record →
    s.state = record.state
  | _, _ => True

/-- A step that writes nothing leaves the records. -/
theorem get_quiet {index : Nat} {proc : Proc} {now : Int} {ok : Bool}
    (silent : proc.write ok = none) (id : Int) :
    (manager.proceed config index proc now ok).get id = manager.get id := by
  have tasks := @proceed_tasks config manager index proc now ok
  rw [silent] at tasks
  rw [Manager.get, Manager.get, tasks]

/-- A step that writes has its record read next. -/
theorem get_written {index : Nat} {proc : Proc} {now : Int} {ok : Bool} {s : SadhanaRecord}
    (written : proc.write ok = some s) :
    (manager.proceed config index proc now ok).get proc.id =
      some (payloadToSadhana (sadhanaToPayload (proc.command.edit now s))) := by
  have tasks := @proceed_tasks config manager index proc now ok
  rw [written] at tasks
  exact get_insert proc.id _ tasks

/-- A sadhana runs when the record that was written runs. -/
theorem runs_written {index : Nat} {proc : Proc} {now : Int} {ok : Bool} {s : SadhanaRecord}
    (written : proc.write ok = some s) :
    Runs (manager.proceed config index proc now ok) proc.id ↔
      (proc.command.edit now s).state = .running := by
  rw [Runs, get_written written]
  constructor
  · rintro ⟨record, same, runs⟩
    rw [← Option.some.inj same, stored_state] at runs
    exact runs
  · exact fun runs => ⟨_, rfl, runs⟩

/-- A command that is neither `start` nor `pause` nor `stop` writes the state that it has read. -/
theorem Settled.rewrite (settled : Settled config manager) (present : Present manager) {index : Nat}
    {proc : Proc} (found : manager.procs[index]? = some proc)
    (calm : proc.unsettled = false) {now : Int} {ok : Bool} {s : SadhanaRecord}
    (written : proc.write ok = some s) (kept : (proc.command.edit now s).state = s.state)
    (state : ∀ record, manager.get proc.id = some record → s.state = record.state)
    (running : (manager.proceed config index proc now ok).running = manager.running) :
    Settled config (manager.proceed config index proc now ok) := by
  refine settled.quiet found calm ?_ running
  have holds : proc.phase.copy.isSome := by rw [copy_of_write written]; rfl
  obtain ⟨record, there⟩ := get_of_mem (present.procs proc (List.mem_of_getElem? found) holds)
  rw [runs_written written, kept, state record there, Runs, there]
  exact ⟨fun runs => ⟨record, rfl, runs⟩, fun ⟨_, same, runs⟩ => Option.some.inj same ▸ runs⟩

/-- A step that changes nothing that matters, of a command that has changed nothing. -/
theorem Settled.silent (settled : Settled config manager) {index : Nat} {proc : Proc}
    (found : manager.procs[index]? = some proc) (calm : proc.unsettled = false) {now : Int}
    {ok : Bool} (silent : proc.write ok = none)
    (running : (manager.proceed config index proc now ok).running = manager.running) :
    Settled config (manager.proceed config index proc now ok) :=
  settled.quiet found calm (runs_congr (get_quiet silent proc.id)) running

/-- A step of `start`. -/
theorem Settled.start (settled : Settled config manager) {index : Nat} {id : Int} {phase : Phase}
    (found : manager.procs[index]? = some { id, command := .start, phase }) {now : Int} {ok : Bool}
    (orderly : ({ id, command := .start, phase } : Proc).orderly config manager ok) :
    Settled config (manager.proceed config index { id, command := .start, phase } now ok) := by
  have running := @proceed_running config manager index { id, command := .start, phase } now ok
  cases phase with
  | written s =>
    obtain ⟨room, persisted⟩ := orderly
    refine settled.own found rfl ?_ (fun rs there => ?_) (fun _ => ?_) fun _ => .inl ?_
    · rw [running]
      show (manager.running.insert id _).keys.length ≤ config.maxConcurrent
      cases room with
      | inl inside =>
        rw [keys_insert_of_mem inside]
        exact settled.few
      | inr free =>
        have grown := keys_insert_le manager.running id
          { nextRunAt := now, brain := createBrain s.brainProvider s.brainModel
            consecutiveFailures := 0 }
        omega
    · rw [running] at there
      have own := Option.some.inj ((AList.lookup_insert manager.running).symm.trans there)
      rw [← own]
      exact createBrain_isSome _ _
    · exact (runs_congr (get_quiet rfl id)).mpr persisted
    · rw [running]
      exact AList.mem_insert _ |>.mpr (.inl rfl)
  | cleared s =>
    cases ok with
    | false => exact settled.silent found rfl rfl running
    | true =>
      have goes := @mem_goto manager index _ found (.written (Command.start.edit now s))
      refine settled.unsettle found (Nat.le_of_eq (congrArg (·.keys.length) running))
        (fun rs there => ?_)
        (fun _ => (runs_written rfl).mpr rfl) goes rfl
      rw [running] at there
      exact there
  | called => exact settled.silent found rfl rfl running
  | checked s => exact settled.silent found rfl rfl running
  | erased => exact settled.silent found rfl rfl running
  | loaded s => exact settled.silent found rfl rfl running
  | missing => exact settled.silent found rfl rfl running

/-- The first step of `pause` and `stop` takes the sadhana out of the map. -/
theorem Settled.erase (settled : Settled config manager) {index : Nat} {id : Int}
    {command : Command} (halts : command.halts = true)
    (found : manager.procs[index]? = some { id, command, phase := .called }) {now : Int} {ok : Bool}
    (erased : manager.proceed config index { id, command, phase := .called } now ok =
      (manager.eraseRunning id).goto index { id, command, phase := .called } .erased) :
    Settled config (manager.proceed config index { id, command, phase := .called } now ok) := by
  have running : (manager.proceed config index { id, command, phase := .called } now ok).running =
      manager.running.erase id := by
    rw [erased]
    rfl
  have goes := @mem_goto manager index _ found .erased
  refine @Settled.unsettle _ _ settled index _ found now ok ?_ (fun rs there => ?_)
    (fun inside => ?_) .erased ?_ ?_
  · rw [running, AList.keys_erase]
    exact List.length_erase_le
  · rw [running, AList.lookup_erase] at there
    contradiction
  · rw [running, AList.mem_erase] at inside
    exact absurd rfl inside.1
  · rw [erased]
    exact goes
  · cases command with
    | pause => rfl
    | stop success reason => rfl
    | _ => contradiction

/-- The other steps of `pause` and `stop` read the record and write its state. -/
theorem Settled.halt (settled : Settled config manager) {index : Nat} {proc : Proc}
    (halts : proc.command.halts = true) (found : manager.procs[index]? = some proc) {now : Int}
    {ok : Bool} (later : proc.phase ≠ .called)
    (halted : manager.proceed config index proc now ok = manager.halt index proc now ok)
    (orderly : proc.orderly config manager ok) :
    Settled config (manager.proceed config index proc now ok) := by
  obtain ⟨id, command, phase⟩ := proc
  have running : (manager.proceed config index { id, command, phase } now ok).running =
      manager.running := by
    rw [proceed_running]
    cases command with
    | pause => cases phase <;> first | rfl | contradiction
    | stop success reason => cases phase <;> first | rfl | contradiction
    | _ => contradiction
  have silent : (∀ s, phase ≠ .loaded s) →
      ({ id, command, phase } : Proc).write ok = none := by
    intro apart
    cases command with
    | pause => cases phase <;> first | rfl | exact absurd rfl (apart _)
    | stop success reason => cases phase <;> first | rfl | exact absurd rfl (apart _)
    | _ => contradiction
  cases phase with
  | called => exact absurd rfl later
  | erased =>
    cases read : manager.get id with
    | none =>
      -- There is no record, so the store does not have the sadhana as running.
      have gone : ¬ Runs (manager.proceed config index { id, command, phase := .erased } now ok)
          id := by
        rw [Runs, get_quiet (silent fun _ same => by cases same) id, read]
        rintro ⟨_, same, _⟩
        cases same
      refine settled.own found rfl ?_ ?_ (fun inside => ?_) fun runs => absurd runs gone
      · rw [running]
        exact settled.few
      · rw [running]
        exact settled.brains id
      · rw [running] at inside
        obtain ⟨s, there, _⟩ := settled.sound id inside
        rw [read] at there
        contradiction
    | some s =>
      have goes := @mem_goto manager index _ found (.loaded s)
      refine @Settled.unsettle _ _ settled index _ found now ok
        (Nat.le_of_eq (congrArg (·.keys.length) running)) (fun rs there => ?_) (fun inside => ?_)
        (.loaded s) ?_ ?_
      · rw [running] at there
        exact there
      · rw [running] at inside
        exact (runs_congr (get_quiet (silent fun _ same => by cases same) id)).mpr
          (settled.sound id inside)
      · rw [halted, Manager.halt]
        simp only [read]
        exact goes
      · cases command with
        | pause => rfl
        | stop success reason => rfl
        | _ => contradiction
  | loaded s =>
    obtain ⟨rfl, absent⟩ : ok = true ∧ id ∉ manager.running := by
      cases command with
      | pause => exact orderly
      | stop success reason => exact orderly
      | _ => contradiction
    have gone : ¬ Runs (manager.proceed config index { id, command, phase := .loaded s } now true)
        id := by
      cases command with
      | pause =>
        intro runs
        have state : SadhanaState.paused = .running := (runs_written rfl).mp runs
        contradiction
      | stop success reason =>
        intro runs
        have state : (if success then SadhanaState.done else .failed) = .running :=
          (runs_written rfl).mp runs
        cases success <;> contradiction
      | _ => contradiction
    refine settled.own found rfl ?_ ?_ (fun inside => ?_) fun runs => absurd runs gone
    · rw [running]
      exact settled.few
    · rw [running]
      exact settled.brains id
    · rw [running] at inside
      exact absurd inside absent
  | _ =>
    refine settled.silent found ?_ (silent fun _ same => by cases same) running
    cases command with
    | pause => rfl
    | stop success reason => rfl
    | _ => contradiction

/-- The agent of a sadhana gets another model. -/
theorem Settled.setModel (settled : Settled config manager) {index : Nat} {id : Int}
    {model : String} {s : SadhanaRecord}
    (found : manager.procs[index]? = some { id, command := .setModel model, phase := .written s })
    (now : Int) (ok : Bool) :
    Settled config
      (manager.proceed config index { id, command := .setModel model, phase := .written s } now
        ok) := by
  have running := @proceed_running config manager index
    { id, command := .setModel model, phase := .written s } now ok
  cases there : manager.running.lookup id with
  | none =>
    refine settled.silent found rfl rfl (running.trans ?_)
    simp only [Manager.setBrainModel, there]
  | some rs =>
    have changed : (manager.setBrainModel id model).running = manager.running.insert id
        { rs with brain := rs.brain.map fun brain => { brain with modelName := model } } := by
      simp only [Manager.setBrainModel, there]
    refine settled.update there (by cases rs.brain <;> rfl)
      (fun other => runs_congr (get_quiet rfl other)) (running.trans changed) ?_
    intro proc inside unsettled
    refine others_stay found inside ?_ now ok
    rintro rfl
    contradiction

/-- A step of a command that neither starts nor pauses nor stops. -/
theorem Settled.other (settled : Settled config manager) (present : Present manager) {index : Nat}
    {proc : Proc} (found : manager.procs[index]? = some proc)
    (other : proc.command.halts = false ∧ proc.command ≠ .start) {now : Int} {ok : Bool}
    (orderly : proc.orderly config manager ok) :
    Settled config (manager.proceed config index proc now ok) := by
  obtain ⟨id, command, phase⟩ := proc
  have calm : ({ id, command, phase } : Proc).unsettled = false := by
    cases command with
    | start => exact absurd rfl other.2
    | pause => exact absurd other.1.symm Bool.false_ne_true
    | stop success reason => exact absurd other.1.symm Bool.false_ne_true
    | _ => rfl
  have kept : ∀ s, (command.edit now s).state = s.state := by
    intro s
    cases command with
    | start => exact absurd rfl other.2
    | pause => exact absurd other.1.symm Bool.false_ne_true
    | stop success reason => exact absurd other.1.symm Bool.false_ne_true
    | _ => rfl
  cases written : ({ id, command, phase } : Proc).write ok with
  | some s =>
    have held : phase = .loaded s ∧ ok = true := by
      cases command <;> cases phase <;> cases ok <;> simp_all [Proc.write]
    obtain ⟨rfl, rfl⟩ := held
    have state : ∀ record, manager.get id = some record → s.state = record.state := by
      cases command with
      | start => exact absurd rfl other.2
      | pause => exact absurd other.1.symm Bool.false_ne_true
      | stop success reason => exact absurd other.1.symm Bool.false_ne_true
      | _ => exact orderly rfl
    have running : (manager.proceed config index { id, command, phase := .loaded s } now
        true).running = manager.running := by
      rw [proceed_running]
      cases command <;> rfl
    exact settled.rewrite present found calm written (kept s) state running
  | none =>
    by_cases last : ∃ model s, command = .setModel model ∧ phase = .written s
    · obtain ⟨model, s, rfl, rfl⟩ := last
      exact settled.setModel found now ok
    · refine settled.silent found calm written ?_
      rw [proceed_running]
      cases command with
      | start => exact absurd rfl other.2
      | pause => exact absurd other.1.symm Bool.false_ne_true
      | stop success reason => exact absurd other.1.symm Bool.false_ne_true
      | setModel model =>
        cases phase with
        | written s => exact absurd ⟨model, s, rfl, rfl⟩ last
        | _ => rfl
      | _ => rfl

/-- An orderly step of a command. -/
theorem Settled.proceed (settled : Settled config manager) (present : Present manager) {index : Nat}
    {proc : Proc} (found : manager.procs[index]? = some proc) {now : Int} {ok : Bool}
    (orderly : proc.orderly config manager ok) :
    Settled config (manager.proceed config index proc now ok) := by
  obtain ⟨id, command, phase⟩ := proc
  cases command with
  | start => exact settled.start found orderly
  | pause =>
    by_cases called : phase = .called
    · subst called
      cases there : manager.running.lookup id with
      | none =>
        refine settled.silent found rfl rfl ?_
        rw [proceed_running]
        exact erase_absent there
      | some rs =>
        refine settled.erase rfl found ?_
        simp only [Manager.proceed, Manager.pause, there]
    · refine settled.halt rfl found called ?_ orderly
      cases phase with
      | called => exact absurd rfl called
      | _ => rfl
  | stop success reason =>
    by_cases called : phase = .called
    · subst called
      exact settled.erase rfl found rfl
    · refine settled.halt rfl found called ?_ orderly
      cases phase with
      | called => exact absurd rfl called
      | _ => rfl
  | _ => exact settled.other present found ⟨rfl, by simp⟩ orderly

/-! ## Cycles and restarts -/

/-- The end of a cycle whose copy has the state of the record. -/
theorem Settled.endCycle (settled : Settled config manager) (present : Present manager) {id : Int}
    {rest : List Int} {copy : SadhanaRecord} {rs : RunningState}
    (running : manager.tick = some { toRun := id :: rest, cycle := some (copy, .thinking) })
    (entry : manager.running.lookup id = some rs) {result : CycleResult} {now : Int} {ok : Bool}
    (state : ok = true → ∀ record, manager.get id = some record → copy.state = record.state) :
    Settled config (manager.endCycle config id rest copy rs result now ok) := by
  obtain ⟨tasks, map, ⟨calls, procs⟩, _⟩ :=
    @endCycle_cases config manager id rest copy rs result now ok
  have stay : ∀ proc ∈ manager.procs, proc.unsettled →
      proc ∈ (manager.endCycle config id rest copy rs result now ok).procs := by
    intro proc inside _
    rw [procs]
    exact List.mem_append_left _ inside
  have runs : ∀ other, Runs (manager.endCycle config id rest copy rs result now ok) other ↔
      Runs manager other := by
    intro other
    cases ok with
    | false =>
      refine runs_congr ?_
      rw [Manager.get, Manager.get, tasks]
      rfl
    | true =>
      by_cases same : other = id
      · subst same
        obtain ⟨record, there⟩ := get_of_mem (present.cycle other (by rw [running]; rfl))
        have kept : copy.state = record.state := state rfl record there
        rw [Runs, Runs, get_insert other _ tasks, there]
        constructor
        · rintro ⟨_, same, own⟩
          rw [← Option.some.inj same] at own
          exact ⟨record, rfl, kept.symm.trans own⟩
        · rintro ⟨_, same, own⟩
          rw [← Option.some.inj same] at own
          exact ⟨_, rfl, kept.trans own⟩
      · exact runs_congr (get_insert_ne same _ tasks)
  exact settled.update entry (by rfl) runs map stay

/-- A call has changed nothing. -/
theorem Settled.call (settled : Settled config manager) (id : Int) (command : Command) :
    Settled config (manager.call id command) :=
  settled.same (fun _ => Iff.rfl) (Nat.le_refl _) settled.brains (fun _ => Iff.rfl)
    fun _ inside _ => List.mem_append_left _ inside

/-- The thread of the daemon goes on. -/
theorem Settled.ticked (settled : Settled config manager) (tick : Option Tick) :
    Settled config { manager with tick := tick } :=
  settled.same (fun _ => Iff.rfl) (Nat.le_refl _) settled.brains (fun _ => Iff.rfl)
    fun _ inside _ => inside

/-- A sadhana without a record is taken out of the map. -/
theorem Settled.eraseMissing (settled : Settled config manager) {id : Int}
    (missing : manager.get id = none) : Settled config (manager.eraseRunning id) := by
  have absent : id ∉ manager.running := by
    intro inside
    obtain ⟨s, there, _⟩ := settled.sound id inside
    rw [missing] at there
    contradiction
  have same : (manager.eraseRunning id).running = manager.running :=
    erase_absent (AList.lookup_eq_none.mpr absent)
  refine settled.same (fun _ => Iff.rfl) (Nat.le_of_eq (congrArg (·.keys.length) same)) ?_ ?_
    fun _ inside _ => inside
  · rw [same]
    exact settled.brains
  · rw [same]
    exact fun _ => Iff.rfl

/-- The next cycle of a sadhana is due later. -/
theorem Settled.scheduleNext (settled : Settled config manager) (id : Int) (rest : List Int)
    (s : SadhanaRecord) (status : String) (now : Int) :
    Settled config (manager.scheduleNext id rest s status now) := by
  unfold Manager.scheduleNext
  dsimp only
  cases there : manager.running.lookup id with
  | none => exact settled.ticked _
  | some rs =>
    show Settled config { manager with
      running := manager.running.insert id
        { rs with nextRunAt := now + if status = "progressed" then 0 else s.intervalSeconds * 1000 }
      tick := some { toRun := rest, cycle := none } }
    exact settled.update there (by rfl) (fun _ => Iff.rfl) rfl fun _ inside _ => inside

/-- What the constructor puts into the map. -/
theorem restored (now : Int) (entries : List (Int × SadhanaRecord)) (manager : Manager) :
    (∀ id, id ∈ (entries.foldl (Manager.restore now) manager).running ↔
      id ∈ manager.running ∨ id ∈ entries.map (·.1)) ∧
    (entries.foldl (Manager.restore now) manager).running.keys.length ≤
      manager.running.keys.length + entries.length ∧
    ((∀ id rs, manager.running.lookup id = some rs → rs.brain.isSome) →
      ∀ id rs, (entries.foldl (Manager.restore now) manager).running.lookup id = some rs →
        rs.brain.isSome) := by
  induction entries generalizing manager with
  | nil => exact ⟨fun id => (or_iff_left List.not_mem_nil).symm, Nat.le_refl _,
      fun brains => brains⟩
  | cons entry rest ih =>
    obtain ⟨brain, made⟩ := Option.isSome_iff_exists.mp
      (createBrain_isSome entry.2.brainProvider entry.2.brainModel)
    have first : (Manager.restore now manager entry).running = manager.running.insert entry.1
        { nextRunAt := now, brain := some brain, consecutiveFailures := 0 } := by
      simp only [Manager.restore, made]
    obtain ⟨members, few, brains⟩ := ih (Manager.restore now manager entry)
    rw [List.foldl_cons]
    refine ⟨fun id => ?_, ?_, fun before => brains fun id rs there => ?_⟩
    · rw [members, first, AList.mem_insert, List.map_cons, List.mem_cons]
      constructor
      · rintro ((own | old) | later)
        · exact .inr (.inl own)
        · exact .inl old
        · exact .inr (.inr later)
      · rintro (old | own | later)
        · exact .inl (.inr old)
        · exact .inl (.inl own)
        · exact .inr later
    · rw [first] at few
      have grown := keys_insert_le manager.running entry.1
        { nextRunAt := now, brain := some brain, consecutiveFailures := 0 }
      rw [List.length_cons]
      omega
    · rw [first] at there
      by_cases same : id = entry.1
      · rw [same, AList.lookup_insert, Option.some.injEq] at there
        rw [← there]
        rfl
      · rw [AList.lookup_insert_ne same] at there
        exact before id rs there

/-- The records that run, among those that are listed. -/
theorem mem_runningRecords {listed : List Int} {id : Int} :
    id ∈ (manager.runningRecords listed).map (·.1) ↔ id ∈ listed ∧ Runs manager id := by
  simp only [Manager.runningRecords, List.mem_map, List.mem_filterMap]
  constructor
  · rintro ⟨entry, ⟨other, inside, found⟩, rfl⟩
    split at found
    · rename_i s there
      split at found
      · rename_i state
        rw [← Option.some.inj found]
        exact ⟨inside, s, there, state⟩
      · contradiction
    · contradiction
  · rintro ⟨inside, s, there, state⟩
    exact ⟨(id, s), ⟨id, inside, by rw [there]; exact if_pos state⟩, rfl⟩

/-- The daemon starts again with few enough records that run. -/
theorem settled_restart {listed : List Int} (all : listed.Perm manager.tasks.keys)
    (few : (manager.runningRecords listed).length ≤ config.maxConcurrent)
    (limit : (manager.runningRecords listed).length ≤ 50) (now : Int) :
    Settled config (manager.restart listed now) := by
  have whole : manager.listActive listed = manager.runningRecords listed :=
    List.take_of_length_le limit
  obtain ⟨members, size, brains⟩ := restored now (manager.runningRecords listed)
    { manager with running := ∅, procs := [], tick := none }
  have running : (manager.restart listed now).running =
      ((manager.runningRecords listed).foldl (Manager.restore now)
        { manager with running := ∅, procs := [], tick := none }).running := by
    rw [Manager.restart, whole]
  have runs : ∀ id, Runs (manager.restart listed now) id ↔ Runs manager id := by
    intro id
    refine runs_congr ?_
    rw [Manager.get, Manager.get, restart_tasks]
  have own : ∀ id, id ∈ (manager.restart listed now).running ↔ Runs manager id := by
    intro id
    rw [running, members, mem_runningRecords]
    constructor
    · rintro (old | ⟨_, persisted⟩)
      · exact absurd old (AList.notMem_empty id)
      · exact persisted
    · intro persisted
      have there : id ∈ manager.tasks := mem_of_get persisted.choose_spec.1
      exact .inr ⟨all.mem_iff.mpr there, persisted⟩
  refine ⟨?_, ?_, fun id inside => (runs id).mpr ((own id).mp inside),
    fun id persisted => .inl ((own id).mpr ((runs id).mp persisted))⟩
  · rw [running]
    have empty : ({ manager with running := ∅, procs := [], tick := none } :
        Manager).running.keys.length = 0 := rfl
    rw [empty] at size
    omega
  · rw [running]
    exact brains fun id rs there => by cases there

/-! ## Runs -/

/-- A step that keeps the map and the store in agreement: that of a command is orderly, a cycle
writes the state that the record has, and the daemon starts again with few enough records that
run. -/
def Orderly (config : SadhanaConfig) (manager : Manager) : Action → Prop
  | .proceed index _ ok => ∀ proc, manager.procs[index]? = some proc →
    proc.orderly config manager ok
  | .endCycle _ _ ok => ok = true → ∀ id rest copy record,
    manager.tick = some { toRun := id :: rest, cycle := some (copy, .thinking) } →
      manager.get id = some record → copy.state = record.state
  | .restart listed _ => (manager.runningRecords listed).length ≤ config.maxConcurrent ∧
    (manager.runningRecords listed).length ≤ 50
  | _ => True

/-- Nothing runs when nothing has been created. -/
theorem settled_initial : Settled config .initial where
  few := Nat.zero_le _
  brains id rs there := by
    have absent : Manager.initial.running.lookup id = none := rfl
    rw [absent] at there
    contradiction
  sound id inside := absurd inside (AList.notMem_empty id)
  complete id persisted := by
    obtain ⟨s, there, _⟩ := persisted
    have absent : Manager.initial.get id = none := rfl
    rw [absent] at there
    contradiction

/-- An orderly step. -/
theorem Settled.step (settled : Settled config manager) (present : Present manager)
    {action : Action} (orderly : Orderly config manager action)
    (taken : (machine config).step manager action = some next) : Settled config next := by
  cases step_cases taken with
  | @create id _ _ _ _ _ _ _ _ absent =>
    refine settled.same (fun other => ?_) (Nat.le_refl _) settled.brains (fun _ => Iff.rfl)
      fun _ inside _ => inside
    by_cases same : other = id
    · subst same
      -- The new record is pending, and there was none before.
      refine iff_of_false ?_ fun ⟨s, there, _⟩ => absent (mem_of_get there)
      rintro ⟨s, there, state⟩
      rw [get_insert other _ rfl, Option.some.injEq] at there
      rw [← there] at state
      contradiction
    · exact runs_congr (get_insert_ne same _ rfl)
  | call id command => exact settled.call id command
  | @proceed index proc now ok found => exact settled.proceed present found (orderly proc found)
  | tick _ _ => exact settled.ticked _
  | gone _ _ missing => exact (settled.eraseMissing missing).ticked _
  | @overdue id _ _ _ _ _ _ => exact (settled.call id .pause).ticked _
  | load _ _ _ _ _ => exact settled.ticked _
  | finish _ _ => exact settled.ticked _
  | halted _ _ => exact settled.ticked _
  | think _ _ => exact settled.ticked _
  | @endCycle id rest copy rs result now ok running entry =>
    exact settled.endCycle present running entry fun written record there =>
      orderly written id rest copy record running there
  | next now _ => exact settled.scheduleNext _ _ _ _ now
  | restart now all => exact settled_restart all orderly.1 orderly.2 now

/-- As long as the steps are orderly, not too many sadhanas run, each has an agent, and between
commands those run that the store has as running. -/
theorem running_agrees (reached : (machine config).Reaches (Orderly config) manager) :
    manager.running.keys.length ≤ config.maxConcurrent ∧
      (∀ id rs, manager.running.lookup id = some rs → rs.brain.isSome) ∧
      (manager.procs = [] → ∀ id, id ∈ manager.running ↔
        ∃ s, manager.get id = some s ∧ s.state = .running) := by
  have initial : Present Manager.initial ∧ Settled config Manager.initial :=
    ⟨obeyed_initial.present, settled_initial⟩
  have settled : Present manager ∧ Settled config manager :=
    @Machine.Reaches.invariant _ _ _ _ (fun manager => Present manager ∧ Settled config manager)
      initial (fun _ _ _ both orderly taken =>
        ⟨both.1.step taken, both.2.step both.1 orderly taken⟩) _ reached
  refine ⟨settled.2.few, settled.2.brains, fun idle id => ⟨settled.2.sound id, fun persisted => ?_⟩⟩
  refine (settled.2.complete id persisted).resolve_right ?_
  rintro ⟨proc, inside, _⟩
  rw [idle] at inside
  contradiction

/-! ## Starts and stops -/

/-- A sadhana is created and started. -/
theorem running_agrees_started : ∃ manager : Manager,
    (machine .standard).run Manager.initial
        [oneSadhana, .call 1 .start, .proceed 0 1 true, .proceed 0 1 true, .proceed 0 1 true,
          .proceed 0 1 true] = some manager ∧
      manager.procs = [] ∧ (manager.get 1).map (·.state) = some .running ∧
      manager.running.keys.length ≤ SadhanaConfig.standard.maxConcurrent ∧
      (∀ id rs, manager.running.lookup id = some rs → rs.brain.isSome) ∧
      (manager.procs = [] → ∀ id, id ∈ manager.running ↔
        ∃ s, manager.get id = some s ∧ s.state = .running) := by
  have empty : (machine .standard).Reaches (Orderly .standard) Manager.initial := .initial
  have created := empty.step oneSadhana trivial rfl
  have called := created.step (Action.call 1 .start) trivial rfl
  have steps : ∀ (manager : Manager) (proc : Proc), manager.procs[0]? = some proc →
      proc.orderly .standard manager true → Orderly .standard manager (.proceed 0 1 true) := by
    intro manager proc found orderly other same
    rw [found, Option.some.injEq] at same
    rw [← same]
    exact orderly
  have checked := called.step (Action.proceed 0 1 true) (steps _ _ rfl trivial) rfl
  have cleared := checked.step (Action.proceed 0 1 true) (steps _ _ rfl trivial) rfl
  have written := cleared.step (Action.proceed 0 1 true) (steps _ _ rfl trivial) rfl
  have inserted := written.step (Action.proceed 0 1 true)
    (steps _ _ rfl ⟨.inr (by decide), _, rfl, rfl⟩) rfl
  exact ⟨_, rfl, rfl, rfl, running_agrees inserted⟩

/-- A sadhana is started, and it is stopped before `start` has put it into the map. -/
def stoppedStart : List Action :=
  [oneSadhana, .call 1 .start, .proceed 0 1 true, .proceed 0 1 true, .proceed 0 1 true,
    .call 1 (.stop false "no longer needed"), .proceed 1 2 true, .proceed 1 2 true,
    .proceed 1 2 true, .proceed 0 3 true]

/-- Two sadhanas are started when there is room for one: both look before either is in the map. -/
def startedTogether : List Action :=
  [oneSadhana, .create 2 "b" "" "" 0 "brahman" .null 0 0, .call 1 .start, .call 2 .start,
    .proceed 0 1 true, .proceed 0 1 true, .proceed 1 1 true, .proceed 1 1 true, .proceed 0 2 true,
    .proceed 0 2 true, .proceed 0 3 true, .proceed 0 3 true]

/-- The first one is in the map, and the store has it as failed; the others are too many. -/
theorem running_agrees_refuted :
    (∃ manager : Manager, (machine .standard).Reachable manager ∧ manager.procs.length = 0 ∧
      manager.tick.isNone ∧ 1 ∈ manager.running ∧
      (manager.get 1).map (·.state) = some .failed) ∧
    ∃ manager : Manager, (machine { SadhanaConfig.standard with maxConcurrent := 1 }).Reachable
      manager ∧ manager.procs.length = 0 ∧ manager.running.keys.length = 2 :=
  ⟨⟨_, .of_run stoppedStart .initial rfl, rfl, rfl, by decide, rfl⟩,
    ⟨_, .of_run startedTogether .initial rfl, rfl, rfl⟩⟩

end Chitta.Sadhana
