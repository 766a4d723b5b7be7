import Chitta.Sadhana.Manager
import Chitta.Slots

/-!
# Commands and records

A command and a cycle write back the record that they have read, with their own change. What others
have written in the meantime is lost. The record keeps what has been commanded as long as every copy
that is written back holds what the record holds.
-/
namespace Chitta.Sadhana

variable {config : SadhanaConfig} {manager next : Manager}

/-! ## What is written -/

/-- A stored record is read with its values. -/
@[simp] theorem stored_goal (s : SadhanaRecord) :
    (payloadToSadhana (sadhanaToPayload s)).goal = s.goal := rfl

@[simp] theorem stored_intervalSeconds (s : SadhanaRecord) :
    (payloadToSadhana (sadhanaToPayload s)).intervalSeconds = s.intervalSeconds := rfl

@[simp] theorem stored_brainModel (s : SadhanaRecord) :
    (payloadToSadhana (sadhanaToPayload s)).brainModel = s.brainModel := rfl

@[simp] theorem stored_state (s : SadhanaRecord) :
    (payloadToSadhana (sadhanaToPayload s)).state = s.state := rfl

/-- The copy that a step of a command writes back. -/
def Proc.write (proc : Proc) (ok : Bool) : Option SadhanaRecord :=
  match proc.command, proc.phase with
  | .start, .cleared s => if ok then some s else none
  | .start, _ => none
  | _, .loaded s => if ok then some s else none
  | _, _ => none

/-- A step of a command writes back its copy with its change, or nothing. -/
theorem proceed_tasks (index : Nat) (proc : Proc) (now : Int) (ok : Bool) :
    (manager.proceed config index proc now ok).tasks =
      match proc.write ok with
      | some s => manager.tasks.insert proc.id (sadhanaToPayload (proc.command.edit now s))
      | none => manager.tasks := by
  obtain ⟨id, command, phase⟩ := proc
  cases command with
  | start =>
    simp only [Manager.proceed, Manager.start, Proc.write]
    cases phase with
    | called =>
      dsimp only
      split
      · rfl
      · split <;> rfl
    | checked s =>
      dsimp only
      split <;> rfl
    | cleared s => cases ok <;> rfl
    | _ => rfl
  | pause =>
    simp only [Manager.proceed, Manager.pause, Manager.halt, Proc.write]
    cases phase with
    | called =>
      dsimp only
      split <;> rfl
    | erased =>
      dsimp only
      split <;> rfl
    | loaded s => cases ok <;> rfl
    | _ => rfl
  | stop success reason =>
    simp only [Manager.proceed, Manager.stop, Manager.halt, Proc.write]
    cases phase with
    | erased =>
      dsimp only
      split <;> rfl
    | loaded s => cases ok <;> rfl
    | _ => rfl
  | checkpoint status summary =>
    simp only [Manager.proceed, Manager.checkpoint, Proc.write]
    cases phase with
    | called =>
      dsimp only
      split
      · rfl
      · split
        · rfl
        · split <;> rfl
    | loaded s => cases ok <;> rfl
    | _ => rfl
  | setModel model =>
    simp only [Manager.proceed, Manager.set, Proc.write]
    cases phase with
    | called =>
      dsimp only
      split <;> rfl
    | loaded s => cases ok <;> rfl
    | written s =>
      simp only [Manager.setBrainModel]
      split <;> rfl
    | _ => rfl
  | setInterval _ | setMaxTurns _ | setGoal _ =>
    simp only [Manager.proceed, Manager.set, Proc.write]
    cases phase with
    | called =>
      dsimp only
      split <;> rfl
    | loaded s => cases ok <;> rfl
    | _ => rfl

/-! ## What a step does to the map -/

/-- Erasing what is not there changes nothing. -/
theorem erase_absent {id : Int} (absent : manager.running.lookup id = none) :
    manager.running.erase id = manager.running :=
  AList.ext (List.kerase_of_notMem_keys (AList.lookup_eq_none.mp absent))

/-- A step of a command puts its sadhana into the map, takes it out, changes its agent, or leaves
the map. -/
theorem proceed_running (index : Nat) (proc : Proc) (now : Int) (ok : Bool) :
    (manager.proceed config index proc now ok).running =
      match proc.command, proc.phase with
      | .start, .written s => (manager.insertRunning proc.id s now).running
      | .pause, .called => manager.running.erase proc.id
      | .stop _ _, .called => manager.running.erase proc.id
      | .setModel model, .written _ => (manager.setBrainModel proc.id model).running
      | _, _ => manager.running := by
  obtain ⟨id, command, phase⟩ := proc
  cases command with
  | pause =>
    cases phase with
    | called =>
      simp only [Manager.proceed, Manager.pause]
      split
      · rename_i absent
        exact (erase_absent absent).symm
      · rfl
    | erased =>
      simp only [Manager.proceed, Manager.pause, Manager.halt]
      split <;> rfl
    | loaded s => cases ok <;> rfl
    | _ => rfl
  | stop success reason =>
    cases phase with
    | erased =>
      simp only [Manager.proceed, Manager.stop, Manager.halt]
      split <;> rfl
    | loaded s => cases ok <;> rfl
    | _ => rfl
  | start =>
    cases phase with
    | called =>
      simp only [Manager.proceed, Manager.start]
      split
      · rfl
      · split <;> rfl
    | checked s =>
      simp only [Manager.proceed, Manager.start]
      split <;> rfl
    | cleared s => cases ok <;> rfl
    | _ => rfl
  | checkpoint status summary =>
    cases phase with
    | called =>
      simp only [Manager.proceed, Manager.checkpoint]
      split
      · rfl
      · split
        · rfl
        · split <;> rfl
    | loaded s => cases ok <;> rfl
    | _ => rfl
  | setModel model =>
    cases phase with
    | called =>
      simp only [Manager.proceed, Manager.set]
      split <;> rfl
    | loaded s => cases ok <;> rfl
    | _ => rfl
  | setInterval _ | setMaxTurns _ | setGoal _ =>
    cases phase with
    | called =>
      simp only [Manager.proceed, Manager.set]
      split <;> rfl
    | loaded s => cases ok <;> rfl
    | _ => rfl

/-- Whether a step of a command frees the entry of its sadhana in the map or its agent. -/
def Proc.frees (proc : Proc) : Bool :=
  match proc.command, proc.phase with
  | .start, .written _ => true
  | .pause, .called => true
  | .stop _ _, .called => true
  | _, _ => false

/-- A step of a command leaves the thread of the daemon unless it frees the entry of its sadhana. -/
theorem proceed_tick (index : Nat) (proc : Proc) (now : Int) (ok : Bool) :
    (manager.proceed config index proc now ok).tick = manager.tick ∨ proc.frees = true ∧
      (manager.proceed config index proc now ok).tick = manager.tick.map (·.free proc.id) := by
  obtain ⟨id, command, phase⟩ := proc
  cases command with
  | start =>
    cases phase with
    | written s => exact .inr ⟨rfl, rfl⟩
    | _ =>
      left
      simp only [Manager.proceed, Manager.start] <;> (repeat' split) <;> cases ok <;> rfl
  | pause =>
    cases phase with
    | called =>
      simp only [Manager.proceed, Manager.pause]
      split
      · exact .inl rfl
      · exact .inr ⟨rfl, rfl⟩
    | _ =>
      left
      simp only [Manager.proceed, Manager.pause, Manager.halt] <;>
        (repeat' split) <;> cases ok <;> rfl
  | stop success reason =>
    cases phase with
    | called => exact .inr ⟨rfl, rfl⟩
    | _ =>
      left
      simp only [Manager.proceed, Manager.stop, Manager.halt] <;>
        (repeat' split) <;> cases ok <;> rfl
  | _ =>
    left
    cases phase <;>
      simp only [Manager.proceed, Manager.set, Manager.checkpoint, Manager.setBrainModel] <;>
      (repeat' split) <;> cases ok <;> rfl

/-! ## Copies -/

/-- The copy that a command holds. -/
def Phase.copy : Phase → Option SadhanaRecord
  | .checked s => some s
  | .cleared s => some s
  | .loaded s => some s
  | .written s => some s
  | _ => none

/-- A record that is read is there. -/
theorem mem_of_get {id : Int} {s : SadhanaRecord} (found : manager.get id = some s) :
    id ∈ manager.tasks := by
  obtain ⟨p, there, _⟩ := Option.map_eq_some_iff.mp found
  exact AList.lookup_isSome.mp (there ▸ rfl)

/-- A step of a command changes no other command, and a copy is one of a record that is there. -/
theorem proceed_procs (index : Nat) (proc : Proc) (now : Int) (ok : Bool) :
    (manager.proceed config index proc now ok).procs = manager.procs ∨
      (manager.proceed config index proc now ok).procs = manager.procs.eraseIdx index ∨
      ∃ phase, (manager.proceed config index proc now ok).procs =
        manager.procs.set index { proc with phase } ∧
        (phase.copy.isSome → proc.phase.copy.isSome ∨ proc.id ∈ manager.tasks) := by
  obtain ⟨id, command, phase⟩ := proc
  cases command with
  | start =>
    simp only [Manager.proceed, Manager.start]
    cases phase with
    | called =>
      dsimp only
      split
      · exact .inr (.inl rfl)
      · rename_i found
        split
        · exact .inr (.inl rfl)
        · exact .inr (.inr ⟨_, rfl, fun _ => .inr (mem_of_get found)⟩)
    | checked s =>
      dsimp only
      split
      · exact .inr (.inl rfl)
      · exact .inr (.inr ⟨_, rfl, fun _ => .inl rfl⟩)
    | cleared s =>
      cases ok
      · exact .inr (.inl rfl)
      · exact .inr (.inr ⟨_, rfl, fun _ => .inl rfl⟩)
    | written s => exact .inr (.inl rfl)
    | _ => exact .inl rfl
  | pause =>
    simp only [Manager.proceed, Manager.pause, Manager.halt]
    cases phase with
    | called =>
      dsimp only
      split
      · exact .inr (.inl rfl)
      · exact .inr (.inr ⟨_, rfl, nofun⟩)
    | erased =>
      dsimp only
      split
      · rename_i found
        exact .inr (.inr ⟨_, rfl, fun _ => .inr (mem_of_get found)⟩)
      · exact .inr (.inr ⟨_, rfl, nofun⟩)
    | loaded s => cases ok <;> exact .inr (.inl rfl)
    | missing => exact .inr (.inl rfl)
    | _ => exact .inl rfl
  | stop success reason =>
    simp only [Manager.proceed, Manager.stop, Manager.halt]
    cases phase with
    | called => exact .inr (.inr ⟨_, rfl, nofun⟩)
    | erased =>
      dsimp only
      split
      · rename_i found
        exact .inr (.inr ⟨_, rfl, fun _ => .inr (mem_of_get found)⟩)
      · exact .inr (.inr ⟨_, rfl, nofun⟩)
    | loaded s => cases ok <;> exact .inr (.inl rfl)
    | missing => exact .inr (.inl rfl)
    | _ => exact .inl rfl
  | checkpoint status summary =>
    simp only [Manager.proceed, Manager.checkpoint]
    cases phase with
    | called =>
      dsimp only
      split
      · exact .inr (.inl rfl)
      · split
        · exact .inr (.inl rfl)
        · split
          · exact .inr (.inl rfl)
          · rename_i found
            exact .inr (.inr ⟨_, rfl, fun _ => .inr (mem_of_get found)⟩)
    | loaded s => cases ok <;> exact .inr (.inl rfl)
    | _ => exact .inl rfl
  | setModel model =>
    simp only [Manager.proceed, Manager.set]
    cases phase with
    | called =>
      dsimp only
      split
      · exact .inr (.inl rfl)
      · rename_i found
        exact .inr (.inr ⟨_, rfl, fun _ => .inr (mem_of_get found)⟩)
    | loaded s =>
      cases ok
      · exact .inr (.inl rfl)
      · exact .inr (.inr ⟨_, rfl, fun _ => .inl rfl⟩)
    | written s =>
      simp only [Manager.setBrainModel]
      split <;> exact .inr (.inl rfl)
    | _ => exact .inl rfl
  | setInterval _ | setMaxTurns _ | setGoal _ =>
    simp only [Manager.proceed, Manager.set]
    cases phase with
    | called =>
      dsimp only
      split
      · exact .inr (.inl rfl)
      · rename_i found
        exact .inr (.inr ⟨_, rfl, fun _ => .inr (mem_of_get found)⟩)
    | loaded s => cases ok <;> exact .inr (.inl rfl)
    | _ => exact .inl rfl

/-- The constructor writes no record: there is always an agent. -/
theorem restart_tasks (listed : List Int) (now : Int) :
    (manager.restart listed now).tasks = manager.tasks := by
  have all : ∀ (entries : List (Int × SadhanaRecord)) (manager : Manager),
      (entries.foldl (Manager.restore now) manager).tasks = manager.tasks := by
    intro entries
    induction entries with
    | nil => exact fun _ => rfl
    | cons entry rest ih =>
      intro manager
      rw [List.foldl_cons, ih, Manager.restore]
      split
      · rename_i absent
        have always := createBrain_isSome entry.2.brainProvider entry.2.brainModel
        rw [absent] at always
        contradiction
      · rfl
  exact all _ _

/-- The constructor begins no command and no cycle. -/
theorem restart_idle (listed : List Int) (now : Int) :
    (manager.restart listed now).procs = [] ∧ (manager.restart listed now).tick = none := by
  have all : ∀ (entries : List (Int × SadhanaRecord)) (manager : Manager),
      (entries.foldl (Manager.restore now) manager).procs = manager.procs ∧
        (entries.foldl (Manager.restore now) manager).tick = manager.tick := by
    intro entries
    induction entries with
    | nil => exact fun _ => ⟨rfl, rfl⟩
    | cons entry rest ih =>
      intro manager
      rw [List.foldl_cons]
      obtain ⟨procs, tick⟩ := ih (Manager.restore now manager entry)
      rw [procs, tick, Manager.restore]
      split <;> exact ⟨rfl, rfl⟩
  exact all _ _

/-- The sadhana whose cycle has a copy. -/
def holding : Option Tick → Option Int
  | some { toRun := id :: _, cycle := some _ } => some id
  | _ => none

/-- A cycle whose entry is freed keeps its copy. -/
theorem holding_free (tick : Option Tick) (id : Int) :
    holding (tick.map (·.free id)) = holding tick := by
  rcases tick with _ | ⟨_ | ⟨own, rest⟩, _ | ⟨s, phase⟩⟩ <;> try rfl
  cases phase <;> rfl

/-- Between two cycles there is no copy. -/
theorem holding_idle (toRun : List Int) : holding (some { toRun, cycle := none }) = none := by
  cases toRun <;> rfl

/-- The records that commands and cycles have copies of are there. -/
structure Present (manager : Manager) : Prop where
  /-- A command. -/
  procs : ∀ proc ∈ manager.procs, proc.phase.copy.isSome → proc.id ∈ manager.tasks
  /-- A cycle. -/
  cycle : ∀ id, holding manager.tick = some id → id ∈ manager.tasks

/-- A call has no copy. -/
theorem Present.call (present : Present manager) (id : Int) (command : Command) :
    Present (manager.call id command) where
  procs proc inside holds := by
    cases List.mem_append.mp inside with
    | inl before => exact present.procs proc before holds
    | inr last =>
      rw [List.mem_singleton.mp last] at holds
      contradiction
  cycle := present.cycle

/-- A change that keeps the records and the commands, and whose cycle is one of a record. -/
theorem Present.mono (present : Present manager)
    (tasks : ∀ id, id ∈ manager.tasks → id ∈ next.tasks)
    (procs : ∀ proc ∈ next.procs, proc ∈ manager.procs ∨ proc.phase.copy = none)
    (cycle : ∀ id, holding next.tick = some id → id ∈ manager.tasks) : Present next where
  procs proc inside holds := by
    cases procs proc inside with
    | inl before => exact tasks _ (present.procs proc before holds)
    | inr empty =>
      rw [empty] at holds
      contradiction
  cycle id own := tasks _ (cycle id own)

/-- A change that ends a cycle. -/
theorem Present.idle (present : Present manager) {toRun : List Int}
    (tasks : next.tasks = manager.tasks) (procs : next.procs = manager.procs)
    (tick : next.tick = some { toRun, cycle := none }) : Present next := by
  refine present.mono (fun _ inside => tasks ▸ inside) (fun _ inside => .inl (procs ▸ inside)) ?_
  rw [tick, holding_idle]
  exact fun _ same => absurd same (by simp)

/-- A change of the cycle of a record that is there. -/
theorem Present.cycling (present : Present manager) {id : Int} {rest : List Int}
    {cycle : SadhanaRecord × CyclePhase} (there : id ∈ manager.tasks)
    (tasks : next.tasks = manager.tasks) (procs : next.procs = manager.procs)
    (tick : next.tick = some { toRun := id :: rest, cycle := some cycle }) : Present next := by
  refine present.mono (fun _ inside => tasks ▸ inside) (fun _ inside => .inl (procs ▸ inside)) ?_
  rw [tick]
  exact fun _ same => Option.some.inj same ▸ there

/-- A step of a command. -/
theorem Present.proceed (present : Present manager) {index : Nat} {proc : Proc}
    (found : manager.procs[index]? = some proc) (now : Int) (ok : Bool) :
    Present (manager.proceed config index proc now ok) := by
  have grown : ∀ id, id ∈ manager.tasks →
      id ∈ (manager.proceed config index proc now ok).tasks := by
    intro id inside
    rw [proceed_tasks]
    split
    · exact AList.mem_insert _ |>.mpr (.inr inside)
    · exact inside
  refine ⟨fun other inside holds => grown _ ?_, fun id own => grown _ ?_⟩
  · rcases @proceed_procs config manager index proc now ok with same | erased | ⟨phase, moved, own⟩
    · rw [same] at inside
      exact present.procs other inside holds
    · rw [erased] at inside
      exact present.procs other (List.mem_of_mem_eraseIdx inside) holds
    · rw [moved] at inside
      cases List.mem_or_eq_of_mem_set inside with
      | inl before => exact present.procs other before holds
      | inr equal =>
        rw [equal] at holds ⊢
        exact (own holds).elim (present.procs proc (List.mem_of_getElem? found)) id
  · rcases @proceed_tick config manager index proc now ok with same | ⟨_, freed⟩
    · rw [same] at own
      exact present.cycle id own
    · rw [freed, holding_free] at own
      exact present.cycle id own

/-- The end of a cycle writes back its copy and counts its failure, and it may call a command. -/
theorem endCycle_cases (id : Int) (rest : List Int) (s : SadhanaRecord) (rs : RunningState)
    (result : CycleResult) (now : Int) (ok : Bool) :
    (manager.endCycle config id rest s rs result now ok).tasks =
        (manager.taskUpdatePayload id (result.edit now s) ok).tasks ∧
      (manager.endCycle config id rest s rs result now ok).running =
        manager.running.insert id (rs.count (result.failed || result.status = "error")) ∧
      (∃ calls : List Command, (manager.endCycle config id rest s rs result now ok).procs =
        manager.procs ++ calls.map fun command => { id, command, phase := .called }) ∧
      ∃ status, (manager.endCycle config id rest s rs result now ok).tick =
        some { toRun := id :: rest, cycle := some (result.edit now s, .ended status) } := by
  have same : (manager.taskUpdatePayload id (result.edit now s) ok).running = manager.running ∧
      (manager.taskUpdatePayload id (result.edit now s) ok).procs = manager.procs := by
    cases ok <;> exact ⟨rfl, rfl⟩
  unfold Manager.endCycle
  dsimp only [Manager.call, Manager.countFailures]
  rw [same.1, same.2]
  split
  · exact ⟨rfl, rfl, ⟨[.pause], rfl⟩, _, rfl⟩
  · split
    · exact ⟨rfl, rfl, ⟨[.stop true _], rfl⟩, _, rfl⟩
    · split
      · exact ⟨rfl, rfl, ⟨[.pause], rfl⟩, _, rfl⟩
      · exact ⟨rfl, rfl, ⟨[], (List.append_nil _).symm⟩, _, rfl⟩

/-- A step keeps the records that commands and cycles have copies of. -/
theorem Present.step (present : Present manager) {action : Action}
    (taken : (machine config).step manager action = some next) : Present next := by
  cases step_cases taken with
  | create _ _ _ _ _ _ _ _ _ =>
    exact present.mono (fun _ inside => AList.mem_insert _ |>.mpr (.inr inside))
      (fun _ inside => .inl inside) present.cycle
  | call id command => exact present.call id command
  | proceed now ok found => exact present.proceed found now ok
  | tick _ _ => exact present.idle rfl rfl rfl
  | gone _ _ _ => exact present.idle rfl rfl rfl
  | @overdue id _ _ _ _ _ _ => exact (present.call id .pause).idle rfl rfl rfl
  | load _ _ found _ _ => exact present.cycling (mem_of_get found) rfl rfl rfl
  | finish _ _ =>
    exact present.mono (fun _ inside => inside) (fun _ inside => .inl inside)
      fun _ same => absurd same (by simp [holding])
  | @halted id _ _ running _ =>
    exact present.cycling (present.cycle id (by rw [running]; rfl)) rfl rfl rfl
  | @think id _ _ _ running _ =>
    exact present.cycling (present.cycle id (by rw [running]; rfl)) rfl rfl rfl
  | @endCycle id rest s rs result now ok running _ =>
    obtain ⟨tasks, _, ⟨calls, procs⟩, status, tick⟩ :=
      @endCycle_cases config manager id rest s rs result now ok
    refine present.mono (fun other inside => ?_) (fun proc inside => ?_) ?_
    · rw [tasks, Manager.taskUpdatePayload]
      split
      · exact AList.mem_insert _ |>.mpr (.inr inside)
      · exact inside
    · rw [procs] at inside
      cases List.mem_append.mp inside with
      | inl before => exact .inl before
      | inr last =>
        obtain ⟨_, _, rfl⟩ := List.mem_map.mp last
        exact .inr rfl
    · intro other same
      rw [tick] at same
      rw [← Option.some.inj same]
      exact present.cycle id (by rw [running]; rfl)
  | next _ _ =>
    rw [Manager.scheduleNext]
    split
    · exact present.idle rfl rfl rfl
    · exact present.idle rfl rfl rfl
  | @restart listed now _ =>
    obtain ⟨procs, tick⟩ := @restart_idle manager listed now
    refine ⟨fun proc inside => ?_, fun id same => ?_⟩
    · rw [procs] at inside
      contradiction
    · rw [tick] at same
      contradiction

/-! ## What has been commanded -/

/-- What the last commands for a sadhana have set. -/
structure Orders where
  /-- The goal. -/
  goal : Option String
  /-- The interval. -/
  intervalSeconds : Option Int
  /-- The model. -/
  brainModel : Option String
  /-- The state in which it was paused or stopped, unless it was started since. -/
  halt : Option SadhanaState

/-- Nothing has been commanded. -/
def Orders.none : Orders :=
  { goal := .none, intervalSeconds := .none, brainModel := .none, halt := .none }

/-- A command sets what it is about. -/
def Command.order (command : Command) (orders : Orders) : Orders :=
  match command with
  | .start => { orders with halt := none }
  | .pause => { orders with halt := some .paused }
  | .stop success _ => { orders with halt := some (if success then .done else .failed) }
  | .setModel model => { orders with brainModel := some model }
  | .setInterval intervalSeconds => { orders with intervalSeconds := some intervalSeconds }
  | .setGoal goal => { orders with goal := some goal }
  | .setMaxTurns _ => orders
  | .checkpoint _ _ => orders

/-- Whether a command pauses or stops. -/
def Command.halts : Command → Bool
  | .pause => true
  | .stop _ _ => true
  | _ => false

/-- Whether a step of a command is the one by which it succeeds: `pause` and `stop` succeed even
when the store does not take the record. -/
def Proc.obeyed (proc : Proc) (ok : Bool) : Bool :=
  match proc.phase with
  | .loaded _ => proc.command.halts || (proc.write ok).isSome
  | _ => (proc.write ok).isSome

/-- What has been commanded after an action. -/
def ordered (manager : Manager) (orders : Int → Orders) : Action → Int → Orders
  | .create id _ _ _ _ _ _ _ _ => Function.update orders id .none
  | .proceed index _ ok =>
    match manager.procs[index]? with
    | some proc =>
      if proc.obeyed ok then
        Function.update orders proc.id (proc.command.order (orders proc.id))
      else orders
    | none => orders
  | _ => orders

/-- A manager with what has been commanded. -/
structure Commanded where
  /-- The manager. -/
  manager : Manager
  /-- What the last commands have set. -/
  orders : Int → Orders

/-- The steps of a manager, with what has been commanded. -/
def commandMachine (config : SadhanaConfig) : Machine Commanded Action where
  initial := { manager := .initial, orders := fun _ => .none }
  step commanded action :=
    match (machine config).step commanded.manager action with
    | some next =>
      some { manager := next, orders := ordered commanded.manager commanded.orders action }
    | none => none

/-- A record has what has been commanded, and it does not run when it was paused or stopped. -/
structure Reflects (s : SadhanaRecord) (orders : Orders) : Prop where
  /-- The goal. -/
  goal : ∀ goal, orders.goal = some goal → s.goal = goal
  /-- The interval. -/
  intervalSeconds : ∀ interval, orders.intervalSeconds = some interval →
    s.intervalSeconds = interval
  /-- The model. -/
  brainModel : ∀ model, orders.brainModel = some model → s.brainModel = model
  /-- The state. -/
  halt : ∀ state, orders.halt = some state → s.state = state ∧ state ≠ .running

/-- A copy with a change has the goal, the interval, the model and the state that the record would
have with the change; one that runs may stop running. -/
structure AsRead (edit : SadhanaRecord → SadhanaRecord) (copy record : SadhanaRecord) : Prop where
  /-- The goal. -/
  goal : (edit copy).goal = (edit record).goal
  /-- The interval. -/
  intervalSeconds : (edit copy).intervalSeconds = (edit record).intervalSeconds
  /-- The model. -/
  brainModel : (edit copy).brainModel = (edit record).brainModel
  /-- The state. -/
  state : (edit record).state = .running ∨ (edit copy).state = (edit record).state

/-- A command writes a record that reflects it. -/
theorem Reflects.edit {record copy : SadhanaRecord} {orders : Orders}
    (reflects : Reflects record orders)
    {command : Command} {now : Int} (asRead : AsRead (command.edit now) copy record) :
    Reflects (payloadToSadhana (sadhanaToPayload (command.edit now copy)))
      (command.order orders) := by
  obtain ⟨goal, interval, model, state⟩ := asRead
  -- What has been commanded holds of the record with the change, and the copy agrees with it.
  have own : Reflects (command.edit now record) (command.order orders) := by
    cases command with
    | start => exact ⟨reflects.goal, reflects.intervalSeconds, reflects.brainModel, nofun⟩
    | pause =>
      refine ⟨reflects.goal, reflects.intervalSeconds, reflects.brainModel, fun state same => ?_⟩
      rw [← Option.some.inj same]
      exact ⟨rfl, nofun⟩
    | stop success reason =>
      refine ⟨reflects.goal, reflects.intervalSeconds, reflects.brainModel, fun state same => ?_⟩
      rw [← Option.some.inj same]
      cases success <;> exact ⟨rfl, nofun⟩
    | setModel model =>
      exact ⟨reflects.goal, reflects.intervalSeconds, fun _ same => Option.some.inj same,
        reflects.halt⟩
    | setInterval interval =>
      exact ⟨reflects.goal, fun _ same => Option.some.inj same, reflects.brainModel,
        reflects.halt⟩
    | setGoal goal =>
      exact ⟨fun _ same => Option.some.inj same, reflects.intervalSeconds, reflects.brainModel,
        reflects.halt⟩
    | setMaxTurns turns =>
      exact ⟨reflects.goal, reflects.intervalSeconds, reflects.brainModel, reflects.halt⟩
    | checkpoint status summary =>
      exact ⟨reflects.goal, reflects.intervalSeconds, reflects.brainModel, reflects.halt⟩
  refine ⟨fun _ same => ?_, fun _ same => ?_, fun _ same => ?_, fun halted same => ?_⟩
  · rw [stored_goal, goal]
    exact own.goal _ same
  · rw [stored_intervalSeconds, interval]
    exact own.intervalSeconds _ same
  · rw [stored_brainModel, model]
    exact own.brainModel _ same
  · obtain ⟨equal, apart⟩ := own.halt halted same
    rw [stored_state]
    refine ⟨?_, apart⟩
    cases state with
    | inl runs => exact absurd (equal.symm.trans runs) apart
    | inr agrees => exact agrees.trans equal

/-- A cycle writes a record that still reflects what has been commanded. -/
theorem Reflects.cycle {record copy : SadhanaRecord} {orders : Orders}
    (reflects : Reflects record orders)
    {result : CycleResult} {now : Int} (asRead : AsRead (result.edit now) copy record) :
    Reflects (payloadToSadhana (sadhanaToPayload (result.edit now copy))) orders := by
  obtain ⟨goal, interval, model, state⟩ := asRead
  refine ⟨fun _ same => ?_, fun _ same => ?_, fun _ same => ?_, fun halted same => ?_⟩
  · rw [stored_goal, goal]
    exact reflects.goal _ same
  · rw [stored_intervalSeconds, interval]
    exact reflects.intervalSeconds _ same
  · rw [stored_brainModel, model]
    exact reflects.brainModel _ same
  · obtain ⟨equal, apart⟩ := reflects.halt halted same
    rw [stored_state]
    refine ⟨?_, apart⟩
    cases state with
    | inl runs => exact absurd (equal.symm.trans runs) apart
    | inr agrees => exact agrees.trans equal

/-! ## Runs -/

/-- The sadhana whose agent thinks: its cycle goes on to use the entry and the agent. -/
def thinker : Option Tick → Option Int
  | some { toRun := id :: _, cycle := some (_, .thinking) } => some id
  | _ => none

/-- No step frees an entry that a cycle uses, the store takes what `pause` and `stop` write, and
every copy that is written back is as if it had been read just now. A cycle that pauses its own
sadhana after too many failures logs their number from the entry that it has freed. -/
def Current (config : SadhanaConfig) (manager : Manager) : Action → Prop
  | .proceed index now ok => ∀ proc, manager.procs[index]? = some proc →
    (proc.frees = true → thinker manager.tick ≠ some proc.id) ∧
      (proc.command.halts = true → ∀ s, proc.phase = .loaded s → ok = true) ∧
      ∀ copy record, proc.write ok = some copy → manager.get proc.id = some record →
        AsRead (proc.command.edit now) copy record
  | .endCycle result now ok => ∀ id rest copy,
    manager.tick = some { toRun := id :: rest, cycle := some (copy, .thinking) } →
      (∀ rs, manager.running.lookup id = some rs → (result.failed || result.status = "error") →
        rs.consecutiveFailures + 1 < config.maxConsecutiveFailures) ∧
      ∀ record, ok = true → manager.get id = some record → AsRead (result.edit now) copy record
  | _ => True

/-- A command writes back the copy that it has. -/
theorem copy_of_write {proc : Proc} {ok : Bool} {s : SadhanaRecord}
    (written : proc.write ok = some s) :
    proc.phase.copy = some s := by
  obtain ⟨id, command, phase⟩ := proc
  cases command <;> cases phase <;> cases ok <;> simp_all [Proc.write, Phase.copy]

/-- When the store takes what `pause` and `stop` write, a command succeeds by writing. -/
theorem obeyed_eq {proc : Proc} {ok : Bool}
    (taken : proc.command.halts = true → ∀ s, proc.phase = .loaded s → ok = true) :
    proc.obeyed ok = (proc.write ok).isSome := by
  obtain ⟨id, command, phase⟩ := proc
  cases phase with
  | loaded s =>
    cases command with
    | pause =>
      rw [taken rfl s rfl]
      rfl
    | stop success reason =>
      rw [taken rfl s rfl]
      rfl
    | _ => rfl
  | _ => rfl

/-- A written record is read. -/
theorem get_insert (id : Int) (p : SadhanaRecord) (tasks : next.tasks = manager.tasks.insert id p) :
    next.get id = some (payloadToSadhana p) := by
  rw [Manager.get, tasks, AList.lookup_insert]
  rfl

/-- The other records are as before. -/
theorem get_insert_ne {id other : Int} (apart : other ≠ id) (p : SadhanaRecord)
    (tasks : next.tasks = manager.tasks.insert id p) : next.get other = manager.get other := by
  rw [Manager.get, Manager.get, tasks, AList.lookup_insert_ne apart]

/-- A record that is there is read. -/
theorem get_of_mem {id : Int} (there : id ∈ manager.tasks) : ∃ s, manager.get id = some s := by
  obtain ⟨p, found⟩ := Option.isSome_iff_exists.mp (AList.lookup_isSome.mpr there)
  exact ⟨payloadToSadhana p, by rw [Manager.get, found]; rfl⟩

/-- Every record has what has been commanded. -/
structure Obeyed (manager : Manager) (orders : Int → Orders) : Prop where
  /-- Copies are of records that are there. -/
  present : Present manager
  /-- A record has what has been commanded. -/
  reflects : ∀ id s, manager.get id = some s → Reflects s (orders id)

variable {orders : Int → Orders}

/-- A record that reflects its orders is written, and the others stay. -/
theorem Obeyed.insert (obeyed : Obeyed manager orders) (present : Present next) {id : Int}
    {p : SadhanaRecord} (tasks : next.tasks = manager.tasks.insert id p) {own : Orders}
    (reflects : Reflects (payloadToSadhana p) own) :
    Obeyed next (Function.update orders id own) where
  present := present
  reflects other s found := by
    by_cases same : other = id
    · rw [same, get_insert id p tasks, Option.some.injEq] at found
      rw [same, Function.update_self, ← found]
      exact reflects
    · rw [get_insert_ne same p tasks] at found
      rw [Function.update_of_ne same]
      exact obeyed.reflects other s found

/-- The records stay. -/
theorem Obeyed.same (obeyed : Obeyed manager orders) (present : Present next)
    (tasks : next.tasks = manager.tasks) : Obeyed next orders where
  present := present
  reflects id s found := by
    rw [Manager.get, tasks] at found
    exact obeyed.reflects id s found

/-- A step of a command whose copy is as if it had been read just now. -/
theorem Obeyed.proceed (obeyed : Obeyed manager orders) {index : Nat} {proc : Proc}
    (found : manager.procs[index]? = some proc) {now : Int} {ok : Bool}
    (current : Current config manager (.proceed index now ok)) :
    Obeyed (manager.proceed config index proc now ok)
      (ordered manager orders (.proceed index now ok)) := by
  obtain ⟨_, taken, asRead⟩ := current proc found
  have present : Present (manager.proceed config index proc now ok) :=
    obeyed.present.proceed found now ok
  have tasks := @proceed_tasks config manager index proc now ok
  simp only [ordered, found]
  cases written : proc.write ok with
  | none =>
    rw [obeyed_eq taken, written]
    rw [written] at tasks
    exact obeyed.same present tasks
  | some copy =>
    rw [obeyed_eq taken, written]
    rw [written] at tasks
    have holds : proc.phase.copy.isSome := by rw [copy_of_write written]; rfl
    obtain ⟨record, there⟩ :=
      get_of_mem (obeyed.present.procs proc (List.mem_of_getElem? found) holds)
    exact obeyed.insert present tasks
      ((obeyed.reflects _ record there).edit (asRead copy record written there))

/-- The end of a cycle whose copy is as if it had been read just now. -/
theorem Obeyed.endCycle (obeyed : Obeyed manager orders) {id : Int} {rest : List Int}
    {copy : SadhanaRecord} {rs : RunningState}
    (running : manager.tick = some { toRun := id :: rest, cycle := some (copy, .thinking) })
    {result : CycleResult} {now : Int} {ok : Bool}
    (current : Current config manager (.endCycle result now ok))
    (present : Present (manager.endCycle config id rest copy rs result now ok)) :
    Obeyed (manager.endCycle config id rest copy rs result now ok) orders := by
  have tasks := (@endCycle_cases config manager id rest copy rs result now ok).1
  cases ok with
  | false => exact obeyed.same present tasks
  | true =>
    obtain ⟨record, there⟩ := get_of_mem (obeyed.present.cycle id (by rw [running]; rfl))
    have reflects := (obeyed.reflects id record there).cycle
      ((current id rest copy running).2 record rfl there)
    have written := obeyed.insert present tasks reflects
    rwa [Function.update_eq_self] at written

/-- A step keeps what has been commanded. -/
theorem Obeyed.step (obeyed : Obeyed manager orders) {action : Action}
    (current : Current config manager action)
    (taken : (machine config).step manager action = some next) :
    Obeyed next (ordered manager orders action) := by
  have present := obeyed.present.step taken
  cases step_cases taken with
  | create _ _ _ _ _ _ _ _ _ => exact obeyed.insert present rfl ⟨nofun, nofun, nofun, nofun⟩
  | call _ _ => exact obeyed.same present rfl
  | proceed _ _ found => exact obeyed.proceed found current
  | tick _ _ => exact obeyed.same present rfl
  | gone _ _ _ => exact obeyed.same present rfl
  | overdue _ _ _ _ => exact obeyed.same present rfl
  | load _ _ _ _ _ => exact obeyed.same present rfl
  | finish _ _ => exact obeyed.same present rfl
  | halted _ _ => exact obeyed.same present rfl
  | think _ _ => exact obeyed.same present rfl
  | endCycle _ _ _ running _ => exact obeyed.endCycle running current present
  | @next id rest s status now _ =>
    have tasks : (manager.scheduleNext id rest s status now).tasks = manager.tasks := by
      unfold Manager.scheduleNext
      split <;> split <;> rfl
    exact obeyed.same present tasks
  | @restart listed now _ => exact obeyed.same present (restart_tasks listed now)

/-- Nothing has been commanded when nothing has been created. -/
theorem obeyed_initial : Obeyed .initial fun _ => .none where
  present := {
    procs := fun _ inside => absurd inside List.not_mem_nil
    cycle := fun id same => by
      have idle : holding Manager.initial.tick = none := rfl
      rw [idle] at same
      contradiction }
  reflects id s found := by
    have absent : Manager.initial.get id = none := rfl
    rw [absent] at found
    contradiction

/-- A step with commands is one of the manager. -/
theorem command_step {before after : Commanded} {action : Action}
    (taken : (commandMachine config).step before action = some after) :
    ∃ next, (machine config).step before.manager action = some next ∧
      { manager := next, orders := ordered before.manager before.orders action } = after := by
  simp only [commandMachine] at taken
  split at taken
  · rename_i next stepped
    exact ⟨next, stepped, Option.some.inj taken⟩
  · contradiction

/-! ## The entry that a cycle uses -/

/-- Between two cycles no agent thinks. -/
theorem thinker_idle (toRun : List Int) : thinker (some { toRun, cycle := none }) = none := by
  cases toRun <;> rfl

/-- A cycle does not use the entries of the other sadhanas. -/
theorem free_elsewhere {tick : Option Tick} {id : Int} (apart : thinker tick ≠ some id) :
    tick.map (·.free id) = tick := by
  rcases tick with _ | ⟨_ | ⟨own, rest⟩, _ | ⟨s, phase⟩⟩ <;> try rfl
  cases phase with
  | thinking =>
    have other : own ≠ id := fun same => apart (congrArg some same)
    simp only [Option.map_some, Tick.free, if_neg other]
  | _ => rfl

/-- A cycle whose agent thinks has its entry, and none goes on with an entry that has been freed. -/
structure Held (manager : Manager) : Prop where
  /-- The entry. -/
  entry : ∀ id, thinker manager.tick = some id → id ∈ manager.running
  /-- No entry has been freed. -/
  whole : ∀ toRun s, manager.tick ≠ some { toRun, cycle := some (s, .dangling) }

/-- A change that leaves the cycle and its entry. -/
theorem Held.same (held : Held manager) (tick : next.tick = manager.tick)
    (kept : ∀ id, thinker manager.tick = some id → id ∈ manager.running → id ∈ next.running) :
    Held next where
  entry id own := by
    rw [tick] at own
    exact kept id own (held.entry id own)
  whole toRun s := tick ▸ held.whole toRun s

/-- While no agent thinks no entry is used. -/
theorem held_calm {tick : Option Tick} (same : next.tick = tick) (calm : thinker tick = none)
    (whole : ∀ toRun s, tick ≠ some { toRun, cycle := some (s, .dangling) }) : Held next where
  entry id own := by
    rw [same, calm] at own
    contradiction
  whole toRun s := same ▸ whole toRun s

/-- Between two cycles no entry is used. -/
theorem held_idle {toRun : List Int} (tick : next.tick = some { toRun, cycle := none }) :
    Held next :=
  held_calm tick (thinker_idle toRun) fun _ _ same => by cases same

/-- A step of a command that frees no entry that a cycle uses. -/
theorem Held.proceed (held : Held manager) {index : Nat} {proc : Proc} (now : Int) (ok : Bool)
    (spared : proc.frees = true → thinker manager.tick ≠ some proc.id) :
    Held (manager.proceed config index proc now ok) := by
  refine held.same ?_ fun id own inside => ?_
  · rcases @proceed_tick config manager index proc now ok with same | ⟨frees, freed⟩
    · exact same
    · rw [freed, free_elsewhere (spared frees)]
  · have apart : proc.frees = true → id ≠ proc.id := fun frees same =>
      spared frees (same ▸ own)
    rw [proceed_running]
    split
    · exact AList.mem_insert _ |>.mpr (.inr inside)
    · rename_i paused called
      exact AList.mem_erase.mpr ⟨apart (by rw [Proc.frees, paused, called]), inside⟩
    · rename_i stopped called
      exact AList.mem_erase.mpr ⟨apart (by rw [Proc.frees, stopped, called]), inside⟩
    · unfold Manager.setBrainModel
      split
      · exact AList.mem_insert _ |>.mpr (.inr inside)
      · exact inside
    · exact inside

/-- A step that frees no entry that a cycle uses. -/
theorem Held.step (held : Held manager) {action : Action} (current : Current config manager action)
    (taken : (machine config).step manager action = some next) : Held next := by
  cases step_cases taken with
  | create _ _ _ _ _ _ _ _ _ => exact held.same rfl fun _ _ inside => inside
  | call _ _ => exact held.same rfl fun _ _ inside => inside
  | proceed now ok found => exact held.proceed now ok (current _ found).1
  | tick _ _ => exact held_idle rfl
  | gone _ _ _ => exact held_idle rfl
  | overdue _ _ _ _ => exact held_idle rfl
  | load _ _ _ _ _ => exact held_calm rfl rfl fun _ _ same => by cases same
  | finish _ _ => exact held_calm rfl rfl fun _ _ same => by cases same
  | halted _ _ => exact held_calm rfl rfl fun _ _ same => by cases same
  | @think id _ _ _ _ runs =>
    refine ⟨fun other own => ?_, fun _ _ same => by cases same⟩
    obtain ⟨rs, there, _⟩ := Option.bind_eq_some_iff.mp runs
    rw [← Option.some.inj own]
    exact AList.lookup_isSome.mp (there ▸ rfl)
  | @endCycle id rest s rs result now ok _ _ =>
    obtain ⟨_, _, _, status, tick⟩ := @endCycle_cases config manager id rest s rs result now ok
    exact held_calm tick rfl fun _ _ same => by cases same
  | next _ _ =>
    rw [Manager.scheduleNext]
    split <;> exact held_idle rfl
  | @restart listed now _ =>
    exact held_calm (@restart_idle manager listed now).2 rfl fun _ _ same => by cases same

/-- No cycle runs when nothing has been created. -/
theorem held_initial : Held .initial := held_calm rfl rfl fun _ _ same => by cases same

/-- In such a run a cycle never goes on with an entry that has been freed: when its agent returns,
it has a step. -/
theorem cycle_held {commanded : Commanded}
    (reached : (commandMachine config).Reaches
      (fun commanded action => Current config commanded.manager action) commanded) :
    (∀ toRun s, commanded.manager.tick ≠ some { toRun, cycle := some (s, .dangling) }) ∧
      ∀ id rest s result now ok,
        commanded.manager.tick = some { toRun := id :: rest, cycle := some (s, .thinking) } →
          ((machine config).step commanded.manager (.endCycle result now ok)).isSome := by
  have held : Held commanded.manager := by
    refine @Machine.Reaches.invariant _ _ _ _ (fun commanded => Held commanded.manager)
      held_initial ?_ _ reached
    intro before action after held current taken
    obtain ⟨next, stepped, rfl⟩ := command_step taken
    exact held.step current stepped
  refine ⟨held.whole, fun id rest s result now ok thinking => ?_⟩
  have inside := held.entry id (by rw [thinking]; rfl)
  simp only [machine, thinking, Option.isSome_map, AList.lookup_isSome.mpr inside]

/-! ## What has been commanded is kept -/

/-- As long as no outdated copy is written back and no entry is freed while a cycle uses it, the
records have what has been commanded. -/
theorem commands_kept {commanded : Commanded}
    (reached : (commandMachine config).Reaches
      (fun commanded action => Current config commanded.manager action) commanded) :
    ∀ id s, commanded.manager.get id = some s → Reflects s (commanded.orders id) := by
  have obeyed : Obeyed commanded.manager commanded.orders := by
    refine @Machine.Reaches.invariant _ _ _ _
      (fun commanded => Obeyed commanded.manager commanded.orders) obeyed_initial ?_ _ reached
    intro before action after obeyed current taken
    obtain ⟨next, stepped, rfl⟩ := command_step taken
    exact obeyed.step current stepped
  exact obeyed.reflects

/-! ## A command before and during a cycle -/

/-- A sadhana is created. -/
def oneSadhana : Action := .create 1 "a" "" "" 0 "brahman" .null 0 0

/-- The first step of a command writes nothing back, and no agent thinks. -/
theorem current_called {index : Nat} {proc : Proc} (found : manager.procs[index]? = some proc)
    (called : proc.phase = .called) (resting : thinker manager.tick = none) (now : Int)
    (ok : Bool) : Current config manager (.proceed index now ok) := by
  intro other same
  rw [found, Option.some.injEq] at same
  rw [← same]
  refine ⟨fun _ => by simp [resting], fun _ s loaded => ?_, fun copy record written _ => ?_⟩
  · rw [called] at loaded
    contradiction
  · have own := copy_of_write written
    rw [called] at own
    contradiction

/-- Its goal is changed while no cycle runs. -/
theorem commands_kept_goal : ∃ commanded : Commanded,
    (commandMachine .standard).run (commandMachine .standard).initial
        [oneSadhana, .call 1 (.setGoal "b"), .proceed 0 1 true, .proceed 0 2 true] =
      some commanded ∧
      (commanded.orders 1).goal = some "b" ∧ (commanded.manager.get 1).map (·.goal) = some "b" ∧
      ∀ id s, commanded.manager.get id = some s → Reflects s (commanded.orders id) := by
  have empty : (commandMachine .standard).Reaches
      (fun commanded action => Current .standard commanded.manager action)
      (commandMachine .standard).initial := .initial
  have created := empty.step oneSadhana trivial rfl
  have called := created.step (Action.call 1 (.setGoal "b")) trivial rfl
  have loaded := called.step (Action.proceed 0 1 true) (current_called rfl rfl rfl 1 true) rfl
  have written := loaded.step (Action.proceed 0 2 true)
    (fun proc found => by
      rw [← Option.some.inj found]
      refine ⟨fun frees => absurd frees (by decide), fun halts => absurd halts (by decide),
        fun copy record same read => ?_⟩
      rw [← Option.some.inj same, ← Option.some.inj read]
      exact ⟨rfl, rfl, rfl, .inr rfl⟩) rfl
  exact ⟨_, rfl, rfl, rfl, commands_kept written⟩

/-- A sadhana runs, its record has been read, and its agent thinks. -/
def thinking : List Action :=
  [oneSadhana, .call 1 .start, .proceed 0 1 true, .proceed 0 1 true, .proceed 0 1 true,
    .proceed 0 1 true, .tick 2, .load 2, .think]

/-- Its goal and its interval are changed, and then the agent returns. -/
def duringCycle : List Action :=
  [.call 1 (.setGoal "b"), .proceed 0 3 true, .proceed 0 3 true, .call 1 (.setInterval 60),
    .proceed 0 4 true, .proceed 0 4 true,
    .endCycle
      { status := "progressed", summary := "", failed := false, costUsd := 0, stored := .null } 5
      true, .next 5, .load 5]

/-- The cycle writes back the old goal and the old interval, for good; one that is paused instead
goes on with the entry that `pause` has freed. -/
theorem commands_kept_refuted :
    (∃ commanded : Commanded,
      (commandMachine .standard).Reachable commanded ∧ commanded.manager.procs.length = 0 ∧
        commanded.manager.tick.isNone ∧ (commanded.orders 1).goal = some "b" ∧
        (commanded.orders 1).intervalSeconds = some 60 ∧
        (commanded.manager.get 1).map (fun s => (s.goal, s.intervalSeconds)) = some ("a", 300) ∧
        ¬ ∀ id s, commanded.manager.get id = some s → Reflects s (commanded.orders id)) ∧
    ∃ (commanded : Commanded) (s : SadhanaRecord),
      (commandMachine .standard).Reachable commanded ∧
        commanded.manager.tick = some { toRun := [1], cycle := some (s, .dangling) } := by
  refine ⟨⟨_, .of_run (thinking ++ duringCycle) .initial rfl, rfl, rfl, rfl, rfl, rfl,
    fun kept => ?_⟩, _, _, .of_run (thinking ++ [.call 1 .pause, .proceed 0 4 true]) .initial rfl,
    rfl⟩
  have goal := (kept 1 _ rfl).goal "b" rfl
  revert goal
  decide

end Chitta.Sadhana
