import Mathlib.Data.List.AList
import Chitta.Json
import Chitta.Machine

/-!
# The manager of sadhanas

A sadhana is a goal that an agent pursues in cycles. Its record is in the task store, which commands
and cycles read, change and write back in separate steps. The manager keeps a map of the sadhanas
that run, behind a lock, with the agents that they use.

A command is a process that goes from one access of the store or the map to the next. The thread of
the daemon goes through the sadhanas that are due. What an agent thinks comes with the action. The
names are those of the source.
-/
namespace Chitta.Sadhana

/-- The state of a sadhana. -/
inductive SadhanaState where
  /-- Created but not started. -/
  | pending
  /-- Its cycles run. -/
  | running
  /-- Suspended. -/
  | paused
  /-- Its goal is achieved. -/
  | done
  /-- Its goal is not achieved. -/
  | failed
deriving DecidableEq, Repr

/-- The record of a sadhana. -/
structure SadhanaRecord where
  /-- The goal. -/
  goal : String
  /-- The structured goal. -/
  goalDsl : Json
  /-- The state. -/
  state : SadhanaState
  /-- The provider of the agent. -/
  brainProvider : String
  /-- The model of the agent. -/
  brainModel : String
  /-- When it was created. -/
  createdAt : Int
  /-- When it was last written. -/
  updatedAt : Int
  /-- The cycles. -/
  iterations : Int
  /-- The last observation. -/
  lastSense : Json
  /-- What the last cycle did. -/
  lastAction : String
  /-- The result of the last cycle. -/
  lastResult : Json
  /-- The calls of the agent. -/
  brainCalls : Int
  /-- The patterns that were learned. -/
  learnedPatterns : Json
  /-- The seconds between cycles. -/
  intervalSeconds : Int
  /-- The turns of a cycle, zero for the default. -/
  maxTurns : Int
  /-- The realm. -/
  realm : String
  /-- The cost of all cycles. -/
  costUsd : Rat

/-- The record as it is stored: JSON values are never null there. -/
def sadhanaToPayload (s : SadhanaRecord) : SadhanaRecord :=
  { s with
    goalDsl := if s.goalDsl.isNull then .obj [] else s.goalDsl
    lastSense := if s.lastSense.isNull then .obj [] else s.lastSense
    lastResult := if s.lastResult.isNull then .obj [] else s.lastResult
    learnedPatterns := if s.learnedPatterns.isNull then .obj [] else s.learnedPatterns }

/-- The record as it is read: a structured goal that is no object is dropped. -/
def payloadToSadhana (p : SadhanaRecord) : SadhanaRecord :=
  { p with goalDsl := if p.goalDsl.isObject then p.goalDsl else .null }

/-- The settings of a manager. -/
structure SadhanaConfig where
  /-- How many sadhanas may run. -/
  maxConcurrent : Nat
  /-- The seconds between cycles, by default. -/
  defaultIntervalSeconds : Int
  /-- The provider, by default. -/
  defaultBrainProvider : String
  /-- The model, by default. -/
  defaultBrainModel : String
  /-- After how many failed cycles in a row a sadhana is paused. -/
  maxConsecutiveFailures : Int
  /-- After how many cycles a sadhana is paused. -/
  maxIterations : Int
  /-- After how many hours a sadhana is paused. -/
  maxRuntimeHours : Int

/-- The settings of the daemon. -/
def SadhanaConfig.standard : SadhanaConfig where
  maxConcurrent := 10
  defaultIntervalSeconds := 300
  defaultBrainProvider := "local"
  defaultBrainModel := "gemma4:26b"
  maxConsecutiveFailures := 5
  maxIterations := 10000
  maxRuntimeHours := 168

/-- An agent. -/
structure BrainProvider where
  /-- Its kind. -/
  providerName : String
  /-- Its model. -/
  modelName : String

/-- An agent of a provider; any other provider is the bridge. -/
def createBrain (provider model : String) : Option BrainProvider :=
  if provider = "claude" then some ⟨"claude", if model = "" then "sonnet" else model⟩
  else if provider = "local" then some ⟨"local", if model = "" then "gemma4:26b" else model⟩
  else some ⟨"bridge", if model = "" then "gemma4:26b" else model⟩

/-- There is always an agent. -/
theorem createBrain_isSome (provider model : String) : (createBrain provider model).isSome := by
  unfold createBrain
  split
  · rfl
  · split <;> rfl

/-- A sadhana that runs. -/
structure RunningState where
  /-- When its next cycle is due. -/
  nextRunAt : Int
  /-- Its agent. -/
  brain : Option BrainProvider
  /-- The failed cycles in a row. -/
  consecutiveFailures : Int

/-- The failed cycles in a row after another cycle. -/
def RunningState.count (rs : RunningState) (failed : Bool) : RunningState :=
  { rs with consecutiveFailures := if failed then rs.consecutiveFailures + 1 else 0 }

/-! ## Commands -/

/-- A command for a sadhana; `resume` is `start`. -/
inductive Command where
  /-- `start` and `resume`. -/
  | start
  /-- `pause`. -/
  | pause
  /-- `stop`. -/
  | stop (success : Bool) (reason : String)
  /-- `set_model`. -/
  | setModel (model : String)
  /-- `set_interval`. -/
  | setInterval (intervalSeconds : Int)
  /-- `set_max_turns`. -/
  | setMaxTurns (maxTurns : Int)
  /-- `set_goal`. -/
  | setGoal (goal : String)
  /-- `checkpoint`. -/
  | checkpoint (status summary : String)

/-- What a command changes in the record that it has read. -/
def Command.edit (command : Command) (now : Int) (s : SadhanaRecord) : SadhanaRecord :=
  match command with
  | .start => { s with state := .running, updatedAt := now }
  | .pause => { s with state := .paused, updatedAt := now }
  | .stop success _ => { s with state := if success then .done else .failed, updatedAt := now }
  | .setModel model => { s with brainModel := model, updatedAt := now }
  | .setInterval intervalSeconds => { s with intervalSeconds, updatedAt := now }
  | .setMaxTurns maxTurns => { s with maxTurns, updatedAt := now }
  | .setGoal goal => { s with goal, updatedAt := now }
  | .checkpoint _ summary => { s with lastAction := summary, updatedAt := now }

/-- How far a command is. -/
inductive Phase where
  /-- It has been called. -/
  | called
  /-- `start` has read a record that may be started. -/
  | checked (s : SadhanaRecord)
  /-- `start` has found room. -/
  | cleared (s : SadhanaRecord)
  /-- `pause` or `stop` has taken the sadhana out of the map. -/
  | erased
  /-- The record has been read. -/
  | loaded (s : SadhanaRecord)
  /-- There was no record. -/
  | missing
  /-- The record has been written, and the map comes next. -/
  | written (s : SadhanaRecord)

/-- A command that is in progress. -/
structure Proc where
  /-- The sadhana. -/
  id : Int
  /-- The command. -/
  command : Command
  /-- How far it is. -/
  phase : Phase

/-! ## Cycles -/

/-- What the agent of a cycle returns, read from its output. -/
structure CycleResult where
  /-- The status: `progressed`, `achieved`, `blocked`, `error` or another one. -/
  status : String
  /-- The summary. -/
  summary : String
  /-- Whether the agent has failed. -/
  failed : Bool
  /-- The cost. -/
  costUsd : Rat
  /-- What is stored. -/
  stored : Json

/-- What a cycle changes in the record that it has read. -/
def CycleResult.edit (result : CycleResult) (now : Int) (s : SadhanaRecord) : SadhanaRecord :=
  { s with
    brainCalls := s.brainCalls + 1
    costUsd := s.costUsd + result.costUsd
    lastAction := if result.summary = "" then result.status else result.summary
    lastResult := result.stored
    iterations := s.iterations + 1
    updatedAt := now }

/-- How far a cycle is. -/
inductive CyclePhase where
  /-- The record has been read. -/
  | loaded
  /-- The agent thinks. -/
  | thinking
  /-- It thinks, but the entry of the map that it is in has been freed. -/
  | dangling
  /-- The cycle has ended with a status. -/
  | ended (status : String)

/-- The thread of the daemon. -/
structure Tick where
  /-- The sadhanas that are due. -/
  toRun : List Int
  /-- The cycle of the first one. -/
  cycle : Option (SadhanaRecord × CyclePhase)

/-- The entry of a sadhana is freed: `run_cycle` still points to it and to its agent while the agent
thinks. -/
def Tick.free (id : Int) : Tick → Tick
  | { toRun := own :: rest, cycle := some (s, .thinking) } =>
    { toRun := own :: rest, cycle := some (s, if own = id then .dangling else .thinking) }
  | tick => tick

/-! ## The manager -/

/-- A manager with the store. -/
structure Manager where
  /-- The records in the store. -/
  tasks : AList fun _ : Int => SadhanaRecord
  /-- `running_`. -/
  running : AList fun _ : Int => RunningState
  /-- The commands in progress. -/
  procs : List Proc
  /-- The thread of the daemon, when it is at work. -/
  tick : Option Tick
  /-- The commands that have returned, with what they have returned. -/
  returned : List (Int × Command × Bool)

namespace Manager

/-- Nothing has been created. -/
def initial : Manager where
  tasks := ∅
  running := ∅
  procs := []
  tick := none
  returned := []

variable (config : SadhanaConfig) (manager : Manager)

/-- `get`. -/
def get (id : Int) : Option SadhanaRecord := (manager.tasks.lookup id).map payloadToSadhana

/-- The sadhanas that the store has as running, in the order of the store. -/
def runningRecords (listed : List Int) : List (Int × SadhanaRecord) :=
  listed.filterMap fun id =>
    match manager.get id with
    | some s => if s.state = .running then some (id, s) else none
    | none => none

/-- `list_active`: at most fifty of them. -/
def listActive (listed : List Int) : List (Int × SadhanaRecord) :=
  (manager.runningRecords listed).take 50

/-- A record is written when the store takes it. -/
def taskUpdatePayload (id : Int) (s : SadhanaRecord) (ok : Bool) : Manager :=
  if ok then { manager with tasks := manager.tasks.insert id (sadhanaToPayload s) } else manager

/-- A new record. -/
def create (id : Int) (goal brainProvider brainModel : String) (intervalSeconds : Int)
    (realm : String) (goalDsl : Json) (maxTurns : Int) (now : Int) : Manager :=
  let s : SadhanaRecord :=
    { goal
      goalDsl
      state := .pending
      brainProvider := if brainProvider = "" then config.defaultBrainProvider else brainProvider
      brainModel := if brainModel = "" then config.defaultBrainModel else brainModel
      createdAt := now
      updatedAt := now
      iterations := 0
      lastSense := .null
      lastAction := ""
      lastResult := .null
      brainCalls := 0
      learnedPatterns := .null
      intervalSeconds :=
        if 0 < intervalSeconds then intervalSeconds else config.defaultIntervalSeconds
      maxTurns := if 0 ≤ maxTurns then maxTurns else 0
      realm
      costUsd := 0 }
  { manager with tasks := manager.tasks.insert id (sadhanaToPayload s) }

/-- A command goes on later. -/
def goto (index : Nat) (proc : Proc) (phase : Phase) : Manager :=
  { manager with procs := manager.procs.set index { proc with phase } }

/-- A command returns. -/
def finish (index : Nat) (proc : Proc) (result : Bool) : Manager :=
  { manager with
    procs := manager.procs.eraseIdx index
    returned := manager.returned ++ [(proc.id, proc.command, result)] }

/-- A sadhana starts to run, with a new agent; the one that it had is freed. -/
def insertRunning (id : Int) (s : SadhanaRecord) (now : Int) : Manager :=
  { manager with
    running := manager.running.insert id
      { nextRunAt := now
        brain := createBrain s.brainProvider s.brainModel
        consecutiveFailures := 0 }
    tick := manager.tick.map (·.free id) }

/-- A sadhana no longer runs: its entry is freed. -/
def eraseRunning (id : Int) : Manager :=
  { manager with running := manager.running.erase id, tick := manager.tick.map (·.free id) }

/-- The agent of a sadhana gets another model. -/
def setBrainModel (id : Int) (model : String) : Manager :=
  match manager.running.lookup id with
  | some rs =>
    { manager with
      running := manager.running.insert id
        { rs with brain := rs.brain.map fun brain => { brain with modelName := model } } }
  | none => manager

/-- `start`. -/
def start (index : Nat) (proc : Proc) (now : Int) (ok : Bool) : Manager :=
  match proc.phase with
  | .called =>
    match manager.get proc.id with
    | none => manager.finish index proc false
    | some s =>
      if s.state ≠ .pending ∧ s.state ≠ .paused then manager.finish index proc false
      else manager.goto index proc (.checked s)
  | .checked s =>
    if config.maxConcurrent ≤ manager.running.entries.length then manager.finish index proc false
    else manager.goto index proc (.cleared s)
  | .cleared s =>
    let s' := Command.start.edit now s
    if ok then (manager.taskUpdatePayload proc.id s' ok).goto index proc (.written s')
    else manager.finish index proc false
  | .written s => (manager.insertRunning proc.id s now).finish index proc true
  | _ => manager

/-- The part of `pause` and `stop` after the sadhana has been taken out of the map. -/
def halt (index : Nat) (proc : Proc) (now : Int) (ok : Bool) : Manager :=
  match proc.phase with
  | .erased =>
    match manager.get proc.id with
    | some s => manager.goto index proc (.loaded s)
    | none => manager.goto index proc .missing
  | .loaded s =>
    -- Whether the store has taken the record is not looked at.
    (manager.taskUpdatePayload proc.id (proc.command.edit now s) ok).finish index proc true
  | .missing => manager.finish index proc true
  | _ => manager

/-- `pause`. -/
def pause (index : Nat) (proc : Proc) (now : Int) (ok : Bool) : Manager :=
  match proc.phase with
  | .called =>
    match manager.running.lookup proc.id with
    | none => manager.finish index proc false
    | some _ => (manager.eraseRunning proc.id).goto index proc .erased
  | _ => manager.halt index proc now ok

/-- `stop`. -/
def stop (index : Nat) (proc : Proc) (now : Int) (ok : Bool) : Manager :=
  match proc.phase with
  | .called => (manager.eraseRunning proc.id).goto index proc .erased
  | _ => manager.halt index proc now ok

/-- `set_model`, `set_interval`, `set_max_turns` and `set_goal`. -/
def set (index : Nat) (proc : Proc) (now : Int) (ok : Bool) : Manager :=
  match proc.phase with
  | .called =>
    match manager.get proc.id with
    | none => manager.finish index proc false
    | some s => manager.goto index proc (.loaded s)
  | .loaded s =>
    let s' := proc.command.edit now s
    if ok then
      match proc.command with
      | .setModel _ => (manager.taskUpdatePayload proc.id s' ok).goto index proc (.written s')
      | _ => (manager.taskUpdatePayload proc.id s' ok).finish index proc true
    else manager.finish index proc false
  | .written _ =>
    match proc.command with
    | .setModel model => (manager.setBrainModel proc.id model).finish index proc true
    | _ => manager
  | _ => manager

/-- `checkpoint`. -/
def checkpoint (status summary : String) (index : Nat) (proc : Proc) (now : Int) (ok : Bool) :
    Manager :=
  match proc.phase with
  | .called =>
    if status ≠ "progressed" ∧ status ≠ "achieved" ∧ status ≠ "blocked" then
      manager.finish index proc false
    else if summary = "" then manager.finish index proc true
    else
      match manager.get proc.id with
      | none => manager.finish index proc true
      | some s => manager.goto index proc (.loaded s)
  | .loaded s =>
    (manager.taskUpdatePayload proc.id (proc.command.edit now s) ok).finish index proc true
  | _ => manager

/-- A command goes one step further. -/
def proceed (index : Nat) (proc : Proc) (now : Int) (ok : Bool) : Manager :=
  match proc.command with
  | .start => manager.start config index proc now ok
  | .pause => manager.pause index proc now ok
  | .stop _ _ => manager.stop index proc now ok
  | .checkpoint status summary => manager.checkpoint status summary index proc now ok
  | _ => manager.set index proc now ok

/-- A command is called. -/
def call (id : Int) (command : Command) : Manager :=
  { manager with procs := manager.procs ++ [{ id, command, phase := .called }] }

/-- `tick`: the sadhanas that are due. -/
def beginTick (now : Int) : Manager :=
  { manager with
    tick := some
      { toRun := (manager.running.entries.filter fun entry => entry.2.nextRunAt ≤ now).map (·.1)
        cycle := none } }

/-- An hour in milliseconds. -/
def hour : Int := 3600000

/-- `tick`: the record of the next sadhana is read; one that has had its time is paused. -/
def loadCycle (id : Int) (rest : List Int) (now : Int) : Manager :=
  match manager.get id with
  | none => { manager.eraseRunning id with tick := some { toRun := rest, cycle := none } }
  | some s =>
    if config.maxIterations ≤ s.iterations then
      { manager.call id .pause with tick := some { toRun := rest, cycle := none } }
    else if config.maxRuntimeHours ≤ (now - s.createdAt).tdiv hour then
      { manager.call id .pause with tick := some { toRun := rest, cycle := none } }
    else { manager with tick := some { toRun := id :: rest, cycle := some (s, .loaded) } }

/-- `run_cycle`, up to its agent: a sadhana that no longer runs has no cycle. -/
def think (id : Int) (rest : List Int) (s : SadhanaRecord) : Manager :=
  match (manager.running.lookup id).bind (·.brain) with
  | none =>
    { manager with tick := some { toRun := id :: rest, cycle := some (s, .ended "stopped") } }
  | some _ => { manager with tick := some { toRun := id :: rest, cycle := some (s, .thinking) } }

/-- The failed cycles are counted in the entry of the sadhana. -/
def countFailures (id : Int) (rs : RunningState) (failed : Bool) : Manager :=
  { manager with running := manager.running.insert id (rs.count failed) }

/-- `run_cycle`, after its agent: the record that was read before is written, the failure is counted
in the entry that the cycle began with, and the sadhana is paused or stopped as the status says. -/
def endCycle (id : Int) (rest : List Int) (s : SadhanaRecord) (rs : RunningState)
    (result : CycleResult) (now : Int) (ok : Bool) : Manager :=
  let s' := result.edit now s
  let written := (manager.taskUpdatePayload id s' ok).countFailures id rs
    (result.failed || result.status = "error")
  let ended (status : String) (manager : Manager) : Manager :=
    { manager with tick := some { toRun := id :: rest, cycle := some (s', .ended status) } }
  if (result.failed || result.status = "error") ∧
      config.maxConsecutiveFailures ≤ rs.consecutiveFailures + 1 then
    ended "failed" (written.call id .pause)
  else if result.status = "achieved" then
    ended result.status (written.call id
      (.stop true (if result.summary = "" then "Goal achieved" else result.summary)))
  else if result.status = "blocked" then ended result.status (written.call id .pause)
  else ended result.status written

/-- `tick`: when the next cycle of a sadhana is due. -/
def scheduleNext (id : Int) (rest : List Int) (s : SadhanaRecord) (status : String) (now : Int) :
    Manager :=
  let delay := if status = "progressed" then 0 else s.intervalSeconds * 1000
  let next : Option Tick := some { toRun := rest, cycle := none }
  match manager.running.lookup id with
  | some rs =>
    { manager with
      running := manager.running.insert id { rs with nextRunAt := now + delay }
      tick := next }
  | none => { manager with tick := next }

/-- The constructor: a sadhana that the store has as running runs again; it would be paused if it
had no agent. -/
def restore (now : Int) (manager : Manager) (entry : Int × SadhanaRecord) : Manager :=
  match createBrain entry.2.brainProvider entry.2.brainModel with
  | none => manager.taskUpdatePayload entry.1 (Command.pause.edit now entry.2) true
  | some brain =>
    { manager with
      running := manager.running.insert entry.1
        { nextRunAt := now, brain := some brain, consecutiveFailures := 0 } }

/-- The daemon starts again: what was in progress is gone. -/
def restart (listed : List Int) (now : Int) : Manager :=
  (manager.listActive listed).foldl (restore now)
    { manager with running := ∅, procs := [], tick := none }

end Manager

/-! ## Steps -/

/-- What happens to a manager. -/
inductive Action where
  /-- A sadhana is created. -/
  | create (id : Int) (goal brainProvider brainModel : String) (intervalSeconds : Int)
    (realm : String) (goalDsl : Json) (maxTurns : Int) (now : Int)
  /-- A command is called. -/
  | call (id : Int) (command : Command)
  /-- A command goes one step further; the store takes a record or not. -/
  | proceed (index : Nat) (now : Int) (ok : Bool)
  /-- The thread of the daemon looks which sadhanas are due. -/
  | tick (now : Int)
  /-- It begins the cycle of the next one. -/
  | load (now : Int)
  /-- The agent begins to think. -/
  | think
  /-- The agent has returned. -/
  | endCycle (result : CycleResult) (now : Int) (ok : Bool)
  /-- The cycle is over. -/
  | next (now : Int)
  /-- The daemon starts again and lists its records. -/
  | restart (listed : List Int) (now : Int)

/-- The steps of a manager. A cycle whose entry has been freed has no further step: the language
gives what it does there no meaning. -/
def machine (config : SadhanaConfig) : Machine Manager Action where
  initial := .initial
  step manager action :=
    match action with
    | .create id goal brainProvider brainModel intervalSeconds realm goalDsl maxTurns now =>
      if id ∈ manager.tasks then none
      else some (manager.create config id goal brainProvider brainModel intervalSeconds
        realm goalDsl
        maxTurns now)
    | .call id command => some (manager.call id command)
    | .proceed index now ok =>
      match manager.procs[index]? with
      | some proc => some (manager.proceed config index proc now ok)
      | none => none
    | .tick now =>
      match manager.tick with
      | none => some (manager.beginTick now)
      | some _ => none
    | .load now =>
      match manager.tick with
      | some { toRun := id :: rest, cycle := none } => some (manager.loadCycle config id rest now)
      | some { toRun := [], cycle := none } => some { manager with tick := none }
      | _ => none
    | .think =>
      match manager.tick with
      | some { toRun := id :: rest, cycle := some (s, .loaded) } => some (manager.think id rest s)
      | _ => none
    | .endCycle result now ok =>
      match manager.tick with
      | some { toRun := id :: rest, cycle := some (s, .thinking) } =>
        (manager.running.lookup id).map fun rs =>
          manager.endCycle config id rest s rs result now ok
      | _ => none
    | .next now =>
      match manager.tick with
      | some { toRun := id :: rest, cycle := some (s, .ended status) } =>
        some (manager.scheduleNext id rest s status now)
      | _ => none
    | .restart listed now =>
      if listed.Perm manager.tasks.keys then some (manager.restart listed now) else none

/-! ## What a step does -/

/-- What a step of a manager does. -/
inductive ManagerStep (config : SadhanaConfig) (manager : Manager) : Action → Manager → Prop
  /-- A record is made under a new id. -/
  | create {id : Int} (goal brainProvider brainModel : String) (intervalSeconds : Int)
      (realm : String) (goalDsl : Json) (maxTurns now : Int) (absent : id ∉ manager.tasks) :
      ManagerStep config manager
        (.create id goal brainProvider brainModel intervalSeconds realm goalDsl maxTurns now)
        (manager.create config id goal brainProvider brainModel intervalSeconds realm goalDsl
          maxTurns now)
  /-- A command is called. -/
  | call (id : Int) (command : Command) :
      ManagerStep config manager (.call id command) (manager.call id command)
  /-- It goes one step further. -/
  | proceed {index : Nat} {proc : Proc} (now : Int) (ok : Bool)
      (found : manager.procs[index]? = some proc) :
      ManagerStep config manager (.proceed index now ok) (manager.proceed config index proc now ok)
  /-- The thread finds what is due. -/
  | tick (now : Int) (idle : manager.tick = none) :
      ManagerStep config manager (.tick now) (manager.beginTick now)
  /-- The next sadhana has no record. -/
  | gone {id : Int} {rest : List Int} (now : Int)
      (running : manager.tick = some { toRun := id :: rest, cycle := none })
      (missing : manager.get id = none) :
      ManagerStep config manager (.load now)
        { manager.eraseRunning id with tick := some { toRun := rest, cycle := none } }
  /-- It has had its time. -/
  | overdue {id : Int} {rest : List Int} {s : SadhanaRecord} (now : Int)
      (running : manager.tick = some { toRun := id :: rest, cycle := none })
      (found : manager.get id = some s)
      (due : config.maxIterations ≤ s.iterations ∨
        config.maxRuntimeHours ≤ (now - s.createdAt).tdiv Manager.hour) :
      ManagerStep config manager (.load now)
        { manager.call id .pause with tick := some { toRun := rest, cycle := none } }
  /-- Its cycle begins. -/
  | load {id : Int} {rest : List Int} {s : SadhanaRecord} (now : Int)
      (running : manager.tick = some { toRun := id :: rest, cycle := none })
      (found : manager.get id = some s) (early : s.iterations < config.maxIterations)
      (within : (now - s.createdAt).tdiv Manager.hour < config.maxRuntimeHours) :
      ManagerStep config manager (.load now)
        { manager with tick := some { toRun := id :: rest, cycle := some (s, .loaded) } }
  /-- None is left. -/
  | finish (now : Int) (running : manager.tick = some { toRun := [], cycle := none }) :
      ManagerStep config manager (.load now) { manager with tick := none }
  /-- The sadhana no longer runs. -/
  | halted {id : Int} {rest : List Int} {s : SadhanaRecord}
      (running : manager.tick = some { toRun := id :: rest, cycle := some (s, .loaded) })
      (stopped : (manager.running.lookup id).bind (·.brain) = none) :
      ManagerStep config manager .think
        { manager with tick := some { toRun := id :: rest, cycle := some (s, .ended "stopped") } }
  /-- Its agent thinks. -/
  | think {id : Int} {rest : List Int} {s : SadhanaRecord} {brain : BrainProvider}
      (running : manager.tick = some { toRun := id :: rest, cycle := some (s, .loaded) })
      (runs : (manager.running.lookup id).bind (·.brain) = some brain) :
      ManagerStep config manager .think
        { manager with tick := some { toRun := id :: rest, cycle := some (s, .thinking) } }
  /-- The agent has returned. -/
  | endCycle {id : Int} {rest : List Int} {s : SadhanaRecord} {rs : RunningState}
      (result : CycleResult) (now : Int) (ok : Bool)
      (running : manager.tick = some { toRun := id :: rest, cycle := some (s, .thinking) })
      (entry : manager.running.lookup id = some rs) :
      ManagerStep config manager (.endCycle result now ok)
        (manager.endCycle config id rest s rs result now ok)
  /-- The next cycle is scheduled. -/
  | next {id : Int} {rest : List Int} {s : SadhanaRecord} {status : String} (now : Int)
      (running : manager.tick = some { toRun := id :: rest, cycle := some (s, .ended status) }) :
      ManagerStep config manager (.next now) (manager.scheduleNext id rest s status now)
  /-- The daemon starts again. -/
  | restart {listed : List Int} (now : Int) (all : listed.Perm manager.tasks.keys) :
      ManagerStep config manager (.restart listed now) (manager.restart listed now)

/-- Every step of a manager is one of those. -/
theorem step_cases {config : SadhanaConfig} {manager next : Manager} {action : Action}
    (taken : (machine config).step manager action = some next) :
    ManagerStep config manager action next := by
  cases action with
  | create id goal provider model interval realm dsl turns now =>
    simp only [machine] at taken
    split at taken
    · contradiction
    · rename_i absent
      obtain rfl := Option.some.inj taken
      exact .create goal provider model interval realm dsl turns now absent
  | call id command =>
    obtain rfl := Option.some.inj taken
    exact .call id command
  | proceed index now ok =>
    simp only [machine] at taken
    split at taken
    · rename_i proc found
      obtain rfl := Option.some.inj taken
      exact .proceed now ok found
    · contradiction
  | tick now =>
    simp only [machine] at taken
    split at taken
    · rename_i idle
      obtain rfl := Option.some.inj taken
      exact .tick now idle
    · contradiction
  | load now =>
    simp only [machine] at taken
    split at taken
    · rename_i id rest running
      obtain rfl := Option.some.inj taken
      rw [Manager.loadCycle]
      split
      · rename_i missing
        exact .gone now running missing
      · rename_i s found
        split
        · rename_i often
          exact .overdue now running found (.inl often)
        · rename_i early
          split
          · rename_i late
            exact .overdue now running found (.inr late)
          · rename_i within
            exact .load now running found (Int.not_le.mp early) (Int.not_le.mp within)
    · rename_i running
      obtain rfl := Option.some.inj taken
      exact .finish now running
    · contradiction
  | think =>
    simp only [machine] at taken
    split at taken
    · rename_i id rest s running
      obtain rfl := Option.some.inj taken
      rw [Manager.think]
      split
      · rename_i stopped
        exact .halted running stopped
      · rename_i brain runs
        exact .think running runs
    · contradiction
  | endCycle result now ok =>
    simp only [machine] at taken
    split at taken
    · rename_i id rest s running
      obtain ⟨rs, entry, rfl⟩ := Option.map_eq_some_iff.mp taken
      exact .endCycle result now ok running entry
    · contradiction
  | next now =>
    simp only [machine] at taken
    split at taken
    · rename_i id rest s status running
      obtain rfl := Option.some.inj taken
      exact .next now running
    · contradiction
  | restart listed now =>
    simp only [machine] at taken
    split at taken
    · rename_i all
      obtain rfl := Option.some.inj taken
      exact .restart now all
    · contradiction

end Chitta.Sadhana
