import Chitta.LongTask.Tools

/-!
# Failed completions of long tasks

A completion writes the payload of its task and then moves the task, in two calls of the store. When
the second call is refused the tool answers with an error and the payload stays written; when the
event of the completion cannot be appended, it throws with both written.
-/
namespace Chitta.LongTask

open Checkpoint (ToolResult)

variable {env : Env}

/-- Every task is as it was. -/
def SameTasks (before after : World) : Prop :=
  ∀ taskId, Assoc.lookup taskId after.tasks = Assoc.lookup taskId before.tasks

/-- A completion that answers with an error or throws leaves every task as it was. -/
def FailureKeeps (env : Env) (params : Json) (world : World) : Prop :=
  (∀ content, (toolLongTaskComplete env params world).1 ≠ .ok (.ok content)) →
    SameTasks world (toolLongTaskComplete env params world).2

/-- A completion whose arguments are given and whose task can be read: the store takes the payload
of the completed task. -/
structure Writes (env : Env) (params : Json) (world : World) (taskId : String) (task : Task)
    (payload : String) : Prop where
  /-- The task is named. -/
  named : params.valueString "task_id" "" = .ok taskId ∧ taskId ≠ ""
  /-- The task is found. -/
  found : Assoc.lookup taskId world.tasks = some task ∧ env.taskText taskId task ≠ ""
  /-- The outcome is given, and the payload has it. -/
  completed : ∃ outcome, params.valueString "outcome" "" = .ok outcome ∧ outcome ≠ "" ∧
    completedPayload env (env.taskText taskId task) outcome = .ok payload
  /-- The store takes the payload. -/
  taken : env.updates taskId task payload = true

/-- Where the store takes the payload of a completed task, it moves the task and the log takes the
event; or what is not undone was there before. -/
def Undivided (env : Env) (params : Json) (world : World) : Prop :=
  ∀ taskId task payload, Writes env params world taskId task payload →
    match env.transition taskId { task with payload } "complete" with
    | none => payload = task.payload
    | some status =>
      env.emits world.log = true ∨ (payload = task.payload ∧ status = task.status)

/-! ## What a completion does -/

/-- A task that is written is found. -/
@[simp] theorem lookup_put_self (world : World) (taskId : String) (task : Task) :
    Assoc.lookup taskId (world.put taskId task).tasks = some task :=
  Assoc.lookup_assign_self taskId task world.tasks

/-- The other tasks stay. -/
theorem lookup_put_other {taskId other : String} (apart : other ≠ taskId) (world : World)
    (task : Task) :
    Assoc.lookup other (world.put taskId task).tasks = Assoc.lookup other world.tasks :=
  Assoc.lookup_assign_other apart task world.tasks

/-- A completion that gets as far as the store: refused, completed or thrown. -/
theorem complete_writes {params : Json} {world : World} {taskId payload : String} {task : Task}
    (writes : Writes env params world taskId task payload) :
    match env.transition taskId { task with payload } "complete" with
    | none =>
      (∃ text, (toolLongTaskComplete env params world).1 = .ok (.error text)) ∧
        (toolLongTaskComplete env params world).2 = world.put taskId { task with payload }
    | some status =>
      (if env.emits world.log = true then
          ∃ content, (toolLongTaskComplete env params world).1 = .ok (.ok content)
        else ∃ thrown, (toolLongTaskComplete env params world).1 = .error thrown) ∧
        (toolLongTaskComplete env params world).2.tasks =
          ((world.put taskId { task with payload }).put taskId ⟨status, payload⟩).tasks := by
  obtain ⟨outcome, given, some_outcome, made⟩ := writes.completed
  have arguments : ¬ (taskId = "" ∨ outcome = "") := by
    simp [writes.named.2, some_outcome]
  have read : taskGet env taskId world = (.ok (env.taskText taskId task), world) := by
    simp [taskGet, writes.found.1]
  have updated : taskUpdatePayload env taskId payload world =
      (.ok true, world.put taskId { task with payload }) := by
    simp [taskUpdatePayload, writes.found.1, writes.taken]
  -- the call is followed to the transition, where its ways part
  rw [toolLongTaskComplete, Throwing.bind_lift writes.named.1, Throwing.bind_lift given,
    if_neg arguments, Throwing.bind_of_ok read, if_neg writes.found.2,
    Throwing.bind_lift made, Throwing.bind_of_ok updated, if_neg (by decide)]
  cases moves : env.transition taskId { task with payload } "complete" with
  | none =>
    have refused : taskTransition env taskId "complete" (world.put taskId { task with payload }) =
        (.ok false, world.put taskId { task with payload }) := by
      simp [taskTransition, moves]
    rw [Throwing.bind_of_ok refused, if_pos rfl]
    exact ⟨⟨_, rfl⟩, rfl⟩
  | some status =>
    have moved : taskTransition env taskId "complete" (world.put taskId { task with payload }) =
        (.ok true, (world.put taskId { task with payload }).put taskId ⟨status, payload⟩) := by
      simp [taskTransition, moves]
    rw [Throwing.bind_of_ok moved, if_neg (by decide)]
    by_cases emits : env.emits world.log = true
    · have emitted : emitEvent env "long_task" "complete" taskId
          (.object [("outcome", .str outcome)])
          ((world.put taskId { task with payload }).put taskId ⟨status, payload⟩) = _ :=
        if_pos emits
      rw [if_pos emits, Throwing.bind_of_ok emitted]
      exact ⟨⟨_, rfl⟩, rfl⟩
    · have thrown : emitEvent env "long_task" "complete" taskId
          (.object [("outcome", .str outcome)])
          ((world.put taskId { task with payload }).put taskId ⟨status, payload⟩) = _ :=
        if_neg emits
      rw [if_neg emits, Throwing.bind_of_error thrown]
      exact ⟨⟨_, rfl⟩, rfl⟩

/-- A completion that does not get as far as the store changes nothing. -/
theorem complete_idle {params : Json} {world : World}
    (idle : ∀ taskId task payload, ¬ Writes env params world taskId task payload) :
    (toolLongTaskComplete env params world).2 = world := by
  rw [toolLongTaskComplete]
  apply Throwing.lift_cases fun ended => ended.2 = world
  · exact fun _ _ => rfl
  intro taskId named
  apply Throwing.lift_cases fun ended => ended.2 = world
  · exact fun _ _ => rfl
  intro outcome given
  by_cases missing : taskId = "" ∨ outcome = ""
  · rw [if_pos missing]
    rfl
  rw [if_neg missing]
  rw [not_or] at missing
  cases found : Assoc.lookup taskId world.tasks with
  | none =>
    have read : taskGet env taskId world = (.ok "", world) := by
      simp [taskGet, found]
    rw [Throwing.bind_of_ok read, if_pos rfl]
    rfl
  | some task =>
    have read : taskGet env taskId world = (.ok (env.taskText taskId task), world) := by
      simp [taskGet, found]
    rw [Throwing.bind_of_ok read]
    by_cases empty : env.taskText taskId task = ""
    · rw [if_pos empty]
      rfl
    rw [if_neg empty]
    apply Throwing.lift_cases fun ended => ended.2 = world
    · exact fun _ _ => rfl
    intro payload made
    have refused : env.updates taskId task payload = false := by
      by_contra taken
      rw [Bool.not_eq_false] at taken
      exact idle taskId task payload ⟨⟨named, missing.1⟩, ⟨found, empty⟩,
        ⟨outcome, given, missing.2, made⟩, taken⟩
    have updated : taskUpdatePayload env taskId payload world = (.ok false, world) := by
      simp [taskUpdatePayload, found, refused]
    rw [Throwing.bind_of_ok updated, if_pos rfl]
    rfl

/-! ## Failures -/

/-- Writing a task keeps all tasks if and only if it was there as it is written. -/
theorem sameTasks_put_iff {world after : World} {taskId : String} {task written : Task}
    (found : Assoc.lookup taskId world.tasks = some task)
    (own : Assoc.lookup taskId after.tasks = some written)
    (others : ∀ other, other ≠ taskId →
      Assoc.lookup other after.tasks = Assoc.lookup other world.tasks) :
    SameTasks world after ↔ written = task := by
  constructor
  · intro same
    have kept := same taskId
    rw [own, found] at kept
    exact Option.some.inj kept
  · intro same other
    by_cases apart : other = taskId
    · rw [apart, own, found, same]
    · exact others other apart

/-- A completion writes one payload to one task. -/
theorem Writes.unique {params : Json} {world : World} {taskId other payload written : String}
    {task found : Task} (one : Writes env params world taskId task payload)
    (two : Writes env params world other found written) :
    other = taskId ∧ found = task ∧ written = payload := by
  have same : other = taskId := Except.ok.inj (two.named.1.symm.trans one.named.1)
  subst same
  have sameTask : found = task := Option.some.inj (two.found.1.symm.trans one.found.1)
  subst sameTask
  obtain ⟨outcome, given, _, made⟩ := one.completed
  obtain ⟨again, givenAgain, _, madeAgain⟩ := two.completed
  have sameOutcome : again = outcome := Except.ok.inj (givenAgain.symm.trans given)
  subst sameOutcome
  have samePayload : written = payload := Except.ok.inj (madeAgain.symm.trans made)
  exact ⟨rfl, rfl, samePayload⟩

/-- A completion that writes keeps the tasks when it fails if and only if it is undivided there. -/
theorem failure_keeps_of_writes {params : Json} {world : World} {taskId payload : String}
    {task : Task} (writes : Writes env params world taskId task payload) :
    FailureKeeps env params world ↔
      match env.transition taskId { task with payload } "complete" with
      | none => payload = task.payload
      | some status =>
        env.emits world.log = true ∨ (payload = task.payload ∧ status = task.status) := by
  have ended := complete_writes writes
  rw [FailureKeeps]
  generalize toolLongTaskComplete env params world = answered at ended
  cases moves : env.transition taskId { task with payload } "complete" with
  | none =>
    rw [moves] at ended
    dsimp only at ended
    obtain ⟨⟨text, refused⟩, left⟩ := ended
    have failed : ∀ content, answered.1 ≠ .ok (.ok content) := by
      intro content completed
      rw [refused] at completed
      injection completed with completed
      contradiction
    have same : SameTasks world answered.2 ↔ ({ task with payload } : Task) = task :=
      sameTasks_put_iff writes.found.1 (by rw [left, lookup_put_self])
        fun other apart => by rw [left, lookup_put_other apart]
    have differs : ({ task with payload } : Task) = task ↔ payload = task.payload := by
      cases task
      simp
    rw [same, differs]
    exact ⟨fun keeps => keeps failed, fun kept _ => kept⟩
  | some status =>
    rw [moves] at ended
    dsimp only at ended
    obtain ⟨answer, left⟩ := ended
    by_cases emits : env.emits world.log = true
    · rw [if_pos emits] at answer
      obtain ⟨content, completed⟩ := answer
      exact ⟨fun _ => .inl emits, fun _ failed => absurd completed (failed content)⟩
    · rw [if_neg emits] at answer
      obtain ⟨thrown, threw⟩ := answer
      have failed : ∀ content, answered.1 ≠ .ok (.ok content) := by
        intro content completed
        rw [threw] at completed
        contradiction
      have same : SameTasks world answered.2 ↔ (⟨status, payload⟩ : Task) = task :=
        sameTasks_put_iff writes.found.1 (by rw [left, lookup_put_self]) fun other apart => by
          rw [left, lookup_put_other apart, lookup_put_other apart]
      have differs : (⟨status, payload⟩ : Task) = task ↔
          payload = task.payload ∧ status = task.status := by
        cases task
        simp [and_comm]
      rw [same, differs]
      constructor
      · exact fun keeps => .inr (keeps failed)
      · intro kept _
        exact kept.resolve_left emits

/-- A failed completion leaves every task as it was if and only if, where the store takes the
payload of the completed task, it also moves the task and the log takes the event, or nothing
differs. -/
theorem failure_keeps_iff (env : Env) (params : Json) (world : World) :
    FailureKeeps env params world ↔ Undivided env params world := by
  by_cases idle : ∀ taskId task payload, ¬ Writes env params world taskId task payload
  · have undivided : Undivided env params world :=
      fun taskId task payload writes => absurd writes (idle taskId task payload)
    have keeps : FailureKeeps env params world := by
      intro _ taskId
      rw [complete_idle idle]
    exact ⟨fun _ => undivided, fun _ => keeps⟩
  · push Not at idle
    obtain ⟨taskId, task, payload, writes⟩ := idle
    rw [failure_keeps_of_writes writes]
    constructor
    · intro kept other found written others
      obtain ⟨rfl, rfl, rfl⟩ := writes.unique others
      exact kept
    · exact fun undivided => undivided taskId task payload writes

/-! ## A task that is complete already -/

/-- The payload of a completed task. -/
def samplePayload (outcome : String) : Json :=
  .object [("goal", .str "index"), ("outcome", .str outcome), ("status", .str "completed")]

/-- The text of the payload. -/
def samplePayloadText (outcome : String) : String :=
  "\x7b\"goal\":\"index\",\"outcome\":\"" ++ outcome ++ "\",\"status\":\"completed\"\x7d"

/-- The text of the task whose outcome is done. -/
def sampleTaskText : String :=
  "\x7b\"kind\":\"long_task\",\"payload\":\"\x7b\\\"goal\\\":\\\"index\\\"," ++
    "\\\"outcome\\\":\\\"done\\\",\\\"status\\\":\\\"completed\\\"\x7d\"," ++
    "\"status\":\"completed\",\"task_id\":\"t-1\"\x7d"

/-- A store whose completed tasks stay completed. -/
def sampleEnv : Env where
  parse text :=
    if text = samplePayloadText "done" then some (samplePayload "done")
    else if text = sampleTaskText then
      some (.object [("kind", .str "long_task"), ("payload", .str (samplePayloadText "done")),
        ("status", .str "completed"), ("task_id", .str "t-1")])
    else none
  dump payload :=
    match payload.find "outcome" with
    | some (.str outcome) => samplePayloadText outcome
    | _ => "\x7b\x7d"
  taskText _ _ := sampleTaskText
  updates _ _ _ := true
  transition _ task newStatus :=
    if newStatus = "complete" ∧ task.status ≠ "completed" then some "completed" else none
  emits _ := true
  record domain kind entity payload := .obj [("domain", .str domain), ("entity_id", .str entity),
    ("kind", .str kind), ("payload", .str payload)]
  record_inj same := by simp_all
  time := 0

/-- A completed task. -/
def sampleWorld : World := ⟨[("t-1", ⟨"completed", samplePayloadText "done"⟩)], []⟩

set_option maxRecDepth 8000 in
/-- A second completion of a task is refused and has replaced its payload. -/
theorem failed_completion_writes :
    ¬ ∀ (env : Env) (params : Json) (world : World), FailureKeeps env params world := by
  intro claim
  have keeps := claim sampleEnv (.object [("task_id", .str "t-1"), ("outcome", .str "again")])
    sampleWorld
  have failed : ∀ content, (toolLongTaskComplete sampleEnv
      (.object [("task_id", .str "t-1"), ("outcome", .str "again")]) sampleWorld).1 ≠
      .ok (.ok content) := by
    intro content completed
    have refused : (toolLongTaskComplete sampleEnv
        (.object [("task_id", .str "t-1"), ("outcome", .str "again")]) sampleWorld).1 =
        .ok (.error "Failed to transition task to complete: t-1") := by
      rfl
    rw [refused] at completed
    injection completed with completed
    contradiction
  have kept := keeps failed "t-1"
  revert kept
  decide

end Chitta.LongTask
