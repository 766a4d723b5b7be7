import Chitta.Locks

/-!
# The mutexes of the ledger

An operation of the ledger takes, from the outside to the inside, the lock of the RPC handler, the
mutex of the streams, that of the capsules and that of the transactions. The hook of a session start
collects its parts in helper threads, which run operations of the ledger themselves, so it waits for
them without the mutex of the streams; the hook that restores a compacted session waits with it, for
helpers that take no mutex.
-/
namespace Chitta.Locking

open Locks Locks.Program

/-- A mutex with the way in which it is taken. -/
inductive Hold where
  /-- `rpc_mutex_`, with other readers. -/
  | rpcShared
  /-- `rpc_mutex_`, alone. -/
  | rpcExclusive
  /-- `stream_mutex`. -/
  | stream
  /-- `capsule_mutex`. -/
  | capsule
  /-- `transaction_mutex_` of the ledger. -/
  | ledger
deriving DecidableEq, Repr

/-- The mutex that is taken; its readers share it. -/
def conflicts : Hold → Hold → Bool
  | .rpcShared, .rpcExclusive => true
  | .rpcExclusive, .rpcShared => true
  | .rpcShared, .rpcShared => false
  | one, two => one == two

/-- `std::recursive_mutex`. -/
def isRecursive : Hold → Bool
  | .stream => true
  | .capsule => true
  | _ => false

/-- A tool of the handler. -/
inductive Tool where
  /-- `ledger_op`. -/
  | ledgerOp (op : String)
  /-- `session_register`. -/
  | sessionRegister
  /-- `session_heartbeat`. -/
  | sessionHeartbeat
  /-- `session_deregister`. -/
  | sessionDeregister
  /-- A tool that takes no mutex of the ledger, such as `recall` or `smart_context`. -/
  | other

/-- What a thread runs. -/
inductive Code where
  /-- A request: `handle`. -/
  | request (tool : Tool)
  /-- An item of the queue: `dispatch_session`. -/
  | queue (tool : Tool)
  /-- A thread of `std::async`. -/
  | helper (tool : Tool)

/-- A program of the handler. -/
abbrev Handler := Program Hold Code

/-! ## Operations -/

/-- `run`: a transaction of the ledger. -/
def run : Handler := within .capsule (within .ledger skip)

/-- The operations whose helpers take the mutex of the streams themselves. -/
def fansOut (op : String) : Bool := op == "hook_session_start" || op == "hook_pre_compact"

/-- The guard of `tool_ledger_op`; its exceptions become error results. -/
def gate (op : String) (body : Handler) : Handler :=
  if fansOut op then catching body else within .stream (catching body)

/-- `session_touch`. -/
def sessionTouch : Handler :=
  seq run (choice run (steps [optional run, run, optional run]))

/-- `capsule_rows`: the pages of the sessions. -/
def capsuleRows : Handler := seq run (loop run)

/-- `session_bind`: a handoff is checked under the mutex of the capsules. -/
def sessionBind : Handler :=
  choice (within .capsule (steps [run, optional capsuleRows, run])) run

/-- `tool_session_register`, behind its event. -/
def sessionRegister : Handler := optional (gate "session_bind" sessionBind)

/-- `tool_session_heartbeat`, behind its event. -/
def sessionHeartbeat : Handler := optional (gate "session_touch" sessionTouch)

/-- `tool_session_deregister`, behind its event. -/
def sessionDeregister : Handler := optional (gate "session_close" run)

/-- `stream_handoff`. -/
def streamHandoff : Handler := steps [run, gate "session_touch" sessionTouch, run]

/-- `stream_list`. -/
def streamList : Handler := seq run (loop run)

/-- `stream_release`. -/
def streamRelease : Handler := seq run (optional sessionHeartbeat)

/-- `stream_claim`. -/
def streamClaim : Handler :=
  steps [run, run, run, optional (steps [run, sessionRegister, sessionHeartbeat])]

/-- `session_start`: the parts are started, and waited for where they are used; some are left
out. -/
def sessionStart : Handler :=
  seq (optional (gate "session_get" run)) (optional (helpers (steps
    [launch "soul" (.helper .other), launch "corrections" (.helper .other),
      launch "compliance" (.helper .other), launch "cache" (.helper .other),
      launch "ledger" (.helper (.ledgerOp "hook_session_context")),
      launch "tasks" (.helper (.ledgerOp "hook_task_context")),
      optional (launch "handoff" (.helper (.ledgerOp "hook_handoff_context"))),
      get "ledger", optional (get "handoff"),
      optional (steps
        [optional (seq (launch "scoped" (.helper .other)) (launch "fallback" (.helper .other))),
          get "tasks", get "soul", optional (seq (get "scoped") (optional (get "fallback"))),
          get "corrections", get "compliance", get "cache"])])))

/-- `compact_restore`: each query has a helper that runs `smart_context`. -/
def compactRestore : Handler :=
  helpers (steps
    [optional (launch "data" (.helper .other)), optional (launch "decision" (.helper .other)),
      optional (launch "session" (.helper .other)), optional (launch "goal" (.helper .other)),
      optional (get "data"), optional (get "decision"), optional (get "session"),
      optional (get "goal")])

/-- The operations with a body of their own, by their names. -/
def operations : List (String × Handler) :=
  [("session_touch", sessionTouch), ("stream_handoff", streamHandoff),
    ("stream_list", streamList), ("stream_release", streamRelease), ("stream_claim", streamClaim),
    ("capsule_get", within .capsule capsuleRows), ("capsule_manifest", within .capsule capsuleRows),
    ("capsule_save", within .capsule (steps [run, capsuleRows, run])),
    ("session_bind", sessionBind), ("hook_session_start", sessionStart),
    -- These call no tools but those without a mutex.
    ("hook_ancillary", skip), ("hook_apply", skip), ("hook_saddle", skip), ("hook_pre_tool", skip),
    ("hook_post_tool", skip), ("hook_pre_compact", skip),
    ("hook_compact_restore", compactRestore),
    ("hook_handoff_context", within .capsule capsuleRows),
    ("hook_task_context", seq run run), ("hook_session_context", skip),
    ("hook_handoff_prepare",
      within .capsule (seq (optional (seq run (optional run))) capsuleRows)),
    ("hook_stop_progress", skip), ("hook_stop_checkpoint", skip), ("hook_turn", skip)]

/-- What `tool_ledger_op` does behind its guard: other operations are those of the ledger. -/
def ledgerBody (op : String) : Handler :=
  match operations.find? fun operation => operation.1 == op with
  | some operation => operation.2
  | none => run

/-- `tool_ledger_op`. -/
def ledgerOp (op : String) : Handler := gate op (ledgerBody op)

/-- A tool; the session tools go through `tool_ledger_op`. -/
def call : Tool → Handler
  | .ledgerOp op => ledgerOp op
  | .sessionRegister => sessionRegister
  | .sessionHeartbeat => sessionHeartbeat
  | .sessionDeregister => sessionDeregister
  | .other => skip

/-! ## Threads -/

/-- `TaskLedger::is_read`. -/
def isRead (op : String) : Bool :=
  ["thread_get", "thread_list", "session_get", "session_list", "lease_list", "inbox_list",
    "artifact_list", "artifact_lineage", "counts", "hook_handoff_prepare", "hook_handoff_context",
    "hook_task_context", "hook_session_context", "hook_stop_checkpoint", "hook_stop_progress",
    "hook_post_tool", "hook_pre_compact", "hook_compact_restore", "hook_saddle", "hook_pre_tool",
    "hook_ancillary", "hook_session_start"].contains op

/-- The lock of a request of the ledger. -/
def requestHold : Tool → Hold
  | .ledgerOp op => if isRead op then .rpcShared else .rpcExclusive
  | _ => .rpcExclusive

/-- What a thread does; the lock of the handler may be switched off. -/
def program (globalLock : Bool) : Code → Handler
  | .request .other =>
    if globalLock then choice skip (choice (within .rpcShared skip) (within .rpcExclusive skip))
    else skip
  | .request tool => if globalLock then within (requestHold tool) (call tool) else call tool
  | .queue tool => if globalLock then within .rpcExclusive (call tool) else call tool
  | .helper tool => call tool

/-- The threads of the handler. -/
def system (globalLock : Bool) : System Hold Code where
  conflicts := conflicts
  recursive := isRecursive
  program := program globalLock

/-! ## The order of the mutexes -/

/-- The least rank of the locks of the helpers of a tool. -/
def reachOf : Tool → Nat
  | .ledgerOp op => if op = "hook_session_start" then 1 else 4
  | _ => 4

/-- The order; what waits for the helpers of a session start holds nothing but the lock of the
handler. -/
def order : Order Hold Code where
  rank
    | .rpcShared => 0
    | .rpcExclusive => 0
    | .stream => 1
    | .capsule => 2
    | .ledger => 3
  floor
    | .helper .other => 4
    | .helper _ => 1
    | _ => 0
  reach
    | .request tool => reachOf tool
    | .queue tool => reachOf tool
    | .helper tool => reachOf tool

/-- What a thread of the handler has when it calls a tool. -/
def outside : List (List Hold) := [[], [.rpcShared], [.rpcExclusive]]

/-- A program keeps to the order when it has the mutex of the streams, in every thread. -/
def FitsInside (body : Handler) : Prop :=
  ∀ globalLock, ∀ low ∈ [0, 1], ∀ held ∈ outside,
    body.fits (system globalLock) order low 4 (.stream :: held) = true

instance (body : Handler) : Decidable (FitsInside body) := by
  unfold FitsInside
  infer_instance

/-- Behind the guard, every operation keeps to the order. -/
theorem fitsInside_ledgerBody {op : String} (guarded : fansOut op = false) :
    FitsInside (ledgerBody op) := by
  have all : ∀ operation ∈ operations, fansOut operation.1 = false → FitsInside operation.2 := by
    decide
  unfold ledgerBody
  split
  · rename_i operation found
    have named : operation.1 = op := by simpa using List.find?_some found
    exact all operation (List.mem_of_find?_eq_some found) (named ▸ guarded)
  · decide

variable {globalLock : Bool} {low : Nat} {held : List Hold}

/-- An operation with a guard keeps to the order. -/
theorem fits_guarded {op : String} (guarded : fansOut op = false) (least : low ∈ [0, 1])
    (entered : held ∈ outside) :
    (ledgerOp op).fits (system globalLock) order low 4 held = true := by
  have taken : ∀ globalLock, ∀ held ∈ outside,
      mayTake (system globalLock) order held .stream = true := by
    decide
  have lower : ∀ low ∈ [0, 1], low ≤ order.rank .stream := by decide
  rw [ledgerOp, gate, guarded]
  simp only [Bool.false_eq_true, ↓reduceIte, Program.fits, Bool.and_eq_true, decide_eq_true_eq]
  exact ⟨⟨lower low least, taken globalLock held entered⟩,
    fitsInside_ledgerBody guarded globalLock low least held entered⟩

/-- The hook of a session start keeps to the order, with helpers that take the mutex of the
streams. -/
theorem fits_sessionStart : ∀ globalLock, ∀ low ∈ [0, 1], ∀ held ∈ outside,
    (ledgerOp "hook_session_start").fits (system globalLock) order low 1 held = true := by
  decide

-- With the guard around it, it would wait for helpers that take the mutex it has.
example : (within .stream (catching sessionStart)).fits (system true) order 0 1 [] = false := by
  decide

theorem fits_preCompact : ∀ globalLock, ∀ low ∈ [0, 1], ∀ held ∈ outside,
    (ledgerOp "hook_pre_compact").fits (system globalLock) order low 4 held = true := by
  decide

/-- Every tool keeps to the order. -/
theorem fits_call (tool : Tool) (least : low ∈ [0, 1]) (entered : held ∈ outside) :
    (call tool).fits (system globalLock) order low (reachOf tool) held = true := by
  cases tool with
  | ledgerOp op =>
    rw [call, reachOf]
    split
    · rename_i start
      rw [start]
      exact fits_sessionStart globalLock low least held entered
    · rename_i other
      cases fans : fansOut op with
      | false => exact fits_guarded fans least entered
      | true =>
        have compacts : op = "hook_pre_compact" := by simpa [fansOut, other] using fans
        rw [compacts]
        exact fits_preCompact globalLock low least held entered
  | sessionRegister =>
    have all : ∀ globalLock, ∀ low ∈ [0, 1], ∀ held ∈ outside,
        sessionRegister.fits (system globalLock) order low 4 held = true := by decide
    exact all globalLock low least held entered
  | sessionHeartbeat =>
    have all : ∀ globalLock, ∀ low ∈ [0, 1], ∀ held ∈ outside,
        sessionHeartbeat.fits (system globalLock) order low 4 held = true := by decide
    exact all globalLock low least held entered
  | sessionDeregister =>
    have all : ∀ globalLock, ∀ low ∈ [0, 1], ∀ held ∈ outside,
        sessionDeregister.fits (system globalLock) order low 4 held = true := by decide
    exact all globalLock low least held entered
  | other => rfl

/-- A tool is called with the lock of the handler. -/
theorem fits_locked {hold : Hold} (tool : Tool) (handler : [hold] ∈ outside)
    (lowest : order.rank hold = 0) :
    (within hold (call tool)).fits (system globalLock) order 0 (reachOf tool) [] = true := by
  have taken : mayTake (system globalLock) order [] hold = true := by simp [mayTake]
  simp only [Program.fits, lowest, taken, Nat.le_refl, decide_true, Bool.true_and]
  exact fits_call tool (by decide) handler

/-- So is one when that lock is switched off. -/
theorem fits_unlocked (tool : Tool) :
    (call tool).fits (system globalLock) order 0 (reachOf tool) [] = true :=
  fits_call tool (by decide) (by decide)

theorem fits_exclusive (tool : Tool) :
    (within .rpcExclusive (call tool)).fits (system globalLock) order 0 (reachOf tool) [] = true :=
  fits_locked tool (by decide) rfl

theorem fits_request (globalLock : Bool) (tool : Tool) :
    (program globalLock (.request tool)).fits (system globalLock) order 0 (reachOf tool) [] =
      true := by
  cases globalLock with
  | false =>
    cases tool with
    | other => rfl
    | _ => exact fits_unlocked _
  | true =>
    cases tool with
    | other => rfl
    | ledgerOp op =>
      show (within (requestHold (.ledgerOp op)) (call (.ledgerOp op))).fits (system true) order 0
        (reachOf (.ledgerOp op)) [] = true
      rw [requestHold]
      split
      · exact fits_locked _ (by decide) rfl
      · exact fits_exclusive _
    | _ => exact fits_exclusive _

theorem fits_helper (tool : Tool) :
    (call tool).fits (system globalLock) order (order.floor (.helper tool)) (reachOf tool) [] =
      true := by
  have least : 1 ∈ [0, 1] := by decide
  have entered : [] ∈ outside := by decide
  cases tool with
  | other => rfl
  | _ => exact fits_call _ least entered

/-- The threads of the handler keep to the order. -/
theorem ordered (globalLock : Bool) : Ordered (system globalLock) order where
  symmetric one two := by cases one <;> cases two <;> simp [system, conflicts]
  level one two := by cases one <;> cases two <;> simp [system, conflicts, order]
  bounded := ⟨4, fun hold => by cases hold <;> decide⟩
  fits
    | .request tool => fits_request globalLock tool
    | .queue tool => by
      cases globalLock with
      | false => exact fits_unlocked tool
      | true => exact fits_exclusive tool
    | .helper tool => fits_helper tool

/-- No threads of the handler are deadlocked: none waits for a mutex that another one of them has,
or for a helper, in any order of their steps. -/
theorem no_deadlock (globalLock : Bool) {threads : Threads Hold Code}
    (reachable : Reachable (system globalLock) threads) :
    ¬ Deadlocked (system globalLock) threads :=
  reachable.not_deadlocked (ordered globalLock)

/-- A request that counts the rows of the ledger. -/
def countsRun : List (Action Hold Code) :=
  [.take .rpcShared, .take .stream, .take .capsule, .take .ledger, .drop .ledger, .drop .capsule,
    .drop .stream, .drop .rpcShared]

theorem runs_countsRun : Runs (program true (.request (.ledgerOp "counts"))) countsRun true :=
  .within (.within (.catching (.within (.within .skip))))

/-- Two such requests, of which the first has the mutex of the streams. -/
def countsPair : Threads Hold Code :=
  [⟨.request (.ledgerOp "counts"), countsRun.drop 2, [.stream, .rpcShared], []⟩,
    ⟨.request (.ledgerOp "counts"), countsRun.drop 1, [.rpcShared], []⟩]

/-- A mutex that conflicts with none is taken. -/
theorem takes (threads : Threads Hold Code) (i : Nat) (thread : Thread Hold Code) (hold : Hold)
    (rest : List (Action Hold Code)) (found : threads[i]? = some thread)
    (action : thread.rest = .take hold :: rest)
    (free : ∀ thread ∈ threads, ∀ held ∈ thread.held, conflicts hold held = false) :
    Step (system true) threads
      (threads.set i { thread with rest := rest, held := hold :: thread.held }) :=
  .take found action (free_of_no_conflict (system true) free i)

theorem reachable_countsPair : Reachable (system true) countsPair := by
  have arrives (threads : Threads Hold Code) : Step (system true) threads
      (threads ++ [Thread.start (.request (.ledgerOp "counts")) countsRun]) :=
    .arrive runs_countsRun
  let code : Code := .request (.ledgerOp "counts")
  let starts := Thread.start code countsRun
  let opened : Thread Hold Code := ⟨code, countsRun.drop 1, [.rpcShared], []⟩
  let inside : Thread Hold Code := ⟨code, countsRun.drop 2, [.stream, .rpcShared], []⟩
  have arrived : Reachable (system true) [starts, starts] :=
    (Reachable.start.step (arrives [])).step (arrives [starts])
  have first : Reachable (system true) [opened, starts] :=
    arrived.step (takes [starts, starts] 0 starts .rpcShared _ rfl rfl (by decide))
  have second : Reachable (system true) [inside, starts] :=
    first.step (takes [opened, starts] 0 opened .stream _ rfl rfl (by decide))
  exact second.step (takes [inside, starts] 1 starts .rpcShared _ rfl rfl (by decide))

/-- The second request waits for the first, and that is no deadlock. -/
theorem no_deadlock_pair :
    Waits (system true) countsPair 1 0 ∧ ¬ Deadlocked (system true) countsPair :=
  ⟨.lock rfl rfl ⟨fun same => by contradiction, _, rfl, .stream, by decide, rfl⟩,
    no_deadlock true reachable_countsPair⟩

end Chitta.Locking
