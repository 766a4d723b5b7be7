import Mathlib.Data.List.Nodup
import Chitta.Ledger.Atomicity

/-!
# The journal

Whatever operations run and whichever of their batches the journal refuses, the batches that it
accepts are numbered from one on, and a daemon that loads them, in whatever order they come,
has the ledger that was lost.
-/
namespace Chitta.Ledger

/-- A call of `run`. -/
structure Call where
  /-- The operation. -/
  op : String
  /-- Its arguments. -/
  a : Json
  /-- The time. -/
  ts : Rat
  /-- The journal, with the exception it throws. -/
  persist : Batch → Option Thrown

/-- The batches that the journal accepted during a run. -/
def Ran.accepted (ran : Ran) (persist : Batch → Option Thrown) : List Batch :=
  ran.persisted.filter fun batch => (persist batch).isNone

/-- One call after the other: the ledger afterwards and the accepted batches in order. -/
def runAll (library : Library) : TaskLedger → List Call → TaskLedger × List Batch
  | ledger, [] => (ledger, [])
  | ledger, call :: rest =>
    let ran := run library ledger call.op call.a call.ts call.persist
    let (last, batches) := runAll library ran.ledger rest
    (last, ran.accepted call.persist ++ batches)

/-- The replays of `load_task_ledger`, up to the first exception. -/
def replayAll (library : Library) : TaskLedger → List Batch → TaskLedger × Option Thrown
  | ledger, [] => (ledger, none)
  | ledger, batch :: rest =>
    match replayLocked library ledger batch with
    | (after, some thrown) => (after, some thrown)
    | (after, none) => replayAll library after rest

/-- `load_task_ledger`: the batches are sorted by their revisions and replayed. -/
def loadTaskLedger (library : Library) (events : List Batch) : TaskLedger × Option Thrown :=
  replayAll library .fresh (events.insertionSort fun x y => x.revision ≤ y.revision)

variable {library : Library} {ledger : TaskLedger}

/-! ## The order of the batches -/

/-- Batches with consecutive revisions are in the order of their revisions. -/
theorem pairwise_of_revisions {batches : List Batch} {first : Nat}
    (numbered : batches.map (·.revision) = List.range' first batches.length) :
    batches.Pairwise fun x y => x.revision ≤ y.revision := by
  have increasing : (batches.map (·.revision)).Pairwise (· ≤ ·) := by
    rw [numbered]
    exact (List.pairwise_lt_range' ..).imp Nat.le_of_lt
  exact List.pairwise_map.mp increasing

/-- Sorting restores the order of batches with consecutive revisions. -/
theorem sorted_of_revisions {batches events : List Batch} {first : Nat}
    (numbered : batches.map (·.revision) = List.range' first batches.length)
    (same : events.Perm batches) :
    events.insertionSort (fun x y => x.revision ≤ y.revision) = batches := by
  have distinct : (batches.map (·.revision)).Nodup := by
    rw [numbered]
    exact List.nodup_range'
  have back := (List.perm_insertionSort (fun x y : Batch => x.revision ≤ y.revision) events)
  refine List.Perm.eq_of_pairwise ?_ (List.pairwise_insertionSort _ events)
    (pairwise_of_revisions numbered) (back.trans same)
  intro x y left right below above
  have inside : x ∈ batches := (back.trans same).mem_iff.mp left
  exact List.inj_on_of_nodup_map distinct inside right (Nat.le_antisymm below above)

/-! ## Live and replayed ledgers -/

/-- The rows of a batch leave the revision alone. -/
theorem revision_replayChanges (library : Library) (ledger : TaskLedger) (changes : List Change) :
    (replayChanges library ledger changes).1.revision = ledger.revision := by
  induction changes generalizing ledger with
  | nil => rfl
  | cons staged rest ih =>
    simp only [replayChanges]
    split
    · rfl
    · rename_i row _
      have kept : (ledger.put library staged.table staged.id row).1.revision =
        ledger.revision := rfl
      split
      · rename_i done
        rwa [done] at kept
      · rename_i done
        rw [done] at kept
        exact (ih _).trans kept

/-- A replay moves the revision up to that of the batch. -/
theorem revision_replayLocked {batch : Batch} {after : TaskLedger}
    (replayed : replayLocked library ledger batch = (after, none))
    (behind : ledger.revision ≤ batch.revision) : after.revision = batch.revision := by
  have kept := revision_replayChanges library ledger batch.changes
  unfold replayLocked at replayed
  split at replayed
  · simp at replayed
  · rename_i middle done
    rw [done] at kept
    obtain ⟨rfl, _⟩ := Prod.mk.inj replayed
    show max middle.revision batch.revision = batch.revision
    rw [kept]
    exact Nat.max_eq_right behind

/-- Replaying the batches that a run of calls had accepted repeats the run. -/
theorem replayAll_runAll (library : Library) (sound : ledger.Sound) (calls : List Call) :
    let (last, batches) := runAll library ledger calls
    batches.map (·.revision) = List.range' (ledger.revision + 1) batches.length ∧
      replayAll library ledger batches = (last, none) := by
  induction calls generalizing ledger with
  | nil => exact ⟨rfl, rfl⟩
  | cons call rest ih =>
    have kept := sound.run library call.op call.a call.ts call.persist
    have outcome := sound.outcome library call.op call.a call.ts call.persist
    simp only [runAll]
    generalize run library ledger call.op call.a call.ts call.persist = ran at outcome kept
    have later := ih kept
    cases outcome with
    | unchanged ran same refused _ =>
      have none_accepted : ran.accepted call.persist = [] := by
        simpa [Ran.accepted, List.filter_eq_nil_iff, Option.isSome_iff_ne_none] using refused
      rw [same] at later
      simpa only [none_accepted, same, List.nil_append] using later
    | published changes value _ accepted after replayed =>
      have revision := revision_replayLocked replayed (Nat.le_succ _)
      simp only at later
      simp only [Ran.accepted, List.filter_cons, accepted, Option.isNone_none, if_true,
        List.filter_nil, List.singleton_append, List.map_cons, List.length_cons,
        List.range'_succ, replayAll, replayed]
      rw [revision] at later
      exact ⟨congrArg _ later.1, later.2⟩

/-- The accepted batches of calls on an empty ledger are numbered from one on, and loading them
in any order gives the ledger that the calls left. -/
theorem journal_refines (library : Library) (calls : List Call) :
    let (live, accepted) := runAll library .fresh calls
    accepted.map (·.revision) = List.range' 1 accepted.length ∧
      ∀ events, events.Perm accepted → loadTaskLedger library events = (live, none) := by
  have repeated := replayAll_runAll library sound_fresh calls
  refine ⟨repeated.1, ?_⟩
  intro events same
  unfold loadTaskLedger
  rw [sorted_of_revisions repeated.1 same]
  exact repeated.2

/-- A thread whose first batch the journal refuses, the thread again, and a session on it. -/
def refusedThenAccepted : List Call :=
  [⟨"thread_create", threadArguments, 1, fun _ => some (.runtimeError "ledger WAL append failed")⟩,
    ⟨"thread_create", threadArguments, 2, fun _ => none⟩,
    ⟨"session_bind", .object [("session_id", .str "s-1"), ("thread_id", .str "t-1")], 3,
      fun _ => none⟩]

/-- Two batches are accepted, and loading the later one first gives the same ledger. -/
theorem journal_refines_refused :
    (runAll (plainLibrary [.obj []]) .fresh refusedThenAccepted).2.length = 2 ∧
      loadTaskLedger (plainLibrary [.obj []])
        (runAll (plainLibrary [.obj []]) .fresh refusedThenAccepted).2.reverse =
        ((runAll (plainLibrary [.obj []]) .fresh refusedThenAccepted).1, none) := by
  constructor
  · decide +kernel
  · exact (journal_refines (plainLibrary [.obj []]) refusedThenAccepted).2 _
      (List.reverse_perm _)

end Chitta.Ledger
