/-!
# Locks on files

A path leads to a file, and a lock is on the file, not on its path: a process that opens the path
when nothing is there makes a new file, whose lock is free. A lock is taken at once or not at all;
the process that holds it may take it again. When a process closes the file or ends, its locks are
free.
-/
namespace Chitta.RecordLocks

/-- A path, the files that it led to and their locks. -/
structure Disk (Pid : Type) where
  /-- The file that the path leads to. -/
  file : Option Nat
  /-- The number of files that were made. -/
  made : Nat
  /-- The process that holds the lock on a file. -/
  holder : Nat → Option Pid

variable {Pid : Type} [DecidableEq Pid] (disk : Disk Pid) (pid : Pid)

/-- Nothing is at the path. -/
def Disk.empty : Disk Pid := ⟨none, 0, fun _ => none⟩

/-- `open` with `O_CREAT`: the file, and what is on the disk. -/
def Disk.openFile : Nat × Disk Pid :=
  match disk.file with
  | some file => (file, disk)
  | none => (disk.made, { disk with file := some disk.made, made := disk.made + 1 })

/-- `F_SETLK`: what is on the disk if the lock is taken. -/
def Disk.lock (file : Nat) : Option (Disk Pid) :=
  if disk.holder file = none ∨ disk.holder file = some pid then
    some { disk with holder := fun other => if other = file then some pid else disk.holder other }
  else none

/-- A process closes the file or ends. -/
def Disk.release : Disk Pid :=
  { disk with holder := fun file => if disk.holder file = some pid then none else disk.holder file }

variable {disk pid} {file other : Nat} {next : Disk Pid}

omit [DecidableEq Pid] in
/-- What is opened is at the path, and no lock is touched. -/
theorem Disk.openFile_spec (disk : Disk Pid) : disk.openFile.2.file = some disk.openFile.1 ∧
    disk.openFile.2.holder = disk.holder ∧
    ∀ file, disk.file = some file → disk.openFile.1 = file := by
  rw [Disk.openFile]
  cases found : disk.file with
  | none =>
    refine ⟨rfl, rfl, fun file there => ?_⟩
    contradiction
  | some file => exact ⟨found, rfl, fun other there => Option.some.inj there⟩

/-- A lock that is taken was free or the own one, and only it changes hands. -/
theorem Disk.lock_some (taken : disk.lock pid file = some next) :
    (disk.holder file = none ∨ disk.holder file = some pid) ∧ next.file = disk.file ∧
      next.holder = fun other => if other = file then some pid else disk.holder other := by
  rw [Disk.lock] at taken
  split at taken
  · obtain rfl := Option.some.inj taken
    exact ⟨‹_›, rfl, rfl⟩
  · contradiction

/-- A lock that is refused is another process's. -/
theorem Disk.lock_none (refused : disk.lock pid file = none) :
    ∃ owner, disk.holder file = some owner ∧ owner ≠ pid := by
  rw [Disk.lock] at refused
  split at refused
  · contradiction
  · rename_i held
    rw [not_or] at held
    cases found : disk.holder file with
    | none => exact absurd found held.1
    | some owner => exact ⟨owner, rfl, fun same => held.2 (found.trans (congrArg some same))⟩

/-- The locks that are left are those of the others. -/
theorem Disk.release_holder {owner : Pid} :
    (disk.release pid).holder file = some owner ↔ disk.holder file = some owner ∧ owner ≠ pid := by
  show (if disk.holder file = some pid then none else disk.holder file) = some owner ↔ _
  constructor
  · intro held
    split at held
    · contradiction
    · rename_i other
      exact ⟨held, fun same => other (held.trans (congrArg some same))⟩
  · rintro ⟨held, other⟩
    rw [if_neg, held]
    exact fun same => other (Option.some.inj (held.symm.trans same))

end Chitta.RecordLocks
