import Chitta.Machine
import Chitta.RecordLocks

/-!
# The life of a daemon

Any number of processes are started as the daemon of one mind. Each cleans up behind a dead daemon,
takes the lock, binds the socket, loads the store and serves; to stop, it removes its files, gives
the lock back and only then waits for its threads. Every step of a process may be followed by steps
of all others, a process may die anywhere, and a number of a dead process may be used again. What a
process finds out about another one, and whether a call of the system fails, is open. The lock file
is never removed, so all processes lock the same file.
-/
namespace Chitta.Daemon.Lifecycle

open RecordLocks

/-- The number of a process. -/
abbrev Pid := Nat

/-- Where a process is. -/
inductive Pc where
  /-- It does not run. -/
  | off
  /-- `cleanup_stale_daemon`: before the PID file is read. -/
  | reading
  /-- Before `is_pid_alive`. -/
  | judging (oldPid : Pid)
  /-- Before `socket_responds`. -/
  | probing (oldPid : Pid)
  /-- Before `SIGKILL`. -/
  | killing (oldPid : Pid)
  /-- Before the socket is removed. -/
  | cleaningSocket
  /-- Before the PID file is removed. -/
  | cleaningPid
  /-- `acquire_lock`: before `open`. -/
  | opening
  /-- Before `F_SETLK`. -/
  | locking (fd : Nat)
  /-- `create_socket`: before an old socket is removed. -/
  | removing (fd : Nat)
  /-- Before `bind`. -/
  | binding (fd : Nat)
  /-- The store is loaded; before the PID file is written. -/
  | loading (fd : Nat)
  /-- Requests are served. -/
  | serving (fd : Nat)
  /-- The daemon stops: before the socket is removed. -/
  | closing (fd : Nat)
  /-- Before the PID file is removed. -/
  | removingPid (fd : Nat)
  /-- Before `release_lock`. -/
  | releasing (fd : Nat)
  /-- The threads are waited for. -/
  | joining
  /-- Before the destructor of the server removes the socket. -/
  | destroying
deriving DecidableEq

/-- The file behind the descriptor of a lock that is held. -/
def Pc.held : Pc → Option Nat
  | .removing fd | .binding fd | .loading fd | .serving fd | .closing fd | .removingPid fd
  | .releasing fd => some fd
  | _ => none

/-- The file behind a descriptor. -/
def Pc.fd : Pc → Option Nat
  | .locking fd => some fd
  | pc => pc.held

/-- A process works on the store: its threads may write. -/
def Pc.working : Pc → Bool
  | .loading _ | .serving _ | .closing _ | .removingPid _ | .releasing _ | .joining => true
  | _ => false

/-- The processes and the files of a mind. -/
structure World where
  /-- Where each process is. -/
  pc : Pid → Pc
  /-- The lock file. -/
  disk : Disk Pid
  /-- The process that the PID file names. -/
  pidFile : Option Pid
  /-- The process whose socket is at the path. -/
  socket : Option Pid

/-- A process goes on. -/
def World.goto (world : World) (pid : Pid) (pc : Pc) : World :=
  { world with pc := fun other => if other = pid then pc else world.pc other }

/-- A process ends: its locks are free. -/
def World.exit (world : World) (pid : Pid) : World :=
  { world.goto pid .off with disk := world.disk.release pid }

/-- The next step of a process; `yes` is what it finds out, or that a call succeeds. -/
def advance (world : World) (pid : Pid) (yes : Bool) : Pc → Option World
  | .off => none
  | .reading =>
    match world.pidFile with
    | some oldPid => some (world.goto pid (if yes then .judging oldPid else .opening))
    | none => some (world.goto pid .opening)
  | .judging oldPid => some (world.goto pid (if yes then .probing oldPid else .cleaningSocket))
  | .probing oldPid => some (if yes then world.exit pid else world.goto pid (.killing oldPid))
  -- the signal may take its time, so the process goes on in either case
  | .killing oldPid => some (
      if !yes then world.goto pid .cleaningSocket
      else if oldPid = pid then world.exit pid
      else (world.exit oldPid).goto pid .cleaningSocket)
  | .cleaningSocket => some ({ world with socket := none }.goto pid .cleaningPid)
  | .cleaningPid => some ({ world with pidFile := none }.goto pid .opening)
  | .opening => some (
      if yes then { world with disk := world.disk.openFile.2 }.goto pid
        (.locking world.disk.openFile.1)
      else world.exit pid)
  | .locking fd =>
    match world.disk.lock pid fd with
    | some disk => some ({ world with disk }.goto pid (.removing fd))
    | none => some (world.exit pid)
  | .removing fd => some (
      if yes then { world with socket := none }.goto pid (.binding fd) else world.exit pid)
  | .binding fd => some (
      if yes then { world with socket := some pid }.goto pid (.loading fd) else world.exit pid)
  | .loading fd => some ({ world with pidFile := some pid }.goto pid (.serving fd))
  | .serving fd => some (world.goto pid (.closing fd))
  | .closing fd => some ({ world with socket := none }.goto pid (.removingPid fd))
  | .removingPid fd => some ({ world with pidFile := none }.goto pid (.releasing fd))
  | .releasing _ => some ({ world with disk := world.disk.release pid }.goto pid .joining)
  | .joining => some (world.goto pid .destroying)
  | .destroying => some ({ world with socket := none }.exit pid)

/-- What happens. -/
inductive Action where
  /-- A process is started. -/
  | start (pid : Pid)
  /-- A process takes its next step. -/
  | go (pid : Pid) (yes : Bool)
  /-- A process crashes or is killed. -/
  | die (pid : Pid)

/-- The processes of a mind. -/
def system : Machine World Action where
  initial := ⟨fun _ => .off, .empty, none, none⟩
  step world action :=
    match action with
    | .start pid => if world.pc pid = .off then some (world.goto pid .reading) else none
    | .go pid yes => advance world pid yes (world.pc pid)
    | .die pid => some (world.exit pid)

/-! ## The invariant -/

/-- What holds at every moment: descriptors are of the file at the path, and the lock on a file is
held by the process that is between taking it and giving it back. -/
structure Invariant (world : World) : Prop where
  /-- A descriptor is of the file at the path. -/
  opened : ∀ pid fd, (world.pc pid).fd = some fd → world.disk.file = some fd
  /-- The lock of a file belongs to the process that holds it. -/
  holder : ∀ pid fd, world.disk.holder fd = some pid ↔ (world.pc pid).held = some fd

variable {world next : World} {pid : Pid} {pc : Pc}

/-- Where the processes are after a step of one. -/
theorem World.goto_pc (world : World) (pid other : Pid) (pc : Pc) :
    (world.goto pid pc).pc other = if other = pid then pc else world.pc other := rfl

/-- A descriptor of a lock that is held is a descriptor. -/
theorem Pc.fd_of_held {fd : Nat} (held : pc.held = some fd) : pc.fd = some fd := by
  cases pc <;> first | exact held | contradiction

/-- A process that keeps its lock and its file goes on. -/
theorem Invariant.goto (invariant : Invariant world) (held : pc.held = (world.pc pid).held)
    (file : ∀ fd, pc.fd = some fd → world.disk.file = some fd) :
    Invariant (world.goto pid pc) := by
  constructor
  · intro other fd opened
    rw [World.goto_pc] at opened
    split at opened
    · exact file fd opened
    · exact invariant.opened other fd opened
  · intro other fd
    rw [World.goto_pc]
    split
    · rename_i same
      rw [held, ← same]
      exact invariant.holder other fd
    · exact invariant.holder other fd

/-- A process between its calls goes on with the same file. -/
theorem Invariant.goto_same (invariant : Invariant world) (held : pc.held = (world.pc pid).held)
    (file : pc.fd = (world.pc pid).fd) : Invariant (world.goto pid pc) :=
  invariant.goto held fun fd opened => invariant.opened pid fd (file ▸ opened)

/-- A process that gives its lock back goes on without it. -/
theorem Invariant.goto_release (invariant : Invariant world) (closed : pc.fd = none) :
    Invariant ({ world with disk := world.disk.release pid }.goto pid pc) := by
  have free : pc.held = none := by
    cases held : pc.held with
    | none => rfl
    | some fd => exact absurd (closed ▸ Pc.fd_of_held held) (Option.some_ne_none fd).symm
  constructor
  · intro other fd opened
    rw [World.goto_pc] at opened
    split at opened
    · rw [closed] at opened
      contradiction
    · exact invariant.opened other fd opened
  · intro other fd
    show (world.disk.release pid).holder fd = some other ↔
      (if other = pid then pc else world.pc other).held = some fd
    rw [Disk.release_holder]
    split
    · rename_i same
      rw [free]
      constructor
      · rintro ⟨-, apart⟩
        exact absurd same apart
      · intro held
        contradiction
    · rename_i apart
      rw [invariant.holder other fd]
      exact and_iff_left apart

/-- A process that ends leaves no lock. -/
theorem Invariant.exit (invariant : Invariant world) (pid : Pid) : Invariant (world.exit pid) :=
  invariant.goto_release rfl

/-- A process that opens the lock file gets the file that the others have. -/
theorem Invariant.open (invariant : Invariant world) (before : world.pc pid = .opening) :
    Invariant ({ world with disk := world.disk.openFile.2 }.goto pid
      (.locking world.disk.openFile.1)) := by
  obtain ⟨path, locks, same⟩ := Disk.openFile_spec world.disk
  constructor
  · intro other fd opened
    rw [World.goto_pc] at opened
    split at opened
    · obtain rfl := Option.some.inj opened
      exact path
    · have there := same fd (invariant.opened other fd opened)
      exact path.trans (congrArg some there)
  · intro other fd
    show world.disk.openFile.2.holder fd = some other ↔
      (if other = pid then Pc.locking world.disk.openFile.1 else world.pc other).held = some fd
    rw [locks, invariant.holder other fd]
    split
    · rename_i own
      rw [own, before]
      rfl
    · rfl

/-- A process takes the lock. -/
theorem Invariant.lock (invariant : Invariant world) {fd : Nat} {disk : Disk Pid}
    (before : world.pc pid = .locking fd) (taken : world.disk.lock pid fd = some disk) :
    Invariant ({ world with disk }.goto pid (.removing fd)) := by
  obtain ⟨free, path, locks⟩ := Disk.lock_some taken
  have file : world.disk.file = some fd := invariant.opened pid fd (by rw [before]; rfl)
  have unheld : world.disk.holder fd = none := by
    refine free.resolve_right fun own => ?_
    have held := (invariant.holder pid fd).mp own
    rw [before] at held
    contradiction
  constructor
  · intro other place opened
    show disk.file = some place
    rw [path]
    rw [World.goto_pc] at opened
    split at opened
    · exact Option.some.inj opened ▸ file
    · exact invariant.opened other place opened
  · intro other place
    show disk.holder place = some other ↔
      (if other = pid then Pc.removing fd else world.pc other).held = some place
    rw [locks]
    dsimp only
    split
    · rename_i here
      split
      · rename_i own
        rw [here, own]
        exact iff_of_true rfl rfl
      · rename_i apart
        refine iff_of_false (fun same => apart (Option.some.inj same).symm) fun held => ?_
        have owned := (invariant.holder other place).mpr held
        rw [here, unheld] at owned
        contradiction
    · rename_i elsewhere
      rw [invariant.holder other place]
      split
      · rename_i own
        rw [own, before]
        refine iff_of_false (fun held => ?_) fun held => elsewhere (Option.some.inj held).symm
        contradiction
      · rfl

/-- A process that has nothing, neither before nor after its step. -/
theorem Invariant.goto_free (invariant : Invariant world) (before : (world.pc pid).held = none)
    (after : pc.fd = none) : Invariant (world.goto pid pc) := by
  have free : pc.held = none := by
    cases held : pc.held with
    | none => rfl
    | some fd => exact absurd (after ▸ Pc.fd_of_held held) (Option.some_ne_none fd).symm
  refine invariant.goto (free.trans before.symm) fun fd opened => ?_
  rw [after] at opened
  contradiction

/-- The files of the PID and of the socket do not matter. -/
theorem Invariant.files (invariant : Invariant world) (pidFile socket : Option Pid) :
    Invariant { world with pidFile, socket } :=
  ⟨invariant.opened, invariant.holder⟩

/-- A step of a process keeps the invariant. -/
theorem Invariant.advance (invariant : Invariant world) {yes : Bool}
    (taken : advance world pid yes (world.pc pid) = some next) : Invariant next := by
  revert taken
  generalize before : world.pc pid = pc
  intro taken
  have held : (world.pc pid).held = pc.held := congrArg Pc.held before
  have file : (world.pc pid).fd = pc.fd := congrArg Pc.fd before
  cases pc with
  | off => contradiction
  | reading =>
    rw [Lifecycle.advance] at taken
    split at taken
    · obtain rfl := Option.some.inj taken
      cases yes <;> exact invariant.goto_free held rfl
    · obtain rfl := Option.some.inj taken
      exact invariant.goto_free held rfl
  | judging oldPid =>
    obtain rfl := Option.some.inj taken
    cases yes <;> exact invariant.goto_free held rfl
  | probing oldPid =>
    obtain rfl := Option.some.inj taken
    cases yes with
    | true => exact invariant.exit pid
    | false => exact invariant.goto_free held rfl
  | killing oldPid =>
    obtain rfl := Option.some.inj taken
    cases yes with
    | false => exact invariant.goto_free held rfl
    | true =>
      by_cases self : oldPid = pid
      · simp only [Bool.not_true, Bool.false_eq_true, if_false, if_pos self]
        exact invariant.exit pid
      · simp only [Bool.not_true, Bool.false_eq_true, if_false, if_neg self]
        refine (invariant.exit oldPid).goto_free ?_ rfl
        show (if pid = oldPid then Pc.off else world.pc pid).held = none
        rw [if_neg fun same => self same.symm]
        exact held
  | cleaningSocket =>
    obtain rfl := Option.some.inj taken
    exact (invariant.files world.pidFile none).goto_free held rfl
  | cleaningPid =>
    obtain rfl := Option.some.inj taken
    exact (invariant.files none world.socket).goto_free held rfl
  | opening =>
    obtain rfl := Option.some.inj taken
    cases yes with
    | true => exact invariant.open before
    | false => exact invariant.exit pid
  | locking fd =>
    rw [Lifecycle.advance] at taken
    split at taken
    · rename_i disk locked
      obtain rfl := Option.some.inj taken
      exact invariant.lock before locked
    · obtain rfl := Option.some.inj taken
      exact invariant.exit pid
  | removing fd =>
    obtain rfl := Option.some.inj taken
    cases yes with
    | true => exact (invariant.files world.pidFile none).goto_same held.symm file.symm
    | false => exact invariant.exit pid
  | binding fd =>
    obtain rfl := Option.some.inj taken
    cases yes with
    | true => exact (invariant.files world.pidFile (some pid)).goto_same held.symm file.symm
    | false => exact invariant.exit pid
  | loading fd =>
    obtain rfl := Option.some.inj taken
    exact (invariant.files (some pid) world.socket).goto_same held.symm file.symm
  | serving fd =>
    obtain rfl := Option.some.inj taken
    exact invariant.goto_same held.symm file.symm
  | closing fd =>
    obtain rfl := Option.some.inj taken
    exact (invariant.files world.pidFile none).goto_same held.symm file.symm
  | removingPid fd =>
    obtain rfl := Option.some.inj taken
    exact (invariant.files none world.socket).goto_same held.symm file.symm
  | releasing fd =>
    obtain rfl := Option.some.inj taken
    exact invariant.goto_release rfl
  | joining =>
    obtain rfl := Option.some.inj taken
    exact invariant.goto_free held rfl
  | destroying =>
    obtain rfl := Option.some.inj taken
    exact (invariant.files world.pidFile none).exit pid

/-- The invariant holds in every run. -/
theorem invariant_of_reachable (reached : system.Reachable world) : Invariant world := by
  refine reached.invariant ?_ ?_
  · constructor
    · intro pid fd opened
      contradiction
    · intro pid fd
      refine iff_of_false (fun held => ?_) fun held => ?_ <;> contradiction
  · intro world action next invariant _ taken
    cases action with
    | start pid =>
      replace taken : (if world.pc pid = .off then some (world.goto pid .reading) else none) =
        some next := taken
      split at taken
      · rename_i before
        obtain rfl := Option.some.inj taken
        exact invariant.goto_free (congrArg Pc.held before) rfl
      · contradiction
    | go pid yes => exact invariant.advance taken
    | die pid =>
      obtain rfl := Option.some.inj taken
      exact invariant.exit pid

/-! ## One daemon at a time -/

/-- A process that works on the store holds the lock or has given it back. -/
theorem Pc.held_of_working (working : pc.working = true) : pc.held ≠ none ∨ pc = .joining := by
  cases pc <;> first | contradiction | exact .inl (Option.some_ne_none _) | exact .inr rfl

/-- One daemon at a time, as far as the lock reaches. -/
structure Exclusive (world : World) : Prop where
  /-- At most one process is between taking the lock and giving it back. -/
  alone : ∀ first second, (world.pc first).held ≠ none → (world.pc second).held ≠ none →
    first = second
  /-- Of two processes that work on the store one has given the lock back and waits for its
  threads. -/
  working : ∀ first second, first ≠ second → (world.pc first).working = true →
    (world.pc second).working = true → world.pc first = .joining ∨ world.pc second = .joining
  /-- Whoever is refused the lock is refused it because another process has it. -/
  refused : ∀ pid fd, world.disk.lock pid fd = none →
    ∃ owner, owner ≠ pid ∧ (world.pc owner).held = some fd

/-- In every interleaving of starts, stops, crashes and kills one daemon has the lock at a time. -/
theorem one_daemon (reached : system.Reachable world) : Exclusive world := by
  have invariant := invariant_of_reachable reached
  have alone : ∀ first second, (world.pc first).held ≠ none → (world.pc second).held ≠ none →
      first = second := by
    intro first second here there
    obtain ⟨fd, held⟩ := Option.ne_none_iff_exists'.mp here
    obtain ⟨other, owned⟩ := Option.ne_none_iff_exists'.mp there
    have path := invariant.opened first fd (Pc.fd_of_held held)
    have same := invariant.opened second other (Pc.fd_of_held owned)
    obtain rfl := Option.some.inj (path.symm.trans same)
    have mine := (invariant.holder first fd).mpr held
    have yours := (invariant.holder second fd).mpr owned
    exact Option.some.inj (mine.symm.trans yours)
  refine ⟨alone, ?_, ?_⟩
  · intro first second apart here there
    rcases Pc.held_of_working here with held | gone
    · refine .inr ((Pc.held_of_working there).resolve_left fun owned => ?_)
      exact apart (alone first second held owned)
    · exact .inl gone
  · intro pid fd refused
    obtain ⟨owner, held, other⟩ := Disk.lock_none refused
    exact ⟨owner, other, (invariant.holder owner fd).mp held⟩

/-- A process takes a number of steps. -/
def steps (pid : Pid) (count : Nat) : List Action := List.replicate count (.go pid true)

/-- A daemon stops, and another one loads the store while the threads of the first still run. -/
theorem one_daemon_handover : ∃ world,
    system.run system.initial (.start 1 :: steps 1 10 ++ .start 2 :: steps 2 5) = some world ∧
    world.pc 1 = .joining ∧ world.pc 2 = .loading 0 ∧ Exclusive world :=
  ⟨_, rfl, rfl, rfl,
    one_daemon (.of_run (.start 1 :: steps 1 10 ++ .start 2 :: steps 2 5) .initial rfl)⟩

end Chitta.Daemon.Lifecycle
