import Mathlib.Data.Set.Basic

/-!
# Threads that take locks, start helpers and wait for them

A program is seen as far as other threads see it: which locks it takes and gives back, which helpers
it starts and which of them it waits for. What else it computes decides between its runs and where
it throws. When the locks have ranks, when a program takes its locks in the order of the ranks, and
when it waits for a helper only below the locks that the helper takes, no set of threads is
deadlocked.
-/
namespace Chitta.Locks

/-- What a thread does to others. -/
inductive Action (Hold Code : Type) where
  /-- A lock is taken in some mode. -/
  | take (hold : Hold)
  /-- A lock is given back. -/
  | drop (hold : Hold)
  /-- A helper is started under a name. -/
  | launch (name : String) (code : Code)
  /-- The helpers of a name are waited for. -/
  | wait (name : String)

/-- A program. -/
inductive Program (Hold Code : Type) where
  /-- Nothing that others see. -/
  | skip
  /-- One after the other. -/
  | seq (first second : Program Hold Code)
  /-- Either of both. -/
  | choice (left right : Program Hold Code)
  /-- Any number of times. -/
  | loop (body : Program Hold Code)
  /-- The scope of a guard. -/
  | within (hold : Hold) (body : Program Hold Code)
  /-- A helper is started. -/
  | launch (name : String) (code : Code)
  /-- A helper is waited for; its exception is thrown again. -/
  | get (name : String)
  /-- The scope of helpers, which ends when they have. -/
  | helpers (body : Program Hold Code)
  /-- Exceptions end here. -/
  | catching (body : Program Hold Code)

variable {Hold Code : Type}

/-- The program may be left out. -/
def Program.optional (program : Program Hold Code) : Program Hold Code := choice program skip

/-- Programs, one after the other. -/
def Program.steps (programs : List (Program Hold Code)) : Program Hold Code :=
  programs.foldr seq skip

/-- The names under which helpers were started. -/
def launched : List (Action Hold Code) → List String
  | [] => []
  | .launch name _ :: rest => name :: launched rest
  | _ :: rest => launched rest

/-- The runs of a program; the flag tells whether a run returns and does not throw. -/
inductive Runs : Program Hold Code → List (Action Hold Code) → Bool → Prop where
  /-- A program throws before it has done anything. -/
  | throws (program) : Runs program [] false
  | skip : Runs .skip [] true
  | seq {first second} {actions more} {returns} : Runs first actions true →
      Runs second more returns → Runs (.seq first second) (actions ++ more) returns
  | seq_throws {first second} {actions} : Runs first actions false →
      Runs (.seq first second) actions false
  | left {left right} {actions} {returns} : Runs left actions returns →
      Runs (.choice left right) actions returns
  | right {left right} {actions} {returns} : Runs right actions returns →
      Runs (.choice left right) actions returns
  | stop {body} : Runs (.loop body) [] true
  | again {body} {actions more} {returns} : Runs body actions true →
      Runs (.loop body) more returns → Runs (.loop body) (actions ++ more) returns
  | again_throws {body} {actions} : Runs body actions false → Runs (.loop body) actions false
  | within {hold} {body} {actions} {returns} : Runs body actions returns →
      Runs (.within hold body) (.take hold :: (actions ++ [.drop hold])) returns
  | launch {name} {code} : Runs (.launch name code) [.launch name code] true
  | get {name} {returns} : Runs (.get name) [.wait name] returns
  | helpers {body} {actions} {returns} : Runs body actions returns →
      Runs (.helpers body) (actions ++ (launched actions).map .wait) returns
  | catching {body} {actions} {returns} : Runs body actions returns →
      Runs (.catching body) actions true

/-- The locks and the programs. -/
structure System (Hold Code : Type) where
  /-- Whether two threads cannot have two holds at once. -/
  conflicts : Hold → Hold → Bool
  /-- Whether a thread may take a hold again that it has. -/
  recursive : Hold → Bool
  /-- What a thread runs. -/
  program : Code → Program Hold Code

/-- A thread. -/
structure Thread (Hold Code : Type) where
  /-- What it runs. -/
  code : Code
  /-- What it has still to do. -/
  rest : List (Action Hold Code)
  /-- What it holds, what was taken last in front. -/
  held : List Hold
  /-- Its helpers, by their names and their numbers. -/
  helpers : List (String × Nat)

/-- A thread that starts. -/
def Thread.start (code : Code) (actions : List (Action Hold Code)) : Thread Hold Code :=
  ⟨code, actions, [], []⟩

/-- The threads; the number of a thread is its place. -/
abbrev Threads (Hold Code : Type) := List (Thread Hold Code)

/-- The threads after one has changed. -/
theorem get_set {threads : Threads Hold Code} {i : Nat} {thread : Thread Hold Code}
    (found : threads[i]? = some thread)
    (changed : Thread Hold Code) (j : Nat) :
    (threads.set i changed)[j]? = if i = j then some changed else threads[j]? := by
  have inside : i < threads.length := (List.getElem?_eq_some_iff.mp found).1
  rw [List.getElem?_set, if_pos inside]

/-- The threads after one has arrived. -/
theorem get_append (threads : Threads Hold Code) (arrived : Thread Hold Code) (j : Nat) :
    (threads ++ [arrived])[j]? = if j = threads.length then some arrived else threads[j]? := by
  split
  · rename_i last
    rw [last, List.getElem?_concat_length]
  · rename_i other
    rcases Nat.lt_or_gt_of_ne other with before | behind
    · rw [List.getElem?_append_left before]
    · rw [List.getElem?_eq_none (by simp; omega), List.getElem?_eq_none (by omega)]

variable [DecidableEq Hold] (system : System Hold Code)

/-- A thread is kept from a hold by what another one has, or by what it has itself. -/
def Bars (threads : Threads Hold Code) (i : Nat) (hold : Hold) (j : Nat) : Prop :=
  (i = j → system.recursive hold = false) ∧
    ∃ other, threads[j]? = some other ∧ ∃ held ∈ other.held, system.conflicts hold held = true

omit [DecidableEq Hold] in
/-- A hold that conflicts with none is free. -/
theorem free_of_no_conflict {threads : Threads Hold Code} {hold : Hold}
    (none_conflicts : ∀ thread ∈ threads, ∀ held ∈ thread.held,
      system.conflicts hold held = false) (i j : Nat) : ¬ Bars system threads i hold j := by
  rintro ⟨_, other, found, held, within, conflict⟩
  rw [none_conflicts other (List.mem_of_getElem? found) held within] at conflict
  contradiction

/-- A step of one thread; a thread may arrive at any time. -/
inductive Step (threads : Threads Hold Code) : Threads Hold Code → Prop where
  | arrive {code : Code} {actions : List (Action Hold Code)} {returns : Bool} :
      Runs (system.program code) actions returns →
      Step threads (threads ++ [Thread.start code actions])
  | take {i : Nat} {thread : Thread Hold Code} {hold : Hold} {rest : List (Action Hold Code)} :
      threads[i]? = some thread → thread.rest = .take hold :: rest →
      (∀ j, ¬ Bars system threads i hold j) →
      Step threads (threads.set i { thread with rest := rest, held := hold :: thread.held })
  | drop {i : Nat} {thread : Thread Hold Code} {hold : Hold} {rest : List (Action Hold Code)} :
      threads[i]? = some thread → thread.rest = .drop hold :: rest →
      Step threads (threads.set i { thread with rest := rest, held := thread.held.erase hold })
  | launch {i : Nat} {thread : Thread Hold Code} {name : String} {code : Code}
      {rest actions : List (Action Hold Code)} {returns : Bool} :
      threads[i]? = some thread → thread.rest = .launch name code :: rest →
      Runs (system.program code) actions returns →
      Step threads ((threads ++ [Thread.start code actions]).set i
        { thread with rest := rest, helpers := (name, threads.length) :: thread.helpers })
  | wait {i : Nat} {thread : Thread Hold Code} {name : String} {rest : List (Action Hold Code)} :
      threads[i]? = some thread → thread.rest = .wait name :: rest →
      (∀ j, (name, j) ∈ thread.helpers → ∃ helper, threads[j]? = some helper ∧ helper.rest = []) →
      Step threads (threads.set i { thread with rest := rest })

/-- What threads can come to, one step after the other. -/
inductive Reachable : Threads Hold Code → Prop where
  | start : Reachable []
  | step {threads next} : Reachable threads → Step system threads next → Reachable next

/-- A thread waits for another: for a lock that the other has, or for its completion. -/
inductive Waits (threads : Threads Hold Code) (i j : Nat) : Prop where
  | lock {thread : Thread Hold Code} {hold : Hold} {rest : List (Action Hold Code)} :
      threads[i]? = some thread → thread.rest = .take hold :: rest →
      Bars system threads i hold j → Waits threads i j
  | helper {thread helper : Thread Hold Code} {name : String} {rest : List (Action Hold Code)} :
      threads[i]? = some thread → thread.rest = .wait name :: rest →
      (name, j) ∈ thread.helpers → threads[j]? = some helper → helper.rest ≠ [] → Waits threads i j

/-- Some threads wait each for one of them. -/
def Deadlocked (threads : Threads Hold Code) : Prop :=
  ∃ among : Set Nat, among.Nonempty ∧ ∀ i ∈ among, ∃ j ∈ among, Waits system threads i j

/-! ## Programs that keep to an order -/

/-- Ranks of the locks, and for every program the ranks of the locks that it and its helpers take:
`floor` is the least one, `reach` the least one of its helpers. -/
structure Order (Hold Code : Type) where
  /-- The rank of a lock. -/
  rank : Hold → Nat
  /-- No lock that the program takes is lower. -/
  floor : Code → Nat
  /-- No lock that a helper of the program takes is lower. -/
  reach : Code → Nat

variable (order : Order Hold Code)

/-- A hold may be taken above what is held; what is held may be taken again. -/
def mayTake (held : List Hold) (hold : Hold) : Bool :=
  (system.recursive hold && held.contains hold) ||
    held.all fun other => order.rank other < order.rank hold

/-- A program takes its locks in order, from `low` on, and starts and waits for helpers that take
theirs from `high` on while it has lower ones. -/
def Program.fits (low high : Nat) : List Hold → Program Hold Code → Bool
  | _, .skip => true
  | held, .seq first second => fits low high held first && fits low high held second
  | held, .choice left right => fits low high held left && fits low high held right
  | held, .loop body => fits low high held body
  | held, .within hold body =>
    decide (low ≤ order.rank hold) && mayTake system order held hold &&
      fits low high (hold :: held) body
  | _, .launch _ code => decide (low ≤ order.floor code) && decide (high ≤ order.floor code)
  | held, .get _ => held.all fun other => order.rank other < high
  | held, .helpers body =>
    (held.all fun other => order.rank other < high) && fits low high held body
  | held, .catching body => fits low high held body

/-- The same of what a thread has still to do. -/
def InOrder (low high : Nat) : List Hold → List (Action Hold Code) → Prop
  | _, [] => True
  | held, .take hold :: rest =>
    low ≤ order.rank hold ∧ mayTake system order held hold = true ∧
      InOrder low high (hold :: held) rest
  | held, .drop hold :: rest => InOrder low high (held.erase hold) rest
  | held, .launch _ code :: rest =>
    low ≤ order.floor code ∧ high ≤ order.floor code ∧ InOrder low high held rest
  | held, .wait _ :: rest => (∀ other ∈ held, order.rank other < high) ∧ InOrder low high held rest

variable {system} {order}

/-- Waiting is in order where it is allowed. -/
theorem inOrder_waits {low high : Nat} {held : List Hold} {rest : List (Action Hold Code)}
    (below : ∀ other ∈ held, order.rank other < high)
    (after : InOrder system order low high held rest) (names : List String) :
    InOrder system order low high held (names.map .wait ++ rest) := by
  induction names with
  | nil => exact after
  | cons name others ih => exact ⟨below, ih⟩

/-- The runs of a program that fits are in order. -/
theorem Runs.inOrder {low high : Nat} {program : Program Hold Code}
    {actions : List (Action Hold Code)} {returns : Bool} (runs : Runs program actions returns)
    {held : List Hold} (fits : program.fits system order low high held = true)
    {rest : List (Action Hold Code)} (after : InOrder system order low high held rest) :
    InOrder system order low high held (actions ++ rest) := by
  induction runs generalizing held rest with
  | throws => exact after
  | skip => exact after
  | stop => exact after
  | seq _ _ one two =>
    rw [Program.fits, Bool.and_eq_true] at fits
    rw [List.append_assoc]
    exact one fits.1 (two fits.2 after)
  | seq_throws _ one =>
    rw [Program.fits, Bool.and_eq_true] at fits
    exact one fits.1 after
  | left _ one =>
    rw [Program.fits, Bool.and_eq_true] at fits
    exact one fits.1 after
  | right _ one =>
    rw [Program.fits, Bool.and_eq_true] at fits
    exact one fits.2 after
  | again _ _ one two =>
    rw [List.append_assoc]
    exact one fits (two fits after)
  | again_throws _ one => exact one fits after
  | within _ one =>
    simp only [Program.fits, Bool.and_eq_true, decide_eq_true_eq] at fits
    refine ⟨fits.1.1, fits.1.2, ?_⟩
    rw [List.append_eq, List.append_assoc]
    refine one fits.2 ?_
    show InOrder system order low high (List.erase (_ :: held) _) rest
    rwa [List.erase_cons_head]
  | launch =>
    simp only [Program.fits, Bool.and_eq_true, decide_eq_true_eq] at fits
    exact ⟨fits.1, fits.2, after⟩
  | get =>
    simp only [Program.fits, List.all_eq_true, decide_eq_true_eq] at fits
    exact ⟨fits, after⟩
  | helpers _ one =>
    simp only [Program.fits, Bool.and_eq_true, List.all_eq_true, decide_eq_true_eq] at fits
    rw [List.append_assoc]
    exact one fits.2 (inOrder_waits fits.1 after _)
  | catching _ one => exact one fits after

/-- What is needed of the locks and of the programs. -/
structure Ordered (system : System Hold Code) (order : Order Hold Code) : Prop where
  /-- A conflict is of both sides. -/
  symmetric : ∀ one two, system.conflicts one two = true → system.conflicts two one = true
  /-- It is about one lock. -/
  level : ∀ one two, system.conflicts one two = true → order.rank one = order.rank two
  /-- The ranks are bounded. -/
  bounded : ∃ top, ∀ hold, order.rank hold < top
  /-- The programs keep to the order. -/
  fits : ∀ code, (system.program code).fits system order (order.floor code) (order.reach code) []

/-! ## What every step keeps -/

/-- The threads keep to the order. -/
structure Good (system : System Hold Code) (order : Order Hold Code)
    (threads : Threads Hold Code) : Prop where
  /-- What they have to do is in order. -/
  inOrder : ∀ (i : Nat) (thread : Thread Hold Code), threads[i]? = some thread →
    InOrder system order
    (order.floor thread.code) (order.reach thread.code) thread.held thread.rest
  /-- Their helpers came later and take higher locks. -/
  helpers : ∀ (i : Nat) (thread : Thread Hold Code), threads[i]? = some thread →
    ∀ name j, (name, j) ∈ thread.helpers →
    i < j ∧ ∃ helper, threads[j]? = some helper ∧
      order.floor thread.code ≤ order.floor helper.code ∧
      order.reach thread.code ≤ order.floor helper.code
  /-- Two threads have no conflicting holds. -/
  apart : ∀ (i j : Nat) (thread other : Thread Hold Code), i ≠ j → threads[i]? = some thread →
    threads[j]? = some other →
    ∀ hold ∈ thread.held, ∀ held ∈ other.held, system.conflicts hold held = false

section

variable {threads next : Threads Hold Code}

/-- A thread that starts holds nothing and has no helpers. -/
theorem Good.arrive (good : Good system order threads) (ordered : Ordered system order)
    {code : Code} {actions : List (Action Hold Code)} {returns : Bool}
    (runs : Runs (system.program code) actions returns) :
    Good system order (threads ++ [Thread.start code actions]) := by
  have starts : InOrder system order (order.floor code) (order.reach code) [] actions := by
    have whole := @Runs.inOrder _ _ _ system order _ _ _ _ _ runs [] (ordered.fits code) [] trivial
    rwa [List.append_nil] at whole
  constructor
  · intro i thread found
    rw [get_append] at found
    split at found
    · obtain rfl := Option.some.inj found
      exact starts
    · exact good.inOrder i thread found
  · intro i thread found name j helper
    rw [get_append] at found
    split at found
    · obtain rfl := Option.some.inj found
      contradiction
    · obtain ⟨later, other, there, bounds⟩ := good.helpers i thread found name j helper
      have inside : j < threads.length := (List.getElem?_eq_some_iff.mp there).1
      exact ⟨later, other, by rwa [get_append, if_neg (by omega)], bounds⟩
  · intro i j thread other apart found there hold held_here held held_there
    rw [get_append] at found there
    split at found
    · obtain rfl := Option.some.inj found
      contradiction
    · split at there
      · obtain rfl := Option.some.inj there
        contradiction
      · exact good.apart i j thread other apart found there hold held_here held held_there

/-- A thread goes on. -/
theorem Good.change (good : Good system order threads) (ordered : Ordered system order) {i : Nat}
    {thread changed : Thread Hold Code} (found : threads[i]? = some thread)
    (same : changed.code = thread.code)
    (inOrder : InOrder system order (order.floor thread.code) (order.reach thread.code)
      changed.held changed.rest)
    (helpers : ∀ name j, (name, j) ∈ changed.helpers → i < j ∧ ∃ helper, threads[j]? = some helper ∧
      order.floor thread.code ≤ order.floor helper.code ∧
      order.reach thread.code ≤ order.floor helper.code)
    (apart : ∀ j other, i ≠ j → threads[j]? = some other → ∀ hold ∈ changed.held,
      ∀ held ∈ other.held, system.conflicts hold held = false) :
    Good system order (threads.set i changed) := by
  -- A helper is found again, with the code that it had.
  have kept {j : Nat} {low high : Nat} (before : ∃ helper, threads[j]? = some helper ∧
      low ≤ order.floor helper.code ∧ high ≤ order.floor helper.code) :
      ∃ helper, (threads.set i changed)[j]? = some helper ∧
        low ≤ order.floor helper.code ∧ high ≤ order.floor helper.code := by
    obtain ⟨helper, there, bounds⟩ := before
    rw [get_set found]
    split
    · rename_i here
      subst here
      obtain rfl := Option.some.inj (found.symm.trans there)
      exact ⟨changed, rfl, by rwa [same]⟩
    · exact ⟨helper, there, bounds⟩
  constructor
  · intro j other there
    rw [get_set found] at there
    split at there
    · obtain rfl := Option.some.inj there
      rw [same]
      exact inOrder
    · exact good.inOrder j other there
  · intro j other there name k helper
    rw [get_set found] at there
    split at there
    · rename_i here
      subst here
      obtain rfl := Option.some.inj there
      rw [same]
      exact ⟨(helpers name k helper).1, kept (helpers name k helper).2⟩
    · have before := good.helpers j other there name k helper
      exact ⟨before.1, kept before.2⟩
  · intro j k one two different here there hold inside held within
    rw [get_set found] at here there
    split at here
    · rename_i first
      subst first
      obtain rfl := Option.some.inj here
      rw [if_neg different] at there
      exact apart k two different there hold inside held within
    · split at there
      · rename_i second
        subst second
        obtain rfl := Option.some.inj there
        have clear := apart j one (Ne.symm different) here held within hold inside
        by_contra conflict
        rw [Bool.not_eq_false] at conflict
        rw [ordered.symmetric _ _ conflict] at clear
        contradiction
      · exact good.apart j k one two different here there hold inside held within

/-- A step keeps the order. -/
theorem Good.step (good : Good system order threads) (ordered : Ordered system order)
    (step : Step system threads next) : Good system order next := by
  cases step with
  | arrive runs => exact good.arrive ordered runs
  | @take i thread hold rest found action free =>
    have before := good.inOrder i thread found
    rw [action] at before
    refine good.change ordered found rfl before.2.2 (good.helpers i thread found) ?_
    intro j other different there taken inside held within
    rcases List.mem_cons.mp inside with rfl | earlier
    · by_contra conflict
      rw [Bool.not_eq_false] at conflict
      exact free j ⟨fun same => absurd same different, other, there, held, within, conflict⟩
    · exact good.apart i j thread other different found there taken earlier held within
  | @drop i thread hold rest found action =>
    have before := good.inOrder i thread found
    rw [action] at before
    refine good.change ordered found rfl before (good.helpers i thread found) ?_
    intro j other different there taken inside held within
    exact good.apart i j thread other different found there taken (List.mem_of_mem_erase inside)
      held within
  | @launch i thread name code rest actions returns found action runs =>
    have inside : i < threads.length := (List.getElem?_eq_some_iff.mp found).1
    have before := good.inOrder i thread found
    rw [action] at before
    have grown := good.arrive ordered runs
    have still : (threads ++ [Thread.start code actions])[i]? = some thread := by
      rwa [get_append, if_neg (by omega)]
    refine grown.change ordered still rfl before.2.2 ?_
      (fun j other different there taken held_here =>
      grown.apart i j thread other different still there taken held_here)
    intro other j helper
    rcases List.mem_cons.mp helper with new | earlier
    · obtain ⟨rfl, rfl⟩ := Prod.mk.inj new
      exact ⟨inside, Thread.start code actions, by rw [get_append, if_pos rfl],
        before.1, before.2.1⟩
    · exact grown.helpers i thread still other j earlier
  | @wait i thread name rest found action done =>
    have before := good.inOrder i thread found
    rw [action] at before
    exact good.change ordered found rfl before.2 (good.helpers i thread found)
      fun j other different there => good.apart i j thread other different found there

/-- So does a run. -/
theorem Reachable.good (reachable : Reachable system threads) (ordered : Ordered system order) :
    Good system order threads := by
  induction reachable with
  | start =>
    exact ⟨fun _ _ found => by simp at found, fun _ _ found => by simp at found,
      fun _ _ _ _ _ found => by simp at found⟩
  | step _ step ih => exact ih.step ordered step

/-! ## No deadlock -/

/-- No thread of some waits for a lock of a rank from a bound on. -/
def Below (order : Order Hold Code) (threads : Threads Hold Code) (among : Set Nat)
    (bound : Nat) : Prop :=
  ∀ i ∈ among, ∀ thread hold rest, threads[i]? = some thread →
    thread.rest = .take hold :: rest → order.rank hold < bound

variable {among : Set Nat} {bound : Nat}

/-- A thread that waits for one of such threads may take a lock below the bound: it waits for one,
or a helper of it does. -/
theorem Good.floor_lt (good : Good system order threads)
    (waiting : ∀ i ∈ among, ∃ j ∈ among, Waits system threads i j)
    (below : Below order threads among bound) {i : Nat} (inside : i ∈ among)
    {thread : Thread Hold Code} (found : threads[i]? = some thread) :
    order.floor thread.code < bound := by
  induction left : threads.length - i using Nat.strongRecOn generalizing i thread with
  | _ left ih =>
    have present : i < threads.length := (List.getElem?_eq_some_iff.mp found).1
    obtain ⟨j, there, waits⟩ := waiting i inside
    cases waits with
    | @lock other hold rest here action _ =>
      obtain rfl := Option.some.inj (found.symm.trans here)
      have ordered := good.inOrder i thread found
      rw [action] at ordered
      exact Nat.lt_of_le_of_lt ordered.1 (below i inside thread hold rest found action)
    | @helper other _ name rest here action helper _ _ =>
      obtain rfl := Option.some.inj (found.symm.trans here)
      obtain ⟨later, other, known, floor, _⟩ := good.helpers i thread found name j helper
      exact Nat.lt_of_le_of_lt floor (ih (threads.length - j) (by omega) there known rfl)

/-- What holds up a thread waits for a higher lock, or for a helper that does. -/
theorem Good.not_highest (good : Good system order threads) (ordered : Ordered system order)
    (waiting : ∀ i ∈ among, ∃ j ∈ among, Waits system threads i j)
    (below : Below order threads among (bound + 1)) : Below order threads among bound := by
  intro i inside thread hold rest found action
  have low := below i inside thread hold rest found action
  by_contra high
  have rank : order.rank hold = bound := by omega
  obtain ⟨j, there, waits⟩ := waiting i inside
  cases waits with
  | @helper other _ name rest here other_action _ _ _ =>
    obtain rfl := Option.some.inj (found.symm.trans here)
    rw [action] at other_action
    exact nomatch (List.cons.inj other_action).1
  | @lock other wanted more here other_action bars =>
    obtain rfl := Option.some.inj (found.symm.trans here)
    rw [action] at other_action
    obtain ⟨taken, rfl⟩ := List.cons.inj other_action
    obtain rfl := Action.take.inj taken
    obtain ⟨_, holder, known, held, within, conflict⟩ := bars
    have level : order.rank held = bound := (ordered.level _ _ conflict).symm.trans rank
    have holder_order := good.inOrder j holder known
    obtain ⟨k, behind, holder_waits⟩ := waiting j there
    cases holder_waits with
    | @lock other next more here holder_action bars =>
      obtain rfl := Option.some.inj (known.symm.trans here)
      rw [holder_action] at holder_order
      have next_low := below j there holder next more known holder_action
      obtain ⟨again, other, other_known, kept, kept_within, next_conflict⟩ := bars
      rcases Bool.or_eq_true_iff.mp holder_order.2.1 with recursive | above
      · rw [Bool.and_eq_true] at recursive
        have different : j ≠ k := fun same => by simp [again same] at recursive
        have clear := good.apart j k holder other different known other_known next
          (List.contains_iff_mem.mp recursive.2) kept kept_within
        rw [next_conflict] at clear
        contradiction
      · have higher := List.all_eq_true.mp above held within
        rw [decide_eq_true_eq] at higher
        omega
    | @helper other _ name more here holder_action helper _ _ =>
      obtain rfl := Option.some.inj (known.symm.trans here)
      rw [holder_action] at holder_order
      have higher := holder_order.1 held within
      obtain ⟨_, started, started_known, _, reach⟩ := good.helpers j holder known name k helper
      have reached := good.floor_lt waiting below behind started_known
      omega

/-- No threads are deadlocked. -/
theorem Good.not_deadlocked (good : Good system order threads) (ordered : Ordered system order) :
    ¬ Deadlocked system threads := by
  rintro ⟨among, ⟨first, inside⟩, waiting⟩
  obtain ⟨top, bounded⟩ := ordered.bounded
  have lowest (bound : Nat) (below : Below order threads among bound) :
      Below order threads among 0 := by
    induction bound with
    | zero => exact below
    | succ bound ih => exact ih (good.not_highest ordered waiting below)
  have none_waits := lowest top fun _ _ _ hold _ _ _ => bounded hold
  obtain ⟨_, _, waits⟩ := waiting first inside
  cases waits with
  | lock found => exact Nat.not_lt_zero _ (good.floor_lt waiting none_waits inside found)
  | helper found => exact Nat.not_lt_zero _ (good.floor_lt waiting none_waits inside found)

/-- A run of programs that keep to an order comes to no deadlock. -/
theorem Reachable.not_deadlocked (reachable : Reachable system threads)
    (ordered : Ordered system order) : ¬ Deadlocked system threads :=
  (reachable.good ordered).not_deadlocked ordered

end

end Chitta.Locks
