import Chitta.RuntimeLedger.Recovery

/-!
# One daemon delivers its tail exactly once

With one host nobody else writes the durable file, so the guard of the shared runs is empty:
every crash and every partial write is covered. At every moment the durable file is its
initial content followed by a beginning of the tail, and a completed call leaves exactly the
part the offset file names.
-/
namespace Chitta.RuntimeLedger

variable {content : Bytes}

/-! ## Record boundaries -/

section Boundaries

variable {HostId : Type} [DecidableEq HostId] {world : World HostId} {id : HostId}

/-- The published offset is always right after a record. -/
theorem Invariant.published_boundary (invariant : Invariant content world) :
    OnBoundary (world.hosts id).contents (world.hosts id).published := by
  obtain ⟨blocks, layout⟩ := invariant.layout
  cases found : (world.hosts id).intent with
  | none =>
    have share := layout.share id
    rw [Host.settled_none found] at share
    rw [OnBoundary, ← share]
    exact shareOf_records layout.whole
  | some intent =>
    have pending := layout.pending id intent found
    cases pending.published with
    | inl early =>
      rw [early]
      exact pending.start
    | inr full =>
      rw [full, OnBoundary, take_add_slice]
      exact .inr (Records.append_left pending.whole)

end Boundaries

/-! ## The durable file of one daemon -/

variable {world after : World Unit}

/-- All blocks belong to the only host. -/
theorem joined_unit (blocks : Blocks Unit) : joined blocks = shareOf () blocks := by
  simp [joined, shareOf]

/-- The durable file is its content and a beginning of the tail that reaches the published
offset; without an intent it is exactly the published part. -/
theorem Invariant.durable_unit (invariant : Invariant content world) :
    ∃ count, (world.hosts ()).published ≤ count ∧ count ≤ (world.hosts ()).contents.length ∧
      world.durable = content ++ (world.hosts ()).contents.take count ∧
      ((world.hosts ()).intent = none → count = (world.hosts ()).published) := by
  obtain ⟨blocks, layout⟩ := invariant.layout
  have share := layout.share ()
  have within := layout.within ()
  cases found : (world.hosts ()).intent with
  | none =>
    rw [Host.settled_none found] at share within
    have durable := layout.quiet fun _ _ some => by rw [found] at some; contradiction
    refine ⟨(world.hosts ()).published, Nat.le_refl _, within, ?_, fun _ => rfl⟩
    rw [durable, joined_unit, share]
  | some intent =>
    have pending := layout.pending () intent found
    have fits := pending.fits
    by_cases landed : Landed world.durable intent
    · have durable := layout.quiet fun _ other same => by
        obtain rfl := Option.some.inj (found.symm.trans same)
        exact landed
      rw [Host.settled_landed found landed] at share
      refine ⟨intent.offset + intent.length, ?_, fits, ?_, by simp⟩
      · have published := pending.published
        omega
      · rw [durable, joined_unit, share]
    · have part := pending.part landed
      obtain ⟨count, short, durable⟩ := part.landed
      rw [Host.settled_partial found landed] at share
      refine ⟨intent.offset + count, ?_, by omega, ?_, by simp⟩
      · rw [part.published]
        exact Nat.le_add_right _ _
      · rw [durable, joined_unit, share, List.append_assoc, take_add_slice, Host.announced, slice,
          slice, List.take_take, Nat.min_eq_left (Nat.le_of_lt short)]

/-- A call between taking the append lock and giving it up. -/
def Pc.holding : Pc → Bool
  | .locked .. | .intending .. | .writing .. | .clearing => true
  | _ => false

/-- What holds at every moment of a single daemon. -/
structure Solo (content : Bytes) (world : World Unit) : Prop where
  /-- The invariant of all runs. -/
  invariant : Invariant content world
  /-- Only a call in progress holds the lock. -/
  lock : world.lock = some () → (world.hosts ()).pc.holding = true
  /-- A call that returned has left no intent. -/
  done : (world.hosts ()).ended = some .returned → (world.hosts ()).intent = none

/-- The lock is free before a call takes it. -/
theorem Solo.free (solo : Solo content world) (before : (world.hosts ()).pc.holding = false) :
    world.lock = none := by
  cases lock : world.lock with
  | none => rfl
  | some holder =>
    have held := solo.lock lock
    rw [before] at held
    contradiction

/-- The start of a call keeps the facts about a single daemon. -/
theorem Solo.begin (solo : Solo content world) (idle : (world.hosts ()).pc = .idle)
    (force early : Bool) :
    Solo content (world.set () (RuntimeLedger.begin (world.hosts ()) force early)) := by
  have free := solo.free (by rw [idle]; rfl)
  have files := begin_files (world.hosts ()) force early
  constructor
  · exact begin_keeps solo.invariant force early
  · intro lock
    rw [World.set_lock, free] at lock
    contradiction
  · rw [World.set_self]
    intro returned
    rw [files.2.2]
    cases found : (world.hosts ()).intent with
    | none => rfl
    | some intent =>
      rw [begin_recovering solo.invariant found force early] at returned
      contradiction

/-- Reading the records keeps the facts about a single daemon. -/
theorem Solo.load (solo : Solo content world) {recovering : Bool}
    {offset length destination size : Nat}
    (pc : (world.hosts ()).pc = .measured recovering offset length destination size) :
    Solo content (world.set ()
      (RuntimeLedger.load (world.hosts ()) recovering offset length destination size)) := by
  have free := solo.free (by rw [pc]; rfl)
  have files := load_files (world.hosts ()) recovering offset length destination size
  have knows := solo.invariant.program ()
  rw [Program, pc] at knows
  obtain ⟨_, _, source⟩ := knows
  constructor
  · exact load_keeps solo.invariant pc
  · intro lock
    rw [World.set_lock, free] at lock
    contradiction
  · rw [World.set_self]
    intro returned
    rw [files.2.2]
    cases recovering with
    | false =>
      simp only [Source, Bool.false_eq_true, ↓reduceIte] at source
      exact source.1
    | true =>
      simp only [Source, ↓reduceIte] at source
      have loaded := load_recovering solo.invariant size source
      dsimp only at loaded
      rw [loaded] at returned
      contradiction

/-- One operation of a call keeps the facts about a single daemon. -/
theorem Solo.tick (solo : Solo content world) {count : Nat}
    (taken : world.tick () count = some after) : Solo content after := by
  have kept : Invariant content after := by
    apply tick_keeps solo.invariant _ taken
    exact fun _ other apart => absurd rfl apart
  unfold World.tick at taken
  cases pc : (world.hosts ()).pc with
  | idle => simp [pc] at taken
  | measured recovering offset length destination size =>
    simp only [pc, Option.some.injEq] at taken
    exact taken ▸ solo.load pc
  | loaded recovering offset destination data =>
    have free := solo.free (by rw [pc]; rfl)
    simp only [pc, free, Option.some.injEq] at taken
    subst taken
    exact ⟨kept, fun _ => by simp [World.set, Host.goto, Pc.holding],
      fun returned => by simp [World.set, Host.goto] at returned⟩
  | locked recovering offset destination data =>
    cases recovering with
    | true =>
      obtain ⟨_, rest, _, passed, _⟩ := resume_passes solo.invariant pc
      simp only [pc, passed, Option.some.injEq] at taken
      subst taken
      exact ⟨kept, fun _ => by simp [Host.goto, Pc.holding],
        fun returned => by simp [Host.goto] at returned⟩
    | false =>
      simp only [pc, Option.some.injEq] at taken
      subst taken
      exact ⟨kept, fun _ => by simp [Host.goto, Pc.holding],
        fun returned => by simp [Host.goto] at returned⟩
  | intending offset destination data =>
    simp only [pc, Option.some.injEq] at taken
    subst taken
    exact ⟨kept, fun _ => by simp [Host.goto, Pc.holding],
      fun returned => by simp [Host.goto] at returned⟩
  | writing offset data rest =>
    cases rest with
    | nil =>
      simp only [pc, Option.some.injEq] at taken
      subst taken
      exact ⟨kept, fun _ => by simp [Host.goto, Pc.holding],
        fun returned => by simp [Host.goto] at returned⟩
    | cons byte rest =>
      simp only [pc] at taken
      split at taken
      · contradiction
      · obtain rfl := Option.some.inj taken
        exact ⟨kept, fun _ => by simp [World.set, Host.goto, Pc.holding],
          fun returned => by simp [World.set, Host.goto] at returned⟩
  | clearing =>
    have held : world.lock = some () := by
      have knows := solo.invariant.program ()
      rw [Program, pc] at knows
      exact knows.1
    simp only [pc, Option.some.injEq] at taken
    subst taken
    exact ⟨kept, fun lock => by simp [World.unlock, held] at lock,
      fun _ => by simp [World.unlock]⟩

/-- One action keeps the facts about a single daemon. -/
theorem Solo.step (solo : Solo content world) (action : Action Unit)
    (taken : world.step action = some after) : Solo content after := by
  cases action with
  | append id bytes =>
    obtain rfl := Option.some.inj taken
    refine ⟨append_keeps solo.invariant bytes, ?_, ?_⟩
    · rw [World.set_self]
      exact solo.lock
    · rw [World.set_self]
      exact solo.done
  | flush id force early =>
    simp only [World.step] at taken
    split at taken
    · rename_i idle
      exact Option.some.inj taken ▸ solo.begin idle force early
    · contradiction
  | tick id count => exact solo.tick taken
  | crash id =>
    obtain rfl := Option.some.inj taken
    refine ⟨crash_keeps solo.invariant, fun lock => ?_, fun returned => ?_⟩
    · have released :
          ((world.set id ((world.hosts id).finish .crashed)).unlock id).lock = none := by
        cases held : world.lock <;> simp [World.unlock, held]
      rw [released] at lock
      contradiction
    · simp [World.unlock, Host.finish] at returned

/-- The facts about a single daemon hold in every run. -/
theorem reachable_solo (reached : (system Unit content).Reachable world) :
    Solo content world := by
  refine reached.invariant ⟨reaches_invariant .initial, ?_, ?_⟩
    fun _ action _ solo _ taken => solo.step action taken
  · intro lock
    contradiction
  · intro ended
    contradiction

/-- After any appends, calls, partial writes and crashes of a single daemon: no call has thrown,
the offset is on a record boundary, a completed call has left in the durable file its initial
content and exactly the first `offset` bytes of the tail, at every other moment the file is
ahead of that by a beginning of the rest of the tail, and a rerun after a crash writes only what
is missing. -/
theorem flush_exactly_once (reached : (system Unit content).Reachable world) :
    (world.hosts ()).ended ≠ some .threw ∧
    OnBoundary (world.hosts ()).contents (world.hosts ()).published ∧
    ((world.hosts ()).ended = some .returned →
      world.durable = content ++ (world.hosts ()).contents.take (world.hosts ()).published) ∧
    (∃ count, (world.hosts ()).published ≤ count ∧ count ≤ (world.hosts ()).contents.length ∧
      world.durable = content ++ (world.hosts ()).contents.take count ∧
      ((world.hosts ()).intent = none → count = (world.hosts ()).published)) ∧
    ((world.hosts ()).pc = .idle → (world.hosts ()).intent ≠ none → ∀ force early,
      ∃ counts after, (system Unit content).run world (.flush () force early :: ticks () counts) =
          some after ∧
        (after.hosts ()).ended = some .returned ∧ (after.hosts ()).intent = none ∧
        (after.hosts ()).contents = (world.hosts ()).contents ∧ world.durable <+: after.durable ∧
        after.durable =
          content ++ (after.hosts ()).contents.take (after.hosts ()).published) := by
  have solo := reachable_solo reached
  have covered := solo.invariant.durable_unit
  refine ⟨solo.invariant.sound (), solo.invariant.published_boundary, ?_, covered, ?_⟩
  · intro returned
    obtain ⟨count, _, _, durable, exact_count⟩ := covered
    rw [durable, exact_count (solo.done returned)]
  · intro idle interrupted force early
    obtain ⟨intent, found⟩ := Option.ne_none_iff_exists'.mp interrupted
    have free := solo.free (by rw [idle]; rfl)
    obtain ⟨counts, after, replayed, kept, ended, cleared, published, contents⟩ :=
      rerun_completes solo.invariant idle free found force early
    obtain ⟨reach, _, _, durable, settled⟩ := kept.durable_unit
    have whole := settled cleared
    subst whole
    exact ⟨counts, after, replayed, ended, cleared, contents, run_grows _ replayed, durable⟩

/-- A daemon that crashes while it appends the first of two records, and runs again. -/
def interruptedFlush : List (Action Unit) :=
  [.append () [97, 98, 10, 99, 10], .flush () true false, .tick () 0, .tick () 0, .tick () 0,
    .tick () 0, .tick () 2, .crash ()]

/-- The crash leaves two bytes of the append in the durable file; the rerun adds the others. -/
theorem flush_exactly_once_interrupted :
    ∃ world, (system Unit [120, 10]).run (system Unit [120, 10]).initial interruptedFlush =
        some world ∧
      world.durable = [120, 10, 97, 98] ∧
      ∃ counts after, (system Unit [120, 10]).run world
          (.flush () false true :: ticks () counts) = some after ∧
        after.durable = [120, 10] ++ (after.hosts ()).contents.take (after.hosts ()).published := by
  obtain ⟨world, replayed, durable, idle, interrupted⟩ : ∃ world,
      (system Unit [120, 10]).run (system Unit [120, 10]).initial interruptedFlush = some world ∧
        world.durable = [120, 10, 97, 98] ∧ (world.hosts ()).pc = .idle ∧
        (world.hosts ()).intent ≠ none := ⟨_, rfl, by decide, by decide, by decide⟩
  have facts := flush_exactly_once (.of_run interruptedFlush .initial replayed)
  obtain ⟨counts, after, rerun, _, _, _, _, whole⟩ :=
    facts.2.2.2.2 idle interrupted false true
  exact ⟨world, replayed, durable, counts, after, rerun, whole⟩

end Chitta.RuntimeLedger
