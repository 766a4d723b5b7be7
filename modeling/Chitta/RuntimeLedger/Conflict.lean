import Mathlib.Data.Fintype.Basic
import Chitta.RuntimeLedger.Recovery

/-!
# Several daemons and the durable file they share

While no append starts beside one that landed only in part, several hosts deliver their tails
as one host does: in blocks of whole records, each once. The crash of a daemon gives up the
append lock, so another daemon can start an append there; its bytes then lie where the intent
of the crashed one points. The crashed daemon refuses every later recovery and keeps its tail.
-/
namespace Chitta.RuntimeLedger

variable {HostId : Type} [DecidableEq HostId] {content : Bytes}
variable {world after : World HostId} {id : HostId}

/-! ## A refused recovery -/

/-- A call that recovers an intent, at any point before it writes. -/
def Pc.Retrying (pc : Pc) (intent : Intent) (data : Bytes) : Prop :=
  pc = .idle ∨
  (∃ size, pc = .measured true intent.offset intent.length intent.destination size) ∨
  pc = .loaded true intent.offset intent.destination data ∨
  pc = .locked true intent.offset intent.destination data

/-- The durable file holds other bytes than the intent of a host announces. -/
structure Wedged (world : World HostId) (id : HostId) (intent : Intent) (data : Bytes) :
    Prop where
  /-- The intent is published. -/
  pending : (world.hosts id).intent = some intent
  /-- It is inside the tail. -/
  fits : intent.offset + intent.length ≤ (world.hosts id).contents.length
  /-- It announces these bytes. -/
  announced : (world.hosts id).announced intent = data
  /-- Some of the bytes at its destination are not the announced ones. -/
  foreign : ∃ count, count ≤ data.length ∧ intent.destination + count ≤ world.durable.length ∧
    slice world.durable intent.destination count ≠ data.take count
  /-- A call in progress has not started to write. -/
  retrying : (world.hosts id).pc.Retrying intent data

/-- Bytes that disagree somewhere disagree as a whole. -/
theorem take_ne_of_le {first second : Bytes} {few many : Nat} (le : few ≤ many)
    (differ : first.take few ≠ second.take few) : first.take many ≠ second.take many := by
  intro same
  apply differ
  have shorter := congrArg (List.take few) same
  rw [List.take_take, List.take_take, Nat.min_eq_left le] at shorter
  exact shorter

omit [DecidableEq HostId] in
/-- The check of a wedged recovery fails. -/
theorem Wedged.resume_none {intent : Intent} {data : Bytes} (wedged : Wedged world id intent data) :
    World.resume world.durable intent.destination data = none := by
  obtain ⟨count, short, inside, differ⟩ := wedged.foreign
  have not_short : ¬ world.durable.length < intent.destination := by omega
  have more : count ≤ min data.length (world.durable.length - intent.destination) := by omega
  have conflict := take_ne_of_le more differ
  simp only [World.resume, not_short, ↓reduceIte, ite_eq_left_iff, reduceCtorEq, imp_false,
    not_not]
  exact conflict

omit [DecidableEq HostId] in
/-- The durable file only grows, so foreign bytes at a destination stay there. -/
theorem Wedged.foreign_grow {intent : Intent} {data : Bytes}
    (wedged : Wedged world id intent data) (grown : world.durable <+: after.durable) :
    ∃ count, count ≤ data.length ∧ intent.destination + count ≤ after.durable.length ∧
      slice after.durable intent.destination count ≠ data.take count := by
  obtain ⟨count, short, inside, differ⟩ := wedged.foreign
  obtain ⟨more, same⟩ := grown
  refine ⟨count, short, ?_, ?_⟩
  · rw [← same, List.length_append]
    omega
  · rw [← same, slice_append _ _ _ _ inside]
    exact differ

omit [DecidableEq HostId] in
/-- A step that leaves the tail and the intent of the wedged host and moves its call at most
within the recovery keeps it wedged. -/
theorem Wedged.keep {intent : Intent} {data : Bytes} (wedged : Wedged world id intent data)
    (grown : world.durable <+: after.durable)
    (tail : (after.hosts id).tail = (world.hosts id).tail)
    (same : (after.hosts id).intent = (world.hosts id).intent)
    (retrying : (after.hosts id).pc.Retrying intent data) : Wedged after id intent data := by
  have contents : (after.hosts id).contents = (world.hosts id).contents := by
    rw [Host.contents, Host.contents, tail]
  refine ⟨same.trans wedged.pending, ?_, ?_, wedged.foreign_grow grown, retrying⟩
  · rw [contents]
    exact wedged.fits
  · rw [Host.announced, contents]
    exact wedged.announced

omit [DecidableEq HostId] in
/-- The steps of the other hosts leave a wedged host wedged. -/
theorem Wedged.other {intent : Intent} {data : Bytes} (wedged : Wedged world id intent data)
    (grown : world.durable <+: after.durable) (same : after.hosts id = world.hosts id) :
    Wedged after id intent data :=
  wedged.keep grown (by rw [same]) (by rw [same]) (by rw [same]; exact wedged.retrying)

omit [DecidableEq HostId] in
/-- The start of a call of a wedged host measures the same intent again. -/
theorem Wedged.begin_retries {intent : Intent} {data : Bytes}
    (wedged : Wedged world id intent data) (force early : Bool) :
    (begin (world.hosts id) force early).pc.Retrying intent data := by
  have fits := wedged.fits
  cases tail : (world.hosts id).tail with
  | none =>
    simp only [begin, tail]
    exact .inl rfl
  | some bytes =>
    have contents : (world.hosts id).contents = bytes := by rw [Host.contents, tail]; rfl
    rw [contents] at fits
    have inside : ¬ bytes.length < intent.offset := by omega
    refine .inr (.inl ⟨bytes.length, ?_⟩)
    simp [begin, wedged.pending, tail, inside, Host.goto]

omit [DecidableEq HostId] in
/-- A wedged host reads the announced bytes again. -/
theorem Wedged.load_retries {intent : Intent} {data : Bytes}
    (wedged : Wedged world id intent data) (size : Nat) :
    load (world.hosts id) true intent.offset intent.length intent.destination size =
      (world.hosts id).goto (.loaded true intent.offset intent.destination data) := by
  have full := slice_length _ _ _ wedged.fits
  have announced := wedged.announced
  simp only [Host.announced, slice] at full announced
  rw [announced] at full
  simp only [load, ↓reduceIte, announced, full, ne_eq, not_true_eq_false]

/-- The operation of a wedged host at its lock is the refusal. -/
theorem Wedged.refuses {intent : Intent} {data : Bytes} (wedged : Wedged world id intent data)
    (pc : (world.hosts id).pc = .locked true intent.offset intent.destination data)
    (count : Nat) : world.tick id count =
      some ((world.set id ((world.hosts id).finish .threw)).unlock id) := by
  simp only [World.tick, pc, wedged.resume_none]

/-- An operation of the wedged host itself keeps it wedged. -/
theorem Wedged.tick {intent : Intent} {data : Bytes} (wedged : Wedged world id intent data)
    {count : Nat} (taken : world.tick id count = some after) : Wedged after id intent data := by
  have grown := (tick_frame taken).1
  rcases wedged.retrying with pc | ⟨size, pc⟩ | pc | pc
  · simp only [World.tick, pc] at taken
    contradiction
  · simp only [World.tick, pc, wedged.load_retries size, Option.some.injEq] at taken
    subst taken
    apply wedged.keep grown
    · simp [Host.goto]
    · simp [Host.goto]
    · rw [World.set_self]
      exact .inr (.inr (.inl rfl))
  · cases lock : world.lock with
    | some holder =>
      simp only [World.tick, pc, lock, Option.some.injEq] at taken
      subst taken
      apply wedged.keep grown
      · simp [Host.finish]
      · simp [Host.finish]
      · rw [World.set_self]
        exact .inl rfl
    | none =>
      simp only [World.tick, pc, lock, Option.some.injEq] at taken
      subst taken
      apply wedged.keep grown
      · simp [World.set, Host.goto]
      · simp [World.set, Host.goto]
      · exact .inr (.inr (.inr (by simp [World.set, Host.goto])))
  · rw [wedged.refuses pc] at taken
    obtain rfl := Option.some.inj taken
    apply wedged.keep grown
    · simp [World.unlock, Host.finish]
    · simp [World.unlock, Host.finish]
    · exact .inl (by simp [World.unlock, Host.finish])

/-- Every action keeps a wedged host wedged. -/
theorem Wedged.step {intent : Intent} {data : Bytes} (wedged : Wedged world id intent data)
    (action : Action HostId) (taken : world.step action = some after) :
    Wedged after id intent data := by
  have grown := step_grows action taken
  cases action with
  | append host bytes =>
    obtain rfl := Option.some.inj taken
    by_cases own : id = host
    · subst own
      have longer : ((world.set id { world.hosts id with
          tail := some ((world.hosts id).contents ++ bytes) }).hosts id).contents =
            (world.hosts id).contents ++ bytes := by rw [World.set_self]; rfl
      refine ⟨?_, ?_, ?_, wedged.foreign, ?_⟩
      · rw [World.set_self]
        exact wedged.pending
      · rw [longer, List.length_append]
        exact Nat.le_trans wedged.fits (Nat.le_add_right _ _)
      · rw [Host.announced, longer, slice_append _ _ _ _ wedged.fits]
        exact wedged.announced
      · rw [World.set_self]
        exact wedged.retrying
    · exact wedged.other grown (World.set_other _ _ own)
  | flush host force early =>
    simp only [World.step] at taken
    split at taken
    · obtain rfl := Option.some.inj taken
      by_cases own : id = host
      · subst own
        have files := begin_files (world.hosts id) force early
        apply wedged.keep grown
        · rw [World.set_self]
          exact files.1
        · rw [World.set_self]
          exact files.2.2
        · rw [World.set_self]
          exact wedged.begin_retries force early
      · exact wedged.other grown (World.set_other _ _ own)
    · contradiction
  | tick host count =>
    by_cases own : id = host
    · subst own
      exact wedged.tick taken
    · exact wedged.other grown ((tick_frame taken).2 id own)
  | crash host =>
    obtain rfl := Option.some.inj taken
    by_cases own : id = host
    · subst own
      apply wedged.keep grown
      · simp [World.unlock, Host.finish]
      · simp [World.unlock, Host.finish]
      · exact .inl (by simp [World.unlock, Host.finish])
    · exact wedged.other grown (World.set_other _ _ own)

/-- No continuation frees a wedged host. -/
theorem Wedged.forever {intent : Intent} {data : Bytes} (wedged : Wedged world id intent data)
    (actions : List (Action HostId))
    (replayed : (system HostId content).run world actions = some after) :
    Wedged after id intent data :=
  Machine.run_invariant (fun later => Wedged later id intent data)
    (fun _ action _ wedged taken => wedged.step action taken) actions wedged replayed

/-- Two daemons with one record each. The first publishes its intent and crashes; the second
appends its record at the same place; the first tries to recover. -/
def crowdedFlushes : List (Action Bool) :=
  [.append false [97, 10], .append true [98, 10],
    .flush false true false, .tick false 0, .tick false 0, .tick false 0, .tick false 0,
    .crash false,
    .flush true true false, .tick true 0, .tick true 0, .tick true 0, .tick true 0, .tick true 2,
    .tick true 0, .tick true 0,
    .flush false true false, .tick false 0, .tick false 0, .tick false 0]

/-- A crashed daemon can reach a state from which no continuation lets it settle its intent:
every call that gets the lock throws. -/
theorem recovery_can_wedge : ∃ world, (system Bool []).Reachable world ∧
    (world.hosts false).ended = some .threw ∧ world.durable = [98, 10] ∧
    ∀ actions last, (system Bool []).run world actions = some last →
      (last.hosts false).intent = some ⟨0, 2, 0⟩ ∧
      ∀ recovering offset destination data count next,
        (last.hosts false).pc = .locked recovering offset destination data →
        last.tick false count = some next → (next.hosts false).ended = some .threw := by
  obtain ⟨world, replayed, ended, durable, pc, tail, intent⟩ : ∃ world,
      (system Bool []).run (system Bool []).initial crowdedFlushes = some world ∧
        (world.hosts false).ended = some .threw ∧ world.durable = [98, 10] ∧
        (world.hosts false).pc = .idle ∧ (world.hosts false).tail = some [97, 10] ∧
        (world.hosts false).intent = some ⟨0, 2, 0⟩ :=
    ⟨_, rfl, by decide, by decide, by decide, by decide, by decide⟩
  have wedged : Wedged world false ⟨0, 2, 0⟩ [97, 10] := by
    have contents : (world.hosts false).contents = [97, 10] := by rw [Host.contents, tail]; rfl
    refine ⟨intent, ?_, ?_, ⟨1, by decide, ?_, ?_⟩, .inl pc⟩
    · rw [contents]
      decide
    · rw [Host.announced, contents]
      decide
    · rw [durable]
      decide
    · rw [durable]
      decide
  refine ⟨world, .of_run crowdedFlushes .initial replayed, ended, durable, ?_⟩
  intro actions last continued
  have later := wedged.forever actions continued
  refine ⟨later.pending, ?_⟩
  intro recovering offset destination data count next locked taken
  rcases later.retrying with pc | ⟨size, pc⟩ | pc | pc
  · rw [pc] at locked
    contradiction
  · rw [pc] at locked
    contradiction
  · rw [pc] at locked
    contradiction
  · rw [later.refuses pc] at taken
    obtain rfl := Option.some.inj taken
    exact congrArg Host.ended (World.set_self last false _)

/-! ## Recovery beside landed appends -/

/-- The settled position lies between the published offset and the end of the tail. -/
theorem Layout.published_le {blocks : Blocks HostId} (layout : Layout content world blocks)
    (id : HostId) :
    (world.hosts id).published ≤ (world.hosts id).settled world.durable := by
  cases found : (world.hosts id).intent with
  | none => exact Nat.le_of_eq (Host.settled_none found).symm
  | some intent =>
    have pending := layout.pending id intent found
    by_cases landed : Landed world.durable intent
    · have published := pending.published
      rw [Host.settled_landed found landed]
      omega
    · rw [Host.settled_partial found landed, (pending.part landed).published]

/-- The durable file holds the blocks and, at its end, at most a beginning of one announced
block. -/
theorem Layout.durable {blocks : Blocks HostId} (layout : Layout content world blocks) :
    ∃ rest, world.durable = content ++ joined blocks ++ rest ∧
      (rest = [] ∨ ∃ id intent, (world.hosts id).intent = some intent ∧
        rest <+: (world.hosts id).announced intent) := by
  by_cases settled : ∀ id intent, (world.hosts id).intent = some intent →
      Landed world.durable intent
  · refine ⟨[], ?_, .inl rfl⟩
    rw [List.append_nil]
    exact layout.quiet settled
  · simp only [not_forall] at settled
    obtain ⟨id, intent, found, missing⟩ := settled
    obtain ⟨count, _, durable⟩ := ((layout.pending id intent found).part missing).landed
    exact ⟨_, durable, .inr ⟨id, intent, found, List.take_prefix _ _⟩⟩

/-- While no daemon starts an append beside one that landed only in part: no call throws, the
next call of a crashed daemon that gets the lock settles its append, and the durable file
consists of whole blocks that are, host by host, the beginning of its tail. A call whose check
of the destination fails, which only such an append can cause, throws and leaves every file
as it was. -/
theorem recovery_proceeds (reached : (system HostId content).Reaches Undisturbed world) :
    (∀ id, (world.hosts id).ended ≠ some .threw) ∧
    (∀ id intent, (world.hosts id).pc = .idle → world.lock = none →
      (world.hosts id).intent = some intent → ∀ force early, ∃ counts after,
        (system HostId content).run world (.flush id force early :: ticks id counts) =
          some after ∧
        (after.hosts id).ended = some .returned ∧ (after.hosts id).intent = none ∧
        (after.hosts id).published = intent.offset + intent.length) ∧
    (∃ blocks rest, world.durable = content ++ joined blocks ++ rest ∧
      (∀ block ∈ blocks, Records block.2) ∧
      (∀ id, (world.hosts id).published ≤ (world.hosts id).settled world.durable ∧
        (world.hosts id).settled world.durable ≤ (world.hosts id).contents.length ∧
        shareOf id blocks =
          (world.hosts id).contents.take ((world.hosts id).settled world.durable)) ∧
      (rest = [] ∨ ∃ id intent, (world.hosts id).intent = some intent ∧
        rest <+: (world.hosts id).announced intent)) ∧
    (∀ (before : World HostId) id offset destination data count,
      (before.hosts id).pc = .locked true offset destination data →
      World.resume before.durable destination data = none →
      ∃ after, before.tick id count = some after ∧ after.durable = before.durable ∧
        SameFiles (before.hosts id) (after.hosts id) ∧
        (after.hosts id).ended = some .threw) := by
  have invariant := reaches_invariant reached
  refine ⟨invariant.sound, ?_, ?_, ?_⟩
  · intro id intent idle free found force early
    obtain ⟨counts, after, replayed, _, ended, cleared, published, _⟩ :=
      rerun_completes invariant idle free found force early
    exact ⟨counts, after, replayed, ended, cleared, published⟩
  · obtain ⟨blocks, layout⟩ := invariant.layout
    obtain ⟨rest, durable, announced⟩ := layout.durable
    exact ⟨blocks, rest, durable, layout.whole, fun id =>
      ⟨layout.published_le id, layout.within id, layout.share id⟩, announced⟩
  · intro before id offset destination data count pc conflict
    have taken : before.tick id count =
        some ((before.set id ((before.hosts id).finish .threw)).unlock id) := by
      simp only [World.tick, pc, conflict]
    refine ⟨_, taken, rfl, ?_, ?_⟩
    · rw [(Moves.unlock before id _).self]
      exact ⟨rfl, rfl, rfl⟩
    · rw [(Moves.unlock before id _).self]
      rfl

/-! ## A checked run of two daemons -/

instance [Fintype HostId] (world : World HostId) (id : HostId) :
    Decidable (OthersLanded world id) :=
  decidable_of_iff (∀ other, other ≠ id → (world.hosts other).intent.all
    (fun intent => decide (Landed world.durable intent)) = true) (by
      simp only [OthersLanded, Option.all_eq_true, decide_eq_true_eq])

instance [Fintype HostId] (world : World HostId) : (action : Action HostId) →
    Decidable (Undisturbed world action)
  | .append .. => .isTrue trivial
  | .flush .. => .isTrue trivial
  | .crash _ => .isTrue trivial
  | .tick id _ => inferInstanceAs (Decidable ((world.hosts id).pc.intends = true → _))

/-- A daemon crashes after its record has landed; another daemon appends behind it. -/
def followedFlush : List (Action Bool) :=
  [.append false [97, 10], .append true [98, 10],
    .flush false true false, .tick false 0, .tick false 0, .tick false 0, .tick false 0,
    .tick false 2, .crash false,
    .flush true true false, .tick true 0, .tick true 0, .tick true 0, .tick true 0, .tick true 2,
    .tick true 0, .tick true 0]

/-- The crashed daemon still finds its record in place and settles it. -/
theorem recovery_proceeds_followed :
    ∃ world, (system Bool []).runAllowed Undisturbed (system Bool []).initial followedFlush =
        some world ∧
      world.durable = [97, 10, 98, 10] ∧
      ∃ counts after, (system Bool []).run world (.flush false true false :: ticks false counts) =
          some after ∧
        (after.hosts false).ended = some .returned ∧ (after.hosts false).published = 2 := by
  obtain ⟨world, replayed, durable, idle, free, found⟩ : ∃ world,
      (system Bool []).runAllowed Undisturbed (system Bool []).initial followedFlush =
        some world ∧ world.durable = [97, 10, 98, 10] ∧ (world.hosts false).pc = .idle ∧
        world.lock = none ∧ (world.hosts false).intent = some ⟨0, 2, 0⟩ :=
    ⟨_, rfl, by decide, by decide, by decide, by decide⟩
  have facts := recovery_proceeds (.of_runAllowed followedFlush .initial replayed)
  obtain ⟨counts, after, rerun, ended, _, published⟩ :=
    facts.2.1 false _ idle free found true false
  exact ⟨world, replayed, durable, counts, after, rerun, ended, published⟩

end Chitta.RuntimeLedger
