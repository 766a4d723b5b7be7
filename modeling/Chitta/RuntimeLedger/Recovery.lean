import Mathlib.Data.Fintype.Basic
import Chitta.RuntimeLedger.Delivery

/-!
# Recovery of an interrupted flush

The invariant is carried through whole runs. Under it the next call of an interrupted daemon
that gets the lock passes its check against the durable file, writes what is missing, publishes
the offset and removes the intent.
-/
namespace Chitta.RuntimeLedger

variable {HostId : Type} [DecidableEq HostId] {content : Bytes}
variable {world after : World HostId} {id : HostId}

/-! ## Whole runs -/

/-- One operation of a call keeps the invariant. -/
theorem tick_keeps (invariant : Invariant content world) {count : Nat}
    (alone : Undisturbed world (.tick id count)) (taken : world.tick id count = some after) :
    Invariant content after := by
  unfold World.tick at taken
  cases pc : (world.hosts id).pc with
  | idle => simp [pc] at taken
  | measured recovering offset length destination size =>
    simp only [pc, Option.some.injEq] at taken
    exact taken ▸ load_keeps invariant pc
  | loaded recovering offset destination data =>
    cases lock : world.lock with
    | none =>
      simp only [pc, lock, Option.some.injEq] at taken
      exact taken ▸ lock_keeps invariant pc lock
    | some holder =>
      simp only [pc, lock, Option.some.injEq] at taken
      exact taken ▸ invariant.move (.set world id _) rfl ⟨rfl, rfl, rfl⟩ trivial
        (by simp [Host.finish])
  | locked recovering offset destination data =>
    cases recovering with
    | true =>
      obtain ⟨_, rest, _, passed, _⟩ := resume_passes invariant pc
      simp only [pc, passed, Option.some.injEq] at taken
      exact taken ▸ resume_keeps invariant pc passed
    | false =>
      simp only [pc, Option.some.injEq] at taken
      exact taken ▸ end_keeps invariant pc
  | intending offset destination data =>
    have others := alone (by rw [pc]; rfl)
    simp only [pc, Option.some.injEq] at taken
    exact taken ▸ intend_keeps invariant pc others
  | writing offset data rest =>
    cases rest with
    | nil =>
      simp only [pc, Option.some.injEq] at taken
      exact taken ▸ publish_keeps invariant pc
    | cons byte rest =>
      simp only [pc] at taken
      split at taken
      · contradiction
      · exact Option.some.inj taken ▸ write_keeps invariant pc (List.cons_ne_nil byte rest)
  | clearing =>
    simp only [pc, Option.some.injEq] at taken
    exact taken ▸ clear_keeps invariant pc

/-- One action keeps the invariant. -/
theorem step_keeps (invariant : Invariant content world) (action : Action HostId)
    (alone : Undisturbed world action) (taken : world.step action = some after) :
    Invariant content after := by
  cases action with
  | append id bytes => exact Option.some.inj taken ▸ append_keeps invariant bytes
  | flush id force early =>
    simp only [World.step] at taken
    split at taken
    · exact Option.some.inj taken ▸ begin_keeps invariant force early
    · contradiction
  | tick id count => exact tick_keeps invariant alone taken
  | crash id => exact Option.some.inj taken ▸ crash_keeps invariant

/-- The invariant holds in every run in which no append starts beside a pending intent. -/
theorem reaches_invariant (reached : (system HostId content).Reaches Undisturbed world) :
    Invariant content world := by
  refine reached.invariant ⟨⟨[], ?_⟩, fun _ => trivial, fun _ => by simp [system]⟩
    fun _ action _ invariant alone taken => step_keeps invariant action alone taken
  refine ⟨by simp, fun _ => ?_, fun _ => Nat.zero_le _, fun _ => ?_, fun _ _ found => ?_⟩
  · rfl
  · exact (List.append_nil content).symm
  · contradiction

/-! ## What a step leaves alone -/

/-- The start of a call changes no file. -/
theorem begin_files (host : Host) (force early : Bool) :
    SameFiles host (begin host force early) := by
  unfold begin
  dsimp only
  repeat' split
  all_goals exact ⟨rfl, rfl, rfl⟩

/-- Reading the records changes no file. -/
theorem load_files (host : Host) (recovering : Bool) (offset length destination size : Nat) :
    SameFiles host (load host recovering offset length destination size) := by
  unfold load
  dsimp only
  repeat' split
  all_goals exact ⟨rfl, rfl, rfl⟩


/-- An operation of a call takes no bytes from the durable file and changes no other host. -/
theorem tick_frame {count : Nat} (taken : world.tick id count = some after) :
    world.durable <+: after.durable ∧
      ∀ other, other ≠ id → after.hosts other = world.hosts other := by
  have updated (host : Host) : world.durable <+: (world.set id host).durable ∧
      ∀ other, other ≠ id → (world.set id host).hosts other = world.hosts other :=
    ⟨List.prefix_rfl, fun _ apart => World.set_other _ _ apart⟩
  unfold World.tick at taken
  cases pc : (world.hosts id).pc with
  | idle => simp [pc] at taken
  | loaded recovering offset destination data =>
    cases lock : world.lock <;> simp only [pc, lock, Option.some.injEq] at taken <;>
      exact taken ▸ updated _
  | locked recovering offset destination data =>
    cases recovering with
    | false =>
      simp only [pc, Option.some.injEq] at taken
      exact taken ▸ updated _
    | true =>
      cases passed : World.resume world.durable destination data <;>
        simp only [pc, passed, Option.some.injEq] at taken <;> exact taken ▸ updated _
  | writing offset data rest =>
    cases rest with
    | nil =>
      simp only [pc, Option.some.injEq] at taken
      exact taken ▸ updated _
    | cons byte rest =>
      simp only [pc] at taken
      split at taken
      · contradiction
      · exact Option.some.inj taken ▸ ⟨List.prefix_append _ _, (updated _).2⟩
  | _ =>
    simp only [pc, Option.some.injEq] at taken
    exact taken ▸ updated _

/-- No action takes bytes from the durable file. -/
theorem step_grows (action : Action HostId) (taken : world.step action = some after) :
    world.durable <+: after.durable := by
  cases action with
  | append id bytes => exact Option.some.inj taken ▸ List.prefix_rfl
  | flush id force early =>
    simp only [World.step] at taken
    split at taken
    · exact Option.some.inj taken ▸ List.prefix_rfl
    · contradiction
  | tick id count => exact (tick_frame taken).1
  | crash id => exact Option.some.inj taken ▸ List.prefix_rfl

/-- No replay takes bytes from the durable file. -/
theorem run_grows (actions : List (Action HostId))
    (replayed : (system HostId content).run world actions = some after) :
    world.durable <+: after.durable :=
  Machine.run_invariant (fun later => world.durable <+: later.durable)
    (fun _ action _ front taken => front.trans (step_grows action taken)) actions
    List.prefix_rfl replayed

/-! ## Completing an interrupted call -/

/-- The operations of one call, with what each `write` accepts. -/
def ticks (id : HostId) (counts : List Nat) : List (Action HostId) := counts.map (.tick id)

/-- The call of a host can run to its end, and there the append its intent announced is
settled. -/
def Completes (content : Bytes) (world : World HostId) (id : HostId) (intent : Intent) : Prop :=
  ∃ counts after, (system HostId content).run world (ticks id counts) = some after ∧
    Invariant content after ∧ (after.hosts id).ended = some .returned ∧
    (after.hosts id).intent = none ∧
    (after.hosts id).published = intent.offset + intent.length ∧
    (after.hosts id).contents = (world.hosts id).contents

/-- A call that completes after its next operation completes. -/
theorem Completes.cons {intent : Intent} {count : Nat} (taken : world.tick id count = some after)
    (contents : (after.hosts id).contents = (world.hosts id).contents)
    (rest : Completes content after id intent) : Completes content world id intent := by
  obtain ⟨counts, last, replayed, invariant, ended, cleared, published, same⟩ := rest
  have first : (system HostId content).step world (.tick id count) = some after := taken
  refine ⟨count :: counts, last, ?_, invariant, ended, cleared, published, same.trans contents⟩
  simp only [ticks, List.map_cons, Machine.run, first]
  exact replayed

/-- The removal of the intent ends the call. -/
theorem clearing_completes (invariant : Invariant content world)
    (pc : (world.hosts id).pc = .clearing) {intent : Intent}
    (found : (world.hosts id).intent = some intent) : Completes content world id intent := by
  have knows := invariant.program id
  rw [Program, pc] at knows
  obtain ⟨_, known, same, published, _⟩ := knows
  rw [found] at same
  obtain rfl := Option.some.inj same
  set host : Host := { (world.hosts id).finish .returned with intent := none }
  have taken : world.tick id 0 = some ((world.set id host).unlock id) := by
    simp only [World.tick, pc]
    rfl
  have self : ((world.set id host).unlock id).hosts id = host := world.set_self id host
  have first : (system HostId content).step world (.tick id 0) =
      some ((world.set id host).unlock id) := taken
  refine ⟨[0], _, ?_, clear_keeps invariant pc, ?_, ?_, ?_, ?_⟩
  · simp only [ticks, List.map_cons, List.map_nil, Machine.run, first]
    rfl
  · rw [self]
    rfl
  · rw [self]
  · rw [self]
    exact published
  · rw [self]
    rfl

/-- A call with nothing left to write publishes the offset and removes the intent. -/
theorem written_completes (invariant : Invariant content world) {offset : Nat} {data : Bytes}
    (pc : (world.hosts id).pc = .writing offset data []) {intent : Intent}
    (found : (world.hosts id).intent = some intent) : Completes content world id intent := by
  have taken : world.tick id 0 = some (world.set id { (world.hosts id).goto .clearing with
      offset := some (offset + data.length) }) := by
    simp only [World.tick, pc]
  apply Completes.cons taken
  · rw [World.set_self]
    rfl
  · apply clearing_completes (publish_keeps invariant pc)
    · rw [World.set_self]
      rfl
    · rw [World.set_self]
      exact found

/-- A call with bytes left to write completes. -/
theorem writing_completes (invariant : Invariant content world) {offset : Nat}
    {data rest : Bytes} (pc : (world.hosts id).pc = .writing offset data rest) {intent : Intent}
    (found : (world.hosts id).intent = some intent) : Completes content world id intent := by
  cases rest with
  | nil => exact written_completes invariant pc found
  | cons byte rest =>
    -- One `write` accepts everything that is left.
    have taken : world.tick id (rest.length + 1) =
        some (world.wrote id offset data (byte :: rest) (rest.length + 1)) := by
      simp only [World.tick, pc, Nat.add_one_ne_zero, ↓reduceIte]
      rfl
    have moves := Moves.wrote world id offset data (byte :: rest) (rest.length + 1)
    have nothing_left : (byte :: rest).drop (rest.length + 1) = [] := by simp
    rw [nothing_left] at moves
    apply Completes.cons taken
    · rw [moves.self]
      rfl
    · have written : ((world.wrote id offset data (byte :: rest) (rest.length + 1)).hosts id).pc =
          .writing offset data [] := by
        rw [moves.self]
        rfl
      apply written_completes (write_keeps invariant pc (List.cons_ne_nil byte rest)) written
      rw [moves.self]
      exact found

/-- A recovering call that holds the lock passes the check and completes. -/
theorem locked_completes (invariant : Invariant content world) {offset destination : Nat}
    {data : Bytes} (pc : (world.hosts id).pc = .locked true offset destination data)
    {intent : Intent} (found : (world.hosts id).intent = some intent) :
    Completes content world id intent := by
  obtain ⟨_, rest, _, passed, _⟩ := resume_passes invariant pc
  have taken : world.tick id 0 =
      some (world.set id ((world.hosts id).goto (.writing offset data rest))) := by
    simp only [World.tick, pc, passed]
  apply Completes.cons taken
  · rw [World.set_self]
    rfl
  · have writing :
        ((world.set id ((world.hosts id).goto (.writing offset data rest))).hosts id).pc =
        .writing offset data rest := by
      rw [World.set_self]
      rfl
    apply writing_completes (resume_keeps invariant pc passed) writing
    rw [World.set_self]
    exact found

/-- A recovering call that has read its records gets the free lock and completes. -/
theorem loaded_completes (invariant : Invariant content world) {offset destination : Nat}
    {data : Bytes} (pc : (world.hosts id).pc = .loaded true offset destination data)
    (free : world.lock = none) {intent : Intent}
    (found : (world.hosts id).intent = some intent) : Completes content world id intent := by
  set locked : World HostId :=
    { world.set id ((world.hosts id).goto (.locked true offset destination data)) with
      lock := some id }
  have self : locked.hosts id = (world.hosts id).goto (.locked true offset destination data) :=
    world.set_self id _
  have taken : world.tick id 0 = some locked := by
    simp only [World.tick, pc, free]
    rfl
  have holding : (locked.hosts id).pc = .locked true offset destination data := by
    rw [self]
    rfl
  apply Completes.cons taken
  · rw [self]
    rfl
  · apply locked_completes (lock_keeps invariant pc free) holding
    rw [self]
    exact found

/-- A recovering call reads back exactly the records its intent announced. -/
theorem load_recovering (invariant : Invariant content world) {intent : Intent} (size : Nat)
    (found : (world.hosts id).intent = some intent) :
    load (world.hosts id) true intent.offset intent.length intent.destination size =
      (world.hosts id).goto
        (.loaded true intent.offset intent.destination ((world.hosts id).announced intent)) := by
  obtain ⟨blocks, layout⟩ := invariant.layout
  have pending := layout.pending id intent found
  have full := slice_length _ _ _ pending.fits
  simp only [slice] at full
  simp only [load, ↓reduceIte, full, ne_eq, not_true_eq_false]
  rfl

/-- A recovering call that has read the file sizes completes when the lock is free. -/
theorem measured_completes (invariant : Invariant content world) {intent : Intent} {size : Nat}
    (pc : (world.hosts id).pc =
      .measured true intent.offset intent.length intent.destination size)
    (free : world.lock = none) (found : (world.hosts id).intent = some intent) :
    Completes content world id intent := by
  have taken : world.tick id 0 = some (world.set id ((world.hosts id).goto (.loaded true
      intent.offset intent.destination ((world.hosts id).announced intent)))) := by
    simp only [World.tick, pc, load_recovering invariant size found]
  have kept := load_keeps invariant pc
  rw [load_recovering invariant size found] at kept
  apply Completes.cons taken
  · rw [World.set_self]
    rfl
  · have loaded : ((world.set id ((world.hosts id).goto (.loaded true intent.offset
        intent.destination ((world.hosts id).announced intent)))).hosts id).pc =
        .loaded true intent.offset intent.destination ((world.hosts id).announced intent) := by
      rw [World.set_self]
      rfl
    apply loaded_completes kept loaded free
    rw [World.set_self]
    exact found

/-- A call that finds an intent starts to recover, whatever the flush interval says. -/
theorem begin_recovering (invariant : Invariant content world) {intent : Intent}
    (found : (world.hosts id).intent = some intent) (force early : Bool) :
    begin (world.hosts id) force early = (world.hosts id).goto (.measured true intent.offset
      intent.length intent.destination (world.hosts id).contents.length) := by
  obtain ⟨blocks, layout⟩ := invariant.layout
  have pending := layout.pending id intent found
  have fits := pending.fits
  have nonempty : (world.hosts id).contents ≠ [] := by
    intro empty
    have whole := pending.whole
    simp [Host.announced, slice, empty, Records] at whole
  cases tail : (world.hosts id).tail with
  | none => simp [Host.contents, tail] at nonempty
  | some bytes =>
    have contents : (world.hosts id).contents = bytes := by rw [Host.contents, tail]; rfl
    rw [contents] at fits
    have inside : ¬ bytes.length < intent.offset := by omega
    simp [begin, found, tail, contents, inside]

/-- A recovering call that gets the lock and is not interrupted writes what is missing,
publishes the offset and removes the intent. -/
theorem rerun_completes (invariant : Invariant content world)
    (idle : (world.hosts id).pc = .idle) (free : world.lock = none) {intent : Intent}
    (found : (world.hosts id).intent = some intent) (force early : Bool) :
    ∃ counts after, (system HostId content).run world (.flush id force early :: ticks id counts) =
        some after ∧
      Invariant content after ∧ (after.hosts id).ended = some .returned ∧
      (after.hosts id).intent = none ∧
      (after.hosts id).published = intent.offset + intent.length ∧
      (after.hosts id).contents = (world.hosts id).contents := by
  set started := world.set id (begin (world.hosts id) force early) with defined
  have first : (system HostId content).step world (.flush id force early) = some started := by
    change world.step (.flush id force early) = some started
    simp only [World.step, idle, ↓reduceIte, defined]
  have self : started.hosts id = (world.hosts id).goto (.measured true intent.offset
      intent.length intent.destination (world.hosts id).contents.length) := by
    rw [defined, World.set_self]
    exact begin_recovering invariant found force early
  have completes : Completes content started id intent := by
    have measured : (started.hosts id).pc = .measured true intent.offset intent.length
        intent.destination (world.hosts id).contents.length := by
      rw [self]
      rfl
    apply measured_completes (begin_keeps invariant force early) measured free
    rw [self]
    exact found
  obtain ⟨counts, after, replayed, kept, ended, cleared, published, contents⟩ := completes
  refine ⟨counts, after, ?_, kept, ended, cleared, published, ?_⟩
  · simp only [Machine.run, first]
    exact replayed
  · rw [contents, self]
    rfl

end Chitta.RuntimeLedger
