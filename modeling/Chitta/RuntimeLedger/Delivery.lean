import Mathlib.Tactic.Set
import Chitta.RuntimeLedger.Flush

/-!
# Every record once, whole and in order

The durable file is its initial content followed by blocks of whole records, each block from
one host, and possibly the beginning of one block whose intent is still published. The blocks
of a host, in order, are the beginning of its tail up to the offset it has settled. The
invariant holds in every run in which no daemon publishes an intent while the append of
another, crashed daemon has landed only in part; with a single host that condition is empty.
-/
namespace Chitta.RuntimeLedger

variable {HostId : Type} [DecidableEq HostId] {content : Bytes}

/-- The settled blocks of all hosts, in the order of the durable file. -/
abbrev Blocks (HostId : Type) := List (HostId × Bytes)

/-- The bytes of all blocks. -/
def joined (blocks : Blocks HostId) : Bytes := blocks.flatMap (·.2)

/-- The bytes of the blocks of one host. -/
def shareOf (id : HostId) (blocks : Blocks HostId) : Bytes :=
  (blocks.filter (·.1 = id)).flatMap (·.2)

/-- The durable file reaches past the append an intent announces. -/
def Landed (durable : Bytes) (intent : Intent) : Prop :=
  intent.destination + intent.length ≤ durable.length

instance (durable : Bytes) (intent : Intent) : Decidable (Landed durable intent) :=
  inferInstanceAs (Decidable (_ ≤ _))

/-- The tail position up to which the blocks of a host are in the durable file. -/
def Host.settled (host : Host) (durable : Bytes) : Nat :=
  match host.intent with
  | some intent =>
    if Landed durable intent then intent.offset + intent.length else intent.offset
  | none => host.published

/-- Whole records of the tail at a position, held in memory. -/
structure Prepared (tail : Bytes) (offset : Nat) (data : Bytes) : Prop where
  /-- They are inside the tail. -/
  fits : offset + data.length ≤ tail.length
  /-- They are the bytes of the tail. -/
  read : slice tail offset data.length = data
  /-- They are whole records. -/
  whole : Records data

/-- Where the local variables of a call come from: the intent, or the offset file. -/
def Source (host : Host) (recovering : Bool) (offset length destination : Nat) : Prop :=
  if recovering then host.intent = some ⟨offset, length, destination⟩
  else host.intent = none ∧ host.published = offset

/-- What a call at a program counter knows, and that it holds the lock while it reads or writes
the durable file. -/
def Knows (world : World HostId) (id : HostId) (host : Host) : Pc → Prop
  | .idle => True
  | .measured recovering offset length destination size =>
    offset ≤ size ∧ size ≤ host.contents.length ∧
      Source host recovering offset length destination
  | .loaded recovering offset destination data =>
    Prepared host.contents offset data ∧ Source host recovering offset data.length destination
  | .locked recovering offset destination data =>
    world.lock = some id ∧ Prepared host.contents offset data ∧
      Source host recovering offset data.length destination
  | .intending offset destination data =>
    world.lock = some id ∧ Prepared host.contents offset data ∧ Source host false offset 0 0 ∧
      destination = world.durable.length
  | .writing offset data rest =>
    world.lock = some id ∧ Prepared host.contents offset data ∧ ∃ done destination,
      data = done ++ rest ∧ host.intent = some ⟨offset, data.length, destination⟩ ∧
        if rest = [] then Landed world.durable ⟨offset, data.length, destination⟩
        else world.durable.length = destination + done.length
  | .clearing =>
    world.lock = some id ∧ ∃ intent, host.intent = some intent ∧
      host.published = intent.offset + intent.length ∧ Landed world.durable intent

/-- The call in progress on a host knows what it needs. -/
def Program (world : World HostId) (id : HostId) : Prop :=
  Knows world id (world.hosts id) (world.hosts id).pc

/-- The bytes an intent announces. -/
def Host.announced (host : Host) (intent : Intent) : Bytes :=
  slice host.contents intent.offset intent.length

/-- No host other than this one has an append that has landed only in part. -/
def OthersLanded (world : World HostId) (id : HostId) : Prop :=
  ∀ other, other ≠ id → ∀ intent, (world.hosts other).intent = some intent →
    Landed world.durable intent

/-- An append of which only a beginning has landed, at the end of the durable file. -/
structure Partial (content : Bytes) (world : World HostId) (blocks : Blocks HostId)
    (id : HostId) (intent : Intent) : Prop where
  /-- It is the only one. -/
  alone : OthersLanded world id
  /-- It starts where the settled blocks end. -/
  destination : intent.destination = (content ++ joined blocks).length
  /-- A beginning of it has landed. -/
  landed : ∃ count, count < intent.length ∧
    world.durable = content ++ joined blocks ++ ((world.hosts id).announced intent).take count
  /-- Its offset is not published. -/
  published : (world.hosts id).published = intent.offset

/-- A published intent and what has landed of its append. -/
structure Pending (content : Bytes) (world : World HostId) (blocks : Blocks HostId)
    (id : HostId) (intent : Intent) : Prop where
  /-- It starts right after a record. -/
  start : OnBoundary (world.hosts id).contents intent.offset
  /-- It is inside the tail. -/
  fits : intent.offset + intent.length ≤ (world.hosts id).contents.length
  /-- It announces whole records. -/
  whole : Records ((world.hosts id).announced intent)
  /-- The offset file names its start or its end. -/
  published : (world.hosts id).published = intent.offset ∨
    (world.hosts id).published = intent.offset + intent.length
  /-- Once it has landed, its bytes are where the intent says. -/
  landed : Landed world.durable intent →
    slice world.durable intent.destination intent.length = (world.hosts id).announced intent
  /-- Until then its beginning ends the durable file. -/
  part : ¬ Landed world.durable intent → Partial content world blocks id intent

/-- The settled blocks of a world. -/
structure Layout (content : Bytes) (world : World HostId) (blocks : Blocks HostId) : Prop where
  /-- Every block consists of whole records. -/
  whole : ∀ block ∈ blocks, Records block.2
  /-- The blocks of a host are the beginning of its tail. -/
  share : ∀ id, shareOf id blocks =
    (world.hosts id).contents.take ((world.hosts id).settled world.durable)
  /-- The settled position is inside the tail. -/
  within : ∀ id, (world.hosts id).settled world.durable ≤ (world.hosts id).contents.length
  /-- When every append has landed the durable file holds the blocks and nothing else. -/
  quiet : (∀ id intent, (world.hosts id).intent = some intent → Landed world.durable intent) →
    world.durable = content ++ joined blocks
  /-- Every intent announces a block of its host. -/
  pending : ∀ id intent, (world.hosts id).intent = some intent →
    Pending content world blocks id intent

/-- The invariant of the runs in which no append starts beside one that landed in part. -/
structure Invariant (content : Bytes) (world : World HostId) : Prop where
  /-- The durable file is laid out in blocks. -/
  layout : ∃ blocks, Layout content world blocks
  /-- Every call in progress knows what it needs. -/
  program : ∀ id, Program world id
  /-- No call has thrown one of the errors of `flush`. -/
  sound : ∀ id, (world.hosts id).ended ≠ some .threw

/-- A call about to publish its intent. -/
def Pc.intends : Pc → Bool
  | .intending .. => true
  | _ => false

/-- The condition on a step: a daemon publishes an intent only while the append of every other
intent has landed. -/
def Undisturbed (world : World HostId) : Action HostId → Prop
  | .tick id _ => (world.hosts id).pc.intends = true → OthersLanded world id
  | _ => True

/-! ## Records -/

/-- Records before further records are records. -/
theorem Records.append_left {front data : Bytes} (whole : Records data) :
    Records (front ++ data) := by
  rw [Records, List.getLast?_append, whole]
  rfl

/-- The blocks of a host are nothing or whole records. -/
theorem shareOf_records {id : HostId} {blocks : Blocks HostId}
    (whole : ∀ block ∈ blocks, Records block.2) :
    shareOf id blocks = [] ∨ Records (shareOf id blocks) := by
  induction blocks with
  | nil => exact .inl rfl
  | cons block rest ih =>
    have later := ih fun other member => whole other (List.mem_cons_of_mem _ member)
    by_cases own : block.1 = id
    · have split : shareOf id (block :: rest) = block.2 ++ shareOf id rest := by
        simp [shareOf, own]
      rw [split]
      cases later with
      | inl empty =>
        rw [empty, List.append_nil]
        exact .inr (whole block List.mem_cons_self)
      | inr records => exact .inr records.append_left
    · have same : shareOf id (block :: rest) = shareOf id rest := by simp [shareOf, own]
      rw [same]
      exact later

omit [DecidableEq HostId] in
/-- A position inside the tail stays on its boundary when the tail grows. -/
theorem OnBoundary.append {tail : Bytes} {offset : Nat} (boundary : OnBoundary tail offset)
    (inside : offset ≤ tail.length) (more : Bytes) : OnBoundary (tail ++ more) offset := by
  rw [OnBoundary, List.take_append_of_le_length inside]
  exact boundary

/-! ## Frames -/

/-- Two hosts with the same local files. -/
def SameFiles (before after : Host) : Prop :=
  after.tail = before.tail ∧ after.offset = before.offset ∧ after.intent = before.intent

/-- What has landed stays landed while the durable file grows. -/
theorem Landed.mono {durable longer : Bytes} {intent : Intent} (landed : Landed durable intent)
    (front : durable <+: longer) : Landed longer intent :=
  Nat.le_trans landed front.length_le

/-- Without an intent the settled position is the published offset. -/
theorem Host.settled_none {host : Host} {durable : Bytes} (absent : host.intent = none) :
    host.settled durable = host.published := by
  rw [Host.settled, absent]

/-- After an append has landed the settled position is its end. -/
theorem Host.settled_landed {host : Host} {durable : Bytes} {intent : Intent}
    (found : host.intent = some intent) (landed : Landed durable intent) :
    host.settled durable = intent.offset + intent.length := by
  simp only [Host.settled, found, landed, ↓reduceIte]

/-- Until an append has landed the settled position is its start. -/
theorem Host.settled_partial {host : Host} {durable : Bytes} {intent : Intent}
    (found : host.intent = some intent) (short : ¬ Landed durable intent) :
    host.settled durable = intent.offset := by
  simp only [Host.settled, found, short, ↓reduceIte]

/-- The settled position never lies before the start of the intent. -/
theorem Host.offset_le_settled {host : Host} {intent : Intent} (durable : Bytes)
    (found : host.intent = some intent) : intent.offset ≤ host.settled durable := by
  by_cases landed : Landed durable intent
  · rw [Host.settled_landed found landed]
    exact Nat.le_add_right _ _
  · exact Nat.le_of_eq (Host.settled_partial found landed).symm

section Frames

variable {world after : World HostId} {blocks : Blocks HostId} {id : HostId}

omit [DecidableEq HostId] in
/-- An append is still pending when the tail and the offset of its host stay and what has landed of
it is right. -/
theorem Pending.keep {extended : Blocks HostId} {intent : Intent}
    (pending : Pending content world blocks id intent)
    (contents : (after.hosts id).contents = (world.hosts id).contents)
    (published : (after.hosts id).published = (world.hosts id).published)
    (landed : Landed after.durable intent →
      slice after.durable intent.destination intent.length = (world.hosts id).announced intent)
    (part : ¬ Landed after.durable intent → Partial content after extended id intent) :
    Pending content after extended id intent := by
  have announced : (after.hosts id).announced intent = (world.hosts id).announced intent := by
    rw [Host.announced, Host.announced, contents]
  refine ⟨?_, ?_, ?_, ?_, ?_, part⟩
  · rw [contents]
    exact pending.start
  · rw [contents]
    exact pending.fits
  · rw [announced]
    exact pending.whole
  · rw [published]
    exact pending.published
  · rw [announced]
    exact landed

/-- The layout reads only the files. -/
theorem Layout.congr (layout : Layout content world blocks)
    (files : ∀ other, SameFiles (world.hosts other) (after.hosts other))
    (durable : after.durable = world.durable) : Layout content after blocks := by
  have contents : ∀ other, (after.hosts other).contents = (world.hosts other).contents :=
    fun other => by rw [Host.contents, Host.contents, (files other).1]
  have published : ∀ other, (after.hosts other).published = (world.hosts other).published :=
    fun other => by rw [Host.published, Host.published, (files other).2.1]
  have intents : ∀ other, (after.hosts other).intent = (world.hosts other).intent :=
    fun other => (files other).2.2
  have settled : ∀ other, (after.hosts other).settled after.durable =
      (world.hosts other).settled world.durable :=
    fun other => by rw [Host.settled, Host.settled, intents, published, durable]
  have announced : ∀ other intent,
      (after.hosts other).announced intent = (world.hosts other).announced intent :=
    fun other intent => by rw [Host.announced, Host.announced, contents]
  refine ⟨layout.whole, fun other => ?_, fun other => ?_, fun landed => ?_,
    fun other intent found => ?_⟩
  · rw [layout.share, contents, settled]
  · rw [contents, settled]
    exact layout.within other
  · rw [durable]
    apply layout.quiet
    intro other intent found
    rw [← durable]
    exact landed other intent (intents other ▸ found)
  · have pending := layout.pending other intent (intents other ▸ found)
    refine pending.keep (contents other) (published other) ?_ fun short => ?_
    · rw [durable]
      exact pending.landed
    · rw [durable] at short
      have part := pending.part short
      refine ⟨fun third apart foreign has => ?_, part.destination, ?_, ?_⟩
      · rw [durable]
        exact part.alone third apart foreign (intents third ▸ has)
      · rw [announced, durable]
        exact part.landed
      · rw [published]
        exact part.published

omit [DecidableEq HostId] in
/-- Another host keeps its knowledge while the lock does not leave it and, if it holds the
lock, the durable file stays. -/
theorem Program.frame {other : HostId} (program : Program world other)
    (same : after.hosts other = world.hosts other)
    (lock : world.lock = some other → after.lock = some other ∧ after.durable = world.durable) :
    Program after other := by
  unfold Program at program ⊢
  rw [same]
  cases pc : (world.hosts other).pc <;> rw [pc] at program
  case idle => trivial
  case measured => exact program
  case loaded => exact program
  case locked => exact ⟨(lock program.1).1, program.2⟩
  case intending =>
    obtain ⟨held, durable⟩ := lock program.1
    exact ⟨held, by simpa only [durable] using program.2⟩
  case writing =>
    obtain ⟨held, durable⟩ := lock program.1
    exact ⟨held, by simpa only [durable] using program.2⟩
  case clearing =>
    obtain ⟨held, durable⟩ := lock program.1
    exact ⟨held, by simpa only [durable] using program.2⟩

/-- The changed host after an update. -/
@[simp] theorem World.set_self (world : World HostId) (id : HostId) (host : Host) :
    (world.set id host).hosts id = host := by
  simp [World.set]

/-- The other hosts after an update. -/
@[simp] theorem World.set_other (world : World HostId) {id other : HostId} (host : Host)
    (apart : other ≠ id) : (world.set id host).hosts other = world.hosts other := by
  simp [World.set, apart]

/-- An update of a host touches neither the durable file nor the lock. -/
@[simp] theorem World.set_durable (world : World HostId) (id : HostId) (host : Host) :
    (world.set id host).durable = world.durable := rfl

@[simp] theorem World.set_lock (world : World HostId) (id : HostId) (host : Host) :
    (world.set id host).lock = world.lock := rfl

/-- What the changed host looks like after its own step, the other hosts being as before. -/
structure Moves (world after : World HostId) (id : HostId) (host : Host) : Prop where
  /-- The changed host. -/
  self : after.hosts id = host
  /-- The other hosts. -/
  others : ∀ other, other ≠ id → after.hosts other = world.hosts other
  /-- The lock does not leave another holder. -/
  lock : ∀ other, other ≠ id → world.lock = some other → after.lock = some other

/-- A step of one host keeps the invariant when it keeps the layout and leaves its own call
with what it needs; the durable file may change only under the lock of that host. -/
theorem Invariant.update {host : Host} (invariant : Invariant content world)
    (moves : Moves world after id host) (layout : ∃ blocks, Layout content after blocks)
    (durable : ∀ other, other ≠ id → world.lock = some other → after.durable = world.durable)
    (knows : Knows after id host host.pc) (sound : host.ended ≠ some .threw) :
    Invariant content after := by
  refine ⟨layout, fun other => ?_, fun other => ?_⟩
  · by_cases same : other = id
    · subst same
      rw [Program, moves.self]
      exact knows
    · exact (invariant.program other).frame (moves.others other same) fun held =>
        ⟨moves.lock other same held, durable other same held⟩
  · by_cases same : other = id
    · subst same
      rw [moves.self]
      exact sound
    · rw [moves.others other same]
      exact invariant.sound other

/-- A step that moves the call in progress of one host and changes no file. -/
theorem Invariant.move {host : Host} (invariant : Invariant content world)
    (moves : Moves world after id host) (durable : after.durable = world.durable)
    (files : SameFiles (world.hosts id) host) (knows : Knows after id host host.pc)
    (sound : host.ended ≠ some .threw) : Invariant content after := by
  obtain ⟨blocks, layout⟩ := invariant.layout
  refine invariant.update moves ⟨blocks, layout.congr (fun other => ?_) durable⟩
    (fun _ _ _ => durable) knows sound
  by_cases same : other = id
  · subst same
    rw [moves.self]
    exact files
  · rw [moves.others other same]
    exact ⟨rfl, rfl, rfl⟩

/-- The layout after the files of one host, or the durable file under its lock, changed. -/
theorem Layout.change {host : Host} {extended : Blocks HostId}
    (layout : Layout content world blocks) (moves : Moves world after id host)
    (whole : ∀ block ∈ extended, Records block.2)
    (others : ∀ other, other ≠ id → shareOf other extended = shareOf other blocks)
    (settled : ∀ other, other ≠ id →
      (world.hosts other).settled after.durable = (world.hosts other).settled world.durable)
    (share : shareOf id extended = host.contents.take (host.settled after.durable))
    (within : host.settled after.durable ≤ host.contents.length)
    (quiet : (∀ other, other ≠ id → ∀ intent, (world.hosts other).intent = some intent →
        Landed after.durable intent) →
      (∀ intent, host.intent = some intent → Landed after.durable intent) →
      after.durable = content ++ joined extended)
    (own : ∀ intent, host.intent = some intent → Pending content after extended id intent)
    (foreign : ∀ other intent, other ≠ id → (world.hosts other).intent = some intent →
      Pending content after extended other intent) :
    Layout content after extended := by
  refine ⟨whole, fun other => ?_, fun other => ?_, fun landed => ?_, fun other intent found => ?_⟩
  · by_cases same : other = id
    · subst same
      rw [moves.self]
      exact share
    · rw [moves.others other same, others other same, settled other same]
      exact layout.share other
  · by_cases same : other = id
    · subst same
      rw [moves.self]
      exact within
    · rw [moves.others other same, settled other same]
      exact layout.within other
  · apply quiet
    · intro other apart intent found
      rw [← moves.others other apart] at found
      exact landed other intent found
    · intro intent found
      rw [← moves.self] at found
      exact landed id intent found
  · by_cases same : other = id
    · subst same
      rw [moves.self] at found
      exact own intent found
    · rw [moves.others other same] at found
      exact foreign other intent same found

/-- A pending append of another host, when the step leaves the durable file alone and adds no
intent to the changed host. -/
theorem Pending.frame {host : Host} {other : HostId} {intent : Intent}
    (pending : Pending content world blocks other intent) (moves : Moves world after id host)
    (apart : other ≠ id) (durable : after.durable = world.durable)
    (kept : ∀ own, host.intent = some own → (world.hosts id).intent = some own) :
    Pending content after blocks other intent := by
  have same := moves.others other apart
  refine pending.keep (congrArg Host.contents same) (congrArg Host.published same) ?_
    fun short => ?_
  · rw [durable]
    exact pending.landed
  · rw [durable] at short
    have part := pending.part short
    refine ⟨fun third different foreign found => ?_, part.destination, ?_, ?_⟩
    · rw [durable]
      apply part.alone third different
      by_cases changed : third = id
      · subst changed
        rw [moves.self] at found
        exact kept foreign found
      · rw [moves.others third changed] at found
        exact found
    · rw [same, durable]
      exact part.landed
    · rw [same]
      exact part.published

/-- An update of one host moves that host. -/
theorem Moves.set (world : World HostId) (id : HostId) (host : Host) :
    Moves world (world.set id host) id host :=
  ⟨world.set_self id host, fun _ apart => world.set_other host apart, fun _ _ held => held⟩

/-- Giving up the lock takes it from no other host. -/
theorem Moves.unlock (world : World HostId) (id : HostId) (host : Host) :
    Moves world ((world.set id host).unlock id) id host := by
  refine ⟨world.set_self id host, fun _ apart => world.set_other host apart,
    fun other apart held => ?_⟩
  simp [World.unlock, held, apart]

end Frames

/-! ## Steps that change no file -/

section Steps

variable {world : World HostId} {id : HostId}

/-- The start of a call keeps the invariant. -/
theorem begin_keeps (invariant : Invariant content world) (force early : Bool) :
    Invariant content (world.set id (begin (world.hosts id) force early)) := by
  obtain ⟨blocks, layout⟩ := invariant.layout
  have within := layout.within id
  -- Every branch leaves the files alone; only the last one starts a call.
  have ends (outcome : Outcome) (fine : outcome ≠ .threw) :
      Invariant content (world.set id ((world.hosts id).finish outcome)) :=
    invariant.move (.set world id _) rfl ⟨rfl, rfl, rfl⟩ trivial (by simpa [Host.finish] using fine)
  unfold begin
  cases tail : (world.hosts id).tail with
  | none => exact ends .returned (by decide)
  | some bytes =>
    have contents : (world.hosts id).contents = bytes := by rw [Host.contents, tail]; rfl
    cases intent : (world.hosts id).intent with
    | none =>
      rw [Host.settled_none intent, contents] at within
      simp only [Option.isSome_none, Bool.not_false, Bool.true_and, Bool.and_true]
      rw [if_neg (by omega)]
      split
      · exact ends .returned (by decide)
      · split
        · exact ends .returned (by decide)
        · refine invariant.move (.set world id _) rfl ⟨rfl, rfl, rfl⟩ ?_ (by simp [Host.goto])
          exact ⟨within, by simp [Host.goto, Host.contents, tail],
            by simp [Source, Host.goto, intent, Host.published]⟩
    | some found =>
      have start := Host.offset_le_settled world.durable intent
      rw [contents] at within
      simp only [Option.isSome_some, Bool.not_true, Bool.false_and, Bool.and_false,
        Bool.false_eq_true, ↓reduceIte]
      rw [if_neg (by omega)]
      refine invariant.move (.set world id _) rfl ⟨rfl, rfl, rfl⟩ ?_ (by simp [Host.goto])
      exact ⟨Nat.le_trans start within, by simp [Host.goto, Host.contents, tail],
        by simp [Source, Host.goto, intent]⟩

/-- Reading the bytes to append keeps the invariant. -/
theorem load_keeps (invariant : Invariant content world) {recovering : Bool}
    {offset length destination size : Nat}
    (pc : (world.hosts id).pc = .measured recovering offset length destination size) :
    Invariant content
      (world.set id (load (world.hosts id) recovering offset length destination size)) := by
  obtain ⟨blocks, layout⟩ := invariant.layout
  have knows := invariant.program id
  rw [Program, pc] at knows
  obtain ⟨inside, grown, source⟩ := knows
  have move (next : Pc) (knows : Knows world id (world.hosts id) next) :
      Invariant content (world.set id ((world.hosts id).goto next)) := by
    refine invariant.move (.set world id _) rfl ⟨rfl, rfl, rfl⟩ ?_ (by simp [Host.goto])
    cases next <;> exact knows
  unfold load
  cases recovering with
  | true =>
    simp only [Source, ↓reduceIte] at source
    have pending := layout.pending id _ source
    have full := slice_length _ _ _ pending.fits
    simp only [slice] at full
    simp only [↓reduceIte]
    rw [if_neg (by simp [full])]
    refine move _ ⟨⟨by rw [full]; exact pending.fits, by rw [full]; rfl, pending.whole⟩, ?_⟩
    simp [Source, source, full]
  | false =>
    simp only [Source, Bool.false_eq_true, ↓reduceIte] at source
    simp only [Bool.false_eq_true, ↓reduceIte]
    generalize taken : ((world.hosts id).contents.drop offset).take
      (min (size - offset) flushBound) = data
    have front : data <+: (world.hosts id).contents.drop offset := taken ▸ List.take_prefix _ _
    -- A prefix of the unread tail that ends a record is what the next step needs.
    have ready (records : Bytes) (first : records <+: (world.hosts id).contents.drop offset)
        (whole : Records records) : Knows world id (world.hosts id)
          (.loaded false offset destination records) := by
      have short := first.length_le
      have nonempty : records ≠ [] := by rintro rfl; simp [Records] at whole
      have positive := List.length_pos_iff.mpr nonempty
      simp only [List.length_drop] at short
      exact ⟨⟨by omega, (List.prefix_iff_eq_take.mp first).symm, whole⟩, source⟩
    cases complete : completeRecords data with
    | some records =>
      obtain ⟨first, whole⟩ := completeRecords_spec complete
      exact move _ (ready records (first.trans front) whole)
    | none =>
      cases read : firstRecord ((world.hosts id).contents.drop (offset + data.length)) with
      | none =>
        exact invariant.move (.set world id _) rfl ⟨rfl, rfl, rfl⟩ trivial (by simp [Host.finish])
      | some remainder =>
        obtain ⟨first, whole⟩ := firstRecord_spec read
        refine move _ (ready (data ++ remainder) ?_ ?_)
        · obtain ⟨after, same⟩ := first
          obtain ⟨rest, split⟩ := front
          refine ⟨after, ?_⟩
          rw [← List.drop_drop, ← split, List.drop_left] at same
          rw [List.append_assoc, same, split]
        · rw [Records, List.getLast?_append, whole]
          rfl

/-- A crash keeps the invariant: the files stay as they are. -/
theorem crash_keeps (invariant : Invariant content world) :
    Invariant content ((world.set id ((world.hosts id).finish .crashed)).unlock id) :=
  invariant.move (.unlock world id _) rfl ⟨rfl, rfl, rfl⟩ trivial (by simp [Host.finish])

/-- Taking the free lock keeps the invariant. -/
theorem lock_keeps (invariant : Invariant content world) {recovering : Bool}
    {offset destination : Nat} {data : Bytes}
    (pc : (world.hosts id).pc = .loaded recovering offset destination data)
    (free : world.lock = none) :
    Invariant content
      { world.set id ((world.hosts id).goto (.locked recovering offset destination data)) with
        lock := some id } := by
  have knows := invariant.program id
  rw [Program, pc] at knows
  have moves : Moves world
      { world.set id ((world.hosts id).goto (.locked recovering offset destination data)) with
        lock := some id } id
      ((world.hosts id).goto (.locked recovering offset destination data)) := by
    refine ⟨world.set_self id _, fun _ apart => world.set_other _ apart, fun _ _ held => ?_⟩
    rw [free] at held
    contradiction
  exact invariant.move moves rfl ⟨rfl, rfl, rfl⟩ ⟨rfl, knows.1, knows.2⟩ (by simp [Host.goto])

/-- A check that finds what was announced leaves the rest to be written. -/
theorem resume_some {durable data : Bytes} {destination count : Nat}
    (inside : destination ≤ durable.length)
    (already : min data.length (durable.length - destination) = count)
    (same : slice durable destination count = data.take count) :
    World.resume durable destination data = some (data.drop count) := by
  have not_short : ¬ durable.length < destination := by omega
  rw [slice] at same
  simp only [World.resume, not_short, already, same, ne_eq, not_true_eq_false, ↓reduceIte]

/-- Under the invariant the check of an interrupted append always passes. -/
theorem resume_passes (invariant : Invariant content world) {offset destination : Nat}
    {data : Bytes} (pc : (world.hosts id).pc = .locked true offset destination data) :
    ∃ done rest, data = done ++ rest ∧ World.resume world.durable destination data = some rest ∧
      if rest = [] then Landed world.durable ⟨offset, data.length, destination⟩
      else world.durable.length = destination + done.length := by
  obtain ⟨blocks, layout⟩ := invariant.layout
  have knows := invariant.program id
  rw [Program, pc] at knows
  obtain ⟨_, prepared, source⟩ := knows
  simp only [Source, ↓reduceIte] at source
  have pending := layout.pending id _ source
  have announced : (world.hosts id).announced ⟨offset, data.length, destination⟩ = data :=
    prepared.read
  by_cases full : Landed world.durable ⟨offset, data.length, destination⟩
  · have read := pending.landed full
    simp only [announced] at read
    have size : destination + data.length ≤ world.durable.length := full
    have passed : World.resume world.durable destination data =
        some (data.drop data.length) := by
      apply resume_some (by omega) (by omega)
      rw [read, List.take_length]
    rw [List.drop_length] at passed
    refine ⟨data, [], (List.append_nil data).symm, passed, ?_⟩
    simpa using full
  · have part := pending.part full
    obtain ⟨count, short, durable⟩ := part.landed
    have place : destination = (content ++ joined blocks).length := part.destination
    change count < data.length at short
    rw [announced] at durable
    have size : world.durable.length = destination + count := by
      have length := congrArg List.length durable
      rw [List.length_append, ← place, List.length_take] at length
      omega
    have written : slice world.durable destination count = data.take count := by
      rw [slice, durable, place, List.drop_left, List.take_take, Nat.min_self]
    have passed : World.resume world.durable destination data = some (data.drop count) :=
      resume_some (by omega) (by omega) written
    have left : data.drop count ≠ [] := by
      rw [ne_eq, List.drop_eq_nil_iff]
      omega
    refine ⟨data.take count, data.drop count, (List.take_append_drop count data).symm, passed, ?_⟩
    rw [if_neg left, size, List.length_take, Nat.min_eq_left (by omega)]

/-- Passing the check of an interrupted append keeps the invariant. -/
theorem resume_keeps (invariant : Invariant content world) {offset destination : Nat}
    {data rest : Bytes} (pc : (world.hosts id).pc = .locked true offset destination data)
    (passed : World.resume world.durable destination data = some rest) :
    Invariant content (world.set id ((world.hosts id).goto (.writing offset data rest))) := by
  have knows := invariant.program id
  rw [Program, pc] at knows
  obtain ⟨held, prepared, source⟩ := knows
  obtain ⟨done, left, split, found, landed⟩ := resume_passes invariant pc
  rw [found] at passed
  obtain rfl := Option.some.inj passed
  refine invariant.move (.set world id _) rfl ⟨rfl, rfl, rfl⟩ ?_ (by simp [Host.goto])
  simp only [Source, ↓reduceIte] at source
  exact ⟨held, prepared, done, destination, split, source, landed⟩

/-- Learning the end of the durable file keeps the invariant. -/
theorem end_keeps (invariant : Invariant content world) {offset destination : Nat} {data : Bytes}
    (pc : (world.hosts id).pc = .locked false offset destination data) :
    Invariant content (world.set id
      ((world.hosts id).goto (.intending offset world.durable.length data))) := by
  have knows := invariant.program id
  rw [Program, pc] at knows
  obtain ⟨held, prepared, source⟩ := knows
  refine invariant.move (.set world id _) rfl ⟨rfl, rfl, rfl⟩ ?_ (by simp [Host.goto])
  exact ⟨held, prepared, source, rfl⟩

/-! ## Steps that change a file -/

/-- A hook appending to a tail keeps the invariant. -/
theorem append_keeps (invariant : Invariant content world) (bytes : Bytes) :
    Invariant content (world.set id
      { world.hosts id with tail := some ((world.hosts id).contents ++ bytes) }) := by
  obtain ⟨blocks, layout⟩ := invariant.layout
  set host : Host := { world.hosts id with tail := some ((world.hosts id).contents ++ bytes) }
    with defined
  have contents : host.contents = (world.hosts id).contents ++ bytes := rfl
  have grown : (world.hosts id).contents.length ≤ host.contents.length := by
    rw [contents, List.length_append]
    exact Nat.le_add_right _ _
  have prepared {offset : Nat} {data : Bytes}
      (before : Prepared (world.hosts id).contents offset data) :
      Prepared host.contents offset data := by
    refine ⟨Nat.le_trans before.fits grown, ?_, before.whole⟩
    rw [contents, slice_append _ _ _ _ before.fits]
    exact before.read
  have moves := Moves.set world id host
  have settled : host.settled world.durable = (world.hosts id).settled world.durable := rfl
  refine invariant.update moves ⟨blocks, layout.change moves layout.whole (fun _ _ => rfl)
    (fun _ _ => rfl) ?_ (Nat.le_trans (layout.within id) grown) ?_ ?_ ?_⟩
    (fun _ _ _ => rfl) ?_ (invariant.sound id)
  · rw [World.set_durable, settled, contents, List.take_append_of_le_length (layout.within id)]
    exact layout.share id
  · intro others own
    apply layout.quiet
    intro other intent found
    by_cases same : other = id
    · subst same
      exact own intent found
    · exact others other same intent found
  · intro intent found
    have pending := layout.pending id intent found
    have announced : host.announced intent = (world.hosts id).announced intent :=
      slice_append _ _ _ _ pending.fits
    refine ⟨?_, ?_, ?_, ?_, ?_, fun short => ?_⟩
    · rw [World.set_self, contents]
      exact pending.start.append (Nat.le_trans (Nat.le_add_right _ _) pending.fits) bytes
    · rw [World.set_self]
      exact Nat.le_trans pending.fits grown
    · rw [World.set_self, announced]
      exact pending.whole
    · rw [World.set_self]
      exact pending.published
    · rw [World.set_self, announced]
      exact pending.landed
    · have part := pending.part short
      refine ⟨fun other apart foreign has => ?_, part.destination, ?_, ?_⟩
      · rw [World.set_other _ _ apart] at has
        exact part.alone other apart foreign has
      · rw [World.set_self, announced]
        exact part.landed
      · rw [World.set_self]
        exact part.published
  · intro other intent apart found
    exact (layout.pending other intent found).frame moves apart rfl fun _ own => own
  · have knows := invariant.program id
    change Knows _ id host (world.hosts id).pc
    rw [Program] at knows
    cases pc : (world.hosts id).pc <;> rw [pc] at knows
    case idle => trivial
    case measured => exact ⟨knows.1, Nat.le_trans knows.2.1 grown, knows.2.2⟩
    case loaded => exact ⟨prepared knows.1, knows.2⟩
    case locked => exact ⟨knows.1, prepared knows.2.1, knows.2.2⟩
    case intending => exact ⟨knows.1, prepared knows.2.1, knows.2.2⟩
    case writing => exact ⟨knows.1, prepared knows.2.1, knows.2.2⟩
    case clearing => exact knows

/-- Publishing an intent beside no partial append keeps the invariant. -/
theorem intend_keeps (invariant : Invariant content world) {offset destination : Nat}
    {data : Bytes} (pc : (world.hosts id).pc = .intending offset destination data)
    (alone : OthersLanded world id) :
    Invariant content (world.set id { (world.hosts id).goto (.writing offset data data) with
      intent := some ⟨offset, data.length, destination⟩ }) := by
  obtain ⟨blocks, layout⟩ := invariant.layout
  have knows := invariant.program id
  rw [Program, pc] at knows
  obtain ⟨held, prepared, source, place⟩ := knows
  simp only [Source, Bool.false_eq_true, ↓reduceIte] at source
  obtain ⟨absent, published⟩ := source
  set host : Host := { (world.hosts id).goto (.writing offset data data) with
    intent := some ⟨offset, data.length, destination⟩ } with defined
  have moves := Moves.set world id host
  have durable : world.durable = content ++ joined blocks := by
    apply layout.quiet
    intro other intent found
    by_cases same : other = id
    · subst same
      rw [absent] at found
      contradiction
    · exact alone other same intent found
  have nonempty : data ≠ [] := by
    have whole := prepared.whole
    intro empty
    simp [empty, Records] at whole
  have positive : 0 < data.length := List.length_pos_iff.mpr nonempty
  have boundary : OnBoundary (world.hosts id).contents offset := by
    have share := layout.share id
    rw [Host.settled_none absent, published] at share
    rw [OnBoundary, ← share]
    exact shareOf_records layout.whole
  have short : ¬ Landed world.durable ⟨offset, data.length, destination⟩ := by
    simp only [Landed]
    omega
  have settled : host.settled world.durable = (world.hosts id).settled world.durable := by
    rw [Host.settled_none absent, published]
    exact Host.settled_partial rfl short
  refine invariant.update moves ⟨blocks, layout.change moves layout.whole (fun _ _ => rfl)
    (fun _ _ => rfl) ?_ ?_ ?_ ?_ ?_⟩ (fun _ _ _ => rfl) ?_ (by simp [host, Host.goto])
  · rw [World.set_durable, settled]
    exact layout.share id
  · rw [World.set_durable, settled]
    exact layout.within id
  · intro _ _
    exact durable
  · intro intent found
    obtain rfl := Option.some.inj found
    refine ⟨?_, ?_, ?_, ?_, fun landed => absurd landed short, fun _ => ?_⟩
    · rw [World.set_self]
      exact boundary
    · rw [World.set_self]
      exact prepared.fits
    · rw [World.set_self, Host.announced]
      exact prepared.read.symm ▸ prepared.whole
    · rw [World.set_self]
      exact .inl published
    · refine ⟨fun other apart foreign has => ?_, place.trans (by rw [durable]),
        ⟨0, positive, ?_⟩, ?_⟩
      · rw [World.set_other _ _ apart] at has
        exact alone other apart foreign has
      · rw [World.set_durable, List.take_zero, List.append_nil]
        exact durable
      · rw [World.set_self]
        exact published
  · intro other intent apart found
    have pending := layout.pending other intent found
    have landed := alone other apart intent found
    have same := World.set_other world host apart
    exact pending.keep (congrArg Host.contents same) (congrArg Host.published same) pending.landed
      fun missing => absurd landed missing
  · refine ⟨held, prepared, [], destination, rfl, rfl, ?_⟩
    rw [if_neg nonempty]
    simpa using place.symm

/-- A call that still has bytes to write has written the others, at the end of the durable
file. -/
theorem writing_landed (invariant : Invariant content world) {blocks : Blocks HostId}
    (layout : Layout content world blocks) {offset : Nat} {data rest : Bytes}
    (pc : (world.hosts id).pc = .writing offset data rest) (more : rest ≠ []) :
    ∃ destination done, world.lock = some id ∧ data = done ++ rest ∧
      (world.hosts id).intent = some ⟨offset, data.length, destination⟩ ∧
      Partial content world blocks id ⟨offset, data.length, destination⟩ ∧
      Prepared (world.hosts id).contents offset data ∧
      world.durable = content ++ joined blocks ++ done := by
  have knows := invariant.program id
  rw [Program, pc] at knows
  obtain ⟨held, prepared, done, destination, split, intent, size⟩ := knows
  rw [if_neg more] at size
  have positive := List.length_pos_iff.mpr more
  have length : data.length = done.length + rest.length := by rw [split, List.length_append]
  have short : ¬ Landed world.durable ⟨offset, data.length, destination⟩ := by
    simp only [Landed]
    omega
  have part := (layout.pending id _ intent).part short
  have announced : (world.hosts id).announced ⟨offset, data.length, destination⟩ = data :=
    prepared.read
  obtain ⟨count, few, durable⟩ := part.landed
  have place : destination = (content ++ joined blocks).length := part.destination
  rw [announced] at durable
  -- The length of the durable file says how many bytes of the block are in it.
  have many : count = done.length := by
    change count < data.length at few
    have lengths := congrArg List.length durable
    rw [List.length_append, ← place, List.length_take] at lengths
    omega
  rw [many, split, List.take_left] at durable
  exact ⟨destination, done, held, split, intent, part, prepared, durable⟩

/-- The world after a `write` that accepted some bytes. -/
def World.wrote (world : World HostId) (id : HostId) (offset : Nat) (data rest : Bytes)
    (count : Nat) : World HostId :=
  { world.set id ((world.hosts id).goto (.writing offset data (rest.drop count))) with
    durable := world.durable ++ rest.take count }

/-- A `write` moves its host. -/
theorem Moves.wrote (world : World HostId) (id : HostId) (offset : Nat) (data rest : Bytes)
    (count : Nat) : Moves world (world.wrote id offset data rest count) id
      ((world.hosts id).goto (.writing offset data (rest.drop count))) :=
  ⟨world.set_self id _, fun _ apart => world.set_other _ apart, fun _ _ held => held⟩

omit [DecidableEq HostId] in
/-- A landed append of another host stays where it is when the durable file grows. -/
theorem Pending.grow {blocks extended : Blocks HostId} {after : World HostId} {other : HostId}
    {intent : Intent}
    (pending : Pending content world blocks other intent)
    (landed : Landed world.durable intent) (same : after.hosts other = world.hosts other)
    {more : Bytes} (grown : after.durable = world.durable ++ more) :
    Pending content after extended other intent := by
  have still : Landed after.durable intent := by
    rw [grown]
    exact landed.mono (List.prefix_append _ _)
  refine pending.keep (congrArg Host.contents same) (congrArg Host.published same) (fun _ => ?_)
    fun short => absurd still short
  rw [grown, slice_append _ _ _ _ landed]
  exact pending.landed landed

/-- Growing past what has landed moves no settled position. -/
theorem Host.settled_grow {host : Host} {durable more : Bytes}
    (landed : ∀ intent, host.intent = some intent → Landed durable intent) :
    host.settled (durable ++ more) = host.settled durable := by
  cases found : host.intent with
  | none => rw [Host.settled_none found, Host.settled_none found]
  | some intent =>
    have before := landed intent found
    rw [Host.settled_landed found before,
      Host.settled_landed found (before.mono (List.prefix_append _ _))]

/-- Writing some but not all of the missing bytes keeps the invariant. -/
theorem write_part_keeps (invariant : Invariant content world) {offset count : Nat}
    {data rest : Bytes} (pc : (world.hosts id).pc = .writing offset data rest)
    (more : rest.drop count ≠ []) :
    Invariant content (world.wrote id offset data rest count) := by
  obtain ⟨blocks, layout⟩ := invariant.layout
  have missing : rest ≠ [] := by
    rintro rfl
    simp at more
  obtain ⟨destination, done, held, split, intent, part, prepared, durable⟩ :=
    writing_landed invariant layout pc missing
  have pending := layout.pending id _ intent
  have announced : (world.hosts id).announced ⟨offset, data.length, destination⟩ = data :=
    prepared.read
  have moves := Moves.wrote world id offset data rest count
  have written : world.durable ++ rest.take count =
      content ++ joined blocks ++ (done ++ rest.take count) := by
    rw [durable, List.append_assoc]
  have place : destination = (content ++ joined blocks).length := part.destination
  have left := List.length_pos_iff.mpr more
  have length : data.length = done.length + rest.length := by rw [split, List.length_append]
  have size : (world.durable ++ rest.take count).length =
      destination + (done ++ rest.take count).length := by
    rw [written, place]
    exact List.length_append
  have few : (done ++ rest.take count).length < data.length := by
    rw [List.length_drop] at left
    rw [List.length_append, List.length_take]
    omega
  have short : ¬ Landed (world.durable ++ rest.take count) ⟨offset, data.length, destination⟩ := by
    simp only [Landed]
    omega
  have before : ¬ Landed world.durable ⟨offset, data.length, destination⟩ :=
    fun landed => short (landed.mono (List.prefix_append _ _))
  have settled : ((world.hosts id).goto (.writing offset data (rest.drop count))).settled
      (world.durable ++ rest.take count) = (world.hosts id).settled world.durable := by
    rw [Host.settled_partial intent before]
    exact Host.settled_partial intent short
  refine invariant.update moves ⟨blocks, layout.change moves layout.whole (fun _ _ => rfl)
    ?_ ?_ ?_ ?_ ?_ ?_⟩ ?_ ?_ (by simp [Host.goto])
  · intro other apart
    exact Host.settled_grow (part.alone other apart)
  · exact (layout.share id).trans (congrArg (world.hosts id).contents.take settled.symm)
  · exact settled ▸ layout.within id
  · intro _ own
    exact absurd (own _ intent) short
  · intro found same
    obtain rfl := Option.some.inj (intent.symm.trans same)
    refine pending.keep (by rw [moves.self]; rfl) (by rw [moves.self]; rfl)
      (fun landed => absurd landed short) fun _ => ?_
    refine ⟨fun other apart foreign has => ?_, part.destination, ⟨_, few, ?_⟩, ?_⟩
    · rw [moves.others other apart] at has
      exact (part.alone other apart foreign has).mono (List.prefix_append _ _)
    · rw [moves.self]
      change world.durable ++ rest.take count = content ++ joined blocks ++
        ((world.hosts id).announced ⟨offset, data.length, destination⟩).take _
      have front : done ++ rest.take count <+: data := by
        rw [split]
        exact (List.prefix_append_right_inj done).mpr (List.take_prefix count rest)
      rw [announced, written, ← List.prefix_iff_eq_take.mp front]
    · rw [moves.self]
      exact part.published
  · intro other found apart same
    exact (layout.pending other found same).grow (part.alone other apart found same)
      (moves.others other apart) rfl
  · intro other apart lock
    rw [held] at lock
    exact absurd (Option.some.inj lock).symm apart
  · refine ⟨held, prepared, done ++ rest.take count, destination, ?_, intent, ?_⟩
    · rw [List.append_assoc, List.take_append_drop]
      exact split
    · rw [if_neg more]
      exact size

/-- Writing the last missing byte settles the block. -/
theorem write_last_keeps (invariant : Invariant content world) {offset count : Nat}
    {data rest : Bytes} (pc : (world.hosts id).pc = .writing offset data rest)
    (missing : rest ≠ []) (last : rest.drop count = []) :
    Invariant content (world.wrote id offset data rest count) := by
  obtain ⟨blocks, layout⟩ := invariant.layout
  obtain ⟨destination, done, held, split, intent, part, prepared, durable⟩ :=
    writing_landed invariant layout pc missing
  have pending := layout.pending id _ intent
  have announced : (world.hosts id).announced ⟨offset, data.length, destination⟩ = data :=
    prepared.read
  have moves := Moves.wrote world id offset data rest count
  have all : rest.take count = rest := List.take_of_length_le (List.drop_eq_nil_iff.mp last)
  have written : world.durable ++ rest.take count = content ++ joined blocks ++ data := by
    rw [durable, all, List.append_assoc, split]
  have place : destination = (content ++ joined blocks).length := part.destination
  have size : (world.durable ++ rest.take count).length = destination + data.length := by
    rw [written, place]
    exact List.length_append
  have landed : Landed (world.durable ++ rest.take count) ⟨offset, data.length, destination⟩ :=
    Nat.le_of_eq size.symm
  have before : ¬ Landed world.durable ⟨offset, data.length, destination⟩ := by
    have positive := List.length_pos_iff.mpr missing
    have length : data.length = done.length + rest.length := by rw [split, List.length_append]
    have old : world.durable.length = destination + done.length := by
      rw [durable, place]
      exact List.length_append
    simp only [Landed]
    omega
  have settled : ((world.hosts id).goto (.writing offset data (rest.drop count))).settled
      (world.durable ++ rest.take count) = offset + data.length :=
    Host.settled_landed intent landed
  have share := layout.share id
  rw [Host.settled_partial intent before] at share
  refine invariant.update moves ⟨blocks ++ [(id, data)], layout.change moves
    ?_ ?_ ?_ ?_ ?_ ?_ ?_ ?_⟩ ?_ ?_ (by simp [Host.goto])
  · intro block member
    rcases List.mem_append.mp member with old | new
    · exact layout.whole block old
    · obtain rfl := List.mem_singleton.mp new
      exact prepared.whole
  · intro other apart
    simp [shareOf, Ne.symm apart]
  · intro other apart
    exact Host.settled_grow (part.alone other apart)
  · have extended : shareOf id (blocks ++ [(id, data)]) = shareOf id blocks ++ data := by
      simp [shareOf]
    have taken := take_add_slice (world.hosts id).contents offset data.length
    rw [prepared.read] at taken
    rw [extended, share]
    exact taken.symm.trans (congrArg (world.hosts id).contents.take settled.symm)
  · exact settled ▸ prepared.fits
  · intro _ _
    change world.durable ++ rest.take count = _
    rw [written, joined, joined, List.flatMap_append, List.append_assoc]
    simp
  · intro found same
    obtain rfl := Option.some.inj (intent.symm.trans same)
    refine pending.keep (by rw [moves.self]; rfl) (by rw [moves.self]; rfl)
      (fun _ => ?_) fun short => absurd landed short
    change slice (world.durable ++ rest.take count) destination data.length = _
    rw [announced, written, slice, place, List.drop_left, List.take_length]
  · intro other found apart same
    exact (layout.pending other found same).grow (part.alone other apart found same)
      (moves.others other apart) rfl
  · intro other apart lock
    rw [held] at lock
    exact absurd (Option.some.inj lock).symm apart
  · refine ⟨held, prepared, data, destination, ?_, intent, ?_⟩
    · rw [last, List.append_nil]
    · rw [if_pos last]
      exact landed

/-- Writing the next bytes keeps the invariant. -/
theorem write_keeps (invariant : Invariant content world) {offset count : Nat}
    {data rest : Bytes} (pc : (world.hosts id).pc = .writing offset data rest)
    (missing : rest ≠ []) : Invariant content (world.wrote id offset data rest count) := by
  by_cases last : rest.drop count = []
  · exact write_last_keeps invariant pc missing last
  · exact write_part_keeps invariant pc last

/-- Publishing the offset after the last byte keeps the invariant. -/
theorem publish_keeps (invariant : Invariant content world) {offset : Nat} {data : Bytes}
    (pc : (world.hosts id).pc = .writing offset data []) :
    Invariant content (world.set id { (world.hosts id).goto .clearing with
      offset := some (offset + data.length) }) := by
  obtain ⟨blocks, layout⟩ := invariant.layout
  have knows := invariant.program id
  rw [Program, pc] at knows
  obtain ⟨held, prepared, done, destination, split, intent, landed⟩ := knows
  rw [if_pos rfl] at landed
  have pending := layout.pending id _ intent
  set host : Host := { (world.hosts id).goto .clearing with
    offset := some (offset + data.length) } with defined
  have moves := Moves.set world id host
  have settled : host.settled world.durable = (world.hosts id).settled world.durable := by
    rw [Host.settled_landed intent landed]
    exact Host.settled_landed intent landed
  refine invariant.update moves ⟨blocks, layout.change moves layout.whole (fun _ _ => rfl)
    (fun _ _ => rfl) ?_ ?_ ?_ ?_ ?_⟩ (fun _ _ _ => rfl) ?_ (by simp [host, Host.goto])
  · rw [World.set_durable, settled]
    exact layout.share id
  · rw [World.set_durable, settled]
    exact layout.within id
  · intro others own
    apply layout.quiet
    intro other found same
    by_cases this : other = id
    · subst this
      exact own found same
    · exact others other this found same
  · intro found same
    obtain rfl := Option.some.inj (intent.symm.trans same)
    refine ⟨?_, ?_, ?_, ?_, ?_, fun short => absurd landed short⟩
    · rw [World.set_self]
      exact pending.start
    · rw [World.set_self]
      exact pending.fits
    · rw [World.set_self]
      exact pending.whole
    · rw [World.set_self]
      exact .inr rfl
    · rw [World.set_self]
      exact pending.landed
  · intro other found apart same
    exact (layout.pending other found same).frame moves apart rfl fun _ own => own
  · exact ⟨held, _, intent, rfl, landed⟩

/-- Removing the intent of a landed append keeps the invariant. -/
theorem clear_keeps (invariant : Invariant content world)
    (pc : (world.hosts id).pc = .clearing) :
    Invariant content
      ((world.set id { (world.hosts id).finish .returned with intent := none }).unlock id) := by
  obtain ⟨blocks, layout⟩ := invariant.layout
  have knows := invariant.program id
  rw [Program, pc] at knows
  obtain ⟨held, intent, found, published, landed⟩ := knows
  set host : Host := { (world.hosts id).finish .returned with intent := none } with defined
  have moves := Moves.unlock world id host
  have settled : host.settled world.durable = (world.hosts id).settled world.durable := by
    rw [Host.settled_landed found landed, ← published]
    exact Host.settled_none rfl
  refine invariant.update moves ⟨blocks, layout.change moves layout.whole (fun _ _ => rfl)
    (fun _ _ => rfl) ?_ ?_ ?_ ?_ ?_⟩ (fun _ _ _ => rfl) trivial (by simp [host, Host.finish])
  · exact (layout.share id).trans (congrArg (world.hosts id).contents.take settled.symm)
  · exact settled ▸ layout.within id
  · intro others _
    apply layout.quiet
    intro other foreign same
    by_cases this : other = id
    · subst this
      obtain rfl := Option.some.inj (found.symm.trans same)
      exact landed
    · exact others other this foreign same
  · intro _ absent
    contradiction
  · intro other foreign apart same
    exact (layout.pending other foreign same).frame moves apart rfl fun _ own => by contradiction

end Steps

end Chitta.RuntimeLedger
