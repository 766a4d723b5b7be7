import Mathlib.Logic.Function.Basic
import Chitta.Machine

/-!
# The runtime ledger flush, one file operation at a time

Each host appends outcome records to a local tail; `RuntimeLedger::flush` copies complete
records to the durable file that all hosts share. The intent file records the destination
offset before the append and the offset file is published after it, so the files of a crash
tell the next call how far the append came. A call of `flush` is a program counter of the
host; each step performs the next operation that touches a file, and a crash may fall between
any two steps and after every partial write. `publish` writes a temporary file and renames it:
nothing reads the temporary file, so its one visible operation is the rename. The append lock
is released by the crash of its holder.
-/
namespace Chitta.RuntimeLedger

/-- The contents of a file. -/
abbrev Bytes := List UInt8

/-- The record separator. -/
def newline : UInt8 := 10

/-- The largest number of tail bytes one call reads before it looks for a record end. -/
def flushBound : Nat := 1024 * 1024

/-- The unflushed size from which a call no longer waits for the flush interval. -/
def flushThreshold : Nat := 65536

/-- The three numbers of the intent file. -/
structure Intent where
  /-- Tail position of the first byte of the append. -/
  offset : Nat
  /-- Number of bytes appended. -/
  length : Nat
  /-- Size of the durable file before the append. -/
  destination : Nat
deriving DecidableEq, Repr

/-- How the last call of `flush` ended. -/
inductive Outcome where
  /-- The call returned. -/
  | returned
  /-- The call threw one of its own errors. -/
  | threw
  /-- The process died, or a system call failed and its error left `flush`. -/
  | crashed
deriving DecidableEq, Repr

/-- The point a call of `flush` has reached, with its local variables. -/
inductive Pc where
  /-- No call is in progress. -/
  | idle
  /-- Offset, intent and tail size are read. -/
  | measured (recovering : Bool) (offset length destination size : Nat)
  /-- The records to append are read. -/
  | loaded (recovering : Bool) (offset destination : Nat) (data : Bytes)
  /-- The append lock is held. -/
  | locked (recovering : Bool) (offset destination : Nat) (data : Bytes)
  /-- The end of the durable file is known and the intent is about to be published. -/
  | intending (offset destination : Nat) (data : Bytes)
  /-- The last bytes of the records are still to be written. -/
  | writing (offset : Nat) (data rest : Bytes)
  /-- The offset is published and the intent is about to be removed. -/
  | clearing
deriving DecidableEq, Repr

/-- The local files and the daemon of one host. -/
structure Host where
  /-- `outcome_ledger.tail`; hooks append to it and nothing truncates it. -/
  tail : Option Bytes := none
  /-- `outcome_ledger.tail.offset`. -/
  offset : Option Nat := none
  /-- `outcome_ledger.tail.intent`. -/
  intent : Option Intent := none
  /-- The call of `flush` in progress. -/
  pc : Pc := .idle
  /-- How the last call ended; `none` before the first call and while one is in progress. -/
  ended : Option Outcome := none
deriving DecidableEq, Repr

namespace Host

/-- The bytes of the tail, none of them when the file is missing. -/
def contents (host : Host) : Bytes := host.tail.getD []

/-- The published offset, zero before the first publication. -/
def published (host : Host) : Nat := host.offset.getD 0

/-- End the call in progress. -/
def finish (host : Host) (outcome : Outcome) : Host :=
  { host with pc := .idle, ended := some outcome }

/-- Continue the call in progress. -/
def goto (host : Host) (pc : Pc) : Host := { host with pc, ended := none }

end Host

/-- The longest prefix that ends with a record separator: `rfind('\n')` and `resize`. -/
def completeRecords (data : Bytes) : Option Bytes :=
  match data.reverse.dropWhile (· ≠ newline) with
  | [] => none
  | kept => some kept.reverse

/-- The bytes up to and including the first record separator: `std::getline`. -/
def firstRecord : Bytes → Option Bytes
  | [] => none
  | byte :: rest =>
    if byte = newline then some [byte] else (firstRecord rest).map (byte :: ·)

/-- The start of `flush`, up to the size of the tail. `early` says that the flush interval has
not passed since the last completed flush. -/
def begin (host : Host) (force early : Bool) : Host :=
  let recovering := host.intent.isSome
  let offset := match host.intent with
    | some intent => intent.offset
    | none => host.published
  let length := match host.intent with
    | some intent => intent.length
    | none => 0
  let destination := match host.intent with
    | some intent => intent.destination
    | none => 0
  match host.tail with
  | none => host.finish .returned
  | some tail =>
    let size := tail.length
    if size < offset then host.finish .threw
    else if !recovering && !force && decide (size - offset < flushThreshold) && early then
      host.finish .returned
    else if size = offset && !recovering then host.finish .returned
    else host.goto (.measured recovering offset length destination size)

/-- Read the bytes to append: all of an interrupted append, else complete records only. The
tail may have grown since its size was read. -/
def load (host : Host) (recovering : Bool) (offset length destination size : Nat) : Host :=
  let count := if recovering then length else min (size - offset) flushBound
  let data := (host.contents.drop offset).take count
  if recovering then
    if data.length ≠ length then host.finish .threw
    else host.goto (.loaded true offset destination data)
  else
    match completeRecords data with
    | some records => host.goto (.loaded false offset destination records)
    | none =>
      -- One record larger than the bound: `getline` reads its remainder.
      match firstRecord (host.contents.drop (offset + data.length)) with
      | some remainder => host.goto (.loaded false offset destination (data ++ remainder))
      | none => host.finish .returned

/-- All hosts, the shared durable file and the append lock. -/
structure World (HostId : Type) where
  /-- The hosts with their local files. -/
  hosts : HostId → Host
  /-- `outcome_ledger.jsonl`. -/
  durable : Bytes
  /-- The holder of `outcome_ledger.jsonl.append.lock`. -/
  lock : Option HostId

/-- What can happen next. -/
inductive Action (HostId : Type) where
  /-- A hook appends to the tail of its host. -/
  | append (host : HostId) (bytes : Bytes)
  /-- The daemon of a host calls `flush`. -/
  | flush (host : HostId) (force early : Bool)
  /-- The call in progress performs its next operation; `count` is what `write` accepts. -/
  | tick (host : HostId) (count : Nat)
  /-- The daemon of a host dies. -/
  | crash (host : HostId)
deriving DecidableEq, Repr

namespace World

variable {HostId : Type} [DecidableEq HostId]

/-- Replace one host. -/
def set (world : World HostId) (id : HostId) (host : Host) : World HostId :=
  { world with hosts := Function.update world.hosts id host }

/-- Give up the append lock if this host holds it. -/
def unlock (world : World HostId) (id : HostId) : World HostId :=
  { world with lock := if world.lock = some id then none else world.lock }

/-- The check of an interrupted append against the durable file, and the bytes it still has to
write. -/
def resume (durable : Bytes) (destination : Nat) (data : Bytes) : Option Bytes :=
  if durable.length < destination then none
  else
    let already := min data.length (durable.length - destination)
    if (durable.drop destination).take already ≠ data.take already then none
    else some (data.drop already)

/-- The next operation of the call in progress on a host. -/
def tick (world : World HostId) (id : HostId) (count : Nat) : Option (World HostId) :=
  let host := world.hosts id
  match host.pc with
  | .idle => none
  | .measured recovering offset length destination size =>
    some (world.set id (load host recovering offset length destination size))
  | .loaded recovering offset destination data =>
    match world.lock with
    | some _ => some (world.set id (host.finish .returned))
    | none => some { world.set id (host.goto (.locked recovering offset destination data)) with
        lock := some id }
  | .locked true offset destination data =>
    match resume world.durable destination data with
    | none => some ((world.set id (host.finish .threw)).unlock id)
    | some rest => some (world.set id (host.goto (.writing offset data rest)))
  | .locked false offset _ data =>
    some (world.set id (host.goto (.intending offset world.durable.length data)))
  | .intending offset destination data =>
    some (world.set id { host.goto (.writing offset data data) with
      intent := some ⟨offset, data.length, destination⟩ })
  | .writing offset data [] =>
    some (world.set id { host.goto .clearing with offset := some (offset + data.length) })
  | .writing offset data (byte :: rest) =>
    -- The file is open for appending: the bytes go to its end.
    if count = 0 then none
    else some { world.set id (host.goto (.writing offset data ((byte :: rest).drop count))) with
      durable := world.durable ++ (byte :: rest).take count }
  | .clearing => some ((world.set id { host.finish .returned with intent := none }).unlock id)

/-- One action of one host. -/
def step (world : World HostId) : Action HostId → Option (World HostId)
  | .append id bytes =>
    some (world.set id
      { world.hosts id with tail := some ((world.hosts id).contents ++ bytes) })
  | .flush id force early =>
    if (world.hosts id).pc = .idle then
      some (world.set id (begin (world.hosts id) force early))
    else none
  | .tick id count => world.tick id count
  | .crash id => some ((world.set id ((world.hosts id).finish .crashed)).unlock id)

end World

variable (HostId : Type) [DecidableEq HostId]

/-- Hosts with empty runtime directories and a durable file with its initial content. -/
def system (content : Bytes) : Machine (World HostId) (Action HostId) where
  initial := ⟨fun _ => {}, content, none⟩
  step := World.step

variable {HostId}

/-- Bytes that consist of whole records, at least one. -/
def Records (data : Bytes) : Prop := data.getLast? = some newline

/-- A tail position right after a record, or the start of the tail. -/
def OnBoundary (tail : Bytes) (offset : Nat) : Prop :=
  tail.take offset = [] ∨ Records (tail.take offset)

/-- A run of bytes inside a file. -/
def slice (tail : Bytes) (offset length : Nat) : Bytes := (tail.drop offset).take length

/-- A slice that fits has its full length. -/
theorem slice_length (tail : Bytes) (offset length : Nat) (fits : offset + length ≤ tail.length) :
    (slice tail offset length).length = length := by
  simp only [slice, List.length_take, List.length_drop]
  omega

/-- Appending to a file leaves the slices inside it alone. -/
theorem slice_append (tail more : Bytes) (offset length : Nat)
    (fits : offset + length ≤ tail.length) :
    slice (tail ++ more) offset length = slice tail offset length := by
  rw [slice, slice, List.drop_append_of_le_length (by omega),
    List.take_append_of_le_length (by simp only [List.length_drop]; omega)]

/-- A slice extends the bytes before it. -/
theorem take_add_slice (tail : Bytes) (offset length : Nat) :
    tail.take (offset + length) = tail.take offset ++ slice tail offset length :=
  List.take_add

/-- The complete records of some bytes are a prefix of them that ends with a separator. -/
theorem completeRecords_spec {data records : Bytes} (found : completeRecords data = some records) :
    records <+: data ∧ Records records := by
  unfold completeRecords at found
  split at found
  · contradiction
  · rename_i kept nonempty
    obtain rfl := Option.some.inj found
    obtain ⟨byte, rest, same⟩ := List.exists_cons_of_ne_nil nonempty
    have ends : byte = newline := by
      have head := List.head?_dropWhile_not (· ≠ newline) data.reverse
      rw [same] at head
      simpa using head
    refine ⟨?_, ?_⟩
    · rw [← List.reverse_suffix, List.reverse_reverse]
      exact List.dropWhile_suffix _
    · rw [Records, List.getLast?_reverse, same, ends]
      rfl

/-- A record read by `getline` is a prefix of what follows and ends with its separator. -/
theorem firstRecord_spec {data record : Bytes} (found : firstRecord data = some record) :
    record <+: data ∧ Records record := by
  induction data generalizing record with
  | nil => simp [firstRecord] at found
  | cons byte rest ih =>
    simp only [firstRecord] at found
    split at found
    · rename_i separator
      obtain rfl := Option.some.inj found
      exact ⟨by simp, by simp [Records, separator]⟩
    · obtain ⟨inner, read, rfl⟩ := Option.map_eq_some_iff.mp found
      obtain ⟨front, whole⟩ := ih read
      refine ⟨by simpa using front, ?_⟩
      cases inner with
      | nil => simp [Records] at whole
      | cons next tail => simpa [Records, List.getLast?_cons_cons] using whole

end Chitta.RuntimeLedger
