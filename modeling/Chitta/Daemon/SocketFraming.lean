import Chitta.Lines
import Chitta.Daemon.Server

/-!
# Messages from reads

A client's bytes come in reads of any size. After each of them the complete messages are extracted,
and the connection is closed if its buffer was too large. The buffer may hold bytes that were
extracted already, in front of the unread ones, and these count too.
-/
namespace Chitta.Daemon

open Framing

namespace Connection

/-- What `poll` does with a connection that has data: its messages, and the connection unless it is
closed. -/
def poll (conn : Connection) (data : Bytes) : List Bytes × Option Connection :=
  let (messages, conn) := (conn.read (some (.data data))).messages
  (messages, if conn.wantsClose then none else some conn)

/-- The messages of some reads, and the connection unless it is closed. -/
def receive : Connection → List Bytes → List Bytes × Option Connection
  | conn, [] => ([], some conn)
  | conn, data :: more =>
    match conn.poll data with
    | (messages, none) => (messages, none)
    | (messages, some conn) =>
      let later := conn.receive more
      (messages ++ later.1, later.2)

/-- A connection that `poll` has returned to: it is open, its offset lies in its buffer and it has
no complete message. -/
structure Waiting (conn : Connection) : Prop where
  /-- It is not to be closed. -/
  opened : conn.wantsClose = false
  /-- The offset lies in the buffer. -/
  within : conn.readOffset ≤ conn.readBuffer.length
  /-- No message is complete. -/
  incomplete : newline ∉ conn.unread

/-- A new connection waits. -/
theorem waiting_accepted (number : Nat) (fd peerPid : Int) :
    (accepted number fd peerPid).Waiting := ⟨rfl, Nat.le_refl 0, by simp [unread, accepted]⟩

/-- Before every read there is room for the data behind the bytes that were extracted already. -/
def Fits : Connection → List Bytes → Prop
  | _, [] => True
  | conn, data :: more =>
    conn.readOffset + (conn.unread ++ data).length ≤ maxMessageSize ∧
      ∀ next, (conn.poll data).2 = some next → next.Fits more

/-- The messages of the reads are those of the stream, in order, and the rest of the stream is
unread in an open connection. -/
def Delivered (conn : Connection) (reads : List Bytes) : Prop :=
  ∃ messages last, conn.receive reads = (messages, some last) ∧
    Splits newline (conn.unread ++ reads.flatten) messages last.unread

/-- Extracting keeps the offset in the buffer and the wish to close. -/
theorem extractMessages_within (fuel : Nat) {conn : Connection}
    (within : conn.readOffset ≤ conn.readBuffer.length) :
    (conn.extractMessages fuel).2.readOffset ≤ (conn.extractMessages fuel).2.readBuffer.length ∧
      (conn.extractMessages fuel).2.wantsClose = conn.wantsClose := by
  induction fuel generalizing conn with
  | zero => exact ⟨within, rfl⟩
  | succ fuel ih =>
    rw [extractMessages]
    cases extracted : conn.extractMessage with
    | none => exact ⟨within, rfl⟩
    | some result =>
      obtain ⟨message, next⟩ := result
      obtain ⟨⟨first, rest⟩, found, same⟩ := Option.map_eq_some_iff.mp extracted
      have length := congrArg List.length (eq_of_first found).1
      simp only [List.length_drop, List.length_append, List.length_cons] at length
      dsimp only at same
      have kept : next.readOffset ≤ next.readBuffer.length ∧
          next.wantsClose = conn.wantsClose := by
        split at same
        · obtain ⟨rfl, rfl⟩ := Prod.mk.inj same
          exact ⟨Nat.zero_le _, rfl⟩
        · obtain ⟨rfl, rfl⟩ := Prod.mk.inj same
          exact ⟨show conn.readOffset + first.length + 1 ≤ conn.readBuffer.length by omega, rfl⟩
      obtain ⟨later, closing⟩ := ih kept.1
      exact ⟨later, closing.trans kept.2⟩

/-- One read: the messages are those of the unread bytes with the data, and the connection is
closed exactly when the buffer has become too large. -/
theorem poll_spec {conn : Connection} (waiting : conn.Waiting) (data : Bytes) :
    ∃ last : Connection,
      conn.poll data = ((conn.poll data).1, if maxMessageSize <
        conn.readOffset + (conn.unread ++ data).length then none else some last) ∧
      Splits newline (conn.unread ++ data) (conn.poll data).1 last.unread ∧
      (conn.readOffset + (conn.unread ++ data).length ≤ maxMessageSize → last.Waiting) := by
  have within : conn.readOffset ≤ conn.readBuffer.length := waiting.within
  have grown : (conn.read (some (.data data))).unread = conn.unread ++ data := by
    simp only [unread, read]
    rw [List.drop_append_of_le_length within]
  have size : (conn.readBuffer ++ data).length =
      conn.readOffset + (conn.unread ++ data).length := by
    simp only [unread, List.length_append, List.length_drop]
    omega
  have closing : (conn.read (some (.data data))).wantsClose = true ↔
      maxMessageSize < conn.readOffset + (conn.unread ++ data).length := by
    rw [← size]
    simp [read, waiting.opened]
  have still : (conn.read (some (.data data))).readOffset ≤
      (conn.read (some (.data data))).readBuffer.length := by
    simp only [read, List.length_append]
    omega
  obtain ⟨split, clean, done⟩ := unread_messages (conn.read (some (.data data)))
  obtain ⟨inside, same⟩ := extractMessages_within (conn.read (some (.data data))).readBuffer.length
    still
  have incomplete : newline ∉ (conn.read (some (.data data))).messages.2.unread :=
    first_eq_none.mp (Option.map_eq_none_iff.mp done)
  refine ⟨(conn.read (some (.data data))).messages.2, ?_, ?_, ?_⟩
  · have closed : (conn.read (some (.data data))).messages.2.wantsClose = true ↔
        maxMessageSize < conn.readOffset + (conn.unread ++ data).length := by
      rw [← closing, ← same, messages]
    simp only [poll, closed]
  · rw [← grown]
    exact ⟨split, clean, incomplete⟩
  · intro room
    refine ⟨?_, inside, incomplete⟩
    have open_ : ¬ (conn.read (some (.data data))).wantsClose = true := by
      rw [closing]
      omega
    rw [messages, same]
    simpa using open_

/-- The reads of a waiting connection are delivered if and only if they fit. -/
theorem delivered_of_waiting {conn : Connection} (waiting : conn.Waiting) (reads : List Bytes) :
    conn.Delivered reads ↔ conn.Fits reads := by
  induction reads generalizing conn with
  | nil =>
    refine ⟨fun _ => trivial, fun _ => ⟨[], conn, rfl, ?_⟩⟩
    exact ⟨by simp [join], by simp, waiting.incomplete⟩
  | cons data more ih =>
    obtain ⟨last, polled, split, waits⟩ := poll_spec waiting data
    rw [Fits]
    by_cases room : conn.readOffset + (conn.unread ++ data).length ≤ maxMessageSize
    · rw [if_neg (by omega)] at polled
      have next : (conn.poll data).2 = some last := by rw [polled]
      have received : conn.receive (data :: more) =
          ((conn.poll data).1 ++ (last.receive more).1, (last.receive more).2) := by
        rw [receive, polled]
      have step : conn.Delivered (data :: more) ↔ last.Delivered more := by
        constructor
        · rintro ⟨messages, final, returned, whole⟩
          rw [received] at returned
          obtain ⟨rfl, ended⟩ := Prod.mk.inj returned
          rw [List.flatten_cons, ← List.append_assoc] at whole
          exact ⟨_, final, Prod.ext rfl ended, split.of_append whole⟩
        · rintro ⟨messages, final, returned, whole⟩
          refine ⟨(conn.poll data).1 ++ messages, final, ?_, ?_⟩
          · rw [received, returned]
          · rw [List.flatten_cons, ← List.append_assoc]
            exact split.append whole
      rw [step, ih (waits room)]
      constructor
      · intro fits
        exact ⟨room, fun other same => Option.some.inj (next.symm.trans same) ▸ fits⟩
      · rintro ⟨_, fits⟩
        exact fits last next
    · rw [if_pos (by omega)] at polled
      constructor
      · rintro ⟨messages, final, returned, _⟩
        rw [receive, polled] at returned
        simp at returned
      · rintro ⟨fits, _⟩
        exact absurd fits room

/-- From the first read on, the messages of a client are those of its stream, in order, the rest of
the stream is unread and the connection is open, if and only if every read finds room for its data
behind the unread bytes and those in front of them that were extracted already. -/
theorem delivered_iff (number : Nat) (fd peerPid : Int) (reads : List Bytes) :
    (accepted number fd peerPid).Delivered reads ↔ (accepted number fd peerPid).Fits reads :=
  delivered_of_waiting (waiting_accepted number fd peerPid) reads

/-! ## A client that is closed too early -/

/-- After every read the unread bytes are within the limit. -/
def WithinLimit (reads : List Bytes) : Prop :=
  ∀ earlier data later, reads = earlier ++ data :: later →
    (Lines.unfinished newline earlier.flatten ++ data).length ≤ maxMessageSize

/-- A connection that has a message of one byte and the beginning of another in its buffer. -/
def holding (offset size : Nat) : Connection :=
  { accepted 0 0 0 with
    readBuffer := [120, newline] ++ List.replicate size 97
    readOffset := offset }

/-- It has extracted the first message and waits for the end of the other. -/
def afterShort (size : Nat) : Connection := holding 2 size

/-- A part of the long message. -/
theorem afterShort_poll {size more : Nat} (room : 2 + size + more ≤ maxMessageSize) :
    (afterShort size).poll (List.replicate more 97) = ([], some (afterShort (size + more))) := by
  have grown : (afterShort size).read (some (.data (List.replicate more 97))) =
      afterShort (size + more) := by
    simp only [afterShort, holding, read, accepted, List.append_assoc,
      List.replicate_append_replicate, Connection.mk.injEq, true_and, Bool.false_or,
      decide_eq_false_iff_not]
    simp only [List.length_append, List.length_cons, List.length_nil, List.length_replicate]
    omega
  have incomplete : (afterShort (size + more)).extractMessage = none := by
    rw [extractMessage, Option.map_eq_none_iff, first_eq_none]
    simp [afterShort, holding, newline]
  have none_there : (afterShort (size + more)).messages = ([], afterShort (size + more)) := by
    rw [messages]
    cases (afterShort (size + more)).readBuffer.length with
    | zero => rfl
    | succ fuel => rw [extractMessages, incomplete]
  rw [poll, grown, none_there]
  rfl

/-- The parts of the long message. -/
theorem afterShort_fits {size more count : Nat} {rest : List Bytes}
    (room : 2 + size + count * more ≤ maxMessageSize) :
    (afterShort size).Fits (List.replicate count (List.replicate more 97) ++ rest) →
      (afterShort (size + count * more)).Fits rest := by
  induction count generalizing size with
  | zero => simp
  | succ count ih =>
    intro fits
    have total : (count + 1) * more = more + count * more := by
      rw [Nat.add_mul, Nat.one_mul, Nat.add_comm]
    rw [List.replicate_succ, List.cons_append, Fits, afterShort_poll (by omega)] at fits
    have later := ih (by omega) (fits.2 _ rfl)
    rwa [show size + (count + 1) * more = size + more + count * more by omega]

/-- A message of one byte, and a long message in parts. -/
def shortThenLong (size part count : Nat) : List Bytes :=
  ([120, newline] ++ List.replicate size 97) ::
    (List.replicate count (List.replicate part 97) ++ [[97]])

/-- The bytes of the long message are within the limit, if there are not too many. -/
theorem shortThenLong_within {size part count : Nat} (first : 2 + size ≤ maxMessageSize)
    (total : size + count * part + 1 ≤ maxMessageSize) :
    WithinLimit (shortThenLong size part count) := by
  intro earlier data later same
  have length := congrArg List.length (congrArg List.flatten same)
  have whole : (shortThenLong size part count).flatten.length = 2 + size + count * part + 1 := by
    simp only [shortThenLong, List.flatten_cons, List.flatten_append, List.flatten_nil,
      List.flatten_replicate_replicate, List.length_append, List.length_cons, List.length_nil,
      List.length_replicate]
    omega
  rw [whole] at length
  simp only [List.flatten_append, List.flatten_cons, List.length_append] at length ⊢
  cases earlier with
  | nil =>
    obtain ⟨rfl, _⟩ := List.cons.inj same
    simp only [List.flatten_nil, Lines.unfinished, List.length_append, List.length_cons,
      List.length_nil, List.length_replicate]
    omega
  | cons first middle =>
    -- the short message and its end are not unread any more
    obtain ⟨rfl, _⟩ := List.cons.inj same
    have unread : Lines.unfinished newline
        (([120, newline] ++ List.replicate size 97 : Bytes) :: middle).flatten =
        Lines.unfinished newline (List.replicate size 97 ++ middle.flatten) := by
      simp [Lines.unfinished]
    have shorter := @Lines.length_unfinished_le _ _ newline
      (List.replicate size 97 ++ middle.flatten)
    rw [unread]
    simp only [List.flatten_cons, List.length_append, List.length_cons, List.length_nil,
      List.length_replicate] at length shorter ⊢
    omega

/-- The first read. -/
theorem shortThenLong_first {size : Nat} (many : 2 ≤ size) (room : 2 + size ≤ maxMessageSize) :
    (accepted 0 0 0).poll ([120, newline] ++ List.replicate size 97) =
      ([[120]], some (afterShort size)) := by
  have grown : (accepted 0 0 0).read (some (.data ([120, newline] ++ List.replicate size 97))) =
      holding 0 size := by
    simp only [read, accepted, holding, List.nil_append, Connection.mk.injEq, true_and,
      Bool.false_or, decide_eq_false_iff_not, List.length_append, List.length_cons,
      List.length_nil, List.length_replicate]
    omega
  have extracted : (holding 0 size).extractMessage = some ([120], afterShort size) := by
    have found : first newline ([120, newline] ++ List.replicate size 97) =
        some ([120], List.replicate size 97) := first_frame (by decide : newline ∉ [120]) _
    have small : ¬ (holding 0 size).readBuffer.length / 2 < 2 := by
      simp only [holding, List.length_append, List.length_cons, List.length_nil,
        List.length_replicate]
      omega
    have unread : (holding 0 size).readBuffer.drop (holding 0 size).readOffset =
        [120, newline] ++ List.replicate size 97 := rfl
    rw [extractMessage, unread, found, Option.map_some]
    exact congrArg (fun conn => some (([120] : Bytes), conn)) (if_neg small)
  have incomplete : (afterShort size).extractMessage = none := by
    rw [extractMessage, Option.map_eq_none_iff, first_eq_none]
    simp [afterShort, holding, newline]
  have all : (holding 0 size).messages = ([[120]], afterShort size) := by
    have length : (holding 0 size).readBuffer.length = size + 1 + 1 := by
      simp only [holding, List.length_append, List.length_cons, List.length_nil,
        List.length_replicate]
      omega
    rw [messages, length, extractMessages, extracted]
    dsimp only
    rw [extractMessages, incomplete]
  rw [poll, grown, all]
  rfl

/-- The last byte finds no room. -/
theorem shortThenLong_closed {size part count : Nat} (many : 2 ≤ size)
    (room : 2 + size + count * part ≤ maxMessageSize)
    (full : maxMessageSize < 2 + size + count * part + 1) :
    ¬ (accepted 0 0 0).Fits (shortThenLong size part count) := by
  intro fits
  rw [shortThenLong, Fits, shortThenLong_first many (by omega)] at fits
  have long := (afterShort_fits room (fits.2 (afterShort size) rfl)).1
  have unread : (afterShort (size + count * part)).unread =
      List.replicate (size + count * part) 97 := rfl
  rw [unread, List.length_append, List.length_replicate] at long
  have offset : (afterShort (size + count * part)).readOffset = 2 := rfl
  simp only [offset, List.length_singleton] at long
  omega

/-- The connection is closed although its unread bytes are within the limit. -/
theorem closed_within_limit :
    ¬ ∀ (number : Nat) (fd peerPid : Int) (reads : List Bytes),
      (∀ data ∈ reads, 0 < data.length ∧ data.length ≤ 4096) → WithinLimit reads →
      (accepted number fd peerPid).Delivered reads := by
  intro claim
  have sizes : ∀ data ∈ shortThenLong 4094 4096 4095, 0 < data.length ∧ data.length ≤ 4096 := by
    intro data inside
    simp only [shortThenLong, List.mem_cons, List.mem_append, List.mem_replicate,
      List.not_mem_nil, or_false] at inside
    rcases inside with rfl | ⟨_, rfl⟩ | rfl
    · rw [List.length_append, List.length_replicate]
      decide
    · rw [List.length_replicate]
      decide
    · decide
  have within : WithinLimit (shortThenLong 4094 4096 4095) :=
    shortThenLong_within (by decide) (by decide)
  have delivered := claim 0 0 0 (shortThenLong 4094 4096 4095) sizes within
  rw [delivered_of_waiting (waiting_accepted 0 0 0)] at delivered
  exact shortThenLong_closed (by decide) (by decide) (by decide) delivered

end Connection

end Chitta.Daemon
