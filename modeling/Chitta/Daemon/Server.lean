import Chitta.Framing
import Chitta.Daemon.Dispatch

/-!
# The socket server

A connection is a descriptor with a read and a write buffer. Requests and responses name their
client by its descriptor only, which the kernel gives to the next client once it is closed. The
model numbers the connections, and every byte in a write buffer carries the number of the
connection whose request it answers; the code has no such numbers.
-/
namespace Chitta.Daemon

/-- The byte that ends a message. -/
def newline : UInt8 := 10

/-- `MAX_CONNECTIONS`. -/
def maxConnections : Nat := 32

/-- `MAX_MESSAGE_SIZE`. -/
def maxMessageSize : Nat := 16 * 1024 * 1024

/-- `ClientConnection`. -/
structure Connection where
  /-- The number of the connection. -/
  number : Nat
  /-- `fd`. -/
  fd : Int
  /-- `peer_pid`. -/
  peerPid : Int
  /-- `read_buffer`. -/
  readBuffer : Bytes
  /-- `read_offset`. -/
  readOffset : Nat
  /-- `write_buffer`: a byte and the connection it is for. -/
  writeBuffer : List (UInt8 × Nat)
  /-- `wants_close`. -/
  wantsClose : Bool

/-- `ClientRequest`. -/
structure ClientRequest where
  /-- `client_fd`. -/
  clientFd : Int
  /-- `peer_pid`. -/
  peerPid : Int
  /-- `data`. -/
  data : Bytes
  /-- The connection that sent it. -/
  connection : Nat
  /-- The number of the request. -/
  number : Nat

/-- `PendingResponse`. -/
structure PendingResponse where
  /-- `client_fd`. -/
  clientFd : Int
  /-- `data`. -/
  data : Bytes
  /-- The connection it is for. -/
  connection : Nat

/-- What a read of a descriptor gives. -/
inductive Input where
  /-- Some bytes. -/
  | data (bytes : Bytes)
  /-- The end of the stream, or an error. -/
  | closed
  /-- Nothing yet. -/
  | again

/-- What a write to a descriptor does. -/
inductive Output where
  /-- It takes some bytes. -/
  | written (count : Nat)
  /-- It fails. -/
  | failed
  /-- It takes none yet. -/
  | again

/-- What `poll` says about a descriptor, and what its read and write give. -/
structure Readiness where
  /-- `POLLIN`. -/
  input : Option Input
  /-- `POLLOUT`. -/
  output : Option Output
  /-- `POLLERR`, `POLLHUP` or `POLLNVAL`. -/
  hangup : Bool

namespace Connection

/-- A new connection. -/
def accepted (number : Nat) (fd peerPid : Int) : Connection where
  number
  fd
  peerPid
  readBuffer := []
  readOffset := 0
  writeBuffer := []
  wantsClose := false

/-- Data is read. -/
def read (conn : Connection) : Option Input → Connection
  | some (.data bytes) =>
    { conn with
      readBuffer := conn.readBuffer ++ bytes
      wantsClose :=
        conn.wantsClose || maxMessageSize < (conn.readBuffer ++ bytes).length }
  | some .closed => { conn with wantsClose := true }
  | some .again => conn
  | none => conn

/-- Data is written: the bytes that are taken, and the connection. -/
def write (conn : Connection) : Option Output → List (UInt8 × Nat) × Connection
  | some (.written count) =>
    (conn.writeBuffer.take count, { conn with writeBuffer := conn.writeBuffer.drop count })
  | some .failed =>
    ([], if conn.writeBuffer.isEmpty then conn else { conn with wantsClose := true })
  | some .again => ([], conn)
  | none => ([], conn)

/-- The body of the loop over the descriptors. -/
def serve (conn : Connection) (ready : Readiness) : List (UInt8 × Nat) × Connection :=
  let (taken, conn) := (conn.read ready.input).write ready.output
  (taken, if ready.hangup then { conn with wantsClose := true } else conn)

/-- `has_complete_message` and `extract_message`. -/
def extractMessage (conn : Connection) : Option (Bytes × Connection) :=
  (Framing.first newline (conn.readBuffer.drop conn.readOffset)).map fun (message, _) =>
    let offset := conn.readOffset + message.length + 1
    (message,
      if conn.readBuffer.length / 2 < offset then
        { conn with readBuffer := conn.readBuffer.drop offset, readOffset := 0 }
      else { conn with readOffset := offset })

/-- All complete messages, given as many steps as there can be. -/
def extractMessages : Nat → Connection → List Bytes × Connection
  | 0, conn => ([], conn)
  | fuel + 1, conn =>
    match conn.extractMessage with
    | none => ([], conn)
    | some (message, conn) =>
      let (messages, conn) := conn.extractMessages fuel
      (message :: messages, conn)

/-- The complete messages of a connection. -/
def messages (conn : Connection) : List Bytes × Connection :=
  conn.extractMessages conn.readBuffer.length

end Connection

/-- `respond`: the bytes go to the connection with the descriptor, if there is one. -/
def respond (response : PendingResponse) : List Connection → List Connection
  | [] => []
  | conn :: rest =>
    if conn.fd = response.clientFd then
      { conn with
        writeBuffer := conn.writeBuffer ++
          (response.data ++ [newline]).map fun byte => (byte, response.connection) } :: rest
    else conn :: respond response rest

/-! ## Responding -/

/-- A response is added to the connection with its descriptor, and to no other. -/
theorem mem_respond {response : PendingResponse} {connections : List Connection}
    {conn : Connection} (inside : conn ∈ respond response connections) :
    conn ∈ connections ∨ ∃ old ∈ connections, old.fd = response.clientFd ∧
      conn = { old with
        writeBuffer := old.writeBuffer ++
          (response.data ++ [newline]).map fun byte => (byte, response.connection) } := by
  induction connections with
  | nil => contradiction
  | cons first rest ih =>
    unfold respond at inside
    split at inside
    · rename_i own
      cases inside with
      | head => exact .inr ⟨first, List.mem_cons_self, own, rfl⟩
      | tail _ later => exact .inl (List.mem_cons_of_mem _ later)
    · cases inside with
      | head => exact .inl List.mem_cons_self
      | tail _ later =>
        cases ih later with
        | inl same => exact .inl (List.mem_cons_of_mem _ same)
        | inr changed =>
          obtain ⟨old, there, own, equal⟩ := changed
          exact .inr ⟨old, List.mem_cons_of_mem _ there, own, equal⟩

/-- A response without a connection is dropped. -/
theorem respond_absent {response : PendingResponse} {connections : List Connection}
    (absent : ∀ conn ∈ connections, conn.fd ≠ response.clientFd) :
    respond response connections = connections := by
  induction connections with
  | nil => rfl
  | cons first rest ih =>
    have apart := absent first List.mem_cons_self
    have others := ih fun conn inside => absent conn (List.mem_cons_of_mem _ inside)
    rw [respond, if_neg apart, others]

/-- The other connections stay as they are. -/
theorem mem_respond_other {response : PendingResponse} {connections : List Connection}
    {conn : Connection} (inside : conn ∈ connections) (other : conn.fd ≠ response.clientFd) :
    conn ∈ respond response connections := by
  induction connections with
  | nil => contradiction
  | cons first rest ih =>
    unfold respond
    cases inside with
    | head =>
      rw [if_neg other]
      exact List.mem_cons_self
    | tail _ later =>
      split
      · exact List.mem_cons_of_mem _ later
      · exact List.mem_cons_of_mem _ (ih later)

/-- The one connection with the descriptor gets the response. -/
theorem mem_respond_own {response : PendingResponse} {connections : List Connection}
    {conn : Connection} (inside : conn ∈ connections) (own : conn.fd = response.clientFd)
    (only : ∀ other ∈ connections, other.fd = response.clientFd → other = conn) :
    { conn with
      writeBuffer := conn.writeBuffer ++
        (response.data ++ [newline]).map fun byte => (byte, response.connection) } ∈
      respond response connections := by
  induction connections with
  | nil => contradiction
  | cons first rest ih =>
    unfold respond
    by_cases same : first.fd = response.clientFd
    · rw [if_pos same, only first List.mem_cons_self same]
      exact List.mem_cons_self
    · rw [if_neg same]
      cases inside with
      | head => exact absurd own same
      | tail _ later =>
        have others := ih later fun other there => only other (List.mem_cons_of_mem _ there)
        exact List.mem_cons_of_mem _ others

/-! ## Messages -/

namespace Connection

/-- The bytes that have not been extracted. -/
def unread (conn : Connection) : Bytes := conn.readBuffer.drop conn.readOffset

/-- An extracted message was the first one of the unread bytes. -/
theorem unread_extractMessage {conn next : Connection} {message : Bytes}
    (extracted : conn.extractMessage = some (message, next)) :
    conn.unread = message ++ newline :: next.unread ∧ newline ∉ message := by
  obtain ⟨⟨first, rest⟩, found, same⟩ := Option.map_eq_some_iff.mp extracted
  obtain ⟨split, clean⟩ := Framing.eq_of_first found
  have start : conn.unread = first ++ newline :: rest := split
  have left : conn.readBuffer.drop (conn.readOffset + first.length + 1) = rest := by
    rw [Nat.add_assoc, ← List.drop_drop]
    show conn.unread.drop (first.length + 1) = rest
    rw [start, List.drop_append]
    simp
  dsimp only at same
  split at same
  · cases same
    refine ⟨?_, clean⟩
    show conn.unread = message ++ newline :: (conn.readBuffer.drop _).drop 0
    rw [List.drop_zero, left, start]
  · cases same
    refine ⟨?_, clean⟩
    show conn.unread = message ++ newline :: conn.readBuffer.drop _
    rw [left, start]

/-- The extracted messages are those that a newline ends, in order, and no complete one is left. -/
theorem unread_extractMessages (fuel : Nat) (conn : Connection)
    (enough : conn.unread.length ≤ fuel) :
    conn.unread =
        Framing.join newline (conn.extractMessages fuel).1 ++ (conn.extractMessages fuel).2.unread ∧
      (∀ message ∈ (conn.extractMessages fuel).1, newline ∉ message) ∧
      (conn.extractMessages fuel).2.extractMessage = none := by
  induction fuel generalizing conn with
  | zero =>
    have empty : conn.unread = [] := List.length_eq_zero_iff.mp (by omega)
    refine ⟨by simp [extractMessages, Framing.join], by simp [extractMessages], ?_⟩
    show (Framing.first newline conn.unread).map _ = none
    rw [empty]
    rfl
  | succ fuel ih =>
    unfold extractMessages
    cases extracted : conn.extractMessage with
    | none => exact ⟨by simp [Framing.join], by simp, extracted⟩
    | some result =>
      obtain ⟨message, next⟩ := result
      obtain ⟨split, clean⟩ := unread_extractMessage extracted
      have shorter : next.unread.length ≤ fuel := by
        have length := congrArg List.length split
        simp only [List.length_append, List.length_cons] at length
        omega
      obtain ⟨rest, others, done⟩ := ih next shorter
      refine ⟨?_, ?_, done⟩
      · rw [split, rest]
        simp [Framing.join]
      · intro other inside
        cases inside with
        | head => exact clean
        | tail _ later => exact others other later

/-- A connection gives its messages and keeps the rest. -/
theorem unread_messages (conn : Connection) :
    conn.unread = Framing.join newline conn.messages.1 ++ conn.messages.2.unread ∧
      (∀ message ∈ conn.messages.1, newline ∉ message) ∧
      conn.messages.2.extractMessage = none := by
  apply unread_extractMessages
  simp [unread]

/-- What stays of a connection while it is open. -/
structure Same (before after : Connection) : Prop where
  /-- The number. -/
  number : after.number = before.number
  /-- The descriptor. -/
  fd : after.fd = before.fd

/-- Extracting keeps the connection and what it is to write. -/
theorem same_extractMessages (fuel : Nat) (conn : Connection) :
    Same conn (conn.extractMessages fuel).2 ∧
      (conn.extractMessages fuel).2.writeBuffer = conn.writeBuffer := by
  induction fuel generalizing conn with
  | zero => exact ⟨⟨rfl, rfl⟩, rfl⟩
  | succ fuel ih =>
    unfold extractMessages
    cases extracted : conn.extractMessage with
    | none => exact ⟨⟨rfl, rfl⟩, rfl⟩
    | some result =>
      obtain ⟨message, next⟩ := result
      have kept : Same conn next ∧ next.writeBuffer = conn.writeBuffer := by
        obtain ⟨_, _, same⟩ := Option.map_eq_some_iff.mp extracted
        dsimp only at same
        split at same
        · cases same
          exact ⟨⟨rfl, rfl⟩, rfl⟩
        · cases same
          exact ⟨⟨rfl, rfl⟩, rfl⟩
      have rest := ih next
      exact ⟨⟨rest.1.number.trans kept.1.number, rest.1.fd.trans kept.1.fd⟩, rest.2.trans kept.2⟩

/-- Reading keeps the connection and what it is to write. -/
theorem same_read (conn : Connection) (input : Option Input) :
    Same conn (conn.read input) ∧ (conn.read input).writeBuffer = conn.writeBuffer := by
  unfold read
  split <;> exact ⟨⟨rfl, rfl⟩, rfl⟩

/-- Writing keeps the connection; what is taken and what is left were to be written. -/
theorem same_write (conn : Connection) (output : Option Output) :
    Same conn (conn.write output).2 ∧
      (∀ byte ∈ (conn.write output).1, byte ∈ conn.writeBuffer) ∧
      ∀ byte ∈ (conn.write output).2.writeBuffer, byte ∈ conn.writeBuffer := by
  unfold write
  split
  · exact ⟨⟨rfl, rfl⟩, fun byte => List.mem_of_mem_take, fun byte => List.mem_of_mem_drop⟩
  · refine ⟨?_, by simp, ?_⟩
    · split <;> exact ⟨rfl, rfl⟩
    · split <;> exact fun _ inside => inside
  · exact ⟨⟨rfl, rfl⟩, by simp, fun _ inside => inside⟩
  · exact ⟨⟨rfl, rfl⟩, by simp, fun _ inside => inside⟩

/-- So does serving. -/
theorem same_serve (conn : Connection) (ready : Readiness) :
    Same conn (conn.serve ready).2 ∧
      (∀ byte ∈ (conn.serve ready).1, byte ∈ conn.writeBuffer) ∧
      ∀ byte ∈ (conn.serve ready).2.writeBuffer, byte ∈ conn.writeBuffer := by
  have read := conn.same_read ready.input
  have write := (conn.read ready.input).same_write ready.output
  rw [read.2] at write
  have kept : Same conn ((conn.read ready.input).write ready.output).2 :=
    ⟨write.1.number.trans read.1.number, write.1.fd.trans read.1.fd⟩
  unfold serve
  dsimp only
  refine ⟨?_, write.2.1, ?_⟩
  · split
    · exact ⟨kept.number, kept.fd⟩
    · exact kept
  · split
    · exact write.2.2
    · exact write.2.2

end Connection

end Chitta.Daemon
