import Chitta.Gateway.CapsuleRows

/-!
# Operations that bring no capsule

Touches, leases, streams and plain binds leave the capsules of all sessions as they are, whatever
they do to the ledger in between and wherever they throw.
-/
namespace Chitta.Gateway

open Ledger (Library TaskLedger Batch Published mergedMetadata idarg get_of_stored)

variable {library : Library} {env : Env} {world : World} {op : String} {a : Json}

/-! ## What the transactions keep -/

section Transactions

variable {property : World → Prop}
  (runs : ∀ op a, op ≠ "import" → op ≠ "session_bind" →
    Throwing.Keeps property (run library env op a))
include runs

/-- The search of an owned lease keeps what transactions keep. -/
theorem keeps_ownedLease (thread session : String) :
    Throwing.Keeps property (ownedLease library env thread session) := by
  refine (runs _ _ (by decide) (by decide)).bind fun page => ?_
  refine .lift_bind fun value _ => ?_
  refine .lift_bind fun rows _ => ?_
  exact .lift _

/-- So does a touch. -/
theorem keeps_sessionTouch (args : Json) :
    Throwing.Keeps property (sessionTouch library env args) := by
  unfold sessionTouch
  refine .lift_bind fun value _ => .lift_bind fun sid _ => ?_
  refine (runs _ _ (by decide) (by decide)).bind fun session => ?_
  have touches := runs "session_touch" args (by decide) (by decide)
  refine .ite touches ?_
  refine .lift_bind fun text _ => .lift_bind fun metadata _ => .lift_bind fun stream _ => ?_
  have rest : ∀ lease, Throwing.Keeps property (do
      let touched ← run library env "session_touch" args
      if ← heldBy lease sid then
        let ttl ← metadata.valueWith Json.getInt "ttl" 21600
        let _ ← run library env "lease_claim" (.object
          [("thread_id", .str ("stream:" ++ stream)), ("session_id", .str sid), ("ttl", .int ttl)])
      return touched) := by
    intro lease
    refine touches.bind fun touched => .lift_bind fun held _ => .ite ?_ (.pure _)
    refine .lift_bind fun ttl _ => ?_
    exact (runs _ _ (by decide) (by decide)).bind fun _ => .pure _
  refine .ite ?_ ?_
  · exact rest .null
  · exact (keeps_ownedLease runs _ _).bind rest

end Transactions

/-! ## Operations that bring no capsule -/

/-- When the written metadata read back, the sessions hold the accepted capsules. -/
def Held (library : Library) (world : World) : Prop :=
  (∀ metadata ∈ world.written, ReadsBack library metadata) → Kept library world

/-- The capsule in a session depends on what it hands off. -/
theorem capsuleIn_congr {left right : Json}
    (same : handoff library left = handoff library right) :
    capsuleIn library left = capsuleIn library right := by
  simp only [capsuleIn, same]

/-- No session, no capsule. -/
theorem held_initial : Held library (machine library env).initial := by
  intro _
  have handed : handoff library .null = .ok (.object []) := rfl
  have nothing : capsuleIn library .null = none := rfl
  have none_there :
      ∀ id row, ¬(machine library env).initial.ledger.Stored .threadSessions id row := by
    intro id row stored
    simp [Ledger.TaskLedger.Stored, machine, TaskLedger.fresh, Assoc.lookup] at stored
  refine ⟨Ledger.valid_fresh, fun id row stored => absurd stored (none_there id row),
    fun id row stored => absurd stored (none_there id row),
    fun id => ⟨.object [], 0, handed, rfl⟩, by simp [machine], ?_⟩
  · exact MaxRegister.exact_empty

/-- A transaction that leaves what the sessions hand off keeps them. -/
theorem Kept.handed (kept : Kept library world) {next : World}
    (valid : next.ledger.Valid library) (upgraded : Upgraded library next.ledger)
    (stamped : Stamped next.ledger) (accepted : next.accepted = world.accepted)
    (same : ∀ id, handoff library (sessionRow next.ledger id) =
      handoff library (sessionRow world.ledger id)) : Kept library next := by
  have cells : (fun id => capsuleIn library (sessionRow next.ledger id)) =
      fun id => capsuleIn library (sessionRow world.ledger id) :=
    funext fun id => capsuleIn_congr (same id)
  refine ⟨valid, upgraded, stamped, fun id => ?_, ?_, ?_⟩
  · obtain ⟨cap, number, found, read⟩ := kept.readable id
    exact ⟨cap, number, (same id).trans found, read⟩
  · rw [accepted]
    exact kept.checked
  · rw [cells, accepted]
    exact kept.exact

/-- The ledger after a transaction is valid. -/
theorem valid_run {ledger : TaskLedger} (valid : ledger.Valid library) (op : String) (a : Json)
    (ts : Rat) (persist : Batch → Option Thrown) :
    (Ledger.run library ledger op a ts persist).ledger.Valid library := by
  cases valid.run op a ts persist with
  | inl same => rwa [same]
  | inr done =>
    obtain ⟨changes, value, published, _⟩ := done
    exact published.valid

section Empty

variable (empty : library.parse "\x7b\x7d" = some (.object []))
include empty

/-- A transaction that brings no capsule keeps the capsules of the sessions. -/
theorem held_run (local_ : op ≠ "import")
    (plain : op = "session_bind" → broughtHandoff a = none) :
    Throwing.Keeps (Held library) (run library env op a) := by
  intro world held back
  have new : ∀ metadata ∈ writes library world.ledger op a, ReadsBack library metadata :=
    fun metadata inside => back metadata (List.mem_append_left _ inside)
  have kept := held fun metadata inside => back metadata (List.mem_append_right _ inside)
  exact kept.handed (valid_run kept.valid _ _ _ _) (kept.upgraded.run kept.valid _ _ _ _)
    (kept.stamped.run kept.valid _ _ _ _ local_) rfl fun id =>
      handoff_run kept.valid empty _ _ local_ plain new id

/-- A transaction that is no bind keeps them. -/
theorem held_other (local_ : op ≠ "import") (other : op ≠ "session_bind") :
    Throwing.Keeps (Held library) (run library env op a) :=
  held_run empty local_ fun named => absurd named other

omit empty in
/-- A reading of the world outside. -/
theorem held_outside {α : Type} (read : Nat → Except Thrown α) :
    Throwing.Keeps (Held library) (outside read) := by
  intro world held back
  have kept := held back
  exact kept.handed kept.valid kept.upgraded kept.stamped rfl fun _ => rfl

/-- The search of an owned lease. -/
theorem held_ownedLease (thread session : String) :
    Throwing.Keeps (Held library) (ownedLease library env thread session) :=
  keeps_ownedLease (fun _ _ local_ other => held_other empty local_ other) thread session

/-- A touch. -/
theorem held_sessionTouch (args : Json) :
    Throwing.Keeps (Held library) (sessionTouch library env args) :=
  keeps_sessionTouch (fun _ _ local_ other => held_other empty local_ other) args

/-- A handoff of a stream. -/
theorem held_streamHandoff (args : Json) :
    Throwing.Keeps (Held library) (streamHandoff library env args) := by
  unfold streamHandoff
  refine .lift_bind fun value _ => .lift_bind fun sid _ => ?_
  refine .lift_bind fun value _ => .lift_bind fun stream _ => ?_
  refine (held_ownedLease empty _ _).bind fun lease => .lift_bind fun held _ => .guard fun _ => ?_
  refine .lift_bind fun expires _ => (held_outside _).bind fun now => .guard fun _ => ?_
  refine .lift_bind fun value _ => .lift_bind fun content _ => .guard fun _ => ?_
  refine (held_outside _).bind fun saved => ?_
  refine (held_sessionTouch empty _).bind fun _ => ?_
  exact (held_ownedLease empty _ _).bind fun _ => .pure _

/-- The claims of streams. -/
theorem held_streamClaims (tid : String) (leases : List Json) :
    Throwing.Keeps (Held library) (streamClaims library env tid leases) := by
  induction leases with
  | nil => exact .pure _
  | cons lease rest ih =>
    unfold streamClaims
    refine .lift_bind fun id _ => ?_
    cases behindPrefix "stream:" id with
    | none => exact ih
    | some stream =>
      refine .lift_bind fun expires _ => (held_outside _).bind fun now => .ite ih ?_
      refine .lift_bind fun session _ => ?_
      refine (held_other empty (by decide) (by decide)).bind fun row => ?_
      refine .lift_bind fun text _ => .lift_bind fun metadata _ => ?_
      refine .lift_bind fun claim _ => .lift_bind fun claim _ => ?_
      exact ih.bind fun _ => .pure _

/-- The list of streams. -/
theorem held_streamList (args : Json) :
    Throwing.Keeps (Held library) (streamList library env args) := by
  unfold streamList
  refine .lift_bind fun name _ => ?_
  refine (held_other empty (by decide) (by decide)).bind fun page => ?_
  refine .lift_bind fun value _ => .lift_bind fun rows _ => ?_
  exact (held_streamClaims empty _ _).bind fun _ => .pure _

/-- A bind with metadata that have no capsule. -/
theorem held_bind {fields : List (String × Json)}
    (plain : ∀ added, (Json.object fields).find "metadata" = some added →
      added.find "handoff" = none) :
    Throwing.Keeps (Held library) (run library env "session_bind" (.object fields)) := by
  refine held_run empty (by decide) fun _ => ?_
  unfold broughtHandoff
  cases found : (Json.object fields).find "metadata" with
  | none => rfl
  | some added => exact plain added found

/-- The bind of a registration. -/
theorem held_sessionRegister (sid : String) {metadata : Json}
    (plain : metadata.find "handoff" = none) :
    Throwing.Keeps (Held library) (sessionRegister library env sid metadata) := by
  unfold sessionRegister
  refine (held_outside _).bind fun _ => ?_
  refine (held_bind empty fun added found => ?_).bind fun _ => .pure _
  simp [Json.find_object, Assoc.lookup] at found
  rw [← found]
  exact plain

/-- The touch of a heartbeat. -/
theorem held_sessionHeartbeat (sid : String) :
    Throwing.Keeps (Held library) (sessionHeartbeat library env sid) :=
  (held_outside _).bind fun _ => (held_sessionTouch empty _).bind fun _ => .pure _

/-- A release. -/
theorem held_streamRelease (args : Json) :
    Throwing.Keeps (Held library) (streamRelease library env args) := by
  unfold streamRelease
  refine .lift_bind fun given _ => .guard fun _ => ?_
  refine .lift_bind fun value _ => .lift_bind fun sid _ => .guard fun _ => ?_
  refine (held_other empty (by decide) (by decide)).bind fun value => ?_
  refine .lift_bind fun released _ => .ite ?_ (.pure _)
  exact (held_sessionHeartbeat empty _).bind fun _ => .pure _

/-- A claim: the metadata that it binds have no capsule. -/
theorem held_streamClaim (args : Json) :
    Throwing.Keeps (Held library) (streamClaim library env args) := by
  unfold streamClaim
  refine .lift_bind fun name _ => .guard fun _ => ?_
  refine .lift_bind fun value _ => .lift_bind fun sid _ => .guard fun _ => ?_
  refine .lift_bind fun ttl _ => .guard fun _ => ?_
  refine .lift_bind fun worktree _ => .lift_bind fun branch _ => .lift_bind fun title _ => ?_
  refine (held_other empty (by decide) (by decide)).bind fun _ => ?_
  refine (held_bind empty fun added found => ?_).bind fun _ => ?_
  · simp [Json.find_object, Assoc.lookup] at found
  refine (held_other empty (by decide) (by decide)).bind fun claim => ?_
  refine .lift_bind fun claimed _ => .ite (.pure _) ?_
  refine .lift_bind fun expires _ => .lift_bind fun metadata made => ?_
  have plain : metadata.find "handoff" = none := by
    rw [Json.find_set made, if_neg (by decide)]
    simp [Json.find_object, Assoc.lookup]
  refine (held_bind empty fun added found => ?_).bind fun _ => ?_
  · simp [Json.find_object, Assoc.lookup] at found
    rw [← found]
    exact plain
  refine (held_sessionRegister empty _ ?_).bind fun _ => ?_
  · simp [Json.find_object, Assoc.lookup]
  refine (held_sessionHeartbeat empty _).bind fun _ => ?_
  exact .lift_bind fun claim _ => .lift _

end Empty

end Chitta.Gateway
