import Chitta.Ledger.Leases

/-!
# Closed sessions

A close removes the leases of its session in the same batch. A bind can give a session a closing
status as well and leaves the leases to it, and a claim makes a closed session active again without
clearing the time at which it ended; apart from these two, a session that is closed owns no lease
and one that is active has not ended.
-/
namespace Chitta.Ledger

/-- The statuses of a closed session. -/
def closing : List String := ["ended", "interrupted", "completed"]

/-- Closed sessions own no lease and active sessions have not ended. -/
structure TaskLedger.Consistent (ledger : TaskLedger) : Prop where
  /-- The owner of a lease is not closed. -/
  owners : ∀ thread lease session row status, ledger.Stored .threadLeases thread lease →
    OwnedBy session lease → ledger.Stored .threadSessions session row →
    row.find "status" = some (.str status) → status ∉ closing
  /-- An active session has no end. -/
  active : ∀ session row, ledger.Stored .threadSessions session row →
    row.find "status" = some (.str "active") → row.find "ended_at" = some .null

/-- A bind with a closing status is for a session without leases. -/
def ClosesLeaseless (ledger : TaskLedger) (a : Json) : Prop :=
  ∀ session status, idarg a "session_id" = .ok session →
    a.valueString "status" "active" = .ok status → status ∈ closing →
    ∀ thread lease, ledger.Stored .threadLeases thread lease → ¬OwnedBy session lease

/-- A claim that no other session stops is made by a session that has not ended. -/
def ClaimsOpen (ledger : TaskLedger) (a : Json) (ts : Rat) : Prop :=
  ∀ thread session row, idarg a "thread_id" = .ok thread → idarg a "session_id" = .ok session →
    ledger.Stored .threadSessions session row →
    liveOwner ((ledger.tables .threadLeases).get thread) session a ts = .ok false →
    row.find "ended_at" = some .null

/-- The runs without imports whose binds and claims are of this kind. -/
def Careful (ledger : TaskLedger) (action : Action) : Prop :=
  match action with
  | .run op a ts _ =>
    op ≠ "import" ∧ (op = "session_bind" → ClosesLeaseless ledger a) ∧
      (op = "lease_claim" → ClaimsOpen ledger a ts)
  | .replay _ => False

variable {library : Library} {ledger after : TaskLedger} {op : String} {a : Json} {ts : Rat}

/-- A stored row has one value of a field. -/
theorem found_unique {row : Json} {key text other : String}
    (found : row.find key = some (.str text)) (again : row.find key = some (.str other)) :
    other = text :=
  Json.str.inj (Option.some.inj (again.symm.trans found))

/-- A ledger with the same rows is consistent. -/
theorem TaskLedger.Consistent.congr (consistent : ledger.Consistent)
    (leases : ∀ thread lease, after.Stored .threadLeases thread lease →
      ledger.Stored .threadLeases thread lease)
    (sessions : ∀ id, after.row .threadSessions id = ledger.row .threadSessions id) :
    after.Consistent where
  owners thread lease session row status stored owned there :=
    consistent.owners thread lease session row status (leases thread lease stored) owned
      ((sessions session).symm.trans there)
  active session row there := consistent.active session row ((sessions session).symm.trans there)

/-- `session_bind`. -/
theorem TaskLedger.Consistent.bound (consistent : ledger.Consistent) {id : String}
    {row stored : Json} (read : idarg a "session_id" = .ok id)
    (made : BoundRow library ledger a ts id row) (similar : Similar stored row)
    (leaseless : ClosesLeaseless ledger a)
    (leases : ∀ thread, after.row .threadLeases thread = ledger.row .threadLeases thread)
    (sessions : ∀ other, after.row .threadSessions other =
      if other = id then some stored else ledger.row .threadSessions other) :
    after.Consistent where
  owners thread lease session found status there owned bound stated := by
    have before : ledger.Stored .threadLeases thread lease := (leases thread).symm.trans there
    have rows := (sessions session).symm.trans bound
    split at rows
    · rename_i same
      subst same
      obtain rfl := Option.some.inj rows
      obtain ⟨given, read_status, _, field⟩ := made.status
      rw [similar "status" (by decide) (by decide)] at stated
      obtain rfl := found_unique field stated
      exact fun closed => leaseless session status read read_status closed thread lease before owned
    · exact consistent.owners thread lease session found status before owned rows stated
  active session found bound stated := by
    have rows := (sessions session).symm.trans bound
    split at rows
    · obtain rfl := Option.some.inj rows
      rw [similar "ended_at" (by decide) (by decide), made.ended]
    · exact consistent.active session found rows stated

/-- `session_touch` and `session_close`. -/
theorem TaskLedger.Consistent.touched (consistent : ledger.Consistent) {close : Bool}
    {id status : String} (active : status = "active" ↔ close = false)
    (others : ∀ other, other ≠ id →
      after.row .threadSessions other = ledger.row .threadSessions other)
    (own : ∀ row, after.Stored .threadSessions id row → row.find "status" = some (.str status) ∧
      row.find "ended_at" = some (if close then .float ts else .null))
    (leases : ∀ thread, LeaseTouched close ts id (ledger.row .threadLeases thread)
      (after.row .threadLeases thread)) : after.Consistent where
  owners thread lease session row given there owned bound stated := by
    have touched := leases thread
    have last : after.row .threadLeases thread = some lease := there
    rw [last] at touched
    generalize before : ledger.row .threadLeases thread = earlier at touched
    cases touched with
    | other _ foreign =>
      have apart : session ≠ id := fun same => foreign lease rfl (same ▸ owned)
      exact consistent.owners thread lease session row given before owned
        ((others session apart).symm.trans bound) stated
    | extended was _ owner touched fields =>
      have same : session = id := by
        rw [OwnedBy, fields "session_id" (by decide) (by decide)] at owned
        exact found_unique owner (by simpa using owned)
      subst same
      obtain rfl := found_unique (own row bound).1 stated
      rw [active.mpr touched]
      decide
  active session row bound stated := by
    by_cases same : session = id
    · subst same
      obtain ⟨now, ended⟩ := own row bound
      rw [ended, active.mp (found_unique stated now)]
      rfl
    · exact consistent.active session row ((others session same).symm.trans bound) stated

/-- `lease_claim`. -/
theorem TaskLedger.Consistent.claimed (consistent : ledger.Consistent) {thread session : String}
    {lease row stored bound : Json} (readThread : idarg a "thread_id" = .ok thread)
    (readSession : idarg a "session_id" = .ok session)
    (claimed : ClaimedLease ledger a ts thread session lease row)
    (similarLease : Similar stored lease)
    (similar : Similar bound row) (fresh : ClaimsOpen ledger a ts)
    (leases : ∀ other, after.row .threadLeases other =
      if other = thread then some stored else ledger.row .threadLeases other)
    (sessions : ∀ other, after.row .threadSessions other =
      if other = session then some bound else ledger.row .threadSessions other) :
    after.Consistent where
  owners other found owner there status in_table owned session_row stated := by
    have rows := (sessions owner).symm.trans session_row
    split at rows
    · obtain rfl := Option.some.inj rows
      rw [similar "status" (by decide) (by decide), claimed.active] at stated
      obtain rfl : "active" = status := by simpa using stated
      decide
    · rename_i apart
      have held := (leases other).symm.trans in_table
      split at held
      · obtain rfl := Option.some.inj held
        rw [OwnedBy, similarLease "session_id" (by decide) (by decide), claimed.owner] at owned
        exact absurd (Json.str.inj (Option.some.inj owned)).symm apart
      · exact consistent.owners other found owner there status held owned rows stated
  active owner there session_row stated := by
    have rows := (sessions owner).symm.trans session_row
    split at rows
    · obtain rfl := Option.some.inj rows
      rw [similar "ended_at" (by decide) (by decide), claimed.active]
      exact fresh thread session _ readThread readSession claimed.hasSession claimed.free
    · exact consistent.active owner there rows stated

/-- A careful run keeps a ledger consistent. -/
theorem TaskLedger.Consistent.run (consistent : ledger.Consistent) (valid : ledger.Valid library)
    {persist : Batch → Option Thrown} (careful : Careful ledger (.run op a ts persist)) :
    (Ledger.run library ledger op a ts persist).ledger.Consistent := by
  obtain ⟨own, leaseless, fresh⟩ := careful
  cases valid.effect op a ts persist with
  | inl same => rwa [same]
  | inr effect =>
    cases effect with
    | apart leases sessions =>
      exact consistent.congr (fun thread _ stored => (leases thread).symm.trans stored) sessions
    | imported named => exact absurd named own
    | bound named id row stored read made similar leases sessions =>
      exact consistent.bound read made similar (leaseless named) leases sessions
    | touched close named id status read active others fields leases =>
      exact consistent.touched active others
        (fun row stored => ⟨(fields row stored).1, (fields row stored).2.1⟩) leases
    | claimed named thread session lease row stored bound readThread readSession claimed
        similarLease similar leases sessions =>
      exact consistent.claimed readThread readSession claimed similarLease similar (fresh named)
        leases sessions
    | released named session read leases sessions =>
      refine consistent.congr (fun thread lease stored => ?_) sessions
      cases leases thread with
      | inl same => exact same.symm.trans stored
      | inr gone =>
        have missing := gone.1.symm.trans stored
        contradiction

/-- Careful runs are runs without imports. -/
theorem Careful.withoutImport {action : Action} (careful : Careful ledger action) :
    RunsWithoutImport ledger action := by
  cases action with
  | run => exact careful.1
  | replay => exact careful

/-- Every ledger that careful runs lead to is consistent. -/
theorem consistent_reached (reached : (machine library).Reaches Careful ledger) :
    ledger.Consistent := by
  induction reached with
  | initial => exact ⟨fun _ _ _ _ _ stored => by contradiction, fun _ _ stored => by contradiction⟩
  | step action reached careful taken ih =>
    cases action with
    | run op a ts persist =>
      obtain rfl := Option.some.inj taken
      have valid := valid_of_reaches (reached.mono fun _ _ careful => careful.withoutImport)
      exact ih.run valid careful
    | replay batch => contradiction

/-- A bind without a status closes nothing. -/
theorem sessionArguments_leaseless (session : String) :
    ClosesLeaseless ledger (sessionArguments session) := by
  intro id status _ read closed
  have active : (sessionArguments session).valueString "status" "active" = .ok "active" := rfl
  obtain rfl := Except.ok.inj (active.symm.trans read)
  exact absurd closed (by decide)

/-- Careful runs lead to a ledger with a lease. -/
theorem consistent_reached_leased : leased.Consistent := by
  have started : ClaimsOpen twoSessions (claimArguments "s-1") 4 := by
    intro thread session row _ readSession stored _
    obtain rfl := Except.ok.inj readSession
    have none_ended : (twoSessions.row .threadSessions "s-1").all
        (fun row => decide (row.find "ended_at" = some .null)) = true := by decide +kernel
    have there : twoSessions.row .threadSessions "s-1" = some row := stored
    rw [there] at none_ended
    exact of_decide_eq_true none_ended
  have created : (machine emptyLibrary).Reaches Careful
      (performed .fresh "thread_create" threadArguments 1) :=
    reaches_performed .initial ⟨by decide, by simp, by simp⟩
  have bound : (machine emptyLibrary).Reaches Careful twoSessions :=
    reaches_performed
      (reaches_performed created ⟨by decide, fun _ => sessionArguments_leaseless "s-1", by simp⟩)
      ⟨by decide, fun _ => sessionArguments_leaseless "s-2", by simp⟩
  exact consistent_reached (reaches_performed bound ⟨by decide, by simp, fun _ => started⟩)

/-- The arguments of a bind that ends the first session. -/
def endedArguments : Json := .object [("session_id", .str "s-1"), ("status", .str "ended")]

/-- A session that a bind ended owns a lease. -/
def endedOwner : TaskLedger := performed leased "session_bind" endedArguments 5

/-- The first session after its close. -/
def closedSession : TaskLedger := performed leased "session_close" (sessionArguments "s-1") 5

/-- A closed session that claims a lease is active with an end. -/
def endedActive : TaskLedger := performed closedSession "lease_claim" (claimArguments "s-1") 6

/-- A bind with a closing status leaves its leases to a session, and a claim leaves the end of a
closed session. -/
theorem consistent_refuted :
    ((machine emptyLibrary).Reaches RunsWithoutImport endedOwner ∧ ¬endedOwner.Consistent) ∧
      (machine emptyLibrary).Reaches RunsWithoutImport endedActive ∧ ¬endedActive.Consistent := by
  constructor
  · refine ⟨reaches_performed leased_reached (show "session_bind" ≠ "import" by decide), ?_⟩
    intro consistent
    have ⟨owned, closed⟩ : (endedOwner.row .threadLeases "t-1").any
        (fun lease => decide (OwnedBy "s-1" lease)) = true ∧
        (endedOwner.row .threadSessions "s-1").any
          (fun row => decide (row.find "status" = some (.str "ended"))) = true := by decide +kernel
    obtain ⟨lease, stored, owner⟩ := (Option.any_eq_true _ _).mp owned
    obtain ⟨row, there, status⟩ := (Option.any_eq_true _ _).mp closed
    exact consistent.owners "t-1" lease "s-1" row "ended" stored (of_decide_eq_true owner) there
      (of_decide_eq_true status) (by decide)
  · refine ⟨reaches_performed (reaches_performed leased_reached
      (show "session_close" ≠ "import" by decide)) (show "lease_claim" ≠ "import" by decide), ?_⟩
    intro consistent
    have ended : (endedActive.row .threadSessions "s-1").any (fun row =>
        decide (row.find "status" = some (.str "active") ∧ row.find "ended_at" ≠ some .null)) =
          true := by decide +kernel
    obtain ⟨row, there, fields⟩ := (Option.any_eq_true _ _).mp ended
    obtain ⟨active, last⟩ := of_decide_eq_true fields
    exact last (consistent.active "s-1" row there active)

end Chitta.Ledger
