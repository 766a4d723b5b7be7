import Chitta.Gateway.StreamLookup
import Chitta.Gateway.Plain

/-!
# Heartbeats and the ends of leases

A touch of a session lets each of its leases end 900 seconds later, also one that was claimed for
longer. The gateway claims the lease of the stream in the metadata of the session again, for the
time that is noted there, when it finds the lease.
-/
namespace Chitta.Gateway

open Ledger (Library TaskLedger Batch Published Accepted OwnedBy LeaseTouched emptyLibrary
  sessionArguments leased)

/-- No lease of a session ends earlier than before. -/
def Lasts (before after : TaskLedger) (session : String) : Prop :=
  ∀ thread lease, before.Stored .threadLeases thread lease → OwnedBy session lease →
    ∃ next, after.Stored .threadLeases thread next ∧ endsAt lease ≤ endsAt next

/-- The metadata of a session. -/
def metadataOf (library : Library) (row : Json) : Except Thrown Json := do
  parsed library (← row.valueString "metadata_json" "\x7b\x7d")

/-- The stream in the metadata of a session, none without a session. -/
def streamName (library : Library) (row : Json) : Except Thrown String :=
  if row.isNull then .ok ""
  else do (← metadataOf library row).valueString "stream" ""

/-- The time for which the stream is claimed. -/
def ttlOf (library : Library) (row : Json) : Except Thrown Int := do
  (← metadataOf library row).valueWith Json.getInt "ttl" 21600

/-- The reading of the clock with which the gateway touches a session. -/
def touchReading (world : World) (stream : String) : Nat :=
  if stream = "" then world.readings + 1 else world.readings + 2

/-- The ledger after the touch. -/
def touched (library : Library) (env : Env) (world : World) (args : Json) (stream : String) :
    TaskLedger :=
  (Ledger.run library world.ledger "session_touch" args (env.clock (touchReading world stream))
    (env.persist (touchReading world stream))).ledger

/-- The arguments of the claim after it. -/
def reclaimArguments (thread session : String) (ttl : Int) : Json :=
  .object [("thread_id", .str thread), ("session_id", .str session), ("ttl", .int ttl)]

/-- The lease of the stream of a session is found and claimed again. -/
structure Reclaimed (library : Library) (env : Env) (world : World) (args : Json)
    (session stream thread : String) (lease : Json) (ttl : Int) : Prop where
  /-- There is a stream. -/
  named : stream ≠ ""
  /-- The lease is that of its thread. -/
  same : thread = "stream:" ++ stream
  /-- It is among the first leases of the session. -/
  found : (thread, lease) ∈ firstPage world.ledger (OwnedBy session)
  /-- The time is noted. -/
  noted : ttlOf library (sessionRow world.ledger session) = .ok ttl
  /-- The claim is accepted. -/
  accepted : Accepted library (touched library env world args stream) "lease_claim"
    (reclaimArguments thread session ttl) (env.clock (touchReading world stream + 1))
    (env.persist (touchReading world stream + 1))

/-- The end of a lease after the gateway has touched its session. -/
inductive EndsThen (library : Library) (env : Env) (world : World) (args : Json)
    (session stream thread : String) (lease : Json) : Rat → Prop
  | touched (left : ∀ ttl, ¬Reclaimed library env world args session stream thread lease ttl) :
      EndsThen library env world args session stream thread lease
        (env.clock (touchReading world stream) + 900)
  | claimed (ttl : Int)
      (again : Reclaimed library env world args session stream thread lease ttl) :
      EndsThen library env world args session stream thread lease
        (env.clock (touchReading world stream + 1) + (max 30 ttl : Int))

variable {library : Library} {env : Env} {world : World} {args : Json} {session : String}

/-- The time is a number of 32 bits. -/
theorem ttlOf_range {row : Json} {ttl : Int} (noted : ttlOf library row = .ok ttl) :
    -2147483648 ≤ ttl ∧ ttl ≤ 2147483647 := by
  obtain ⟨metadata, _, read⟩ := bind_ok noted
  unfold Json.valueWith at read
  split at read
  · split at read
    · exact Json.getInt_range read
    · obtain rfl := Except.ok.inj read
      decide
  · contradiction

/-! ## Touches of the ledger -/

/-- An end that is written. -/
theorem endsAt_of_find {lease : Json} {value : Rat}
    (found : lease.find "expires_at" = some (.float value)) : endsAt lease = value := by
  rw [endsAt, found]
  rfl

/-- A published touch extends the leases of its session. -/
theorem touched_leases {ledger after : TaskLedger} (valid : ledger.Valid library) {ts : Rat}
    {changes : List Ledger.Change} {value : Json} (read : args.at "session_id" = .ok (.str session))
    (published : Published library ledger "session_touch" args ts after changes value)
    (thread : String) : LeaseTouched false ts session (ledger.row .threadLeases thread)
      (after.row .threadLeases thread) := by
  obtain ⟨id, status, own, leases, rows, named, _, row, selected, all, rfl⟩ :=
    Ledger.touchSession_cases published.planned
  rw [read] at named
  obtain rfl : session = id := Except.ok.inj named
  exact published.touched_lease valid selected all (fun staged inside =>
    (Ledger.touchRow_staged_own row staged inside).1) thread

/-- A lease of the session then ends after 900 seconds. -/
theorem touched_end {ts : Rat} {lease : Json} {before after : Option Json}
    (touched : LeaseTouched false ts session before after) (stored : before = some lease)
    (owned : OwnedBy session lease) :
    ∃ next, after = some next ∧ endsAt next = ts + 900 ∧ OwnedBy session next := by
  cases touched with
  | other _ foreign => exact absurd owned (foreign lease stored)
  | removed _ _ closed => contradiction
  | extended _ next _ _ fields =>
    obtain rfl := Option.some.inj stored
    refine ⟨next, rfl, endsAt_of_find (fields "expires_at" (by decide) (by decide)), ?_⟩
    rw [OwnedBy, fields "session_id" (by decide) (by decide)]
    exact owned

/-- What is not changed lasts. -/
theorem lasts_refl (ledger : TaskLedger) (session : String) : Lasts ledger ledger session :=
  fun _ lease stored _ => ⟨lease, stored, le_refl _⟩

/-- Leases of known ends last when they do not end earlier. -/
theorem lasts_iff {before after : TaskLedger} {last : String → Json → Rat → Prop}
    (ends : ∀ thread lease, before.Stored .threadLeases thread lease → OwnedBy session lease →
      ∃ next, after.Stored .threadLeases thread next ∧ last thread lease (endsAt next) ∧
        ∀ value, last thread lease value → value = endsAt next) :
    Lasts before after session ↔ ∀ thread lease, before.Stored .threadLeases thread lease →
      OwnedBy session lease → ∀ value, last thread lease value → endsAt lease ≤ value := by
  constructor
  · intro lasts thread lease stored owned value known
    obtain ⟨next, there, later⟩ := lasts thread lease stored owned
    obtain ⟨other, again, _, unique⟩ := ends thread lease stored owned
    obtain rfl : next = other := Option.some.inj (there.symm.trans again)
    rwa [unique value known]
  · intro later thread lease stored owned
    obtain ⟨next, there, known, _⟩ := ends thread lease stored owned
    exact ⟨next, there, later thread lease stored owned _ known⟩

/-- A touch of the ledger lets the leases of its session last exactly when it is not accepted or
none of them ends later than 900 seconds from it. -/
theorem run_touch_lasts {ledger : TaskLedger} (valid : ledger.Valid library)
    (read : args.at "session_id" = .ok (.str session)) (ts : Rat)
    (persist : Batch → Option Thrown) :
    Lasts ledger (Ledger.run library ledger "session_touch" args ts persist).ledger session ↔
      (Accepted library ledger "session_touch" args ts persist → ∀ thread lease,
        ledger.Stored .threadLeases thread lease → OwnedBy session lease →
          endsAt lease ≤ ts + 900) := by
  by_cases accepted : Accepted library ledger "session_touch" args ts persist
  · obtain ⟨changes, value, after, published, ran, _⟩ := valid.run_accepted accepted
    rw [ran]
    have ends := @lasts_iff session ledger after (fun _ _ value => value = ts + 900) ?_
    · rw [ends]
      simp [accepted]
    · intro thread lease stored owned
      obtain ⟨next, there, last, _⟩ :=
        touched_end (touched_leases valid read published thread) stored owned
      exact ⟨next, there, last, fun value same => same.trans last.symm⟩
  · rw [(Ledger.run_refused accepted).1]
    exact ⟨fun _ taken => absurd taken accepted, fun _ => lasts_refl ledger session⟩

/-! ## Touches through the gateway -/

/-- A session holds a lease that it owns. -/
theorem heldBy_owner {lease : Json} (owned : lease.find "session_id" = some (.str session)) :
    heldBy lease session = .ok true := by
  have text : lease.valueString "session_id" "" = .ok session :=
    Json.valueWith_of_find owned Json.getString ""
  rw [heldBy, Json.isNull_of_find owned, text]
  simp [bind, Except.bind, pure, Except.pure]

/-- The lease that the gateway finds for a stream, null without one. -/
def foundLease (ledger : TaskLedger) (session stream : String) : Json :=
  if stream = "" then .null
  else (((firstPage ledger (OwnedBy session)).find? fun entry =>
    entry.1 = "stream:" ++ stream).map (·.2)).getD .null

/-- A session holds what is found on its page. -/
theorem foundLease_cases (ledger : TaskLedger) (session stream : String) :
    (heldBy (foundLease ledger session stream) session = .ok true ∧ stream ≠ "" ∧
      ∃ lease, ("stream:" ++ stream, lease) ∈ firstPage ledger (OwnedBy session)) ∨
    (heldBy (foundLease ledger session stream) session = .ok false ∧
      (stream = "" ∨ ∀ lease,
          ("stream:" ++ stream, lease) ∉ firstPage ledger (OwnedBy session))) := by
  rw [foundLease]
  by_cases unnamed : stream = ""
  · rw [if_pos unnamed]
    exact .inr ⟨rfl, .inl unnamed⟩
  · rw [if_neg unnamed]
    rcases firstPage_find ledger (OwnedBy session) ("stream:" ++ stream) with
      ⟨lease, inside, found⟩ | ⟨outside, missing⟩
    · have owned : OwnedBy session lease := shown_of_firstPage inside
      rw [found]
      exact .inl ⟨heldBy_owner owned, unnamed, lease, inside⟩
    · rw [missing]
      exact .inr ⟨rfl, .inr outside⟩

/-- The end of a touch: the transaction, and another claim for a lease that is held. -/
def touchEnd (library : Library) (env : Env) (args metadata lease : Json)
    (session stream : String) : Program Json := do
  let touched ← run library env "session_touch" args
  if ← heldBy lease session then
    let ttl ← metadata.valueWith Json.getInt "ttl" 21600
    let _ ← run library env "lease_claim" (reclaimArguments ("stream:" ++ stream) session ttl)
  return touched

/-- A touch of a session that is there reads its metadata, looks for the lease of its stream and
ends. -/
theorem sessionTouch_eq (valid : world.ledger.Valid library)
    (read : args.at "session_id" = .ok (.str session)) {stream : String}
    (present : (sessionRow world.ledger session).isNull = false)
    (named : streamName library (sessionRow world.ledger session) = .ok stream) :
    ∃ metadata, ttlOf library (sessionRow world.ledger session) =
        metadata.valueWith Json.getInt "ttl" 21600 ∧
      sessionTouch library env args world =
        touchEnd library env args metadata (foundLease world.ledger session stream) session stream
          { world with readings := touchReading world stream } := by
  have there : ¬(sessionRow world.ledger session).isNull = true := by simp [present]
  have got := @run_sessionGet library env world (.str session)
  have text : (Json.str session).getString = .ok session := rfl
  rw [streamName, if_neg there] at named
  obtain ⟨metadata, known, named⟩ := bind_ok named
  obtain ⟨stored, found, parses⟩ := bind_ok known
  refine ⟨metadata, by rw [ttlOf, known]; rfl, ?_⟩
  rw [sessionTouch, Throwing.bind_lift read, Throwing.bind_lift text, Throwing.bind_of_ok got,
    if_neg there]
  dsimp only
  rw [Throwing.bind_lift found, Throwing.bind_lift parses, Throwing.bind_lift named, foundLease,
    touchReading]
  by_cases unnamed : stream = ""
  · rw [if_pos unnamed, if_pos unnamed, if_pos unnamed, Throwing.pure_then]
    rfl
  · have looked := @ownedLease_eq library env { world with readings := world.readings + 1 } valid
      ("stream:" ++ stream) session
    rw [if_neg unnamed, if_neg unnamed, if_neg unnamed, Throwing.bind_of_ok looked]
    rfl

/-- The gateway touches a session and then may claim the lease of its stream. -/
theorem sessionTouch_ledger (valid : world.ledger.Valid library)
    (read : args.at "session_id" = .ok (.str session)) {stream : String}
    (named : streamName library (sessionRow world.ledger session) = .ok stream) :
    ((sessionTouch library env args world).2.ledger = touched library env world args stream ∧
      (stream = "" ∨
        (∀ lease, ("stream:" ++ stream, lease) ∉ firstPage world.ledger (OwnedBy session)) ∨
        (∀ ttl, ttlOf library (sessionRow world.ledger session) ≠ .ok ttl) ∨
        ∀ value, (Ledger.run library world.ledger "session_touch" args
          (env.clock (touchReading world stream))
          (env.persist (touchReading world stream))).result ≠ .ok value)) ∨
    ∃ lease ttl value, stream ≠ "" ∧
      ("stream:" ++ stream, lease) ∈ firstPage world.ledger (OwnedBy session) ∧
      ttlOf library (sessionRow world.ledger session) = .ok ttl ∧
      (Ledger.run library world.ledger "session_touch" args (env.clock (touchReading world stream))
        (env.persist (touchReading world stream))).result = .ok value ∧
      (sessionTouch library env args world).2.ledger =
        (Ledger.run library (touched library env world args stream) "lease_claim"
          (reclaimArguments ("stream:" ++ stream) session ttl)
          (env.clock (touchReading world stream + 1))
          (env.persist (touchReading world stream + 1))).ledger := by
  by_cases null : (sessionRow world.ledger session).isNull = true
  · -- A session that is not there has no stream.
    have got := @run_sessionGet library env world (.str session)
    have text : (Json.str session).getString = .ok session := rfl
    rw [streamName, if_pos null] at named
    obtain rfl := Except.ok.inj named
    rw [sessionTouch, Throwing.bind_lift read, Throwing.bind_lift text, Throwing.bind_of_ok got,
      if_pos null]
    exact .inl ⟨rfl, .inl rfl⟩
  · obtain ⟨metadata, noted, same⟩ := @sessionTouch_eq library env world args session valid read
      stream (Bool.eq_false_iff.mpr null) named
    rw [same, touchEnd]
    cases result : (Ledger.run library world.ledger "session_touch" args
        (env.clock (touchReading world stream))
          (env.persist (touchReading world stream))).result with
    | error thrown =>
      have ran : run library env "session_touch" args
          { world with readings := touchReading world stream } = (.error thrown, _) :=
        Prod.ext result rfl
      rw [Throwing.bind_of_error ran]
      exact .inl ⟨rfl, .inr (.inr (.inr (by simp)))⟩
    | ok value =>
      have ran : run library env "session_touch" args
          { world with readings := touchReading world stream } = (.ok value, _) :=
        Prod.ext result rfl
      rw [Throwing.bind_of_ok ran]
      rcases foundLease_cases world.ledger session stream with
        ⟨held, some_, lease, inside⟩ | ⟨free, outside⟩
      · rw [Throwing.bind_lift held, if_pos rfl]
        cases lasting : metadata.valueWith Json.getInt "ttl" 21600 with
        | error thrown =>
          rw [Throwing.bind_lift_error rfl]
          refine .inl ⟨rfl, .inr (.inr (.inl fun ttl => ?_))⟩
          rw [noted, lasting]
          simp
        | ok ttl =>
          refine .inr ⟨lease, ttl, value, some_, inside, noted.trans lasting, rfl, ?_⟩
          rw [Throwing.bind_lift rfl, Throwing.bind_pure_eq]
          rfl
      · rw [Throwing.bind_lift free]
        refine .inl ⟨rfl, ?_⟩
        exact outside.imp_right .inl

/-- A touch of a session that is there returns exactly when it is accepted. -/
theorem touch_returns {ledger : TaskLedger} (valid : ledger.Valid library) {ts : Rat}
    {persist : Batch → Option Thrown} (read : args.at "session_id" = .ok (.str session))
    (present : (sessionRow ledger session).isNull = false) :
    (∃ value, (Ledger.run library ledger "session_touch" args ts persist).result = .ok value) ↔
      Accepted library ledger "session_touch" args ts persist := by
  apply valid.returns_iff
  show Ledger.Writing (Ledger.touchSession library ledger false args ts)
  refine .bind fun stated _ => .bind fun id named => .bind fun own row => ?_
  refine .bind fun leases _ => .bind fun changes _ => .commit ?_ _
  rw [Ledger.idarg, read] at named
  obtain rfl : session = id := Except.ok.inj named
  cases Ledger.touchRow_cases row with
  | inl gone =>
    have null := gone.1
    rw [sessionRow] at present
    rw [null] at present
    contradiction
  | inr there =>
    obtain ⟨_, staged, _, rfl, _⟩ := there
    exact List.cons_ne_nil staged changes

/-- A session with a stream is there. -/
theorem present_of_stream {row : Json} {stream : String}
    (named : streamName library row = .ok stream)
    (some_ : stream ≠ "") : row.isNull = false := by
  cases null : row.isNull with
  | false => rfl
  | true =>
    rw [streamName, if_pos null] at named
    exact absurd (Except.ok.inj named).symm some_

/-- A touch that ends before it reaches the ledger throws and changes nothing. -/
theorem sessionTouch_unnamed (read : args.at "session_id" = .ok (.str session)) {thrown : Thrown}
    (unnamed : streamName library (sessionRow world.ledger session) = .error thrown) :
    sessionTouch library env args world =
      (.error thrown, { world with readings := world.readings + 1 }) := by
  have got := @run_sessionGet library env world (.str session)
  have text : (Json.str session).getString = .ok session := rfl
  rw [sessionTouch, Throwing.bind_lift read, Throwing.bind_lift text, Throwing.bind_of_ok got]
  cases null : (sessionRow world.ledger session).isNull with
  | true =>
    rw [streamName, if_pos null] at unnamed
    contradiction
  | false =>
    rw [streamName, null, metadataOf] at unnamed
    dsimp only
    rw [if_neg Bool.false_ne_true]
    cases found : (sessionRow world.ledger session).valueString "metadata_json" "\x7b\x7d" with
    | error other =>
      rw [found] at unnamed
      obtain rfl : other = thrown := Except.error.inj unnamed
      rw [Throwing.bind_lift_error rfl]
    | ok text =>
      rw [Throwing.bind_lift rfl]
      cases parses : parsed library text with
      | error other =>
        rw [found] at unnamed
        obtain rfl : other = thrown := by simpa [bind, Except.bind, parses] using unnamed
        rw [Throwing.bind_lift_error rfl]
      | ok metadata =>
        rw [Throwing.bind_lift rfl]
        cases named : metadata.valueString "stream" "" with
        | error other =>
          rw [found] at unnamed
          obtain rfl : other = thrown := by simpa [bind, Except.bind, parses, named] using unnamed
          rw [Throwing.bind_lift_error rfl]
        | ok stream =>
          rw [found] at unnamed
          simp [bind, Except.bind, parses, named] at unnamed

section Touched

variable {stream : String} (valid : world.ledger.Valid library)
  (read : args.at "session_id" = .ok (.str session))
  (accepted : Accepted library world.ledger "session_touch" args
    (env.clock (touchReading world stream)) (env.persist (touchReading world stream)))

include valid read accepted

/-- The leases after an accepted touch. -/
theorem touched_stored {thread : String} {lease : Json}
    (stored : world.ledger.Stored .threadLeases thread lease) (owned : OwnedBy session lease) :
    ∃ next, (touched library env world args stream).Stored .threadLeases thread next ∧
      endsAt next = env.clock (touchReading world stream) + 900 ∧ OwnedBy session next := by
  obtain ⟨changes, value, after, published, ran, _⟩ := valid.run_accepted accepted
  obtain ⟨next, there, last, own⟩ :=
    touched_end (touched_leases valid read published thread) stored owned
  refine ⟨next, ?_, last, own⟩
  rw [touched, ran]
  exact there

/-- Without another claim the leases last until 900 seconds after the touch. -/
theorem lasts_touched (left : ∀ thread lease ttl,
      ¬Reclaimed library env world args session stream thread lease ttl) :
    Lasts world.ledger (touched library env world args stream) session ↔ ∀ thread lease,
      world.ledger.Stored .threadLeases thread lease → OwnedBy session lease →
        ∀ last, EndsThen library env world args session stream thread lease last →
          endsAt lease ≤ last := by
  apply lasts_iff
  intro thread lease stored owned
  obtain ⟨next, there, last, _⟩ := touched_stored valid read accepted stored owned
  refine ⟨next, there, last ▸ .touched (left thread lease), fun value ends => ?_⟩
  cases ends with
  | touched _ => exact last.symm
  | claimed ttl again => exact absurd again (left thread lease ttl)

/-- With another claim the lease of the stream lasts as long as it is claimed for, and the others
until 900 seconds after the touch. -/
theorem lasts_claimed {known : Json} {ttl : Int}
    (again : Reclaimed library env world args session stream ("stream:" ++ stream) known ttl) :
    Lasts world.ledger (Ledger.run library (touched library env world args stream) "lease_claim"
        (reclaimArguments ("stream:" ++ stream) session ttl)
        (env.clock (touchReading world stream + 1))
        (env.persist (touchReading world stream + 1))).ledger session ↔ ∀ thread lease,
      world.ledger.Stored .threadLeases thread lease → OwnedBy session lease →
        ∀ last, EndsThen library env world args session stream thread lease last →
          endsAt lease ≤ last := by
  have kept : (touched library env world args stream).Valid library := by
    obtain ⟨changes, value, after, published, ran, _⟩ := valid.run_accepted accepted
    rw [touched, ran]
    exact published.valid
  obtain ⟨changes, value, after, published, ran, _⟩ := kept.run_accepted again.accepted
  obtain ⟨thread, owner, lease, row, stored, bound, readThread, readSession, claimed, similar, _,
    leases, _⟩ := published.claimed published.planned
  have field : ∀ key, (reclaimArguments ("stream:" ++ stream) session ttl).find key =
      Assoc.lookup key [("ttl", .int ttl), ("session_id", .str session),
        ("thread_id", .str ("stream:" ++ stream))] := Json.find_object _
  have named : thread = "stream:" ++ stream := by
    simpa [Ledger.idarg, Json.at_of_find (field "thread_id"), bind, Except.bind, Json.getString]
      using readThread.symm
  have last : endsAt stored = env.clock (touchReading world stream + 1) + (max 30 ttl : Int) := by
    obtain ⟨lasting, asked, found⟩ := claimed.expires
    rw [Json.valueWith_of_find (field "ttl")] at asked
    obtain ⟨low, high⟩ := ttlOf_range again.noted
    rw [Json.getInt_int low high] at asked
    obtain rfl := Except.ok.inj asked
    exact endsAt_of_find ((similar "expires_at" (by decide) (by decide)).trans found)
  rw [ran]
  apply lasts_iff
  intro other own there owned
  have rows := leases other
  by_cases same : other = thread
  · rw [if_pos same] at rows
    have first : own = known := by
      have page := stored_of_firstPage valid again.found
      rw [same, named] at there
      exact Option.some.inj (there.symm.trans page)
    have reclaimed : Reclaimed library env world args session stream other own ttl := by
      rw [same, named, first]
      exact again
    refine ⟨stored, rows, last ▸ .claimed ttl reclaimed, fun value ends => ?_⟩
    cases ends with
    | touched left => exact absurd reclaimed (left ttl)
    | claimed noted twice =>
      obtain rfl := Except.ok.inj (twice.noted.symm.trans again.noted)
      exact last.symm
  · rw [if_neg same] at rows
    have left : ∀ ttl, ¬Reclaimed library env world args session stream other own ttl :=
      fun _ twice => same (twice.same.trans named.symm)
    obtain ⟨next, after_touch, ends_touch, _⟩ := touched_stored valid read accepted there owned
    refine ⟨next, rows.trans after_touch, ends_touch ▸ .touched left, fun value ends => ?_⟩
    cases ends with
    | touched _ => exact ends_touch.symm
    | claimed noted twice => exact absurd twice (left noted)

end Touched

/-- A touch through the gateway lets the leases of a session last exactly when it ends before it is
accepted, or none of them ends later than it then does. -/
theorem sessionTouch_lasts (valid : world.ledger.Valid library)
    (read : args.at "session_id" = .ok (.str session)) :
    Lasts world.ledger (sessionTouch library env args world).2.ledger session ↔
      ∀ stream, streamName library (sessionRow world.ledger session) = .ok stream →
        Accepted library world.ledger "session_touch" args (env.clock (touchReading world stream))
          (env.persist (touchReading world stream)) →
        ∀ thread lease, world.ledger.Stored .threadLeases thread lease → OwnedBy session lease →
          ∀ last, EndsThen library env world args session stream thread lease last →
            endsAt lease ≤ last := by
  cases named : streamName library (sessionRow world.ledger session) with
  | error thrown =>
    rw [sessionTouch_unnamed read named]
    refine ⟨fun _ stream same => ?_, fun _ => lasts_refl world.ledger session⟩
    contradiction
  | ok stream =>
    have only : ∀ statement : String → Prop,
        (∀ other, (Except.ok stream : Except Thrown String) = .ok other → statement other) ↔
          statement stream := by
      intro statement
      constructor
      · exact fun all => all stream rfl
      · intro own other same
        exact Except.ok.inj same ▸ own
    rw [only]
    have ends := @sessionTouch_ledger library env world args session valid read stream named
    by_cases accepted : Accepted library world.ledger "session_touch" args
      (env.clock (touchReading world stream)) (env.persist (touchReading world stream))
    · rw [forall_prop_of_true accepted]
      cases ends with
      | inl unclaimed =>
        obtain ⟨ledger, reason⟩ := unclaimed
        rw [ledger]
        refine lasts_touched valid read accepted fun thread lease ttl again => ?_
        obtain none_ | off | unnoted | failed := reason
        · exact again.named none_
        · exact off lease (again.same ▸ again.found)
        · exact unnoted ttl again.noted
        · obtain ⟨_, value, _, _, ran, _⟩ := valid.run_accepted accepted
          exact failed value (by rw [ran])
      | inr claims =>
        obtain ⟨known, ttl, value, some_, inside, noted, _, ledger⟩ := claims
        rw [ledger]
        by_cases taken : Accepted library (touched library env world args stream) "lease_claim"
          (reclaimArguments ("stream:" ++ stream) session ttl)
          (env.clock (touchReading world stream + 1)) (env.persist (touchReading world stream + 1))
        · exact lasts_claimed valid read accepted ⟨some_, rfl, inside, noted, taken⟩
        · rw [(Ledger.run_refused taken).1]
          refine lasts_touched valid read accepted fun thread lease other again => taken ?_
          obtain rfl := Except.ok.inj (again.noted.symm.trans noted)
          obtain rfl := again.same
          exact again.accepted
    · have same : touched library env world args stream = world.ledger :=
        (Ledger.run_refused accepted).1
      have unchanged : (sessionTouch library env args world).2.ledger = world.ledger := by
        cases ends with
        | inl unclaimed => exact unclaimed.1.trans same
        | inr claims =>
          obtain ⟨_, _, value, some_, _, _, returned, _⟩ := claims
          have present := present_of_stream named some_
          exact absurd ((touch_returns valid read present).mp ⟨value, returned⟩) accepted
      rw [unchanged]
      exact ⟨fun _ taken => absurd taken accepted, fun _ => lasts_refl world.ledger session⟩

/-- The end of a touch returns when the transaction does and, for a lease that is held, another
claim. -/
theorem touchEnd_returns (library : Library) (env : Env) (args metadata : Json) (w : World)
    {lease : Json} {held : Bool} (stream : String) (holds : heldBy lease session = .ok held) :
    (∃ value, (touchEnd library env args metadata lease session stream w).1 = .ok value) ↔
    (∃ value, (run library env "session_touch" args w).1 = .ok value) ∧
      (held = true → ∃ ttl, metadata.valueWith Json.getInt "ttl" 21600 = .ok ttl ∧
        ∃ value, (run library env "lease_claim" (reclaimArguments ("stream:" ++ stream) session ttl)
          (run library env "session_touch" args w).2).1 = .ok value) := by
  rw [← Throwing.Yields.returns_iff, touchEnd]
  cases held with
  | false => simp [Throwing.Yields.bind_iff, holds, Throwing.Yields.pure_iff]
  | true => simp [Throwing.Yields.bind_iff, holds, Throwing.Yields.pure_iff]

/-- A lease that the session owns can be claimed again. -/
theorem reclaim_returns {ledger : TaskLedger} (valid : ledger.Valid library) {thread : String}
    {lease : Json} (stored : ledger.Stored .threadLeases thread lease)
    (owned : OwnedBy session lease) (ttl : Int) (ts : Rat) (persist : Batch → Option Thrown) :
    (∃ value, (Ledger.run library ledger "lease_claim" (reclaimArguments thread session ttl) ts
        persist).result = .ok value) ↔
      Accepted library ledger "lease_claim" (reclaimArguments thread session ttl) ts persist := by
  apply valid.returns_iff
  intro value
  constructor
  · intro planned
    obtain ⟨named, claimant, readThread, readSession, lives, _⟩ := Ledger.leaseClaim_answer planned
    have field : ∀ key, (reclaimArguments thread session ttl).find key =
        Assoc.lookup key [("ttl", .int ttl), ("session_id", .str session),
          ("thread_id", .str thread)] := Json.find_object _
    obtain rfl : thread = named := by
      simpa [Ledger.idarg, Json.at_of_find (field "thread_id"), bind, Except.bind, Json.getString]
        using readThread
    obtain rfl : session = claimant := by
      simpa [Ledger.idarg, Json.at_of_find (field "session_id"), bind, Except.bind, Json.getString]
        using readSession
    rw [Ledger.get_of_stored stored, Ledger.liveOwner_own owned] at lives
    contradiction
  · exact fun planned => (Ledger.leaseClaim_value planned).1 rfl

/-- A touch through the gateway reads the metadata of its session, is accepted, and claims the lease
of the stream again when it finds it. -/
def TouchReturns (library : Library) (env : Env) (world : World) (args : Json) (session : String) :
    Prop :=
  ∃ stream, streamName library (sessionRow world.ledger session) = .ok stream ∧
    Accepted library world.ledger "session_touch" args (env.clock (touchReading world stream))
      (env.persist (touchReading world stream)) ∧
    (stream ≠ "" → ∀ lease,
      ("stream:" ++ stream, lease) ∈ firstPage world.ledger (OwnedBy session) →
        ∃ ttl, Reclaimed library env world args session stream ("stream:" ++ stream) lease ttl)

/-- Then it returns. -/
theorem sessionTouch_returns (valid : world.ledger.Valid library)
    (read : args.at "session_id" = .ok (.str session))
    (present : (sessionRow world.ledger session).isNull = false) :
    (∃ value, (sessionTouch library env args world).1 = .ok value) ↔
      TouchReturns library env world args session := by
  cases named : streamName library (sessionRow world.ledger session) with
  | error thrown =>
    rw [sessionTouch_unnamed read named]
    constructor
    · rintro ⟨value, returned⟩
      contradiction
    · rintro ⟨stream, again, _⟩
      rw [named] at again
      contradiction
  | ok stream =>
    have only : TouchReturns library env world args session ↔
        Accepted library world.ledger "session_touch" args (env.clock (touchReading world stream))
          (env.persist (touchReading world stream)) ∧
        (stream ≠ "" → ∀ lease,
          ("stream:" ++ stream, lease) ∈ firstPage world.ledger (OwnedBy session) →
            ∃ ttl, Reclaimed library env world args session stream ("stream:" ++ stream) lease
              ttl) := by
      constructor
      · rintro ⟨other, again, ends⟩
        obtain rfl := Except.ok.inj (named.symm.trans again)
        exact ends
      · exact fun ends => ⟨stream, named, ends⟩
    obtain ⟨metadata, noted, same⟩ :=
      @sessionTouch_eq library env world args session valid read stream present named
    rw [same, only, ← touch_returns valid read present]
    rcases foundLease_cases world.ledger session stream with
      ⟨held, some_, lease, inside⟩ | ⟨free, outside⟩
    · have ends := touchEnd_returns library env args metadata
        { world with readings := touchReading world stream } stream held
      refine ends.trans (and_congr_right fun returns => ?_)
      have accepted := (touch_returns valid read present).mp returns
      have kept : (touched library env world args stream).Valid library := valid_run valid _ _ _ _
      obtain ⟨next, stored, _, own⟩ := touched_stored valid read accepted
        (stored_of_firstPage valid inside) (shown_of_firstPage inside)
      have again (ttl : Int) := @reclaim_returns library session _ kept _ next stored own ttl
        (env.clock (touchReading world stream + 1)) (env.persist (touchReading world stream + 1))
      constructor
      · intro claims _ other member
        obtain ⟨ttl, lasting, claimed⟩ := claims rfl
        exact ⟨ttl, some_, rfl, member, noted.trans lasting, (again ttl).mp claimed⟩
      · intro claims _
        obtain ⟨ttl, reclaimed⟩ := claims some_ lease inside
        exact ⟨ttl, noted.symm.trans reclaimed.noted, (again ttl).mpr reclaimed.accepted⟩
    · have ends := touchEnd_returns library env args metadata
        { world with readings := touchReading world stream } stream free
      refine ends.trans (and_congr Iff.rfl ?_)
      simp only [Bool.false_eq_true, false_imp_iff, true_iff]
      intro some_ lease inside
      rcases outside with none_ | off
      · exact absurd none_ some_
      · exact absurd inside (off lease)

/-! ## Heartbeats -/

/-- A heartbeat shortens no lease of its session exactly when the leases end in time. In the ledger
they end by 900 seconds after an accepted touch. Through the gateway so do all but the lease that is
claimed again, and that one ends by the end of its new claim. -/
theorem heartbeat_lasts (reached : (Ledger.machine library).Reaches (Ledger.Recorded library)
      world.ledger) (object : args.isObject)
    (read : args.at "session_id" = .ok (.str session)) :
    (∀ ts persist,
      Lasts world.ledger (Ledger.run library world.ledger "session_touch" args ts persist).ledger
          session ↔
        (Accepted library world.ledger "session_touch" args ts persist → ∀ thread lease,
          world.ledger.Stored .threadLeases thread lease → OwnedBy session lease →
            endsAt lease ≤ ts + 900)) ∧
    (Lasts world.ledger (toolLedgerOp library env ⟨"session_touch", args⟩ world).2.ledger session ↔
      ∀ stream, streamName library (sessionRow world.ledger session) = .ok stream →
        Accepted library world.ledger "session_touch" args (env.clock (touchReading world stream))
          (env.persist (touchReading world stream)) →
        ∀ thread lease, world.ledger.Stored .threadLeases thread lease → OwnedBy session lease →
          ∀ last, EndsThen library env world args session stream thread lease last →
            endsAt lease ≤ last) := by
  have valid := Ledger.valid_recorded reached
  refine ⟨fun ts persist => run_touch_lasts valid read ts persist, ?_⟩
  have same : toolLedgerOp library env ⟨"session_touch", args⟩ world =
      sessionTouch library env args world := by
    simp [toolLedgerOp, object]
  rw [same]
  exact sessionTouch_lasts valid read

/-- A touch in a ledger with one lease. -/
theorem heartbeat_lasts_leased :
    Lasts leased (Ledger.run emptyLibrary leased "session_touch"
        (sessionArguments "s-1") 5 fun _ => none).ledger "s-1" ↔
      (Accepted emptyLibrary leased "session_touch" (sessionArguments "s-1") 5
        (fun _ => none) → ∀ thread lease, Ledger.leased.Stored .threadLeases thread lease →
          OwnedBy "s-1" lease → endsAt lease ≤ 5 + 900) := by
  have lasts := @heartbeat_lasts emptyLibrary stillEnv ⟨leased, [], [], 0⟩
    (sessionArguments "s-1") "s-1" Ledger.leased_recorded (by decide)
    (by decide)
  exact lasts.1 5 fun _ => none

/-- A ledger whose first session has a lease for a week. -/
def weekLeased : TaskLedger :=
  Ledger.performed Ledger.twoSessions "lease_claim" (reclaimArguments "t-1" "s-1" 604800) 4

/-- A touch cuts the lease to 900 seconds, in the ledger and through the gateway. -/
theorem heartbeat_shortens :
    (Ledger.machine emptyLibrary).Reaches Ledger.RunsWithoutImport weekLeased ∧
    ¬Lasts weekLeased (Ledger.run emptyLibrary weekLeased "session_touch"
      (sessionArguments "s-1") 5 fun _ => none).ledger "s-1" ∧
    ¬Lasts weekLeased (toolLedgerOp emptyLibrary stillEnv
      ⟨"session_touch", sessionArguments "s-1"⟩ ⟨weekLeased, [], [], 0⟩).2.ledger "s-1" := by
  have before : (weekLeased.row .threadLeases "t-1").any
      (fun lease => decide (OwnedBy "s-1" lease ∧ 1000 < endsAt lease)) = true := by decide +kernel
  have shortens : ∀ after : TaskLedger, (after.row .threadLeases "t-1").all
      (fun next => decide (endsAt next < 1000)) = true → ¬Lasts weekLeased after "s-1" := by
    intro after cut lasts
    obtain ⟨lease, stored, long⟩ := (Option.any_eq_true _ _).mp before
    obtain ⟨owned, late⟩ := of_decide_eq_true long
    obtain ⟨next, there, later⟩ := lasts "t-1" lease stored owned
    have early : endsAt next < 1000 := by
      rw [Ledger.TaskLedger.row, there] at cut
      exact of_decide_eq_true cut
    exact absurd (lt_of_lt_of_le late later) (not_lt.mpr (le_of_lt early))
  refine ⟨?_, shortens _ (by decide +kernel), shortens _ (by decide +kernel)⟩
  exact Ledger.reaches_performed Ledger.twoSessions_reached
    (show "lease_claim" ≠ "import" by decide)

end Chitta.Gateway
