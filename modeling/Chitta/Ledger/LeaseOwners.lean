import Chitta.Ledger.Leases

/-!
# Who takes a lease

A lease passes to another session only by a claim of that session when the lease has expired or is
forced, and it is removed only by its owner. Its generation grows with every change of the owner
for as long as the lease is there; a removed lease takes its generation along.
-/
namespace Chitta.Ledger

/-- The end of a lease is not after this time. -/
def Expired (lease : Json) (ts : Rat) : Prop :=
  ∃ value expires, lease.find "expires_at" = some value ∧ value.getDouble = .ok expires ∧
    expires ≤ ts

/-- A claim is forced. -/
def Forced (a : Json) : Prop := a.valueWith Json.getBool "force" false = .ok true

/-- What an operation may make of the lease of a thread. -/
structure Protected (op : String) (a : Json) (ts : Rat) (thread session : String) (lease : Json)
    (after : Option Json) : Prop where
  /-- Only its owner removes it. -/
  gone : after = none →
    (op = "lease_release" ∨ op = "session_close") ∧ idarg a "session_id" = .ok session
  /-- It passes by a claim of a lease that has expired or is forced. -/
  passed : ∀ row other, after = some row → OwnedBy other row → other ≠ session →
    op = "lease_claim" ∧ idarg a "thread_id" = .ok thread ∧ idarg a "session_id" = .ok other ∧
      (Expired lease ts ∨ Forced a)
  /-- Operations of other sessions leave a live lease as it is, but for a forced claim. -/
  foreign : idarg a "session_id" ≠ .ok session → ¬Expired lease ts →
    (op = "lease_claim" → ¬Forced a) → after = some lease

variable {library : Library} {ledger after : TaskLedger} {op : String} {a : Json} {ts : Rat}
variable {thread session : String} {lease : Json}

/-- A lease has one owner. -/
theorem OwnedBy.unique {other : String} (owned : OwnedBy session lease)
    (again : OwnedBy other lease) : other = session :=
  Json.str.inj (Option.some.inj (again.symm.trans owned))

/-- Nothing happens to a lease. -/
theorem Protected.same (owned : OwnedBy session lease) :
    Protected op a ts thread session lease (some lease) where
  gone none_left := by contradiction
  passed row other found own differs := by
    obtain rfl := Option.some.inj found
    exact absurd (owned.unique own) differs
  foreign _ _ _ := rfl

/-- A claim that another session does not stop comes when its lease has expired or is forced. -/
theorem liveOwner_false {claimant : String} (present : lease.isNull = false)
    (owned : OwnedBy session lease) (differs : claimant ≠ session)
    (free : liveOwner lease claimant a ts = .ok false) : Expired lease ts ∨ Forced a := by
  unfold liveOwner at free
  rw [present] at free
  obtain ⟨owner, read, free⟩ := bind_ok free
  have own : owner = .str session := by
    cases lease with
    | obj fields =>
      have found : Assoc.lookup "session_id" fields = some (.str session) := owned
      simpa [Json.field, found, eq_comm] using read
    | _ => contradiction
  subst own
  have other : Json.same (.str session) (.str claimant) = false := by
    simpa [Json.same] using Ne.symm differs
  rw [other] at free
  obtain ⟨value, ends, free⟩ := bind_ok free
  obtain ⟨expires, number, free⟩ := bind_ok free
  have there : value.isNull = false := by
    cases value with
    | null => contradiction
    | _ => rfl
  split at free
  · rename_i past
    exact .inl ⟨value, expires, field_find ends there, number, past⟩
  · obtain ⟨force, given_force, free⟩ := bind_ok free
    have forced : force = true := by simpa [pure, Except.pure] using free
    subst forced
    exact .inr given_force

/-- What a run makes of the lease of a thread. -/
theorem LeaseStep.protects {last : Option Json} (step : LeaseStep op a ts thread lease last)
    (present : lease.isNull = false) (owned : OwnedBy session lease) :
    Protected op a ts thread session lease last := by
  cases step with
  | kept => exact .same owned
  | removed owner named read own =>
    obtain rfl := owned.unique own
    exact ⟨fun _ => ⟨named, read⟩, by simp, fun apart => absurd read apart⟩
  | extended owner row read own fields =>
    obtain rfl := owned.unique own
    refine ⟨by simp, fun stored other found by_other differs => ?_,
      fun apart => absurd read apart⟩
    obtain rfl := Option.some.inj found
    have same : OwnedBy other lease := by
      rw [OwnedBy, ← by_other, fields "session_id" (by decide) (by decide)]
      simp
    exact absurd (owned.unique same) differs
  | claimed claimant row named readThread readSession free own generation =>
    refine ⟨by simp, fun stored other found by_other differs => ?_,
      fun apart alive unforced => ?_⟩
    · obtain rfl := Option.some.inj found
      obtain rfl := own.unique by_other
      exact ⟨named, readThread, readSession, liveOwner_false present owned differs free⟩
    · have differs : claimant ≠ session := fun same => apart (same ▸ readSession)
      cases liveOwner_false present owned differs free with
      | inl expired => exact absurd expired alive
      | inr forced => exact absurd forced (unforced named)

/-- The runs of other sessions while a lease lives, without a forced claim. -/
def Foreign (session : String) (lease : Json) (_ : TaskLedger) (action : Action) : Prop :=
  match action with
  | .run op a ts _ =>
    op ≠ "import" ∧ idarg a "session_id" ≠ .ok session ∧ ¬Expired lease ts ∧
      (op = "lease_claim" → ¬Forced a)
  | .replay _ => False

/-- They import nothing. -/
theorem Foreign.withoutImport {action : Action} (foreign : Foreign session lease ledger action) :
    RunsWithoutImport ledger action := by
  cases action with
  | run => exact foreign.1
  | replay => exact foreign

/-- A lease passes to another session only by a claim of it that comes when it has expired or is
forced, disappears only when its owner releases it or closes, and stays as it is through any
number of operations of other sessions while it lives. -/
theorem lease_exclusion (reached : (machine library).Reaches RunsWithoutImport ledger)
    (stored : ledger.Stored .threadLeases thread lease) (owned : OwnedBy session lease) :
    (∀ op a ts persist, op ≠ "import" → Protected op a ts thread session lease
      ((run library ledger op a ts persist).ledger.row .threadLeases thread)) ∧
    ∀ later, (machine library).Leads (Foreign session lease) ledger later →
      later.Stored .threadLeases thread lease := by
  constructor
  · intro op a ts persist own
    have valid := valid_of_reaches reached
    have present := (valid.checked .threadLeases thread lease stored).1
    exact (valid.leaseStep stored op a ts persist).protects present owned
  · intro later led
    induction led with
    | refl => exact stored
    | step action led foreign taken ih =>
      cases action with
      | run op a ts persist =>
        obtain ⟨_, apart, alive, unforced⟩ := foreign
        obtain rfl := Option.some.inj taken
        have before := reached.leads (fun _ _ => Foreign.withoutImport) led
        have valid := valid_of_reaches before
        have present := (valid.checked .threadLeases thread lease ih).1
        have kept := (valid.leaseStep ih op a ts persist).protects present owned
        exact kept.foreign apart alive unforced
      | replay batch => contradiction

/-- A forced claim of another session is the only way for it to take a live lease. -/
theorem lease_exclusion_leased : ∃ lease, leased.Stored .threadLeases "t-1" lease ∧
    OwnedBy "s-1" lease ∧ Protected "lease_claim" (claimArguments "s-2") 5 "t-1" "s-1" lease
      ((run emptyLibrary leased "lease_claim" (claimArguments "s-2") 5
        (fun _ => none)).ledger.row .threadLeases "t-1") := by
  obtain ⟨lease, stored, owned⟩ := leased_owned
  refine ⟨lease, stored, owned, ?_⟩
  exact (lease_exclusion leased_reached stored owned).1 "lease_claim" (claimArguments "s-2") 5 _
    (by decide)

/-! ## Generations -/

/-- An action grants the lease of a thread to a session, with a generation. -/
def Grants (library : Library) (ledger : TaskLedger) (action : Action) (thread session : String)
    (generation : Int) : Prop :=
  match action with
  | .run op a ts persist =>
    op = "lease_claim" ∧ idarg a "thread_id" = .ok thread ∧ idarg a "session_id" = .ok session ∧
      ∃ value, (run library ledger op a ts persist).result = .ok value ∧
        value.find "claimed" = some (.bool true) ∧ value.find "generation" = some (.int generation)
  | .replay _ => False

/-- Whether a computation returned a value with a property. -/
instance {α : Type} (result : Except Thrown α) (property : α → Prop) [DecidablePred property] :
    Decidable (∃ value, result = .ok value ∧ property value) :=
  match result with
  | .ok value => decidable_of_iff (property value) (by simp)
  | .error _ => isFalse (by simp)

instance (library : Library) (ledger : TaskLedger) (action : Action) (thread session : String)
    (generation : Int) : Decidable (Grants library ledger action thread session generation) :=
  match action with
  | .run _ _ _ _ => inferInstanceAs (Decidable (_ ∧ _ ∧ _ ∧ _))
  | .replay _ => inferInstanceAs (Decidable False)

/-- The generation of a lease is the largest `int`. -/
def Exhausted (lease : Json) : Prop :=
  ∃ value, lease.find "generation" = some value ∧ value.getInt = .ok 2147483647

/-- The runs that do not remove the lease of a thread, while its generation can grow. -/
def KeepsLease (library : Library) (thread : String) (ledger : TaskLedger) (action : Action) :
    Prop :=
  Runs ledger action ∧ (∀ lease, ledger.Stored .threadLeases thread lease → ¬Exhausted lease) ∧
    ∀ next, (machine library).step ledger action = some next → next.Has .threadLeases thread

/-- A claim that stages nothing is refused. -/
theorem leaseClaim_refused {value : Json}
    (answered : leaseClaim library ledger a ts = .ok (.answer value)) :
    value.find "claimed" = some (.bool false) := by
  unfold leaseClaim at answered
  obtain ⟨thread, _, answered⟩ := bind_ok answered
  obtain ⟨session, _, answered⟩ := bind_ok answered
  obtain ⟨_, _, answered⟩ := bind_ok answered
  obtain ⟨_, _, answered⟩ := bind_ok answered
  obtain ⟨live, _, answered⟩ := bind_ok answered
  split at answered
  · obtain ⟨owner, _, answered⟩ := bind_ok answered
    obtain ⟨expires, _, answered⟩ := bind_ok answered
    obtain ⟨generation, _, answered⟩ := bind_ok answered
    obtain rfl := Planned.answer.inj (Except.ok.inj answered)
    simp [Json.find_object, Assoc.lookup]
  · obtain ⟨same, _, answered⟩ := bind_ok answered
    obtain ⟨generation, _, answered⟩ := bind_ok answered
    obtain ⟨ttl, _, answered⟩ := bind_ok answered
    obtain ⟨acquired, _, answered⟩ := bind_ok answered
    obtain ⟨lease, _, answered⟩ := bind_ok answered
    obtain ⟨bound, _, answered⟩ := bind_ok answered
    obtain ⟨stated, _, answered⟩ := bind_ok answered
    obtain ⟨row, _, answered⟩ := bind_ok answered
    obtain ⟨owner, _, answered⟩ := bind_ok answered
    have ended := Except.ok.inj answered
    contradiction

/-- A grant stores its lease. -/
theorem Grants.stores {action : Action} {next : TaskLedger} {generation : Int}
    (valid : ledger.Valid library)
    (grants : Grants library ledger action thread session generation)
    (taken : (machine library).step ledger action = some next) :
    ∃ same, sameOwner ((ledger.tables .threadLeases).get thread) session = .ok same ∧
      nextGeneration ((ledger.tables .threadLeases).get thread) same = .ok generation ∧
      ∃ lease, next.Stored .threadLeases thread lease ∧ OwnedBy session lease ∧
        lease.find "generation" = some (.int generation) := by
  cases action with
  | replay batch => contradiction
  | run op a ts persist =>
    obtain ⟨rfl, readThread, readSession, value, done, granted, found⟩ := grants
    obtain rfl := Option.some.inj taken
    rcases valid.returned done with answered | empty | published
    · exfalso
      rw [leaseClaim_refused answered] at granted
      simp at granted
    · have planned : leaseClaim library ledger a ts = .ok (.commit [] value) := empty
      obtain ⟨_, _, _, _, _, _, _, _, staged, _⟩ := leaseClaim_cases planned
      contradiction
    · obtain ⟨changes, published⟩ := published
      have planned : leaseClaim library ledger a ts = .ok (.commit changes value) :=
        published.planned
      obtain ⟨thread', session', lease, row, stored, bound, again, again', claimed, similar, _,
        leases, _, equal⟩ := published.claimed planned
      obtain rfl := Except.ok.inj (readThread.symm.trans again)
      obtain rfl := Except.ok.inj (readSession.symm.trans again')
      obtain ⟨same, generation', owns, next, field⟩ := claimed.generation
      have whole := field.symm.trans (equal.trans found)
      obtain rfl := Json.int.inj (Option.some.inj whole)
      refine ⟨same, owns, next, stored, ?_, ?_, ?_⟩
      · exact (leases thread).trans (if_pos rfl)
      · rw [OwnedBy, similar "session_id" (by decide) (by decide), claimed.owner]
      · rw [similar "generation" (by decide) (by decide), field]

/-- The generation of a claim is an `int` when the old one can grow. -/
theorem nextGeneration_range {same : Bool} {next : Int}
    (counted : nextGeneration lease same = .ok next) (room : ¬Exhausted lease) :
    -2147483648 ≤ next ∧ next ≤ 2147483647 := by
  unfold nextGeneration at counted
  split at counted
  · obtain rfl := Except.ok.inj counted
    decide
  · obtain ⟨value, read, counted⟩ := bind_ok counted
    obtain ⟨number, whole, counted⟩ := bind_ok counted
    obtain ⟨low, high⟩ := Json.getInt_range whole
    have there : value.isNull = false := by
      cases value with
      | null => contradiction
      | _ => rfl
    have small : number ≠ 2147483647 := by
      intro largest
      subst largest
      exact room ⟨value, field_find read there, whole⟩
    have sum : next = number + if same then 0 else 1 := (Except.ok.inj counted).symm
    cases same <;> simp at sum <;> omega

/-- The generation of a claim counts a change of the owner. -/
theorem nextGeneration_counts {same : Bool} {owner claimant : String} {current next : Int}
    (owned : OwnedBy owner lease) (found : lease.find "generation" = some (.int current))
    (low : -2147483648 ≤ current) (high : current ≤ 2147483647)
    (owns : sameOwner lease claimant = .ok same)
    (counted : nextGeneration lease same = .ok next) :
    (owner = claimant ∧ next = current) ∨ (owner ≠ claimant ∧ next = current + 1) := by
  cases lease with
  | obj fields =>
    have own : Assoc.lookup "session_id" fields = some (.str owner) := owned
    have number : Assoc.lookup "generation" fields = some (.int current) := found
    have read := Json.getInt_int low high
    have holds : same = (owner == claimant) := by
      simpa [sameOwner, Json.isNull, Json.field, own, Json.same, eq_comm, bind, Except.bind,
        pure, Except.pure] using owns
    have sum : next = current + if same then 0 else 1 := by
      simpa [nextGeneration, Json.isNull, Json.field, number, read, eq_comm, bind, Except.bind,
        pure, Except.pure] using counted
    by_cases equal : owner = claimant
    · rw [holds, beq_iff_eq.mpr equal] at sum
      exact .inl ⟨equal, by simpa using sum⟩
    · rw [holds, beq_eq_false_iff_ne.mpr equal] at sum
      exact .inr ⟨equal, by simpa using sum⟩
  | _ => contradiction

/-- The lease of a thread after a grant, for as long as it is there: its generation is not
smaller, and larger with another owner. -/
structure Since (session : String) (granted : Int) (owner : String) (generation : Int)
    (lease : Json) : Prop where
  /-- The owner. -/
  owned : OwnedBy owner lease
  /-- The generation. -/
  found : lease.find "generation" = some (.int generation)
  /-- It is not smaller. -/
  grown : granted ≤ generation
  /-- It is larger with another owner. -/
  larger : owner ≠ session → granted < generation
  /-- It is an `int`. -/
  range : -2147483648 ≤ generation ∧ generation ≤ 2147483647

/-- A run that does not remove the lease lets its generation grow only. -/
theorem LeaseStep.since {row : Json} {owner : String} {granted generation : Int}
    (step : LeaseStep op a ts thread lease (some row)) (room : ¬Exhausted lease)
    (since : Since session granted owner generation lease) :
    ∃ owner generation, Since session granted owner generation row := by
  obtain ⟨owned, found, grown, larger, low, high⟩ := since
  cases step with
  | kept => exact ⟨owner, generation, owned, found, grown, larger, low, high⟩
  | extended holder row _ own fields =>
    refine ⟨owner, generation, ?_, ?_, grown, larger, low, high⟩
    · rw [OwnedBy, fields "session_id" (by decide) (by decide), ← owned]
      simp
    · rw [fields "generation" (by decide) (by decide), ← found]
      simp
  | claimed claimant row _ _ _ _ own counted =>
    obtain ⟨same, next, owns, counts, field⟩ := counted
    have range := nextGeneration_range counts room
    refine ⟨claimant, next, own, field, ?_, ?_, range⟩
    · cases nextGeneration_counts owned found low high owns counts with
      | inl kept => omega
      | inr changed => omega
    · intro differs
      cases nextGeneration_counts owned found low high owns counts with
      | inl kept =>
        obtain ⟨rfl, rfl⟩ := kept
        exact larger differs
      | inr changed => omega

/-- Runs that do not remove the lease let its generation grow only. -/
theorem Since.leads {first last : TaskLedger} {owner : String} {granted generation : Int}
    (reached : (machine library).Reaches Runs first)
    (stored : first.Stored .threadLeases thread lease)
    (since : Since session granted owner generation lease)
    (led : (machine library).Leads (KeepsLease library thread) first last) :
    ∃ lease owner generation, last.Stored .threadLeases thread lease ∧
      Since session granted owner generation lease := by
  induction led with
  | refl => exact ⟨lease, owner, generation, stored, since⟩
  | step action led keeps taken ih =>
    obtain ⟨before, holder, current, there, grown⟩ := ih
    obtain ⟨runs, room, kept⟩ := keeps
    have valid := valid_reached (reached.leads (fun _ _ keeps => keeps.1) led)
    cases action with
    | run op a ts persist =>
      obtain ⟨row, after⟩ := kept _ taken
      obtain rfl := Option.some.inj taken
      have step := valid.leaseStep there op a ts persist
      rw [TaskLedger.row, after] at step
      obtain ⟨owner, generation, grown⟩ := step.since (room before there) grown
      exact ⟨row, owner, generation, after, grown⟩
    | replay batch => contradiction

/-- A lease that is read can grow when every stored one can. -/
theorem room_get (room : ∀ lease, ledger.Stored .threadLeases thread lease → ¬Exhausted lease) :
    ¬Exhausted ((ledger.tables .threadLeases).get thread) := by
  cases there : ledger.row .threadLeases thread with
  | none =>
    have null : (ledger.tables .threadLeases).get thread = .null := by
      have missing : Assoc.lookup thread (ledger.tables .threadLeases).rows = none := there
      rw [Table.get, missing, Option.getD_none]
    rw [null]
    rintro ⟨value, found, _⟩
    contradiction
  | some lease =>
    rw [get_of_stored there]
    exact room lease there

/-- The generation that another session is granted is larger, when the lease has been there ever
since and its generation could grow. -/
theorem generations_grow {first last : Action} {middle later : TaskLedger} {other : String}
    {generation next : Int} (reached : (machine library).Reaches Runs ledger)
    (granted : Grants library ledger first thread session generation)
    (taken : (machine library).step ledger first = some middle)
    (room : ∀ lease, ledger.Stored .threadLeases thread lease → ¬Exhausted lease)
    (between : (machine library).Leads (KeepsLease library thread) middle later)
    (again : Grants library later last thread other next) (differs : other ≠ session) :
    generation < next := by
  obtain ⟨_, _, counted, lease, stored, owned, found⟩ :=
    granted.stores (valid_reached reached) taken
  have range := nextGeneration_range counted (room_get room)
  have since : Since session generation session generation lease :=
    ⟨owned, found, Int.le_refl _, fun apart => absurd rfl apart, range⟩
  have runs : Runs ledger first := by
    cases first with
    | run => trivial
    | replay => contradiction
  have arrived := reached.step first runs taken
  obtain ⟨last_lease, holder, current, there, held, number, grown, larger, low, high⟩ :=
    since.leads arrived stored between
  have valid := valid_reached (arrived.leads (fun _ _ keeps => keeps.1) between)
  cases last with
  | replay batch => contradiction
  | run op a ts persist =>
    obtain ⟨same, owns, counts, _⟩ := again.stores valid rfl
    rw [get_of_stored there] at owns counts
    cases nextGeneration_counts held number low high owns counts with
    | inl kept =>
      obtain ⟨rfl, rfl⟩ := kept
      exact larger differs
    | inr changed =>
      have sum := changed.2
      omega

/-- The first lease of a thread has the generation 1. -/
theorem leased_granted : Grants emptyLibrary twoSessions
    (.run "lease_claim" (claimArguments "s-1") 4 fun _ => none) "t-1" "s-1" 1 := by
  decide +kernel

/-- The second session takes the expired lease over with a larger generation. -/
theorem generations_grow_leased : ∃ generation next,
    Grants emptyLibrary twoSessions
      (.run "lease_claim" (claimArguments "s-1") 4 fun _ => none) "t-1" "s-1" generation ∧
    Grants emptyLibrary leased
      (.run "lease_claim" (claimArguments "s-2") 1000 fun _ => none) "t-1" "s-2" next ∧
    generation < next := by
  have again : Grants emptyLibrary leased
      (.run "lease_claim" (claimArguments "s-2") 1000 fun _ => none) "t-1" "s-2" 2 := by
    decide +kernel
  have reached : (machine emptyLibrary).Reaches Runs twoSessions :=
    twoSessions_reached.mono fun _ action permitted => permitted.runs
  have free : twoSessions.row .threadLeases "t-1" = none := by decide +kernel
  refine ⟨1, 2, leased_granted, again, ?_⟩
  refine generations_grow reached leased_granted step_performed
    (fun lease stored => ?_) .refl again (by decide)
  exact absurd (free.symm.trans stored) nofun

/-- A release takes the generation along: two sessions are granted the generation 1. -/
theorem generations_repeat : ¬∀ (library : Library) (ledger middle later : TaskLedger)
    (first last : Action) (thread session other : String) (generation next : Int),
    (machine library).Reaches Runs ledger →
    Grants library ledger first thread session generation →
    (machine library).step ledger first = some middle →
    (machine library).Leads Runs middle later →
    Grants library later last thread other next → other ≠ session → generation < next := by
  intro claim
  have reached : (machine emptyLibrary).Reaches Runs twoSessions :=
    twoSessions_reached.mono fun _ action permitted => permitted.runs
  have again : Grants emptyLibrary (performed leased "lease_release" (sessionArguments "s-1") 5)
      (.run "lease_claim" (claimArguments "s-2") 6 fun _ => none) "t-1" "s-2" 1 := by
    decide +kernel
  have released : (machine emptyLibrary).Leads Runs leased
      (performed leased "lease_release" (sessionArguments "s-1") 5) :=
    .step (.run _ _ _ _) .refl trivial step_performed
  exact absurd (claim emptyLibrary twoSessions leased _ _ _ "t-1" "s-1" "s-2" 1 1 reached
    leased_granted step_performed released again (by decide)) (by decide)

end Chitta.Ledger
