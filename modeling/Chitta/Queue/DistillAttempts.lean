import Mathlib.Data.List.Infix
import Chitta.Queue.SlowLane

/-!
# The limit on distill attempts

A counter equals the passes over its session, since it was last removed, that raised it and did
not get to remove it: those that began `process_distill` without completing it, those in which
the process died just outside it, and those that ended without an endpoint. So in a run that put
no item of the session back, the limit takes an item to the dead-letter file only after as many
begun or cut passes as the limit says. A session is also begun whenever discovery answers.
-/
namespace Chitta.Queue

variable {parse : Parser} {configured : String} {lane after : SlowLane} {action : SlowAction}

/-- The events since the counter of the session was last removed. -/
def sinceCleared (session : String) (log : List Event) : List Event :=
  log.takeWhile fun event => event ≠ .cleared session

/-- The removal of the counter hides what came before. -/
@[simp] theorem sinceCleared_cleared (session : String) (log : List Event) :
    sinceCleared session (.cleared session :: log) = [] := by
  simp [sinceCleared]

/-- Any other event is added. -/
theorem sinceCleared_cons {session : String} {event : Event} (other : event ≠ .cleared session)
    (log : List Event) :
    sinceCleared session (event :: log) = event :: sinceCleared session log := by
  simp [sinceCleared, other]

/-- The counter of a session is the number of the passes that left it raised. -/
def Tallied (lane : SlowLane) (session : String) : Prop :=
  let since := sinceCleared session lane.log
  lane.attempts session + since.count (.completed session) =
    since.count (.started session) + since.count (.cut session) +
      since.count (.deferred session) + if lane.openSession = some session then 1 else 0

/-- The limit is applied only to sessions that were begun, or cut just outside, often enough,
unless an item was put back. -/
def LimitKept (log : List Event) : Prop :=
  ∀ session earlier, .buried session :: earlier <:+ log →
    .deferred session ∉ sinceCleared session earlier →
      maxDistillAttempts + (sinceCleared session earlier).count (.completed session) ≤
        (sinceCleared session earlier).count (.started session) +
          (sinceCleared session earlier).count (.cut session)

/-- Whenever discovery answers with an endpoint, `process_distill` is called next. -/
def Answered (log : List Event) : Prop :=
  ∀ session answer earlier, .probed session answer :: earlier <:+ log → answer ≠ "" →
    .started session :: .probed session answer :: earlier <:+ log

/-- What the point of the process says about its session. -/
def PassOf (attempts : String → Nat) : SlowPc → Prop
  | .burying _ trigger =>
    trigger.session ≠ "" ∧ maxDistillAttempts < attempts trigger.session
  | .clearing _ trigger _ => trigger.session ≠ ""
  | _ => True

/-- What holds in every state. -/
structure Sound (lane : SlowLane) : Prop where
  /-- The counters count. -/
  tallied : ∀ session, session ≠ "" → Tallied lane session
  /-- The pass in progress. -/
  pass : PassOf lane.attempts lane.pc
  /-- The limit. -/
  limit : LimitKept lane.log
  /-- The endpoints. -/
  answered : Answered lane.log

/-- An event other than a dead-letter entry of the limit keeps the limit. -/
theorem LimitKept.cons {log : List Event} (kept : LimitKept log) {event : Event}
    (other : ∀ session, event ≠ .buried session) : LimitKept (event :: log) := by
  intro session earlier suffix clean
  cases List.suffix_cons_iff.mp suffix with
  | inl whole => exact absurd (List.cons.inj whole).1.symm (other session)
  | inr within => exact kept session earlier within clean

/-- An event other than an answer keeps the answers. -/
theorem Answered.cons {log : List Event} (kept : Answered log) {event : Event}
    (other : ∀ session answer, event ≠ .probed session answer) : Answered (event :: log) := by
  intro session answer earlier suffix found
  cases List.suffix_cons_iff.mp suffix with
  | inl whole => exact absurd (List.cons.inj whole).1.symm (other session answer)
  | inr within =>
    exact (kept session answer earlier within found).trans (List.suffix_cons event log)

/-- A step that touches no counter, no log and no pass over a counted session. -/
theorem Sound.quiet (sound : Sound lane) (attempts : after.attempts = lane.attempts)
    (log : after.log = lane.log) (closed : lane.openSession = none)
    (still : after.openSession = none) (pass : PassOf after.attempts after.pc) : Sound after := by
  refine ⟨fun session named => ?_, pass, log ▸ sound.limit, log ▸ sound.answered⟩
  have tallied := sound.tallied session named
  simp only [Tallied, closed] at tallied
  simp only [Tallied, attempts, log, still, tallied]

/-- A step outside the process touches no counter and no log. -/
theorem Sound.congr (sound : Sound lane) (attempts : after.attempts = lane.attempts)
    (log : after.log = lane.log) (pc : after.pc = lane.pc) : Sound after := by
  have same : after.openSession = lane.openSession := by simp only [SlowLane.openSession, pc]
  refine ⟨fun session named => ?_, ?_, log ▸ sound.limit, log ▸ sound.answered⟩
  · simpa only [Tallied, attempts, log, same] using sound.tallied session named
  · rw [attempts, pc]
    exact sound.pass

/-- A counter is raised. -/
theorem Sound.bump (sound : Sound lane) (closed : lane.openSession = none) (batch : SlowBatch)
    {trigger : Trigger} (named : trigger.session ≠ "") : Sound (lane.bump batch trigger) := by
  have opened : (lane.bump batch trigger).openSession = some trigger.session := by
    by_cases exceeded : maxDistillAttempts < lane.attempts trigger.session + 1
    · simp [SlowLane.bump, SlowLane.openSession, exceeded]
    · simp [SlowLane.bump, SlowLane.openSession, exceeded, named]
  refine ⟨fun session other => ?_, ?_, sound.limit.cons (by simp), sound.answered.cons (by simp)⟩
  · have tallied := sound.tallied session other
    simp only [Tallied, opened, closed] at tallied ⊢
    simp only [SlowLane.bump]
    rw [sinceCleared_cons (by simp)]
    by_cases same : trigger.session = session
    · subst same
      simp at tallied ⊢
      omega
    · simp [same, Ne.symm same] at tallied ⊢
      omega
  · simp only [SlowLane.bump]
    split
    · rename_i exceeded
      exact ⟨named, by simpa using exceeded⟩
    · trivial

/-- The limit is applied. -/
theorem Sound.bury (sound : Sound lane) {batch : SlowBatch} {trigger : Trigger}
    (pc : lane.pc = .burying batch trigger) : Sound (lane.bury parse batch trigger) := by
  have pass := sound.pass
  rw [pc] at pass
  obtain ⟨named, exceeded⟩ := pass
  have open_session : lane.openSession = some trigger.session := by
    simp only [SlowLane.openSession, pc]
  have still : (lane.bury parse batch trigger).openSession = some trigger.session := rfl
  refine ⟨fun session other => ?_, named, ?_, sound.answered.cons (by simp)⟩
  · have tallied := sound.tallied session other
    simp only [Tallied, open_session, still] at tallied ⊢
    simp only [SlowLane.bury, SlowLane.writeFailed_attempts]
    rw [sinceCleared_cons (by simp)]
    simpa using tallied
  · intro session earlier suffix clean
    cases List.suffix_cons_iff.mp suffix with
    | inr within => exact sound.limit session earlier within clean
    | inl whole =>
      obtain ⟨same, rfl⟩ := List.cons.inj whole
      obtain rfl := Event.buried.inj same
      have tallied := sound.tallied trigger.session named
      simp only [Tallied, open_session, ↓reduceIte] at tallied
      rw [List.count_eq_zero_of_not_mem clean] at tallied
      omega

/-- The answer of discovery changes no tally. -/
theorem count_asked {session : String} {event : Event}
    (other : ∀ name answer, event ≠ .probed name answer) (name answer : String)
    (log : List Event) :
    (sinceCleared session (SlowLane.asked configured name answer log)).count event =
      (sinceCleared session log).count event := by
  unfold SlowLane.asked
  split
  · rw [sinceCleared_cons (by simp), List.count_cons_of_ne (Ne.symm (other name answer))]
  · rfl

/-- The endpoint is looked up. -/
theorem Sound.probe (sound : Sound lane) {batch : SlowBatch} {trigger : Trigger}
    (pc : lane.pc = .probing batch trigger) (configured answer : String) :
    Sound (lane.probe configured batch trigger answer) := by
  have opens : ∀ session, session ≠ "" →
      (lane.openSession = some session ↔ trigger.session = session) := by
    intro session named
    simp only [SlowLane.openSession, pc]
    split
    · rename_i unnamed
      simp [unnamed, Ne.symm named]
    · simp
  have tally : ∀ session, session ≠ "" → ∀ event,
      event = .deferred trigger.session ∨ event = .started trigger.session →
      let since := sinceCleared session
        (event :: SlowLane.asked configured trigger.session answer lane.log)
      lane.attempts session + since.count (.completed session) =
        since.count (.started session) + since.count (.cut session) +
          since.count (.deferred session) := by
    intro session named event which
    have tallied := sound.tallied session named
    simp only [Tallied, opens session named] at tallied
    rcases which with rfl | rfl
    · rw [sinceCleared_cons (by simp)]
      by_cases same : trigger.session = session
      · simp [count_asked, same] at tallied ⊢
        omega
      · simpa [List.count_cons, count_asked, same] using tallied
    · rw [sinceCleared_cons (by simp)]
      by_cases same : trigger.session = session
      · simp [count_asked, same] at tallied ⊢
        omega
      · simpa [List.count_cons, count_asked, same] using tallied
  have limit : LimitKept (SlowLane.asked configured trigger.session answer lane.log) := by
    unfold SlowLane.asked
    split
    · exact sound.limit.cons (by simp)
    · exact sound.limit
  unfold SlowLane.probe
  dsimp only
  split
  · rename_i absent
    refine ⟨fun session named => tally session named _ (.inl rfl), trivial, limit.cons (by simp),
      Answered.cons ?_ (by simp)⟩
    unfold SlowLane.asked
    split
    · rename_i unconfigured
      rw [SlowLane.lookUp, if_pos unconfigured] at absent
      intro session other earlier suffix found
      cases List.suffix_cons_iff.mp suffix with
      | inl whole =>
        obtain ⟨same, _⟩ := List.cons.inj whole
        exact absurd ((Event.probed.inj same).2.trans absent) found
      | inr within =>
        exact (sound.answered session other earlier within found).trans (List.suffix_cons _ _)
    · exact sound.answered
  · refine ⟨fun session named => tally session named _ (.inr rfl), trivial, limit.cons (by simp),
      ?_⟩
    unfold SlowLane.asked
    split
    · intro session other earlier suffix found
      cases List.suffix_cons_iff.mp suffix with
      | inl whole => exact absurd (List.cons.inj whole).1 (by simp)
      | inr within =>
        cases List.suffix_cons_iff.mp within with
        | inl whole =>
          obtain ⟨same, rfl⟩ := List.cons.inj whole
          obtain ⟨rfl, rfl⟩ := Event.probed.inj same
          exact List.suffix_refl _
        | inr deeper =>
          have kept := sound.answered session other earlier deeper found
          exact (kept.trans (List.suffix_cons _ _)).trans (List.suffix_cons _ _)
    · exact sound.answered.cons (by simp)

/-- `process_distill` ends. -/
theorem Sound.distilled (sound : Sound lane) {batch : SlowBatch} {trigger : Trigger}
    (pc : lane.pc = .distilling batch trigger) (thrown : Option Thrown) :
    Sound (lane.distilled parse batch trigger thrown) := by
  have closed : lane.openSession = none := by
    simp only [SlowLane.openSession, pc]
  cases thrown with
  | some error =>
    have still : (lane.distilled parse batch trigger (some error)).openSession = none := rfl
    refine ⟨fun session named => ?_, trivial, ?_, ?_⟩
    · have tallied := sound.tallied session named
      simp only [Tallied, closed, still] at tallied ⊢
      simp only [SlowLane.distilled, SlowLane.writeFailed_attempts]
      rw [sinceCleared_cons (by simp)]
      simpa using tallied
    · exact sound.limit.cons (by simp)
    · exact sound.answered.cons (by simp)
  | none =>
    have opens : (lane.distilled parse batch trigger none).openSession =
        if trigger.session = "" then none else some trigger.session := by
      by_cases unnamed : trigger.session = ""
      · simp [SlowLane.distilled, SlowLane.openSession, unnamed]
      · simp [SlowLane.distilled, SlowLane.openSession, unnamed]
    refine ⟨fun session named => ?_, ?_, sound.limit.cons (by simp), sound.answered.cons (by simp)⟩
    · have tallied := sound.tallied session named
      simp only [Tallied, closed, opens] at tallied ⊢
      simp only [SlowLane.distilled]
      rw [sinceCleared_cons (by simp)]
      by_cases same : trigger.session = session
      · subst same
        simp [named] at tallied ⊢
        omega
      · have other : (if trigger.session = "" then none else some trigger.session) ≠
            some session := by
          split
          · simp
          · simpa using same
        simpa [same, Ne.symm same, other] using tallied
    · by_cases unnamed : trigger.session = ""
      · simp [SlowLane.distilled, unnamed, PassOf]
      · simp [SlowLane.distilled, unnamed, PassOf]

/-- A counter is removed. -/
theorem Sound.clear (sound : Sound lane) {batch : SlowBatch} {trigger : Trigger} {limited : Bool}
    (pc : lane.pc = .clearing batch trigger limited) :
    Sound (lane.clear batch trigger limited) := by
  have open_session : lane.openSession = some trigger.session := by
    simp only [SlowLane.openSession, pc]
  have still : (lane.clear batch trigger limited).openSession = none := by
    cases limited with
    | true => rfl
    | false => rfl
  refine ⟨fun session named => ?_, ?_, sound.limit.cons (by simp), sound.answered.cons (by simp)⟩
  · have tallied := sound.tallied session named
    simp only [Tallied, open_session, still] at tallied ⊢
    simp only [SlowLane.clear]
    by_cases same : trigger.session = session
    · subst same
      simp
    · rw [sinceCleared_cons (by simpa using same)]
      simpa [same, Ne.symm same] using tallied
  · cases limited with
    | true => trivial
    | false => trivial

/-- The process dies. -/
theorem Sound.crash (sound : Sound lane) : Sound lane.crash := by
  have still : lane.crash.openSession = none := rfl
  cases opened : lane.openSession with
  | none =>
    exact sound.quiet rfl (by simp only [SlowLane.crash, opened]) opened still trivial
  | some current =>
    have log : lane.crash.log = .cut current :: lane.log := by
      simp only [SlowLane.crash, opened]
    have attempts : lane.crash.attempts = lane.attempts := rfl
    refine ⟨fun session named => ?_, trivial, ?_, ?_⟩
    · have tallied := sound.tallied session named
      simp only [Tallied, opened, still, log, attempts] at tallied ⊢
      rw [sinceCleared_cons (by simp)]
      by_cases same : current = session
      · subst same
        simp at tallied ⊢
        omega
      · simpa [same, Ne.symm same] using tallied
    · rw [log]
      exact sound.limit.cons (by simp)
    · rw [log]
      exact sound.answered.cons (by simp)

/-- A line is worked off, up to its first operation. -/
theorem Sound.item (sound : Sound lane) (closed : lane.openSession = none) (batch : SlowBatch)
    (line : Line) : Sound (lane.item parse batch line) := by
  unfold SlowLane.item
  split
  · exact sound.quiet rfl rfl closed rfl trivial
  · split
    · exact sound.quiet (by simp) (by simp) closed rfl trivial
    · exact sound.quiet rfl rfl closed rfl trivial
    · split
      · rename_i unnamed
        exact sound.quiet rfl rfl closed (by simp [SlowLane.openSession, unnamed]) trivial
      · rename_i named
        exact sound.bump closed batch named

/-- Every operation of the process keeps what holds. -/
theorem Sound.tick (sound : Sound lane) {running : Bool} {answer : String}
    {thrown : Option Thrown}
    (taken : lane.tick parse configured running answer thrown = some after) : Sound after := by
  unfold SlowLane.tick at taken
  cases pc : lane.pc with
  | down => simp [pc] at taken
  | burying batch trigger =>
    simp only [pc, Option.some.injEq] at taken
    exact taken ▸ sound.bury pc
  | probing batch trigger =>
    simp only [pc, Option.some.injEq] at taken
    exact taken ▸ sound.probe pc configured answer
  | distilling batch trigger =>
    simp only [pc, Option.some.injEq] at taken
    exact taken ▸ sound.distilled pc thrown
  | clearing batch trigger limited =>
    simp only [pc, Option.some.injEq] at taken
    exact taken ▸ sound.clear pc
  | items batch =>
    have closed : lane.openSession = none := by simp only [SlowLane.openSession, pc]
    have closes : Sound (lane.close batch) := by
      unfold SlowLane.close
      split
      · exact sound.quiet rfl rfl closed rfl trivial
      · exact sound.quiet rfl rfl closed rfl trivial
    simp only [pc] at taken
    split at taken
    · exact Option.some.inj taken ▸ closes
    · split at taken
      · exact Option.some.inj taken ▸ sound.item closed _ _
      · exact Option.some.inj taken ▸ closes
  | requeue todo =>
    have closed : lane.openSession = none := by simp only [SlowLane.openSession, pc]
    cases todo with
    | nil =>
      simp only [pc, Option.some.injEq] at taken
      exact taken ▸ sound.quiet rfl rfl closed rfl trivial
    | cons line rest =>
      simp only [pc, Option.some.injEq] at taken
      exact taken ▸ sound.quiet rfl rfl closed rfl trivial
  | deferring todo =>
    have closed : lane.openSession = none := by simp only [SlowLane.openSession, pc]
    cases todo with
    | nil =>
      simp only [pc, Option.some.injEq] at taken
      exact taken ▸ sound.quiet rfl rfl closed rfl trivial
    | cons line rest =>
      simp only [pc, Option.some.injEq] at taken
      exact taken ▸ sound.quiet rfl rfl closed rfl trivial
  | idle =>
    have closed : lane.openSession = none := by simp only [SlowLane.openSession, pc]
    simp only [pc] at taken
    split at taken
    · contradiction
    · exact Option.some.inj taken ▸ sound.quiet rfl rfl closed rfl trivial
  | claimed =>
    have closed : lane.openSession = none := by simp only [SlowLane.openSession, pc]
    simp only [pc, Option.some.injEq] at taken
    subst taken
    unfold SlowLane.readClaimed
    split
    · exact sound.quiet rfl rfl closed rfl trivial
    · exact sound.quiet rfl rfl closed rfl trivial
  | recording batch line =>
    have closed : lane.openSession = none := by simp only [SlowLane.openSession, pc]
    simp only [pc, Option.some.injEq] at taken
    subst taken
    unfold SlowLane.record
    dsimp only
    split
    · exact sound.quiet rfl rfl closed rfl trivial
    · exact sound.quiet rfl rfl closed rfl trivial
  | saving batch =>
    have closed : lane.openSession = none := by simp only [SlowLane.openSession, pc]
    simp only [pc, Option.some.injEq] at taken
    exact taken ▸ sound.quiet rfl rfl closed rfl trivial
  | finished =>
    have closed : lane.openSession = none := by simp only [SlowLane.openSession, pc]
    simp only [pc, Option.some.injEq] at taken
    exact taken ▸ sound.quiet rfl rfl closed rfl trivial

/-- Every step keeps what holds. -/
theorem Sound.step (sound : Sound lane)
    (taken : lane.step parse configured action = some after) : Sound after := by
  cases action with
  | tick running answer thrown => exact sound.tick taken
  | crash => exact Option.some.inj taken ▸ sound.crash
  | handoff line =>
    simp only [SlowLane.step] at taken
    split at taken
    · exact Option.some.inj taken ▸ sound.congr rfl rfl rfl
    · exact Option.some.inj taken ▸ sound.congr rfl rfl rfl
  | start =>
    simp only [SlowLane.step] at taken
    split at taken
    · rename_i pc
      obtain rfl := Option.some.inj taken
      have closed : lane.openSession = none := by simp only [SlowLane.openSession, pc]
      unfold SlowLane.start
      split
      · exact sound.quiet rfl rfl closed rfl trivial
      · exact sound.quiet rfl rfl closed rfl trivial
    · contradiction

/-- In every run the limit takes an item of a session to the dead-letter file only when, since its
counter was last removed, the session was begun without completing or cut just outside
`process_distill` as often as the limit says, or an item of it was put back; and
`process_distill` is called whenever discovery answers with an endpoint. -/
theorem limit_after_attempts (reached : (slowSystem parse configured).Reachable lane) :
    LimitKept lane.log ∧ Answered lane.log := by
  have sound : Sound lane := by
    refine reached.invariant ?_ fun _ _ _ sound _ taken => sound.step taken
    refine ⟨fun _ _ => rfl, trivial, ?_, ?_⟩
    · intro session earlier suffix
      have empty := List.suffix_nil.mp suffix
      contradiction
    · intro session answer earlier suffix
      have empty := List.suffix_nil.mp suffix
      contradiction
  exact ⟨sound.limit, sound.answered⟩

/-! ## A session that ends the daemon three times -/

/-- The text `{"tool":"distill_trigger","args":{"session_id":"s"}}`. -/
def triggerLine : Line :=
  [123, 34, 116, 111, 111, 108, 34, 58, 34, 100, 105, 115, 116, 105, 108, 108, 95, 116, 114, 105,
   103, 103, 101, 114, 34, 44, 34, 97, 114, 103, 115, 34, 58, 123, 34, 115, 101, 115, 115, 105,
   111, 110, 95, 105, 100, 34, 58, 34, 115, 34, 125, 125]

/-- A parser that knows this text only. -/
def triggerParser : Parser := fun line =>
  if line = triggerLine then
    some (.obj [("args", .obj [("session_id", .str "s")]), ("tool", .str "distill_trigger")])
  else none

/-- An operation while discovery finds an endpoint. -/
def served : SlowAction := .tick true "http://gpu:8000" none

/-- A process recovers the trigger and works on it up to the call of `process_distill`, where the
daemon dies. -/
def fatalPass : List SlowAction :=
  [.start, served, served, served, served, served, served, served, .crash]

/-- The trigger ends the daemon three times; the fourth process recovers it. -/
def poisonedRun : List SlowAction :=
  [.handoff triggerLine, .start, served, served, served, served, .crash] ++ fatalPass ++
    fatalPass ++ [.start, served, served, served, served, served, served, served]

/-- What happened before the limit was applied. -/
def poisonedPasses : List Event :=
  [.bumped "s", .started "s", .probed "s" "http://gpu:8000", .bumped "s", .started "s",
    .probed "s" "http://gpu:8000", .bumped "s", .started "s", .probed "s" "http://gpu:8000",
    .bumped "s"]

/-- The log of this run. -/
theorem poisoned_log : ∃ lane,
    (slowSystem triggerParser "").run (slowSystem triggerParser "").initial poisonedRun =
      some lane ∧ lane.log = .buried "s" :: poisonedPasses :=
  ⟨_, rfl, rfl⟩

/-- The session was begun as often as the limit says, not more often, when the limit took its item
to the dead-letter file. -/
theorem limit_after_three_starts : ¬ ∀ lane, (slowSystem triggerParser "").Reachable lane →
    ∀ session earlier, .buried session :: earlier <:+ lane.log →
      maxDistillAttempts + (sinceCleared session earlier).count (.completed session) <
        (sinceCleared session earlier).count (.started session) := by
  intro claimed
  obtain ⟨lane, replayed, log⟩ := poisoned_log
  have reached := Machine.Reaches.of_run poisonedRun .initial replayed
  have applied : .buried "s" :: poisonedPasses <:+ lane.log := by
    exact log ▸ List.suffix_refl _
  have more := claimed lane reached "s" poisonedPasses applied
  revert more
  decide

/-- The run keeps the limit. -/
theorem limit_after_attempts_poisoned : ∃ lane,
    (slowSystem triggerParser "").run (slowSystem triggerParser "").initial poisonedRun =
      some lane ∧
    .buried "s" ∈ lane.log ∧ LimitKept lane.log ∧ Answered lane.log := by
  obtain ⟨lane, replayed, log⟩ := poisoned_log
  have reached := Machine.Reaches.of_run poisonedRun .initial replayed
  exact ⟨lane, replayed, by simp [log], limit_after_attempts reached⟩

end Chitta.Queue
