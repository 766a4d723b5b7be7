import Chitta.Gateway.Plain

/-!
# Capsules are compared and swapped

A capsule is written by two operations of the gateway, with the latest revision that the writer
knows. Every other operation leaves the capsules of all sessions as they are, so the capsules of a
key are numbered one after the other, and the latest one is the last that was accepted. Keys are
told apart by a text, and two keys can have one text when the path of a repository has a line break.
-/
namespace Chitta.Gateway

open Ledger (Library TaskLedger idarg)

variable {library : Library} {env : Env} {world : World}

/-! ## The comparison -/

/-- How often a key was written. -/
def count (world : World) (key : Key) : Nat :=
  (MaxRegister.ofKey keyOf key world.accepted).length

/-- A world that was only read. -/
def Same (world next : World) : Prop := ∃ readings, next = { world with readings }

/-- The sessions hold the accepted capsules of a world that was only read. -/
theorem Kept.same {next : World} (kept : Kept library world) (same : Same world next) :
    Kept library next := by
  obtain ⟨readings, rfl⟩ := same
  exact kept.handed kept.valid kept.upgraded kept.stamped rfl fun _ => rfl

/-- A world that was only read holds what it held. -/
theorem Held.same {next : World} (held : Held library world) (same : Same world next) :
    Held library next := by
  intro back
  obtain ⟨readings, rfl⟩ := same
  exact (held back).same ⟨_, rfl⟩

/-- The other way round. -/
theorem Same.symm {next : World} (same : Same world next) : Same next world := by
  obtain ⟨_, rfl⟩ := same
  exact ⟨world.readings, rfl⟩

/-- A reading of the world outside changes nothing. -/
theorem same_outside {α : Type} (read : Nat → Except Thrown α) :
    Throwing.Keeps (Same world) (outside read) := by
  rintro _ ⟨readings, rfl⟩
  exact ⟨_, rfl⟩

/-- The row of a session is read. -/
theorem same_sessionGet (library : Library) (env : Env) (value : Json) : Throwing.Keeps (Same world)
    (run library env "session_get" (.object [("session_id", value)])) := by
  rintro _ ⟨readings, rfl⟩
  rw [run_sessionGet]
  exact ⟨_, rfl⟩

/-- It is the row of the session that is named. -/
theorem sessionGet_ok {value bound : Json} {before next : World} (same : Same world before)
    (done : run library env "session_get" (.object [("session_id", value)]) before =
      (.ok bound, next)) : ∃ id, value = .str id ∧ bound = sessionRow world.ledger id := by
  obtain ⟨_, rfl⟩ := same
  rw [run_sessionGet] at done
  cases value with
  | str id => exact ⟨id, rfl, (Except.ok.inj (congrArg Prod.fst done)).symm⟩
  | _ => exact absurd (congrArg Prod.fst done) (by simp [Json.getString, Except.map])

/-- So are the pages. -/
theorem same_pages (fuel : Nat) (args : Json) :
    Throwing.Keeps (Same world) (pages library env fuel args) := by
  induction fuel generalizing args with
  | zero => exact .fail _
  | succ fuel ih =>
    have list : Throwing.Keeps (Same world) (run library env "session_list" args) := by
      rintro _ ⟨readings, rfl⟩
      rw [run_sessionList]
      exact ⟨_, rfl⟩
    unfold pages
    refine list.bind fun page => ?_
    refine .lift_bind fun value _ => .lift_bind fun rows _ => .lift_bind fun after _ => ?_
    refine .ite (.pure _) ?_
    exact .lift_bind fun next _ => (ih next).bind fun _ => .pure _

/-- The search of the latest capsule changes nothing. -/
theorem same_latestCapsule (key : Json) :
    Throwing.Keeps (Same world) (latestCapsule library env key) := by
  have rows : Throwing.Keeps (Same world) (capsuleRows library env key) := fun _ same =>
    same_pages _ _ _ same
  exact rows.bind fun _ => .lift _

/-- Nor does the comparison. -/
theorem same_compare (library : Library) (env : Env) (args cap bound : Json)
    (own : Nat → Except Thrown Bool) :
    Throwing.Keeps (Same world) (compare library env args cap bound own) := by
  unfold compare
  refine .lift_bind fun previous _ => .lift_bind fun number _ => .guard fun _ => ?_
  refine (same_latestCapsule cap).bind fun old => .lift_bind fun latest _ => ?_
  cases args.find "expected_revision" with
  | none => exact .fail _
  | some expected => exact .ite (.fail _) (.lift_bind fun fits _ => .ite (.fail _) (.pure _))

/-- The caller knows the latest revision. -/
def Expects (args : Json) (latest : Nat) : Prop :=
  ∃ expected ∈ args.find "expected_revision", expected.same (.int latest) = true

/-- The revision of the latest capsule of a key is the number of its capsules. -/
theorem revision_lastOf (kept : Kept library world) (key : Key) :
    revision ((lastOf world key).getD (.object [])) = .ok (count world key) := by
  cases final : lastOf world key with
  | none =>
    have nothing : MaxRegister.ofKey keyOf key world.accepted = [] :=
      List.getLast?_eq_none_iff.mp final
    rw [count, nothing]
    rfl
  | some last =>
    have accepted := (List.mem_filter.mp (List.mem_of_getLast? final)).1
    rw [Option.getD_some, (kept.checked last accepted).revision_eq]
    exact congrArg Except.ok (kept.exact.revision_last final)

/-- A comparison that returns: the session holds no other key, the caller knows the number of
capsules of this key, and it is returned. -/
theorem compare_ok (kept : Kept library world) {args cap bound : Json}
    {own : Nat → Except Thrown Bool} {latest : Nat} {next : World} (stable : Stable cap)
    (done : compare library env args cap bound own world = (.ok latest, next)) :
    latest = count world (keyOf cap) ∧ Expects args latest ∧
      ∃ previous number, handoff library bound = .ok previous ∧ version previous = .ok number ∧
        ¬(number = 2 ∧ capsuleKey previous ≠ capsuleKey cap) := by
  obtain ⟨readings, searched⟩ := latestCapsule_eq env kept stable
  unfold compare at done
  obtain ⟨previous, found, done⟩ := Throwing.of_lift done
  obtain ⟨number, read, done⟩ := Throwing.of_lift done
  obtain ⟨mine, done⟩ := Throwing.of_guard done
  obtain ⟨old, middle, ended, done⟩ := Throwing.of_bind done
  obtain ⟨last, _⟩ := Prod.mk.inj (searched.symm.trans ended)
  obtain ⟨_, greatest, done⟩ := Throwing.of_lift done
  rw [← Except.ok.inj last, revision_lastOf kept] at greatest
  obtain rfl := Except.ok.inj greatest
  have known : Expects args latest ∧ count world (keyOf cap) = latest := by
    unfold Expects
    cases expected : args.find "expected_revision" with
    | none =>
      rw [expected] at done
      exact absurd done Throwing.fail_ne
    | some value =>
      rw [expected] at done
      obtain ⟨fits, done⟩ := Throwing.of_check done
      obtain ⟨_, _, done⟩ := Throwing.of_lift done
      obtain ⟨_, done⟩ := Throwing.of_check done
      obtain rfl : count world (keyOf cap) = latest := Except.ok.inj (congrArg Prod.fst done)
      exact ⟨⟨value, rfl, by simpa using fits⟩, rfl⟩
  exact ⟨known.2.symm, known.1, previous, number, found, read, mine⟩

/-! ## Publishing -/

/-- A session holds a capsule whose key is another one with the same text. -/
def Collides (library : Library) (world : World) (cap : Json) : Prop :=
  ∃ old ∈ capsuleIn library (sessionRow world.ledger (str cap "session_id")),
    capsuleKey old = capsuleKey cap ∧ keyOf old ≠ keyOf cap

/-- A capsule may be put into a session: it is the next one of its key, and the session holds no
capsule of another key. -/
structure Next (library : Library) (world : World) (id : String) (cap : Json) : Prop where
  /-- Its fields. -/
  checked : Checked cap
  /-- Its revision. -/
  follows : revisionOf cap = count world (keyOf cap) + 1
  /-- The session. -/
  keeps : ∀ old, capsuleIn library (sessionRow world.ledger id) = some old → keyOf old = keyOf cap

/-- A checked capsule is the one in its row. -/
theorem capsuleIn_of_handoff {row cap : Json} (checked : Checked cap)
    (found : handoff library row = .ok cap) : capsuleIn library row = some cap := by
  simp only [capsuleIn, found, checked.version_eq]

/-- A transaction that binds a session with its next capsule. -/
theorem Kept.published (kept : Kept library world) {next : World} {id : String} {cap : Json}
    (valid : next.ledger.Valid library) (upgraded : Upgraded library next.ledger)
    (stamped : Stamped next.ledger) (accepted : next.accepted = world.accepted ++ [cap])
    (may : Next library world id cap)
    (own : handoff library (sessionRow next.ledger id) = .ok cap)
    (others : ∀ other, other ≠ id → sessionRow next.ledger other = sessionRow world.ledger other) :
    Kept library next := by
  have cells : (fun other => capsuleIn library (sessionRow next.ledger other)) =
      Function.update (fun other => capsuleIn library (sessionRow world.ledger other)) id
        (some cap) := by
    funext other
    by_cases here : other = id
    · subst here
      rw [Function.update_self, capsuleIn_of_handoff may.checked own]
    · rw [Function.update_of_ne here, others other here]
  refine ⟨valid, upgraded, stamped, fun other => ?_, ?_, ?_⟩
  · by_cases here : other = id
    · subst here
      exact ⟨cap, 2, own, may.checked.version_eq⟩
    · rw [others other here]
      exact kept.readable other
  · intro other inside
    rw [accepted, List.mem_append, List.mem_singleton] at inside
    cases inside with
    | inl before => exact kept.checked other before
    | inr same => exact same ▸ may.checked
  · rw [cells, accepted]
    exact kept.exact.write may.keeps may.follows

section Empty

variable (empty : library.parse "\x7b\x7d" = some (.object []))
include empty

/-- What a bind leaves: nothing has changed, or its session hands off the capsule that was
brought. -/
theorem bind_outcome (kept : Kept library world) {args : Json} {id : String}
    (read : idarg args "session_id" = .ok id)
    (ordered : ∀ added, args.find "metadata" = some added → Ordered added)
    (back : ∀ metadata ∈ (run library env "session_bind" args world).2.written,
      ReadsBack library metadata) :
    ((run library env "session_bind" args world).1 ≠ .ok (.bool true) ∧
        (run library env "session_bind" args world).2.ledger = world.ledger) ∨
      ((run library env "session_bind" args world).1 = .ok (.bool true) ∧
        ∃ old, handoff library (sessionRow world.ledger id) = .ok old ∧
          handoff library (sessionRow (run library env "session_bind" args world).2.ledger id) =
            .ok ((broughtHandoff args).getD old) ∧
          ∀ other, other ≠ id →
            sessionRow (run library env "session_bind" args world).2.ledger other =
              sessionRow world.ledger other) := by
  cases bind_ends kept.valid args (env.clock world.readings) (env.persist world.readings) with
  | inl same => exact .inl same
  | inr done =>
    obtain ⟨answer, changes, value, published⟩ := done
    obtain ⟨own, named, merged, others⟩ := bound_bind published
    obtain rfl : id = own := Except.ok.inj (read.symm.trans named)
    have new : ∀ metadata ∈ writes library world.ledger "session_bind" args,
        ReadsBack library metadata := fun metadata inside =>
      back metadata (List.mem_append_left _ inside)
    obtain ⟨old, before, handed⟩ := handoff_of_merged kept.valid empty
      (fun added there _ => ordered added there) new read merged
    exact .inr ⟨answer, old, before, handed, others⟩

/-- A session is bound with its next capsule. -/
theorem held_publish {args cap : Json} {id : String} (held : Held library world)
    (may : Kept library world → Next library world id cap)
    (read : idarg args "session_id" = .ok id) (brings : broughtHandoff args = some cap)
    (ordered : ∀ added, args.find "metadata" = some added → Ordered added) :
    Held library (publish library env args cap world).2 := by
  have before : (∀ metadata ∈ (run library env "session_bind" args world).2.written,
      ReadsBack library metadata) → Kept library world := fun back =>
    held fun metadata inside => back metadata (List.mem_append_right _ inside)
  have upgraded := fun kept : Kept library world => kept.upgraded.run kept.valid "session_bind" args
    (env.clock world.readings) (env.persist world.readings)
  have valid := fun kept : Kept library world => valid_run kept.valid "session_bind" args
    (env.clock world.readings) (env.persist world.readings)
  have stamped := fun kept : Kept library world => kept.stamped.run kept.valid "session_bind" args
    (env.clock world.readings) (env.persist world.readings) (by decide)
  -- Without an answer of true nothing has changed.
  have refused : (run library env "session_bind" args world).1 ≠ .ok (.bool true) →
      Held library (run library env "session_bind" args world).2 := by
    intro answer back
    have kept := before back
    cases bind_outcome empty kept read ordered back with
    | inl same =>
      refine kept.handed (valid kept) (upgraded kept) (stamped kept) rfl fun id => ?_
      rw [same.2]
    | inr done => exact absurd done.1 answer
  unfold publish
  refine Throwing.bind_cases (fun outcome => Held library outcome.2) ?_ ?_
  · intro thrown next ended
    rw [ended] at refused
    exact refused (by simp)
  · intro value next ended
    by_cases answer : value = .bool true
    · show Held library ((if value = .bool true then accept cap >>= fun _ => pure value
        else pure value : Program Json) next).2
      rw [if_pos answer]
      intro back
      have after : (run library env "session_bind" args world).2 = next := by rw [ended]
      have returned : (run library env "session_bind" args world).1 = .ok (.bool true) := by
        rw [ended, answer]
      subst after
      have kept := before back
      cases bind_outcome empty kept read ordered back with
      | inl same => exact absurd returned same.1
      | inr done =>
        obtain ⟨_, old, _, handed, others⟩ := done
        rw [brings] at handed
        exact kept.published (valid kept) (upgraded kept) (stamped kept) rfl
          (may kept) handed others
    · show Held library ((if value = .bool true then accept cap >>= fun _ => pure value
        else pure value : Program Json) next).2
      rw [if_neg answer]
      rw [ended] at refused
      exact refused fun same => answer (Except.ok.inj same)

/-- A session without a capsule of version 2 is bound with another such. -/
theorem held_unversioned {args cap : Json} {id : String} {number former : Int}
    (held : Held library world) (read : idarg args "session_id" = .ok id)
    (brings : broughtHandoff args = some cap) (unversioned : version cap = .ok number)
    (other : number ≠ 2)
    (ordered : ∀ added, args.find "metadata" = some added → Ordered added)
    (bound : (handoff library (sessionRow world.ledger id) >>= version) = .ok former)
    (old_other : former ≠ 2) :
    Held library (run library env "session_bind" args world).2 := by
  intro back
  have kept : Kept library world :=
    held fun metadata inside => back metadata (List.mem_append_right _ inside)
  have upgraded := kept.upgraded.run kept.valid "session_bind" args
    (env.clock world.readings) (env.persist world.readings)
  have valid := valid_run kept.valid "session_bind" args
    (env.clock world.readings) (env.persist world.readings)
  have stamped := kept.stamped.run kept.valid "session_bind" args
    (env.clock world.readings) (env.persist world.readings) (by decide)
  cases bind_outcome empty kept read ordered back with
  | inl same =>
    refine kept.handed valid upgraded stamped rfl fun id => ?_
    rw [same.2]
  | inr done =>
    obtain ⟨_, old, before, handed, others⟩ := done
    rw [brings, Option.getD_some] at handed
    have none_of : ∀ {row cap : Json} {number : Int}, handoff library row = .ok cap →
        version cap = .ok number → number ≠ 2 → capsuleIn library row = none := by
      intro row cap number found read other
      simp only [capsuleIn, found, read]
      split
      · rename_i equal
        exact absurd (Except.ok.inj equal) other
      · rfl
    have cells : (fun other => capsuleIn library
        (sessionRow (run library env "session_bind" args world).2.ledger other)) =
        fun other => capsuleIn library (sessionRow world.ledger other) := by
      funext session
      by_cases here : session = id
      · subst here
        rw [before] at bound
        rw [none_of handed unversioned other, none_of before bound old_other]
      · rw [others session here]
    refine ⟨valid, upgraded, stamped, fun session => ?_, kept.checked, ?_⟩
    · by_cases here : session = id
      · subst here
        exact ⟨cap, number, handed, unversioned⟩
      · have row := others session here
        rw [row]
        exact kept.readable session
    · rw [cells]
      exact kept.exact

end Empty

/-! ## The two writers -/

/-- The capsule that a save asks for, with the facts of its project. -/
def asked (env : Env) (world : World) (args : Json) : Except Thrown Json := do
  let input ← args.at "capsule"
  let project ← input.valueString "project_dir" ""
  fillFacts (gitIdentity (env.files world.readings) project)
    ["repository", "code_head", "stream_id"]
    input

/-- A text that is read with a fallback. -/
theorem str_of_valueString {json : Json} {field text : String}
    (read : json.valueString field "" = .ok text) : str json field = text := by
  cases json with
  | obj fields =>
    simp only [Json.valueString, Json.valueWith] at read
    simp only [str, Json.find]
    cases found : Assoc.lookup field fields with
    | none =>
      rw [found] at read
      exact Except.ok.inj read
    | some value =>
      rw [found] at read
      cases value with
      | str own => exact Except.ok.inj read
      | _ => contradiction
  | _ => contradiction

/-- A capsule that was compared with its session is the next one of its key. -/
theorem next_of_compare (kept : Kept library world) {args input cap : Json}
    {own : Nat → Except Thrown Bool} {latest : Nat} {before next last : World} {now : Rat}
    (stable : Stable input) (apart : ¬Collides library world input) (first : Same world before)
    (done : compare library env args input (sessionRow world.ledger (str input "session_id")) own
      before = (.ok latest, next))
    (made : capsuleV2 library input (latest + 1) now = .ok cap) (second : Same world last) :
    Next library last (str input "session_id") cap := by
  obtain ⟨_, rfl⟩ := first
  obtain ⟨_, rfl⟩ := second
  obtain ⟨greatest, _, previous, number, found, read, mine⟩ :=
    compare_ok (kept.same ⟨_, rfl⟩) stable done
  have key := keyOf_capsuleV2 made stable
  refine ⟨checked_capsuleV2 made stable, ?_, fun old inside => ?_⟩
  · obtain ⟨_, revision, _⟩ := capsuleV2_find made
    have same : count world (keyOf cap) = latest := by
      rw [key]
      exact greatest.symm
    show revisionOf cap = count world (keyOf cap) + 1
    rw [revisionOf, revision, same]
    exact Int.toNat_natCast (latest + 1)
  · have handed := handoff_of_capsuleIn inside
    obtain rfl := Except.ok.inj (found.symm.trans handed)
    have two := (kept.checked previous (kept.exact.logged _ previous inside)).version_eq
    obtain rfl := Except.ok.inj (read.symm.trans two)
    have same : capsuleKey previous = capsuleKey input := by
      by_contra other
      exact mine ⟨rfl, other⟩
    rw [key]
    by_contra other
    exact apart ⟨previous, inside, same, other⟩

/-- The capsule that arguments bring is that of their metadata. -/
theorem broughtHandoff_eq {args metadata : Json}
    (read : args.valueJson "metadata" (.object []) = .ok metadata) :
    broughtHandoff args = metadata.find "handoff" ∧
      (metadata.find "handoff" ≠ none → args.find "metadata" = some metadata) := by
  cases args with
  | obj fields =>
    simp only [Json.valueJson, Json.valueWith] at read
    simp only [broughtHandoff, Json.find]
    cases found : Assoc.lookup "metadata" fields with
    | none =>
      rw [found] at read
      obtain rfl := Except.ok.inj read
      exact ⟨rfl, fun brings => absurd rfl brings⟩
    | some value =>
      rw [found] at read
      obtain rfl := Except.ok.inj read
      exact ⟨rfl, fun _ => rfl⟩
  | _ => contradiction

/-- The session that arguments name, read in two ways. -/
theorem eq_str_of_at {args value : Json} {text : String}
    (read : args.valueString "session_id" "" = .ok text)
    (there : args.at "session_id" = .ok value) :
    value = .str text := by
  have found := Json.find_of_at there
  cases args with
  | obj fields =>
    simp only [Json.find] at found
    simp only [Json.valueString, Json.valueWith, found] at read
    cases value with
    | str own => rw [Except.ok.inj read]
    | _ => contradiction
  | _ => contradiction

/-- Ordered objects stay so. -/
theorem ordered_set {json value result : Json} {key : String} (ordered : Ordered json)
    (done : json.set key value = .ok result) : Ordered result := by
  cases json with
  | obj fields =>
    obtain rfl := Except.ok.inj done
    exact Assoc.Sorted.assign ordered key value
  | null =>
    obtain rfl := Except.ok.inj done
    exact List.pairwise_singleton _ _
  | _ => contradiction

/-- A call that is refused: it throws, and the world was only read. -/
def Refused (world : World) (outcome : Except Thrown Json × World) : Prop :=
  (∃ thrown, outcome.1 = .error thrown) ∧ Same world outcome.2

/-- A writer that compares its capsule with the session and the latest one, and publishes it. -/
structure Swaps (library : Library) (env : Env) (world : World) (args input : Json)
    (after : World) : Prop where
  /-- What the comparison found, and what is published then. -/
  steps : ∃ own before latest next ts cap last bind, Same world before ∧
    compare library env args input (sessionRow world.ledger (str input "session_id")) own before =
      (.ok latest, next) ∧
    capsuleV2 library input (latest + 1) ts = .ok cap ∧ Same world last ∧
    idarg bind "session_id" = .ok (str input "session_id") ∧ broughtHandoff bind = some cap ∧
    (∀ added, bind.find "metadata" = some added → Ordered added) ∧
    after = (publish library env bind cap last).2

/-- How a save ends. -/
theorem capsuleSave_cases (library : Library) (env : Env) (world : World) (args : Json) :
    Refused world (capsuleSave library env args world) ∨
      ∃ input, asked env world args = .ok input ∧
        Swaps library env world args input (capsuleSave library env args world).2 := by
  let post : Except Thrown Json × World → Prop := fun outcome =>
    Refused world outcome ∨ ∃ input, asked env world args = .ok input ∧
      Swaps library env world args input outcome.2
  have failed : ∀ {thrown next}, Same world next → post (.error thrown, next) :=
    fun same => .inl ⟨⟨_, rfl⟩, same⟩
  show post (capsuleSave library env args world)
  have start : Same world world := ⟨_, rfl⟩
  unfold capsuleSave
  refine Throwing.lift_cases post (fun _ _ => failed start) fun start there => ?_
  refine Throwing.lift_cases post (fun _ _ => failed ⟨_, rfl⟩) fun project located => ?_
  refine Throwing.bind_cases post (fun _ _ ended => ?_) fun facts first ended => ?_
  · simp [identity, outside] at ended
  obtain ⟨facts_eq, first_eq⟩ := Prod.mk.inj ended
  obtain rfl := Except.ok.inj facts_eq
  have same : Same world first := ⟨_, first_eq.symm⟩
  refine Throwing.lift_cases post (fun _ _ => failed same) fun input filled => ?_
  have asks : asked env world args = .ok input := by
    simp only [asked, there, located, filled, bind, Except.bind]
  refine Throwing.lift_cases post (fun _ _ => failed same) fun id read => ?_
  obtain rfl := str_of_valueString read
  -- The session.
  have gotten := same_sessionGet library env
    (.str (str input "session_id")) _ same
  refine Throwing.bind_cases post (fun _ _ ended => ?_) fun bound second ended => ?_
  · rw [ended] at gotten
    exact failed gotten
  rw [ended] at gotten
  obtain ⟨_, named, rfl⟩ := sessionGet_ok same ended
  obtain rfl := Json.str.inj named
  -- The comparison.
  have compared := same_compare library env args input
    (sessionRow world.ledger (str input "session_id")) (fun _ => .ok true) _ gotten
  refine Throwing.bind_cases post (fun _ _ done => ?_) fun latest third done => ?_
  · rw [done] at compared
    exact failed compared
  rw [done] at compared
  refine Throwing.bind_cases post (fun _ _ ended => ?_) fun ts fourth ended => ?_
  · simp [now, outside] at ended
  have last : Same world fourth := by
    have timed := same_outside (fun reading => .ok (env.clock reading) : Nat → Except Thrown Rat) _
      compared
    rwa [show outside _ third = _ from ended] at timed
  refine Throwing.lift_cases post (fun _ _ => failed last) fun cap made => ?_
  refine Throwing.lift_cases post (fun _ _ => failed last) fun value at_id => ?_
  refine Throwing.lift_cases post (fun _ _ => failed last) fun sid text => ?_
  refine Throwing.guard_cases post (failed last) fun _ => ?_
  refine Throwing.lift_cases post (fun _ _ => failed last) fun directory _ => ?_
  obtain rfl : str input "session_id" = sid := by
    obtain ⟨_, _, _, texts⟩ := capsuleV2_find made
    have found := Json.find_of_at at_id
    rw [texts "session_id" (by decide), Option.some.injEq] at found
    subst found
    exact Except.ok.inj text
  -- The bind.
  have swaps : Swaps library env world args input (publish library env (.object
      [("session_id", .str (str input "session_id")), ("project_dir", directory),
        ("metadata", .object [("handoff", cap)])]) cap fourth).2 := by
    refine ⟨_, second, latest, third, ts, cap, fourth, _, gotten, done, made, last, ?_, ?_, ?_, rfl⟩
    · have found : (Json.object [("session_id", .str (str input "session_id")),
          ("project_dir", directory), ("metadata", .object [("handoff", cap)])]).find "session_id" =
          some (.str (str input "session_id")) := by
        simp [Json.find_object, Assoc.lookup]
      simp only [idarg, Json.at_of_find found]
      rfl
    · simp [broughtHandoff, Json.find_object, Assoc.lookup]
    · intro added found
      simp [Json.find_object, Assoc.lookup] at found
      rw [← found]
      exact List.pairwise_singleton _ _
  refine Throwing.bind_cases post (fun _ next ended => ?_) fun _ next ended => ?_
  · rw [ended] at swaps
    exact .inr ⟨input, asks, swaps⟩
  · rw [ended] at swaps
    exact .inr ⟨input, asks, swaps⟩

/-- How a bind with a capsule of version 2 ends. -/
theorem sessionBind_cases (library : Library) (env : Env) (world : World) {args cap : Json}
    (ordered : ∀ metadata, args.find "metadata" = some metadata → Ordered metadata)
    (brings : broughtHandoff args = some cap) (two : version cap = .ok 2) :
    Refused world (sessionBind library env args world) ∨
      Swaps library env world args cap (sessionBind library env args world).2 := by
  let post : Except Thrown Json × World → Prop := fun outcome =>
    Refused world outcome ∨ Swaps library env world args cap outcome.2
  have failed : ∀ {thrown next}, Same world next → post (.error thrown, next) :=
    fun same => .inl ⟨⟨_, rfl⟩, same⟩
  show post (sessionBind library env args world)
  have start : Same world world := ⟨_, rfl⟩
  unfold sessionBind
  refine Throwing.lift_cases post (fun _ _ => failed start) fun metadata there => ?_
  obtain ⟨same, own⟩ := broughtHandoff_eq there
  rw [brings] at same
  have args_metadata := own (by simp [← same])
  rw [← same]
  refine Throwing.lift_cases post (fun _ _ => failed start) fun number read => ?_
  obtain rfl := Except.ok.inj (two.symm.trans read)
  show post ((if (2 : Int) = 2 then _ else _ : Program Json) world)
  rw [if_pos rfl]
  refine Throwing.lift_cases post (fun _ _ => failed start) fun mine first => ?_
  refine Throwing.lift_cases post (fun _ _ => failed start) fun named second => ?_
  refine Throwing.guard_cases post (failed start) fun same_session => ?_
  refine Throwing.lift_cases post (fun _ _ => failed start) fun value at_id => ?_
  obtain rfl := eq_str_of_at second at_id
  obtain rfl := str_of_valueString first
  obtain rfl : str cap "session_id" = named := by simpa using same_session
  -- The session.
  have gotten := same_sessionGet library env
    (.str (str cap "session_id")) world start
  refine Throwing.bind_cases post (fun _ _ ended => ?_) fun bound middle ended => ?_
  · rw [ended] at gotten
    exact failed gotten
  rw [ended] at gotten
  obtain ⟨_, named, rfl⟩ := sessionGet_ok start ended
  obtain rfl := Json.str.inj named
  -- The comparison.
  have compared := same_compare library env args cap
    (sessionRow world.ledger (str cap "session_id"))
    (fun latest => do return (← cap.at "revision").same (.int (latest + 1))) _ gotten
  refine Throwing.bind_cases post (fun _ _ done => ?_) fun latest last done => ?_
  · rw [done] at compared
    exact failed compared
  rw [done] at compared
  refine Throwing.lift_cases post (fun _ _ => failed compared) fun saved _ => ?_
  refine Throwing.lift_cases post (fun _ _ => failed compared) fun ts _ => ?_
  refine Throwing.lift_cases post (fun _ _ => failed compared) fun checked made => ?_
  refine Throwing.lift_cases post (fun _ _ => failed compared) fun marked inner => ?_
  refine Throwing.lift_cases post (fun _ _ => failed compared) fun bind outer => ?_
  -- The bind.
  have metadata_set : bind.find "metadata" = some marked := by
    rw [Json.find_set outer, if_pos rfl]
  refine .inr ⟨_, middle, latest, last, ts, checked, last, bind, gotten, done, made, compared, ?_,
    ?_, ?_, rfl⟩
  · have session : bind.find "session_id" = some (.str (str cap "session_id")) := by
      rw [Json.find_set outer, if_neg (by decide), Json.find_of_at at_id]
    simp only [idarg, Json.at_of_find session]
    rfl
  · rw [broughtHandoff, metadata_set, Option.bind_some, Json.find_set inner, if_pos rfl]
  · intro added there
    obtain rfl := Option.some.inj (metadata_set.symm.trans there)
    exact ordered_set (ordered metadata args_metadata) inner

section Empty

variable (empty : library.parse "\x7b\x7d" = some (.object []))
include empty

/-- A writer keeps the capsules of the sessions and puts the next one of its key. -/
theorem Swaps.held {args input : Json} {after : World}
    (swaps : Swaps library env world args input after) (held : Held library world)
    (stable : Stable input) (apart : ¬Collides library world input) : Held library after := by
  obtain ⟨own, before, latest, next, ts, cap, last, bind, first, done, made, second, read, brings,
    ordered, rfl⟩ := swaps.steps
  exact held_publish empty (held.same second)
    (fun kept => next_of_compare (kept.same second.symm) stable apart first done made second) read
    brings ordered

/-- A save. -/
theorem held_capsuleSave {args : Json} (held : Held library world)
    (fit : ∀ cap, asked env world args = .ok cap → Stable cap ∧ ¬Collides library world cap) :
    Held library (capsuleSave library env args world).2 := by
  cases capsuleSave_cases library env world args with
  | inl refused => exact held.same refused.2
  | inr swaps =>
    obtain ⟨input, asks, swaps⟩ := swaps
    obtain ⟨stable, apart⟩ := fit input asks
    exact swaps.held empty held stable apart

/-- A bind. -/
theorem held_sessionBind {args : Json} (held : Held library world)
    (ordered : ∀ metadata, args.find "metadata" = some metadata → Ordered metadata)
    (fit : ∀ cap, broughtHandoff args = some cap → version cap = .ok 2 →
      Stable cap ∧ ¬Collides library world cap) :
    Held library (sessionBind library env args world).2 := by
  have start : Same world world := ⟨_, rfl⟩
  let post : Except Thrown Json × World → Prop := fun outcome => Held library outcome.2
  cases brings : broughtHandoff args with
  | none =>
    unfold sessionBind
    refine Throwing.lift_cases post (fun _ _ => held) fun metadata there => ?_
    rw [(broughtHandoff_eq there).1] at brings
    rw [brings]
    refine held_run empty (by decide) (fun _ => ?_) world held
    rw [(broughtHandoff_eq there).1, brings]
  | some cap =>
    by_cases two : version cap = .ok 2
    · obtain ⟨stable, apart⟩ := fit cap brings two
      cases sessionBind_cases library env world ordered brings two with
      | inl refused => exact held.same refused.2
      | inr swaps => exact swaps.held empty held stable apart
    · unfold sessionBind
      refine Throwing.lift_cases post (fun _ _ => held) fun metadata there => ?_
      have found := brings
      rw [(broughtHandoff_eq there).1] at found
      rw [found]
      refine Throwing.lift_cases post (fun _ _ => held) fun number read => ?_
      have other : number ≠ 2 := fun same => two (same ▸ read)
      show post ((if number = 2 then _ else _ : Program Json) world)
      rw [if_neg other]
      refine Throwing.lift_cases post (fun _ _ => held) fun value at_id => ?_
      have gotten := same_sessionGet library env value world start
      refine Throwing.bind_cases post (fun _ _ ended => ?_) fun bound middle ended => ?_
      · rw [ended] at gotten
        exact held.same gotten
      rw [ended] at gotten
      obtain ⟨id, rfl, rfl⟩ := sessionGet_ok start ended
      refine Throwing.lift_cases post (fun _ _ => held.same gotten) fun previous handed => ?_
      refine Throwing.lift_cases post (fun _ _ => held.same gotten) fun former read_old => ?_
      refine Throwing.guard_cases post (held.same gotten) fun old_other => ?_
      obtain ⟨_, rfl⟩ := gotten
      refine @held_unversioned _ _ _ empty args _ id _ former (held.same ⟨_, rfl⟩) ?_ brings
        read other ordered ?_ old_other
      · simp only [idarg, at_id]
        rfl
      · show (handoff library (sessionRow world.ledger id) >>= version) = _
        rw [handed]
        exact read_old

end Empty

/-! ## All calls -/

/-- Whether a capsule has version 2. -/
def isVersion2 (cap : Json) : Bool :=
  match version cap with
  | .ok number => number = 2
  | .error _ => false

/-- The capsule of version 2 that a call offers. -/
def offered (env : Env) (world : World) (call : Call) : Option Json :=
  match call.op with
  | "capsule_save" => (asked env world call.args).toOption
  | "session_bind" => (broughtHandoff call.args).filter isVersion2
  | _ => none

/-- The calls that are received: none imports, their metadata are ordered, and the repositories of
capsules are canonical. -/
structure Received (env : Env) (world : World) (call : Call) : Prop where
  /-- No import. -/
  local_ : call.op ≠ "import"
  /-- The objects of the JSON library are ordered. -/
  ordered : ∀ metadata ∈ call.args.find "metadata", Ordered metadata
  /-- The repository. -/
  stable : ∀ cap ∈ offered env world call, Stable cap

/-- No capsule comes to a session that holds one of another key with the same text. -/
structure Distinct (library : Library) (env : Env) (world : World) (call : Call) : Prop extends
    Received env world call where
  /-- The keys. -/
  apart : ∀ cap ∈ offered env world call, ¬Collides library world cap

section Empty

variable (empty : library.parse "\x7b\x7d" = some (.object []))
include empty

omit empty in
/-- The search of the latest capsule. -/
theorem held_latestCapsule (key : Json) :
    Throwing.Keeps (Held library) (latestCapsule library env key) :=
  fun _ held => held.same (same_latestCapsule key _ ⟨_, rfl⟩)

/-- The preparation of a handoff. -/
theorem held_hookHandoffPrepare (args : Json) :
    Throwing.Keeps (Held library) (hookHandoffPrepare library env args) := by
  unfold hookHandoffPrepare
  refine .lift_bind fun next _ => ?_
  have rest : ∀ session thread : Json, Throwing.Keeps (Held library) (do
      let key ← identity env (← args.valueString "project_dir" "")
      let key ← key.set "session_id" (← args.at "session_id")
      let old ← latestCapsule library env key
      env.prepare args session thread old (← now env) : Program Json) := by
    intro session thread
    refine .lift_bind fun project _ => (held_outside _).bind fun key => ?_
    refine .lift_bind fun id _ => .lift_bind fun key _ => ?_
    exact (held_latestCapsule key).bind fun old => (held_outside _).bind fun ts => .lift _
  refine .ite ?_ ?_
  · refine .lift_bind fun id _ => ?_
    refine (held_other empty (by decide) (by decide)).bind fun session => ?_
    refine .ite ?_ ?_
    · exact (Throwing.Keeps.pure _).bind fun ⟨session, thread⟩ => rest session thread
    · refine (held_other empty (by decide) (by decide)).bind fun thread => ?_
      exact (Throwing.Keeps.pure _).bind fun ⟨session, thread⟩ => rest session thread
  · exact (Throwing.Keeps.pure _).bind fun ⟨session, thread⟩ => rest session thread

/-- A call keeps the capsules of the sessions. -/
theorem held_step {call : Call} (held : Held library world)
    (distinct : Distinct library env world call) :
    Held library (toolLedgerOp library env call world).2 := by
  obtain ⟨⟨local_, ordered, stable⟩, apart⟩ := distinct
  obtain ⟨op, args⟩ := call
  unfold toolLedgerOp
  let post : Except Thrown Json × World → Prop := fun outcome => Held library outcome.2
  refine Throwing.guard_cases post held fun _ => ?_
  dsimp only [post] at local_ ordered ⊢
  split
  · exact held_sessionTouch empty args world held
  · exact held_streamHandoff empty args world held
  · exact held_streamClaim empty args world held
  · exact held_streamRelease empty args world held
  · exact held_streamList empty args world held
  · refine held_capsuleSave empty held fun cap asks => ?_
    have offers : cap ∈ offered env world ⟨"capsule_save", args⟩ := by
      simp only [offered, asks, Except.toOption, Option.mem_def]
    exact ⟨stable cap offers, apart cap offers⟩
  · refine held_sessionBind empty held ordered fun cap brings two => ?_
    have offers : cap ∈ offered env world ⟨"session_bind", args⟩ := by
      simp [offered, brings, isVersion2, two]
    exact ⟨stable cap offers, apart cap offers⟩
  · exact held_hookHandoffPrepare empty args world held
  · rename_i op touch handoff claim release list save bind prepare
    exact held_other empty local_ bind world held

/-- Every run keeps the capsules of the sessions. -/
theorem held_reached (reached : (machine library env).Reaches (Distinct library env) world) :
    Held library world := by
  refine reached.invariant held_initial fun world call next held distinct taken => ?_
  obtain rfl := Option.some.inj taken
  exact held_step empty held distinct

end Empty

/-! ## Compare and swap -/

/-- The capsules of every key are compared and swapped. -/
structure Compared (library : Library) (env : Env) (world : World) : Prop where
  /-- The capsules that were accepted for a key have the revisions one, two and so on. -/
  numbered : ∀ key, (MaxRegister.ofKey keyOf key world.accepted).map revisionOf =
    List.range' 1 (count world key)
  /-- A capsule whose writer does not know the latest revision is refused. -/
  refuses : ∀ call, Received env world call → ∀ cap ∈ offered env world call,
    ¬Expects call.args (count world (keyOf cap)) →
      Refused world (toolLedgerOp library env call world)
  /-- The latest capsule of a key is the last one that was accepted for it. -/
  latest : ∀ key, Stable key → ∃ readings, latestCapsule library env key world =
    (.ok ((lastOf world (keyOf key)).getD (.object [])), { world with readings })

/-- A writer that does not know the latest revision does not get to publish. -/
theorem Swaps.expects {args input : Json} {after : World} (kept : Kept library world)
    (swaps : Swaps library env world args input after) (stable : Stable input) :
    Expects args (count world (keyOf input)) := by
  obtain ⟨own, before, latest, next, ts, cap, last, bind, first, done, _⟩ := swaps.steps
  obtain ⟨greatest, expects, _⟩ := compare_ok (kept.same first) stable done
  obtain ⟨_, rfl⟩ := first
  rw [greatest] at expects
  exact expects

/-- The calls that offer a capsule. -/
theorem offered_cases {call : Call} {cap : Json} (offers : cap ∈ offered env world call) :
    (call.op = "capsule_save" ∧ asked env world call.args = .ok cap) ∨
      call.op = "session_bind" ∧ broughtHandoff call.args = some cap ∧ version cap = .ok 2 := by
  unfold offered at offers
  split at offers
  · rename_i named
    refine .inl ⟨named, ?_⟩
    cases asks : asked env world call.args with
    | ok input =>
      rw [asks] at offers
      rw [Option.some.inj offers]
    | error thrown =>
      rw [asks] at offers
      contradiction
  · rename_i named
    obtain ⟨brings, two⟩ := Option.filter_eq_some_iff.mp offers
    refine .inr ⟨named, brings, ?_⟩
    unfold isVersion2 at two
    split at two
    · rename_i number read
      rw [read, of_decide_eq_true two]
    · contradiction
  · contradiction

/-- A call whose writer does not know the latest revision is refused. -/
theorem refused_call (kept : Kept library world) {call : Call} {cap : Json}
    (received : Received env world call) (offers : cap ∈ offered env world call)
    (unaware : ¬Expects call.args (count world (keyOf cap))) :
    Refused world (toolLedgerOp library env call world) := by
  have canonical := received.stable cap offers
  have ordered := received.ordered
  unfold toolLedgerOp
  refine Throwing.guard_cases (Refused world) ⟨⟨_, rfl⟩, _, rfl⟩ fun _ => ?_
  obtain ⟨named, asks⟩ | ⟨named, brings, two⟩ := offered_cases offers
  · simp only [named]
    cases capsuleSave_cases library env world call.args with
    | inl refused => exact refused
    | inr swaps =>
      obtain ⟨input, asked, swaps⟩ := swaps
      obtain rfl := Except.ok.inj (asks.symm.trans asked)
      exact absurd (swaps.expects kept canonical) unaware
  · simp only [named]
    cases sessionBind_cases library env world ordered brings
        two with
    | inl refused => exact refused
    | inr swaps => exact absurd (swaps.expects kept canonical) unaware

/-- As long as no capsule comes to a session that holds one of another key with the same text, the
capsules of every key are compared and swapped. -/
theorem capsules_compared (empty : library.parse "\x7b\x7d" = some (.object []))
    (reached : (machine library env).Reaches (Distinct library env) world)
    (back : ∀ metadata ∈ world.written, ReadsBack library metadata) :
    Compared library env world := by
  have kept := held_reached empty reached back
  exact ⟨kept.exact.numbered, fun call received cap offers unaware =>
    refused_call kept received offers unaware, fun key stable => latestCapsule_eq env kept stable⟩

/-! ## A repository with a line break -/

mutual

/-- A JSON value with the line breaks of its texts escaped. -/
def escaped : Json → Json
  | .str text =>
    .str (String.ofList (text.toList.flatMap fun c => if c = '\n' then ['\\', 'n'] else [c]))
  | .arr items => .arr (escapedItems items)
  | .obj fields => .obj (escapedFields fields)
  | other => other

/-- The items of an array. -/
def escapedItems : List Json → List Json
  | [] => []
  | item :: rest => escaped item :: escapedItems rest

/-- The fields of an object. -/
def escapedFields : List (String × Json) → List (String × Json)
  | [] => []
  | (key, value) :: rest => (key, escaped value) :: escapedFields rest

end

/-- A capsule as it is saved, for a project and a stream, by a session. -/
def savedCapsule (project repository stream : String) (revision : Int) (ts : Rat) : Json :=
  .object
    [("version", .int 2), ("revision", .int revision), ("saved_at", .float ts),
      ("objective", .str ""), ("repository", .str repository), ("project_dir", .str project),
      ("session_id", .str "s"), ("stream_id", .str stream), ("branch", .str ""),
      ("code_head", .str ""), ("next_action", .str ""), ("state", .str "in_progress"),
      ("constraints", .arr []), ("dirty_paths", .arr []), ("blockers", .arr []),
      ("gates", .object []), ("jobs", .arr [])]

/-- The metadata that are read. -/
def knownMetadata : List Json :=
  [.object [], .object [("handoff", savedCapsule "/a" "/a/.git" "x/.git\nstream:s" 1 3)],
    .object [("handoff", savedCapsule "/a/.git\nstream:x" "/a/.git\nstream:x/.git" "s" 1 8)],
    .object [("handoff", savedCapsule "/a" "/a/.git" "x/.git\nstream:s" 2 8)]]

/-- Texts with escapes that read back. -/
def escapingLibrary : Library where
  parse text := knownMetadata.find? fun value => Ledger.plainText (escaped value) = text
  dump value := Ledger.plainText (escaped value)
  glob _ _ := false

/-- A world without files. -/
def bareEnv : Env where
  clock reading := reading
  persist _ _ := none
  files _ := ⟨fun _ => "", fun _ => []⟩
  tools _ := .ok .null
  prepare _ _ _ _ _ := .ok .null

/-- A save for a project and a stream. -/
def saveCall (project stream : String) (expected : Int) : Call where
  op := "capsule_save"
  args := .object
    [("capsule", .object [("session_id", .str "s"), ("project_dir", .str project),
      ("stream_id", .str stream)]), ("expected_revision", .int expected)]

/-- The world after a call. -/
def afterCall (world : World) (call : Call) : World :=
  (toolLedgerOp escapingLibrary bareEnv call world).2

/-- A call takes the world on; with the world and the call left open nothing is evaluated. -/
theorem step_afterCall (world : World) (call : Call) :
    (machine escapingLibrary bareEnv).step world call = some (afterCall world call) := rfl

/-- The world after one save. -/
def savedOnce : World :=
  afterCall (machine escapingLibrary bareEnv).initial (saveCall "/a" "x/.git\nstream:s" 0)

/-- The world after a second one, whose project has a line break in its path. -/
def savedTwice : World := afterCall savedOnce (saveCall "/a/.git\nstream:x" "s" 0)

/-- The world after another save for the first project. -/
def savedAgain : World := afterCall savedOnce (saveCall "/a" "x/.git\nstream:s" 1)

/-- A save is received when the repository of its capsule is canonical. -/
theorem received_save {project stream : String} {expected : Int}
    (canonical : (asked env world (saveCall project stream expected).args).toOption.all
      (fun cap => decide (Stable cap)) = true) :
    Received env world (saveCall project stream expected) where
  local_ := by simp [saveCall]
  ordered := by
    intro metadata there
    simp [saveCall, Json.find_object, Assoc.lookup] at there
  stable := by
    intro cap offers
    obtain ⟨_, asks⟩ | ⟨named, _⟩ := offered_cases offers
    · rw [asks] at canonical
      simpa only [Except.toOption, Option.all_some, decide_eq_true_eq] using canonical
    · simp [saveCall] at named

/-- What the saves ask for, what they bring, and what is found after them: the capsule of the first
key is found no more although it was accepted. -/
theorem saves_evaluated :
    let canonical (world : World) (call : Call) :=
      (asked bareEnv world call.args).toOption.all (fun cap => decide (Stable cap)) = true
    let again := saveCall "/a" "x/.git\nstream:s" 1
    let key := savedCapsule "/a" "/a/.git" "x/.git\nstream:s" 1 3
    canonical (machine escapingLibrary bareEnv).initial (saveCall "/a" "x/.git\nstream:s" 0) ∧
      canonical savedOnce (saveCall "/a/.git\nstream:x" "s" 0) ∧ canonical savedOnce again ∧
      (offered bareEnv savedOnce again).all (fun cap =>
        (capsuleIn escapingLibrary (sessionRow savedOnce.ledger (str cap "session_id"))).all
          fun old => decide (keyOf old = keyOf cap)) = true ∧
      (∀ metadata ∈ savedAgain.written, ReadsBack escapingLibrary metadata) ∧
      savedAgain.accepted.map revisionOf = [1, 2] ∧
      (∀ metadata ∈ savedTwice.written, ReadsBack escapingLibrary metadata) ∧ Stable key ∧
      (latestCapsule escapingLibrary bareEnv key savedTwice).1.toOption.any
        (fun cap => cap.find "version" = none) = true ∧
      (lastOf savedTwice (keyOf key)).any (fun cap => cap.find "version" ≠ none) = true := by
  decide +kernel

/-- Two capsules of a key are compared. -/
theorem capsules_compared_twice : Compared escapingLibrary bareEnv savedAgain ∧
    savedAgain.accepted.map revisionOf = [1, 2] := by
  obtain ⟨first, _, again, same, back, revisions, _⟩ := saves_evaluated
  have distinct : Distinct escapingLibrary bareEnv (machine escapingLibrary bareEnv).initial
      (saveCall "/a" "x/.git\nstream:s" 0) := by
    refine ⟨received_save first, fun cap _ collides => ?_⟩
    obtain ⟨old, inside, _⟩ := collides
    have nothing : capsuleIn escapingLibrary .null = none := rfl
    exact absurd (nothing.symm.trans inside) (by simp)
  have distinctAgain : Distinct escapingLibrary bareEnv savedOnce
      (saveCall "/a" "x/.git\nstream:s" 1) := by
    refine ⟨received_save again, fun cap offers collides => ?_⟩
    obtain ⟨old, inside, _, apart⟩ := collides
    rw [offers, Option.all_some, inside, Option.all_some, decide_eq_true_eq] at same
    exact apart same
  exact ⟨capsules_compared (by decide)
    (.step _ (.step _ .initial distinct (step_afterCall _ _)) distinctAgain (step_afterCall _ _))
    back, revisions⟩

/-- What is accepted last is found. -/
theorem Compared.not_lost (compared : Compared library env world) {key : Json}
    (stable : Stable key) (lost : (latestCapsule library env key world).1.toOption.any
      (fun cap => cap.find "version" = none) = true) :
    ¬(lastOf world (keyOf key)).any (fun cap => cap.find "version" ≠ none) = true := by
  intro accepted
  obtain ⟨readings, found⟩ := compared.latest key stable
  rw [found] at lost
  simp only [Except.toOption, Option.any_some, decide_eq_true_eq] at lost
  obtain ⟨cap, final, versioned⟩ := (Option.any_eq_true _ _).mp accepted
  rw [final, Option.getD_some] at lost
  simp only [ne_eq, decide_eq_true_eq] at versioned
  exact versioned lost

/-- A session takes the capsule of another key for its own when the texts of the keys agree: the
capsule that it held is lost. -/
theorem capsules_compared_refuted : ¬∀ library env world,
    library.parse "\x7b\x7d" = some (.object []) →
    (machine library env).Reaches (Received env) world →
    (∀ metadata ∈ world.written, ReadsBack library metadata) → Compared library env world := by
  intro claimed
  obtain ⟨first, second, _, _, _, _, back, stable, lost, accepted⟩ := saves_evaluated
  have reached : (machine escapingLibrary bareEnv).Reaches (Received bareEnv) savedTwice :=
    .step _ (.step _ .initial (received_save first) (step_afterCall _ _)) (received_save second)
      (step_afterCall _ _)
  have compared := claimed escapingLibrary bareEnv savedTwice (by decide) reached back
  exact compared.not_lost stable lost accepted

end Chitta.Gateway
