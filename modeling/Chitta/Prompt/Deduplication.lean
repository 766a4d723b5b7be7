import Chitta.Prompt.Selection
import Mathlib.Control.Monad.Basic
import Mathlib.Data.List.Infix

/-!
# Repeated rows in a session

A prompt is told the hashes of the rows that the earlier prompts of its session returned, and does
not admit them again. The rows of one prompt are not compared with each other: a row that two lanes
recalled is admitted twice when the lanes give it in the first three turns.
-/
namespace Chitta.Prompt

open Bytes Rotation

/-! ## The rows that stay -/

/-- A row is dropped because it shares no token with the query. -/
def lacksAnchor (settings : Settings) (lane : Lane) (line : Text) : Bool :=
  decide (lane = .sem) && decide (settings.qt ≠ []) &&
    decide ((settings.state.valueWith Json.getBool "anchor_enforce" false).toOption = some true) &&
    !shares settings.qt (tokens line) && decide (3 ≤ settings.qt.length) &&
    decide (settings.qt.length ≤ 50)

/-- The row of a line, if it passes the tests and no earlier prompt has returned its hash. -/
def eligible (env : Env) (settings : Settings) (line : Text) : Option Candidate := do
  let (lane, row) := splitLane line
  let conf ← (rowConfidence row).toOption
  let key ← (hash env row).toOption
  if (Regex.search confidencePattern line).isSome ∧ settings.negation = false ∧
      (screen settings lane row conf).toOption = some none ∧
      (settings.persist && seenBefore settings.seen key) = false ∧
      lacksAnchor settings lane row = false then
    some ⟨lane, row, key⟩
  else none

/-- The rows of a prompt that stay. -/
def eligibleRows (env : Env) (settings : Settings) : List Candidate :=
  (Lines.lines newline settings.memories).filterMap (eligible env settings)

/-- A row that stays has the hash of its text, and in a named session it is not repeated. -/
theorem eligible_spec {env : Env} {settings : Settings} {line : Text} {candidate : Candidate}
    (stays : eligible env settings line = some candidate) :
    hash env candidate.line = .ok candidate.key ∧
      (settings.persist = true → seenBefore settings.seen candidate.key = false) := by
  simp only [eligible, Option.bind_eq_bind, Option.bind_eq_some_iff,
    Option.ite_none_right_eq_some] at stays
  obtain ⟨conf, _, key, hashed, passed, made⟩ := stays
  obtain rfl := Option.some.inj made
  obtain ⟨_, _, _, fresh, _⟩ := passed
  constructor
  · cases answer : hash env (splitLane line).2 with
    | error thrown => simp [answer, Except.toOption] at hashed
    | ok other =>
      rw [answer] at hashed
      exact congrArg Except.ok (Option.some.inj hashed)
  · intro named
    simpa [named] using fresh

/-- What is done with a row and its hash. -/
theorem keep_candidates {settings : Settings} {rows next : Rows} {lane : Lane} {line : Text}
    {conf : Int} {key : String} (done : keep settings rows lane line conf key = .ok next) :
    next.candidates = rows.candidates ++
      if (settings.persist && seenBefore settings.seen key) = false ∧
        lacksAnchor settings lane line = false then [⟨lane, line, key⟩] else [] := by
  rw [keep] at done
  split at done
  · rename_i repeated
    obtain rfl := Except.ok.inj done
    simp [repeated, Rows.drop]
  · rename_i fresh
    have fresh : (settings.persist && seenBefore settings.seen key) = false := by simpa using fresh
    split at done
    · rename_i semantic
      by_cases sem : lane = .sem
      · simp only [sem, ↓reduceIte] at done
        obtain ⟨enforce, read, returned⟩ := bind_ok done
        obtain rfl := Except.ok.inj returned
        have anchored : lacksAnchor settings lane line =
            (enforce && !shares settings.qt (tokens line) && decide (3 ≤ settings.qt.length) &&
              decide (settings.qt.length ≤ 50)) := by
          simp [lacksAnchor, sem, semantic.2, read, Except.toOption]
        rw [anchored]
        split
        · rename_i lacking
          simp [lacking, Rows.drop]
        · rename_i shared
          simp [shared, fresh, sem, Rows.push]
      · simp only [sem, ↓reduceIte] at done
        obtain rfl := Except.ok.inj done
        simp [lacksAnchor, sem, fresh, Rows.push]
    · rename_i other
      obtain rfl := Except.ok.inj done
      have anchored : lacksAnchor settings lane line = false := by
        simp only [lacksAnchor]
        by_cases sem : lane = .sem
        · have empty : settings.qt = [] := by
            by_contra some_token
            exact other ⟨Or.inl sem, some_token⟩
          simp [empty]
        · simp [sem]
      simp [fresh, anchored, Rows.push]

/-- A line adds its row, if the row stays. -/
theorem admitLine_candidates {env : Env} {settings : Settings} {rows next : Rows} {line : Text}
    (done : admitLine env settings rows line = .ok next) :
    next.candidates = rows.candidates ++ (eligible env settings line).toList := by
  rw [admitLine] at done
  split at done
  · rename_i unmeasured
    obtain rfl := Except.ok.inj done
    simp [eligible, Option.isNone_iff_eq_none.mp unmeasured]
  · rename_i measured
    dsimp only at done
    split at done
    · rename_i negated
      obtain rfl := Except.ok.inj done
      simp [eligible, negated, Rows.drop]
    · rename_i affirmed
      obtain ⟨conf, confRead, afterConf⟩ := bind_ok done
      obtain ⟨debug, debugRead, afterDebug⟩ := bind_ok afterConf
      obtain ⟨verdict, screened, afterScreen⟩ := bind_ok afterDebug
      cases verdict with
      | some reason =>
        obtain rfl := Except.ok.inj afterScreen
        have dropped : eligible env settings line = none := by
          simp only [eligible, confRead, screened, Except.toOption, Option.bind_eq_bind,
            Option.bind_some]
          cases hash env (splitLane line).2 <;> simp
        rw [dropped]
        by_cases shown : debug = true
        · simp [shown, Rows.drop]
        · simp [shown, Rows.drop]
      | none =>
        obtain ⟨key, hashed, kept⟩ := bind_ok afterScreen
        have some_measured : (Regex.search confidencePattern line).isSome := by
          simpa [Option.isSome_iff_ne_none] using measured
        have stays : eligible env settings line =
            if (settings.persist && seenBefore settings.seen key) = false ∧
              lacksAnchor settings (splitLane line).1 (splitLane line).2 = false
            then some ⟨(splitLane line).1, (splitLane line).2, key⟩ else none := by
          simp [eligible, confRead, screened, hashed, Except.toOption, some_measured, affirmed]
        rw [keep_candidates kept, stays]
        have same : (if debug = true then { rows with
            debug := rows.debug ++ debugLine settings (splitLane line).1 (splitLane line).2 conf }
            else rows).candidates = rows.candidates := by
          split <;> rfl
        rw [same]
        split <;> simp

/-- The rows that may be admitted are those that stay, in the order of their lines. -/
theorem collect_candidates {env : Env} {settings : Settings} {rows : Rows}
    (collected : collect env settings = .ok rows) :
    rows.candidates = eligibleRows env settings := by
  have each : ∀ (texts : List Text) (before after : Rows),
      texts.foldlM (admitLine env settings) before = .ok after →
      after.candidates = before.candidates ++ texts.filterMap (eligible env settings) := by
    intro texts
    induction texts with
    | nil =>
      intro before after done
      obtain rfl := Except.ok.inj done
      simp
    | cons line rest ih =>
      intro before after done
      rw [List.foldlM_cons] at done
      obtain ⟨middle, first, later⟩ := bind_ok done
      rw [ih middle after later, admitLine_candidates first, List.filterMap_cons]
      cases eligible env settings line <;> simp
  exact each _ {} rows collected

/-! ## Sessions -/

/-- `admit` for a prompt whose session has returned hashes before. -/
def admitNext (env : Env) (hashes : List String) (state : Json) : Except Thrown Admission := do
  let told ← state.set "seen_hashes" (.str (String.join hashes))
  admitPrompt env told

/-- The prompts of a session: what each of them admits. One that throws admits nothing. -/
def runPrompts (env : Env) : List String → List Json → List Admission
  | _, [] => []
  | hashes, state :: states =>
    match admitNext env hashes state with
    | .error _ => runPrompts env hashes states
    | .ok admission => admission :: runPrompts env (hashes ++ admission.hashes) states

/-- The rows that a session has admitted. -/
def admittedRows (admissions : List Admission) : List Candidate := admissions.flatMap (·.chosen)

/-- The rows of a prompt that stay give the lanes three turns without a repetition. -/
def TurnsDistinct (env : Env) (hashes : List String) (state : Json) : Prop :=
  ∀ told settings, state.set "seen_hashes" (.str (String.join hashes)) = .ok told →
    readSettings told = .ok settings →
    (((rotation Candidate.lane turnLanes (eligibleRows env settings)).take maxAdmitted).map
      fun candidate => hash env candidate.line).Nodup

/-- No two rows with a confidence that a prompt brings have one hash. -/
def RowsDistinct (env : Env) (state : Json) : Prop :=
  ∀ memories, state.valueString "memories" "" = .ok memories →
    (((Lines.lines newline (utf8 memories)).filter fun line =>
        (Regex.search confidencePattern line).isSome).map fun line =>
      hash env (splitLane line).2).Nodup

/-- Every prompt of a session that returns has distinct turns. -/
def SessionDistinct (env : Env) : List String → List Json → Prop
  | _, [] => True
  | hashes, state :: states =>
    match admitNext env hashes state with
    | .error _ => SessionDistinct env hashes states
    | .ok admission =>
      TurnsDistinct env hashes state ∧ SessionDistinct env (hashes ++ admission.hashes) states

/-- A hash is found among the joined hashes it is one of. -/
theorem seenBefore_join {hashes : List String} {key : String} (returned : key ∈ hashes) :
    seenBefore (String.join hashes) key = true := by
  obtain ⟨earlier, later, rfl⟩ := List.append_of_mem returned
  simp only [seenBefore, decide_eq_true_eq]
  refine ⟨earlier.flatMap String.toList, later.flatMap String.toList, ?_⟩
  simp [String.toList_join]

/-- The settings keep the state, and what they take from it for the repetitions. -/
theorem readSettings_seen {state : Json} {settings : Settings}
    (read : readSettings state = .ok settings) :
    settings.state = state ∧ state.valueString "seen_hashes" "" = .ok settings.seen ∧
      state.valueString "session_id" "unknown" = .ok settings.sid ∧
      ∃ memories, state.valueString "memories" "" = .ok memories ∧
        settings.memories = utf8 memories := by
  rw [readSettings] at read
  obtain ⟨query, _, read⟩ := bind_ok read
  obtain ⟨qt, _, read⟩ := bind_ok read
  obtain ⟨distinct, _, read⟩ := bind_ok read
  obtain ⟨ctx, _, read⟩ := bind_ok read
  obtain ⟨seen, seenRead, read⟩ := bind_ok read
  obtain ⟨sid, sidRead, read⟩ := bind_ok read
  obtain ⟨percentage, _, read⟩ := bind_ok read
  dsimp only at read
  split at read <;>
  · obtain ⟨c2, _, read⟩ := bind_ok read
    obtain ⟨small, _, read⟩ := bind_ok read
    obtain ⟨silence, _, read⟩ := bind_ok read
    obtain ⟨memories, memoriesRead, read⟩ := bind_ok read
    obtain rfl := Except.ok.inj read
    exact ⟨rfl, seenRead, sidRead, memories, memoriesRead, rfl⟩

/-- A session with a name. -/
def Named (state : Json) : Prop :=
  ∃ sid, state.valueString "session_id" "unknown" = .ok sid ∧ sid ≠ "" ∧ sid ≠ "unknown"

/-- What a prompt of a named session admits, and the hashes it returns. -/
theorem admitNext_spec {env : Env} {hashes : List String} {state : Json} {admission : Admission}
    (named : Named state) (returned : admitNext env hashes state = .ok admission) :
    ∃ told settings, state.set "seen_hashes" (.str (String.join hashes)) = .ok told ∧
      readSettings told = .ok settings ∧ settings.persist = true ∧
      settings.seen = String.join hashes ∧
      admission.chosen =
        (rotation Candidate.lane turnLanes (eligibleRows env settings)).take maxAdmitted ∧
      admission.hashes = admission.chosen.map (·.key) := by
  obtain ⟨told, setHashes, admitted⟩ := bind_ok returned
  rw [admitPrompt] at admitted
  obtain ⟨settings, read, admitted⟩ := bind_ok admitted
  obtain ⟨rows, collected, admitted⟩ := bind_ok admitted
  obtain ⟨line, _, admitted⟩ := bind_ok admitted
  obtain ⟨time, _, admitted⟩ := bind_ok admitted
  obtain rfl := Except.ok.inj admitted
  obtain ⟨sid, sidRead, sidSome, sidKnown⟩ := named
  obtain ⟨_, seenRead, sidTold, _⟩ := readSettings_seen read
  have found := Json.find_set setHashes
  have seen : settings.seen = String.join hashes := by
    rw [Json.valueString, Json.valueWith_of_find (found "seen_hashes")] at seenRead
    exact (Except.ok.inj seenRead).symm
  have sameSid : told.valueString "session_id" "unknown" =
      state.valueString "session_id" "unknown" := by
    refine Json.valueWith_congr (Json.isObject_set setHashes)
      (Json.isObject_of_valueWith sidRead) ?_ _ _
    rw [found "session_id", if_neg (by decide)]
  have persist : settings.persist = true := by
    rw [sameSid, sidRead] at sidTold
    obtain rfl := Except.ok.inj sidTold
    simp [Settings.persist, sidSome, sidKnown]
  refine ⟨told, settings, setHashes, read, persist, seen, ?_, ?_⟩
  · rw [select_eq, collect_candidates collected]
  · simp [persist]

/-- The rows that a prompt of a named session admits were not returned before. -/
theorem admitNext_fresh {env : Env} {hashes : List String} {state : Json} {admission : Admission}
    (named : Named state) (returned : admitNext env hashes state = .ok admission)
    {candidate : Candidate} (chosen : candidate ∈ admission.chosen) :
    hash env candidate.line = .ok candidate.key ∧ candidate.key ∉ hashes := by
  obtain ⟨told, settings, _, _, persist, seen, choice, _⟩ := admitNext_spec named returned
  rw [choice] at chosen
  have stays := mem_of_mem_rotation (List.mem_of_mem_take chosen)
  obtain ⟨line, _, passed⟩ := List.mem_filterMap.mp stays
  obtain ⟨hashed, fresh⟩ := eligible_spec passed
  refine ⟨hashed, fun before => ?_⟩
  have repeated := seenBefore_join before
  rw [← seen, fresh persist] at repeated
  contradiction

/-- The rows that a session admits were not returned before it. -/
theorem runPrompts_fresh {env : Env} {hashes : List String} {states : List Json}
    (named : ∀ state ∈ states, Named state) {candidate : Candidate}
    (admitted : candidate ∈ admittedRows (runPrompts env hashes states)) :
    hash env candidate.line = .ok candidate.key ∧ candidate.key ∉ hashes := by
  induction states generalizing hashes with
  | nil => simp [runPrompts, admittedRows] at admitted
  | cons state states ih =>
    have first := named state List.mem_cons_self
    have others := fun other inside => named other (List.mem_cons_of_mem _ inside)
    rw [runPrompts] at admitted
    split at admitted
    · exact ih others admitted
    · rename_i admission returned
      simp only [admittedRows, List.flatMap_cons, List.mem_append] at admitted
      rcases admitted with now | later
      · exact admitNext_fresh first returned now
      · obtain ⟨hashed, fresh⟩ := ih others later
        exact ⟨hashed, fun before => fresh (List.mem_append_left _ before)⟩

/-- The turns of a prompt of a named session that returns are what it admits. -/
theorem turnsDistinct_iff {env : Env} {hashes : List String} {state : Json} {admission : Admission}
    (named : Named state) (returned : admitNext env hashes state = .ok admission) :
    TurnsDistinct env hashes state ↔
      (admission.chosen.map fun candidate => hash env candidate.line).Nodup := by
  obtain ⟨told, settings, setHashes, read, _, _, choice, _⟩ := admitNext_spec named returned
  rw [choice]
  constructor
  · intro distinct
    exact distinct told settings setHashes read
  · intro distinct other others setOther readOther
    obtain rfl := Except.ok.inj (setHashes.symm.trans setOther)
    obtain rfl := Except.ok.inj (read.symm.trans readOther)
    exact distinct

/-- A named session that has returned hashes goes on without a repetition if and only if each of
its prompts has distinct turns. -/
theorem nodup_runPrompts_iff {env : Env} {hashes : List String} {states : List Json}
    (named : ∀ state ∈ states, Named state) :
    ((admittedRows (runPrompts env hashes states)).map
      fun candidate => hash env candidate.line).Nodup ↔ SessionDistinct env hashes states := by
  induction states generalizing hashes with
  | nil => simp [runPrompts, admittedRows, SessionDistinct]
  | cons state states ih =>
    have first := named state List.mem_cons_self
    have others := fun other inside => named other (List.mem_cons_of_mem _ inside)
    rw [runPrompts, SessionDistinct]
    split
    · exact ih others
    · rename_i admission returned
      obtain ⟨_, _, _, _, _, _, _, returnedHashes⟩ := admitNext_spec first returned
      -- a later row was compared with every hash of this prompt
      have apart : ∀ now ∈ admission.chosen,
          ∀ later ∈ admittedRows (runPrompts env (hashes ++ admission.hashes) states),
          hash env now.line ≠ hash env later.line := by
        intro now chosen later admitted same
        obtain ⟨hashedNow, _⟩ := admitNext_fresh first returned chosen
        obtain ⟨hashedLater, fresh⟩ := runPrompts_fresh others admitted
        rw [hashedNow, hashedLater] at same
        apply fresh
        rw [returnedHashes, ← Except.ok.inj same]
        exact List.mem_append_right _ (List.mem_map_of_mem chosen)
      rw [turnsDistinct_iff first returned, ← ih others]
      simp only [admittedRows, List.flatMap_cons, List.map_append, List.nodup_append,
        List.mem_map, ne_eq] at apart ⊢
      constructor
      · rintro ⟨now, later, _⟩
        exact ⟨now, later⟩
      · rintro ⟨now, later⟩
        refine ⟨now, later, ?_⟩
        rintro _ ⟨one, chosen, rfl⟩ _ ⟨other, admitted, rfl⟩
        exact apart one chosen other admitted

/-- The rows of a prompt that stay are those of different lines with a confidence. -/
theorem sublist_eligibleRows (env : Env) (settings : Settings) :
    ((eligibleRows env settings).map fun candidate => hash env candidate.line).Sublist
      (((Lines.lines newline settings.memories).filter fun line =>
        (Regex.search confidencePattern line).isSome).map fun line =>
          hash env (splitLane line).2) := by
  rw [eligibleRows]
  induction Lines.lines newline settings.memories with
  | nil => exact .slnil
  | cons line rest ih =>
    cases stays : eligible env settings line with
    | none =>
      rw [List.filterMap_cons_none stays]
      exact ih.trans (((List.sublist_cons_self line rest).filter _).map _)
    | some candidate =>
      have steps := stays
      simp only [eligible, Option.bind_eq_bind, Option.bind_eq_some_iff,
        Option.ite_none_right_eq_some] at steps
      obtain ⟨_, _, _, _, passed, made⟩ := steps
      obtain rfl := Option.some.inj made
      rw [List.filterMap_cons_some stays, List.filter_cons, if_pos passed.1]
      exact ih.cons_cons _

/-- A session whose prompts bring rows with different hashes has distinct turns. -/
theorem SessionDistinct.of_rows {env : Env} {hashes : List String} {states : List Json}
    (named : ∀ state ∈ states, Named state) (apart : ∀ state ∈ states, RowsDistinct env state) :
    SessionDistinct env hashes states := by
  induction states generalizing hashes with
  | nil => trivial
  | cons state states ih =>
    have others (hashes : List String) : SessionDistinct env hashes states :=
      ih (fun other inside => named other (List.mem_cons_of_mem _ inside))
        fun other inside => apart other (List.mem_cons_of_mem _ inside)
    rw [SessionDistinct]
    split
    · exact others _
    · refine ⟨fun told settings setHashes read => ?_, others _⟩
      obtain ⟨sid, sidRead, _⟩ := named state List.mem_cons_self
      obtain ⟨_, _, _, memories, memoriesTold, brought⟩ := readSettings_seen read
      have same : told.valueString "memories" "" = state.valueString "memories" "" := by
        refine Json.valueWith_congr (Json.isObject_set setHashes)
          (Json.isObject_of_valueWith sidRead) ?_ _ _
        rw [Json.find_set setHashes, if_neg (by decide)]
      have lines := apart state List.mem_cons_self memories (same.symm.trans memoriesTold)
      rw [← brought] at lines
      have rows := lines.sublist (sublist_eligibleRows env settings)
      have turns : ((rotation Candidate.lane turnLanes (eligibleRows env settings)).map
          fun candidate => hash env candidate.line).Nodup :=
        nodup_rotation rows (by decide) mem_turnLanes
      exact turns.sublist ((List.take_sublist _ _).map _)

/-- No two rows that a named session admits have the same content hash if and only if in each of
its prompts the first three rows in the turns of the lanes have different hashes. So it is when no
prompt brings two rows with one hash. -/
theorem admitted_distinct_iff (env : Env) (states : List Json)
    (named : ∀ state ∈ states, Named state) :
    (((admittedRows (runPrompts env [] states)).map
      fun candidate => hash env candidate.line).Nodup ↔ SessionDistinct env [] states) ∧
      ((∀ state ∈ states, RowsDistinct env state) → SessionDistinct env [] states) :=
  ⟨nodup_runPrompts_iff named, .of_rows named⟩

/-- MD5 of the two rows below. -/
def sampleDigest (row : Text) : Option (Fin 16 → UInt8) :=
  let digest : List UInt8 :=
    if row = utf8 "#1 [90%] apricot" then
      [146, 18, 18, 139, 47, 1, 233, 169, 217, 116, 22, 171, 36, 202, 81, 191]
    else [30, 186, 32, 109, 237, 63, 153, 42, 41, 30, 117, 80, 227, 226, 143, 138]
  some fun index => digest.getD index 0

/-- The environment of the sample sessions. -/
def sampleEnv : Env := ⟨sampleDigest, fun _ => [], fun _ => []⟩

/-- A prompt of the sample session. -/
def samplePrompt (memories : String) : Json :=
  .object [("session_id", .str "fixture"), ("memories", .str memories)]

/-- The prompts of the sample session have a session with a name. -/
theorem samplePrompt_named (memories : String) : Named (samplePrompt memories) := by
  have found : (samplePrompt memories).find "session_id" = some (.str "fixture") := by
    rw [samplePrompt, Json.find_object]
    rfl
  refine ⟨"fixture", ?_, by decide, by decide⟩
  rw [Json.valueString, Json.valueWith_of_find found]
  rfl

/-- A row that comes back in the second prompt is admitted once. -/
theorem admitted_distinct_iff_returning :
    SessionDistinct sampleEnv []
      [samplePrompt "#1 [90%] apricot", samplePrompt "#1 [90%] apricot\n[kw]#2 [80%] pear"] := by
  refine (admitted_distinct_iff sampleEnv _ ?_).1.mp (by decide)
  simp only [List.mem_cons, List.not_mem_nil, or_false, forall_eq_or_imp, forall_eq]
  exact ⟨samplePrompt_named _, samplePrompt_named _⟩

/-- One row that two lanes recalled for the first prompt is admitted twice. -/
theorem two_lanes_repeat :
    ¬ ∀ (env : Env) (states : List Json), (∀ state ∈ states, Named state) →
      ((admittedRows (runPrompts env [] states)).map
        fun candidate => hash env candidate.line).Nodup := by
  intro claim
  have distinct := claim sampleEnv [samplePrompt "#1 [90%] apricot\n[kw]#1 [90%] apricot"]
    (by simpa using samplePrompt_named _)
  revert distinct
  decide

end Chitta.Prompt
