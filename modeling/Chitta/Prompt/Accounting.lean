import Chitta.Decimal
import Chitta.Prompt.Deduplication
import Mathlib.Data.List.TakeWhile

/-!
# The account of the rows

Every row with a marker is admitted or dropped for one reason, when `admit` returns. It throws on a
marker or a percentage that no `int` holds, on a field of another type where it is read, and when
there is no hash.
-/
namespace Chitta.Prompt

open Bytes Rotation Regex

/-! ## Fields -/

/-- A field that is there has the type that is read. -/
def Typed {α : Type} (get : Json → Except Thrown α) (state : Json) (key : String) : Prop :=
  ∀ value, state.find key = some value → Returns (get value)

/-- A field of an object is read when it has the type. -/
theorem returns_valueWith {α : Type} {state : Json} (object : state.isObject = true)
    (get : Json → Except Thrown α) (key : String) (fallback : α) :
    Returns (state.valueWith get key fallback) ↔ Typed get state key := by
  cases found : state.find key with
  | none =>
    rw [Json.valueWith_of_absent object found]
    constructor
    · intro _ value there
      rw [found] at there
      contradiction
    · intro _
      exact returns_ok fallback
  | some value =>
    rw [Json.valueWith_of_find found]
    constructor
    · intro returned other there
      rw [found] at there
      obtain rfl := Option.some.inj there
      exact returned
    · intro typed
      exact typed value found

/-- The fields that are read as texts before the rows. -/
def settingTexts : List String :=
  ["query", "query_tokens", "distinct_tokens", "context_tokens", "seen_hashes", "session_id",
    "c2_pct", "memories"]

/-- The fields that are read as truth values before the rows. -/
def settingFlags : List String := ["small_realm", "unknown_silence"]

/-- The settings of a state are there to be read. -/
structure SettingsRead (state : Json) : Prop where
  /-- The state has fields. -/
  object : state.isObject = true
  /-- The texts are texts. -/
  texts : ∀ key ∈ settingTexts, Typed Json.getString state key
  /-- The truth values are truth values. -/
  flags : ∀ key ∈ settingFlags, Typed Json.getBool state key
  /-- A percentage that is given begins with a number that an `int` holds. -/
  percentage : ∀ text, state.valueString "c2_pct" "" = .ok text → text ≠ "" →
    Returns (stoi (utf8 text))

/-- The settings are read when they are there to be read. -/
theorem returns_readSettings (state : Json) :
    Returns (readSettings state) ↔ SettingsRead state := by
  constructor
  · rintro ⟨settings, read⟩
    rw [readSettings] at read
    obtain ⟨query, queryRead, read⟩ := bind_ok read
    obtain ⟨qt, qtRead, read⟩ := bind_ok read
    obtain ⟨distinct, distinctRead, read⟩ := bind_ok read
    obtain ⟨ctx, ctxRead, read⟩ := bind_ok read
    obtain ⟨seen, seenRead, read⟩ := bind_ok read
    obtain ⟨sid, sidRead, read⟩ := bind_ok read
    obtain ⟨percentage, percentageRead, read⟩ := bind_ok read
    have tail : Returns (if percentage ≠ "" then stoi (utf8 percentage) else .ok 0) ∧
        Returns (state.valueWith Json.getBool "small_realm" false) ∧
        Returns (state.valueWith Json.getBool "unknown_silence" true) ∧
        Returns (state.valueString "memories" "") := by
      dsimp only at read
      split at read <;>
      · rename_i named
        obtain ⟨c2, c2Read, read⟩ := bind_ok read
        obtain ⟨small, smallRead, read⟩ := bind_ok read
        obtain ⟨silence, silenceRead, read⟩ := bind_ok read
        obtain ⟨memories, memoriesRead, _⟩ := bind_ok read
        exact ⟨⟨c2, by simpa [named] using c2Read⟩, ⟨small, smallRead⟩, ⟨silence, silenceRead⟩,
          ⟨memories, memoriesRead⟩⟩
    obtain ⟨number, ⟨small, smallRead⟩, ⟨silence, silenceRead⟩, ⟨memories, memoriesRead⟩⟩ := tail
    have object := Json.isObject_of_valueWith queryRead
    have typed {α : Type} {get : Json → Except Thrown α} {key : String} {fallback result : α}
        (done : state.valueWith get key fallback = .ok result) : Typed get state key :=
      (returns_valueWith object get key fallback).mp ⟨result, done⟩
    constructor
    · exact object
    · simp only [settingTexts, List.forall_mem_cons]
      exact ⟨typed queryRead, typed qtRead, typed distinctRead, typed ctxRead, typed seenRead,
        typed sidRead, typed percentageRead, typed memoriesRead, by simp⟩
    · simp only [settingFlags, List.forall_mem_cons]
      exact ⟨typed smallRead, typed silenceRead, by simp⟩
    · intro text given named
      obtain rfl := Except.ok.inj (percentageRead.symm.trans given)
      rw [if_pos named] at number
      exact number
  · intro readable
    have text (key fallback : String) (inside : key ∈ settingTexts) :
        Returns (state.valueString key fallback) :=
      (returns_valueWith readable.object _ key fallback).mpr (readable.texts key inside)
    have flag (key : String) (fallback : Bool) (inside : key ∈ settingFlags) :
        Returns (state.valueWith Json.getBool key fallback) :=
      (returns_valueWith readable.object _ key fallback).mpr (readable.flags key inside)
    obtain ⟨query, queryRead⟩ := text "query" "" (by decide)
    obtain ⟨qt, qtRead⟩ := text "query_tokens" "" (by decide)
    obtain ⟨distinct, distinctRead⟩ := text "distinct_tokens" "" (by decide)
    obtain ⟨ctx, ctxRead⟩ := text "context_tokens" "" (by decide)
    obtain ⟨seen, seenRead⟩ := text "seen_hashes" "" (by decide)
    obtain ⟨sid, sidRead⟩ := text "session_id" "unknown" (by decide)
    obtain ⟨percentage, percentageRead⟩ := text "c2_pct" "" (by decide)
    obtain ⟨small, smallRead⟩ := flag "small_realm" false (by decide)
    obtain ⟨silence, silenceRead⟩ := flag "unknown_silence" true (by decide)
    obtain ⟨memories, memoriesRead⟩ := text "memories" "" (by decide)
    have number : Returns (if percentage ≠ "" then stoi (utf8 percentage) else .ok 0) := by
      split
      · rename_i named
        exact readable.percentage percentage percentageRead named
      · exact returns_ok 0
    obtain ⟨c2, c2Read⟩ := number
    rw [readSettings]
    refine returns_bind.mpr ⟨query, queryRead, ?_⟩
    refine returns_bind.mpr ⟨qt, qtRead, ?_⟩
    refine returns_bind.mpr ⟨distinct, distinctRead, ?_⟩
    refine returns_bind.mpr ⟨ctx, ctxRead, ?_⟩
    refine returns_bind.mpr ⟨seen, seenRead, ?_⟩
    refine returns_bind.mpr ⟨sid, sidRead, ?_⟩
    refine returns_bind.mpr ⟨percentage, percentageRead, ?_⟩
    have tail (c2 : Int) : Returns (do
        let small ← state.valueWith Json.getBool "small_realm" false
        let silence ← state.valueWith Json.getBool "unknown_silence" true
        let memories ← state.valueString "memories" ""
        (pure {
          state
          qt := words (utf8 qt)
          distinct := words (utf8 distinct)
          ctx := words (utf8 ctx)
          seen
          sid
          measured := percentage ≠ ""
          c2
          small
          unknown := silence && decide (percentage ≠ "") && c2 < 81
          negation := (splitWords (utf8 query)).length ≤ 8 &&
            matchesText negationPattern (utf8 query)
          memories := utf8 memories } : Except Thrown Settings)) := by
      refine returns_bind.mpr ⟨small, smallRead, ?_⟩
      refine returns_bind.mpr ⟨silence, silenceRead, ?_⟩
      refine returns_bind.mpr ⟨memories, memoriesRead, ?_⟩
      exact returns_ok _
    dsimp only
    split
    · rename_i named
      rw [if_pos named] at c2Read
      exact returns_bind.mpr ⟨c2, c2Read, tail c2⟩
    · exact tail 0

/-! ## Markers -/

/-- A line has a marker. -/
def marked (line : Text) : Bool := (search confidencePattern line).isSome

/-- The number of the marker of a row. -/
def markNumber (row : Text) : Nat :=
  match search confidencePattern row with
  | some found => Decimal.value (groupText found.groups 1)
  | none => 0

/-- A row has a marker with a number that an `int` holds. -/
def Fits (row : Text) : Prop := marked row = true ∧ markNumber row ≤ 2147483647

/-- The group of a marker is made of digits. -/
theorem mark_digits {row : Text} {found : Found UInt8}
    (hit : search confidencePattern row = some found) :
    groupText found.groups 1 ≠ [] ∧
      ∀ byte ∈ groupText found.groups 1, isDigit byte = true := by
  obtain ⟨_, stop, moves, _, groups⟩ := searchFrom_found hit
  rw [confidencePattern] at moves
  obtain ⟨open_, first, moves⟩ := moves.all_cons
  obtain ⟨close, number, moves⟩ := moves.all_cons
  obtain ⟨after, part, within, passed, _, recorded⟩ := number.of_group
  obtain ⟨last, final, moves⟩ := moves.all_cons
  have kept : found.groups = close.groups := by
    have plain := final.literal.2
    cases moves
    rw [← groups, plain]
  have digits : (Pattern.more digit).Reads fun byte => isDigit byte = true :=
    ⟨fun _ passes => passes, fun _ passes => passes⟩
  obtain ⟨read, whole, all⟩ := within.reads digits
  have shorter := within.shorter rfl
  have same : read = part := List.append_cancel_right (whole.symm.trans passed)
  have text : groupText found.groups 1 = part := by
    rw [kept, recorded]
    rfl
  rw [text, ← same]
  constructor
  · intro empty
    rw [whole, empty, List.nil_append] at shorter
    exact Nat.lt_irrefl _ shorter
  · exact all

/-- The number of digits as `stoi` computes it. -/
theorem stoi_value {digits : Text} (each : ∀ byte ∈ digits, isDigit byte = true) (start : Nat) :
    digits.foldl (fun value byte => 10 * value + (byte.toNat - 48 : Int)) (start : Int) =
      (Horner.value 10 start (digits.map fun digit => digit.toNat - 48) : Nat) := by
  induction digits generalizing start with
  | nil => rfl
  | cons byte digits ih =>
    have digit := each byte List.mem_cons_self
    have low : 48 ≤ byte.toNat := by
      rw [isDigit, Bool.and_eq_true, decide_eq_true_eq, UInt8.le_iff_toNat_le] at digit
      exact digit.1
    have next : 10 * (start : Int) + (byte.toNat - 48 : Int) =
        ((10 * start + (byte.toNat - 48) : Nat) : Int) := by
      omega
    rw [List.foldl_cons, List.map_cons, Horner.value_cons, next]
    exact ih (fun other inside => each other (List.mem_cons_of_mem byte inside)) _

/-- Digits are read by `stoi` when an `int` holds their number. -/
theorem stoi_digits {digits : Text} (some_digit : digits ≠ [])
    (each : ∀ byte ∈ digits, isDigit byte = true) :
    stoi digits = if Decimal.value digits ≤ 2147483647 then .ok (Decimal.value digits : Int)
      else .error (.outOfRange "stoi") := by
  cases digits with
  | nil => contradiction
  | cons byte digits =>
    have digit := each byte List.mem_cons_self
    have all : ∀ byte : UInt8, isDigit byte = true →
        isSpace byte = false ∧ byte ≠ 43 ∧ byte ≠ 45 := every_byte (by decide)
    obtain ⟨visible, plus, minus⟩ := all byte digit
    have body : (byte :: digits).dropWhile isSpace = byte :: digits := by
      rw [List.dropWhile_cons, if_neg]
      simpa using visible
    have read : (byte :: digits).takeWhile isDigit = byte :: digits :=
      List.takeWhile_eq_self_iff.mpr each
    have size := stoi_value each 0
    have positive : (byte :: digits).head? ≠ some 45 := by
      simpa using minus
    rw [stoi]
    simp only [body]
    split
    · rename_i same
      exact absurd (List.cons.inj same).1 plus
    · rename_i same
      exact absurd (List.cons.inj same).1 minus
    · rw [read, if_neg (List.cons_ne_nil byte digits), if_neg positive]
      rw [Nat.cast_zero] at size
      rw [size, ← Decimal.value]
      by_cases small : Decimal.value (byte :: digits) ≤ 2147483647
      · rw [if_pos small, if_pos (by omega)]
      · rw [if_neg small, if_neg (by omega)]

/-- The confidence of a row is the number of its marker, if an `int` holds it. -/
theorem rowConfidence_iff {row : Text} {conf : Int} :
    rowConfidence row = .ok conf ↔ Fits row ∧ conf = markNumber row := by
  cases hit : search confidencePattern row with
  | none =>
    have absent : marked row = false := by simp [marked, hit]
    have failed : rowConfidence row = .error (.invalidArgument "stoi") := by
      rw [rowConfidence, hit]
      decide
    rw [failed]
    constructor
    · intro wrong
      contradiction
    · intro both
      have there := both.1.1
      rw [absent] at there
      exact absurd there Bool.false_ne_true
  | some found =>
    have there : marked row = true := by simp [marked, hit]
    have number : markNumber row = Decimal.value (groupText found.groups 1) := by
      rw [markNumber, hit]
    obtain ⟨some_digit, each⟩ := mark_digits hit
    have read : rowConfidence row = if markNumber row ≤ 2147483647 then .ok (markNumber row : Int)
        else .error (.outOfRange "stoi") := by
      rw [rowConfidence, hit, number]
      exact stoi_digits some_digit each
    rw [read]
    by_cases small : markNumber row ≤ 2147483647
    · rw [if_pos small]
      constructor
      · intro same
        exact ⟨⟨there, small⟩, (Except.ok.inj same).symm⟩
      · intro both
        rw [both.2]
    · rw [if_neg small]
      constructor
      · intro wrong
        contradiction
      · intro both
        exact absurd both.1.2 small

/-! ## The rows that are read -/

/-- How a row is read to its end. -/
inductive RowRead (env : Env) (settings : Settings) (lane : Lane) (row : Text) : Prop where
  /-- Its confidence is too low. -/
  | low (below : (markNumber row : Int) < leastConfidence lane)
  /-- The prompt is about something unknown. -/
  | silent (unknown : settings.unknown = true)
    (silenced : silenced settings lane (tokens row) = true)
  /-- It rests on a single token. -/
  | single (single : singleToken settings lane (markNumber row) = .ok true)
  /-- It is noise. -/
  | noise (read : Returns (singleToken settings lane (markNumber row)))
    (noise : isNoise row = true)
  /-- It has a hash, and what is asked about it can be read. -/
  | hashed (read : Returns (singleToken settings lane (markNumber row))) (key : String)
    (hashed : hash env row = .ok key)
    (anchor : (settings.persist && seenBefore settings.seen key) = true ∨
      (lane = .sem → settings.qt ≠ [] → Typed Json.getBool settings.state "anchor_enforce"))

/-- A line of the memories is read to its end: it has no marker, or the prompt is a terse negation,
or its number and its tests can be read. -/
def LineRead (env : Env) (settings : Settings) (line : Text) : Prop :=
  marked line = true → settings.negation = false →
    Fits (splitLane line).2 ∧ Typed Json.getBool settings.state "debug" ∧
      RowRead env settings (splitLane line).1 (splitLane line).2

/-- A hashed row is kept when what is asked about it can be read. -/
theorem returns_keep {settings : Settings} (object : settings.state.isObject = true) (rows : Rows)
    (lane : Lane) (line : Text) (conf : Int) (key : String) :
    Returns (keep settings rows lane line conf key) ↔
      ((settings.persist && seenBefore settings.seen key) = true ∨
        (lane = .sem → settings.qt ≠ [] →
          Typed Json.getBool settings.state "anchor_enforce")) := by
  rw [keep]
  by_cases repeated : (settings.persist && seenBefore settings.seen key) = true
  · rw [if_pos repeated]
    exact ⟨fun _ => Or.inl repeated, fun _ => returns_ok _⟩
  · rw [if_neg repeated]
    by_cases semantic : (lane = .sem ∨ lane = .ctx) ∧ settings.qt ≠ []
    · rw [if_pos semantic]
      by_cases sem : lane = .sem
      · simp only [sem, ↓reduceIte]
        rw [returns_bind]
        constructor
        · rintro ⟨enforce, read, _⟩
          right
          intro _ _
          exact (returns_valueWith object _ _ _).mp ⟨enforce, read⟩
        · intro asked
          have typed := (asked.resolve_left repeated) trivial semantic.2
          obtain ⟨enforce, read⟩ := (returns_valueWith object Json.getBool _ false).mpr typed
          exact ⟨enforce, read, returns_ok _⟩
      · simp only [sem, ↓reduceIte]
        exact ⟨fun _ => Or.inr fun wrong => wrong.elim, fun _ => returns_ok _⟩
    · rw [if_neg semantic]
      constructor
      · intro _
        right
        intro sem some_token
        exact absurd ⟨Or.inl sem, some_token⟩ semantic
      · intro _
        exact returns_ok _

/-- The tests of a row end when the row is read. -/
theorem returns_row {env : Env} {settings : Settings} (object : settings.state.isObject = true)
    (rows : Rows) (lane : Lane) (row : Text) :
    Returns (do
      match ← screen settings lane row (markNumber row) with
      | some reason => .ok (rows.drop reason)
      | none => do
        let key ← hash env row
        keep settings rows lane row (markNumber row) key) ↔ RowRead env settings lane row := by
  rw [screen]
  by_cases below : (markNumber row : Int) < leastConfidence lane
  · rw [if_pos below]
    exact ⟨fun _ => .low below, fun _ => returns_ok _⟩
  · rw [if_neg below]
    by_cases silent : (settings.unknown && silenced settings lane (tokens row)) = true
    · rw [if_pos silent]
      rw [Bool.and_eq_true] at silent
      exact ⟨fun _ => .silent silent.1 silent.2, fun _ => returns_ok _⟩
    · rw [if_neg silent]
      cases read : singleToken settings lane (markNumber row) with
      | error thrown =>
        constructor
        · intro wrong
          exact absurd wrong (not_returns_error thrown)
        · intro asked
          cases asked with
          | low low => exact absurd low below
          | silent unknown silenced => exact absurd (by rw [unknown, silenced]; rfl) silent
          | single single => exact absurd (read.symm.trans single) (by simp)
          | noise other => exact absurd (read ▸ other) (not_returns_error thrown)
          | hashed other => exact absurd (read ▸ other) (not_returns_error thrown)
      | ok single =>
        have returned : Returns (singleToken settings lane (markNumber row)) := ⟨single, read⟩
        cases single with
        | true => exact ⟨fun _ => .single read, fun _ => returns_ok _⟩
        | false =>
          by_cases noise : isNoise row = true
          · have dropped : (if isNoise row = true then some Reason.meta else none) = some .meta :=
              if_pos noise
            show Returns (match (if isNoise row = true then some Reason.meta else none) with
              | some reason => .ok (rows.drop reason)
              | none => hash env row >>= fun key =>
                keep settings rows lane row (markNumber row) key) ↔ _
            rw [dropped]
            exact ⟨fun _ => .noise returned noise, fun _ => returns_ok _⟩
          · have kept : (if isNoise row = true then some Reason.meta else none) = none :=
              if_neg noise
            show Returns (match (if isNoise row = true then some Reason.meta else none) with
              | some reason => .ok (rows.drop reason)
              | none => hash env row >>= fun key =>
                keep settings rows lane row (markNumber row) key) ↔ _
            rw [kept]
            simp only
            rw [returns_bind]
            constructor
            · rintro ⟨key, hashed, later⟩
              exact .hashed returned key hashed ((returns_keep object _ _ _ _ _).mp later)
            · intro asked
              cases asked with
              | low low => exact absurd low below
              | silent unknown silenced => exact absurd (by rw [unknown, silenced]; rfl) silent
              | single single => exact absurd (read.symm.trans single) (by simp)
              | noise _ there => exact absurd there noise
              | hashed _ key hashed anchor =>
                exact ⟨key, hashed, (returns_keep object _ _ _ _ _).mpr anchor⟩

/-- A line is admitted or dropped when it is read. -/
theorem returns_admitLine {env : Env} {settings : Settings}
    (object : settings.state.isObject = true) (rows : Rows) (line : Text) :
    Returns (admitLine env settings rows line) ↔ LineRead env settings line := by
  rw [admitLine, LineRead]
  cases there : marked line with
  | false =>
    have absent : (search confidencePattern line).isNone = true := by
      simpa [marked] using there
    rw [if_pos absent]
    exact ⟨fun _ wrong => absurd wrong Bool.false_ne_true, fun _ => returns_ok _⟩
  | true =>
    have present : ¬ (search confidencePattern line).isNone = true := by
      intro absent
      rw [marked, Option.isNone_iff_eq_none.mp absent] at there
      contradiction
    rw [if_neg present]
    simp only
    cases negated : settings.negation with
    | true => exact ⟨fun _ _ wrong => absurd wrong.symm Bool.false_ne_true, fun _ => returns_ok _⟩
    | false =>
      simp only [Bool.false_eq_true, ↓reduceIte, forall_true_left]
      rw [returns_bind]
      constructor
      · rintro ⟨conf, confRead, later⟩
        obtain ⟨fits, rfl⟩ := rowConfidence_iff.mp confRead
        obtain ⟨debug, debugRead, rest⟩ := returns_bind.mp later
        exact ⟨fits, (returns_valueWith object _ _ _).mp ⟨debug, debugRead⟩,
          (returns_row object _ _ _).mp rest⟩
      · rintro ⟨fits, typed, asked⟩
        obtain ⟨debug, debugRead⟩ := (returns_valueWith object Json.getBool _ false).mpr typed
        exact ⟨markNumber (splitLane line).2, rowConfidence_iff.mpr ⟨fits, rfl⟩,
          returns_bind.mpr ⟨debug, debugRead, (returns_row object _ _ _).mpr asked⟩⟩

/-! ## The counts -/

/-- A row that the tests drop is not dropped for the number of admitted rows. -/
theorem screen_reason {settings : Settings} {lane : Lane} {row : Text} {conf : Int}
    {reason : Reason} (screened : screen settings lane row conf = .ok (some reason)) :
    reason ≠ .cap := by
  rw [screen] at screened
  split at screened
  · obtain rfl := Option.some.inj (Except.ok.inj screened)
    decide
  · split at screened
    · obtain rfl := Option.some.inj (Except.ok.inj screened)
      decide
    · obtain ⟨single, _, screened⟩ := bind_ok screened
      have verdict := Except.ok.inj screened
      split at verdict
      · obtain rfl := Option.some.inj verdict
        decide
      · split at verdict
        · obtain rfl := Option.some.inj verdict
          decide
        · contradiction

/-- What is done with a hashed row. -/
theorem keep_cases {settings : Settings} {rows next : Rows} {lane : Lane} {line : Text}
    {conf : Int} {key : String} (done : keep settings rows lane line conf key = .ok next) :
    (∃ reason, reason ≠ .cap ∧ next.drops = rows.drops ++ [reason] ∧
        next.candidates = rows.candidates) ∨
      ∃ candidate, next.drops = rows.drops ∧ next.candidates = rows.candidates ++ [candidate] := by
  rw [keep] at done
  split at done
  · obtain rfl := Except.ok.inj done
    exact Or.inl ⟨.dup, by decide, rfl, rfl⟩
  · split at done
    · dsimp only at done
      split at done <;>
      · obtain ⟨enforce, _, done⟩ := bind_ok done
        obtain rfl := Except.ok.inj done
        split
        · exact Or.inl ⟨.meta, by decide, rfl, rfl⟩
        · exact Or.inr ⟨_, rfl, rfl⟩
    · obtain rfl := Except.ok.inj done
      exact Or.inr ⟨_, rfl, rfl⟩

/-- What a line does to the rows: nothing without a marker; else it is dropped for a reason that is
not the number of admitted rows, or it may be admitted. -/
theorem admitLine_cases {env : Env} {settings : Settings} {rows next : Rows} {line : Text}
    (done : admitLine env settings rows line = .ok next) :
    (marked line = false ∧ next.drops = rows.drops ∧ next.candidates = rows.candidates) ∨
      (marked line = true ∧ ∃ reason, reason ≠ .cap ∧ next.drops = rows.drops ++ [reason] ∧
        next.candidates = rows.candidates) ∨
      (marked line = true ∧ ∃ candidate, next.drops = rows.drops ∧
        next.candidates = rows.candidates ++ [candidate]) := by
  rw [admitLine] at done
  split at done
  · rename_i absent
    obtain rfl := Except.ok.inj done
    left
    exact ⟨by simpa [marked] using absent, rfl, rfl⟩
  · rename_i present
    have there : marked line = true := by
      simpa [marked, Option.isSome_iff_ne_none] using present
    right
    dsimp only at done
    split at done
    · obtain rfl := Except.ok.inj done
      left
      exact ⟨there, .unk, by decide, rfl, rfl⟩
    · obtain ⟨conf, _, done⟩ := bind_ok done
      obtain ⟨debug, _, done⟩ := bind_ok done
      generalize shown : (if debug = true then { rows with
        debug := rows.debug ++ debugLine settings (splitLane line).1 (splitLane line).2 conf }
        else rows) = noted at done
      have drops : noted.drops = rows.drops := by
        rw [← shown]
        split <;> rfl
      have candidates : noted.candidates = rows.candidates := by
        rw [← shown]
        split <;> rfl
      obtain ⟨verdict, screened, done⟩ := bind_ok done
      cases verdict with
      | some reason =>
        obtain rfl := Except.ok.inj done
        left
        refine ⟨there, reason, ?_, by rw [Rows.drop, drops], candidates⟩
        exact screen_reason screened
      | none =>
        obtain ⟨key, _, done⟩ := bind_ok done
        rw [← drops, ← candidates]
        exact (keep_cases done).imp (fun dropped => ⟨there, dropped⟩) fun kept => ⟨there, kept⟩

/-- The rows are collected when every line is read. -/
theorem returns_collect {env : Env} {settings : Settings}
    (object : settings.state.isObject = true) :
    Returns (collect env settings) ↔
      ∀ line ∈ Lines.lines newline settings.memories, LineRead env settings line :=
  returns_foldlM (returns_admitLine object) _ _

/-- Every line with a marker has left a reason or a row, and no reason is the number of rows. -/
theorem collect_counts {env : Env} {settings : Settings} {rows : Rows}
    (collected : collect env settings = .ok rows) :
    rows.drops.length + rows.candidates.length =
        (Lines.lines newline settings.memories).countP marked ∧ .cap ∉ rows.drops := by
  have each : ∀ (texts : List Text) (before after : Rows),
      texts.foldlM (admitLine env settings) before = .ok after → .cap ∉ before.drops →
      after.drops.length + after.candidates.length =
        before.drops.length + before.candidates.length + texts.countP marked ∧
          .cap ∉ after.drops := by
    intro texts
    induction texts with
    | nil =>
      intro before after done none_yet
      obtain rfl := Except.ok.inj done
      exact ⟨rfl, none_yet⟩
    | cons line rest ih =>
      intro before after done none_yet
      rw [List.foldlM_cons] at done
      obtain ⟨middle, first, later⟩ := bind_ok done
      rw [List.countP_cons]
      rcases admitLine_cases first with ⟨unmarked, drops, candidates⟩ |
        ⟨there, reason, other, drops, candidates⟩ | ⟨there, candidate, drops, candidates⟩
      · have inner := ih middle after later (drops ▸ none_yet)
        rw [drops, candidates] at inner
        rw [unmarked]
        exact inner
      · have none_here : Reason.cap ∉ middle.drops := by
          rw [drops, List.mem_append, List.mem_singleton]
          rintro (earlier | same)
          · exact none_yet earlier
          · exact other same.symm
        have inner := ih middle after later none_here
        rw [drops, candidates, List.length_append, List.length_singleton] at inner
        rw [there, if_pos rfl]
        exact ⟨by omega, inner.2⟩
      · have inner := ih middle after later (drops ▸ none_yet)
        rw [drops, candidates, List.length_append, List.length_singleton] at inner
        rw [there, if_pos rfl]
        exact ⟨by omega, inner.2⟩
  have whole := each _ {} rows collected List.not_mem_nil
  simpa using whole

/-- Every row is admitted for its lane. -/
theorem sum_lanes (chosen : List Candidate) :
    (allLanes.map fun lane => chosen.countP fun candidate => decide (candidate.lane = lane)).sum =
      chosen.length := by
  induction chosen with
  | nil => rfl
  | cons candidate chosen ih =>
    rw [List.length_cons, ← ih]
    simp only [allLanes, List.map_cons, List.map_nil, List.countP_cons, List.sum_cons, List.sum_nil]
    cases candidate.lane <;> simp only [reduceCtorEq, decide_true, decide_false, if_true, if_false,
      Bool.false_eq_true] <;> omega

/-- Every row is dropped for its reason. -/
theorem sum_reasons {drops : List Reason} (none_yet : .cap ∉ drops) (cut : Nat) :
    (allReasons.map fun reason => if reason = .cap then cut else drops.count reason).sum =
      drops.length + cut := by
  induction drops with
  | nil => simp [allReasons]
  | cons reason drops ih =>
    rw [List.mem_cons, not_or] at none_yet
    have inner := ih none_yet.2
    rw [List.length_cons]
    simp only [allReasons, List.map_cons, List.map_nil, List.count_cons, List.sum_cons,
      List.sum_nil, reduceCtorEq, if_false, if_true] at inner ⊢
    cases reason with
    | cap => exact absurd rfl none_yet.1
    | _ =>
      simp only [beq_iff_eq, reduceCtorEq, if_true, if_false]
      omega

/-- A round takes its rows out of those that are left. -/
theorem length_selectRound (count : Nat) (lanes : List Lane) (left : List Candidate) :
    (selectRound count lanes left).1.length + (selectRound count lanes left).2.length =
      left.length := by
  induction lanes generalizing count left with
  | nil => simp [selectRound]
  | cons lane lanes ih =>
    rw [selectRound]
    cases found : extract (fun candidate => decide (candidate.lane = lane)) left with
    | none => exact ih count left
    | some taken =>
      obtain ⟨candidate, others⟩ := taken
      have one := extract_length found
      have later := ih (count + 1) others
      simp only
      split
      · show 1 + others.length = left.length
        omega
      · show (selectRound (count + 1) lanes others).1.length + 1 +
          (selectRound (count + 1) lanes others).2.length = left.length
        omega

/-- No more rows are chosen than there are. -/
theorem length_select_le (candidates : List Candidate) :
    (select candidates).length ≤ candidates.length := by
  have each : ∀ (rounds count : Nat) (left : List Candidate),
      (selectFrom rounds count left).length ≤ left.length := by
    intro rounds
    induction rounds with
    | zero =>
      intro count left
      exact Nat.zero_le _
    | succ rounds ih =>
      intro count left
      have round := length_selectRound count turnLanes left
      rw [selectFrom]
      split
      · simp only
        split
        · exact Nat.zero_le _
        · have later := ih (count + (selectRound count turnLanes left).1.length)
            (selectRound count turnLanes left).2
          rw [List.length_append]
          omega
      · exact Nat.zero_le _
  exact each maxAdmitted 0 candidates

/-- At most three rows are chosen. -/
theorem length_select_le_three (candidates : List Candidate) : (select candidates).length ≤ 3 := by
  rw [select_eq, List.length_take]
  exact Nat.min_le_left _ _

/-- Every chosen row is the first of its lane that was not chosen before. -/
theorem select_split {candidates before after : List Candidate} {row : Candidate}
    (split : select candidates = before ++ row :: after) :
    (queue Candidate.lane candidates row.lane)[before.countP fun earlier =>
      decide (earlier.lane = row.lane)]? = some row := by
  rw [select_eq] at split
  have whole : rotation Candidate.lane turnLanes candidates =
      before ++ row :: (after ++
        (rotation Candidate.lane turnLanes candidates).drop maxAdmitted) := by
    have parts := List.take_append_drop maxAdmitted (rotation Candidate.lane turnLanes candidates)
    rw [split] at parts
    rw [← List.cons_append, ← List.append_assoc, parts]
  exact rotation_split whole (by decide) mem_turnLanes

/-! ## The block -/

/-- The line of the block for a row, without its break. -/
def blockText (row : Candidate) : Text :=
  utf8 ("[" ++ row.lane.name ++ "]") ++ prefixChars 150 row.line

/-- The first characters are a part of the text. -/
theorem prefixChars_sublist (count : Nat) (text : Text) :
    (prefixChars count text).Sublist text := by
  induction text generalizing count with
  | nil => exact List.Sublist.refl _
  | cons byte rest ih =>
    unfold prefixChars
    split
    · cases count with
      | zero => exact List.nil_sublist _
      | succ count => exact (ih count).cons_cons byte
    · exact (ih count).cons_cons byte

/-- A row without its lane has no line break. -/
theorem newline_not_mem_row {env : Env} {settings : Settings} {row : Candidate}
    (inside : row ∈ eligibleRows env settings) : newline ∉ row.line := by
  obtain ⟨line, there, passed⟩ := List.mem_filterMap.mp inside
  have clean := Lines.not_mem_lines settings.memories line there
  simp only [eligible, Option.bind_eq_bind, Option.bind_eq_some_iff,
    Option.ite_none_right_eq_some] at passed
  obtain ⟨_, _, _, _, _, made⟩ := passed
  obtain rfl := Option.some.inj made
  have part : (splitLane line).2.Sublist line := by
    rw [splitLane]
    split
    · exact List.drop_sublist _ _
    · exact List.Sublist.refl _
  intro broken
  exact clean (part.subset broken)

/-- The lines of the block are the texts of the rows. -/
theorem lines_block {rows : List Candidate} (clean : ∀ row ∈ rows, newline ∉ row.line) :
    Lines.lines newline (rows.flatMap blockLine) = rows.map blockText := by
  induction rows with
  | nil => rfl
  | cons row rows ih =>
    have others := ih fun other inside => clean other (List.mem_cons_of_mem row inside)
    have tag : newline ∉ utf8 ("[" ++ row.lane.name ++ "]") := by
      cases row.lane <;> decide
    have whole : newline ∉ blockText row := by
      rw [blockText, List.mem_append, not_or]
      refine ⟨tag, fun broken => ?_⟩
      exact clean row List.mem_cons_self ((prefixChars_sublist 150 row.line).subset broken)
    have first : (row :: rows).flatMap blockLine =
        blockText row ++ newline :: rows.flatMap blockLine := by
      rw [List.flatMap_cons, blockLine, ← blockText, List.append_assoc]
      rfl
    rw [first, Lines.lines_break whole, others, List.map_cons]

/-! ## The account -/

/-- The account of the rows in a result. -/
structure Accounts (env : Env) (settings : Settings) (admission : Admission) : Prop where
  /-- Every line with a marker is counted once. -/
  total : (allLanes.map admission.admitted).sum + (allReasons.map admission.dropped).sum =
    (Lines.lines newline settings.memories).countP marked
  /-- The admitted rows are counted by their lanes. -/
  admitted : ∀ lane, admission.admitted lane =
    admission.chosen.countP fun row => decide (row.lane = lane)
  /-- At most three rows are admitted. -/
  atMost : admission.chosen.length ≤ 3
  /-- An admitted row is the first one of its lane that was not admitted before. -/
  turns : ∀ before row after, admission.chosen = before ++ row :: after →
    (queue Candidate.lane (eligibleRows env settings) row.lane)[before.countP fun earlier =>
      decide (earlier.lane = row.lane)]? = some row
  /-- The block has the admitted rows and nothing else. -/
  block : Lines.lines newline admission.fusedBlock = admission.chosen.map blockText

/-- The times of the lanes are there to be read. -/
def TimesRead (state : Json) : Prop :=
  ∀ ms timeouts, state.valueJson "lane_ms" (.obj []) = .ok ms →
    state.valueJson "lane_timeout" (.obj []) = .ok timeouts →
    ∀ lane ∈ ["sem", "ctx", "hyb", "kw", "corr", "corrk", "xr"], (ms.find lane).isSome = true →
      timeouts.isObject = true ∧ Typed Json.getBool timeouts lane

/-- What `admit` reads of a state is there to be read. -/
structure Readable (env : Env) (state : Json) : Prop where
  /-- The settings. -/
  settings : SettingsRead state
  /-- The rows. -/
  rows : ∀ settings, readSettings state = .ok settings →
    ∀ line ∈ Lines.lines newline settings.memories, LineRead env settings line
  /-- What was ablated, when there are rows. -/
  ablated : ∀ settings, readSettings state = .ok settings →
    (∃ line ∈ Lines.lines newline settings.memories, marked line = true) →
      Typed Json.getString state "ablated"
  /-- The times. -/
  times : TimesRead state

/-- The times are read when they are there to be read. -/
theorem returns_timing (env : Env) {settings : Settings}
    (object : settings.state.isObject = true) :
    Returns (timing env settings) ↔ TimesRead settings.state := by
  have value (key : String) : Returns (settings.state.valueJson key (.obj [])) := by
    apply (returns_valueWith object _ _ _).mpr
    intro value _
    exact returns_ok value
  obtain ⟨ms, msRead⟩ := value "lane_ms"
  obtain ⟨timeouts, timeoutsRead⟩ := value "lane_timeout"
  have lanes : Returns (["sem", "ctx", "hyb", "kw", "corr", "corrk", "xr"].foldlM
      (timingLane env ms timeouts) []) ↔
      ∀ lane ∈ ["sem", "ctx", "hyb", "kw", "corr", "corrk", "xr"], (ms.find lane).isSome = true →
        timeouts.isObject = true ∧ Typed Json.getBool timeouts lane := by
    apply returns_foldlM
    intro text lane
    rw [timingLane]
    cases found : ms.find lane with
    | none => exact ⟨fun _ wrong => absurd wrong (by simp), fun _ => returns_ok text⟩
    | some time =>
      simp only [Option.isSome_some, forall_true_left]
      rw [returns_bind]
      constructor
      · rintro ⟨late, lateRead, _⟩
        have fields := Json.isObject_of_valueWith lateRead
        exact ⟨fields, (returns_valueWith fields _ _ _).mp ⟨late, lateRead⟩⟩
      · rintro ⟨fields, typed⟩
        obtain ⟨late, lateRead⟩ := (returns_valueWith fields Json.getBool lane false).mpr typed
        exact ⟨late, lateRead, returns_ok _⟩
  rw [timing, returns_bind]
  constructor
  · rintro ⟨one, oneRead, rest⟩ other others otherRead othersRead
    obtain ⟨two, twoRead, rest⟩ := returns_bind.mp rest
    obtain rfl := Except.ok.inj (oneRead.symm.trans msRead)
    obtain rfl := Except.ok.inj (twoRead.symm.trans timeoutsRead)
    obtain rfl := Except.ok.inj (oneRead.symm.trans otherRead)
    obtain rfl := Except.ok.inj (twoRead.symm.trans othersRead)
    exact lanes.mp rest
  · intro readable
    refine ⟨ms, msRead, returns_bind.mpr ⟨timeouts, timeoutsRead, ?_⟩⟩
    exact lanes.mpr (readable ms timeouts msRead timeoutsRead)

/-- Joined texts are empty when each of them is. -/
theorem join_eq_empty (texts : List String) :
    String.join texts = "" ↔ ∀ text ∈ texts, text = "" := by
  rw [← String.toList_inj, String.toList_join]
  simp

/-- A text of counts is empty when no count is positive. -/
theorem countTexts_eq_nil (counts : List (String × Nat)) :
    countTexts counts = [] ↔ ∀ count ∈ counts, count.2 = 0 := by
  have empty : ∀ text : String, utf8 text = [] ↔ text = "" := by
    intro text
    have none_there : utf8 "" = [] := rfl
    rw [← none_there]
    exact Utf8.utf8_injective.eq_iff
  rw [countTexts, empty, join_eq_empty]
  constructor
  · intro silent count inside
    by_contra positive
    have there : " " ++ count.1 ++ ":" ++ toString count.2 ∈
        (counts.filter fun count => 0 < count.2).map fun count =>
          " " ++ count.1 ++ ":" ++ toString count.2 := by
      apply List.mem_map_of_mem
      exact List.mem_filter.mpr ⟨inside, by simpa using Nat.pos_of_ne_zero positive⟩
    have gone := congrArg String.toList (silent _ there)
    simp at gone
  · intro zero text inside
    obtain ⟨count, there, _⟩ := List.mem_map.mp inside
    have kept := List.mem_filter.mp there
    have none_there := zero count kept.1
    have positive : 0 < count.2 := by simpa using kept.2
    omega

/-- The summary is written when what was ablated can be read, if anything is to be written. -/
theorem returns_summary (env : Env) {settings : Settings} (object : settings.state.isObject = true)
    (admitted : Lane → Nat) (dropped : Reason → Nat) (count : Nat) :
    Returns (summary env settings admitted dropped count) ↔
      (0 < count + (allReasons.map dropped).sum →
        Typed Json.getString settings.state "ablated") := by
  have counted : (0 < count ∨
      countTexts (allReasons.map fun reason => (reason.name, dropped reason)) ≠ []) ↔
        0 < count + (allReasons.map dropped).sum := by
    rw [ne_eq, countTexts_eq_nil]
    simp only [allReasons, List.map_cons, List.map_nil, List.forall_mem_cons, List.sum_cons,
      List.sum_nil, List.not_mem_nil, false_implies, implies_true, and_true]
    omega
  rw [summary]
  by_cases some_row : 0 < count + (allReasons.map dropped).sum
  · rw [if_pos (counted.mpr some_row), returns_bind]
    constructor
    · rintro ⟨text, read, _⟩ _
      exact (returns_valueWith object _ _ _).mp ⟨text, read⟩
    · intro typed
      obtain ⟨text, read⟩ :=
        (returns_valueWith object Json.getString "ablated" "").mpr (typed some_row)
      exact ⟨text, read, returns_ok _⟩
  · rw [if_neg fun some_text => some_row (counted.mp some_text)]
    exact ⟨fun _ positive => absurd positive some_row, fun _ => returns_ok _⟩

/-- `admit` returns when all that it reads is there to be read. -/
theorem returns_admitPrompt (env : Env) (state : Json) :
    Returns (admitPrompt env state) ↔ Readable env state := by
  have counted {settings : Settings} {rows : Rows} (collected : collect env settings = .ok rows) :
      (select rows.candidates).length + (allReasons.map fun reason =>
        if reason = .cap then rows.candidates.length - (select rows.candidates).length
        else rows.drops.count reason).sum =
          (Lines.lines newline settings.memories).countP marked := by
    obtain ⟨total, none_cap⟩ := collect_counts collected
    have fewer := length_select_le rows.candidates
    rw [sum_reasons none_cap]
    omega
  rw [admitPrompt, returns_bind]
  constructor
  · rintro ⟨settings, read, later⟩
    obtain ⟨same, _⟩ := readSettings_seen read
    have settingsRead := (returns_readSettings state).mp ⟨settings, read⟩
    have object : settings.state.isObject = true := same ▸ settingsRead.object
    have unique {other : Settings} (again : readSettings state = .ok other) : other = settings :=
      Except.ok.inj (again.symm.trans read)
    obtain ⟨rows, collected, later⟩ := returns_bind.mp later
    obtain ⟨line, summarised, later⟩ := returns_bind.mp later
    obtain ⟨time, timed, _⟩ := returns_bind.mp later
    constructor
    · exact settingsRead
    · intro other again
      rw [unique again]
      exact (returns_collect object).mp ⟨rows, collected⟩
    · intro other again some_row
      rw [unique again] at some_row
      have typed := (returns_summary env object _ _ _).mp ⟨line, summarised⟩
      rw [same] at typed
      apply typed
      rw [counted collected, List.countP_pos_iff]
      exact some_row
    · have times := (returns_timing env object).mp ⟨time, timed⟩
      rw [same] at times
      exact times
  · intro readable
    obtain ⟨settings, read⟩ := (returns_readSettings state).mpr readable.settings
    obtain ⟨same, _⟩ := readSettings_seen read
    have object : settings.state.isObject = true := same ▸ readable.settings.object
    obtain ⟨rows, collected⟩ := (returns_collect object).mpr (readable.rows settings read)
    have summarised := (returns_summary env object
      (fun lane => (select rows.candidates).countP fun row => decide (row.lane = lane))
      (fun reason => if reason = .cap then
        rows.candidates.length - (select rows.candidates).length else rows.drops.count reason)
      (select rows.candidates).length).mpr (by
        rw [counted collected, List.countP_pos_iff, same]
        exact readable.ablated settings read)
    obtain ⟨line, summarised⟩ := summarised
    obtain ⟨time, timed⟩ := (returns_timing env object).mpr (same ▸ readable.times)
    refine ⟨settings, read, returns_bind.mpr ⟨rows, collected, returns_bind.mpr ⟨line, summarised,
      returns_bind.mpr ⟨time, timed, returns_ok _⟩⟩⟩⟩

/-- A result accounts for the rows. -/
theorem accounts_admitPrompt {env : Env} {state : Json} {settings : Settings}
    {admission : Admission} (read : readSettings state = .ok settings)
    (returned : admitPrompt env state = .ok admission) : Accounts env settings admission := by
  rw [admitPrompt] at returned
  obtain ⟨other, again, returned⟩ := bind_ok returned
  obtain rfl := Except.ok.inj (again.symm.trans read)
  obtain ⟨rows, collected, returned⟩ := bind_ok returned
  obtain ⟨line, _, returned⟩ := bind_ok returned
  obtain ⟨time, _, returned⟩ := bind_ok returned
  obtain rfl := Except.ok.inj returned
  obtain ⟨total, none_cap⟩ := collect_counts collected
  have fewer := length_select_le rows.candidates
  have candidates := collect_candidates collected
  constructor
  · show (allLanes.map fun lane => (select rows.candidates).countP fun row =>
      decide (row.lane = lane)).sum + (allReasons.map fun reason => if reason = .cap then
        rows.candidates.length - (select rows.candidates).length
        else rows.drops.count reason).sum = _
    rw [sum_lanes, sum_reasons none_cap]
    omega
  · intro lane
    rfl
  · exact length_select_le_three rows.candidates
  · intro before row after split
    rw [← candidates]
    exact select_split split
  · apply lines_block
    intro row chosen
    have there : row ∈ rows.candidates := by
      have chosen : row ∈ select rows.candidates := chosen
      rw [select_eq] at chosen
      exact mem_of_mem_rotation (List.mem_of_mem_take chosen)
    rw [candidates] at there
    exact newline_not_mem_row there

/-- `admit` returns a result that accounts for the rows if and only if all that it reads is there to
be read. -/
theorem admit_accounts_iff (env : Env) (state : Json) :
    (∃ settings admission, readSettings state = .ok settings ∧
      admitPrompt env state = .ok admission ∧ Accounts env settings admission) ↔
        Readable env state := by
  constructor
  · rintro ⟨settings, admission, _, returned, _⟩
    exact (returns_admitPrompt env state).mp ⟨admission, returned⟩
  · intro readable
    obtain ⟨settings, read⟩ := (returns_readSettings state).mpr readable.settings
    obtain ⟨admission, returned⟩ := (returns_admitPrompt env state).mpr readable
    exact ⟨settings, admission, read, returned, accounts_admitPrompt read returned⟩

/-- A marker of eleven digits is thrown out of `admit`. -/
theorem long_marker_throws :
    ¬ ∀ (env : Env) (state : Json), ∃ settings admission, readSettings state = .ok settings ∧
      admitPrompt env state = .ok admission ∧ Accounts env settings admission := by
  intro claim
  obtain ⟨settings, admission, _, returned, _⟩ :=
    claim sampleEnv (samplePrompt "#1 [99999999999%] apricot")
  have thrown : (admitPrompt sampleEnv (samplePrompt "#1 [99999999999%] apricot")).toOption.isNone =
      true := by
    decide
  rw [returned] at thrown
  contradiction

end Chitta.Prompt
