import Chitta.Daemon.Reply

/-!
# What the loop of the daemon reads of a message

Before a message goes to a pool the loop reads its method, its tool and, for some tools, their
arguments, with accessors that throw on a value of another type. Nothing around the loop catches
such an exception. Whether one is thrown depends on the types of the fields that are read, and on
the process of the client, whose number is written into the arguments.
-/
namespace Chitta.Daemon

/-- The process of the client is written into arguments without a session. -/
def injectPid (peerPid : Int) (args : Json) : Except Thrown Json := do
  let missing ←
    if args.contains "session_id" then do
      let session ← args.field "session_id"
      let text ← session.getString
      pure text.isEmpty
    else pure true
  if missing && 1 < peerPid then args.set "pid" (.int peerPid) else return args

/-- The tool of a request, and the request with the process of the client. -/
def toolName (peerPid : Int) (parsed : Json) : Except Thrown (String × Json) := do
  let method ← parsed.valueString "method" "unknown"
  if method = "tools/call" && parsed.contains "params" then
    let params ← parsed.field "params"
    let tool ← params.valueString "name" "unknown"
    if params.contains "arguments" then
      let args ← params.field "arguments"
      let args ← injectPid peerPid args
      let params ← params.set "arguments" args
      let parsed ← parsed.set "params" params
      return (tool, parsed)
    return (tool, parsed)
  return (method, parsed)

/-- The arguments of a request. -/
def arguments (request : Json) : Option Json :=
  (request.find "params").bind fun params => params.find "arguments"

/-- An argument of a request. -/
def argument {α : Type} (get : Json → Except Thrown α) (request : Json) (key : String)
    (fallback : α) : Except Thrown α :=
  match arguments request with
  | some args => args.valueWith get key fallback
  | none => .ok fallback

/-- What the loop does with a message. -/
inductive Route where
  /-- The statistics. -/
  | stats
  /-- The daemon is shut down. -/
  | shutdown
  /-- The message is not JSON. -/
  | unparsed
  /-- `sadhana_watch`. -/
  | watch (id : Json) (sadhana : Int)
  /-- `health_check` without details. -/
  | health (id : Json)
  /-- `learn_codebase`. -/
  | learn (id : Json) (path project : String)
  /-- `compact_wal`. -/
  | compact (id : Json)
  /-- Any other tool. -/
  | tool (id : Json) (name : String)

/-- The body of the loop up to the replies. The id is read where a reply needs it, which throws
nothing once the method has been read. -/
def route (library : Library) (peerPid : Int) (data : Bytes) : Except Thrown Route :=
  if data = bytes "stats" then .ok .stats
  else if data = bytes "shutdown" then .ok .shutdown
  else
    match library.parse data with
    | none => .ok .unparsed
    | some request => do
      let (tool, parsed) ← toolName peerPid request
      let id ← request.valueJson "id" .null
      if tool = "sadhana_watch" then
        let sadhana ← argument Json.getInt64 parsed "id" 0
        return .watch id sadhana
      let details ← if tool = "health_check" then argument Json.getBool request "details" false
        else pure true
      if !details then return .health id
      if tool = "learn_codebase" then
        let path ← argument Json.getString request "path" ""
        let project ← argument Json.getString request "project" ""
        return .learn id path project
      if tool = "compact_wal" then return .compact id
      return .tool id tool

/-! ## Fields of a type -/

/-- An object has no such field or one of this kind. -/
def May (kind : Json → Bool) (json : Json) (key : String) : Prop :=
  json.isObject = true ∧ ∀ value, json.find key = some value → kind value = true

/-- `is_boolean`. -/
def isBoolean : Json → Bool
  | .bool _ => true
  | _ => false

/-- The text of a string. -/
def text : Json → String
  | .str value => value
  | _ => ""

/-- The text of a field. -/
def textOr (json : Json) (key fallback : String) : String :=
  ((json.find key).map text).getD fallback

/-- A conversion accepts one kind of values. -/
def Converts {α : Type} (kind : Json → Bool) (get : Json → Except Thrown α) : Prop :=
  ∀ value, kind value = true ↔ ∃ result, get value = .ok result

/-- `get<std::string>`. -/
theorem converts_string : Converts Json.isString Json.getString := by
  intro value
  cases value <;> simp [Json.isString, Json.getString]

/-- `get<int64_t>`. -/
theorem converts_int64 : Converts Json.isNumber Json.getInt64 := by
  intro value
  cases value <;> simp [Json.isNumber, Json.getInt64]

/-- `get<bool>`. -/
theorem converts_bool : Converts isBoolean Json.getBool := by
  intro value
  cases value <;> simp [isBoolean, Json.getBool]

/-- A value that needs no conversion. -/
theorem converts_json : Converts (fun _ => true) (Except.ok : Json → Except Thrown Json) := by
  intro value
  simp

/-- `value` returns for an object whose field is absent or of the kind. -/
theorem valueWith_returns {α : Type} {kind : Json → Bool} {get : Json → Except Thrown α}
    (converts : Converts kind get) (json : Json) (key : String) (fallback : α) :
    (∃ result, json.valueWith get key fallback = .ok result) ↔ May kind json key := by
  cases json with
  | obj fields =>
    cases found : Assoc.lookup key fields with
    | none => simp [Json.valueWith, May, Json.isObject, Json.find, found]
    | some value =>
      have same := converts value
      simp [Json.valueWith, May, Json.isObject, Json.find, found, same]
  | _ => simp [Json.valueWith, May, Json.isObject]

/-- What `value` reads of a text. -/
theorem valueString_eq {json : Json} {key fallback result : String}
    (read : json.valueString key fallback = .ok result) : result = textOr json key fallback := by
  unfold Json.valueString Json.valueWith at read
  cases json with
  | obj fields =>
    cases found : Assoc.lookup key fields with
    | none =>
      simp only [found] at read
      simp [textOr, Json.find, found, Except.ok.inj read]
    | some value =>
      simp only [found] at read
      cases value with
      | str value => simp [textOr, Json.find, found, text, Except.ok.inj read]
      | _ => contradiction
  | _ => contradiction

/-- A text that may be there is read. -/
theorem valueString_of_may {json : Json} {key : String} (may : May Json.isString json key)
    (fallback : String) : json.valueString key fallback = .ok (textOr json key fallback) := by
  obtain ⟨result, read⟩ := (valueWith_returns converts_string json key fallback).mpr may
  have read : json.valueString key fallback = .ok result := read
  rw [read, valueString_eq read]

/-- An argument is read when the arguments may have it. -/
theorem argument_returns {α : Type} {kind : Json → Bool} {get : Json → Except Thrown α}
    (converts : Converts kind get) (request : Json) (key : String) (fallback : α) :
    (∃ result, argument get request key fallback = .ok result) ↔
      ∀ args, arguments request = some args → May kind args key := by
  unfold argument
  cases found : arguments request with
  | none => simp
  | some args =>
    have same := valueWith_returns converts args key fallback
    simp [same]

/-! ## The types of a request -/

/-- The tool a request names. -/
def calledTool (request : Json) : String :=
  if textOr request "method" "unknown" = "tools/call" then
    match request.find "params" with
    | some params => textOr params "name" "unknown"
    | none => "tools/call"
  else textOr request "method" "unknown"

/-- The process can be written into arguments when it has to be. -/
def PidFits (peerPid : Int) (args : Json) : Prop :=
  if args.isObject then May Json.isString args "session_id" else args.isNull = true ∨ peerPid ≤ 1

/-- The arguments with the process. -/
def WithPid (peerPid : Int) (args : Json) : Prop :=
  args.isObject = true ∨ (args.isNull = true ∧ 1 < peerPid)

/-- The fields that name the tool. -/
structure Traceable (peerPid : Int) (request : Json) : Prop where
  /-- The method. -/
  method : May Json.isString request "method"
  /-- The tool of a call. -/
  name : textOr request "method" "unknown" = "tools/call" →
    ∀ params, request.find "params" = some params → May Json.isString params "name"
  /-- Its arguments. -/
  pid : textOr request "method" "unknown" = "tools/call" →
    ∀ args, arguments request = some args → PidFits peerPid args

/-- The fields that are read of a request. -/
structure WellTyped (peerPid : Int) (request : Json) : Prop where
  /-- The tool. -/
  traceable : Traceable peerPid request
  /-- `sadhana_watch` reads a number. -/
  watch : calledTool request = "sadhana_watch" → ∀ args, arguments request = some args →
    if textOr request "method" "unknown" = "tools/call" then
      WithPid peerPid args ∧ ∀ value, args.find "id" = some value → value.isNumber = true
    else May Json.isNumber args "id"
  /-- `health_check` reads a boolean. -/
  health : calledTool request = "health_check" → ∀ args, arguments request = some args →
    May isBoolean args "details"
  /-- `learn_codebase` reads two texts. -/
  learn : calledTool request = "learn_codebase" → ∀ args, arguments request = some args →
    May Json.isString args "path" ∧ May Json.isString args "project"

/-- A message whose fields have the types they are read with. -/
def Readable (library : Library) (peerPid : Int) (data : Bytes) : Prop :=
  data = bytes "stats" ∨ data = bytes "shutdown" ∨
    ∀ request, library.parse data = some request → WellTyped peerPid request

variable {peerPid : Int} {args request : Json}

/-- A field of an object is read. -/
theorem field_of_find {json value : Json} {key : String} (found : json.find key = some value) :
    json.field key = .ok value := by
  cases json with
  | obj fields =>
    simp only [Json.find] at found
    simp [Json.field, found]
  | _ => contradiction

/-- The process can be written when it fits, and leaves the other fields. -/
theorem injectPid_of_fits (fits : PidFits peerPid args) :
    ∃ result, injectPid peerPid args = .ok result ∧
      (result.isObject = true ↔ WithPid peerPid args) ∧ result.find "id" = args.find "id" := by
  have written : ∀ (result : Json), args.set "pid" (.int peerPid) = .ok result →
      result.isObject = true ∧ result.find "id" = args.find "id" := by
    intro result done
    refine ⟨Json.isObject_set done, ?_⟩
    rw [Json.find_set done, if_neg (by decide)]
  cases object : args.isObject with
  | true =>
    have may : May Json.isString args "session_id" := by
      unfold PidFits at fits
      rwa [if_pos object] at fits
    have with_ : WithPid peerPid args := .inl object
    have goes : ∀ missing : Bool, ∃ result,
        (if missing && 1 < peerPid then args.set "pid" (.int peerPid) else (.ok args)) =
          .ok result ∧
        (result.isObject = true ↔ WithPid peerPid args) ∧ result.find "id" = args.find "id" := by
      intro missing
      split
      · obtain ⟨result, done⟩ := Json.set_of_isObject object "pid" (.int peerPid)
        have kept := written result done
        exact ⟨result, done, by simp [kept.1, with_], kept.2⟩
      · exact ⟨args, rfl, by simp [object, with_], rfl⟩
    unfold injectPid
    cases found : args.find "session_id" with
    | none =>
      simp only [Json.contains, found, Option.isSome_none]
      exact goes true
    | some session =>
      simp only [Json.contains, found, Option.isSome_some, if_true, field_of_find found]
      cases session with
      | str session => exact goes session.isEmpty
      | _ => exact absurd (may.2 _ found) (by simp [Json.isString])
  | false =>
    have absent : args.contains "session_id" = false := by
      cases args with
      | obj fields => contradiction
      | _ => rfl
    unfold PidFits at fits
    rw [if_neg (by simp [object])] at fits
    unfold injectPid
    simp only [absent]
    by_cases process : 1 < peerPid
    · have null : args.isNull = true := fits.resolve_right (by omega)
      have same : args = .null := Json.eq_null null
      subst same
      refine ⟨.obj [("pid", .int peerPid)], ?_, ?_, ?_⟩
      · simp [process, Json.set, bind, Except.bind, pure, Except.pure]
      · simp [Json.isObject, WithPid, Json.isNull, process]
      · simp [Json.find, Assoc.lookup]
    · refine ⟨args, ?_, ?_, rfl⟩
      · simp [process, bind, Except.bind, pure, Except.pure]
      · simp [object, WithPid, process]

/-- The process cannot be written when it does not fit. -/
theorem fits_of_injectPid {result : Json} (done : injectPid peerPid args = .ok result) :
    PidFits peerPid args := by
  unfold PidFits
  unfold injectPid at done
  split
  · rename_i object
    refine ⟨object, fun session found => ?_⟩
    simp only [Json.contains, found, Option.isSome_some, if_true, field_of_find found] at done
    cases session with
    | str session => rfl
    | _ => contradiction
  · rename_i object
    have absent : args.contains "session_id" = false := by
      cases args with
      | obj fields => exact absurd rfl object
      | _ => rfl
    by_cases process : 1 < peerPid
    · simp only [absent, process] at done
      cases args with
      | null => exact .inl rfl
      | obj fields => exact absurd rfl object
      | _ => contradiction
    · exact .inr (by omega)

/-- The method of a request with readable fields, and its tool. -/
theorem toolName_of_traceable (traceable : Traceable peerPid request) :
    ∃ parsed, toolName peerPid request = .ok (calledTool request, parsed) ∧
      (textOr request "method" "unknown" ≠ "tools/call" → parsed = request) ∧
      (textOr request "method" "unknown" = "tools/call" →
        (arguments request = none → arguments parsed = none) ∧
        ∀ args, arguments request = some args → ∃ result, arguments parsed = some result ∧
          (result.isObject = true ↔ WithPid peerPid args) ∧
          result.find "id" = args.find "id") := by
  have read := valueString_of_may traceable.method "unknown"
  unfold toolName
  rw [read]
  by_cases call : textOr request "method" "unknown" = "tools/call"
  · cases found : request.find "params" with
    | none =>
      refine ⟨request, ?_, fun other => absurd call other, fun _ => ⟨fun _ => ?_, ?_⟩⟩
      · simp [calledTool, call, Json.contains, found, bind, Except.bind, pure, Except.pure]
      · simp [arguments, found]
      · intro args present
        simp [arguments, found] at present
    | some params =>
      have name := valueString_of_may (traceable.name call params found) "unknown"
      have tool : calledTool request = textOr params "name" "unknown" := by
        rw [calledTool, if_pos call, found]
      cases present : params.find "arguments" with
      | none =>
        refine ⟨request, ?_, fun other => absurd call other, fun _ => ⟨fun _ => ?_, ?_⟩⟩
        · simp [tool, call, Json.contains, found, field_of_find found, name, present, bind,
            Except.bind, pure, Except.pure]
        · simp [arguments, found, present]
        · intro args present'
          simp [arguments, found, present] at present'
      | some args =>
        have own : arguments request = some args := by simp [arguments, found, present]
        obtain ⟨result, injected, object, id⟩ := injectPid_of_fits (traceable.pid call args own)
        obtain ⟨params', written⟩ :=
          Json.set_of_isObject (Json.isObject_of_find present) "arguments" result
        obtain ⟨parsed, done⟩ := Json.set_of_isObject (Json.isObject_of_find found) "params" params'
        have placed : arguments parsed = some result := by
          rw [arguments, Json.find_set done, if_pos rfl]
          show params'.find "arguments" = some result
          rw [Json.find_set written, if_pos rfl]
        refine ⟨parsed, ?_, fun other => absurd call other, fun _ => ⟨fun none => ?_, ?_⟩⟩
        · simp [tool, call, Json.contains, found, field_of_find found, name, present,
            field_of_find present, injected, written, done, bind, Except.bind, pure, Except.pure]
        · rw [own] at none
          contradiction
        · intro args' present'
          rw [own] at present'
          obtain rfl := Option.some.inj present'
          exact ⟨result, placed, object, id⟩
  · refine ⟨request, ?_, fun _ => rfl, fun other => absurd other call⟩
    simp [calledTool, call, bind, Except.bind, pure, Except.pure]

/-- A tool is named by readable fields only. -/
theorem traceable_of_toolName {result : String × Json}
    (done : toolName peerPid request = .ok result) : Traceable peerPid request := by
  unfold toolName at done
  obtain ⟨method, read, done⟩ := bind_ok done
  have named := valueString_eq read
  have may : May Json.isString request "method" :=
    (valueWith_returns converts_string request "method" "unknown").mp ⟨method, read⟩
  -- The tool of a call is read from its parameters.
  have called : ∀ params, textOr request "method" "unknown" = "tools/call" →
      request.find "params" = some params → ∃ tool, params.valueString "name" "unknown" = .ok tool ∧
        ∀ args, params.find "arguments" = some args →
          ∃ result, injectPid peerPid args = .ok result := by
    intro params call found
    have go : (decide (method = "tools/call") && request.contains "params") = true := by
      simp [named, call, Json.contains, found]
    rw [if_pos go] at done
    obtain ⟨own, field, done⟩ := bind_ok done
    have same : params = own := Except.ok.inj ((field_of_find found).symm.trans field)
    subst same
    obtain ⟨tool, name, done⟩ := bind_ok done
    refine ⟨tool, name, fun args present => ?_⟩
    have inside : params.contains "arguments" = true := by simp [Json.contains, present]
    rw [if_pos inside] at done
    obtain ⟨own, field, done⟩ := bind_ok done
    have same : args = own := Except.ok.inj ((field_of_find present).symm.trans field)
    subst same
    obtain ⟨result, injected, _⟩ := bind_ok done
    exact ⟨result, injected⟩
  refine ⟨may, fun call params found => ?_, fun call args own => ?_⟩
  · obtain ⟨tool, name, _⟩ := called params call found
    exact (valueWith_returns converts_string params "name" "unknown").mp ⟨tool, name⟩
  · obtain ⟨params, found, present⟩ := Option.bind_eq_some_iff.mp own
    obtain ⟨_, _, injects⟩ := called params call found
    obtain ⟨result, injected⟩ := injects args present
    exact fits_of_injectPid injected

/-- What a watch reads when the process has been written. -/
theorem watch_reads {parsed : Json}
    (other : textOr request "method" "unknown" ≠ "tools/call" → parsed = request)
    (call : textOr request "method" "unknown" = "tools/call" →
      (arguments request = none → arguments parsed = none) ∧
        ∀ args, arguments request = some args → ∃ result, arguments parsed = some result ∧
          (result.isObject = true ↔ WithPid peerPid args) ∧ result.find "id" = args.find "id") :
    (∃ sadhana, argument Json.getInt64 parsed "id" 0 = .ok sadhana) ↔
      ∀ args, arguments request = some args →
        if textOr request "method" "unknown" = "tools/call" then
          WithPid peerPid args ∧ ∀ value, args.find "id" = some value → value.isNumber = true
        else May Json.isNumber args "id" := by
  rw [argument_returns converts_int64]
  by_cases called : textOr request "method" "unknown" = "tools/call"
  · obtain ⟨absent, present⟩ := call called
    constructor
    · intro reads args own
      rw [if_pos called]
      obtain ⟨result, placed, object, id⟩ := present args own
      have may := reads result placed
      exact ⟨object.mp may.1, fun value found => may.2 value (id.trans found)⟩
    · intro typed result placed
      cases own : arguments request with
      | none =>
        rw [absent own] at placed
        contradiction
      | some args =>
        obtain ⟨other, there, object, id⟩ := present args own
        obtain rfl := Option.some.inj (placed.symm.trans there)
        have fits := typed args own
        rw [if_pos called] at fits
        exact ⟨object.mpr fits.1, fun value found => fits.2 value (id.symm.trans found)⟩
  · rw [other called]
    constructor
    · intro reads args own
      rw [if_neg called]
      exact reads args own
    · intro typed args own
      have may := typed args own
      rwa [if_neg called] at may

/-- The loop reads a message without an exception exactly when its fields have their types. -/
theorem route_returns (library : Library) (peerPid : Int) (data : Bytes) :
    (∃ result, route library peerPid data = .ok result) ↔ Readable library peerPid data := by
  unfold route Readable
  split
  · rename_i stats
    simp [stats]
  rename_i no_stats
  split
  · rename_i shutdown
    simp [shutdown]
  rename_i no_shutdown
  cases parse : library.parse data with
  | none => simp
  | some request =>
    have only : (data = bytes "stats" ∨ data = bytes "shutdown" ∨
        ∀ other, some request = some other → WellTyped peerPid other) ↔
          WellTyped peerPid request := by
      simp [no_stats, no_shutdown]
    rw [only]
    dsimp only
    constructor
    · rintro ⟨result, done⟩
      obtain ⟨⟨tool, parsed⟩, named, done⟩ := bind_ok done
      have traceable := traceable_of_toolName named
      obtain ⟨parsed', own, other, call⟩ := toolName_of_traceable traceable
      have same : (tool, parsed) = (calledTool request, parsed') :=
        Except.ok.inj (named.symm.trans own)
      obtain ⟨rfl, rfl⟩ := Prod.mk.inj same
      obtain ⟨id, _, done⟩ := bind_ok done
      refine ⟨traceable, fun watch => ?_, fun health => ?_, fun learn => ?_⟩
      · apply (watch_reads other call).mp
        rw [if_pos watch] at done
        obtain ⟨sadhana, read, _⟩ := bind_ok done
        exact ⟨sadhana, read⟩
      · apply (argument_returns converts_bool request "details" false).mp
        have apart : calledTool request ≠ "sadhana_watch" := by rw [health]; decide
        dsimp only at done
        rw [if_neg apart, if_pos health] at done
        obtain ⟨details, read, _⟩ := bind_ok done
        exact ⟨details, read⟩
      · have apart : calledTool request ≠ "sadhana_watch" := by rw [learn]; decide
        have other : calledTool request ≠ "health_check" := by rw [learn]; decide
        dsimp only at done
        rw [if_neg apart, if_neg other, if_pos learn] at done
        obtain ⟨details, always, done⟩ := bind_ok done
        have details : details = true := (Except.ok.inj always).symm
        subst details
        obtain ⟨path, reads, done⟩ := bind_ok done
        obtain ⟨project, also, _⟩ := bind_ok done
        have first := (argument_returns converts_string request "path" "").mp ⟨path, reads⟩
        have second := (argument_returns converts_string request "project" "").mp ⟨project, also⟩
        exact fun args own => ⟨first args own, second args own⟩
    · intro typed
      obtain ⟨parsed, named, other, call⟩ := toolName_of_traceable typed.traceable
      have object : May (fun _ => true) request "id" := ⟨typed.traceable.method.1, fun _ _ => rfl⟩
      obtain ⟨id, read⟩ := (valueWith_returns converts_json request "id" .null).mpr object
      have read : request.valueJson "id" .null = .ok id := read
      rw [named]
      simp only [bind, Except.bind, read]
      by_cases watch : calledTool request = "sadhana_watch"
      · obtain ⟨sadhana, reads⟩ := (watch_reads other call).mpr (typed.watch watch)
        simp [watch, reads, pure, Except.pure]
      · by_cases health : calledTool request = "health_check"
        · obtain ⟨details, reads⟩ :=
            (argument_returns converts_bool request "details" false).mpr (typed.health health)
          cases details <;> simp [health, reads, pure, Except.pure]
        · by_cases learn : calledTool request = "learn_codebase"
          · obtain ⟨path, reads⟩ := (argument_returns converts_string request "path" "").mpr
              fun args own => (typed.learn learn args own).1
            obtain ⟨project, also⟩ := (argument_returns converts_string request "project" "").mpr
              fun args own => (typed.learn learn args own).2
            simp [learn, reads, also, pure, Except.pure]
          · by_cases compact : calledTool request = "compact_wal"
            · simp [compact, pure, Except.pure]
            · simp [watch, health, learn, compact, pure, Except.pure]

/-- Only one message shuts the daemon down. -/
theorem route_shutdown {library : Library} {data : Bytes}
    (read : route library peerPid data = .ok .shutdown) : data = bytes "shutdown" := by
  unfold route at read
  split at read
  · cases read
  split at read
  · assumption
  split at read
  · cases read
  obtain ⟨⟨tool, parsed⟩, _, read⟩ := bind_ok read
  obtain ⟨id, _, read⟩ := bind_ok read
  dsimp only at read
  split at read
  · obtain ⟨sadhana, _, read⟩ := bind_ok read
    cases read
  -- Details are read or taken to be wanted; what follows is the same.
  split at read
  all_goals
    obtain ⟨details, _, read⟩ := bind_ok read
    split at read
    · cases read
    split at read
    · obtain ⟨path, _, read⟩ := bind_ok read
      obtain ⟨project, _, read⟩ := bind_ok read
      cases read
    · split at read <;> cases read

end Chitta.Daemon
