import Chitta.Gateway.Handoffs

/-!
# The capsules that the gateway reads

The pages of a repository, and of a stream in it, hold the row of every session that has a capsule
of theirs. So the latest capsule that is found among them is the last one that was accepted for its
key, as long as the sessions hold the capsules of a register with one cell for each session.
-/
namespace Chitta.Gateway

open Ledger (Library TaskLedger repositoryKey upgradeRow stored_of_get get_of_stored)

/-- The sessions hold the accepted capsules. -/
structure Kept (library : Library) (world : World) : Prop where
  /-- The rows passed their check, and the indexes mirror them. -/
  valid : world.ledger.Valid library
  /-- The columns of the sessions are derived. -/
  upgraded : Upgraded library world.ledger
  /-- The times of the sessions are those of the clock. -/
  stamped : Stamped world.ledger
  /-- The capsules can be read. -/
  readable : ∀ id, Readable library (sessionRow world.ledger id)
  /-- The accepted capsules are checked. -/
  checked : ∀ cap ∈ world.accepted, Checked cap
  /-- The capsules of a key are numbered, and its last one is in a session. -/
  exact : MaxRegister.Exact keyOf revisionOf
    (fun id => capsuleIn library (sessionRow world.ledger id)) world.accepted

variable {library : Library} {env : Env} {world : World} {key : Json}

/-! ## Reading -/

/-- A read of the ledger changes nothing in it. -/
theorem run_answer {op : String} {a : Json} {result : Except Thrown Json}
    (planned : Ledger.plan library world.ledger op a (env.clock world.readings) =
      result.map Ledger.Planned.answer) (other : op ≠ "session_bind") :
    run library env op a world = (result, { world with readings := world.readings + 1 }) := by
  have nothing : writes library world.ledger op a = [] := by
    unfold writes
    split
    · exact absurd rfl other
    · rfl
  cases result with
  | ok value =>
    simp only [run, Ledger.run, planned, Except.map, nothing, List.nil_append]
  | error thrown =>
    simp only [run, Ledger.run, planned, Except.map, nothing, List.nil_append]

/-- The row of a session is read, when a text names it. -/
theorem run_sessionGet (value : Json) :
    run library env "session_get" (.object [("session_id", value)]) world =
      (value.getString.map (sessionRow world.ledger),
        { world with readings := world.readings + 1 }) := by
  refine run_answer ?_ (by decide)
  have found : (Json.object [("session_id", value)]).at "session_id" = .ok value :=
    Json.at_of_find (by simp [Json.find_object, Assoc.lookup])
  show Ledger.getRow world.ledger .threadSessions _ = _
  cases value with
  | str id =>
    simp only [Ledger.getRow, Ledger.idarg, Ledger.TableName.key, found, Json.getString, bind,
      Except.bind, pure, Except.pure, Except.map]
  | _ =>
    simp only [Ledger.getRow, Ledger.idarg, Ledger.TableName.key, found, Json.getString, bind,
      Except.bind, Except.map]

/-- The time leaves the pages of sessions alone. -/
theorem list_sessions (ledger : TaskLedger) (a : Json) (ts : Rat) :
    Ledger.list library ledger .sessions a ts = Ledger.list library ledger .sessions a 0 := rfl

/-- A page of sessions is read. -/
theorem run_sessionList (a : Json) :
    run library env "session_list" a world =
      (Ledger.list library world.ledger .sessions a 0,
        { world with readings := world.readings + 1 }) := by
  refine run_answer ?_ (by decide)
  show (do return Ledger.Planned.answer (← Ledger.list library world.ledger .sessions a _)) = _
  rw [list_sessions]
  cases Ledger.list library world.ledger .sessions a 0 with
  | ok page => rfl
  | error thrown => rfl

/-- The pages of the gateway are those of a caller that follows the cursor. -/
theorem pages_eq (env : Env) (fuel : Nat) (a : Json) {rows : List Json}
    (read : Ledger.listAll library world.ledger .sessions 0 fuel a = .ok (some rows)) :
    ∃ readings, pages library env fuel a world = (.ok rows, { world with readings }) := by
  induction fuel generalizing a rows world with
  | zero => exact absurd (Except.ok.inj read) (by simp)
  | succ fuel ih =>
    obtain ⟨page, listed, read⟩ := bind_ok read
    obtain ⟨value, there, read⟩ := bind_ok read
    obtain ⟨own, elements, read⟩ := bind_ok read
    obtain ⟨after, cursor, read⟩ := bind_ok read
    have first : run library env "session_list" a world =
        (.ok page, { world with readings := world.readings + 1 }) := by
      rw [run_sessionList, listed]
    unfold pages
    rw [Throwing.bind_of_ok first, there]
    show ∃ readings, (liftM (Ledger.elements value) >>= fun rows => _ : Program _) _ = _
    rw [elements, cursor]
    show ∃ readings, (if after.isNull = true then pure own else
      (liftM (a.set "after" after) >>= fun next => pages library env fuel next >>= fun others =>
        pure (own ++ others)) : Program (List Json)) _ = _
    split at read
    · rename_i last
      rw [if_pos last, ← Option.some.inj (Except.ok.inj read)]
      exact ⟨_, rfl⟩
    · rename_i more
      obtain ⟨next, set, read⟩ := bind_ok read
      obtain ⟨others, later, read⟩ := bind_ok read
      rw [if_neg more, set]
      cases others with
      | none => exact absurd (Except.ok.inj read) (by simp)
      | some others =>
        obtain ⟨readings, rest⟩ :=
          @ih { world with readings := world.readings + 1 } next others later
        refine ⟨readings, ?_⟩
        have joined : own ++ others = rows := Option.some.inj (Except.ok.inj read)
        show (pages library env fuel next >>= fun others => pure (own ++ others) :
          Program (List Json)) _ = _
        rw [Throwing.bind_of_ok rest, joined]
        rfl

/-! ## The rows of a key -/

/-- The filters of the pages of a key. -/
theorem filters_pageArguments (key : Json) :
    Ledger.filtersOf .sessions (pageArguments key) = .ok
      (("repository", .str (repositoryKey (repositoryKey (str key "repository")))) ::
        if str key "stream_id" = "" then [] else [("stream_id", .str (str key "stream_id"))]) := by
  have found : ∀ name, (pageArguments key).find name =
      if str key "stream_id" ≠ "" ∧ name = "stream_id" then some (.str (str key "stream_id"))
      else if name = "repository" then some (.str (repositoryKey (str key "repository")))
      else if name = "limit" then some (.int 100) else none := by
    intro name
    by_cases none_given : str key "stream_id" = ""
    · simp [pageArguments, none_given, Json.find_object, Assoc.lookup, eq_comm]
    · simp [pageArguments, none_given, Json.find_object, Assoc.lookup, eq_comm]
  have before : "repository" < "stream_id" := by decide
  have given : Ledger.givenFilters .sessions (pageArguments key)
      ["project_dir", "repository", "status", "stream_id", "thread_id"] =
      ("repository", .str (repositoryKey (str key "repository"))) ::
        if str key "stream_id" = "" then [] else [("stream_id", .str (str key "stream_id"))] := by
    by_cases none_given : str key "stream_id" = ""
    · simp [Ledger.givenFilters, Ledger.given, found, Json.isNull, Assoc.assign, none_given]
    · have apart : decide (Ledger.Listing.sessions = Ledger.Listing.artifacts) = false := rfl
      simp only [Ledger.givenFilters, Ledger.given, found, Json.isNull, Assoc.assign, none_given,
        not_false_eq_true, true_and, if_true, if_false, String.reduceEq, ne_eq, apart,
        Bool.false_and, Bool.false_eq_true, before]
  simp only [Ledger.filtersOf, Ledger.Listing.table, Ledger.TableName.indexed, given,
    Assoc.lookup, if_true, Json.getString, Assoc.assign]
  rfl

/-- The row of a session matches a key when its columns are those of the key. -/
theorem matches_pageArguments {row : Json} {path name : String}
    (repository : row.find "repository" = some (.str path))
    (stream : row.find "stream_id" = some (.str name)) :
    Ledger.Matches library .sessions (pageArguments key) 0 row ↔
      path = repositoryKey (repositoryKey (str key "repository")) ∧
        (str key "stream_id" = "" ∨ name = str key "stream_id") := by
  have same : ∀ left right : String, (Json.str left).same (.str right) = decide (left = right) := by
    intro left right
    simp [Json.same, beq_eq_decide]
  unfold Ledger.Matches
  rw [filters_pageArguments]
  constructor
  · rintro ⟨filters, read, fitting, _⟩
    obtain rfl := Except.ok.inj read
    by_cases none_given : str key "stream_id" = ""
    · simp only [Ledger.fits, none_given, if_true, List.all_cons, List.all_nil, repository,
        Option.any_some, same, Bool.and_true, decide_eq_true_eq] at fitting
      exact ⟨fitting, .inl none_given⟩
    · simp only [Ledger.fits, none_given, if_false, List.all_cons, List.all_nil, repository, stream,
        Option.any_some, same, Bool.and_true, Bool.and_eq_true, decide_eq_true_eq] at fitting
      exact ⟨fitting.1, .inr fitting.2⟩
  · rintro ⟨own, either⟩
    refine ⟨_, rfl, ?_, rfl⟩
    by_cases none_given : str key "stream_id" = ""
    · simp [Ledger.fits, none_given, repository, own, same]
    · simp [Ledger.fits, none_given, repository, stream, own, same,
        either.resolve_left none_given]

/-- The arguments of the pages can be read. -/
theorem readable_pageArguments (key : Json) :
    Ledger.Readable .sessions (pageArguments key) where
  filters := ⟨_, filters_pageArguments key⟩
  limit := by
    refine ⟨100, ?_⟩
    have found : (pageArguments key).find "limit" = some (.int 100) := by
      by_cases none_given : str key "stream_id" = ""
      · simp [pageArguments, none_given, Json.find_object, Assoc.lookup]
      · simp [pageArguments, none_given, Json.find_object, Assoc.lookup]
    simp only [Json.find, pageArguments, Json.object] at found
    simp only [Ledger.pageLimit, pageArguments, Json.object, Json.valueWith, found]
    rfl
  active := by simp
  pattern := by simp

/-! ## The latest capsule -/

/-- A capsule in a row is what the row hands off. -/
theorem handoff_of_capsuleIn {row cap : Json} (inside : capsuleIn library row = some cap) :
    handoff library row = .ok cap := by
  unfold capsuleIn at inside
  split at inside
  · rename_i found
    split at inside
    · rw [found, Option.some.inj inside]
    · contradiction
  · contradiction

/-- A checked capsule has its text fields. -/
theorem Checked.texts {cap : Json} (checked : Checked cap) :
    cap.find "repository" = some (.str (str cap "repository")) ∧
      repositoryKey (str cap "repository") = str cap "repository" ∧
      cap.find "stream_id" = some (.str (str cap "stream_id")) := by
  obtain ⟨path, repository, own⟩ := checked.repository
  obtain ⟨name, stream⟩ := checked.stream
  have first : str cap "repository" = path := by rw [str, repository]
  have second : str cap "stream_id" = name := by rw [str, stream]
  rw [first, second]
  exact ⟨repository, own, stream⟩

/-- The columns of a checked capsule. -/
theorem Checked.columns {cap : Json} (checked : Checked cap) :
    Ledger.capsuleColumns cap = .ok (str cap "repository", str cap "stream_id") := by
  obtain ⟨repository, own, stream⟩ := checked.texts
  have version := checked.version
  generalize str cap "repository" = path at repository own
  generalize str cap "stream_id" = name at stream
  cases cap with
  | obj entries =>
    have small : Int.bmod 2 (2 ^ 32) = 2 := by decide
    simp only [Json.find] at version repository stream
    simp only [Ledger.capsuleColumns, Json.isObject, Json.valueString, Json.valueWith, version,
      repository, stream, Json.getInt, Json.getString, own, small, bind, Except.bind, pure,
      Except.pure, if_true]
  | _ => contradiction

/-- A row whose columns are derived has those of the capsule in its metadata. -/
theorem columns_of_upgraded {row cap : Json} {text : String} {columns : String × String}
    (derived : upgradeRow library .threadSessions row = .ok row)
    (metadata : row.find "metadata_json" = some (.str text))
    (handed : Ledger.handoffOf library text = .ok cap)
    (read : Ledger.capsuleColumns cap = .ok columns) :
    row.find "repository" = some (.str columns.1) ∧
      row.find "stream_id" = some (.str columns.2) := by
  have object : row.isObject = true := by
    cases row with
    | obj fields => rfl
    | _ => contradiction
  have own : row.valueString "metadata_json" "\x7b\x7d" = .ok text := by
    cases row with
    | obj fields =>
      simp only [Json.find] at metadata
      simp only [Json.valueString, Json.valueWith, metadata, Json.getString]
    | _ => contradiction
  rw [upgradeRow, if_pos ⟨rfl, object⟩, own] at derived
  obtain ⟨_, same, derived⟩ := bind_ok derived
  rw [← Except.ok.inj same, handed] at derived
  obtain ⟨_, same, derived⟩ := bind_ok derived
  rw [← Except.ok.inj same, read] at derived
  obtain ⟨_, same, derived⟩ := bind_ok derived
  rw [← Except.ok.inj same] at derived
  obtain ⟨named, first, second⟩ := bind_ok derived
  constructor
  · rw [Json.find_set second, if_neg (by decide), Json.find_set first, if_pos rfl]
  · rw [Json.find_set second, if_pos rfl]

/-- The columns of a session are those of its capsule. -/
theorem columns_of_capsule (kept : Kept library world) {id : String} {cap : Json}
    (inside : capsuleIn library (sessionRow world.ledger id) = some cap) :
    world.ledger.Stored .threadSessions id (sessionRow world.ledger id) ∧
      (sessionRow world.ledger id).find "repository" = some (.str (str cap "repository")) ∧
      (sessionRow world.ledger id).find "stream_id" = some (.str (str cap "stream_id")) := by
  have checked := kept.checked cap (kept.exact.logged id cap inside)
  have found := handoff_of_capsuleIn inside
  have present : (sessionRow world.ledger id).isNull = false := by
    cases null : (sessionRow world.ledger id).isNull with
    | false => rfl
    | true =>
      rw [Json.eq_null null] at found
      obtain rfl : Json.object [] = cap := Except.ok.inj found
      have version := checked.version
      contradiction
  have stored := stored_of_get present
  obtain ⟨text, metadata⟩ := metadata_stored kept.valid stored
  rw [handoff_of_text metadata] at found
  exact ⟨stored, columns_of_upgraded (kept.upgraded id _ stored) metadata found checked.columns⟩

/-- The last capsule that was accepted for a key. -/
def lastOf (world : World) (key : Key) : Option Json :=
  (MaxRegister.ofKey keyOf key world.accepted).getLast?

/-- The rows of a key are read: every session whose columns are those of the key, once. -/
theorem capsuleRows_eq (env : Env) (kept : Kept library world) (key : Json) :
    ∃ entries readings,
      Ledger.Lists world.ledger .threadSessions
        (Ledger.Matches library .sessions (pageArguments key) 0) entries ∧
      capsuleRows library env key world = (.ok (entries.map (·.2)), { world with readings }) := by
  have start : Ledger.given (pageArguments key) "after" = none := by
    have absent : (pageArguments key).find "after" = none := by
      by_cases none_given : str key "stream_id" = ""
      · simp [pageArguments, none_given, Json.find_object, Assoc.lookup]
      · simp [pageArguments, none_given, Json.find_object, Assoc.lookup]
    simp only [Ledger.given, absent]
  obtain ⟨page, returned⟩ := (readable_pageArguments key).returns kept.valid start 0
  obtain ⟨entries, limit, prepared⟩ := kept.valid.prepared returned
  have straight : ¬Ledger.Circular library world.ledger .sessions (pageArguments key) 0 :=
    kept.valid.straight fun entry stored _ => by
      obtain ⟨time, found⟩ := kept.stamped entry.1 entry.2 stored
      have field : (Ledger.itemOf .sessions entry).1.time = .float time :=
        congrArg (fun value : Option Json => value.getD .null) found
      rw [field]
      trivial
  obtain ⟨rows, lists⟩ := prepared.listsAll kept.valid start straight
  have read := lists.read ((world.ledger.tables .threadSessions).rows.length + 1)
    (Nat.lt_succ_self _)
  obtain ⟨readings, same⟩ := pages_eq env _ _ read
  exact ⟨rows, readings, lists.rows, same⟩

/-- A candidate was accepted for the key. -/
theorem mem_ofKey (kept : Kept library world) (stable : Stable key)
    {entries : List (String × Json)}
    (lists : Ledger.Lists world.ledger .threadSessions
      (Ledger.Matches library .sessions (pageArguments key) 0) entries)
    {cap : Json} (inside : cap ∈ candidates library key (entries.map (·.2))) :
    cap ∈ MaxRegister.ofKey keyOf (keyOf key) world.accepted := by
  obtain ⟨among, named⟩ := List.mem_filter.mp inside
  obtain ⟨row, there, found⟩ := List.mem_filterMap.mp among
  obtain ⟨entry, listed, rfl⟩ := List.mem_map.mp there
  obtain ⟨stored, fitting⟩ := (lists.mem entry).mp listed
  have own : sessionRow world.ledger entry.1 = entry.2 := get_of_stored stored
  rw [← own] at found fitting
  have accepted := kept.exact.logged entry.1 cap found
  obtain ⟨_, repository, stream⟩ := columns_of_capsule kept found
  have path := ((matches_pageArguments repository stream).mp fitting).1
  have canonical := (kept.checked cap accepted).texts.2.1
  have same : repositoryKey (str cap "repository") = repositoryKey (str key "repository") := by
    rw [canonical, path, stable]
  exact List.mem_filter.mpr
    ⟨accepted, decide_eq_true (keyOf_of_capsuleKey same (of_decide_eq_true named))⟩

/-- The last capsule of the key is a candidate. -/
theorem mem_candidates (kept : Kept library world) (stable : Stable key)
    {entries : List (String × Json)}
    (lists : Ledger.Lists world.ledger .threadSessions
      (Ledger.Matches library .sessions (pageArguments key) 0) entries)
    {last : Json} (final : lastOf world (keyOf key) = some last) :
    last ∈ candidates library key (entries.map (·.2)) := by
  obtain ⟨owner, held⟩ := kept.exact.held _ _ final
  obtain ⟨accepted, named⟩ := List.mem_filter.mp (List.mem_of_getLast? final)
  have same : keyOf last = keyOf key := of_decide_eq_true named
  obtain ⟨stored, repository, stream⟩ := columns_of_capsule kept held
  have canonical := (kept.checked last accepted).texts.2.1
  have path : str last "repository" = repositoryKey (repositoryKey (str key "repository")) := by
    have equal : repositoryKey (str last "repository") = repositoryKey (str key "repository") :=
      congrArg Key.repository same
    rw [stable, ← equal, canonical]
  have listed := (lists.mem (owner, sessionRow world.ledger owner)).mpr
    ⟨stored, (matches_pageArguments repository stream).mpr ⟨path, stream_of_keyOf same⟩⟩
  refine List.mem_filter.mpr ⟨List.mem_filterMap.mpr ⟨_, ?_, held⟩, ?_⟩
  · exact List.mem_map_of_mem (f := (·.2)) listed
  · exact decide_eq_true (capsuleKey_congr same)

/-- The latest capsule of a key is the last one that was accepted for it. -/
theorem latestCapsule_eq (env : Env) (kept : Kept library world) (stable : Stable key) :
    ∃ readings, latestCapsule library env key world =
      (.ok ((lastOf world (keyOf key)).getD (.object [])), { world with readings }) := by
  obtain ⟨entries, readings, lists, read⟩ := capsuleRows_eq env kept key
  refine ⟨readings, ?_⟩
  have own : ∀ row ∈ entries.map (·.2), ∃ id, sessionRow world.ledger id = row := by
    intro row there
    obtain ⟨entry, listed, rfl⟩ := List.mem_map.mp there
    exact ⟨entry.1, get_of_stored ((lists.mem entry).mp listed).1⟩
  have searched : latestByKey library (entries.map (·.2)) key =
      .ok ((MaxRegister.latest revisionOf (candidates library key (entries.map (·.2))) none).getD
        (.object [])) := by
    refine @latestFrom_eq library key _ none ?_ ?_ (by simp)
    · intro row there
      obtain ⟨id, rfl⟩ := own row there
      exact kept.readable id
    · intro row there cap found
      obtain ⟨id, rfl⟩ := own row there
      exact kept.checked cap (kept.exact.logged id cap found)
  have latest : MaxRegister.latest revisionOf (candidates library key (entries.map (·.2))) none =
      lastOf world (keyOf key) := by
    cases final : lastOf world (keyOf key) with
    | none =>
      have nothing : candidates library key (entries.map (·.2)) = [] := by
        refine List.eq_nil_iff_forall_not_mem.mpr fun cap inside => ?_
        have accepted := mem_ofKey kept stable lists inside
        rw [List.getLast?_eq_none_iff.mp final] at accepted
        contradiction
      rw [nothing, MaxRegister.latest]
    | some last =>
      have there := mem_candidates kept stable lists final
      have among := mem_ofKey kept stable lists there
      have greatest := kept.exact.revision_last final
      refine MaxRegister.latest_eq (fun cap inside => ?_) (.inr ?_) (.inr there)
      · have accepted := mem_ofKey kept stable lists inside
        by_cases behind : revisionOf cap < revisionOf last
        · exact .inr behind
        · exact .inl (kept.exact.eq_last accepted final (by omega))
      · exact (kept.exact.revision_le among).1
  rw [latestCapsule, Throwing.bind_of_ok read, searched, latest]
  rfl

end Chitta.Gateway
