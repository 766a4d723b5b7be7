import Chitta.MaxRegister
import Chitta.Ledger.Pagination

/-!
# Handoff capsules

A capsule is written under a key, its repository with its stream or its session, and carries a
revision. Capsules are kept in the metadata of sessions, one for each session, so the capsule of a
key is looked for among the rows of all sessions.
-/
namespace Chitta.Gateway

open Ledger (Library repositoryKey lexicallyNormal)

/-! ## The identity of a project -/

/-- The files of the daemon. -/
structure Files where
  /-- `first_line`, empty for a file that cannot be read. -/
  firstLine : String → String
  /-- The lines of a file. -/
  lines : String → List String

/-- Whether a path starts at the root. -/
def isAbsolute (path : String) : Bool := path.toList.head? = some '/'

/-- `operator/` of paths. -/
def under (dir name : String) : String :=
  if isAbsolute name ∨ dir = "" then name
  else if dir.toList.getLast? = some '/' then dir ++ name
  else dir ++ "/" ++ name

/-- A text behind a prefix. -/
def behindPrefix (start text : String) : Option String :=
  if start.toList.isPrefixOf text.toList then
    some (String.ofList (text.toList.drop start.length))
  else none

/-- `filename`. -/
def filename (path : String) : String :=
  String.ofList (path.toList.reverse.takeWhile (· ≠ '/')).reverse

/-- The head of a reference in the lines of `packed-refs`; the last one counts. -/
def packedHead (ref : String) : List String → String → String
  | [], head => head
  | line :: rest, head =>
    if 41 < line.length ∧ line.toList.drop 41 = ref.toList then
      packedHead ref rest (String.ofList (line.toList.take 40))
    else packedHead ref rest head

/-- The common directory of the repository, normal, and the directory of the worktree. -/
def gitDirectories (files : Files) (project : String) : String × String :=
  let link := under project ".git"
  let dir :=
    match behindPrefix "gitdir: " (files.firstLine link) with
    | some target => under project target
    | none => link
  let common := files.firstLine (under dir "commondir")
  let common := if common = "" then dir else under dir common
  (String.ofList (lexicallyNormal common.toList), dir)

/-- The commit of the worktree. -/
def gitHead (files : Files) (common dir : String) : String :=
  let head := files.firstLine (under dir "HEAD")
  let head :=
    match behindPrefix "ref: " head with
    | none => head
    | some ref =>
      let loose := files.firstLine (under common ref)
      if loose = "" then packedHead ref (files.lines (under common "packed-refs")) "" else loose
  if head.length = 40 ∨ head.length = 64 then head else ""

/-- `git_identity`; `canonical_repository` has the body of `repository_key`. -/
def gitIdentity (files : Files) (project : String) : Json :=
  let (common, dir) := gitDirectories files project
  .object
    [("repository", .str (repositoryKey common)), ("code_head", .str (gitHead files common dir)),
      ("stream_id", .str ((behindPrefix "codex-wt-" (filename project)).getD ""))]

/-! ## Keys -/

/-- `str`: a text field, else an empty text. -/
def str (json : Json) (field : String) : String :=
  match json.find field with
  | some (.str text) => text
  | _ => ""

/-- What a capsule belongs to in its repository. -/
inductive Slot where
  /-- A stream. -/
  | stream (name : String)
  /-- A session. -/
  | session (id : String)
deriving DecidableEq, Repr

/-- The key of a capsule. -/
structure Key where
  /-- The repository, canonical. -/
  repository : String
  /-- The stream or the session. -/
  slot : Slot
deriving DecidableEq, Repr

/-- The key of a capsule: the session counts when it has no stream. -/
def keyOf (cap : Json) : Key where
  repository := repositoryKey (str cap "repository")
  slot :=
    if str cap "stream_id" = "" then .session (str cap "session_id")
    else .stream (str cap "stream_id")

/-- `capsule_key`. -/
def capsuleKey (cap : Json) : String :=
  repositoryKey (str cap "repository") ++ "\n" ++
    (if str cap "stream_id" = "" then "session:" ++ str cap "session_id"
    else "stream:" ++ str cap "stream_id")

/-! ## The check of a capsule -/

/-- `bounded_text`. -/
def boundedText (value : Json) (bytes : Nat) (name : String) : Except Thrown Unit :=
  match value with
  | .str text =>
    if bytes < text.utf8ByteSize then .error (.invalidArgument s!"capsule field limit: {name}")
    else .ok ()
  | _ => .error (.invalidArgument s!"capsule field limit: {name}")

/-- The texts of a capsule with their limits. -/
def textFields : List (String × Nat) :=
  [("objective", 384), ("repository", 384), ("project_dir", 384), ("session_id", 128),
    ("stream_id", 96), ("branch", 128), ("code_head", 64), ("next_action", 400)]

/-- The texts are copied. -/
def copyTexts (input : Json) : List (String × Nat) → Json → Except Thrown Json
  | [], out => .ok out
  | (field, limit) :: rest, out => do
    let value ← input.valueJson field (.str "")
    boundedText value limit field
    let out ← out.set field value
    copyTexts input rest out

/-- The arrays of a capsule with the limits of their lengths and of their texts. -/
def arrayFields : List (String × Nat × Nat) :=
  [("constraints", 4, 128), ("dirty_paths", 20, 128), ("blockers", 3, 160)]

/-- The arrays are copied. -/
def copyArrays (input : Json) : List (String × Nat × Nat) → Json → Except Thrown Json
  | [], out => .ok out
  | (field, count, length) :: rest, out => do
    let value ← input.valueJson field (.arr [])
    match value with
    | .arr items =>
      if count < items.length then throw (.invalidArgument s!"capsule array limit: {field}")
      items.forM fun item => boundedText item length field
      let out ← out.set field value
      copyArrays input rest out
    | _ => throw (.invalidArgument s!"capsule array limit: {field}")

/-- Whether a gate has a status and one number. -/
def gateFits (gate : Json) : Bool :=
  match gate with
  | .obj fields =>
    fields.length = 2 && (gate.find "number").any Json.isNumber &&
      (str gate "status" = "pass" || str gate "status" = "fail")
  | _ => false

/-- The check of a gate. -/
def checkGate (gate : String × Json) : Except Thrown Unit := do
  boundedText (.str gate.1) 48 "gate name"
  if !gateFits gate.2 then
    throw (.invalidArgument "gate requires status pass/fail and one number")

/-- The gates. -/
def checkGates (gates : Json) : Except Thrown Unit :=
  match gates with
  | .obj fields =>
    if 6 < fields.length then .error (.invalidArgument "capsule gate limit")
    else fields.forM checkGate
  | _ => .error (.invalidArgument "capsule gate limit")

/-- A job has an id and the path of its result. -/
def checkJob (job : Json) : Except Thrown Unit :=
  match job with
  | .obj fields =>
    if fields.length ≠ 2 then .error (.invalidArgument "invalid capsule job")
    else do
      let id ← job.at "id"
      boundedText id 64 "job id"
      let path ← job.at "result_path"
      boundedText path 192 "job result path"
  | _ => .error (.invalidArgument "invalid capsule job")

/-- The jobs. -/
def checkJobs (jobs : Json) : Except Thrown Unit :=
  match jobs with
  | .arr items =>
    if 4 < items.length then .error (.invalidArgument "capsule job limit")
    else items.forM checkJob
  | _ => .error (.invalidArgument "capsule job limit")

/-- The states of a capsule. -/
def capsuleStates : List String := ["complete", "in_progress", "missing", "invalidated"]

/-- `capsule_v2`. -/
def capsuleV2 (library : Library) (input : Json) (revision : Nat) (now : Rat) :
    Except Thrown Json := do
  let out ← copyTexts input textFields
    (.object [("version", .int 2), ("revision", .int revision), ("saved_at", .float now)])
  let out ← out.set "repository" (.str (repositoryKey (str out "repository")))
  if str out "repository" = "" ∨ (str out "stream_id" = "" ∧ str out "session_id" = "") then
    throw (.invalidArgument "capsule repository and stream/session key required")
  let state ← input.valueString "state" "in_progress"
  let out ← out.set "state" (.str state)
  if state ∉ capsuleStates then throw (.invalidArgument "invalid capsule state")
  let out ← copyArrays input arrayFields out
  let gates ← input.valueJson "gates" (.object [])
  checkGates gates
  let out ← out.set "gates" gates
  let jobs ← input.valueJson "jobs" (.arr [])
  checkJobs jobs
  let out ← out.set "jobs" jobs
  if 4096 < (library.dump out).utf8ByteSize then
    throw (.invalidArgument "capsule exceeds 4096 bytes")
  return out

/-! ## The capsules of rows -/

/-- `metadata`: the metadata of a row. -/
def metadata (library : Library) (row : Json) : Except Thrown Json :=
  if row.isObject then do
    let text ← row.valueString "metadata_json" "{}"
    match library.parse text with
    | some value => return if value.isObject then value else .object []
    | none => return .object []
  else .ok (.object [])

/-- The capsule in the metadata of a row, an empty object without one. -/
def handoff (library : Library) (row : Json) : Except Thrown Json := do
  (← metadata library row).valueJson "handoff" (.object [])

/-- `value("version", 0)`. -/
def version (cap : Json) : Except Thrown Int := cap.valueWith Json.getInt "version" 0

/-- `get<uint64_t>` of a revision; revisions do not come to 2 ^ 64. -/
def getRevision : Json → Except Thrown Nat
  | .int value => .ok (if value < 0 then (value.emod (2 ^ 64)).toNat else value.toNat)
  | .float value => .ok ((Json.truncate value).emod (2 ^ 64)).toNat
  | _ => .error (.typeError 302)

/-- `value("revision", uint64_t(0))`. -/
def revision (cap : Json) : Except Thrown Nat := cap.valueWith getRevision "revision" 0

/-- The loop of `latest_by_key`. -/
def latestFrom (library : Library) (key : Json) : List Json → Json → Except Thrown Json
  | [], latest => .ok latest
  | row :: rest, latest => do
    let cap ← handoff library row
    if (← version cap) = 2 ∧ capsuleKey cap = capsuleKey key then
      if (← revision latest) < (← revision cap) then latestFrom library key rest cap
      else latestFrom library key rest latest
    else latestFrom library key rest latest

/-- `latest_by_key`. -/
def latestByKey (library : Library) (rows : List Json) (key : Json) : Except Thrown Json :=
  latestFrom library key rows (.object [])


/-! ## The repositories of projects -/

/-- The repository of a project is its own key. -/
theorem gitIdentity_repository (files : Files) (project : String) :
    repositoryKey (str (gitIdentity files project) "repository") =
      str (gitIdentity files project) "repository" := by
  have found : str (gitIdentity files project) "repository" =
      repositoryKey (gitDirectories files project).1 := by
    simp [str, gitIdentity, Json.find_object, Assoc.lookup]
  rw [found]
  exact Ledger.repositoryKey_normal _

/-! ## What a checked capsule has -/

/-- A text that passed its check. -/
theorem boundedText_ok {value : Json} {bytes : Nat} {name : String}
    (checked : boundedText value bytes name = .ok ()) : ∃ text, value = .str text := by
  cases value with
  | str text => exact ⟨text, rfl⟩
  | _ => contradiction

/-- A copied text is that of the input; the other fields are kept. -/
theorem copyTexts_find {input out result : Json} {fields : List (String × Nat)}
    (done : copyTexts input fields out = .ok result) (name : String) :
    result.find name =
      if name ∈ fields.map (·.1) then some (.str (str input name)) else out.find name := by
  induction fields generalizing out with
  | nil =>
    obtain rfl := Except.ok.inj done
    simp
  | cons field rest ih =>
    obtain ⟨value, read, done⟩ := bind_ok done
    obtain ⟨_, checked, done⟩ := bind_ok done
    obtain ⟨middle, set, done⟩ := bind_ok done
    obtain ⟨text, is_text⟩ := boundedText_ok checked
    have own : value = .str (str input field.1) := by
      rw [is_text] at read ⊢
      cases input with
      | obj fields =>
        simp only [Json.valueJson, Json.valueWith] at read
        simp only [str, Json.find]
        cases found : Assoc.lookup field.1 fields with
        | none =>
          rw [found] at read
          exact (Except.ok.inj read).symm
        | some other =>
          rw [found] at read
          rw [Except.ok.inj read]
      | _ => contradiction
    rw [ih done, Json.find_set set, own]
    by_cases here : name = field.1
    · subst here
      simp
    · simp only [List.map_cons, List.mem_cons, here, false_or, if_false]

/-- Arrays leave the other fields. -/
theorem copyArrays_find {input out result : Json} {fields : List (String × Nat × Nat)}
    (done : copyArrays input fields out = .ok result) {name : String}
    (apart : name ∉ fields.map (·.1)) : result.find name = out.find name := by
  induction fields generalizing out with
  | nil => exact Except.ok.inj done ▸ rfl
  | cons field rest ih =>
    have own : name ≠ field.1 := fun same => apart (same ▸ List.mem_cons_self)
    have later : name ∉ rest.map (·.1) := fun inside => apart (List.mem_cons_of_mem _ inside)
    obtain ⟨value, _, done⟩ := bind_ok done
    cases value with
    | arr items =>
      dsimp only at done
      split at done
      · contradiction
      · obtain ⟨_, _, done⟩ := bind_ok done
        obtain ⟨middle, set, done⟩ := bind_ok done
        rw [ih done later, Json.find_set set, if_neg own]
    | _ => contradiction

/-- A capsule of version 2 with its revision and its key; its repository is its own key. -/
structure Checked (cap : Json) : Prop where
  /-- The version. -/
  version : cap.find "version" = some (.int 2)
  /-- The revision. -/
  revision : ∃ revision : Nat, cap.find "revision" = some (.int revision)
  /-- The repository. -/
  repository : ∃ path, cap.find "repository" = some (.str path) ∧ repositoryKey path = path
  /-- The stream. -/
  stream : ∃ name, cap.find "stream_id" = some (.str name)

/-- What a capsule is made of, one field after the other. -/
theorem capsuleV2_steps {library : Library} {input cap : Json} {revision : Nat} {now : Rat}
    (done : capsuleV2 library input revision now = .ok cap) :
    ∃ texts named state stated listed gates gated jobs,
      copyTexts input textFields (.object
        [("version", .int 2), ("revision", .int revision), ("saved_at", .float now)]) =
          .ok texts ∧
      texts.set "repository" (.str (repositoryKey (str texts "repository"))) = .ok named ∧
      named.set "state" (.str state) = .ok stated ∧
      copyArrays input arrayFields stated = .ok listed ∧
      listed.set "gates" gates = .ok gated ∧ gated.set "jobs" jobs = .ok cap := by
  obtain ⟨texts, copied, done⟩ := bind_ok done
  obtain ⟨named, first, done⟩ := bind_ok done
  split at done
  · contradiction
  · obtain ⟨state, _, done⟩ := bind_ok done
    obtain ⟨stated, second, done⟩ := bind_ok done
    split at done
    · contradiction
    · obtain ⟨listed, arrays, done⟩ := bind_ok done
      obtain ⟨gates, _, done⟩ := bind_ok done
      obtain ⟨_, _, done⟩ := bind_ok done
      obtain ⟨gated, third, done⟩ := bind_ok done
      obtain ⟨jobs, _, done⟩ := bind_ok done
      obtain ⟨_, _, done⟩ := bind_ok done
      obtain ⟨worked, fourth, done⟩ := bind_ok done
      split at done
      · contradiction
      · obtain rfl := Except.ok.inj done
        exact ⟨texts, named, state, stated, listed, gates, gated, jobs, copied, first, second,
          arrays, third, fourth⟩

/-- What `capsule_v2` makes of its input. -/
theorem capsuleV2_find {library : Library} {input cap : Json} {revision : Nat} {now : Rat}
    (done : capsuleV2 library input revision now = .ok cap) :
    cap.find "version" = some (.int 2) ∧ cap.find "revision" = some (.int revision) ∧
      cap.find "repository" = some (.str (repositoryKey (str input "repository"))) ∧
      ∀ name ∈ ["session_id", "stream_id", "project_dir"],
        cap.find name = some (.str (str input name)) := by
  obtain ⟨texts, named, state, stated, listed, gates, gated, jobs, copied, first, second, arrays,
    third, fourth⟩ := capsuleV2_steps done
  have kept : ∀ name, name ∉ ["jobs", "gates", "constraints", "dirty_paths", "blockers",
      "state", "repository"] → cap.find name = texts.find name := by
    intro name apart
    simp only [List.mem_cons, List.not_mem_nil, not_or, or_false] at apart
    obtain ⟨jobs, gates, constraints, paths, blockers, state, repository⟩ := apart
    rw [Json.find_set fourth, if_neg jobs, Json.find_set third, if_neg gates,
      copyArrays_find arrays (by simp [arrayFields, constraints, paths, blockers]),
      Json.find_set second, if_neg state, Json.find_set first, if_neg repository]
  have own : cap.find "repository" =
      some (.str (repositoryKey (str texts "repository"))) := by
    rw [Json.find_set fourth, if_neg (by decide), Json.find_set third, if_neg (by decide),
      copyArrays_find arrays (by decide), Json.find_set second, if_neg (by decide),
      Json.find_set first, if_pos rfl]
  have text : str texts "repository" = str input "repository" := by
    rw [str, copyTexts_find copied, if_pos (by decide)]
  refine ⟨?_, ?_, by rw [own, text], fun name inside => ?_⟩
  · rw [kept "version" (by decide), copyTexts_find copied, if_neg (by decide)]
    simp [Json.find_object, Assoc.lookup]
  · rw [kept "revision" (by decide), copyTexts_find copied, if_neg (by decide)]
    simp [Json.find_object, Assoc.lookup]
  · have apart : name ∉ ["jobs", "gates", "constraints", "dirty_paths", "blockers", "state",
        "repository"] := by
      revert name
      decide
    have copies : name ∈ textFields.map (·.1) := by
      revert name
      decide
    rw [kept name apart, copyTexts_find copied, if_pos copies]

/-- The repository of a key is canonical; that of a project is. -/
def Stable (key : Json) : Prop :=
  repositoryKey (repositoryKey (str key "repository")) = repositoryKey (str key "repository")

instance (key : Json) : Decidable (Stable key) := inferInstanceAs (Decidable (_ = _))

/-- The identity of a project is a stable key. -/
theorem gitIdentity_stable (files : Files) (project : String) :
    Stable (gitIdentity files project) := by
  unfold Stable
  rw [gitIdentity_repository, gitIdentity_repository]

/-- A capsule of a stable input is checked. -/
theorem checked_capsuleV2 {library : Library} {input cap : Json} {revision : Nat} {now : Rat}
    (done : capsuleV2 library input revision now = .ok cap) (stable : Stable input) :
    Checked cap := by
  obtain ⟨version, number, repository, texts⟩ := capsuleV2_find done
  exact ⟨version, ⟨revision, number⟩, ⟨_, repository, stable⟩, ⟨_, texts "stream_id" (by decide)⟩⟩

/-- It has the key of the input. -/
theorem keyOf_capsuleV2 {library : Library} {input cap : Json} {revision : Nat} {now : Rat}
    (done : capsuleV2 library input revision now = .ok cap) (stable : Stable input) :
    keyOf cap = keyOf input := by
  obtain ⟨_, _, repository, texts⟩ := capsuleV2_find done
  have session : str cap "session_id" = str input "session_id" := by
    rw [str, texts "session_id" (by decide)]
  have stream : str cap "stream_id" = str input "stream_id" := by
    rw [str, texts "stream_id" (by decide)]
  have path : repositoryKey (str cap "repository") = repositoryKey (str input "repository") := by
    rw [str, repository]
    exact stable
  simp only [keyOf, session, stream, path]

/-! ## Keys and their texts -/

/-- Capsules with one key have one text. -/
theorem capsuleKey_congr {left right : Json} (same : keyOf left = keyOf right) :
    capsuleKey left = capsuleKey right := by
  have repository :
      repositoryKey (str left "repository") = repositoryKey (str right "repository") :=
    congrArg Key.repository same
  have slot := congrArg Key.slot same
  simp only [keyOf] at slot
  rw [capsuleKey, capsuleKey, repository]
  split at slot
  · rename_i first
    split at slot
    · rename_i second
      rw [if_pos first, if_pos second, Slot.session.inj slot]
    · contradiction
  · rename_i first
    split at slot
    · contradiction
    · rename_i second
      rw [if_neg first, if_neg second, Slot.stream.inj slot]

/-- The capsule of a stream's key names the stream. -/
theorem stream_of_keyOf {left right : Json} (same : keyOf left = keyOf right) :
    str right "stream_id" = "" ∨ str left "stream_id" = str right "stream_id" := by
  have slot := congrArg Key.slot same
  simp only [keyOf] at slot
  split at slot
  · split at slot
    · rename_i none_given
      exact .inl none_given
    · contradiction
  · split at slot
    · contradiction
    · exact .inr (Slot.stream.inj slot)

/-- In one repository the text tells the keys apart. -/
theorem keyOf_of_capsuleKey {left right : Json}
    (repository : repositoryKey (str left "repository") = repositoryKey (str right "repository"))
    (same : capsuleKey left = capsuleKey right) : keyOf left = keyOf right := by
  rw [capsuleKey, capsuleKey, repository] at same
  have slots := (String.append_right_inj _).mp same
  have apart : ∀ one two : String, "session:" ++ one ≠ "stream:" ++ two := by
    intro one two equal
    have letters := congrArg (fun text : String => text.toList.drop 1 |>.head?) equal
    simp at letters
  have slot : (keyOf left).slot = (keyOf right).slot := by
    simp only [keyOf]
    split at slots
    · rename_i first
      split at slots
      · rename_i second
        rw [if_pos first, if_pos second, (String.append_right_inj _).mp slots]
      · exact absurd slots (apart _ _)
    · rename_i first
      split at slots
      · exact absurd slots.symm (apart _ _)
      · rename_i second
        rw [if_neg first, if_neg second, (String.append_right_inj _).mp slots]
  have key : ∀ cap : Json, keyOf cap = ⟨repositoryKey (str cap "repository"), (keyOf cap).slot⟩ :=
    fun _ => rfl
  rw [key left, key right, repository, slot]

/-! ## The latest capsule -/

/-- The revision of a checked capsule. -/
def revisionOf (cap : Json) : Nat :=
  match cap.find "revision" with
  | some (.int value) => value.toNat
  | _ => 0

/-- The capsule of version 2 in a row. -/
def capsuleIn (library : Library) (row : Json) : Option Json :=
  match handoff library row with
  | .ok cap =>
    match version cap with
    | .ok 2 => some cap
    | _ => none
  | .error _ => none

/-- A row whose capsule can be read. -/
def Readable (library : Library) (row : Json) : Prop :=
  ∃ cap number, handoff library row = .ok cap ∧ version cap = .ok number

/-- The version of a capsule is read. -/
theorem version_of_find {cap : Json} (found : cap.find "version" = some (.int 2)) :
    version cap = .ok 2 := by
  rw [version, Json.valueWith_of_find found]
  rfl

/-- So is its revision. -/
theorem revision_of_find {cap : Json} {number : Nat}
    (found : cap.find "revision" = some (.int number)) : revision cap = .ok (revisionOf cap) := by
  rw [revision, Json.valueWith_of_find found]
  simp [getRevision, revisionOf, found]

/-- A capsule that was checked has the version 2. -/
theorem Checked.version_eq {cap : Json} (checked : Checked cap) : Gateway.version cap = .ok 2 :=
  version_of_find checked.version

/-- Its revision is read. -/
theorem Checked.revision_eq {cap : Json} (checked : Checked cap) :
    Gateway.revision cap = .ok (revisionOf cap) := by
  obtain ⟨number, found⟩ := checked.revision
  exact revision_of_find found

/-- The capsules in rows that `latest_by_key` compares. -/
def candidates (library : Library) (key : Json) (rows : List Json) : List Json :=
  (rows.filterMap (capsuleIn library)).filter fun cap => capsuleKey cap = capsuleKey key

/-- The loop of `latest_by_key` finds the latest candidate. -/
theorem latestFrom_eq {library : Library} {key : Json} {rows : List Json} {best : Option Json}
    (readable : ∀ row ∈ rows, Readable library row)
    (checked : ∀ row ∈ rows, ∀ cap, capsuleIn library row = some cap → Checked cap)
    (start : ∀ cap, best = some cap → Checked cap) :
    latestFrom library key rows (best.getD (.object [])) =
      .ok ((MaxRegister.latest revisionOf (candidates library key rows) best).getD
          (.object [])) := by
  induction rows generalizing best with
  | nil => rfl
  | cons row rest ih =>
    obtain ⟨own, later⟩ := List.forall_mem_cons.mp readable
    obtain ⟨first, others⟩ := List.forall_mem_cons.mp checked
    obtain ⟨cap, number, found, read⟩ := own
    have best_revision : Gateway.revision (best.getD (.object [])) =
        .ok ((best.map revisionOf).getD 0) := by
      cases best with
      | none => rfl
      | some cap => exact (start cap rfl).revision_eq
    simp only [latestFrom, found, read, bind, Except.bind]
    by_cases compared : number = 2 ∧ capsuleKey cap = capsuleKey key
    · obtain ⟨two, same⟩ := compared
      have inside : capsuleIn library row = some cap := by simp only [capsuleIn, found, read, two]
      have among : candidates library key (row :: rest) = cap :: candidates library key rest := by
        simp [candidates, inside, same]
      have own_revision := (first cap inside).revision_eq
      rw [among, if_pos ⟨two, same⟩, MaxRegister.latest]
      simp only [best_revision, own_revision]
      split
      · have taken : ∀ other, some cap = some other → Checked other := fun other same =>
          Option.some.inj same ▸ first cap inside
        exact ih later others taken
      · exact ih later others start
    · have among : candidates library key (row :: rest) = candidates library key rest := by
        by_cases two : number = 2
        · have other : capsuleKey cap ≠ capsuleKey key := fun same => compared ⟨two, same⟩
          have inside : capsuleIn library row = some cap := by
            simp only [capsuleIn, found, read, two]
          simp [candidates, inside, other]
        · have absent : capsuleIn library row = none := by
            simp only [capsuleIn, found, read]
            split
            · rename_i equal
              exact absurd (Except.ok.inj equal) two
            · rfl
          simp [candidates, absent]
      rw [if_neg compared, among]
      exact ih later others start

end Chitta.Gateway
