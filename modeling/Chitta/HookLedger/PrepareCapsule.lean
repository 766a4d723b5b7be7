import Chitta.Gateway.Capsule
import Chitta.Utf8
import Mathlib.Data.List.Destutter

/-!
# The capsule of a stop

When a session stops, a capsule is prepared from the arguments, the files of the repository and the
capsule before. An action that the arguments leave out is that of the thread, of which the first
400 bytes are kept. A text that was cut inside of a character is not UTF-8, and a value that holds
one is refused when it is dumped.
-/
namespace Chitta.HookLedger

open Bytes (Text utf8)
open Gateway
  (Files arrayFields behindPrefix boundedText capsuleStates capsuleV2 checkGate checkGates
  checkJob checkJobs copyArrays copyTexts copyTexts_find filename getRevision
    gitDirectories metadata
  revision str textFields under)
open Ledger (Library repositoryKey)

/-! ## Values that may have been cut -/

/-- A value as the program holds it. -/
inductive Held where
  /-- A value with whole texts. -/
  | whole (value : Json)
  /-- A text of bytes, which may have been cut. -/
  | text (bytes : Text)

/-- The texts of a value are UTF-8. -/
def Held.Valid : Held → Prop
  | .whole _ => True
  | .text bytes => Utf8.Valid bytes

/-- The fields of an object. -/
abbrev Fields := List (String × Held)

/-- The texts of the fields are UTF-8. -/
def Fields.Valid (fields : Fields) : Prop := ∀ entry ∈ fields, entry.2.Valid

/-- `value`: a field, else a fallback. -/
def Fields.value (fields : Fields) (field : String) (fallback : Json) : Held :=
  (Assoc.lookup field fields).getD (.whole fallback)

/-- `str`: the bytes of a text field, else none. -/
def Fields.str (fields : Fields) (field : String) : Text :=
  match Assoc.lookup field fields with
  | some (.whole (.str text)) => utf8 text
  | some (.text bytes) => bytes
  | _ => []

/-- A value as the library dumps it: it throws on a text that is not UTF-8. -/
def Held.dumped : Held → Except Thrown Json
  | .whole value => .ok value
  | .text bytes =>
    match String.fromUTF8? bytes.toByteArray with
    | some string => .ok (.str string)
    | none => .error (.typeError 316)

/-- The loop of a dump over the fields. -/
def dumpedFields : Fields → Except Thrown (List (String × Json))
  | [] => .ok []
  | (field, held) :: rest => do
    let value ← held.dumped
    let others ← dumpedFields rest
    return (field, value) :: others

/-! ## The identity of a project -/

/-- The files of a daemon whose repositories are those of `git`: a line of `packed-refs` begins with
an id in letters and digits and a blank. -/
structure Repositories extends Files where
  /-- The first bytes of a line. -/
  ascii : ∀ path, ∀ line ∈ lines path, ∀ byte ∈ (utf8 line).take 41, byte < 128

/-- The head of a reference in the lines of `packed-refs`, cut at a byte. -/
def packedId (ref : Text) : List Text → Text → Text
  | [], head => head
  | line :: rest, head =>
    if 41 < line.length ∧ line.drop 41 = ref then packedId ref rest (line.take 40)
    else packedId ref rest head

/-- What the head of the worktree names. -/
def headText (files : Repositories) (common dir : String) : Text :=
  let head := files.firstLine (under dir "HEAD")
  match behindPrefix "ref: " head with
  | none => utf8 head
  | some ref =>
    let loose := files.firstLine (under common ref)
    if loose = "" then
      packedId (utf8 ref) ((files.lines (under common "packed-refs")).map utf8) []
    else utf8 loose

/-- The commit of the worktree. -/
def codeHead (files : Repositories) (common dir : String) : Text :=
  let head := headText files common dir
  if head.length = 40 ∨ head.length = 64 then head else []

/-- `git_identity`. -/
def identity (files : Repositories) (project : String) : Fields :=
  let (common, dir) := gitDirectories files.toFiles project
  [("code_head", .text (codeHead files common dir)),
    ("repository", .whole (.str (repositoryKey common))),
    ("stream_id", .whole (.str ((behindPrefix "codex-wt-" (filename project)).getD "")))]

/-! ## The check of a capsule -/

/-- `bounded_text`. -/
def Held.bounded (bytes : Nat) (name : String) : Held → Except Thrown Unit
  | .whole value => boundedText value bytes name
  | .text held =>
    if bytes < held.length then .error (.invalidArgument s!"capsule field limit: {name}")
    else .ok ()

/-- The texts are copied. -/
def copyHeld (input : Fields) : List (String × Nat) → Fields → Except Thrown Fields
  | [], out => .ok out
  | (field, limit) :: rest, out => do
    let value := input.value field (.str "")
    value.bounded limit field
    copyHeld input rest (Assoc.assign field value out)

/-- An array within its limits. -/
def checkArray (count length : Nat) (field : String) : Held → Except Thrown Unit
  | .whole (.arr items) => do
    if count < items.length then throw (.invalidArgument s!"capsule array limit: {field}")
    items.forM fun item => boundedText item length field
  | _ => .error (.invalidArgument s!"capsule array limit: {field}")

/-- The arrays are copied. -/
def copyHeldArrays (input : Fields) : List (String × Nat × Nat) → Fields → Except Thrown Fields
  | [], out => .ok out
  | (field, count, length) :: rest, out => do
    let value := input.value field (.arr [])
    checkArray count length field value
    copyHeldArrays input rest (Assoc.assign field value out)

/-- A repository is canonical; it is never cut. -/
def Held.canonical : Held → Held
  | .whole (.str path) => .whole (.str (repositoryKey path))
  | held => held

/-- `get<std::string>`. -/
def Held.getText : Held → Except Thrown Text
  | .whole value => value.getString.map utf8
  | .text bytes => .ok bytes

/-- The gates. -/
def Held.checkGates : Held → Except Thrown Unit
  | .whole gates => Gateway.checkGates gates
  | .text _ => .error (.invalidArgument "capsule gate limit")

/-- The jobs. -/
def Held.checkJobs : Held → Except Thrown Unit
  | .whole jobs => Gateway.checkJobs jobs
  | .text _ => .error (.invalidArgument "capsule job limit")

/-- `capsule_v2`. -/
def heldCapsule (library : Library) (input : Fields) (revision : Nat) (now : Rat) :
    Except Thrown Fields := do
  let out ← copyHeld input textFields
    [("revision", .whole (.int revision)), ("saved_at", .whole (.float now)),
      ("version", .whole (.int 2))]
  let out : Fields := Assoc.assign "repository" (out.value "repository" (.str "")).canonical out
  if out.str "repository" = [] ∨ (out.str "stream_id" = [] ∧ out.str "session_id" = []) then
    throw (.invalidArgument "capsule repository and stream/session key required")
  let state ← (input.value "state" (.str "in_progress")).getText
  let out : Fields := Assoc.assign "state" (.text state) out
  if state ∉ capsuleStates.map utf8 then throw (.invalidArgument "invalid capsule state")
  let out ← copyHeldArrays input arrayFields out
  let gates := input.value "gates" (.object [])
  gates.checkGates
  let out : Fields := Assoc.assign "gates" gates out
  let jobs := input.value "jobs" (.arr [])
  jobs.checkJobs
  let out : Fields := Assoc.assign "jobs" jobs out
  let dumped ← dumpedFields out
  if 4096 < (library.dump (.obj dumped)).utf8ByteSize then
    throw (.invalidArgument "capsule exceeds 4096 bytes")
  return out

/-! ## The capsule of the arguments and the thread -/

/-- The capsule of version 1. -/
structure Legacy where
  /-- `next_action`. -/
  nextAction : Text
  /-- `branch`. -/
  branch : String
  /-- `project_dir`. -/
  projectDir : String
  /-- `artifact_paths`. -/
  artifactPaths : Json
  /-- `blocker`. -/
  blocker : String
  /-- The kind of the source. -/
  kind : String
  /-- `session_id` of the source. -/
  sessionId : String
  /-- `thread_id` of the source. -/
  threadId : String
  /-- `saved_at`. -/
  savedAt : Rat

/-- `verified`. -/
def Legacy.verified (legacy : Legacy) : Bool := !legacy.nextAction.isEmpty

/-- The most bytes of an action that the thread gives. -/
def actionBytes : Nat := 400

/-- What the metadata of a thread say is next. -/
def nextOf (library : Library) (thread : Json) : Except Thrown Json := do
  let metadata ← metadata library thread
  let next ← metadata.valueJson "next_action" .null
  if next.isNull then
    match metadata.find "next_steps" with
    | some (.arr (first :: _)) => return first
    | _ => return next
  else return next

/-- The action of a thread. -/
def threadAction (library : Library) (thread : Json) : Except Thrown Text := do
  match ← nextOf library thread with
  | .str text => return (utf8 text).take actionBytes
  | _ => return []

/-- The paths in order, each once, and 20 of them at most. Of a list `std::sort` and `erase` make a
list; other values than an empty object have no such range. -/
def artifactPaths (input : Json) : Except Thrown Json := do
  match ← input.valueJson "artifact_paths" (.arr []) with
  | .arr items =>
    let sorted := items.mergeSort fun left right => !Json.less right left
    let distinct := sorted.destutter fun left right => Json.same left right = false
    return .arr (distinct.take 20)
  | .obj [] => return .obj []
  | .obj _ => throw (.typeError 209)
  | .null => throw (.typeError 307)
  | _ => throw (.typeError 204)

/-- The thread whose action is taken, when the arguments have none. -/
def actionThread (input session : Json) : String :=
  if str input "next_action" = "" then str session "thread_id" else ""

/-- The action of the arguments or of the thread. -/
def actionOf (library : Library) (input session thread : Json) : Except Thrown Text :=
  if actionThread input session = "" then .ok (utf8 (str input "next_action"))
  else threadAction library thread

/-- `capsule`. -/
def capsule (library : Library) (input session thread : Json) (savedAt : Rat) :
    Except Thrown Legacy := do
  let action ← actionOf library input session thread
  let paths ← artifactPaths input
  return {
    nextAction := action
    branch := str input "branch"
    projectDir := str input "project_dir"
    artifactPaths := paths
    blocker := str input "blocker"
    kind := if actionThread input session = "" then "visible_plan" else "ledger_thread"
    sessionId := str input "session_id"
    threadId := actionThread input session
    savedAt := savedAt }

/-! ## The request -/

/-- The request that binds the session to its capsule. -/
structure Binding where
  /-- `session_id`. -/
  sessionId : Json
  /-- `project_dir`. -/
  projectDir : Json
  /-- `expected_revision`. -/
  expectedRevision : Nat
  /-- `handoff`. -/
  handoff : Fields

/-- The fields of the capsule before that stay. -/
def keepFields (old : Json) (fields : List String) (input : Fields) : Fields :=
  fields.foldl (fun input field =>
    match old.find field with
    | some value => Assoc.assign field (.whole value) input
    | none => input) input

/-- Whether the code is where the capsule before has it. -/
def sameCode (old : Json) (head : Text) (dirty : Json) : Except Thrown Bool := do
  if utf8 (str old "code_head") = head then
    return Json.same (← old.valueJson "dirty_paths" (.arr [])) dirty
  else return false

/-- `prepare_capsule`. -/
def prepareCapsule (library : Library) (files : Repositories) (args session thread old : Json)
    (now : Rat) : Except Thrown Binding := do
  let legacy ← capsule library args session thread now
  let input := identity files (← args.valueString "project_dir" "")
  let input : Fields := Assoc.assign "session_id" (.whole (← args.at "session_id")) input
  let input : Fields := keepFields old ["objective", "constraints", "jobs"] input
  let input : Fields := Assoc.assign "project_dir" (.whole (← args.at "project_dir")) input
  let branch ← args.valueString "branch" ""
  let input : Fields := Assoc.assign "branch" (.whole (.str branch)) input
  let input : Fields := Assoc.assign "next_action" (.text legacy.nextAction) input
  let input : Fields := Assoc.assign "dirty_paths" (.whole legacy.artifactPaths) input
  let blocker ← args.valueString "blocker" ""
  let blockers := if blocker = "" then [] else [Json.str blocker]
  let input : Fields := Assoc.assign "blockers" (.whole (.arr blockers)) input
  let state := if legacy.verified then "in_progress" else "invalidated"
  let same ← sameCode old (input.str "code_head") legacy.artifactPaths
  -- A stop does not take back a milestone that was completed at the same code.
  let input : Fields := if same then keepFields old ["gates"] input else input
  let state :=
    if same && str old "state" == "complete" && legacy.nextAction.isEmpty then "complete"
    else state
  let input : Fields := Assoc.assign "state" (.whole (.str state)) input
  let number ← revision old
  let handoff ← heldCapsule library input (number + 1) now
  return ⟨← args.at "session_id", ← args.at "project_dir", number, handoff⟩

/-! ## Computations that do not meet a cut text -/

/-- The exception of a text that is not UTF-8 is not thrown. -/
def Encodes {α : Type} (program : Except Thrown α) : Prop := program ≠ .error (.typeError 316)

namespace Encodes

variable {α β : Type} {first : Except Thrown α} {second : α → Except Thrown β}

theorem ok (value : α) : Encodes (Except.ok value) := by simp [Encodes]

theorem bind (one : Encodes first) (two : ∀ value, first = .ok value → Encodes (second value)) :
    Encodes (first >>= second) := by
  cases first with
  | error thrown => exact fun same => one (congrArg _ (Except.error.inj same))
  | ok value => exact two value rfl

theorem ite {condition : Prop} [Decidable condition] {yes no : Except Thrown α}
    (one : condition → Encodes yes) (two : ¬condition → Encodes no) :
    Encodes (if condition then yes else no) := by
  split
  · exact one ‹_›
  · exact two ‹_›

/-- A guard that throws another exception. -/
theorem guard {condition : Prop} [Decidable condition] {thrown : Thrown}
    {rest : PUnit → Except Thrown α} (other : thrown ≠ .typeError 316)
    (passed : Encodes (rest ⟨⟩)) :
    Encodes (if condition then throw thrown >>= rest else rest ⟨⟩) :=
  ite (fun _ same => other (Except.error.inj same)) fun _ => passed

theorem forM {items : List α} {program : α → Except Thrown PUnit}
    (each : ∀ item ∈ items, Encodes (program item)) : Encodes (items.forM program) := by
  induction items with
  | nil => exact ok _
  | cons item rest ih =>
    obtain ⟨here, later⟩ := List.forall_mem_cons.mp each
    show Encodes (program item >>= fun _ => rest.forM program)
    exact bind here fun _ _ => ih later

end Encodes

theorem encodes_valueWith {α : Type} {get : Json → Except Thrown α}
    (spared : ∀ value, Encodes (get value)) (json : Json) (key : String) (fallback : α) :
    Encodes (json.valueWith get key fallback) := by
  cases json with
  | obj fields =>
    rw [Json.valueWith]
    split
    · exact spared _
    · exact .ok _
  | _ => simp [Encodes, Json.valueWith]

theorem encodes_valueString (json : Json) (key fallback : String) :
    Encodes (json.valueString key fallback) := by
  have spared (value : Json) : Encodes value.getString := by
    cases value <;> simp [Encodes, Json.getString]
  exact encodes_valueWith spared json key fallback

theorem encodes_valueJson (json : Json) (key : String) (fallback : Json) :
    Encodes (json.valueJson key fallback) :=
  encodes_valueWith .ok json key fallback

theorem encodes_at (json : Json) (key : String) : Encodes (json.at key) := by
  cases json with
  | obj fields =>
    rw [Json.at]
    split
    · exact .ok _
    · simp [Encodes]
  | _ => simp [Encodes, Json.at]

theorem encodes_boundedText (value : Json) (bytes : Nat) (name : String) :
    Encodes (boundedText value bytes name) := by
  cases value with
  | str text => exact .ite (fun _ => by simp [Encodes]) fun _ => .ok _
  | _ => simp [Encodes, boundedText]

theorem encodes_bounded (held : Held) (bytes : Nat) (name : String) :
    Encodes (held.bounded bytes name) := by
  cases held with
  | whole value => exact encodes_boundedText value bytes name
  | text held => exact .ite (fun _ => by simp [Encodes]) fun _ => .ok _

theorem encodes_checkArray (count length : Nat) (field : String) (held : Held) :
    Encodes (checkArray count length field held) := by
  unfold checkArray
  split
  · exact .guard (by simp) (.forM fun item _ => encodes_boundedText item length field)
  · simp [Encodes]

theorem encodes_checkGates (gates : Json) : Encodes (checkGates gates) := by
  cases gates with
  | obj fields =>
    refine .ite (fun _ => by simp [Encodes]) fun _ => .forM fun gate _ => ?_
    refine .bind (encodes_boundedText _ _ _) fun _ _ => ?_
    exact .ite (fun _ => by simp [Encodes, throw, throwThe, MonadExceptOf.throw]) fun _ => .ok _
  | _ => simp [Encodes, checkGates]

theorem encodes_checkJobs (jobs : Json) : Encodes (checkJobs jobs) := by
  cases jobs with
  | arr items =>
    refine .ite (fun _ => by simp [Encodes]) fun _ => .forM fun job _ => ?_
    cases job with
    | obj fields =>
      refine .ite (fun _ => by simp [Encodes]) fun _ => .bind (encodes_at _ _) fun id _ => ?_
      refine .bind (encodes_boundedText _ _ _) fun _ _ => .bind (encodes_at _ _) fun path _ => ?_
      exact encodes_boundedText _ _ _
    | _ => simp [Encodes, checkJob]
  | _ => simp [Encodes, checkJobs]

/-! ## Fields in UTF-8 -/

theorem dumped_ok {held : Held} (valid : held.Valid) : ∃ value, held.dumped = .ok value := by
  cases held with
  | whole value => exact ⟨value, rfl⟩
  | text bytes =>
    have encoded := (Utf8.valid_iff bytes).mp valid
    simp [Held.dumped, String.fromUTF8?, encoded]

/-- What was dumped is UTF-8. -/
theorem valid_of_dumped {held : Held} {value : Json} (done : held.dumped = .ok value) :
    held.Valid := by
  cases held with
  | whole value => trivial
  | text bytes =>
    by_cases encoded : bytes.toByteArray.IsValidUTF8
    · exact (Utf8.valid_iff bytes).mpr encoded
    · simp [Held.dumped, String.fromUTF8?, encoded] at done

theorem Fields.Valid.dumped {fields : Fields} (valid : fields.Valid) :
    ∃ values, dumpedFields fields = .ok values := by
  induction fields with
  | nil => exact ⟨[], rfl⟩
  | cons entry rest ih =>
    obtain ⟨here, later⟩ := List.forall_mem_cons.mp valid
    obtain ⟨value, own⟩ := dumped_ok here
    obtain ⟨values, others⟩ := ih later
    exact ⟨(entry.1, value) :: values, by simp [dumpedFields, own, others, bind, Except.bind, pure,
      Except.pure]⟩

/-- Fields that were dumped are UTF-8. -/
theorem valid_of_dumpedFields {fields : Fields} {values : List (String × Json)}
    (done : dumpedFields fields = .ok values) : fields.Valid := by
  induction fields generalizing values with
  | nil => exact fun _ inside => absurd inside List.not_mem_nil
  | cons entry rest ih =>
    obtain ⟨value, own, done⟩ := bind_ok done
    obtain ⟨others, later, _⟩ := bind_ok done
    exact List.forall_mem_cons.mpr ⟨valid_of_dumped own, ih later⟩

theorem Fields.Valid.assign {fields : Fields} {held : Held} (valid : fields.Valid)
    (whole : held.Valid) (field : String) : Fields.Valid (Assoc.assign field held fields) := by
  intro entry inside
  rcases Assoc.mem_assign inside with rfl | before
  · exact whole
  · exact valid entry before

theorem Fields.Valid.value {fields : Fields} (valid : fields.Valid) (field : String)
    (fallback : Json) : (fields.value field fallback).Valid := by
  rw [Fields.value]
  cases found : Assoc.lookup field fields with
  | none => trivial
  | some held => exact valid _ (Assoc.mem_of_lookup found)

theorem Fields.Valid.keepFields {input : Fields} (valid : input.Valid) (old : Json)
    (fields : List String) : Fields.Valid (keepFields old fields input) := by
  induction fields generalizing input with
  | nil => exact valid
  | cons field rest ih =>
    rw [HookLedger.keepFields, List.foldl_cons]
    refine ih ?_
    split
    · rename_i value _
      have whole : (Held.whole value).Valid := trivial
      exact valid.assign whole field
    · exact valid

/-- The cut of a line of `packed-refs` is behind an id. -/
theorem valid_packedId {ref head : Text} {lines : List Text}
    (ascii : ∀ line ∈ lines, ∀ byte ∈ line.take 41, byte < 128) (valid : Utf8.Valid head) :
    Utf8.Valid (packedId ref lines head) := by
  induction lines generalizing head with
  | nil => exact valid
  | cons line rest ih =>
    obtain ⟨own, others⟩ := List.forall_mem_cons.mp ascii
    rw [packedId]
    split
    · refine ih others (.ascii fun byte inside => own byte ?_)
      exact (List.take_prefix_take_left (by decide : 40 ≤ 41)).subset inside
    · exact ih others valid

theorem valid_headText (files : Repositories) (common dir : String) :
    Utf8.Valid (headText files common dir) := by
  unfold headText
  dsimp only
  split
  · exact Utf8.valid_utf8 _
  · split
    · refine valid_packedId ?_ .nil
      intro line inside
      obtain ⟨string, there, rfl⟩ := List.mem_map.mp inside
      exact files.ascii _ string there
    · exact Utf8.valid_utf8 _

theorem valid_codeHead (files : Repositories) (common dir : String) :
    Utf8.Valid (codeHead files common dir) := by
  unfold codeHead
  dsimp only
  split
  · exact valid_headText files common dir
  · exact .nil

theorem valid_identity (files : Repositories) (project : String) :
    (identity files project).Valid := by
  intro entry inside
  simp only [identity, List.mem_cons, List.not_mem_nil, or_false] at inside
  rcases inside with rfl | rfl | rfl
  · exact valid_codeHead files _ _
  · trivial
  · trivial

theorem valid_canonical {held : Held} (valid : held.Valid) : held.canonical.Valid := by
  unfold Held.canonical
  split
  · trivial
  · exact valid

theorem valid_getText {held : Held} {text : Text} (valid : held.Valid)
    (read : held.getText = .ok text) : Utf8.Valid text := by
  cases held with
  | whole value =>
    obtain ⟨string, _, rfl⟩ := map_ok read
    exact Utf8.valid_utf8 string
  | text bytes => exact Except.ok.inj read ▸ valid

theorem encodes_getText (held : Held) : Encodes held.getText := by
  cases held with
  | whole value => cases value <;> simp [Encodes, Held.getText, Json.getString, Except.map]
  | text bytes => exact .ok bytes

/-! ## The capsule is UTF-8 -/

section

variable {input out result : Fields}

theorem encodes_copyHeld (input : Fields) (fields : List (String × Nat)) (out : Fields) :
    Encodes (copyHeld input fields out) := by
  induction fields generalizing out with
  | nil => exact .ok out
  | cons field rest ih => exact .bind (encodes_bounded _ _ _) fun _ _ => ih _

theorem valid_copyHeld {fields : List (String × Nat)} (valid : input.Valid) (before : out.Valid)
    (done : copyHeld input fields out = .ok result) : result.Valid := by
  induction fields generalizing out with
  | nil => exact Except.ok.inj done ▸ before
  | cons field rest ih =>
    obtain ⟨_, _, done⟩ := bind_ok done
    exact ih (before.assign (valid.value _ _) _) done

theorem encodes_copyHeldArrays (input : Fields) (fields : List (String × Nat × Nat))
    (out : Fields) : Encodes (copyHeldArrays input fields out) := by
  induction fields generalizing out with
  | nil => exact .ok out
  | cons field rest ih => exact .bind (encodes_checkArray _ _ _ _) fun _ _ => ih _

theorem valid_copyHeldArrays {fields : List (String × Nat × Nat)} (valid : input.Valid)
    (before : out.Valid) (done : copyHeldArrays input fields out = .ok result) :
    result.Valid := by
  induction fields generalizing out with
  | nil => exact Except.ok.inj done ▸ before
  | cons field rest ih =>
    obtain ⟨_, _, done⟩ := bind_ok done
    exact ih (before.assign (valid.value _ _) _) done

/-- An input in UTF-8 is not refused for its encoding. -/
theorem encodes_heldCapsule (library : Library) (valid : input.Valid) (number : Nat) (now : Rat) :
    Encodes (heldCapsule library input number now) := by
  refine .bind (encodes_copyHeld _ _ _) fun texts copied => .guard (by simp) ?_
  refine .bind (encodes_getText _) fun state stated => .guard (by simp) ?_
  refine .bind (encodes_copyHeldArrays _ _ _) fun listed arrays => ?_
  refine .bind ?_ fun _ _ => .bind ?_ fun _ _ => ?_
  · cases input.value "gates" (.object []) with
    | whole gates => exact encodes_checkGates gates
    | text bytes => simp [Encodes, Held.checkGates]
  · cases input.value "jobs" (.arr []) with
    | whole jobs => exact encodes_checkJobs jobs
    | text bytes => simp [Encodes, Held.checkJobs]
  · have start : Fields.Valid [("revision", .whole (.int number)),
        ("saved_at", .whole (.float now)), ("version", .whole (.int 2))] := by
      simp [Fields.Valid, Held.Valid]
    have named := valid_copyHeld valid start copied
    have stable := named.assign (valid_canonical (named.value "repository" (.str ""))) "repository"
    have word : (Held.text state).Valid :=
      valid_getText (valid.value "state" (.str "in_progress")) stated
    have filled := valid_copyHeldArrays valid (stable.assign word "state") arrays
    have gated := filled.assign (valid.value "gates" (.object [])) "gates"
    have whole := gated.assign (valid.value "jobs" (.arr [])) "jobs"
    obtain ⟨values, dumped⟩ := whole.dumped
    refine .bind ?_ fun _ _ => .guard (by simp) (.ok _)
    rw [dumped]
    exact .ok values

/-- A capsule that is made is UTF-8, since it was dumped. -/
theorem valid_heldCapsule {library : Library} {number : Nat} {now : Rat}
    (done : heldCapsule library input number now = .ok result) : result.Valid := by
  obtain ⟨_, _, done⟩ := bind_ok done
  dsimp only at done
  split at done
  · contradiction
  · obtain ⟨_, _, done⟩ := bind_ok done
    split at done
    · contradiction
    · obtain ⟨_, _, done⟩ := bind_ok done
      obtain ⟨_, _, done⟩ := bind_ok done
      obtain ⟨_, _, done⟩ := bind_ok done
      obtain ⟨values, dumped, done⟩ := bind_ok done
      split at done
      · contradiction
      · exact Except.ok.inj done ▸ valid_of_dumpedFields dumped

end

/-! ## Inputs that were not cut -/

/-- The fields of an object, none of which was cut. -/
def wholeFields (fields : List (String × Json)) : Fields :=
  fields.map fun field => (field.1, .whole field.2)

theorem wholeFields_assign (fields : List (String × Json)) (field : String) (value : Json) :
    Assoc.assign field (.whole value) (wholeFields fields) =
      wholeFields (Assoc.assign field value fields) := by
  induction fields with
  | nil => rfl
  | cons entry rest ih =>
    simp only [wholeFields, List.map_cons, Assoc.assign] at ih ⊢
    rw [ih]
    split
    · rfl
    · split <;> rfl

theorem wholeFields_value (fields : List (String × Json)) (field : String) (fallback : Json) :
    (wholeFields fields).value field fallback =
      .whole ((Assoc.lookup field fields).getD fallback) := by
  rw [Fields.value, wholeFields, Assoc.lookup_map fun _ => Held.whole]
  cases Assoc.lookup field fields <;> rfl

theorem valueJson_obj (fields : List (String × Json)) (field : String) (fallback : Json) :
    (Json.obj fields).valueJson field fallback =
      .ok ((Assoc.lookup field fields).getD fallback) := by
  rw [Json.valueJson, Json.valueWith]
  cases Assoc.lookup field fields <;> rfl

theorem copyHeld_whole (input : List (String × Json)) (limits : List (String × Nat))
    (out : List (String × Json)) :
    (∃ thrown, copyHeld (wholeFields input) limits (wholeFields out) = .error thrown ∧
      copyTexts (.obj input) limits (.obj out) = .error thrown) ∨
    ∃ result, copyHeld (wholeFields input) limits (wholeFields out) = .ok (wholeFields result) ∧
      copyTexts (.obj input) limits (.obj out) = .ok (.obj result) := by
  induction limits generalizing out with
  | nil => exact .inr ⟨out, rfl, rfl⟩
  | cons limit rest ih =>
    rw [copyHeld, copyTexts, wholeFields_value, valueJson_obj, wholeFields_assign]
    cases fits : boundedText ((Assoc.lookup limit.1 input).getD (.str "")) limit.2 limit.1 with
    | error thrown =>
      left
      exact ⟨thrown, by simp [Held.bounded, fits, bind, Except.bind],
        by simp [fits, bind, Except.bind]⟩
    | ok =>
      simp only [Held.bounded, fits, bind, Except.bind, Json.set]
      exact ih _

theorem dumpedFields_whole (fields : List (String × Json)) :
    dumpedFields (wholeFields fields) = .ok fields := by
  induction fields with
  | nil => rfl
  | cons entry rest ih =>
    simp only [wholeFields, List.map_cons, dumpedFields] at ih ⊢
    rw [ih]
    rfl

theorem dumpedFields_assign {out : Fields} {values : List (String × Json)} {held : Held}
    {value : Json} (dumps : dumpedFields out = .ok values) (own : held.dumped = .ok value)
    (field : String) :
    dumpedFields (Assoc.assign field held out) = .ok (Assoc.assign field value values) := by
  induction out generalizing values with
  | nil =>
    obtain rfl := Except.ok.inj dumps
    simp [Assoc.assign, dumpedFields, own, bind, Except.bind, pure, Except.pure]
  | cons entry rest ih =>
    obtain ⟨name, old⟩ := entry
    obtain ⟨first, here, dumps⟩ := bind_ok dumps
    obtain ⟨others, later, dumps⟩ := bind_ok dumps
    obtain rfl := Except.ok.inj dumps
    simp only [Assoc.assign]
    split
    · simp [dumpedFields, own, later, bind, Except.bind, pure, Except.pure]
    · split
      · simp [dumpedFields, own, here, later, bind, Except.bind, pure, Except.pure]
      · simp [dumpedFields, here, ih later, bind, Except.bind, pure, Except.pure]

theorem copyHeldArrays_whole (input : List (String × Json))
    {limits : List (String × Nat × Nat)} {out : Fields} {values : List (String × Json)}
    (dumps : dumpedFields out = .ok values) :
    (∃ thrown, copyHeldArrays (wholeFields input) limits out = .error thrown ∧
      copyArrays (.obj input) limits (.obj values) = .error thrown) ∨
    ∃ fields result, copyHeldArrays (wholeFields input) limits out = .ok fields ∧
      dumpedFields fields = .ok result ∧
      copyArrays (.obj input) limits (.obj values) = .ok (.obj result) := by
  induction limits generalizing out values with
  | nil => exact .inr ⟨out, values, rfl, dumps, rfl⟩
  | cons limit rest ih =>
    obtain ⟨field, count, length⟩ := limit
    rw [copyHeldArrays, copyArrays, wholeFields_value, valueJson_obj]
    have next := ih (dumpedFields_assign dumps
      (rfl : (Held.whole ((Assoc.lookup field input).getD (.arr []))).dumped = .ok _) field)
    cases given : (Assoc.lookup field input).getD (.arr []) with
    | arr items =>
      rw [given] at next
      simp only [checkArray, bind, Except.bind, Json.set]
      by_cases many : count < items.length
      · exact .inl ⟨_, by rw [if_pos many]; rfl, by rw [if_pos many]; rfl⟩
      · rw [if_neg many, if_neg many]
        cases fits : items.forM fun item => boundedText item length field with
        | error thrown => exact .inl ⟨thrown, rfl, rfl⟩
        | ok => exact next
    | _ => exact .inl ⟨_, rfl, rfl⟩

theorem dumped_whole (value : Json) : (Held.whole value).dumped = .ok value := rfl

/-- A text that was not cut is dumped as it is. -/
theorem dumped_utf8 (text : String) : (Held.text (utf8 text)).dumped = .ok (.str text) := by
  rw [Held.dumped, Utf8.toByteArray_utf8, String.fromUTF8?, dif_pos text.isValidUTF8]
  rfl

theorem wholeFields_str (fields : List (String × Json)) (field : String) :
    (wholeFields fields).str field = utf8 (str (.obj fields) field) := by
  rw [Fields.str, wholeFields, Assoc.lookup_map fun _ => Held.whole, str, Json.find]
  cases Assoc.lookup field fields with
  | none => rfl
  | some value => cases value <;> rfl

theorem getText_whole (input : List (String × Json)) (field fallback : String) :
    ((wholeFields input).value field (.str fallback)).getText =
      ((Json.obj input).valueString field fallback).map utf8 := by
  rw [wholeFields_value, Held.getText, Json.valueString, Json.valueWith]
  cases Assoc.lookup field input <;> rfl

/-- The fields that a capsule begins with, in their order. -/
theorem object_begun (number : Nat) (now : Rat) :
    Json.object [("version", .int 2), ("revision", .int number), ("saved_at", .float now)] =
      .obj [("revision", .int number), ("saved_at", .float now), ("version", .int 2)] := by
  have one : "revision" < "version" := by decide
  have two : ¬"saved_at" < "revision" := by decide
  have three : "saved_at" < "version" := by decide
  simp only [Json.object, List.foldl_cons, List.foldl_nil, Assoc.assign, String.reduceEq, if_false,
    if_pos one, if_neg two, if_pos three]

/-- What one computation returns is dumped as the value of the other; they throw alike. -/
def Makes (held : Except Thrown Fields) (json : Except Thrown Json) : Prop :=
  (held >>= fun fields => (dumpedFields fields).map .obj) = json

namespace Makes

variable {α β : Type} {one : α → Except Thrown Fields} {other : β → Except Thrown Json}

theorem error (thrown : Thrown) : Makes (.error thrown) (.error thrown) := rfl

theorem ok {fields : Fields} {values : List (String × Json)}
    (dumps : dumpedFields fields = .ok values) : Makes (.ok fields) (.ok (.obj values)) :=
  congrArg (Except.map Json.obj) dumps

theorem map {check : Except Thrown β} {change : β → α}
    (each : ∀ value, check = .ok value → Makes (one (change value)) (other value)) :
    Makes (check.map change >>= one) (check >>= other) := by
  cases check with
  | error thrown => rfl
  | ok value => exact each value rfl

theorem same {check : Except Thrown PUnit} {one : PUnit → Except Thrown Fields}
    {other : PUnit → Except Thrown Json} (each : Makes (one ⟨⟩) (other ⟨⟩)) :
    Makes (check >>= one) (check >>= other) := by
  cases check with
  | error thrown => rfl
  | ok value => exact each

theorem guard {condition alike : Prop} [Decidable condition] [Decidable alike] {thrown : Thrown}
    {one : PUnit → Except Thrown Fields} {other : PUnit → Except Thrown Json}
    (iff : condition ↔ alike) (passed : Makes (one ⟨⟩) (other ⟨⟩)) :
    Makes (if condition then throw thrown >>= one else one ⟨⟩)
      (if alike then throw thrown >>= other else other ⟨⟩) := by
  by_cases holds : alike
  · rw [if_pos holds, if_pos (iff.mpr holds)]
    rfl
  · rw [if_neg holds, if_neg (iff.not.mpr holds)]
    exact passed

end Makes

/-- Of an input that was not cut the same capsule is made as of its value. -/
theorem heldCapsule_whole (library : Library) (input : List (String × Json)) (number : Nat)
    (now : Rat) :
    Makes (heldCapsule library (wholeFields input) number now)
      (capsuleV2 library (.obj input) number now) := by
  have empty (text : String) : utf8 text = [] ↔ text = "" := Utf8.utf8_injective.eq_iff' rfl
  rw [heldCapsule, capsuleV2, object_begun]
  rcases copyHeld_whole input textFields [("revision", .int number), ("saved_at", .float now),
    ("version", .int 2)] with ⟨thrown, one, other⟩ | ⟨texts, one, other⟩
  · have held : copyHeld (wholeFields input) textFields [("revision", .whole (.int number)),
        ("saved_at", .whole (.float now)), ("version", .whole (.int 2))] = .error thrown := one
    rw [held, other]
    exact .error thrown
  · have held : copyHeld (wholeFields input) textFields [("revision", .whole (.int number)),
        ("saved_at", .whole (.float now)), ("version", .whole (.int 2))] =
        .ok (wholeFields texts) := one
    have path : Assoc.lookup "repository" texts = some (.str (str (.obj input) "repository")) :=
      (copyTexts_find other "repository").trans (if_pos (by decide))
    have named : str (.obj texts) "repository" = str (.obj input) "repository" := by
      rw [str, Json.find, path]
    rw [held, other]
    show Makes (ite _ _ _) (ite _ _ _)
    rw [wholeFields_value, path, named, Option.getD_some, Held.canonical, wholeFields_assign]
    refine .guard (by simp only [wholeFields_str, empty]) ?_
    rw [getText_whole]
    refine .map fun state _ => ?_
    show Makes (ite _ _ _) (ite _ _ _)
    refine .guard (not_congr (List.mem_map_of_injective Utf8.utf8_injective)) ?_
    have begun := dumpedFields_assign (dumpedFields_whole (Assoc.assign "repository"
      (.str (repositoryKey (str (.obj input) "repository"))) texts)) (dumped_utf8 state) "state"
    rcases copyHeldArrays_whole input begun with
      ⟨thrown, one, other⟩ | ⟨listed, values, one, dumps, other⟩
    · rw [one, other]
      exact .error thrown
    · rw [one, other]
      show Makes (_ >>= _) (_ >>= _)
      rw [wholeFields_value, valueJson_obj]
      refine .same ?_
      show Makes (_ >>= _) (_ >>= _)
      rw [wholeFields_value, valueJson_obj]
      refine .same ?_
      have gated := dumpedFields_assign dumps
        (dumped_whole ((Assoc.lookup "gates" input).getD (.object []))) "gates"
      have whole := dumpedFields_assign gated
        (dumped_whole ((Assoc.lookup "jobs" input).getD (.arr []))) "jobs"
      dsimp only
      rw [whole]
      show Makes (ite _ _ _) (ite _ _ _)
      exact .guard .rfl (.ok whole)

/-! ## The request is UTF-8 -/

/-- The arguments have a list of paths, or none. -/
def takesPaths : Json → Bool
  | .obj fields =>
    match Assoc.lookup "artifact_paths" fields with
    | none => true
    | some (.arr _) => true
    | some (.obj []) => true
    | _ => false
  | _ => false

theorem artifactPaths_ok_iff (input : Json) :
    (∃ paths, artifactPaths input = .ok paths) ↔ takesPaths input = true := by
  cases input with
  | obj fields =>
    simp only [artifactPaths, Json.valueJson, Json.valueWith, takesPaths]
    cases Assoc.lookup "artifact_paths" fields with
    | none => simp [bind, Except.bind, pure, Except.pure]
    | some paths =>
      cases paths with
      | arr items => simp [bind, Except.bind, pure, Except.pure]
      | obj entries =>
        cases entries with
        | nil => simp [bind, Except.bind, pure, Except.pure]
        | cons entry rest => simp [bind, Except.bind, throw, throwThe, MonadExceptOf.throw]
      | _ => simp [bind, Except.bind, throw, throwThe, MonadExceptOf.throw]
  | _ => simp [artifactPaths, Json.valueJson, Json.valueWith, takesPaths, bind, Except.bind]

/-- No character reaches over the last byte that is kept of the action of the thread, when it is
the action of the capsule. -/
def ActionWhole (library : Library) (input session thread : Json) : Prop :=
  str input "next_action" = "" → str session "thread_id" ≠ "" → takesPaths input = true →
    ∀ text, nextOf library thread = .ok (.str text) → Utf8.Starts ((utf8 text).drop actionBytes)

section

variable {library : Library} {input session thread : Json} {savedAt : Rat}

/-- The action is UTF-8 when it was not cut inside of a character. -/
theorem valid_actionOf {action : Text} (whole : ActionWhole library input session thread)
    (listed : takesPaths input = true)
    (acted : actionOf library input session thread = .ok action) :
    Utf8.Valid action := by
  rw [actionOf] at acted
  split at acted
  · exact Except.ok.inj acted ▸ Utf8.valid_utf8 _
  · rename_i has_thread
    have none_given : str input "next_action" = "" := by
      by_contra given
      exact has_thread (by rw [actionThread, if_neg given])
    rw [actionThread, if_pos none_given] at has_thread
    obtain ⟨next, read, acted⟩ := bind_ok acted
    cases next with
    | str text =>
      obtain rfl := Except.ok.inj acted
      rw [(Utf8.valid_utf8 text).take_iff]
      exact whole none_given has_thread listed text read
    | _ => exact Except.ok.inj acted ▸ .nil

/-- The capsule is UTF-8 exactly when its action is not cut inside of a character. -/
theorem valid_capsule_iff :
    (∀ legacy, capsule library input session thread savedAt = .ok legacy →
      Utf8.Valid legacy.nextAction) ↔ ActionWhole library input session thread := by
  constructor
  · intro valid none_given has_thread listed text next
    obtain ⟨paths, found⟩ := (artifactPaths_ok_iff input).mpr listed
    have acted : actionOf library input session thread = .ok ((utf8 text).take actionBytes) := by
      have taken : actionThread input session ≠ "" := by rwa [actionThread, if_pos none_given]
      rw [actionOf, if_neg taken, threadAction, next]
      rfl
    rw [← (Utf8.valid_utf8 text).take_iff]
    have made : ∃ legacy, capsule library input session thread savedAt = .ok legacy ∧
        legacy.nextAction = (utf8 text).take actionBytes := by
      rw [capsule, acted]
      exact ⟨_, by rw [found]; rfl, rfl⟩
    obtain ⟨legacy, returned, same⟩ := made
    exact same ▸ valid legacy returned
  · intro whole legacy made
    obtain ⟨action, acted, made⟩ := bind_ok made
    obtain ⟨paths, found, made⟩ := bind_ok made
    obtain rfl := Except.ok.inj made
    exact valid_actionOf whole ((artifactPaths_ok_iff input).mp ⟨paths, found⟩) acted

theorem encodes_metadata (library : Library) (row : Json) : Encodes (metadata library row) := by
  refine .ite (fun _ => .bind (encodes_valueString _ _ _) fun text _ => ?_) fun _ => .ok _
  cases library.parse text with
  | none => exact .ok _
  | some value => exact .ok _

theorem encodes_capsule (library : Library) (input session thread : Json) (savedAt : Rat) :
    Encodes (capsule library input session thread savedAt) := by
  refine .bind (.ite (fun _ => .ok _) fun _ => .bind ?_ fun next _ => ?_) fun _ _ =>
    .bind ?_ fun _ _ => .ok _
  · refine .bind (encodes_metadata _ _) fun _ _ => .bind (encodes_valueJson _ _ _) fun _ _ => ?_
    refine .ite (fun _ => ?_) fun _ => .ok _
    split
    · exact .ok _
    · exact .ok _
  · cases next with
    | str text => exact .ok _
    | _ => exact .ok _
  · refine .bind (encodes_valueJson _ _ _) fun paths _ => ?_
    split
    · exact .ok _
    · exact .ok _
    all_goals simp [Encodes, throw, throwThe, MonadExceptOf.throw]

theorem encodes_revision (cap : Json) : Encodes (revision cap) := by
  have spared (value : Json) : Encodes (getRevision value) := by
    cases value <;> simp [Encodes, getRevision]
  exact encodes_valueWith spared cap "revision" 0

theorem encodes_sameCode (old : Json) (head : Text) (dirty : Json) :
    Encodes (sameCode old head dirty) :=
  .ite (fun _ => .bind (encodes_valueJson _ _ _) fun _ _ => .ok _) fun _ => .ok _

/-- A capsule in UTF-8 is prepared, or refused for another reason than its encoding. -/
theorem encodes_prepareCapsule {args : Json} {now : Rat} (files : Repositories) (old : Json)
    (whole : ActionWhole library args session thread) :
    Encodes (prepareCapsule library files args session thread old now) := by
  refine .bind (encodes_capsule _ _ _ _ _) fun legacy made => ?_
  have action : (Held.text legacy.nextAction).Valid := valid_capsule_iff.mpr whole legacy made
  have kept (value : Json) : (Held.whole value).Valid := trivial
  refine .bind (encodes_valueString _ _ _) fun project _ => .bind (encodes_at _ _) fun id _ => ?_
  refine .bind (encodes_at _ _) fun dir _ => .bind (encodes_valueString _ _ _) fun branch _ => ?_
  refine .bind (encodes_valueString _ _ _) fun blocker _ => ?_
  refine .bind (encodes_sameCode _ _ _) fun same _ => .bind (encodes_revision _) fun number _ => ?_
  refine .bind (encodes_heldCapsule library ?_ _ _) fun handoff _ => ?_
  · have begun := (valid_identity files project).assign (kept id) "session_id"
    have earlier := begun.keepFields old ["objective", "constraints", "jobs"]
    have placed := (earlier.assign (kept dir) "project_dir").assign (kept (.str branch)) "branch"
    have acted := placed.assign action "next_action"
    have filled := (acted.assign (kept legacy.artifactPaths) "dirty_paths").assign
      (kept (.arr (if blocker = "" then [] else [.str blocker]))) "blockers"
    refine Fields.Valid.assign ?_ (kept _) "state"
    split
    · exact filled.keepFields old _
    · exact filled
  · exact .bind (encodes_at _ _) fun _ _ => .bind (encodes_at _ _) fun _ _ => .ok _

/-- The capsule of a request is UTF-8. -/
theorem valid_prepareCapsule {files : Repositories} {args old : Json} {now : Rat}
    {binding : Binding}
    (done : prepareCapsule library files args session thread old now = .ok binding) :
    binding.handoff.Valid := by
  obtain ⟨_, _, done⟩ := bind_ok done
  obtain ⟨_, _, done⟩ := bind_ok done
  obtain ⟨_, _, done⟩ := bind_ok done
  obtain ⟨_, _, done⟩ := bind_ok done
  obtain ⟨_, _, done⟩ := bind_ok done
  obtain ⟨_, _, done⟩ := bind_ok done
  obtain ⟨_, _, done⟩ := bind_ok done
  obtain ⟨_, _, done⟩ := bind_ok done
  obtain ⟨handoff, made, done⟩ := bind_ok done
  obtain ⟨_, _, done⟩ := bind_ok done
  obtain ⟨_, _, done⟩ := bind_ok done
  obtain rfl := Except.ok.inj done
  exact valid_heldCapsule made

end

end Chitta.HookLedger
