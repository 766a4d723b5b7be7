import Chitta.HookLedger.PrepareCapsule
import Chitta.Ledger.Atomicity

/-!
# The card of a session

A new session is shown a card: after a compaction what the ledger has in its lists and the first 500
bytes of its snapshot, after a clear the task and the next step, of which 200 and 150 bytes are
kept, and else its name.
-/
namespace Chitta.HookLedger

open Bytes (Text utf8 newline)
open Gateway (str)
open Ledger (Library)
open Utf8 (Valid Starts continues small_of_all valid_utf8)

/-! ## Texts -/

/-- `prefix`: the first characters. -/
def prefixOf : Nat → Text → Text
  | _, [] => []
  | chars, byte :: rest =>
    if continues byte then byte :: prefixOf chars rest
    else match chars with
      | 0 => []
      | chars + 1 => byte :: prefixOf chars rest

/-- A space or a tab. -/
def isBlank (byte : UInt8) : Bool := byte == 32 || byte == 9

/-- `trim`. -/
def trim (text : Text) : Text :=
  ((text.dropWhile isBlank).reverse.dropWhile isBlank).reverse

/-- The bytes of a text, none of another value. -/
def textOf : Json → Text
  | .str text => utf8 text
  | _ => []

/-- `join`. -/
def join (separator : Text) : List Json → Text
  | [] => []
  | [value] => textOf value
  | value :: next :: rest => textOf value ++ separator ++ join separator (next :: rest)

/-- The values that a loop over a value meets. -/
def items : Json → List Json
  | .null => []
  | .arr values => values
  | .obj fields => fields.map (·.2)
  | value => [value]

/-- `str` with a fallback. -/
def strOr (json : Json) (field fallback : String) : String :=
  match json.find field with
  | some (.str text) => text
  | _ => fallback

/-! ## After a compaction -/

/-- A section of the card. -/
structure Section where
  /-- The field of the ledger. -/
  key : String
  /-- The line above. -/
  heading : String
  /-- What is in front of a line. -/
  bullet : String
  /-- Whether an empty line stands above. -/
  leading : Bool := true

/-- The sections. -/
def sections : List Section :=
  [{ key := "active_files", heading := "Files in context:", bullet := "  - ", leading := false },
    { key := "decisions", heading := "Decisions made:", bullet := "  - " },
    { key := "todos", heading := "Tasks:", bullet := "  " },
    { key := "blockers", heading := "Blockers:", bullet := "  ! " },
    { key := "discoveries", heading := "Discoveries:", bullet := "  * " }]

variable (library : Library)

/-- The text of a value in a section. -/
def rawText (key : String) (value : Json) : Text :=
  if key = "todos" then
    utf8 "[" ++ utf8 (strOr value "status" "null") ++ utf8 "] " ++
      utf8 (strOr value "content" "null")
  else
    match value with
    | .str text => utf8 text
    | _ => utf8 (library.dump value)

/-- A line of a section; an empty one is left out. -/
def bulletLine (bullet : String) (line : Text) : Text :=
  if trim line = [] then [] else utf8 bullet ++ trim line ++ [newline]

/-- The lines of a section. -/
def sectionBody (part : Section) (values : List Json) : Text :=
  values.flatMap fun value =>
    (Lines.lines newline (rawText library part.key value)).flatMap (bulletLine part.bullet)

/-- `section`. -/
def sectionText (ledger : Json) (part : Section) : Except Thrown Text := do
  let values ← ledger.valueJson part.key (.arr [])
  let body := sectionBody library part (items values)
  if body = [] then return []
  else
    return (if part.leading then [newline] else []) ++ utf8 part.heading ++ [newline] ++ body

/-- The sections, one after the other. -/
def sectionTexts (ledger : Json) : List Section → Except Thrown Text
  | [] => .ok []
  | part :: rest => do
    let text ← sectionText library ledger part
    let others ← sectionTexts ledger rest
    return text ++ others

/-- The most bytes of a snapshot. -/
def snapshotBytes : Nat := 500

/-- The end of the card: a snapshot of more than 20 characters. -/
def lastContext (snapshot : Text) : Text :=
  if prefixOf 20 snapshot ≠ snapshot then
    utf8 "\nLast context:\n" ++ (snapshot ++ [newline]).take snapshotBytes ++ [newline]
  else []

/-- The card after a compaction. -/
def compactCard (ledger : Json) : Except Thrown Text := do
  let body ← sectionTexts library ledger sections
  return utf8 "\n[session-restored]\n" ++ body ++ lastContext (utf8 (str ledger "snapshot")) ++
    utf8 "[/session-restored]\n\n"

/-! ## After a clear -/

/-- The most bytes of a task. -/
def goalBytes : Nat := 200

/-- The most bytes of a step. -/
def stepBytes : Nat := 150

/-- The task in a snapshot: what the first line with a goal says, or the first line. -/
def goalOf (snapshot : Text) : Text :=
  match (Lines.lines newline snapshot).find? fun line => (utf8 "Goal:").isPrefixOf line with
  | some line => trim (line.drop 5)
  | none => snapshot.takeWhile (· ≠ newline)

/-- The next step. -/
def nextStep (ledger : Json) : Except Thrown Text := do
  match ← ledger.valueJson "next_steps" (.arr []) with
  | .null => return []
  | .arr [] => return []
  | .arr (first :: _) => return textOf first
  | .obj [] => return []
  | _ => throw (.typeError 305)

/-- The values of `active_files`, 5 of them at most; `erase` does not cut an object. -/
def activeFiles (ledger : Json) : Except Thrown (List Json) := do
  match ← ledger.valueJson "active_files" (.arr []) with
  | .arr values => return values.take 5
  | .obj fields => if 5 < fields.length then throw (.typeError 209) else return fields.map (·.2)
  | value => return items value

/-- A line of the card; an empty one is left out. -/
def labelled (label : String) (text : Text) : Text :=
  if text = [] then [] else utf8 label ++ text

/-- The card after a clear. -/
def clearCard (ledger : Json) : Except Thrown Text := do
  let goal := (goalOf (utf8 (str ledger "snapshot"))).take goalBytes
  let next := (← nextStep ledger).take stepBytes
  let files ← activeFiles ledger
  return utf8 "[last-session]" ++ labelled "\nPrevious task: " goal ++
    labelled "\nNext step: " next ++
    (if files = [] then [] else utf8 "\nActive files: " ++ join (utf8 ", ") files) ++
    labelled "\nSaved: " (utf8 (str ledger "updated_at")) ++
    utf8 "\nRun /recap for full context. [/last-session]\n"

/-! ## The card -/

/-- The card with what it is of. -/
structure Card where
  /-- `card`. -/
  card : Text
  /-- `post_compact`. -/
  postCompact : Bool
  /-- `post_clear`. -/
  postClear : Bool
  /-- `ledger`. -/
  ledger : Json

/-- Whether the session was compacted. -/
def isCompact (ledger : Json) (source : String) : Bool :=
  source == "compact" || str ledger "mood" == "pre-compact"

/-- Whether the session was cleared, less than four hours after the ledger was written. -/
def isClear (readTime : String → Option Int) (ledger : Json) (source : String) (now : Rat) :
    Bool :=
  source == "clear" && (str ledger "mood" == "in_progress" || str ledger "mood" == "pre-compact") &&
    match readTime (str ledger "updated_at") with
    | some updated => decide (now - updated < 14400)
    | none => false

/-- The text of the card; `readTime` is `strptime` of a whole text and `timegm`. -/
def cardText (readTime : String → Option Int) (ledger : Json) (source : String) (now : Rat) :
    Except Thrown Text :=
  if isCompact ledger source then compactCard library ledger
  else if isClear readTime ledger source now then clearCard ledger
  else if str ledger "session_id" = "" then .ok []
  else
    .ok (utf8 "[ledger] " ++ utf8 (str ledger "session_id") ++ utf8 " (" ++
      utf8 (str ledger "mood") ++ utf8 ")\n")

/-- `ledger_card`. -/
def ledgerCard (readTime : String → Option Int) (ledger : Json) (source : String) (now : Rat) :
    Except Thrown Card := do
  let card ← cardText library readTime ledger source now
  return ⟨card, isCompact ledger source, isClear readTime ledger source now, ledger⟩

/-! ## What is not cut is UTF-8 -/

theorem small_blank (byte : UInt8) (blank : isBlank byte = true) : byte < 128 := by
  grind [isBlank]

theorem valid_trim {text : Text} (valid : Valid text) : Valid (trim text) :=
  (valid.dropWhile small_blank).dropWhileEnd small_blank

theorem valid_textOf (value : Json) : Valid (textOf value) := by
  cases value with
  | str text => exact valid_utf8 text
  | _ => exact .nil

theorem valid_flatMap {α : Type} {values : List α} {change : α → Text}
    (each : ∀ value ∈ values, Valid (change value)) : Valid (values.flatMap change) := by
  induction values with
  | nil => exact .nil
  | cons value rest ih =>
    obtain ⟨here, later⟩ := List.forall_mem_cons.mp each
    rw [List.flatMap_cons]
    exact here.append (ih later)

theorem valid_join {separator : Text} (valid : Valid separator) :
    ∀ values, Valid (join separator values)
  | [] => .nil
  | [value] => valid_textOf value
  | value :: next :: rest =>
    ((valid_textOf value).append valid).append (valid_join valid (next :: rest))

theorem valid_rawText (key : String) (value : Json) : Valid (rawText library key value) := by
  unfold rawText
  split
  · have status := (valid_utf8 "[").append (valid_utf8 (strOr value "status" "null"))
    exact (status.append (valid_utf8 "] ")).append (valid_utf8 _)
  · split
    · exact valid_utf8 _
    · exact valid_utf8 _

theorem valid_bulletLine (bullet : String) {line : Text} (valid : Valid line) :
    Valid (bulletLine bullet line) := by
  rw [bulletLine]
  split
  · exact .nil
  · exact ((valid_utf8 bullet).append (valid_trim valid)).append (.ascii (small_of_all (by decide)))

theorem valid_sectionBody (part : Section) (values : List Json) :
    Valid (sectionBody library part values) := by
  refine valid_flatMap fun value _ => valid_flatMap fun line inside => ?_
  exact valid_bulletLine _ ((valid_rawText library part.key value).lines line inside)

theorem valid_sectionText {ledger : Json} {part : Section} {text : Text}
    (done : sectionText library ledger part = .ok text) : Valid text := by
  obtain ⟨values, _, done⟩ := bind_ok done
  dsimp only at done
  split at done
  · exact Except.ok.inj done ▸ .nil
  · obtain rfl := Except.ok.inj done
    refine Valid.append
      (((Valid.append ?_ (valid_utf8 _))).append (.ascii (small_of_all (by decide))))
      (valid_sectionBody library part _)
    split
    · exact .ascii (small_of_all (by decide))
    · exact .nil

theorem valid_sectionTexts {ledger : Json} {parts : List Section} {text : Text}
    (done : sectionTexts library ledger parts = .ok text) : Valid text := by
  induction parts generalizing text with
  | nil => exact Except.ok.inj done ▸ .nil
  | cons part rest ih =>
    obtain ⟨first, here, done⟩ := bind_ok done
    obtain ⟨others, later, done⟩ := bind_ok done
    obtain rfl := Except.ok.inj done
    exact (valid_sectionText library here).append (ih later)

theorem valid_goalOf {snapshot : Text} (valid : Valid snapshot) : Valid (goalOf snapshot) := by
  rw [goalOf]
  split
  · rename_i line found
    have line_valid := valid.lines line (List.mem_of_find?_eq_some found)
    obtain ⟨rest, rfl⟩ := List.isPrefixOf_iff_prefix.mp (List.find?_some found)
    rw [(valid_utf8 "Goal:").append_iff] at line_valid
    have behind : (utf8 "Goal:" ++ rest).drop 5 = rest := by
      have five : (utf8 "Goal:").length = 5 := by decide
      rw [← five, List.drop_left]
    rw [behind]
    exact valid_trim line_valid
  · exact valid.takeWhile_ne (by decide)

theorem valid_labelled_iff (label : String) (text : Text) :
    Valid (labelled label text) ↔ Valid text := by
  rw [labelled]
  split
  · rename_i empty
    rw [empty]
  · exact (valid_utf8 label).append_iff

/-! ## What is cut -/

/-- No character reaches over the last byte that is kept of a long snapshot. -/
def SnapshotWhole (ledger : Json) : Prop :=
  let snapshot := utf8 (str ledger "snapshot")
  prefixOf 20 snapshot ≠ snapshot → Starts ((snapshot ++ [newline]).drop snapshotBytes)

/-- No character reaches over the last bytes that are kept of the task and of the next step, when
the lists of the ledger are read. -/
def TaskWhole (ledger : Json) : Prop :=
  ∀ next files, nextStep ledger = .ok next → activeFiles ledger = .ok files →
    Starts ((goalOf (utf8 (str ledger "snapshot"))).drop goalBytes) ∧ Starts (next.drop stepBytes)

/-- No character is cut on the card that is shown. -/
def CardWhole (readTime : String → Option Int) (ledger : Json) (source : String) (now : Rat) :
    Prop :=
  if isCompact ledger source then SnapshotWhole ledger
  else isClear readTime ledger source now → TaskWhole ledger

variable {library} {ledger : Json}

theorem valid_lastContext_iff {snapshot : Text} (valid : Valid snapshot) :
    Valid (lastContext snapshot) ↔
      (prefixOf 20 snapshot ≠ snapshot → Starts ((snapshot ++ [newline]).drop snapshotBytes)) := by
  rw [lastContext]
  split
  · rename_i long
    have line : Valid (snapshot ++ [newline]) := valid.append (.ascii (small_of_all (by decide)))
    have stop : Starts [newline] := .ascii (by decide)
    have end_valid : Valid [newline] := .ascii (small_of_all (by decide))
    rw [stop.append_iff, and_iff_left end_valid, (valid_utf8 _).append_iff, line.take_iff]
    exact ⟨fun starts _ => starts, fun starts => starts long⟩
  · rename_i short
    exact iff_of_true .nil fun long => absurd long short

theorem starts_labelled (label : String) (text : Text) {rest : Text} (starts : Starts rest)
    (some_byte : utf8 label ≠ []) : Starts (labelled label text ++ rest) := by
  rw [labelled]
  split
  · exact starts
  · rw [List.append_assoc]
    exact (valid_utf8 label).begins some_byte _

theorem sectionTexts_ok (object : ledger.isObject) (parts : List Section) :
    ∃ text, sectionTexts library ledger parts = .ok text := by
  induction parts with
  | nil => exact ⟨[], rfl⟩
  | cons part rest ih =>
    obtain ⟨others, later⟩ := ih
    have own : ∃ text, sectionText library ledger part = .ok text := by
      cases ledger with
      | obj fields =>
        simp only [sectionText, Json.valueJson, Json.valueWith]
        cases Assoc.lookup part.key fields with
        | none => exact ⟨_, rfl⟩
        | some values =>
          simp only [bind, Except.bind]
          split
          · exact ⟨_, rfl⟩
          · exact ⟨_, rfl⟩
      | _ => contradiction
    obtain ⟨text, here⟩ := own
    rw [sectionTexts, here, later]
    exact ⟨_, rfl⟩

/-- The card after a compaction is UTF-8 when its snapshot is. -/
theorem valid_compactCard_iff :
    (∀ card, compactCard library ledger = .ok card → Valid card) ↔ SnapshotWhole ledger := by
  have snapshot := valid_utf8 (str ledger "snapshot")
  have shown (body : Text) (valid : Valid body) :
      Valid (utf8 "\n[session-restored]\n" ++ body ++ lastContext (utf8 (str ledger "snapshot")) ++
        utf8 "[/session-restored]\n\n") ↔ SnapshotWhole ledger := by
    have foot := valid_utf8 "[/session-restored]\n\n"
    have starts : Starts (utf8 "[/session-restored]\n\n") := by
      simpa using foot.starts Utf8.starts_nil
    rw [starts.append_iff, and_iff_left foot,
      ((valid_utf8 "\n[session-restored]\n").append valid).append_iff,
      valid_lastContext_iff snapshot]
    rfl
  constructor
  · intro valid long
    have object : ledger.isObject = true := by
      cases ledger with
      | obj fields => rfl
      | _ => exact absurd rfl long
    obtain ⟨body, made⟩ := @sectionTexts_ok library ledger object sections
    refine (shown body (valid_sectionTexts library made)).mp (valid _ ?_) long
    rw [compactCard, made]
    rfl
  · intro whole card done
    obtain ⟨body, made, done⟩ := bind_ok done
    obtain rfl := Except.ok.inj done
    rw [shown body (valid_sectionTexts library made)]
    exact whole

/-- The card after a clear is UTF-8 when its task and its next step are. -/
theorem valid_clearCard_iff :
    (∀ card, clearCard ledger = .ok card → Valid card) ↔ TaskWhole ledger := by
  have goal := valid_goalOf (valid_utf8 (str ledger "snapshot"))
  -- What stands behind the task and the step is UTF-8 and begins with a line break.
  have shown (next : Text) (files : List Json) (valid : Valid next) :
      Valid (utf8 "[last-session]" ++
        labelled "\nPrevious task: " ((goalOf (utf8 (str ledger "snapshot"))).take goalBytes) ++
        labelled "\nNext step: " (next.take stepBytes) ++
        (if files = [] then [] else utf8 "\nActive files: " ++ join (utf8 ", ") files) ++
        labelled "\nSaved: " (utf8 (str ledger "updated_at")) ++
        utf8 "\nRun /recap for full context. [/last-session]\n") ↔
      Starts ((goalOf (utf8 (str ledger "snapshot"))).drop goalBytes) ∧
        Starts (next.drop stepBytes) := by
    have foot := valid_utf8 "\nRun /recap for full context. [/last-session]\n"
    have saved : Valid (labelled "\nSaved: " (utf8 (str ledger "updated_at"))) :=
      (valid_labelled_iff _ _).mpr (valid_utf8 _)
    have listed : Valid (if files = [] then [] else
        utf8 "\nActive files: " ++ join (utf8 ", ") files) := by
      split
      · exact .nil
      · exact (valid_utf8 _).append (valid_join (valid_utf8 _) files)
    have behind := listed.append (saved.append foot)
    have starts := behind.starts Utf8.starts_nil
    rw [List.append_nil] at starts
    have step_starts := starts_labelled "\nNext step: " (next.take stepBytes) starts (by decide)
    simp only [List.append_assoc] at step_starts ⊢
    rw [(valid_utf8 _).append_iff, step_starts.append_iff, starts.append_iff,
      and_iff_left behind, valid_labelled_iff, valid_labelled_iff, goal.take_iff,
      valid.take_iff]
  have step_valid {next : Text} (read : nextStep ledger = .ok next) : Valid next := by
    obtain ⟨steps, _, read⟩ := bind_ok read
    split at read
    · exact Except.ok.inj read ▸ .nil
    · exact Except.ok.inj read ▸ .nil
    · exact Except.ok.inj read ▸ valid_textOf _
    · exact Except.ok.inj read ▸ .nil
    · contradiction
  constructor
  · intro valid next files stepped filed
    refine (shown next files (step_valid stepped)).mp (valid _ ?_)
    rw [clearCard, stepped]
    simp only [bind, Except.bind, filed]
    rfl
  · intro whole card done
    obtain ⟨next, stepped, done⟩ := bind_ok done
    obtain ⟨files, filed, done⟩ := bind_ok done
    obtain rfl := Except.ok.inj done
    exact (shown next files (step_valid stepped)).mpr (whole next files stepped filed)

section

variable {readTime : String → Option Int} {source : String} {now : Rat}

theorem valid_cardText_iff :
    (∀ text, cardText library readTime ledger source now = .ok text → Valid text) ↔
      CardWhole readTime ledger source now := by
  rw [CardWhole]
  by_cases compact : isCompact ledger source = true
  · simp only [cardText, if_pos compact]
    exact valid_compactCard_iff
  · by_cases clear : isClear readTime ledger source now = true
    · simp only [cardText, if_neg compact, clear, ↓reduceIte, true_imp_iff]
      exact valid_clearCard_iff
    · simp only [cardText, if_neg compact, if_neg clear]
      refine iff_of_true (fun text made => ?_) fun cleared => absurd cleared clear
      split at made
      · exact Except.ok.inj made ▸ .nil
      · have named := ((valid_utf8 "[ledger] ").append (valid_utf8 (str ledger "session_id")))
        have mood := (valid_utf8 " (").append (valid_utf8 (str ledger "mood"))
        obtain rfl := Except.ok.inj made
        rw [List.append_assoc, List.append_assoc, List.append_assoc, ← List.append_assoc]
        rw [← List.append_assoc (utf8 " (")]
        exact named.append (mood.append (valid_utf8 ")\n"))

/-- A card is UTF-8 exactly when no character is cut on it. -/
theorem valid_ledgerCard_iff :
    (∀ card, ledgerCard library readTime ledger source now = .ok card → Valid card.card) ↔
      CardWhole readTime ledger source now := by
  rw [← @valid_cardText_iff library]
  constructor
  · intro valid text made
    refine valid ⟨text, isCompact ledger source, isClear readTime ledger source now, ledger⟩ ?_
    rw [ledgerCard, made]
    rfl
  · intro valid card done
    obtain ⟨text, made, done⟩ := bind_ok done
    obtain rfl := Except.ok.inj done
    exact valid text made

end

/-! ## Capsules and cards -/

/-- What a capsule, the request of a stop and a card have for their texts. -/
structure InUtf8 (library : Library) (files : Repositories) (readTime : String → Option Int)
    (args session thread old ledger : Json) (source : String) (now : Rat) : Prop where
  /-- A capsule is UTF-8. -/
  capsule : ∀ legacy, capsule library args session thread now = .ok legacy → Valid legacy.nextAction
  /-- A request is not refused for its encoding. -/
  prepared : prepareCapsule library files args session thread old now ≠ .error (.typeError 316)
  /-- The capsule of a request is UTF-8. -/
  handoff : ∀ binding, prepareCapsule library files args session thread old now = .ok binding →
    binding.handoff.Valid
  /-- A card is UTF-8. -/
  card : ∀ card, ledgerCard library readTime ledger source now = .ok card → Valid card.card

/-- Capsules and cards are UTF-8 exactly when no character reaches over the last byte that is kept
of an action, a snapshot, a task or a next step. -/
theorem inUtf8_iff (library : Library) (files : Repositories) (readTime : String → Option Int)
    (args session thread old ledger : Json) (source : String) (now : Rat) :
    InUtf8 library files readTime args session thread old ledger source now ↔
      ActionWhole library args session thread ∧ CardWhole readTime ledger source now := by
  constructor
  · intro valid
    exact ⟨valid_capsule_iff.mp valid.capsule, valid_ledgerCard_iff.mp valid.card⟩
  · rintro ⟨action, card⟩
    exact {
      capsule := valid_capsule_iff.mpr action
      prepared := encodes_prepareCapsule files old action
      handoff := fun _ done => valid_prepareCapsule done
      card := valid_ledgerCard_iff.mpr card }

/-- The next action of a thread, in which a letter of two bytes begins at byte 399. -/
def longAction : String := String.ofList (List.replicate 399 'a' ++ ['é'])

/-- The metadata of the thread. -/
def longMetadata : Json := .object [("next_action", .str longAction)]

/-- The metadata that a library knows are read from their text. -/
theorem metadata_plain (value : Json) (object : value.isObject) :
    Gateway.metadata (Ledger.plainLibrary [value])
      (.obj [("metadata_json", .str (Ledger.plainText value))]) = .ok value := by
  have parsed : (Ledger.plainLibrary [value]).parse (Ledger.plainText value) = some value := by
    simp [Ledger.plainLibrary]
  have read : (Json.obj [("metadata_json", .str (Ledger.plainText value))]).valueString
      "metadata_json" "\x7b\x7d" = .ok (Ledger.plainText value) := rfl
  have row : (Json.obj [("metadata_json", .str (Ledger.plainText value))]).isObject = true := rfl
  rw [Gateway.metadata, if_pos row, read]
  simp only [bind, Except.bind, parsed, if_pos object]
  rfl

/-- A session that stops without an action of its own has the long action of its thread cut inside
of the letter. -/
theorem action_cut :
    let library : Library := Ledger.plainLibrary [longMetadata]
    let files : Repositories :=
      { firstLine := fun _ => "", lines := fun _ => [], ascii := by simp }
    ¬ InUtf8 library files (fun _ => none)
      (.obj [("project_dir", .str "/p"), ("session_id", .str "s")])
      (.obj [("thread_id", .str "t")])
      (.obj [("metadata_json", .str (Ledger.plainText longMetadata))]) (.obj []) (.obj [])
      "startup" 0 := by
  intro library files valid
  have next : nextOf library (.obj [("metadata_json", .str (Ledger.plainText longMetadata))]) =
      .ok (.str longAction) := by
    rw [nextOf, metadata_plain longMetadata rfl]
    rfl
  have whole : Starts ((utf8 longAction).drop 400) :=
    valid_capsule_iff.mp valid.capsule rfl (by decide) rfl longAction next
  have cut : (utf8 longAction).drop 400 = [0xa9] := by decide +kernel
  rw [cut] at whole
  exact absurd (whole 0xa9 rfl) (by decide)

end Chitta.HookLedger
