import Chitta.OutputCache.Cap
/-!
# References to capped outputs

`output_ref` reads the text behind a reference, as long as its file has not expired. Between the two
calls other outputs may be capped, also with the same twelve digits, others read, and files expire.
-/
namespace Chitta.OutputCache

open Bytes Utf8 Decimal

/-- `SIZE_MAX`. -/
def sizeMax : Nat := 18446744073709551615

/-- `[1-9][0-9]*` and `std::stoull`. -/
def readNumber : Text → Option Nat
  | [] => none
  | first :: rest =>
    if first ≠ 48 ∧ (first :: rest).all isDigit ∧ value (first :: rest) ≤ sizeMax then
      some (value (first :: rest))
    else none

/-- `[1-9][0-9]*-[1-9][0-9]*` with the first line not behind the last one. -/
def readRange (range : Text) : Option (Nat × Nat) := do
  let (before, after) ← cutAt (utf8 "-") range
  let first ← readNumber before
  let last ← readNumber after
  if last < first then none else some (first, last)

/-- The loop over the arguments: the last hash and the last range. -/
def readArguments (hash range : Text) : List Text → Option (Text × Text)
  | [] => some (hash, range)
  | [_] => none
  | flag :: value :: rest =>
    if flag = utf8 "--hash" then readArguments value range rest
    else if flag = utf8 "--lines" then readArguments hash value rest
    else none

/-- The reference and the lines that are asked for; none is an error in the arguments. -/
def request (arguments : List Text) : Option (Text × Option (Nat × Nat)) := do
  let (hash, range) ← readArguments [] [] arguments
  if !isReference hash then none
  else if range = [] then some (hash, none)
  else (readRange range).map fun asked => (hash, some asked)

/-- What the command prints and its status. -/
structure Reply where
  /-- The status. -/
  status : Nat
  /-- The output. -/
  output : Text

/-- The lines from one to another. -/
def rowsBetween (first last : Nat) (text : Text) : Text :=
  (((lines text).take (min last (lines text).length)).drop (first - 1)).flatten

/-- What is printed of a found file. -/
def answer (text : Text) : Option (Nat × Nat) → Reply
  -- A stream without characters fails.
  | none => ⟨if text = [] then 1 else 0, text⟩
  | some (first, last) => ⟨0, rowsBetween first last text⟩

/-- `run` for `output_ref`: the reply and the files. -/
def outputRef (host : Host) (arguments : List Text) (dir : Directory) : Reply × Directory :=
  match request arguments with
  | none => (⟨2, []⟩, dir)
  | some (hash, range) =>
    let dir := expire host.now host.hours dir
    match dir hash with
    | none => (⟨1, []⟩, dir)
    | some file => (answer file.content range, dir)

/-! ## Runs -/

/-- One process. -/
inductive Op where
  /-- An output is capped. -/
  | cap (host : Host) (text : Text)
  /-- A reference is read. -/
  | outputRef (host : Host) (arguments : List Text)
  /-- Files expire. -/
  | expire (now : Int) (hours : Nat)

variable (sha256 : Digest)

/-- The files that are left when the process has let files expire. -/
def Op.expired : Op → Directory → Directory
  | .cap host text, dir =>
    if chars text ≤ host.limit ∨ host.prepares = false then dir
    else OutputCache.expire host.now host.hours dir
  | .outputRef host arguments, dir =>
    if request arguments = none then dir else OutputCache.expire host.now host.hours dir
  | .expire now hours, dir => OutputCache.expire now hours dir

/-- The files behind the process. -/
def Op.after : Op → Directory → Directory
  | .cap host text, dir => (OutputCache.cap sha256 host text dir).2
  | .outputRef host arguments, dir => (OutputCache.outputRef host arguments dir).2
  | .expire now hours, dir => OutputCache.expire now hours dir

/-- The files behind some processes. -/
def run (dir : Directory) : List Op → Directory
  | [] => dir
  | op :: ops => run (op.after sha256 dir) ops

/-- No process lets the file expire. -/
def Stays (name : Text) : Directory → List Op → Prop
  | _, [] => True
  | dir, op :: ops => (op.expired dir name).isSome = true ∧ Stays name (op.after sha256 dir) ops

variable {sha256}

/-- A file that has not expired is as it was. -/
theorem expire_of_isSome {now : Int} {hours : Nat} {dir : Directory} {name : Text} {file : File}
    (there : dir name = some file) (stays : (expire now hours dir name).isSome = true) :
    expire now hours dir name = some file := by
  rw [expire, there] at stays ⊢
  rw [Option.isSome_filter] at stays
  apply Option.filter_eq_some_iff.mpr
  exact ⟨rfl, by simpa using stays⟩

/-- The file of a name holds a text. -/
def Holds (name text : Text) (dir : Directory) : Prop :=
  ∃ file, dir name = some file ∧ file.content = text

/-- A process that does not let the file of a text expire leaves the text in it. -/
theorem holds_after {op : Op} {dir : Directory} {text : Text}
    (holds : Holds (reference sha256 text) text dir)
    (stays : (op.expired dir (reference sha256 text)).isSome = true) :
    Holds (reference sha256 text) text (op.after sha256 dir) := by
  obtain ⟨file, there, content⟩ := holds
  cases op with
  | expire now hours => exact ⟨file, expire_of_isSome there stays, content⟩
  | outputRef host arguments =>
    show Holds _ _ (OutputCache.outputRef host arguments dir).2
    rw [OutputCache.outputRef]
    cases asked : request arguments with
    | none => exact ⟨file, there, content⟩
    | some found =>
      have wanted : request arguments ≠ none := by simp [asked]
      rw [Op.expired, if_neg wanted] at stays
      have kept := expire_of_isSome there stays
      obtain ⟨hash, range⟩ := found
      simp only
      cases OutputCache.expire host.now host.hours dir hash with
      | none => exact ⟨file, kept, content⟩
      | some other => exact ⟨file, kept, content⟩
  | cap host other =>
    show Holds _ _ (OutputCache.cap sha256 host other dir).2
    rw [OutputCache.cap]
    rw [Op.expired] at stays
    by_cases short : chars other ≤ host.limit
    · rw [if_pos short]
      exact ⟨file, there, content⟩
    · rw [if_neg short]
      by_cases prepared : host.prepares = true
      · rw [if_neg (by simp [short, prepared])] at stays
        have kept := expire_of_isSome there stays
        rw [if_neg (by simp [prepared])]
        simp only
        split
        · exact ⟨file, kept, content⟩
        · rename_i free
          split
          · exact ⟨file, kept, content⟩
          · by_cases same : reference sha256 text = reference sha256 other
            · -- The file is only replaced by its own text.
              rw [← same, kept] at free
              have own : file.content = other := by simpa using free
              exact ⟨⟨other, host.written⟩, if_pos same, own.symm.trans content⟩
            · exact ⟨file, (if_neg same).trans kept, content⟩
      · rw [if_pos (by simpa using prepared)]
        exact ⟨file, there, content⟩

/-- Processes that do not let the file of a text expire leave the text in it. -/
theorem holds_run {ops : List Op} {dir : Directory} {text : Text}
    (holds : Holds (reference sha256 text) text dir)
    (stays : Stays sha256 (reference sha256 text) dir ops) :
    Holds (reference sha256 text) text (run sha256 dir ops) := by
  induction ops generalizing dir with
  | nil => exact holds
  | cons op ops ih => exact ih (holds_after holds stays.1) stays.2

/-- The processes before a last one, and that one. -/
theorem stays_append {name : Text} {ops : List Op} {op : Op} {dir : Directory}
    (stays : Stays sha256 name dir (ops ++ [op])) :
    Stays sha256 name dir ops ∧ (op.expired (run sha256 dir ops) name).isSome = true := by
  induction ops generalizing dir with
  | nil => exact ⟨trivial, stays.1⟩
  | cons first ops ih =>
    have others := ih stays.2
    exact ⟨⟨stays.1, others.1⟩, others.2⟩

/-! ## Requests -/

/-- A byte is found where it first stands. -/
theorem cutAt_of_absent {byte : UInt8} {front : Text} (absent : byte ∉ front) (rest : Text) :
    cutAt [byte] (front ++ byte :: rest) = some (front, rest) := by
  induction front with
  | nil => simp [cutAt]
  | cons other front ih =>
    have apart : byte ≠ other := fun same => absent (same ▸ List.mem_cons_self)
    have inner := ih fun inside => absent (List.mem_cons_of_mem other inside)
    rw [List.cons_append, cutAt, if_neg (by simp [apart]), inner]
    rfl

/-- A number is read. -/
theorem readNumber_decimal {number : Nat} (positive : 0 < number) (small : number ≤ sizeMax) :
    readNumber (decimal number) = some number := by
  obtain ⟨digit, rest, written, apart⟩ := head_decimal positive
  have digits : (decimal number).all isDigit = true :=
    List.all_eq_true.mpr (isDigit_decimal number)
  have back := value_decimal number
  rw [written] at digits back ⊢
  rw [readNumber, back, if_pos ⟨apart, digits, small⟩]

/-- A range is read. -/
theorem readRange_decimal {first last : Nat} (positive : 0 < first) (order : first ≤ last)
    (small : last ≤ sizeMax) :
    readRange (decimal first ++ utf8 "-" ++ decimal last) = some (first, last) := by
  have absent : (45 : UInt8) ∉ decimal first := by
    intro inside
    have digit := isDigit_decimal first 45 inside
    exact absurd digit (by decide)
  have dash : utf8 "-" = [45] := by decide
  have parts : cutAt (utf8 "-") (decimal first ++ utf8 "-" ++ decimal last) =
      some (decimal first, decimal last) := by
    rw [dash, List.append_assoc]
    exact cutAt_of_absent absent (decimal last)
  have one := readNumber_decimal positive (Nat.le_trans order small)
  have other := readNumber_decimal (Nat.lt_of_lt_of_le positive order) small
  simp only [readRange, parts, one, other, bind, Option.bind]
  rw [if_neg (by omega)]

/-- A request for a whole text. -/
theorem request_hash {name : Text} (form : isReference name = true) :
    request [utf8 "--hash", name] = some (name, none) := by
  simp [request, readArguments, form]

/-- A request for lines. -/
theorem request_lines {name : Text} (form : isReference name = true) {first last : Nat}
    (positive : 0 < first) (order : first ≤ last) (small : last ≤ sizeMax) :
    request [utf8 "--hash", name, utf8 "--lines", decimal first ++ utf8 "-" ++ decimal last] =
      some (name, some (first, last)) := by
  have other : utf8 "--lines" ≠ utf8 "--hash" := by decide
  have read := readRange_decimal positive order small
  have some_byte : decimal first ++ utf8 "-" ++ decimal last ≠ [] :=
    List.append_ne_nil_of_right_ne_nil _ (decimal_ne_nil last)
  simp only [request, readArguments, if_pos, if_neg other, bind, Option.bind, form, read,
    Bool.not_true, Bool.false_eq_true, if_false, if_neg some_byte, Option.map_some]

/-! ## What is returned -/

/-- A returned text stands for an output: it shows parts of it behind a header, keeps the limit and
has a reference that gives the whole output and each of its lines back. -/
structure StandsFor (sha256 : Digest) (limit : Nat) (text returned : Text) (dir : Directory) :
    Prop where
  /-- A header and parts of the text. -/
  parts : ∃ shown, returned = header sha256 text ++ shown ∧ Shows text shown
  /-- The limit. -/
  bounded : (header sha256 text).length + 48 ≤ limit → returned.length ≤ limit
  /-- The encoding. -/
  valid : Valid text → Valid returned
  /-- The command for the whole text. -/
  asksText : request [utf8 "--hash", reference sha256 text] = some (reference sha256 text, none)
  /-- The command for some lines. -/
  asksLines : ∀ first last, 0 < first → first ≤ last → last ≤ sizeMax →
    request [utf8 "--hash", reference sha256 text, utf8 "--lines",
      decimal first ++ utf8 "-" ++ decimal last] =
        some (reference sha256 text, some (first, last))
  /-- The whole text is read. -/
  readsText : ∀ later reader arguments, request arguments = some (reference sha256 text, none) →
    Stays sha256 (reference sha256 text) dir (later ++ [.outputRef reader arguments]) →
      (outputRef reader arguments (run sha256 dir later)).1 = ⟨0, text⟩
  /-- The lines are read. -/
  readsLines : ∀ later reader arguments first last,
    request arguments = some (reference sha256 text, some (first, last)) →
    Stays sha256 (reference sha256 text) dir (later ++ [.outputRef reader arguments]) →
      (outputRef reader arguments (run sha256 dir later)).1 =
        ⟨0, (((lines text).take last).drop (first - 1)).flatten⟩

/-- A reader finds the text when its file has not expired. -/
theorem outputRef_of_holds {dir : Directory} {name text : Text} {reader : Host}
    {arguments : List Text} {range : Option (Nat × Nat)}
    (asked : request arguments = some (name, range)) (holds : Holds name text dir)
    (stays : ((Op.outputRef reader arguments).expired dir name).isSome = true) :
    (outputRef reader arguments dir).1 = answer text range := by
  obtain ⟨file, there, content⟩ := holds
  have wanted : request arguments ≠ none := by simp [asked]
  rw [Op.expired, if_neg wanted] at stays
  have kept := expire_of_isSome there stays
  rw [outputRef, asked]
  simp only [kept, content]

/-- Lines behind the last one are not there. -/
theorem rowsBetween_eq (first last : Nat) (text : Text) :
    rowsBetween first last text = (((lines text).take last).drop (first - 1)).flatten := by
  have same : (lines text).take (min last (lines text).length) = (lines text).take last := by
    rw [List.take_eq_take_iff]
    omega
  rw [rowsBetween, same]

/-- A kept output stands behind its capped text. -/
theorem standsFor_capped {limit : Nat} {text : Text} {dir : Directory}
    (long : limit < chars text) (holds : Holds (reference sha256 text) text dir) :
    StandsFor sha256 limit text (capped sha256 limit text) dir where
  parts := ⟨_, rfl, shows_preview (room_le long)⟩
  bounded enough := length_capped enough
  valid whole := (valid_header sha256 text).append (valid_preview whole _)
  asksText := request_hash (isReference_reference sha256 text)
  asksLines _ _ positive order small :=
    request_lines (isReference_reference sha256 text) positive order small
  readsText later reader arguments asked stays := by
    have before := stays_append stays
    have kept := holds_run holds before.1
    have some_byte : text ≠ [] := by
      intro empty
      rw [empty] at long
      exact Nat.not_lt_zero limit long
    rw [outputRef_of_holds asked kept before.2]
    simp only [answer, if_neg some_byte]
  readsLines later reader arguments first last asked stays := by
    have before := stays_append stays
    have kept := holds_run holds before.1
    rw [outputRef_of_holds asked kept before.2]
    simp only [answer, rowsBetween_eq]

variable (sha256)

/-- Whatever was capped, read and expired before, `cap` returns the text itself or a text that
stands for it. -/
theorem cap_loses_nothing (start : Directory) (before : List Op) (host : Host) (text : Text) :
    (cap sha256 host text (run sha256 start before)).1 = text ∨
      StandsFor sha256 host.limit text (cap sha256 host text (run sha256 start before)).1
        (cap sha256 host text (run sha256 start before)).2 := by
  generalize run sha256 start before = dir
  by_cases short : chars text ≤ host.limit
  · left
    rw [cap, if_pos short]
  · have long : host.limit < chars text := by omega
    rw [cap, if_neg short]
    split
    · exact Or.inl rfl
    · simp only
      split
      · exact Or.inl rfl
      · split
        · exact Or.inl rfl
        · right
          apply standsFor_capped long
          exact ⟨⟨text, host.written⟩, if_pos rfl, rfl⟩

end Chitta.OutputCache
