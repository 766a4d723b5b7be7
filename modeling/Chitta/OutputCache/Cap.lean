import Chitta.Decimal
/-!
# Capped outputs

`cap` replaces a long output by a header and a preview and keeps the whole text in a file named by
its digest. The preview has the first and the last twenty lines; where these are too long, it has as
many bytes from both ends as the limit leaves.
-/
namespace Chitta.OutputCache

open Bytes Utf8 Decimal

/-- A kept output. -/
structure File where
  /-- The whole text. -/
  content : Text
  /-- The time of the last write, in nanoseconds. -/
  modified : Int

/-- The regular files of the directory `outputs` by their names. -/
abbrev Directory := Text → Option File

/-- What one process finds. -/
structure Host where
  /-- `CHITTA_OUTPUT_CAP_CHARS`. -/
  limit : Nat
  /-- `CHITTA_OUTPUT_REF_TTL_H`. -/
  hours : Nat
  /-- The clock when files expire. -/
  now : Int
  /-- The time that a new file gets. -/
  written : Int
  /-- The directory can be made. -/
  prepares : Bool
  /-- A temporary file can be made, written and renamed. -/
  stores : Bool

/-- `SHA256`. -/
abbrev Digest := Text → Vector UInt8 32

/-- `chars`. -/
def chars (text : Text) : Nat := text.countP fun c => !continues c

/-- `lines`: each line with the break that ends it. -/
def lines : Text → List Text
  | [] => []
  | byte :: rest =>
    if byte = newline then [byte] :: lines rest
    else
      match lines rest with
      | [] => [[byte]]
      | line :: more => (byte :: line) :: more

/-- A digit of a digest. -/
def hexDigit (digit : UInt8) : UInt8 := if digit < 10 then 48 + digit else 87 + digit

/-- A byte of a digest with `setw(2)` and `setfill('0')`. -/
def hexByte (byte : UInt8) : Text := [hexDigit (byte / 16), hexDigit (byte % 16)]

/-- A character of `0123456789abcdef`. -/
def isHex (byte : UInt8) : Bool := (48 ≤ byte && byte ≤ 57) || (97 ≤ byte && byte ≤ 102)

/-- `[0-9a-f]{12}`. -/
def isReference (name : Text) : Bool := name.length == 12 && name.all isHex

/-- `hash`: the first six bytes of the digest. -/
def reference (sha256 : Digest) (text : Text) : Text :=
  ((sha256 text).toList.take 6).flatMap hexByte

/-- `ttl` in nanoseconds. -/
def ttl (hours : Nat) : Int := min hours 876000 * 3600000000000

/-- `expire`. -/
def expire (now : Int) (hours : Nat) (dir : Directory) : Directory := fun name =>
  (dir name).filter fun file => !(isReference name && decide (ttl hours ≤ now - file.modified))

/-- A file is written or replaced. -/
def put (dir : Directory) (name : Text) (file : File) : Directory := fun other =>
  if other = name then some file else dir other

/-! ## The preview -/

/-- `header`. -/
def header (sha256 : Digest) (text : Text) : Text :=
  utf8 "§ref:" ++ reference sha256 text ++ utf8 "§ " ++ decimal (chars text) ++ utf8 " chars, " ++
    decimal (lines text).length ++ utf8 " lines; first 20 and last 20 lines follow:\n"

/-- The mark of elided lines. -/
def elided : Text := utf8 "\n…\n"

/-- The mark of elided bytes. -/
def truncated : Text := utf8 "\n… [long-line preview truncated] …\n"

/-- The first and the last twenty lines. -/
def rowPreview (rows : List Text) : Text :=
  (rows.take (min 20 rows.length)).flatten ++ (if 40 < rows.length then elided else []) ++
    (rows.drop (max 20 (if 20 < rows.length then rows.length - 20 else 0))).flatten

/-- `room`. -/
def room (limit size : Nat) : Nat := if size + 48 < limit then limit - size - 48 else 0

/-- `while (last < text.size() && (text[last] & 0xc0) == 0x80) ++last` -/
def nextStart (text : Text) (last : Nat) : Nat :=
  last + ((text.drop last).takeWhile continues).length

/-- Bytes from both ends. -/
def bytePreview (room : Nat) (text : Text) : Text :=
  text.take (lastStart text (room / 2)) ++ truncated ++
    text.drop (nextStart text (text.length - room / 2))

/-- `preview`. -/
def preview (room : Nat) (text : Text) : Text :=
  if room < (rowPreview (lines text)).length then bytePreview room text
  else rowPreview (lines text)

/-- The text that `cap` returns for a kept one. -/
def capped (sha256 : Digest) (limit : Nat) (text : Text) : Text :=
  header sha256 text ++ preview (room limit (header sha256 text).length) text

/-- `cap`: the returned text and the files. -/
def cap (sha256 : Digest) (host : Host) (text : Text) (dir : Directory) : Text × Directory :=
  if chars text ≤ host.limit then (text, dir)
  else if !host.prepares then (text, dir)
  else
    let dir := expire host.now host.hours dir
    let target := reference sha256 text
    -- Another text of the same digest.
    if (dir target).any fun old => old.content != text then (text, dir)
    else if !host.stores then (text, dir)
    else (capped sha256 host.limit text, put dir target ⟨text, host.written⟩)

/-! ## Lines -/

/-- The lines make the text. -/
theorem lines_flatten (text : Text) : (lines text).flatten = text := by
  induction text with
  | nil => rfl
  | cons byte rest ih =>
    rw [lines]
    split
    · rw [List.flatten_cons, ih]
      rfl
    · cases found : lines rest with
      | nil =>
        rw [found] at ih
        rw [← ih]
        rfl
      | cons line more =>
        rw [found] at ih
        rw [← ih]
        rfl

/-- A line ends at its break. -/
theorem lines_break {line : Text} (absent : newline ∉ line) (rest : Text) :
    lines (line ++ newline :: rest) = (line ++ [newline]) :: lines rest := by
  induction line with
  | nil => simp [lines]
  | cons byte line ih =>
    have apart : byte ≠ newline := fun same => absent (same ▸ List.mem_cons_self)
    have inner := ih fun inside => absent (List.mem_cons_of_mem byte inside)
    rw [List.cons_append, lines, if_neg apart, inner]
    rfl

/-- A text without a break is one line. -/
theorem lines_of_absent {text : Text} (absent : newline ∉ text) (some_byte : text ≠ []) :
    lines text = [text] := by
  induction text with
  | nil => contradiction
  | cons byte rest ih =>
    have apart : byte ≠ newline := fun same => absent (same ▸ List.mem_cons_self)
    rw [lines, if_neg apart]
    cases rest with
    | nil => rfl
    | cons second more =>
      have inner := ih (fun inside => absent (List.mem_cons_of_mem byte inside))
        (List.cons_ne_nil second more)
      rw [inner]

/-- The lines of a valid text are valid. -/
theorem valid_lines {text : Text} (valid : Valid text) : ∀ line ∈ lines text, Valid line := by
  induction size : text.length using Nat.strongRecOn generalizing text with
  | _ bytes ih =>
    by_cases inside : newline ∈ text
    · obtain ⟨line, rest, rfl, absent⟩ := List.eq_append_cons_of_mem inside
      have pieces := valid.cut (.ascii (by decide))
      have behind : Valid rest := pieces.2.tail (by decide)
      have stop : Valid [newline] := .ascii (forall_bytes (by decide))
      have shorter : rest.length < bytes := by
        rw [← size, List.length_append, List.length_cons]
        omega
      rw [lines_break absent]
      intro found there
      cases List.mem_cons.mp there with
      | inl first =>
        rw [first]
        exact pieces.1.append stop
      | inr later => exact ih rest.length shorter behind rfl found later
    · cases text with
      | nil => simp [lines]
      | cons byte rest =>
        rw [lines_of_absent inside (List.cons_ne_nil byte rest)]
        simpa using valid

/-- Some lines of a valid text are valid. -/
theorem valid_flatten {rows : List Text} (valid : ∀ row ∈ rows, Valid row) :
    Valid rows.flatten := by
  induction rows with
  | nil => exact .nil
  | cons row rows ih =>
    have first := valid row List.mem_cons_self
    have others := ih fun other inside => valid other (List.mem_cons_of_mem row inside)
    rw [List.flatten_cons]
    exact first.append others

/-! ## What a preview shows -/

/-- What is shown of a text: a front part and a back part of it around a mark, or the two parts
without one where they make the text. -/
inductive Shows (text : Text) : Text → Prop where
  /-- Lines are elided. -/
  | elided {front between back : Text} (parts : text = front ++ between ++ back) :
    Shows text (front ++ elided ++ back)
  /-- Bytes are elided. -/
  | truncated {front between back : Text} (parts : text = front ++ between ++ back) :
    Shows text (front ++ truncated ++ back)
  /-- Nothing is elided. -/
  | whole : Shows text text

/-- The first and the last lines are parts of the text. -/
theorem shows_rows (text : Text) : Shows text (rowPreview (lines text)) := by
  have whole := lines_flatten text
  unfold rowPreview
  by_cases many : 40 < (lines text).length
  · have first : min 20 (lines text).length = 20 := by omega
    have last : max 20 (if 20 < (lines text).length then (lines text).length - 20 else 0) =
        (lines text).length - 20 := by
      rw [if_pos (by omega)]
      omega
    rw [first, last, if_pos many]
    apply Shows.elided
    rotate_left
    · exact (((lines text).drop 20).take ((lines text).length - 40)).flatten
    · have behind : (lines text).drop ((lines text).length - 20) =
          ((lines text).drop 20).drop ((lines text).length - 40) := by
        rw [List.drop_drop]
        congr 1
        omega
      rw [behind, List.append_assoc, ← List.flatten_append, List.take_append_drop,
        ← List.flatten_append, List.take_append_drop, whole]
  · have first : (lines text).take (min 20 (lines text).length) = (lines text).take 20 := by
      rw [List.take_eq_take_iff]
      omega
    have last : max 20 (if 20 < (lines text).length then (lines text).length - 20 else 0) = 20 := by
      split <;> omega
    rw [first, last, if_neg many, List.append_nil, ← List.flatten_append, List.take_append_drop,
      whole]
    exact Shows.whole

/-- The search for the next start goes on behind its place. -/
theorem drop_nextStart (text : Text) (last : Nat) :
    text.drop (nextStart text last) = (text.drop last).dropWhile continues := by
  have parts := List.takeWhile_append_dropWhile (p := continues) (l := text.drop last)
  rw [nextStart, ← List.drop_drop]
  generalize text.drop last = rest at parts ⊢
  have cut : (rest.takeWhile continues ++ rest.dropWhile continues).drop
      (rest.takeWhile continues).length = rest.dropWhile continues := List.drop_left
  rw [parts] at cut
  exact cut

/-- The search for the next start does not go back. -/
theorem le_nextStart (text : Text) (last : Nat) : last ≤ nextStart text last :=
  Nat.le_add_right last _

/-- The bytes from both ends are parts of the text. -/
theorem shows_bytes {room : Nat} {text : Text} (fits : room ≤ text.length) :
    Shows text (bytePreview room text) := by
  have first := lastStart_le text (room / 2)
  have last := le_nextStart text (text.length - room / 2)
  have order : lastStart text (room / 2) ≤ nextStart text (text.length - room / 2) := by omega
  have behind : (text.drop (lastStart text (room / 2))).drop
      (nextStart text (text.length - room / 2) - lastStart text (room / 2)) =
        text.drop (nextStart text (text.length - room / 2)) := by
    rw [List.drop_drop]
    congr 1
    omega
  apply Shows.truncated
  rotate_left
  · exact (text.drop (lastStart text (room / 2))).take
      (nextStart text (text.length - room / 2) - lastStart text (room / 2))
  · rw [← behind, List.append_assoc, List.take_append_drop, List.take_append_drop]

/-- A preview shows parts of the text. -/
theorem shows_preview {room : Nat} {text : Text} (fits : room ≤ text.length) :
    Shows text (preview room text) := by
  unfold preview
  split
  · exact shows_bytes fits
  · exact shows_rows text

/-- A preview has at most the bytes of the room and of the mark. -/
theorem length_preview (room : Nat) (text : Text) : (preview room text).length ≤ room + 39 := by
  have mark : truncated.length = 39 := by decide
  have first := lastStart_le text (room / 2)
  have last := le_nextStart text (text.length - room / 2)
  unfold preview
  split
  · rw [bytePreview, List.length_append, List.length_append, List.length_take, List.length_drop,
      mark]
    omega
  · omega

/-- A character starts where the search for the next start stops. -/
theorem starts_nextStart (text : Text) (last : Nat) : Starts (text.drop (nextStart text last)) := by
  rw [drop_nextStart]
  intro byte first
  have stops := List.head?_dropWhile_not continues (text.drop last)
  rw [Option.mem_def.mp first] at stops
  simpa using stops

/-- A preview of a valid text is valid. -/
theorem valid_preview {text : Text} (valid : Valid text) (room : Nat) :
    Valid (preview room text) := by
  have rows := valid_lines valid
  unfold preview
  split
  · have front := Valid.take_lastStart valid (room / 2)
    have mark : Valid truncated := valid_utf8 _
    have whole : Valid (text.take (nextStart text (text.length - room / 2)) ++
        text.drop (nextStart text (text.length - room / 2))) := by
      rwa [List.take_append_drop]
    have back := (whole.cut (starts_nextStart text (text.length - room / 2))).2
    exact (front.append mark).append back
  · have first : Valid ((lines text).take (min 20 (lines text).length)).flatten :=
      valid_flatten fun row inside => rows row (List.mem_of_mem_take inside)
    have last : Valid ((lines text).drop
        (max 20 (if 20 < (lines text).length then (lines text).length - 20 else 0))).flatten :=
      valid_flatten fun row inside => rows row (List.mem_of_mem_drop inside)
    have mark : Valid (if 40 < (lines text).length then elided else []) := by
      split
      · exact valid_utf8 _
      · exact .nil
    exact (first.append mark).append last

/-! ## Headers -/

/-- A digit of a digest is a hexadecimal one. -/
theorem isHex_hexByte (byte : UInt8) : ∀ digit ∈ hexByte byte, isHex digit = true := by
  have all : ∀ byte : UInt8, (hexByte byte).all isHex = true := every_byte (by decide)
  exact List.all_eq_true.mp (all byte)

/-- A reference has the form that is asked for. -/
theorem isReference_reference (sha256 : Digest) (text : Text) :
    isReference (reference sha256 text) = true := by
  have six : ((sha256 text).toList.take 6).length = 6 := by
    rw [List.length_take, Vector.length_toList]
    rfl
  have size : (reference sha256 text).length = 12 := by
    have twelve : ∀ bytes : List UInt8, (bytes.flatMap hexByte).length = 2 * bytes.length := by
      intro bytes
      induction bytes with
      | nil => rfl
      | cons byte bytes ih =>
        rw [List.flatMap_cons, List.length_append, ih, List.length_cons]
        show 2 + 2 * bytes.length = 2 * (bytes.length + 1)
        omega
    rw [reference, twelve, six]
  have digits : (reference sha256 text).all isHex = true := by
    apply List.all_eq_true.mpr
    intro digit inside
    obtain ⟨byte, _, own⟩ := List.mem_flatMap.mp inside
    exact isHex_hexByte byte digit own
  rw [isReference, size, digits]
  rfl

/-- A header is valid text. -/
theorem valid_header (sha256 : Digest) (text : Text) : Valid (header sha256 text) := by
  have small : ∀ byte ∈ reference sha256 text, byte < 128 := by
    intro byte inside
    have hex := isReference_reference sha256 text
    rw [isReference, Bool.and_eq_true] at hex
    have own := List.all_eq_true.mp hex.2 byte inside
    have all : ∀ byte : UInt8, isHex byte = true → byte < 128 := every_byte (by decide)
    exact all byte own
  have name : Valid (reference sha256 text) := .ascii small
  unfold header
  exact ((((((valid_utf8 _).append name).append (valid_utf8 _)).append (valid_decimal _)).append
    (valid_utf8 _)).append (valid_decimal _)).append (valid_utf8 _)

/-- A text has at most as many characters as bytes. -/
theorem chars_le_length (text : Text) : chars text ≤ text.length := List.countP_le_length

/-- A capped text keeps the limit when the limit has room for the header and a mark. -/
theorem length_capped {sha256 : Digest} {limit : Nat} {text : Text}
    (enough : (header sha256 text).length + 48 ≤ limit) :
    (capped sha256 limit text).length ≤ limit := by
  have bytes := length_preview (room limit (header sha256 text).length) text
  have left :
      room limit (header sha256 text).length + (header sha256 text).length + 48 ≤ limit := by
    unfold room
    split <;> omega
  rw [capped, List.length_append]
  omega

/-- The room is within a text that is longer than the limit. -/
theorem room_le {limit size : Nat} {text : Text} (long : limit < chars text) :
    room limit size ≤ text.length := by
  have bytes := chars_le_length text
  unfold room
  split <;> omega

end Chitta.OutputCache
