import Chitta.Bytes
import Chitta.Lines

/-!
# Texts in UTF-8

A text of bytes is valid when it is the encoding of characters. A character ends where the next
byte does not continue it, so a text is cut well exactly at such a byte.
-/
namespace Chitta.Utf8

open Bytes

/-- The encodings of characters, one after the other. -/
inductive Valid : Text → Prop where
  /-- No character. -/
  | nil : Valid []
  /-- A character, then more. -/
  | character (c : Char) {rest : Text} : Valid rest → Valid (String.utf8EncodeChar c ++ rest)

/-- `(byte & 0xC0) == 0x80`: the byte belongs to the character before it. -/
def continues (byte : UInt8) : Bool := byte &&& 0xC0 == 0x80

/-- The first byte does not belong to a character before it. -/
def Starts (text : Text) : Prop := ∀ byte ∈ text.head?, continues byte = false

/-! ## One character -/

theorem continues_rest : ∀ byte : UInt8, continues (byte &&& 0x3f ||| 0x80) = true :=
  every_byte (by decide)

theorem continues_first {byte : UInt8} (first : byte.IsUTF8FirstByte) :
    continues byte = false := by
  have all : ∀ byte : UInt8, byte.IsUTF8FirstByte → continues byte = false :=
    every_byte (by decide)
  exact all byte first

theorem continues_ascii {byte : UInt8} (small : byte < 128) : continues byte = false := by
  have all : ∀ byte < 128, continues byte = false := every_byte (by decide)
  exact all byte small

/-- A character is a first byte and bytes that continue it. -/
theorem character_eq (c : Char) :
    ∃ first rest, String.utf8EncodeChar c = first :: rest ∧ continues first = false ∧
      ∀ byte ∈ rest, continues byte = true := by
  have first (byte : UInt8) (rest : Text) (encoded : String.utf8EncodeChar c = byte :: rest) :
      continues byte = false := by
    have at_zero := UInt8.isUTF8FirstByte_getElem_zero_utf8EncodeChar (c := c)
    simp only [encoded, List.getElem_cons_zero] at at_zero
    exact continues_first at_zero
  rcases c.utf8Size_eq with size | size | size | size
  · have encoded := String.utf8EncodeChar_eq_singleton size
    exact ⟨_, _, encoded, first _ _ encoded, by simp⟩
  · have encoded := String.utf8EncodeChar_eq_cons_cons size
    exact ⟨_, _, encoded, first _ _ encoded, by simp [continues_rest]⟩
  · have encoded := String.utf8EncodeChar_eq_cons_cons_cons size
    exact ⟨_, _, encoded, first _ _ encoded, by simp [continues_rest]⟩
  · have encoded := String.utf8EncodeChar_eq_cons_cons_cons_cons size
    exact ⟨_, _, encoded, first _ _ encoded, by simp [continues_rest]⟩

/-- A text begins with one character at most. -/
theorem character_unique {c d : Char} {rest other : Text}
    (same : String.utf8EncodeChar c ++ rest = String.utf8EncodeChar d ++ other) :
    c = d ∧ rest = other := by
  have decoded (e : Char) (more : Text) :
      ByteArray.utf8DecodeChar? (String.utf8EncodeChar e ++ more).toByteArray 0 = some e := by
    rw [List.toByteArray_append]
    exact ByteArray.utf8DecodeChar?_utf8EncodeChar_append
  have equal : some c = some d := by
    rw [← decoded c rest, ← decoded d other, same]
  obtain rfl := Option.some.inj equal
  exact ⟨rfl, List.append_cancel_left same⟩

/-- A byte below 128 is a character. -/
theorem character_ascii {byte : UInt8} (small : byte < 128) :
    ∃ c : Char, String.utf8EncodeChar c = [byte] := by
  have all : ∀ byte < 128, String.utf8EncodeChar (Char.ofNat byte.toNat) = [byte] :=
    every_byte (by decide)
  exact ⟨_, all byte small⟩

/-- A character is one byte below 128 or has no such byte. -/
theorem character_cases (c : Char) :
    (∃ byte < 128, String.utf8EncodeChar c = [byte]) ∨
      (1 < c.utf8Size ∧ ∀ byte ∈ String.utf8EncodeChar c, 128 ≤ byte) := by
  have high : ∀ byte : UInt8, 128 ≤ byte &&& 0x1f ||| 0xc0 ∧ 128 ≤ byte &&& 0x0f ||| 0xe0 ∧
      128 ≤ byte &&& 0x07 ||| 0xf0 ∧ 128 ≤ byte &&& 0x3f ||| 0x80 :=
    every_byte (by decide)
  have two (byte : UInt8) : 128 ≤ byte &&& 0x1f ||| 0xc0 := (high byte).1
  have three (byte : UInt8) : 128 ≤ byte &&& 0x0f ||| 0xe0 := (high byte).2.1
  have four (byte : UInt8) : 128 ≤ byte &&& 0x07 ||| 0xf0 := (high byte).2.2.1
  have later (byte : UInt8) : 128 ≤ byte &&& 0x3f ||| 0x80 := (high byte).2.2.2
  rcases c.utf8Size_eq with size | size | size | size
  · left
    refine ⟨c.val.toUInt8, ?_, String.utf8EncodeChar_eq_singleton size⟩
    have small : c.val.toNat ≤ 127 := UInt32.le_iff_toNat_le.mp (Char.utf8Size_eq_one_iff.mp size)
    rw [UInt8.lt_iff_toNat_lt, UInt32.toNat_toUInt8]
    show c.val.toNat % 256 < 128
    omega
  · right
    simp only [String.utf8EncodeChar_eq_cons_cons size, List.forall_mem_cons]
    exact ⟨by omega, two _, later _, by simp⟩
  · right
    simp only [String.utf8EncodeChar_eq_cons_cons_cons size, List.forall_mem_cons]
    exact ⟨by omega, three _, later _, later _, by simp⟩
  · right
    simp only [String.utf8EncodeChar_eq_cons_cons_cons_cons size, List.forall_mem_cons]
    exact ⟨by omega, four _, later _, later _, later _, by simp⟩

/-! ## Texts -/

theorem Valid.append {text rest : Text} (valid : Valid text) (more : Valid rest) :
    Valid (text ++ rest) := by
  induction valid with
  | nil => exact more
  | character c _ ih =>
    rw [List.append_assoc]
    exact .character c ih

theorem small_of_all {text : Text} (all : text.all (· < 128) = true) :
    ∀ byte ∈ text, byte < 128 := by
  simpa only [List.all_eq_true, decide_eq_true_eq] using all

/-- A text of bytes below 128 is valid. -/
theorem Valid.ascii {text : Text} (small : ∀ byte ∈ text, byte < 128) : Valid text := by
  induction text with
  | nil => exact .nil
  | cons byte rest ih =>
    obtain ⟨c, encoded⟩ := character_ascii (small byte List.mem_cons_self)
    have tail : Valid rest := ih fun other inside => small other (List.mem_cons_of_mem _ inside)
    have whole := Valid.character c tail
    rwa [encoded] at whole

/-- The bytes of a string are those of its characters. -/
theorem utf8_eq (text : String) : utf8 text = text.toList.flatMap String.utf8EncodeChar := by
  have bytes : text.toByteArray = (String.ofList text.toList).toByteArray := by
    rw [String.ofList_toList]
  simp only [utf8, String.toUTF8_eq_toByteArray, bytes, String.toByteArray_ofList,
    List.utf8Encode, List.data_toByteArray, List.toList_toArray]

/-- The bytes of a string are valid. -/
theorem valid_utf8 (text : String) : Valid (utf8 text) := by
  rw [utf8_eq]
  induction text.toList with
  | nil => exact .nil
  | cons c rest ih => exact .character c ih

theorem toByteArray_utf8 (text : String) : (utf8 text).toByteArray = text.toByteArray := by
  apply ByteArray.ext
  rw [utf8, String.toUTF8_eq_toByteArray, List.data_toByteArray, Array.toArray_toList]

theorem utf8_injective : Function.Injective utf8 := by
  intro one other same
  have bytes := congrArg List.toByteArray same
  rw [toByteArray_utf8, toByteArray_utf8] at bytes
  exact String.toByteArray_inj.mp bytes

/-- Validity is that of the standard library, which checks it. -/
theorem valid_iff (text : Text) : Valid text ↔ text.toByteArray.IsValidUTF8 := by
  constructor
  · intro valid
    induction valid with
    | nil => exact ByteArray.isValidUTF8_empty
    | character c _ ih =>
      rw [List.toByteArray_append]
      exact Char.isValidUTF8_toByteArray_utf8EncodeChar.append ih
  · rintro ⟨characters, encoded⟩
    rw [List.utf8Encode, List.toByteArray_inj] at encoded
    rw [encoded]
    clear encoded
    induction characters with
    | nil => exact .nil
    | cons c rest ih => exact .character c ih

instance (text : Text) : Decidable (Valid text) :=
  decidable_of_iff text.toByteArray.IsValidUTF8 (valid_iff text).symm

theorem starts_nil : Starts [] := by simp [Starts]

theorem Starts.ascii {byte : UInt8} {rest : Text} (small : byte < 128) : Starts (byte :: rest) := by
  simp only [Starts, List.head?_cons, Option.mem_some_iff, forall_eq']
  exact continues_ascii small

/-- A valid text starts with a character. -/
theorem Valid.starts {text rest : Text} (valid : Valid text) (more : Starts rest) :
    Starts (text ++ rest) := by
  cases valid with
  | nil => exact more
  | character c _ =>
    obtain ⟨first, others, encoded, begins, _⟩ := character_eq c
    simp [Starts, encoded, begins]

/-- A valid text that is cut where a character starts has two valid parts. -/
theorem Valid.cut {front rest : Text} (valid : Valid (front ++ rest)) (starts : Starts rest) :
    Valid front ∧ Valid rest := by
  generalize whole : front ++ rest = text at valid
  induction valid generalizing front with
  | nil =>
    obtain ⟨rfl, rfl⟩ := List.append_eq_nil_iff.mp whole
    exact ⟨.nil, .nil⟩
  | @character c more valid ih =>
    rcases List.append_eq_append_iff.mp whole with ⟨part, inside, tail⟩ | ⟨part, rfl, tail⟩
    · cases front with
      | nil =>
        refine ⟨.nil, ?_⟩
        rw [tail, ← List.nil_append part, ← inside]
        exact .character c valid
      | cons byte bytes =>
        obtain ⟨first, others, encoded, _, continued⟩ := character_eq c
        rw [encoded, List.cons_append, List.cons.injEq] at inside
        cases part with
        | nil =>
          refine ⟨?_, by rwa [tail]⟩
          have one := Valid.character c .nil
          rw [encoded, inside.1, inside.2] at one
          simpa using one
        | cons other _ =>
          -- A cut inside of a character leaves a byte that continues it.
          have goesOn := continued other (by simp [inside.2])
          have begins := starts other (by simp [tail])
          rw [goesOn] at begins
          contradiction
    · obtain ⟨before, after⟩ := ih tail.symm
      exact ⟨.character c before, after⟩

/-- What follows a valid part of a valid text is valid. -/
theorem Valid.rest {front rest : Text} (valid : Valid (front ++ rest)) (before : Valid front) :
    Valid rest := by
  induction before with
  | nil => exact valid
  | @character c more _ ih =>
    rw [List.append_assoc] at valid
    generalize whole : String.utf8EncodeChar c ++ (more ++ rest) = text at valid
    cases valid with
    | nil => simp at whole
    | character d others =>
      obtain ⟨_, rfl⟩ := character_unique whole
      exact ih others

/-- A valid text may be cut exactly where a character starts. -/
theorem Valid.cut_iff {front rest : Text} (valid : Valid (front ++ rest)) :
    Valid front ↔ Starts rest := by
  constructor
  · intro before
    simpa using (valid.rest before).starts starts_nil
  · intro starts
    exact (valid.cut starts).1

/-- The first bytes of a valid text are valid exactly when a character starts behind them. -/
theorem Valid.take_iff {text : Text} (valid : Valid text) (bytes : Nat) :
    Valid (text.take bytes) ↔ Starts (text.drop bytes) := by
  have whole : Valid (text.take bytes ++ text.drop bytes) := by rwa [List.take_append_drop]
  exact whole.cut_iff

theorem Valid.cons {byte : UInt8} {rest : Text} (small : byte < 128) (valid : Valid rest) :
    Valid (byte :: rest) := by
  have one : Valid [byte] := .ascii (by simpa using small)
  exact one.append valid

theorem Valid.tail {byte : UInt8} {rest : Text} (valid : Valid (byte :: rest))
    (small : byte < 128) : Valid rest := by
  have one : Valid [byte] := .ascii (by simpa using small)
  rw [← List.singleton_append] at valid
  exact valid.rest one

/-- A change of bytes below 128 to such bytes keeps a text valid. -/
theorem Valid.map {text : Text} {change : UInt8 → UInt8} (valid : Valid text)
    (small : ∀ byte < 128, change byte < 128) (fixed : ∀ byte, 128 ≤ byte → change byte = byte) :
    Valid (text.map change) := by
  induction valid with
  | nil => exact .nil
  | @character c _ _ ih =>
    rw [List.map_append]
    rcases character_cases c with ⟨byte, low, encoded⟩ | ⟨_, high⟩
    · refine Valid.append (.ascii ?_) ih
      simpa [encoded] using small byte low
    · have same : (String.utf8EncodeChar c).map change = String.utf8EncodeChar c :=
        by rw [List.map_congr_left fun byte inside => fixed byte (high byte inside), List.map_id']
      rw [same]
      exact .character c ih

/-- A text starts with its first character. -/
theorem Valid.begins {front : Text} (valid : Valid front) (some_byte : front ≠ []) (rest : Text) :
    Starts (front ++ rest) := by
  cases front with
  | nil => contradiction
  | cons byte bytes => simpa [Starts] using valid.starts starts_nil

/-- The parts of a valid text around a valid part are valid. -/
theorem Valid.parts {front middle rest : Text} (valid : Valid (front ++ (middle ++ rest)))
    (inside : Valid middle) (some_byte : middle ≠ []) : Valid front ∧ Valid rest := by
  have halves := valid.cut (inside.begins some_byte rest)
  exact ⟨halves.1, halves.2.rest inside⟩

/-- A text behind a valid one is valid when both are. -/
theorem Valid.append_iff {front rest : Text} (before : Valid front) :
    Valid (front ++ rest) ↔ Valid rest :=
  ⟨fun valid => valid.rest before, fun behind => before.append behind⟩

/-- A text that is followed by the start of a character is valid when both are. -/
theorem Starts.append_iff {front rest : Text} (starts : Starts rest) :
    Valid (front ++ rest) ↔ Valid front ∧ Valid rest :=
  ⟨fun valid => valid.cut starts, fun both => both.1.append both.2⟩

/-- Bytes below 128 are removed in front. -/
theorem Valid.dropWhile {text : Text} {test : UInt8 → Bool} (valid : Valid text)
    (small : ∀ byte, test byte = true → byte < 128) : Valid (text.dropWhile test) := by
  induction text with
  | nil => exact valid
  | cons byte rest ih =>
    rw [List.dropWhile_cons]
    split
    · exact ih (valid.tail (small byte ‹_›))
    · exact valid

/-- Bytes below 128 are removed behind. -/
theorem Valid.dropWhileEnd {text : Text} {test : UInt8 → Bool} (valid : Valid text)
    (small : ∀ byte, test byte = true → byte < 128) :
    Valid (text.reverse.dropWhile test).reverse := by
  have whole : text =
      (text.reverse.dropWhile test).reverse ++ (text.reverse.takeWhile test).reverse := by
    rw [← List.reverse_append, List.takeWhile_append_dropWhile, List.reverse_reverse]
  have tail : ∀ byte ∈ (text.reverse.takeWhile test).reverse, byte < 128 := by
    intro byte inside
    rw [List.mem_reverse] at inside
    exact small byte (List.all_eq_true.mp List.all_takeWhile byte inside)
  rw [whole] at valid
  refine (valid.cut ?_).1
  simpa using (Valid.ascii tail).starts starts_nil

/-- A text ends in front of a byte below 128. -/
theorem Valid.takeWhile_ne {text : Text} {stop : UInt8} (valid : Valid text)
    (small : stop < 128) : Valid (text.takeWhile (· ≠ stop)) := by
  have whole : Valid (text.takeWhile (· ≠ stop) ++ text.dropWhile (· ≠ stop)) := by
    rwa [List.takeWhile_append_dropWhile]
  refine (whole.cut ?_).1
  intro byte first
  have stops := List.head?_dropWhile_not (· ≠ stop) text
  rw [Option.mem_def.mp first] at stops
  have same : byte = stop := by simpa using stops
  rw [same]
  exact continues_ascii small

/-- The lines of a valid text are valid. -/
theorem Valid.lines {text : Text} (valid : Valid text) :
    ∀ line ∈ Lines.lines newline text, Valid line := by
  induction length : text.length using Nat.strongRecOn generalizing text with
  | _ length ih =>
    by_cases inside : newline ∈ text
    · obtain ⟨line, rest, rfl, absent⟩ := List.eq_append_cons_of_mem inside
      have pieces := valid.cut (.ascii (by decide))
      rw [Lines.lines_break absent]
      refine List.forall_mem_cons.mpr ⟨pieces.1, ih rest.length ?_ (pieces.2.tail (by decide)) rfl⟩
      simp only [List.length_append, List.length_cons] at length
      omega
    · cases text with
      | nil => simp [Lines.lines]
      | cons byte rest =>
        rw [Lines.lines_of_absent inside (List.cons_ne_nil byte rest)]
        simpa using valid

/-! ## Cutting at a number of bytes -/

/-- `while (place > 0 && (text[place] & 0xC0) == 0x80) --place`. -/
def lastStart (text : Text) : Nat → Nat
  | 0 => 0
  | place + 1 => if text[place + 1]?.any continues then lastStart text place else place + 1

theorem lastStart_le (text : Text) (place : Nat) : lastStart text place ≤ place := by
  induction place with
  | zero => exact Nat.le_refl 0
  | succ place ih =>
    rw [lastStart]
    split
    · exact Nat.le_succ_of_le ih
    · exact Nat.le_refl _

/-- A character starts where the loop stops. -/
theorem starts_lastStart {text : Text} (valid : Valid text) (place : Nat) :
    Starts (text.drop (lastStart text place)) := by
  induction place with
  | zero => simpa [lastStart] using valid.starts starts_nil
  | succ place ih =>
    rw [lastStart]
    split
    · exact ih
    · rename_i begins
      intro byte first
      rw [List.head?_drop] at first
      rw [Option.mem_def.mp first] at begins
      simpa using begins

/-- A valid text that is cut where the loop stops stays valid. -/
theorem Valid.take_lastStart {text : Text} (valid : Valid text) (place : Nat) :
    Valid (text.take (lastStart text place)) := by
  refine (Valid.cut ?_ (starts_lastStart valid place)).1
  rwa [List.take_append_drop]

end Chitta.Utf8
