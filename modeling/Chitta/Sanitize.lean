import Chitta.Json
import Chitta.Utf8

/-!
# Texts that are made ready for JSON

The transport and the client of the language models each have a copy of a loop that passes on a lead
byte with the bytes it announces and replaces every other byte from 128 on. What it passes on need
not encode a character: the number it stands for may be too small for its length, of a surrogate or
above the last code point.
-/
namespace Chitta.Sanitize

open Bytes Utf8

/-- How many bytes a lead byte announces: `(c & 0xE0) == 0xC0`, `(c & 0xF0) == 0xE0` and
`(c & 0xF8) == 0xF0`. -/
def follows (c : UInt8) : Nat :=
  if c &&& 0xE0 == 0xC0 then 1
  else if c &&& 0xF0 == 0xE0 then 2
  else if c &&& 0xF8 == 0xF0 then 3
  else 0

/-- The announced bytes are there, and each of them continues a character. -/
def complete (c : UInt8) (rest : Text) : Bool :=
  follows c != 0 && follows c ≤ rest.length && (rest.take (follows c)).all continues

/-- The loop of both copies: `ascii` is what they do with a byte below 128, and `bad` is what they
put for a byte that starts nothing. -/
def sanitizeWith (ascii : UInt8 → UInt8) (bad : Text) : Text → Text
  | [] => []
  | c :: rest =>
    if c < 0x80 then ascii c :: sanitizeWith ascii bad rest
    else if complete c rest then
      c :: rest.take (follows c) ++ sanitizeWith ascii bad (rest.drop (follows c))
    else bad ++ sanitizeWith ascii bad rest
termination_by text => text.length
decreasing_by all_goals simp; try omega

/-- The replacement character. -/
def replacement : Text := [0xEF, 0xBF, 0xBD]

/-- `sanitize_utf8` of the transport. -/
def rpcSanitizeUtf8 : Text → Text := sanitizeWith id replacement

/-- What the client does with a byte below 128: a control character becomes a space. -/
def printable (c : UInt8) : UInt8 := if c < 0x20 && c != 10 && c != 13 && c != 9 then 32 else c

/-- `sanitize_utf8` of the client of the language models. -/
def llmSanitizeUtf8 : Text → Text := sanitizeWith printable [32]

/-! ## What is passed on -/

/-- A lead byte with the bytes it announces. -/
def Shaped (part : Text) : Prop :=
  ∃ c rest, part = c :: rest ∧ follows c ≠ 0 ∧ rest.length = follows c ∧
    ∀ byte ∈ rest, continues byte = true

/-- The number that a lead byte and the bytes behind it stand for. -/
def codePoint : Text → Nat
  | [a, b] => (a &&& 0x1f).toNat * 64 + (b &&& 0x3f).toNat
  | [a, b, c] => (a &&& 0x0f).toNat * 4096 + (b &&& 0x3f).toNat * 64 + (c &&& 0x3f).toNat
  | [a, b, c, d] =>
    (a &&& 0x07).toNat * 262144 + (b &&& 0x3f).toNat * 4096 + (c &&& 0x3f).toNat * 64 +
      (d &&& 0x3f).toNat
  | _ => 0

/-- The first number that needs as many bytes. -/
def least : Nat → Nat
  | 2 => 0x80
  | 3 => 0x800
  | 4 => 0x10000
  | _ => 0

/-- The number needs all the bytes, is that of no surrogate and is a code point. -/
def Encodes (part : Text) : Prop :=
  least part.length ≤ codePoint part ∧ ¬ (0xD800 ≤ codePoint part ∧ codePoint part ≤ 0xDFFF) ∧
    codePoint part ≤ 0x10FFFF

instance (part : Text) : Decidable (Encodes part) := inferInstanceAs (Decidable (_ ∧ _ ∧ _))

/-- Wherever a lead byte is followed by the bytes it announces, they encode a character. -/
def Encodable (text : Text) : Prop := ∀ part, part <:+: text → Shaped part → Encodes part

/-! ## The numbers of the decoder -/

section Decoder

open ByteArray.utf8DecodeChar?

/-- The bits above a number and the number are added. -/
theorem or_toNat (high : Nat) {low : Nat} (bits : Nat) (small : low < 2 ^ bits) :
    high <<< bits ||| low = high * 2 ^ bits + low := by
  rw [Nat.shiftLeft_eq, Nat.mul_comm, ← Nat.two_pow_add_eq_or_of_lt small]

/-- The bits of a byte that are kept are a number below the next power. -/
theorem kept_lt (byte : UInt8) : (byte &&& 0x1f).toNat < 32 ∧ (byte &&& 0x0f).toNat < 16 ∧
    (byte &&& 0x07).toNat < 8 ∧ (byte &&& 0x3f).toNat < 64 := by
  simp only [UInt8.toNat_and]
  exact ⟨Nat.lt_succ_of_le Nat.and_le_right, Nat.lt_succ_of_le Nat.and_le_right,
    Nat.lt_succ_of_le Nat.and_le_right, Nat.lt_succ_of_le Nat.and_le_right⟩

/-- The number that the decoder makes of two bytes. -/
theorem twoNumber (a b : UInt8) : (assemble₂Unchecked a b).toNat = codePoint [a, b] := by
  obtain ⟨high, -⟩ := kept_lt a
  obtain ⟨-, -, -, low⟩ := kept_lt b
  have wide : (a &&& 0x1f).toNat <<< 6 < 2 ^ 32 := by
    rw [Nat.shiftLeft_eq]
    omega
  show ((a &&& 0x1f).toUInt32 <<< 6 ||| (b &&& 0x3f).toUInt32).toNat = _
  rw [UInt32.toNat_or, UInt32.toNat_shiftLeft, UInt8.toNat_toUInt32, UInt8.toNat_toUInt32]
  show (a &&& 0x1f).toNat <<< 6 % 2 ^ 32 ||| (b &&& 0x3f).toNat = _
  rw [Nat.mod_eq_of_lt wide, or_toNat _ 6 low]
  rfl

/-- The number that the decoder makes of three bytes. -/
theorem threeNumber (a b c : UInt8) : (assemble₃Unchecked a b c).toNat = codePoint [a, b, c] := by
  obtain ⟨-, high, -⟩ := kept_lt a
  obtain ⟨-, -, -, middle⟩ := kept_lt b
  obtain ⟨-, -, -, low⟩ := kept_lt c
  have wide : (a &&& 0x0f).toNat <<< 12 < 2 ^ 32 ∧ (b &&& 0x3f).toNat <<< 6 < 2 ^ 32 ∧
      (b &&& 0x3f).toNat <<< 6 < 2 ^ 12 := by
    simp only [Nat.shiftLeft_eq]
    omega
  show ((a &&& 0x0f).toUInt32 <<< 12 ||| (b &&& 0x3f).toUInt32 <<< 6 |||
    (c &&& 0x3f).toUInt32).toNat = _
  simp only [UInt32.toNat_or, UInt32.toNat_shiftLeft, UInt8.toNat_toUInt32]
  show ((a &&& 0x0f).toNat <<< 12 % 2 ^ 32 ||| (b &&& 0x3f).toNat <<< 6 % 2 ^ 32) |||
    (c &&& 0x3f).toNat = _
  rw [Nat.mod_eq_of_lt wide.1, Nat.mod_eq_of_lt wide.2.1, Nat.or_assoc,
    or_toNat _ 6 low, or_toNat _ 12 (by omega)]
  simp only [codePoint]
  omega

/-- The number that the decoder makes of four bytes. -/
theorem fourNumber (a b c d : UInt8) :
    (assemble₄Unchecked a b c d).toNat = codePoint [a, b, c, d] := by
  obtain ⟨-, -, high, -⟩ := kept_lt a
  obtain ⟨-, -, -, second⟩ := kept_lt b
  obtain ⟨-, -, -, third⟩ := kept_lt c
  obtain ⟨-, -, -, low⟩ := kept_lt d
  have wide : (a &&& 0x07).toNat <<< 18 < 2 ^ 32 ∧ (b &&& 0x3f).toNat <<< 12 < 2 ^ 32 ∧
      (c &&& 0x3f).toNat <<< 6 < 2 ^ 32 := by
    simp only [Nat.shiftLeft_eq]
    omega
  show ((a &&& 0x07).toUInt32 <<< 18 ||| (b &&& 0x3f).toUInt32 <<< 12 |||
    (c &&& 0x3f).toUInt32 <<< 6 ||| (d &&& 0x3f).toUInt32).toNat = _
  simp only [UInt32.toNat_or, UInt32.toNat_shiftLeft, UInt8.toNat_toUInt32]
  show (((a &&& 0x07).toNat <<< 18 % 2 ^ 32 ||| (b &&& 0x3f).toNat <<< 12 % 2 ^ 32) |||
    (c &&& 0x3f).toNat <<< 6 % 2 ^ 32) ||| (d &&& 0x3f).toNat = _
  rw [Nat.mod_eq_of_lt wide.1, Nat.mod_eq_of_lt wide.2.1, Nat.mod_eq_of_lt wide.2.2,
    Nat.or_assoc, or_toNat _ 6 low, Nat.or_assoc, or_toNat _ 12 (by omega),
    or_toNat _ 18 (by omega)]
  simp only [codePoint]
  omega

/-- What a lead byte announces, as the bits that the decoder of the standard library looks at. -/
theorem announced (c : UInt8) :
    (follows c = 1 → parseFirstByte c = .oneMore) ∧ (follows c = 2 → parseFirstByte c = .twoMore) ∧
      (follows c = 3 → parseFirstByte c = .threeMore) := by
  have all : ∀ c : UInt8, follows c ≠ 0 → (c &&& 0x80 == 0) = false :=
    every_byte (by decide)
  by_cases none_more : follows c = 0
  · simp [none_more]
  · rw [parseFirstByte, all c none_more]
    unfold follows
    split
    · simp
    · split
      · simp
      · split <;> simp

/-- A byte that continues a character passes the check of the decoder. -/
theorem invalid_of_continues {byte : UInt8} (continued : continues byte = true) :
    isInvalidContinuationByte byte = false := by
  simpa [isInvalidContinuationByte, continues] using continued

theorem validates_two {a b : UInt8} (first : parseFirstByte a = .oneMore)
    (second : continues b = true) :
    [a, b].toByteArray.validateUTF8At 0 = true ↔ Encodes [a, b] := by
  obtain ⟨high, -⟩ := kept_lt a
  obtain ⟨-, -, -, low⟩ := kept_lt b
  have checked : [a, b].toByteArray.validateUTF8At 0 = verify₂ a b := by
    unfold ByteArray.validateUTF8At
    rw [dif_pos (show 0 < [a, b].toByteArray.size by simp)]
    split
    all_goals rename_i kind
    all_goals have same := first.symm.trans kind
    case h_3 => rfl
    all_goals contradiction
  rw [checked, verify₂, invalid_of_continues second]
  simp only [Bool.false_eq_true, if_false, decide_eq_true_eq, UInt32.le_iff_toNat_le, twoNumber]
  show 0x80 ≤ _ ↔ 0x80 ≤ _ ∧ _
  simp only [codePoint]
  omega

theorem validates_three {a b c : UInt8} (first : parseFirstByte a = .twoMore)
    (second : continues b = true) (third : continues c = true) :
    [a, b, c].toByteArray.validateUTF8At 0 = true ↔ Encodes [a, b, c] := by
  have checked : [a, b, c].toByteArray.validateUTF8At 0 = verify₃ a b c := by
    unfold ByteArray.validateUTF8At
    rw [dif_pos (show 0 < [a, b, c].toByteArray.size by simp)]
    split
    all_goals rename_i kind
    all_goals have same := first.symm.trans kind
    case h_4 => rfl
    all_goals contradiction
  obtain ⟨-, high, -⟩ := kept_lt a
  obtain ⟨-, -, -, middle⟩ := kept_lt b
  obtain ⟨-, -, -, low⟩ := kept_lt c
  rw [checked, verify₃, invalid_of_continues second, invalid_of_continues third]
  simp only [Bool.or_false, Bool.false_eq_true, if_false, decide_eq_true_eq,
    UInt32.le_iff_toNat_le, UInt32.lt_iff_toNat_lt, threeNumber]
  show 0x800 ≤ _ ∧ (_ < 0xd800 ∨ 0xdfff < _) ↔ 0x800 ≤ _ ∧ _
  simp only [codePoint]
  omega

theorem validates_four {a b c d : UInt8} (first : parseFirstByte a = .threeMore)
    (second : continues b = true) (third : continues c = true) (fourth : continues d = true) :
    [a, b, c, d].toByteArray.validateUTF8At 0 = true ↔ Encodes [a, b, c, d] := by
  have checked : [a, b, c, d].toByteArray.validateUTF8At 0 = verify₄ a b c d := by
    unfold ByteArray.validateUTF8At
    rw [dif_pos (show 0 < [a, b, c, d].toByteArray.size by simp)]
    split
    all_goals rename_i kind
    all_goals have same := first.symm.trans kind
    case h_5 => rfl
    all_goals contradiction
  rw [checked, verify₄, invalid_of_continues second, invalid_of_continues third,
    invalid_of_continues fourth]
  simp only [Bool.or_false, Bool.false_eq_true, if_false, decide_eq_true_eq,
    UInt32.le_iff_toNat_le, fourNumber]
  show 0x10000 ≤ _ ∧ _ ≤ 0x10ffff ↔ 0x10000 ≤ _ ∧ _
  simp only [codePoint]
  omega

theorem follows_le (c : UInt8) : follows c ≤ 3 := by
  unfold follows
  repeat' split
  all_goals omega

/-- What is passed on is checked as a character is. -/
theorem validates_shaped {part : Text} (shaped : Shaped part) :
    part.toByteArray.validateUTF8At 0 = true ↔ Encodes part := by
  obtain ⟨c, rest, rfl, some_byte, length, continued⟩ := shaped
  have small := follows_le c
  have kinds := announced c
  match rest, length, continued with
  | [], length, _ => exact absurd length.symm some_byte
  | [b], length, continued =>
    exact validates_two (kinds.1 length.symm) (continued b (by simp))
  | [b, d], length, continued =>
    exact validates_three (kinds.2.1 length.symm) (continued b (by simp)) (continued d (by simp))
  | [b, d, e], length, continued =>
    exact validates_four (kinds.2.2 length.symm) (continued b (by simp)) (continued d (by simp))
      (continued e (by simp))
  | _ :: _ :: _ :: _ :: more, length, _ =>
    simp only [List.length_cons] at length
    omega

end Decoder

theorem follows_first : ∀ byte : UInt8,
    follows (byte &&& 0x1f ||| 0xc0) = 1 ∧ follows (byte &&& 0x0f ||| 0xe0) = 2 ∧
      follows (byte &&& 0x07 ||| 0xf0) = 3 :=
  every_byte (by decide)

/-- The encoding of a character of more than one byte is passed on. -/
theorem shaped_character {c : Char} (more : 1 < c.utf8Size) : Shaped (String.utf8EncodeChar c) := by
  rcases c.utf8Size_eq with size | size | size | size
  · omega
  · exact ⟨_, _, String.utf8EncodeChar_eq_cons_cons size, by simp [follows_first],
      by simp [follows_first], by simp [continues_rest]⟩
  · exact ⟨_, _, String.utf8EncodeChar_eq_cons_cons_cons size, by simp [follows_first],
      by simp [follows_first], by simp [continues_rest]⟩
  · exact ⟨_, _, String.utf8EncodeChar_eq_cons_cons_cons_cons size, by simp [follows_first],
      by simp [follows_first], by simp [continues_rest]⟩

/-- A byte below 128 announces nothing. -/
theorem follows_ascii {c : UInt8} (small : c < 128) : follows c = 0 := by
  have all : ∀ c < 128, follows c = 0 := every_byte (by decide)
  exact all c small

/-- What is passed on is a valid text exactly when it encodes a character. -/
theorem valid_shaped {part : Text} (shaped : Shaped part) : Valid part ↔ Encodes part := by
  rw [← validates_shaped shaped, ByteArray.validateUTF8At_eq_isSome_utf8DecodeChar?]
  obtain ⟨first, rest, rfl, some_byte, length, continued⟩ := shaped
  constructor
  · intro valid
    generalize whole : first :: rest = text at valid
    cases valid with
    | nil => contradiction
    | character c more =>
      rw [List.toByteArray_append, ByteArray.utf8DecodeChar?_utf8EncodeChar_append]
      rfl
  · intro decoded
    obtain ⟨c, decoded⟩ := Option.isSome_iff_exists.mp decoded
    obtain ⟨more, whole⟩ := ByteArray.exists_of_utf8DecodeChar?_eq_some decoded
    have split : first :: rest = String.utf8EncodeChar c ++ more.data.toList := by
      rw [← List.toByteArray_inj, whole, List.toByteArray_append]
      congr 1
      apply ByteArray.ext
      rw [List.data_toByteArray, Array.toArray_toList]
    rcases character_cases c with ⟨byte, small, encoded⟩ | ⟨size, -⟩
    · rw [encoded, List.singleton_append] at split
      obtain rfl := (List.cons.inj split).1
      exact absurd (follows_ascii small) some_byte
    · obtain ⟨lead, others, encoded, -, count, -⟩ := shaped_character size
      rw [encoded, List.cons_append, List.cons.injEq] at split
      obtain ⟨rfl, rfl⟩ := split
      have none_left : more.data.toList = [] := by
        rw [List.length_append, count] at length
        exact List.length_eq_zero_iff.mp (by omega)
      rw [none_left, List.append_nil, ← encoded, ← List.append_nil (String.utf8EncodeChar c)]
      exact .character c .nil

/-! ## The loop -/

variable {ascii : UInt8 → UInt8} {bad : Text}

theorem completes_iff (c : UInt8) (rest : Text) :
    complete c rest = true ↔ follows c ≠ 0 ∧ follows c ≤ rest.length ∧
      ∀ byte ∈ rest.take (follows c), continues byte = true := by
  simp [complete, and_assoc]

/-- A lead byte with the bytes it announces is a part of its own. -/
theorem shaped_of_complete {c : UInt8} {rest : Text} (whole : complete c rest = true) :
    Shaped (c :: rest.take (follows c)) := by
  obtain ⟨some_byte, enough, continued⟩ := (completes_iff c rest).mp whole
  exact ⟨c, _, rfl, some_byte, List.length_take_of_le enough, continued⟩

/-- A part at the front is a lead byte with the bytes it announces. -/
theorem complete_of_front {c : UInt8} {rest part : Text} (front : part <+: c :: rest)
    (shaped : Shaped part) : complete c rest = true ∧ part = c :: rest.take (follows c) := by
  obtain ⟨first, others, rfl, some_byte, length, continued⟩ := shaped
  obtain ⟨rfl, inside⟩ := List.cons_prefix_cons.mp front
  have same : rest.take (follows first) = others := by
    rw [← length]
    exact (List.prefix_iff_eq_take.mp inside).symm
  rw [completes_iff, same]
  exact ⟨⟨some_byte, length ▸ inside.length_le, continued⟩, rfl⟩

/-- A lead byte is no byte that continues a character. -/
theorem continues_lead {c : UInt8} (some_byte : follows c ≠ 0) : continues c = false := by
  have all : ∀ c : UInt8, follows c ≠ 0 → continues c = false := every_byte (by decide)
  exact all c some_byte

/-- A text can be encoded when the part at its front and the rest can. -/
theorem encodable_cons {c : UInt8} {rest : Text} : Encodable (c :: rest) ↔
    (complete c rest = true → Encodes (c :: rest.take (follows c))) ∧ Encodable rest := by
  constructor
  · intro all
    refine ⟨fun whole => all _ ?_ (shaped_of_complete whole),
      fun part inside => all part (List.infix_cons inside)⟩
    exact (List.cons_prefix_cons.mpr ⟨rfl, List.take_prefix _ _⟩).isInfix
  · rintro ⟨here, all⟩ part inside shaped
    rcases List.infix_cons_iff.mp inside with front | later
    · obtain ⟨whole, rfl⟩ := complete_of_front front shaped
      exact here whole
    · exact all part later shaped

/-- No part starts inside of the bytes that a lead byte announces. -/
theorem encodable_behind {front rest : Text} (continued : ∀ byte ∈ front, continues byte = true) :
    Encodable (front ++ rest) ↔ Encodable rest := by
  induction front with
  | nil => rfl
  | cons byte front ih =>
    rw [← ih fun other inside => continued other (List.mem_cons_of_mem _ inside), List.cons_append,
      encodable_cons]
    refine and_iff_right fun whole => ?_
    have lead := continues_lead ((completes_iff _ _).mp whole).1
    rw [continued byte List.mem_cons_self] at lead
    contradiction

/-- A byte that starts nothing is left out of account. -/
theorem encodable_bad {c : UInt8} {rest : Text} (none : complete c rest = false) :
    Encodable (c :: rest) ↔ Encodable rest := by
  simp [encodable_cons, none]

/-- A part that is passed on must encode a character, and so must the parts behind it. -/
theorem encodable_complete {c : UInt8} {rest : Text} (whole : complete c rest = true) :
    Encodable (c :: rest) ↔
      Encodes (c :: rest.take (follows c)) ∧ Encodable (rest.drop (follows c)) := by
  have behind := @encodable_behind _ (rest.drop (follows c)) ((completes_iff c rest).mp whole).2.2
  rw [List.take_append_drop] at behind
  rw [encodable_cons, behind]
  simp [whole]

/-- What the loops put in place of a byte is sound: bytes below 128 stay below, and what stands for
a byte that starts nothing is a character or more. -/
structure Replaces (ascii : UInt8 → UInt8) (bad : Text) : Prop where
  /-- A byte below 128 stays below. -/
  small : ∀ c < 128, ascii c < 128
  /-- A byte that has been changed is not changed again. -/
  settled : ∀ c < 128, ascii (ascii c) = ascii c
  /-- The replacement is valid. -/
  valid : Valid bad
  /-- The replacement is some text. -/
  some_byte : bad ≠ []
  /-- The replacement is passed on. -/
  passed : ∀ rest, sanitizeWith ascii bad (bad ++ rest) = bad ++ sanitizeWith ascii bad rest

theorem sanitizeWith_ascii {c : UInt8} (small : c < 128) (rest : Text) :
    sanitizeWith ascii bad (c :: rest) = ascii c :: sanitizeWith ascii bad rest := by
  rw [sanitizeWith, if_pos small]

/-- A part is passed on. -/
theorem sanitizeWith_shaped {part : Text} (shaped : Shaped part) (rest : Text) :
    sanitizeWith ascii bad (part ++ rest) = part ++ sanitizeWith ascii bad rest := by
  obtain ⟨c, others, rfl, some_byte, length, continued⟩ := shaped
  have high : ¬ c < 128 := fun small => some_byte (follows_ascii small)
  have taken : (others ++ rest).take (follows c) = others := by
    rw [← length, List.take_left']
    rfl
  have dropped : (others ++ rest).drop (follows c) = rest := by
    rw [← length, List.drop_left']
    rfl
  have whole : complete c (others ++ rest) = true := by
    rw [completes_iff, taken, List.length_append]
    exact ⟨some_byte, by omega, continued⟩
  rw [List.cons_append, sanitizeWith, if_neg high, if_pos whole, taken, dropped, List.cons_append]

/-- What comes out starts with a character. -/
theorem starts_sanitizeWith (replaces : Replaces ascii bad) (text : Text) :
    Starts (sanitizeWith ascii bad text) := by
  cases text with
  | nil =>
    rw [sanitizeWith]
    exact starts_nil
  | cons c rest =>
    rw [sanitizeWith]
    split
    · exact .ascii (replaces.small c ‹_›)
    · split
      · rename_i whole
        have lead := continues_lead ((completes_iff c rest).mp whole).1
        simpa [Starts] using lead
      · exact replaces.valid.begins replaces.some_byte _

/-- What comes out is valid exactly when every part that is passed on encodes a character. -/
theorem valid_sanitizeWith (replaces : Replaces ascii bad) (text : Text) :
    Valid (sanitizeWith ascii bad text) ↔ Encodable text := by
  fun_induction sanitizeWith ascii bad text with
  | case1 =>
    refine iff_of_true .nil fun part inside shaped => ?_
    obtain ⟨_, _, rfl, _⟩ := shaped
    exact absurd (List.infix_nil.mp inside) (List.cons_ne_nil _ _)
  | case2 c rest small ih =>
    have none : complete c rest = false := by
      rw [Bool.eq_false_iff, ne_eq, completes_iff]
      exact fun whole => whole.1 (follows_ascii small)
    rw [encodable_bad none, ← ih]
    exact ⟨fun valid => valid.tail (replaces.small c small), .cons (replaces.small c small)⟩
  | case3 c rest _ whole ih =>
    rw [(starts_sanitizeWith replaces _).append_iff, valid_shaped (shaped_of_complete whole),
      encodable_complete whole, ih]
  | case4 c rest _ broken ih =>
    rw [replaces.valid.append_iff, encodable_bad (by simpa using broken), ih]

/-- What has come out is passed on as it is. -/
theorem sanitizeWith_idempotent (replaces : Replaces ascii bad) (text : Text) :
    sanitizeWith ascii bad (sanitizeWith ascii bad text) = sanitizeWith ascii bad text := by
  fun_induction sanitizeWith ascii bad text with
  | case1 => rw [sanitizeWith]
  | case2 c rest small ih =>
    rw [sanitizeWith_ascii (replaces.small c small), replaces.settled c small, ih]
  | case3 c rest _ whole ih => rw [sanitizeWith_shaped (shaped_of_complete whole), ih]
  | case4 c rest _ _ ih => rw [replaces.passed, ih]

/-- A valid text is passed on when no byte below 128 of it is changed. -/
theorem sanitizeWith_valid {text : Text} (valid : Valid text)
    (fixed : ∀ byte ∈ text, byte < 128 → ascii byte = byte) :
    sanitizeWith ascii bad text = text := by
  induction valid with
  | nil => rw [sanitizeWith]
  | @character c rest _ ih =>
    have later := ih fun byte inside => fixed byte (List.mem_append_right _ inside)
    rcases character_cases c with ⟨byte, small, encoded⟩ | ⟨more, -⟩
    · rw [encoded, List.singleton_append, sanitizeWith_ascii small, later,
        fixed byte (by simp [encoded]) small]
    · rw [sanitizeWith_shaped (shaped_character more), later]

/-! ## Both copies -/

theorem replaces_rpc : Replaces id replacement := by
  have shaped : Shaped replacement := ⟨_, _, rfl, by decide, by decide, forall_bytes (by decide)⟩
  refine ⟨fun c small => small, fun _ _ => rfl, ?_, List.cons_ne_nil _ _, fun rest => ?_⟩
  · decide
  · exact sanitizeWith_shaped shaped rest

theorem printable_small : ∀ c < 128, printable c < 128 ∧ printable (printable c) = printable c :=
  every_byte (by decide)

theorem replaces_llm : Replaces printable [32] := by
  refine ⟨fun c small => (printable_small c small).1, fun c small => (printable_small c small).2,
    by decide, List.cons_ne_nil _ _, fun rest => ?_⟩
  rw [List.singleton_append, sanitizeWith_ascii (by decide)]
  rfl

/-- No control character but a tab or the end of a line. -/
def ControlFree (text : Text) : Prop := ∀ byte ∈ text, 0x20 ≤ byte ∨ byte ∈ [10, 13, 9]

theorem printable_fixed {c : UInt8} (free : 0x20 ≤ c ∨ c ∈ [10, 13, 9]) : printable c = c := by
  have all : ∀ c : UInt8, 0x20 ≤ c ∨ c ∈ [10, 13, 9] → printable c = c :=
    every_byte (by decide)
  exact all c free

/-- The writer of JSON throws exactly at a text that is not valid, as its documentation says of the
strict error handler, which `dump` takes by default. -/
def Strict (dump : Text → Except Thrown Text) : Prop :=
  ∀ text, (∃ out, dump text = .ok out) ↔ Valid text

/-- What is promised of a text that is made ready for JSON. -/
structure Sanitised (dump : Text → Except Thrown Text) (sanitize : Text → Text) (text : Text) :
    Prop where
  /-- A strict decoder accepts it. -/
  valid : Valid (sanitize text)
  /-- A valid text without control characters is left as it is. -/
  kept : Valid text → ControlFree text → sanitize text = text
  /-- It is left as it is the second time. -/
  idempotent : sanitize (sanitize text) = sanitize text
  /-- Writing it does not throw. -/
  dumps : ∃ out, dump (sanitize text) = .ok out

variable {dump : Text → Except Thrown Text}

/-- The loop promises this exactly when every part it passes on encodes a character; a valid text
without control characters and the result itself are left alone in any case. -/
theorem sanitised_of (strict : Strict dump) (replaces : Replaces ascii bad)
    (fixed : ∀ c, 0x20 ≤ c ∨ c ∈ [10, 13, 9] → ascii c = c) (text : Text) :
    Sanitised dump (sanitizeWith ascii bad) text ↔ Encodable text := by
  constructor
  · intro promised
    exact (valid_sanitizeWith replaces text).mp promised.valid
  · intro encodable
    have valid := (valid_sanitizeWith replaces text).mpr encodable
    refine ⟨valid, fun whole free => ?_, sanitizeWith_idempotent replaces text,
      (strict _).mpr valid⟩
    exact sanitizeWith_valid whole fun byte inside _ => fixed byte (free byte inside)

/-- Either copy keeps its promise for a text exactly when no lead byte of it is followed by the
bytes it announces without encoding a character: no number that is too small for its length, no
surrogate and none above the last code point. -/
theorem sanitised_iff (dump : Text → Except Thrown Text) (strict : Strict dump) (text : Text) :
    (Sanitised dump rpcSanitizeUtf8 text ↔ Encodable text) ∧
      (Sanitised dump llmSanitizeUtf8 text ↔ Encodable text) :=
  ⟨sanitised_of strict replaces_rpc (fun _ _ => rfl) text,
    sanitised_of strict replaces_llm (fun _ => printable_fixed) text⟩

/-- A writer of JSON strings for texts that need no escape. -/
def quoted (text : Text) : Except Thrown Text :=
  if Valid text then .ok ([34] ++ text ++ [34]) else .error (.typeError 316)

theorem strict_quoted : Strict quoted := by
  intro text
  unfold quoted
  split <;> simp_all

/-- A letter of two bytes. -/
theorem sanitised_letter :
    Sanitised quoted rpcSanitizeUtf8 [0xC3, 0xA9] ∧
    Sanitised quoted llmSanitizeUtf8 [0xC3, 0xA9] := by
  have encodable : Encodable [0xC3, 0xA9] := by
    rw [encodable_complete (by decide)]
    refine ⟨by decide, fun part inside shaped => ?_⟩
    obtain ⟨_, _, rfl, _⟩ := shaped
    exact absurd (List.infix_nil.mp inside) (List.cons_ne_nil _ _)
  have both := sanitised_iff quoted strict_quoted [0xC3, 0xA9]
  exact ⟨both.1.mpr encodable, both.2.mpr encodable⟩

/-- The zero byte in two bytes is passed on by both copies, and the writer throws. -/
theorem sanitised_overlong :
    ¬ Sanitised quoted rpcSanitizeUtf8 [0xC0, 0x80] ∧
      ¬ Sanitised quoted llmSanitizeUtf8 [0xC0, 0x80] := by
  have passed (ascii : UInt8 → UInt8) (bad : Text) :
      sanitizeWith ascii bad [0xC0, 0x80] = [0xC0, 0x80] := by
    have shaped : Shaped [0xC0, 0x80] := ⟨_, _, rfl, by decide, by decide, forall_bytes (by decide)⟩
    have same :
        sanitizeWith ascii bad ([0xC0, 0x80] ++ []) = [0xC0, 0x80] ++ sanitizeWith ascii bad [] :=
      sanitizeWith_shaped shaped []
    simpa [sanitizeWith] using same
  have invalid : ¬ Valid [0xC0, 0x80] := by decide
  exact ⟨fun promised => invalid (passed _ _ ▸ promised.valid),
    fun promised => invalid (passed _ _ ▸ promised.valid)⟩

/-! ## The request to a language model -/

/-- The texts that `call_llm_http` writes into its request, the names of the fields apart: only the
prompt is made ready. -/
def requestTexts (model systemPrompt prompt : Text) : List Text :=
  let safePrompt := llmSanitizeUtf8 prompt
  model :: (if systemPrompt.isEmpty then [] else [utf8 "system", systemPrompt]) ++
    [utf8 "user", safePrompt]

/-- The request is written exactly when the model's name and the system prompt are valid and what is
passed on of the prompt encodes characters. -/
theorem request_dumps (strict : Strict dump) (model systemPrompt prompt : Text) :
    (∀ text ∈ requestTexts model systemPrompt prompt, ∃ out, dump text = .ok out) ↔
      Valid model ∧ Valid systemPrompt ∧ Encodable prompt := by
  have safe : Valid (llmSanitizeUtf8 prompt) ↔ Encodable prompt :=
    valid_sanitizeWith replaces_llm prompt
  have roles : Valid (utf8 "system") ∧ Valid (utf8 "user") := ⟨valid_utf8 _, valid_utf8 _⟩
  simp only [strict _, requestTexts]
  cases systemPrompt with
  | nil => simp [safe, roles, Valid.nil]
  | cons byte rest => simp [safe, roles]

end Chitta.Sanitize
