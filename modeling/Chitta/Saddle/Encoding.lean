import Chitta.Saddle.Shape

/-!
# The bytes of a text

What `decode` reads of any bytes, `encode` writes so that it is read again, also where the bytes are
no characters. The characters of a string are written in UTF-8. The names are those of the source.
-/
namespace Chitta.Saddle

open Bytes

/-- The bytes of one number. -/
def encodeChar (c : Nat) : List UInt8 :=
  if c < 128 then [.ofNat c]
  else if c < 2048 then [.ofNat (192 ||| c >>> 6), .ofNat (128 ||| c &&& 63)]
  else if c < 65536 then
    [.ofNat (224 ||| c >>> 12), .ofNat (128 ||| c >>> 6 &&& 63), .ofNat (128 ||| c &&& 63)]
  else
    [.ofNat (240 ||| c >>> 18), .ofNat (128 ||| c >>> 12 &&& 63), .ofNat (128 ||| c >>> 6 &&& 63),
      .ofNat (128 ||| c &&& 63)]

/-- `encode`, as bytes. -/
def encodeBytes (s : Text) : List UInt8 := s.flatMap encodeChar

/-! ## Parts of a number -/

/-- A byte of a character of one byte is the character. -/
theorem lead_ascii {byte : UInt8} (low : byte < 128) : lead byte = (byte.toNat, 0) := by
  have all : ∀ byte < 128, lead byte = (byte.toNat, 0) := every_byte (by decide)
  exact all byte low

/-- The lowest bits of a byte. -/
theorem low_bits (bits : Nat) (small : bits ≤ 8) (n : UInt32) :
    (n.toUInt8 &&& UInt8.ofNat (2 ^ bits - 1)).toNat = n.toNat % 2 ^ bits := by
  have mask : 2 ^ bits - 1 < 256 := by
    have most : 2 ^ bits ≤ 2 ^ 8 := Nat.pow_le_pow_right (by omega) small
    omega
  rw [UInt8.toNat_and, UInt32.toNat_toUInt8, UInt8.toNat_ofNat_of_lt' mask,
    Nat.and_two_pow_sub_one_eq_mod]
  exact Nat.mod_mod_of_dvd _ (Nat.pow_dvd_pow 2 small)

/-- Six more bits are added below. -/
theorem add_bits (high : Nat) {low : Nat} (small : low < 64) :
    high <<< 6 ||| low = high * 64 + low := by
  rw [← Nat.shiftLeft_add_eq_or_of_lt (i := 6) small, Nat.shiftLeft_eq]

/-- The numbers of the parts of a character. -/
theorem parts_of_character (n : UInt32) :
    ((n >>> 18).toUInt8 &&& 0x07).toNat = n.toNat / 262144 % 8 ∧
      ((n >>> 12).toUInt8 &&& 0x0f).toNat = n.toNat / 4096 % 16 ∧
      ((n >>> 12).toUInt8 &&& 0x3f).toNat = n.toNat / 4096 % 64 ∧
      ((n >>> 6).toUInt8 &&& 0x1f).toNat = n.toNat / 64 % 32 ∧
      ((n >>> 6).toUInt8 &&& 0x3f).toNat = n.toNat / 64 % 64 ∧
      (n.toUInt8 &&& 0x3f).toNat = n.toNat % 64 := by
  have shift : ∀ bits : UInt32, bits.toNat < 32 →
      (n >>> bits).toNat = n.toNat / 2 ^ bits.toNat := by
    intro bits few
    rw [UInt32.toNat_shiftRight, Nat.mod_eq_of_lt few, Nat.shiftRight_eq_div_pow]
  have high := shift 18 (by decide)
  have upper := shift 12 (by decide)
  have lower := shift 6 (by decide)
  have seven := low_bits 3 (by omega) (n >>> 18)
  have fifteen := low_bits 4 (by omega) (n >>> 12)
  have second := low_bits 6 (by omega) (n >>> 12)
  have thirty := low_bits 5 (by omega) (n >>> 6)
  have third := low_bits 6 (by omega) (n >>> 6)
  have last := low_bits 6 (by omega) n
  rw [high] at seven
  rw [upper] at fifteen second
  rw [lower] at thirty third
  exact ⟨seven, fifteen, second, thirty, third, last⟩

/-! ## What is read is small -/

/-- A first byte leaves room for the bits of the bytes that belong to it. -/
theorem lead_small : ∀ byte, ((lead byte).1 + 1) * 64 ^ (lead byte).2 ≤ 2097152 :=
  every_byte (by decide)

/-- The lowest six bits of a byte. -/
theorem six_bits (byte : UInt8) : (byte &&& 63).toNat < 64 := by
  rw [UInt8.toNat_and]
  exact Nat.lt_succ_of_le Nat.and_le_right

/-- Each further byte adds six bits. -/
theorem bits_added (bytes : List UInt8) (c : Nat) :
    bytes.foldl (fun c next => c <<< 6 ||| (next &&& 63).toNat) c + 1 ≤
    (c + 1) * 64 ^ bytes.length := by
  induction bytes generalizing c with
  | nil => simp
  | cons byte rest ih =>
    have six := six_bits byte
    have more := ih (c <<< 6 ||| (byte &&& 63).toNat)
    have one : (c <<< 6 ||| (byte &&& 63).toNat) + 1 ≤ (c + 1) * 64 := by
      rw [add_bits c six]
      omega
    rw [List.foldl_cons, List.length_cons, pow_succ', ← mul_assoc]
    exact Nat.le_trans more (Nat.mul_le_mul_right _ one)

theorem decodeFrom_small (count : Nat) (bytes : List UInt8) :
    ∀ c ∈ decodeFrom count bytes, c < 2097152 := by
  induction count generalizing bytes with
  | zero => exact fun c never => absurd never List.not_mem_nil
  | succ count ih =>
    cases bytes with
    | nil => exact fun c never => absurd never List.not_mem_nil
    | cons byte rest =>
      intro c inside
      rw [decodeFrom, List.mem_cons] at inside
      rcases inside with rfl | later
      · have added := bits_added (rest.take (lead byte).2) (lead byte).1
        have few : 64 ^ (rest.take (lead byte).2).length ≤ 64 ^ (lead byte).2 :=
          Nat.pow_le_pow_right (by omega) (List.length_take_le _ _)
        have room := Nat.le_trans (Nat.mul_le_mul_left ((lead byte).1 + 1) few) (lead_small byte)
        omega
      · exact ih _ c later

/-! ## What is written is read -/

/-- What the bytes that are written first give. -/
theorem lead_written : (∀ high < 32, lead (.ofNat (192 ||| high)) = (high, 1)) ∧
    (∀ high < 16, lead (.ofNat (224 ||| high)) = (high, 2)) ∧
    ∀ high < 8, lead (.ofNat (240 ||| high)) = (high, 3) := by
  decide

/-- What the other bytes that are written give. -/
theorem rest_written : ∀ low < 64, (UInt8.ofNat (128 ||| low) &&& 63).toNat = low := by
  decide

/-- A number that is written is read. -/
theorem decodeFrom_encodeChar {c : Nat} (small : c < 2097152) (count : Nat) (rest : List UInt8) :
    decodeFrom (count + 1) (encodeChar c ++ rest) = c :: decodeFrom count rest := by
  obtain ⟨two, three, four⟩ := lead_written
  have six (n : Nat) : n &&& 63 = n % 64 := Nat.and_two_pow_sub_one_eq_mod n 6
  have last (n : Nat) : (UInt8.ofNat (128 ||| n % 64) &&& 63).toNat = n % 64 :=
    rest_written _ (Nat.mod_lt _ (by omega))
  have join (high n : Nat) : high <<< 6 ||| n % 64 = high * 64 + n % 64 :=
    add_bits high (Nat.mod_lt _ (by omega))
  unfold encodeChar
  simp only [six, Nat.shiftRight_eq_div_pow]
  split
  · have own : (UInt8.ofNat c).toNat = c :=
      UInt8.toNat_ofNat_of_lt' (Nat.lt_trans ‹c < 128› (by decide))
    have ascii : UInt8.ofNat c < 128 := by
      apply UInt8.lt_iff_toNat_lt.mpr
      rw [own]
      assumption
    simp only [List.cons_append, List.nil_append, decodeFrom, lead_ascii ascii, List.take_zero,
      List.drop_zero, List.foldl_nil, own]
  · split
    · simp only [List.cons_append, List.nil_append, decodeFrom, two (c / 2 ^ 6) (by omega),
        List.take_succ_cons, List.take_zero, List.drop_succ_cons, List.drop_zero, List.foldl_cons,
        List.foldl_nil, last, join]
      congr 1
      omega
    · split
      · simp only [List.cons_append, List.nil_append, decodeFrom, three (c / 2 ^ 12) (by omega),
          List.take_succ_cons, List.take_zero, List.drop_succ_cons, List.drop_zero, List.foldl_cons,
          List.foldl_nil, last, join]
        congr 1
        omega
      · simp only [List.cons_append, List.nil_append, decodeFrom, four (c / 2 ^ 18) (by omega),
          List.take_succ_cons, List.take_zero, List.drop_succ_cons, List.drop_zero, List.foldl_cons,
          List.foldl_nil, last, join]
        congr 1
        omega

theorem encodeChar_length (c : Nat) : 0 < (encodeChar c).length := by
  unfold encodeChar
  split
  · exact Nat.one_pos
  · split
    · exact Nat.two_pos
    · split <;> exact Nat.succ_pos _

/-- A text of small numbers is read as it was written. -/
theorem decode_encodeBytes {s : Text} (small : ∀ c ∈ s, c < 2097152) :
    decode (encodeBytes s) = s := by
  have all : ∀ count, s.length ≤ count → decodeFrom count (encodeBytes s) = s := by
    induction s with
    | nil =>
      intro count _
      cases count <;> rfl
    | cons c rest ih =>
      intro count enough
      cases count with
      | zero => contradiction
      | succ count =>
        rw [encodeBytes, List.flatMap_cons, decodeFrom_encodeChar (small c List.mem_cons_self)]
        congr 1
        exact ih (fun other inside => small other (List.mem_cons_of_mem _ inside)) count
          (Nat.le_of_succ_le_succ enough)
  have long : s.length ≤ (encodeBytes s).length := by
    clear small all
    induction s with
    | nil => exact Nat.le_refl 0
    | cons c rest ih =>
      have one := encodeChar_length c
      rw [encodeBytes, List.flatMap_cons, List.length_append, List.length_cons]
      rw [encodeBytes] at ih
      omega
  exact all _ long

/-! ## UTF-8 -/

/-- The bytes of a character in the two spellings. -/
theorem byte_written (byte : UInt8) :
    (byte &&& 0x1f ||| 0xc0) = .ofNat (192 ||| (byte &&& 0x1f).toNat) ∧
      (byte &&& 0x0f ||| 0xe0) = .ofNat (224 ||| (byte &&& 0x0f).toNat) ∧
      (byte &&& 0x07 ||| 0xf0) = .ofNat (240 ||| (byte &&& 0x07).toNat) ∧
      (byte &&& 0x3f ||| 0x80) = .ofNat (128 ||| (byte &&& 0x3f).toNat) := by
  have apart (high : Nat) (low : UInt8) : low ||| .ofNat high = .ofNat (high ||| low.toNat) := by
    rw [UInt8.ofNat_or, UInt8.ofNat_toNat, UInt8.or_comm]
  exact ⟨apart 192 _, apart 224 _, apart 240 _, apart 128 _⟩

/-- A character is written in UTF-8. -/
theorem encodeChar_utf8 (c : Char) : encodeChar c.toNat = String.utf8EncodeChar c := by
  have value : c.toNat = c.val.toNat := rfl
  have six (n : Nat) : n &&& 63 = n % 64 := Nat.and_two_pow_sub_one_eq_mod n 6
  obtain ⟨seven, fifteen, second, thirty, third, last⟩ := parts_of_character c.val
  have written (byte : UInt8) := (byte_written byte).2.2.2
  unfold encodeChar
  simp only [six, Nat.shiftRight_eq_div_pow]
  rcases c.utf8Size_eq with size | size | size | size
  · have low := UInt32.le_iff_toNat_le.mp (Char.utf8Size_eq_one_iff.mp size)
    have small : c.toNat ≤ 127 := low
    rw [if_pos (by omega), String.utf8EncodeChar_eq_singleton size, value]
    rfl
  · have both := Char.utf8Size_eq_two_iff.mp size
    have low : 127 < c.toNat := UInt32.lt_iff_toNat_lt.mp both.1
    have high : c.toNat ≤ 0x7ff := UInt32.le_iff_toNat_le.mp both.2
    rw [if_neg (by omega), if_pos (by omega), String.utf8EncodeChar_eq_cons_cons size,
      (byte_written _).1, written, thirty, last, ← value,
      Nat.mod_eq_of_lt (by omega : c.toNat / 64 < 32)]
  · have both := Char.utf8Size_eq_three_iff.mp size
    have low : 0x7ff < c.toNat := UInt32.lt_iff_toNat_lt.mp both.1
    have high : c.toNat ≤ 0xffff := UInt32.le_iff_toNat_le.mp both.2
    rw [if_neg (by omega), if_neg (by omega), if_pos (by omega),
      String.utf8EncodeChar_eq_cons_cons_cons size, (byte_written _).2.1, written, written, fifteen,
      third, last, ← value, Nat.mod_eq_of_lt (by omega : c.toNat / 4096 < 16)]
  · have low : 0xffff < c.toNat := UInt32.lt_iff_toNat_lt.mp (Char.utf8Size_eq_four_iff.mp size)
    have high : c.toNat < 0x110000 := by
      cases c.valid with
      | inl low => exact Nat.lt_trans low (by decide)
      | inr high => exact high.2
    rw [if_neg (by omega), if_neg (by omega), if_neg (by omega),
      String.utf8EncodeChar_eq_cons_cons_cons_cons size, (byte_written _).2.2.1, written, written,
      written, seven, second, third, last, ← value,
      Nat.mod_eq_of_lt (by omega : c.toNat / 262144 < 8)]

/-- A string is written in UTF-8. -/
theorem encodeBytes_utf8 (text : String) :
    encodeBytes (text.toList.map Char.toNat) = utf8 text := by
  rw [Utf8.utf8_eq, encodeBytes, List.flatMap_map]
  exact congrArg (List.flatMap · text.toList) (funext encodeChar_utf8)

/-- The bytes of a string are decoded to its characters. -/
theorem decode_utf8 (text : String) : decode (utf8 text) = text.toList.map Char.toNat := by
  rw [← encodeBytes_utf8]
  apply decode_encodeBytes
  intro c inside
  obtain ⟨character, -, rfl⟩ := List.mem_map.mp inside
  have small : character.toNat < 0x110000 := by
    cases character.valid with
    | inl low => exact Nat.lt_trans low (by decide)
    | inr high => exact high.2
  omega

/-- Where every number is a character, the text that is written is the string of them. -/
theorem utf8_encode {s : Text} (characters : ∀ c ∈ s, c.isValidChar) :
    utf8 (encode s) = encodeBytes s := by
  have same : (encode s).toList.map Char.toNat = s := by
    rw [encode, String.toList_ofList, List.map_map]
    refine (List.map_congr_left ?_).trans (List.map_id s)
    intro c inside
    rw [Function.comp_apply, Char.ofNat, dif_pos (characters c inside)]
    rfl
  rw [← encodeBytes_utf8, same]

/-- Whatever the bytes are, what is read of them is written so that it is read again. The bytes of a
string are read as its characters and written as they were. -/
theorem reads_again : (∀ bytes, decode (encodeBytes (decode bytes)) = decode bytes) ∧
    ∀ text : String, decode (utf8 text) = text.toList.map Char.toNat ∧
      encodeBytes (decode (utf8 text)) = utf8 text := by
  refine ⟨fun bytes => decode_encodeBytes (decodeFrom_small _ bytes),
    fun text => ⟨decode_utf8 text, ?_⟩⟩
  rw [decode_utf8, encodeBytes_utf8]

end Chitta.Saddle
