import Chitta.Horner
import Chitta.Utf8
/-!
# Decimal numbers as texts

How a number is written in decimal and read back from the bytes of its digits.
-/
namespace Chitta.Decimal

open Bytes Utf8

/-- `std::to_string`. -/
def decimal (number : Nat) : Text := utf8 (toString number)

/-- The number that digits write. -/
def value (digits : Text) : Nat := Horner.value 10 0 (digits.map fun digit => digit.toNat - 48)

/-- The bytes of two strings one behind the other. -/
theorem utf8_append (left right : String) : utf8 (left ++ right) = utf8 left ++ utf8 right := by
  simp only [utf8, String.toUTF8_eq_toByteArray, String.toByteArray_append, ByteArray.data_append,
    Array.toList_append]

/-- The byte of a digit. -/
theorem utf8_digit {digit : Nat} (small : digit < 10) :
    utf8 (String.singleton (Nat.digitChar digit)) = [UInt8.ofNat (48 + digit)] := by
  have each : ∀ digit : Fin 10, utf8 (String.singleton (Nat.digitChar digit)) =
      [UInt8.ofNat (48 + digit)] := by
    decide
  exact each ⟨digit, small⟩

/-- A number below ten is its digit. -/
theorem decimal_of_lt {number : Nat} (small : number < 10) :
    decimal number = [UInt8.ofNat (48 + number)] := by
  have written : toString number = String.singleton (Nat.digitChar number) := Nat.repr_of_lt small
  rw [decimal, written]
  exact utf8_digit small

/-- A larger number is the number of its tens and its last digit. -/
theorem decimal_of_ge {number : Nat} (large : 10 ≤ number) :
    decimal number = decimal (number / 10) ++ [UInt8.ofNat (48 + number % 10)] := by
  have written : toString number =
      toString (number / 10) ++ String.singleton (Nat.digitChar (number % 10)) :=
    Nat.repr_of_ge large
  have last : number % 10 < 10 := Nat.mod_lt number (by decide)
  rw [decimal, written, utf8_append, utf8_digit last]
  rfl

/-- The code of a digit. -/
theorem toNat_digit {digit : Nat} (small : digit < 10) :
    (UInt8.ofNat (48 + digit)).toNat = 48 + digit := by
  rw [UInt8.toNat_ofNat']
  omega

/-- A digit is one. -/
theorem isDigit_digit {digit : Nat} (small : digit < 10) :
    isDigit (UInt8.ofNat (48 + digit)) = true := by
  have code := toNat_digit small
  have low : (48 : UInt8) ≤ UInt8.ofNat (48 + digit) := by
    rw [UInt8.le_iff_toNat_le, code]
    show 48 ≤ 48 + digit
    omega
  have high : UInt8.ofNat (48 + digit) ≤ (57 : UInt8) := by
    rw [UInt8.le_iff_toNat_le, code]
    show 48 + digit ≤ 57
    omega
  rw [isDigit, decide_eq_true low, decide_eq_true high]
  rfl

/-- A number is written in digits. -/
theorem isDigit_decimal (number : Nat) : ∀ digit ∈ decimal number, isDigit digit = true := by
  induction number using Nat.strongRecOn with
  | _ number ih =>
    by_cases small : number < 10
    · rw [decimal_of_lt small]
      intro digit inside
      rw [List.mem_singleton.mp inside]
      exact isDigit_digit small
    · have large : 10 ≤ number := by omega
      have last : number % 10 < 10 := Nat.mod_lt number (by decide)
      rw [decimal_of_ge large]
      intro digit inside
      cases List.mem_append.mp inside with
      | inl front => exact ih (number / 10) (by omega) digit front
      | inr back =>
        rw [List.mem_singleton.mp back]
        exact isDigit_digit last

/-- A number is written with at least one digit. -/
theorem decimal_ne_nil (number : Nat) : decimal number ≠ [] := by
  by_cases small : number < 10
  · rw [decimal_of_lt small]
    exact List.cons_ne_nil _ _
  · rw [decimal_of_ge (by omega)]
    exact List.append_ne_nil_of_right_ne_nil _ (List.cons_ne_nil _ _)

/-- A number is read back. -/
theorem value_decimal (number : Nat) : value (decimal number) = number := by
  induction number using Nat.strongRecOn with
  | _ number ih =>
    by_cases small : number < 10
    · have code := toNat_digit small
      rw [decimal_of_lt small, value, List.map_singleton, Horner.value_cons, Horner.value_nil, code]
      omega
    · have large : 10 ≤ number := by omega
      have last : number % 10 < 10 := Nat.mod_lt number (by decide)
      have code := toNat_digit last
      have front := ih (number / 10) (by omega)
      rw [value] at front
      rw [decimal_of_ge large, value, List.map_append, Horner.value_append, front,
        List.map_singleton, Horner.value_cons, Horner.value_nil, code]
      omega

/-- Different numbers are written differently. -/
theorem decimal_injective : Function.Injective decimal := by
  intro left right same
  have values := congrArg value same
  rw [value_decimal, value_decimal] at values
  exact values

/-- A positive number is written without a leading zero. -/
theorem head_decimal {number : Nat} (positive : 0 < number) :
    ∃ digit rest, decimal number = digit :: rest ∧ digit ≠ 48 := by
  induction number using Nat.strongRecOn with
  | _ number ih =>
    by_cases small : number < 10
    · refine ⟨UInt8.ofNat (48 + number), [], decimal_of_lt small, ?_⟩
      intro zero
      have code := toNat_digit small
      rw [zero] at code
      have forty : (48 : UInt8).toNat = 48 := rfl
      omega
    · have large : 10 ≤ number := by omega
      obtain ⟨digit, rest, written, apart⟩ := ih (number / 10) (by omega) (by omega)
      refine ⟨digit, rest ++ [UInt8.ofNat (48 + number % 10)], ?_, apart⟩
      rw [decimal_of_ge large, written]
      rfl

/-- A number is valid text. -/
theorem valid_decimal (number : Nat) : Valid (decimal number) := valid_utf8 (toString number)

end Chitta.Decimal
