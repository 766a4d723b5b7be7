import Mathlib.Data.Nat.ModEq
import Mathlib.Tactic.Ring

/-!
# Numbers in a number of bytes, the lowest byte first

A number is written in a fixed number of bytes and read back up to the power of 256 that they can
tell apart. A reader takes a number of bytes from the front of what is left, or fails.
-/
namespace Chitta.LittleEndian

/-- The lowest bytes of a number. -/
def bytes : Nat → Nat → List UInt8
  | 0, _ => []
  | width + 1, number => UInt8.ofNat number :: bytes width (number / 256)

/-- The number that bytes stand for. -/
def number : List UInt8 → Nat
  | [] => 0
  | byte :: rest => byte.toNat + 256 * number rest

/-- The bytes are as many as asked for. -/
@[simp] theorem length_bytes (width value : Nat) : (bytes width value).length = width := by
  induction width generalizing value with
  | zero => rfl
  | succ width ih => rw [bytes, List.length_cons, ih]

/-- The bytes tell a number up to a power of 256. -/
theorem number_bytes_mod (width value : Nat) :
    number (bytes width value) = value % 256 ^ width := by
  induction width generalizing value with
  | zero => rw [bytes, number, pow_zero, Nat.mod_one]
  | succ width ih =>
    have step := @Nat.mod_mul 256 (256 ^ width) value
    rw [bytes, number, ih, UInt8.toNat_ofNat', pow_succ' 256 width, step]

/-- A number that the bytes can tell is read back. -/
theorem number_bytes {width value : Nat} (small : value < 256 ^ width) :
    number (bytes width value) = value := by
  rw [number_bytes_mod, Nat.mod_eq_of_lt small]

/-! ## Reading from the front -/

/-- The first items and the others, when there are as many. -/
def front {α : Type} (count : Nat) (items : List α) : Option (List α × List α) :=
  if count ≤ items.length then some (items.take count, items.drop count) else none

/-- The items in front are taken. -/
theorem front_append {α : Type} {count : Nat} {items : List α} (length : items.length = count)
    (rest : List α) : front count (items ++ rest) = some (items, rest) := by
  rw [front, if_pos (by rw [List.length_append]; omega), ← length, List.take_left', List.drop_left']
  · rfl
  · rfl

/-- A number at the front. -/
def readNumber (width : Nat) (text : List UInt8) : Option (Nat × List UInt8) :=
  (front width text).map fun parts => (number parts.1, parts.2)

/-- A number that was written is read. -/
theorem readNumber_bytes (width value : Nat) (rest : List UInt8) :
    readNumber width (bytes width value ++ rest) = some (value % 256 ^ width, rest) := by
  rw [readNumber, front_append (length_bytes width value), Option.map_some, number_bytes_mod]

end Chitta.LittleEndian
