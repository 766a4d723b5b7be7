import Mathlib.Data.Nat.ModEq
import Mathlib.Tactic.Ring
/-!
# Numbers written in a base

A loop that multiplies by a base and adds the next code computes the number that the codes write in
this base behind a start. A loop over machine words computes it up to a modulus, whatever the words
are, so two such loops return the same word when the two numbers are congruent.
-/
namespace Chitta.Horner

variable {ι σ : Type}

/-- The number that the codes write in the base behind the start. -/
def value (base start : Nat) (codes : List Nat) : Nat :=
  codes.foldl (fun number code => base * number + code) start

/-- Without codes the number is the start. -/
@[simp] theorem value_nil (base start : Nat) : value base start [] = start := rfl

/-- The first code moves into the start. -/
@[simp] theorem value_cons (base start code : Nat) (codes : List Nat) :
    value base start (code :: codes) = value base (base * start + code) codes := rfl

/-- The number of the first codes is the start of the others. -/
theorem value_append (base start : Nat) (codes more : List Nat) :
    value base start (codes ++ more) = value base (value base start codes) more := by
  simp [value]

/-- The start counts for a power of the base. -/
theorem value_eq_add (base start : Nat) (codes : List Nat) :
    value base start codes = base ^ codes.length * start + value base 0 codes := by
  induction codes generalizing start with
  | nil => simp
  | cons code codes ih =>
    have moved := ih (base * start + code)
    have alone := ih (base * 0 + code)
    rw [value_cons, value_cons, moved, alone, List.length_cons, pow_succ]
    ring

/-- Congruent starts give congruent numbers. -/
theorem value_modEq {modulus start other : Nat} (base : Nat) (same : start ≡ other [MOD modulus])
    (codes : List Nat) : value base start codes ≡ value base other codes [MOD modulus] := by
  rw [value_eq_add base start, value_eq_add base other]
  have scaled := same.mul_left (base ^ codes.length)
  exact scaled.add_right (value base 0 codes)

/-- A loop whose every step multiplies by the base and adds the code of its item, up to the modulus,
computes the number that the codes write. -/
theorem run_modEq {modulus base : Nat} {read : σ → Nat} {code : ι → Nat} {step : σ → ι → σ}
    (one : ∀ state item, read (step state item) ≡ base * read state + code item [MOD modulus])
    (start : σ) (items : List ι) :
    read (items.foldl step start) ≡ value base (read start) (items.map code) [MOD modulus] := by
  induction items generalizing start with
  | nil => exact Nat.ModEq.refl (read start)
  | cons item items ih =>
    have first := value_modEq base (one start item) (items.map code)
    rw [List.foldl_cons, List.map_cons, value_cons]
    exact (ih (step start item)).trans first

end Chitta.Horner
