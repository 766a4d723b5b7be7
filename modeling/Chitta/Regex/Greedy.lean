import Chitta.Regex

/-!
# Repetitions that take all they can

A pattern is run from a place by the equations of its parts. A repetition of a symbol takes the
longest part that passes when what follows the pattern succeeds behind that part.
-/
namespace Chitta.Regex

open Pattern

variable {Symbol Result : Type} {next : Place Symbol → Option Result} {result : Result}
  {passed : Nat} {groups : List (Nat × List Symbol)}

/-- A symbol that passes. -/
theorem run_symbol {test : Symbol → Bool} {read : Symbol} {rest : List Symbol}
    (passes : test read = true) :
    run (.symbol test) next ⟨passed, read :: rest, groups⟩ = next ⟨passed + 1, rest, groups⟩ := by
  simp [run, passes]

/-- A symbol that does not pass, or the end. -/
theorem run_symbol_stop {test : Symbol → Bool} {rest : List Symbol}
    (ends : ∀ read ∈ rest.head?, test read = false) :
    run (.symbol test) next ⟨passed, rest, groups⟩ = none := by
  cases rest with
  | nil => rfl
  | cons read more =>
    have fails := ends read rfl
    simp [run, fails]

/-- A text that is there. -/
theorem run_literal [DecidableEq Symbol] (text rest : List Symbol) :
    run (literal text) next ⟨passed, text ++ rest, groups⟩ =
      next ⟨passed + text.length, rest, groups⟩ := by
  induction text generalizing passed with
  | nil => rfl
  | cons read more ih =>
    have first : run (.symbol fun other => decide (other = read)) (run (literal more) next)
        ⟨passed, read :: (more ++ rest), groups⟩ =
          run (literal more) next ⟨passed + 1, more ++ rest, groups⟩ :=
      run_symbol (by simp)
    have size : passed + 1 + more.length = passed + (read :: more).length := by
      rw [List.length_cons]
      omega
    rw [← size, ← ih]
    exact first

/-- The first of some patterns, then the others. -/
theorem run_all_cons (first : Pattern Symbol) (others : List (Pattern Symbol))
    (place : Place Symbol) :
    run (all (first :: others)) next place = run first (run (all others) next) place := by
  cases others with
  | nil => rfl
  | cons second more => rfl

/-- A repetition takes the longest part when the rest succeeds behind it. -/
theorem run_many_longest {test : Symbol → Bool} {front rest : List Symbol}
    (passes : ∀ read ∈ front, test read = true) (ends : ∀ read ∈ rest.head?, test read = false)
    (goesOn : next ⟨passed + front.length, rest, groups⟩ = some result) :
    run (many (.symbol test)) next ⟨passed, front ++ rest, groups⟩ = some result := by
  have enough : ∀ (front : List Symbol) (passed count : Nat), front.length ≤ count →
      (∀ read ∈ front, test read = true) →
      next ⟨passed + front.length, rest, groups⟩ = some result →
      again (fun next place => run (.symbol test) next place) true next count
        ⟨passed, front ++ rest, groups⟩ = some result := by
    intro front
    induction front with
    | nil =>
      intro passed count _ _ goesOn
      cases count with
      | zero => exact goesOn
      | succ count =>
        rw [List.nil_append, again]
        simp only [run_symbol_stop ends, if_true]
        exact goesOn
    | cons read more ih =>
      intro passed count bound passes goesOn
      cases count with
      | zero => simp at bound
      | succ count =>
        obtain ⟨first, others⟩ := List.forall_mem_cons.mp passes
        have size : passed + (read :: more).length = passed + 1 + more.length := by
          rw [List.length_cons]
          omega
        rw [size] at goesOn
        have later := ih (passed + 1) count (by simp at bound; omega) others goesOn
        rw [List.cons_append, again]
        simp only [run_symbol first, if_true, List.length_cons]
        rw [if_pos (by omega), later]
        rfl
  exact enough front passed _ (by simp) passes goesOn

/-- The group that was passed over. -/
theorem record_part (number : Nat) (start : Nat) (part rest : List Symbol)
    (before after : List (Nat × List Symbol)) (stop : Nat) :
    Place.record number ⟨start, part ++ rest, before⟩ ⟨stop, rest, after⟩ =
      ⟨stop, rest, (number, part) :: after⟩ := by
  have size : (part ++ rest).length - rest.length = part.length := by
    rw [List.length_append]
    omega
  simp only [Place.record, size, List.take_left]

/-- A way over a pattern that is found at the start of a text is the match. -/
theorem searchFrom_of_run {pattern : Pattern Symbol} {text : List Symbol} {after : Place Symbol}
    (found : run pattern some ⟨passed, text, []⟩ = some after) :
    searchFrom pattern passed text =
      some ⟨[], text.take (text.length - after.rest.length), after.rest, after.groups⟩ := by
  cases text with
  | nil => simp [searchFrom, found]
  | cons read rest => simp [searchFrom, found]

end Chitta.Regex
