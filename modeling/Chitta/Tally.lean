import Mathlib.Data.List.Perm.Basic

/-!
# The weights of a list

A count or a measure over a list is the sum of what its items weigh. A system that takes, adds or
replaces one item changes the sum by the weights of the items concerned, so balances between the
parts of a state are linear arithmetic.
-/
namespace Chitta

variable {α : Type}

/-- The sum of the weights of the items. -/
def tally (weight : α → Nat) : List α → Nat
  | [] => 0
  | item :: rest => weight item + tally weight rest

/-- No items weigh nothing. -/
@[simp] theorem tally_nil (weight : α → Nat) : tally weight [] = 0 := rfl

/-- The first item and the others. -/
@[simp] theorem tally_cons (weight : α → Nat) (item : α) (rest : List α) :
    tally weight (item :: rest) = weight item + tally weight rest := rfl

/-- Two lists weigh their sum. -/
@[simp] theorem tally_append (weight : α → Nat) (left right : List α) :
    tally weight (left ++ right) = tally weight left + tally weight right := by
  induction left with
  | nil => simp
  | cons item rest ih =>
    show weight item + tally weight (rest ++ right) = weight item + tally weight rest + _
    omega

/-- The order of the items does not matter. -/
theorem tally_perm (weight : α → Nat) {items others : List α} (same : items.Perm others) :
    tally weight items = tally weight others := by
  induction same with
  | nil => rfl
  | cons item _ ih => rw [tally_cons, tally_cons, ih]
  | swap => simp only [tally_cons, Nat.add_left_comm]
  | trans _ _ first second => exact first.trans second

/-- One item is taken out. -/
theorem tally_eraseIdx (weight : α → Nat) {items : List α} {index : Nat} {old : α}
    (found : items[index]? = some old) :
    tally weight (items.eraseIdx index) + weight old = tally weight items := by
  obtain ⟨inside, rfl⟩ := List.getElem?_eq_some_iff.mp found
  rw [← tally_perm weight (List.getElem_cons_eraseIdx_perm inside), tally_cons, Nat.add_comm]

/-- One item is replaced. -/
theorem tally_set (weight : α → Nat) {items : List α} {index : Nat} {old : α} (new : α)
    (found : items[index]? = some old) :
    tally weight (items.set index new) + weight old = tally weight items + weight new := by
  have inside := (List.getElem?_eq_some_iff.mp found).1
  rw [tally_perm weight (List.set_perm_cons_eraseIdx inside new), tally_cons,
    ← tally_eraseIdx weight found]
  omega

/-- An item weighs at most the sum. -/
theorem le_tally (weight : α → Nat) {items : List α} {item : α} (inside : item ∈ items) :
    weight item ≤ tally weight items := by
  induction items with
  | nil => contradiction
  | cons first rest ih =>
    rw [tally_cons]
    cases inside with
    | head => omega
    | tail _ later =>
      have bound := ih later
      omega

/-- Smaller weights have a smaller sum. -/
theorem tally_mono {lighter weight : α → Nat} (less : ∀ item, lighter item ≤ weight item)
    (items : List α) : tally lighter items ≤ tally weight items := by
  induction items with
  | nil => exact Nat.le_refl 0
  | cons item rest ih =>
    have first := less item
    rw [tally_cons, tally_cons]
    omega

/-- Items that weigh nothing do so together. -/
theorem tally_eq_zero {weight : α → Nat} {items : List α}
    (empty : ∀ item ∈ items, weight item = 0) :
    tally weight items = 0 := by
  induction items with
  | nil => rfl
  | cons item rest ih =>
    have first := empty item List.mem_cons_self
    have others := ih fun other inside => empty other (List.mem_cons_of_mem _ inside)
    rw [tally_cons]
    omega

/-- An item that outweighs all others is alone with every smaller weight. -/
theorem tally_alone {weight lighter : α → Nat} (less : ∀ item, lighter item ≤ weight item)
    {items : List α} {item : α} (inside : item ∈ items)
    (alone : tally weight items ≤ weight item) : tally lighter items = lighter item := by
  induction items with
  | nil => contradiction
  | cons first rest ih =>
    rw [tally_cons] at alone ⊢
    cases inside with
    | head =>
      have others : tally lighter rest = 0 := by
        apply tally_eq_zero
        intro other there
        have bound := le_tally weight there
        have smaller := less other
        omega
      omega
    | tail _ later =>
      have bound := le_tally weight later
      have smaller := less first
      have inner := ih later (by omega)
      omega

/-- Whether a number is this one. -/
def once (id other : Nat) : Nat := if other = id then 1 else 0

/-- Numbers that follow one another are each there once. -/
theorem tally_zipIdx (items : List α) (start id : Nat) :
    tally (fun item => once id item.2) (items.zipIdx start) =
      if start ≤ id ∧ id < start + items.length then 1 else 0 := by
  induction items generalizing start with
  | nil =>
    have never : ¬(start ≤ id ∧ id < start + 0) := by omega
    rw [List.length_nil, if_neg never]
    rfl
  | cons item rest ih =>
    rw [List.zipIdx_cons, tally_cons, ih, List.length_cons, once]
    by_cases own : start = id
    · have later : ¬(start + 1 ≤ id ∧ id < start + 1 + rest.length) := by omega
      have now : start ≤ id ∧ id < start + (rest.length + 1) := by omega
      rw [if_pos own, if_neg later, if_pos now]
    · rw [if_neg own, Nat.zero_add]
      by_cases later : start + 1 ≤ id ∧ id < start + 1 + rest.length
      · have now : start ≤ id ∧ id < start + (rest.length + 1) := by omega
        rw [if_pos later, if_pos now]
      · have never : ¬(start ≤ id ∧ id < start + (rest.length + 1)) := by omega
        rw [if_neg later, if_neg never]

/-- A list that is made from another one weighs what its items come from. -/
theorem tally_map {β : Type} (weight : β → Nat) (make : α → β) (items : List α) :
    tally weight (items.map make) = tally (fun item => weight (make item)) items := by
  induction items with
  | nil => rfl
  | cons item rest ih => rw [List.map_cons, tally_cons, tally_cons, ih]

end Chitta
