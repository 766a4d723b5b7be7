import Mathlib.Data.List.Nodup
import Mathlib.Data.List.Perm.Basic
import Mathlib.Logic.Function.Basic

/-!
# What slots hold

Each of finitely many slots is empty or holds an item. A step that changes one slot changes the list
of all items by the items of that slot, up to the order. So does a step that takes an item out of a
list.
-/
namespace Chitta

variable {α : Type}

/-- The items in the first slots. -/
def slots (slot : Nat → Option α) (count : Nat) : List α := (List.range count).filterMap slot

variable {slot : Nat → Option α} {count index : Nat}

/-- An item is in a slot. -/
theorem mem_slots {item : α} : item ∈ slots slot count ↔
    ∃ index < count, slot index = some item := by
  simp [slots]

/-- One slot and the others. -/
theorem slots_perm (slot : Nat → Option α) (inside : index < count) :
    (slots slot count).Perm
      ((slot index).toList ++ slots (Function.update slot index none) count) := by
  have member : index ∈ List.range count := List.mem_range.mpr inside
  have apart : index ∉ (List.range count).erase index := List.nodup_range.not_mem_erase
  have split := List.perm_cons_erase member
  have others : ((List.range count).erase index).filterMap (Function.update slot index none) =
      ((List.range count).erase index).filterMap slot := by
    refine List.filterMap_congr fun other there => ?_
    have distinct : other ≠ index := fun same => apart (same ▸ there)
    exact Function.update_of_ne distinct none slot
  have first : (slots slot count).Perm
      ((slot index).toList ++ ((List.range count).erase index).filterMap slot) := by
    have mapped := split.filterMap slot
    rw [List.filterMap_cons] at mapped
    cases found : slot index with
    | none =>
      rw [found] at mapped
      exact mapped
    | some item =>
      rw [found] at mapped
      exact mapped
  have second : (slots (Function.update slot index none) count).Perm
      (((List.range count).erase index).filterMap slot) := by
    have mapped := split.filterMap (Function.update slot index none)
    rw [List.filterMap_cons, Function.update_self, others] at mapped
    exact mapped
  exact first.trans (second.symm.append_left _)

/-- A slot gets another value. -/
theorem slots_update (slot : Nat → Option α) (inside : index < count) (value : Option α) :
    (slots (Function.update slot index value) count).Perm
      (value.toList ++ slots (Function.update slot index none) count) := by
  have split := slots_perm (Function.update slot index value) inside
  rwa [Function.update_self, Function.update_idem] at split

/-- A slot that was empty is filled. -/
theorem slots_fill (slot : Nat → Option α) {item : α} (empty : slot index = none)
    (inside : index < count) :
    (slots (Function.update slot index (some item)) count).Perm (item :: slots slot count) := by
  have before := slots_perm slot inside
  rw [empty] at before
  exact (slots_update slot inside (some item)).trans (before.symm.cons item)

/-- A slot that was filled is emptied. -/
theorem slots_empty (slot : Nat → Option α) {item : α} (full : slot index = some item)
    (inside : index < count) :
    (slots slot count).Perm (item :: slots (Function.update slot index none) count) := by
  have before := slots_perm slot inside
  rwa [full] at before

/-- The first item of a list that is found, and the others. -/
theorem perm_find {found : α → Bool} {items : List α} {item : α}
    (there : items.find? found = some item) : items.Perm (item :: items.eraseP found) := by
  induction items with
  | nil => contradiction
  | cons first rest ih =>
    by_cases own : found first = true
    · rw [List.find?_cons_of_pos own] at there
      rw [List.eraseP_cons_of_pos own, Option.some.inj there]
    · rw [List.find?_cons_of_neg own] at there
      rw [List.eraseP_cons_of_neg own]
      exact ((ih there).cons first).trans (List.Perm.swap _ _ _)

/-- The item at a place, and the others. -/
theorem perm_eraseIdx {items : List α} {item : α} (there : items[index]? = some item) :
    items.Perm (item :: items.eraseIdx index) := by
  obtain ⟨inside, rfl⟩ := List.getElem?_eq_some_iff.mp there
  exact (List.getElem_cons_eraseIdx_perm inside).symm

/-- Another item at a place, and the others. -/
theorem perm_set {items : List α} {item : α} (there : items[index]? = some item) (other : α) :
    (items.set index other).Perm (other :: items.eraseIdx index) :=
  List.set_perm_cons_eraseIdx (List.getElem?_eq_some_iff.mp there).1 other

end Chitta
