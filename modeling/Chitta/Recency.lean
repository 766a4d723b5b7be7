/-!
# Keys in the order of their last use

A history of uses, the latest first, orders the keys by their last use. A list of keys that
follows this order keeps doing so when a key that is used moves to its front, and the last key of
the list is the one that has not been used for the longest time.
-/
namespace Chitta

variable {κ : Type} [DecidableEq κ]

/-- Every key has been used, and a key before another one has been used later. -/
structure Recent (uses keys : List κ) : Prop where
  /-- The keys have been used. -/
  used : ∀ key ∈ keys, key ∈ uses
  /-- They are in the order of their last use. -/
  ordered : keys.Pairwise fun left right => uses.idxOf left < uses.idxOf right

namespace Recent

variable {uses keys : List κ}

/-- No keys. -/
theorem nil : Recent uses [] := ⟨by simp, List.Pairwise.nil⟩

/-- Fewer keys stay in the order. -/
theorem sublist {fewer : List κ} (recent : Recent uses keys) (sub : fewer.Sublist keys) :
    Recent uses fewer where
  used key inside := recent.used key (sub.subset inside)
  ordered := recent.ordered.sublist sub

/-- Every key is there once. -/
theorem nodup (recent : Recent uses keys) : keys.Nodup :=
  recent.ordered.imp fun less same => by
    rw [same] at less
    exact Nat.lt_irrefl _ less

/-- A key that is used moves to the front. -/
theorem use (recent : Recent uses keys) (key : κ) : Recent (key :: uses)
    (key :: keys.erase key) := by
  have others : ∀ other ∈ keys.erase key, other ≠ key ∧ other ∈ keys := fun other inside =>
    recent.nodup.mem_erase_iff.mp inside
  have later : ∀ other, other ≠ key → (key :: uses).idxOf other = uses.idxOf other + 1 :=
    fun other apart => by rw [List.idxOf_cons, beq_false_of_ne (Ne.symm apart), cond_false]
  constructor
  · intro other inside
    cases inside with
    | head => exact List.mem_cons_self
    | tail _ there => exact List.mem_cons_of_mem _ (recent.used other (others other there).2)
  · refine List.pairwise_cons.mpr ⟨fun other inside => ?_, ?_⟩
    · rw [later other (others other inside).1, List.idxOf_cons_self]
      exact Nat.succ_pos _
    · refine (recent.sublist List.erase_sublist).ordered.imp_of_mem fun one two less => ?_
      rw [later _ (others _ one).1, later _ (others _ two).1]
      exact Nat.succ_lt_succ less

/-- The last key has not been used for the longest time. -/
theorem oldest (recent : Recent uses keys) {last : κ} (final : keys.getLast? = some last) {key : κ}
    (inside : key ∈ keys) (apart : key ≠ last) : uses.idxOf key < uses.idxOf last := by
  obtain ⟨front, split⟩ := List.getLast?_eq_some_iff.mp final
  have ordered := recent.ordered
  rw [split] at ordered inside
  cases List.mem_append.mp inside with
  | inl before => exact (List.pairwise_append.mp ordered).2.2 key before last (by simp)
  | inr same => exact absurd (List.mem_singleton.mp same) apart

end Recent

end Chitta
