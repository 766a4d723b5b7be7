import Mathlib.Data.List.Nodup

/-!
# Chains of parents

Every known id has a parent or is a root. The chain from an id follows the parents until a root, an
unknown id or an id that the chain already has. Parents may run in circles.
-/
namespace Chitta.Ancestry

variable {Id : Type}

/-- The chain from an id, behind ids that were seen; no id has an empty chain. -/
inductive Chain (parent : Id → Option (Option Id)) : List Id → Option Id → List Id → Prop
  /-- There is no further parent. -/
  | root {seen : List Id} : Chain parent seen none []
  /-- The id is not known. -/
  | missing {seen : List Id} {id : Id} (absent : parent id = none) : Chain parent seen (some id) []
  /-- The id was seen. -/
  | repeated {seen : List Id} {id : Id} (before : id ∈ seen) : Chain parent seen (some id) []
  /-- The id comes first, and the chain of its parent follows. -/
  | step {seen : List Id} {id : Id} {next : Option Id} {rest : List Id} (fresh : id ∉ seen)
      (known : parent id = some next) (later : Chain parent (id :: seen) next rest) :
      Chain parent seen (some id) (id :: rest)

variable {parent : Id → Option (Option Id)} {seen : List Id} {next : Option Id} {ids : List Id}

/-- A chain has every id once, and none that was seen. -/
theorem Chain.nodup (chain : Chain parent seen next ids) :
    ids.Nodup ∧ ∀ id ∈ ids, id ∉ seen := by
  induction chain with
  | root => simp
  | missing => simp
  | repeated => simp
  | step fresh known later ih =>
    obtain ⟨distinct, unseen⟩ := ih
    constructor
    · refine List.nodup_cons.mpr ⟨fun inside => ?_, distinct⟩
      exact unseen _ inside List.mem_cons_self
    · intro id inside
      rcases List.mem_cons.mp inside with rfl | among
      · exact fresh
      · exact fun before => unseen id among (List.mem_cons_of_mem _ before)

/-- There is at most one chain. -/
theorem Chain.unique {others : List Id} (chain : Chain parent seen next ids)
    (other : Chain parent seen next others) : ids = others := by
  induction chain generalizing others with
  | root => cases other with
    | root => rfl
  | missing absent => cases other with
    | missing => rfl
    | repeated => rfl
    | step _ known _ => simp [absent] at known
  | repeated before => cases other with
    | missing => rfl
    | repeated => rfl
    | step fresh _ _ => exact absurd before fresh
  | step fresh known later ih => cases other with
    | missing absent => simp [absent] at known
    | repeated before => exact absurd before fresh
    | step _ known' later' =>
      obtain rfl := Option.some.inj (known.symm.trans known')
      rw [ih later']

/-- Nothing follows an id that is not known. -/
theorem Chain.of_missing {id : Id} (absent : parent id = none)
    (chain : Chain parent seen (some id) ids) : ids = [] :=
  chain.unique (.missing absent)

end Chitta.Ancestry
