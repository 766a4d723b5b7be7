/-!
# Sorted association lists

The ordered maps and sets of the modelled code, as lists in the order of their keys. Lookup and
update are all that proofs use; the order only makes two maps with the same entries equal.
-/
namespace Chitta.Assoc

variable {α : Type}

/-- The value of a key. -/
def lookup (key : String) : List (String × α) → Option α
  | [] => none
  | (name, value) :: rest => if name = key then some value else lookup key rest

/-- Insert or replace an entry. -/
def assign (key : String) (value : α) : List (String × α) → List (String × α)
  | [] => [(key, value)]
  | (name, old) :: rest =>
    if name = key then (key, value) :: rest
    else if key < name then (key, value) :: (name, old) :: rest
    else (name, old) :: assign key value rest

/-- Remove an entry. -/
def remove (key : String) (entries : List (String × α)) : List (String × α) :=
  entries.filter (·.1 ≠ key)

/-- Add a key to a set. -/
def insertKey (key : String) : List String → List String
  | [] => [key]
  | name :: rest =>
    if name = key then name :: rest
    else if key < name then key :: name :: rest
    else name :: insertKey key rest

/-- Take a key out of a set. -/
def eraseKey (key : String) (keys : List String) : List String := keys.filter (· ≠ key)

/-- An assigned entry is found. -/
@[simp] theorem lookup_assign_self (key : String) (value : α) (entries : List (String × α)) :
    lookup key (assign key value entries) = some value := by
  induction entries with
  | nil => simp [assign, lookup]
  | cons entry rest ih =>
    simp only [assign]
    split
    · simp [lookup]
    · split
      · simp [lookup]
      · rename_i other _
        simp [lookup, other, ih]

/-- The other entries keep their values. -/
@[simp] theorem lookup_assign_other {key other : String} (apart : other ≠ key) (value : α)
    (entries : List (String × α)) :
    lookup other (assign key value entries) = lookup other entries := by
  induction entries with
  | nil => simp [assign, lookup, Ne.symm apart]
  | cons entry rest ih =>
    simp only [assign]
    split
    · rename_i same
      simp [lookup, same, Ne.symm apart]
    · split
      · simp [lookup, Ne.symm apart]
      · simp [lookup, ih]

/-- A removed entry is not found. -/
@[simp] theorem lookup_remove_self (key : String) (entries : List (String × α)) :
    lookup key (remove key entries) = none := by
  induction entries with
  | nil => rfl
  | cons entry rest ih =>
    by_cases same : entry.1 = key
    · simpa [remove, same] using ih
    · simpa [remove, lookup, same] using ih

/-- Removing an entry keeps the others. -/
@[simp] theorem lookup_remove_other {key other : String} (apart : other ≠ key)
    (entries : List (String × α)) : lookup other (remove key entries) = lookup other entries := by
  induction entries with
  | nil => rfl
  | cons entry rest ih =>
    by_cases same : entry.1 = key
    · have kept : entry.1 ≠ other := fun equal => apart (equal.symm.trans same)
      simpa [remove, lookup, same, kept, Ne.symm apart] using ih
    · simp only [remove, decide_not] at ih
      by_cases found : entry.1 = other
      · simp [remove, lookup, found, apart]
      · simp [remove, lookup, same, found, ih]

/-- Assigning loses no key. -/
theorem lookup_assign_isSome {key name : String} {value : α} {entries : List (String × α)}
    (present : (lookup name entries).isSome) : (lookup name (assign key value entries)).isSome := by
  by_cases same : name = key
  · simp [same]
  · simpa [same] using present

/-- The keys of a set after an insertion. -/
@[simp] theorem mem_insertKey {key name : String} {keys : List String} :
    name ∈ insertKey key keys ↔ name = key ∨ name ∈ keys := by
  induction keys with
  | nil => simp [insertKey]
  | cons first rest ih =>
    simp only [insertKey]
    split
    · rename_i same
      simp [same]
    · split
      · simp
      · simp only [List.mem_cons, ih]
        constructor
        · rintro (one | two | three)
          · exact .inr (.inl one)
          · exact .inl two
          · exact .inr (.inr three)
        · rintro (one | two | three)
          · exact .inr (.inl one)
          · exact .inl two
          · exact .inr (.inr three)

/-- The keys of a set after a removal. -/
@[simp] theorem mem_eraseKey {key name : String} {keys : List String} :
    name ∈ eraseKey key keys ↔ name ≠ key ∧ name ∈ keys := by
  simp [eraseKey, and_comm]

/-- A key is looked up in the first entries and then in the others. -/
theorem lookup_append (key : String) (left right : List (String × α)) :
    lookup key (left ++ right) = (lookup key left).or (lookup key right) := by
  induction left with
  | nil => rfl
  | cons entry rest ih =>
    obtain ⟨name, value⟩ := entry
    simp only [List.cons_append, lookup]
    split
    · rfl
    · exact ih

/-- After several assignments the last one of a key is found. -/
theorem lookup_foldl_assign (key : String) (fields entries : List (String × α)) :
    lookup key (fields.foldl (fun sorted field => assign field.1 field.2 sorted) entries) =
      (lookup key fields.reverse).or (lookup key entries) := by
  induction fields generalizing entries with
  | nil => rfl
  | cons field rest ih =>
    rw [List.foldl_cons, ih, List.reverse_cons, lookup_append, Option.or_assoc]
    by_cases same : field.1 = key
    · subst same
      simp [lookup]
    · simp [lookup, same, lookup_assign_other (Ne.symm same)]

/-- What is looked up is an entry. -/
theorem mem_of_lookup {key : String} {value : α} {entries : List (String × α)}
    (found : lookup key entries = some value) : (key, value) ∈ entries := by
  induction entries with
  | nil => contradiction
  | cons entry rest ih =>
    obtain ⟨name, old⟩ := entry
    simp only [lookup] at found
    split at found
    · rename_i same
      exact List.mem_cons.mpr (.inl (Prod.ext same.symm (Option.some.inj found).symm))
    · exact List.mem_cons_of_mem _ (ih found)

/-- What is looked up after every value has changed. -/
theorem lookup_map {β : Type} (change : String → α → β) (key : String)
    (entries : List (String × α)) :
    lookup key (entries.map fun entry => (entry.1, change entry.1 entry.2)) =
      (lookup key entries).map (change key) := by
  induction entries with
  | nil => rfl
  | cons entry rest ih =>
    obtain ⟨name, value⟩ := entry
    simp only [List.map_cons, lookup]
    split
    · rename_i same
      rw [same, Option.map_some]
    · exact ih

/-! ## Sorted maps -/

/-- A key that is neither another nor before it comes after it. -/
theorem lt_of_not_lt {key name : String} (apart : name ≠ key) (later : ¬ key < name) :
    name < key := by
  apply String.not_le.mp
  intro below
  exact apart (String.le_antisymm (String.not_lt.mp later) below)

/-- The keys are in order, and so each occurs once. -/
def Sorted (entries : List (String × α)) : Prop :=
  entries.Pairwise fun left right => left.1 < right.1

/-- The entries after an assignment have its key or a key they had. -/
theorem mem_assign {key : String} {value : α} {entries : List (String × α)} {entry : String × α}
    (inside : entry ∈ assign key value entries) : entry = (key, value) ∨ entry ∈ entries := by
  induction entries with
  | nil => exact .inl (List.mem_singleton.mp inside)
  | cons first rest ih =>
    simp only [assign] at inside
    split at inside
    · cases List.mem_cons.mp inside with
      | inl here => exact .inl here
      | inr there => exact .inr (List.mem_cons_of_mem _ there)
    · split at inside
      · cases List.mem_cons.mp inside with
        | inl here => exact .inl here
        | inr there => exact .inr there
      · cases List.mem_cons.mp inside with
        | inl here => exact .inr (here ▸ List.mem_cons_self)
        | inr there =>
          cases ih there with
          | inl own => exact .inl own
          | inr old => exact .inr (List.mem_cons_of_mem _ old)

/-- Assigning keeps a map sorted. -/
theorem Sorted.assign {entries : List (String × α)} (sorted : Sorted entries) (key : String)
    (value : α) : Sorted (assign key value entries) := by
  induction entries with
  | nil => exact List.pairwise_singleton _ _
  | cons first rest ih =>
    obtain ⟨above, inner⟩ := List.pairwise_cons.mp sorted
    simp only [Assoc.assign]
    split
    · rename_i same
      exact List.pairwise_cons.mpr ⟨fun entry there => same ▸ above entry there, inner⟩
    · rename_i apart
      split
      · rename_i before
        refine List.pairwise_cons.mpr ⟨?_, sorted⟩
        intro entry there
        cases List.mem_cons.mp there with
        | inl here => exact here ▸ before
        | inr later => exact String.lt_trans before (above entry later)
      · rename_i later
        refine List.pairwise_cons.mpr ⟨?_, ih inner⟩
        intro entry there
        cases mem_assign there with
        | inl own => exact own ▸ lt_of_not_lt apart later
        | inr old => exact above entry old

/-- Removing keeps a map sorted. -/
theorem Sorted.remove {entries : List (String × α)} (sorted : Sorted entries) (key : String) :
    Sorted (remove key entries) := List.Pairwise.filter _ sorted

/-- Nothing is removed behind an entry with a greater key. -/
theorem Sorted.remove_head {first : String × α} {rest : List (String × α)}
    (sorted : Sorted (first :: rest)) : Assoc.remove first.1 rest = rest := by
  apply List.filter_eq_self.mpr
  intro entry inside
  have above := (List.pairwise_cons.mp sorted).1 entry inside
  have apart : entry.1 ≠ first.1 := by
    intro same
    rw [same] at above
    exact String.lt_irrefl _ above
  simpa using apart

/-- After an assignment a map has the entry and the entries of the other keys. -/
theorem Sorted.perm_assign {entries : List (String × α)} (sorted : Sorted entries) (key : String)
    (value : α) :
    (Assoc.assign key value entries).Perm ((key, value) :: Assoc.remove key entries) := by
  induction entries with
  | nil => exact List.Perm.refl _
  | cons first rest ih =>
    have inner : Sorted rest := (List.pairwise_cons.mp sorted).2
    by_cases same : first.1 = key
    · have assigned : Assoc.assign key value (first :: rest) = (key, value) :: rest := by
        rw [Assoc.assign, if_pos same]
      have removed : Assoc.remove key (first :: rest) = rest := by
        rw [← same, ← sorted.remove_head]
        simp [Assoc.remove]
      rw [assigned, removed]
    · have removed : Assoc.remove key (first :: rest) = first :: Assoc.remove key rest := by
        simp [Assoc.remove, same]
      rw [removed]
      by_cases before : key < first.1
      · have above : Sorted ((key, value) :: first :: rest) := by
          refine List.pairwise_cons.mpr ⟨?_, sorted⟩
          intro entry inside
          rcases List.mem_cons.mp inside with rfl | later
          · exact before
          · exact String.lt_trans before ((List.pairwise_cons.mp sorted).1 entry later)
        have kept : first :: Assoc.remove key rest = first :: rest := by
          rw [← removed]
          exact above.remove_head
        rw [Assoc.assign, if_neg same, if_pos before, kept]
      · rw [Assoc.assign, if_neg same, if_neg before]
        exact ((ih inner).cons first).trans (List.Perm.swap _ _ _)

/-- Changing values keeps a map sorted. -/
theorem Sorted.map {β : Type} {entries : List (String × α)} (sorted : Sorted entries)
    (change : String → α → β) :
    Sorted (entries.map fun entry => (entry.1, change entry.1 entry.2)) :=
  List.pairwise_map.mpr sorted

/-- The entries of a sorted map are those that are looked up. -/
theorem Sorted.mem_iff {entries : List (String × α)} (sorted : Sorted entries) {key : String}
    {value : α} : (key, value) ∈ entries ↔ lookup key entries = some value := by
  induction entries with
  | nil => simp [lookup]
  | cons first rest ih =>
    obtain ⟨above, inner⟩ := List.pairwise_cons.mp sorted
    obtain ⟨name, old⟩ := first
    rw [List.mem_cons, ih inner, lookup]
    by_cases same : name = key
    · subst same
      have absent : lookup name rest ≠ some value := by
        intro found
        exact String.lt_irrefl name (above _ ((ih inner).mpr found))
      simp [absent, eq_comm]
    · simp [same, Ne.symm same]

/-- An entry that stands behind smaller keys only, where an assignment finds it. -/
def Settled (key : String) (value : α) : List (String × α) → Prop
  | [] => False
  | (name, old) :: rest => (name = key ∧ old = value) ∨ (name < key ∧ Settled key value rest)

/-- An assigned entry is settled. -/
theorem settled_assign (key : String) (value : α) (entries : List (String × α)) :
    Settled key value (assign key value entries) := by
  induction entries with
  | nil => exact .inl ⟨rfl, rfl⟩
  | cons first rest ih =>
    simp only [assign]
    split
    · exact .inl ⟨rfl, rfl⟩
    · rename_i apart
      split
      · exact .inl ⟨rfl, rfl⟩
      · rename_i later
        exact .inr ⟨lt_of_not_lt apart later, ih⟩

/-- Assigning a settled entry again changes nothing. -/
theorem Settled.assign_self {key : String} {value : α} {entries : List (String × α)}
    (settled : Settled key value entries) : assign key value entries = entries := by
  induction entries with
  | nil => contradiction
  | cons first rest ih =>
    obtain ⟨name, old⟩ := first
    cases settled with
    | inl here => simp [assign, here.1, here.2]
    | inr there =>
      have apart : name ≠ key := String.ne_of_lt there.1
      have later : ¬ key < name := String.lt_asymm there.1
      simp only [assign, if_neg apart, if_neg later, ih there.2]

/-- Assigning a later key keeps an entry settled. -/
theorem Settled.assign_later {key other : String} {value : α} {entries : List (String × α)}
    (settled : Settled key value entries) (later : key < other) (added : α) :
    Settled key value (assign other added entries) := by
  induction entries with
  | nil => contradiction
  | cons first rest ih =>
    obtain ⟨name, old⟩ := first
    have before : ¬ other < name ∧ name ≠ other := by
      have below : name < other := by
        cases settled with
        | inl here => exact here.1 ▸ later
        | inr there => exact String.lt_trans there.1 later
      exact ⟨String.lt_asymm below, String.ne_of_lt below⟩
    simp only [assign, if_neg before.1, if_neg before.2]
    cases settled with
    | inl here => exact .inl here
    | inr there => exact .inr ⟨there.1, ih there.2⟩

/-! ## Sorted sets -/

/-- Inserting keeps a set sorted. -/
theorem pairwise_insertKey {keys : List String} (sorted : keys.Pairwise (· < ·)) (key : String) :
    (insertKey key keys).Pairwise (· < ·) := by
  induction keys with
  | nil => exact List.pairwise_singleton _ _
  | cons first rest ih =>
    obtain ⟨above, inner⟩ := List.pairwise_cons.mp sorted
    simp only [insertKey]
    split
    · exact sorted
    · rename_i apart
      split
      · rename_i before
        refine List.pairwise_cons.mpr ⟨?_, sorted⟩
        intro name there
        cases List.mem_cons.mp there with
        | inl here => exact here ▸ before
        | inr later => exact String.lt_trans before (above name later)
      · rename_i later
        refine List.pairwise_cons.mpr ⟨?_, ih inner⟩
        intro name there
        cases mem_insertKey.mp there with
        | inl own => exact own ▸ lt_of_not_lt apart later
        | inr old => exact above name old

/-- Erasing keeps a set sorted. -/
theorem pairwise_eraseKey {keys : List String} (sorted : keys.Pairwise (· < ·)) (key : String) :
    (eraseKey key keys).Pairwise (· < ·) := List.Pairwise.filter _ sorted

/-! ## Reversed maps -/

/-- A key that is missing is missing in any order. -/
theorem lookup_reverse_none {key : String} {entries : List (String × α)}
    (missing : lookup key entries = none) : lookup key entries.reverse = none := by
  induction entries with
  | nil => rfl
  | cons entry rest ih =>
    by_cases same : entry.1 = key
    · simp [lookup, same] at missing
    · simp only [lookup, if_neg same] at missing
      rw [List.reverse_cons, lookup_append, ih missing]
      simp [lookup, same]

/-- A sorted map has the same values when it is read from its end. -/
theorem Sorted.lookup_reverse {entries : List (String × α)} (sorted : Sorted entries)
    (key : String) : lookup key entries.reverse = lookup key entries := by
  induction entries with
  | nil => rfl
  | cons entry rest ih =>
    obtain ⟨above, inner⟩ := List.pairwise_cons.mp sorted
    rw [List.reverse_cons, lookup_append, ih inner]
    by_cases same : entry.1 = key
    · have absent : lookup key rest = none := by
        cases found : lookup key rest with
        | none => rfl
        | some value =>
          have less : entry.1 < key := above _ (mem_of_lookup found)
          exact absurd same (String.ne_of_lt less)
      simp [lookup, same, absent]
    · simp only [Option.or_none, lookup, if_neg same]

end Chitta.Assoc
