import Mathlib.Data.List.Sort
import Chitta.Ledger.Table

/-!
# Indexes that mirror the rows

The indexes of a table list, under the text of a field, exactly the ids of the rows that have that
text in the field. A put that does not throw keeps them so. Then `select` finds what a scan of the
rows would find, as long as equal values have equal texts.
-/
namespace Chitta.Ledger

/-- An index lists an id under a text. -/
def Index.Has (index : Index) (text id : String) : Prop :=
  ∃ ids, Assoc.lookup text index = some ids ∧ id ∈ ids

/-- An index mirrors a field of the rows; its sets are sorted and not empty. -/
structure Index.Mirrors (library : Library) (rows : List (String × Json)) (field : String)
    (index : Index) : Prop where
  /-- What the index lists. -/
  has : ∀ text id, index.Has text id ↔ ∃ row value, Assoc.lookup id rows = some row ∧
    row.at field = .ok value ∧ library.dump value = text
  /-- The sets of ids. -/
  sets : ∀ text ids, Assoc.lookup text index = some ids → ids.Pairwise (· < ·) ∧ ids ≠ []

/-- The rows of a table are sorted and its indexes mirror them. -/
structure Table.Exact (library : Library) (table : Table) : Prop where
  /-- The rows. -/
  sorted : Assoc.Sorted table.rows
  /-- The indexes. -/
  mirrors : ∀ field index, (field, index) ∈ table.indexes →
    index.Mirrors library table.rows field

/-! ## Updates of an index -/

/-- The sets of an index after an id left. -/
theorem lookup_leave (index : Index) (text id other : String) :
    Assoc.lookup other (index.leave text id) =
      if other = text then
        (Assoc.lookup text index).bind fun ids =>
          if Assoc.eraseKey id ids = [] then none else some (Assoc.eraseKey id ids)
      else Assoc.lookup other index := by
  unfold Index.leave
  cases found : Assoc.lookup text index with
  | none =>
    by_cases same : other = text
    · simp [same, found]
    · simp [same]
  | some ids =>
    by_cases same : other = text
    · subst same
      by_cases empty : Assoc.eraseKey id ids = []
      · simp [empty]
      · simp [empty]
    · by_cases empty : Assoc.eraseKey id ids = []
      · simp [empty, same]
      · simp [empty, same]

/-- An id that left a text is no longer listed under it. -/
theorem has_leave (index : Index) (text id other name : String) :
    (index.leave text id).Has other name ↔ index.Has other name ∧ ¬(other = text ∧ name = id) := by
  unfold Index.Has
  rw [lookup_leave]
  by_cases same : other = text
  · subst same
    cases found : Assoc.lookup other index with
    | none => simp
    | some ids =>
      by_cases empty : Assoc.eraseKey id ids = []
      · have only : ∀ key ∈ ids, key = id := by
          intro key inside
          refine Decidable.byContradiction fun apart => ?_
          have kept : key ∈ Assoc.eraseKey id ids := Assoc.mem_eraseKey.mpr ⟨apart, inside⟩
          rw [empty] at kept
          contradiction
        simp only [if_true, Option.bind_some, if_pos empty]
        constructor
        · rintro ⟨_, absent, _⟩
          contradiction
        · rintro ⟨⟨_, ⟨⟩, inside⟩, apart⟩
          exact absurd ⟨trivial, only name inside⟩ apart
      · simp only [if_true, Option.bind_some, if_neg empty, Option.some.injEq, true_and]
        constructor
        · rintro ⟨_, rfl, inside⟩
          obtain ⟨apart, there⟩ := Assoc.mem_eraseKey.mp inside
          exact ⟨⟨ids, rfl, there⟩, apart⟩
        · rintro ⟨⟨_, rfl, there⟩, apart⟩
          exact ⟨_, rfl, Assoc.mem_eraseKey.mpr ⟨apart, there⟩⟩
  · simp [same]

/-- An id that entered under a text is listed there. -/
theorem has_enter (index : Index) (text id other name : String) :
    (index.enter text id).Has other name ↔ index.Has other name ∨ (other = text ∧ name = id) := by
  unfold Index.Has Index.enter
  by_cases same : other = text
  · subst same
    rw [Assoc.lookup_assign_self]
    cases found : Assoc.lookup other index with
    | none => simp [Assoc.insertKey]
    | some ids => simp [or_comm]
  · simp [same]

/-- Leaving keeps the sets sorted and not empty. -/
theorem sets_leave {index : Index} {text id : String}
    (sets : ∀ text ids, Assoc.lookup text index = some ids → ids.Pairwise (· < ·) ∧ ids ≠ [])
    (other : String) (ids : List String)
    (found : Assoc.lookup other (index.leave text id) = some ids) :
    ids.Pairwise (· < ·) ∧ ids ≠ [] := by
  rw [lookup_leave] at found
  split at found
  · obtain ⟨before, there, found⟩ := Option.bind_eq_some_iff.mp found
    split at found
    · contradiction
    · rename_i filled
      obtain rfl := Option.some.inj found
      exact ⟨Assoc.pairwise_eraseKey (sets text before there).1 id, filled⟩
  · exact sets other ids found

/-- Entering keeps the sets sorted and not empty. -/
theorem sets_enter {index : Index} {text id : String}
    (sets : ∀ text ids, Assoc.lookup text index = some ids → ids.Pairwise (· < ·) ∧ ids ≠ [])
    (other : String) (ids : List String)
    (found : Assoc.lookup other (index.enter text id) = some ids) :
    ids.Pairwise (· < ·) ∧ ids ≠ [] := by
  unfold Index.enter at found
  by_cases same : other = text
  · subst same
    rw [Assoc.lookup_assign_self] at found
    obtain rfl := Option.some.inj found
    constructor
    · cases there : Assoc.lookup other index with
      | none => exact List.pairwise_singleton _ _
      | some before => exact Assoc.pairwise_insertKey (sets other before there).1 id
    · exact List.ne_nil_of_mem (Assoc.mem_insertKey.mpr (.inl rfl))
  · rw [Assoc.lookup_assign_other same] at found
    exact sets other ids found

/-! ## Puts keep tables exact -/

/-- The rows after a put. -/
def putRows (id : String) (row : Json) (rows : List (String × Json)) : List (String × Json) :=
  if row.isNull then Assoc.remove id rows else Assoc.assign id row rows

/-- The row of the put. -/
theorem lookup_putRows (id : String) (row : Json) (rows : List (String × Json)) (other : String) :
    Assoc.lookup other (putRows id row rows) =
      if other = id then if row.isNull then none else some row else Assoc.lookup other rows := by
  unfold putRows
  by_cases same : other = id
  · subst same
    cases row.isNull with
    | true => simp
    | false => simp
  · cases row.isNull with
    | true => simp [same]
    | false => simp [same]

/-- The old row leaves an index that mirrors it. -/
theorem left_mirrors {library : Library} {rows : List (String × Json)} {field id : String}
    {index left : Index} (mirrors : index.Mirrors library rows field)
    (done : (match Assoc.lookup id rows with
      | none => (.ok index : Except Thrown Index)
      | some old => do
        let value ← old.at field
        return index.leave (library.dump value) id) = .ok left) :
    (∀ text name, left.Has text name ↔ index.Has text name ∧ name ≠ id) ∧
      ∀ text ids, Assoc.lookup text left = some ids → ids.Pairwise (· < ·) ∧ ids ≠ [] := by
  cases found : Assoc.lookup id rows with
  | none =>
    rw [found] at done
    obtain rfl := Except.ok.inj done
    refine ⟨fun text name => ?_, mirrors.sets⟩
    constructor
    · intro listed
      refine ⟨listed, ?_⟩
      rintro rfl
      obtain ⟨row, _, there, _⟩ := (mirrors.has text name).mp listed
      rw [found] at there
      contradiction
    · exact fun listed => listed.1
  | some old =>
    rw [found] at done
    obtain ⟨value, read, done⟩ := bind_ok done
    obtain rfl := Except.ok.inj done
    refine ⟨fun text name => ?_, sets_leave mirrors.sets⟩
    rw [has_leave]
    constructor
    · rintro ⟨listed, apart⟩
      refine ⟨listed, ?_⟩
      rintro rfl
      obtain ⟨row, own, there, reads, dumped⟩ := (mirrors.has text name).mp listed
      rw [found] at there
      obtain rfl := Option.some.inj there
      rw [read] at reads
      obtain rfl := Except.ok.inj reads
      exact apart ⟨dumped.symm, rfl⟩
    · exact fun listed => ⟨listed.1, fun both => listed.2 both.2⟩

/-- The update of an index makes it mirror the new rows. -/
theorem putIndex_mirrors {library : Library} {rows : List (String × Json)} {field id : String}
    {row : Json} {index after : Index} (mirrors : index.Mirrors library rows field)
    (done : Table.putIndex library id (Assoc.lookup id rows) row field index = (after, none)) :
    after.Mirrors library (putRows id row rows) field := by
  unfold Table.putIndex at done
  dsimp only at done
  split at done
  · simp at done
  · rename_i left leaving
    obtain ⟨has, sets⟩ := left_mirrors mirrors leaving
    split at done
    · rename_i gone
      obtain ⟨rfl, _⟩ := Prod.mk.inj done
      refine ⟨fun text name => ?_, sets⟩
      rw [has, mirrors.has, lookup_putRows]
      by_cases same : name = id
      · simp [same, gone]
      · simp [same]
    · rename_i present
      split at done
      · simp at done
      · rename_i value read
        obtain ⟨rfl, _⟩ := Prod.mk.inj done
        refine ⟨fun text name => ?_, sets_enter sets⟩
        rw [has_enter, has, mirrors.has, lookup_putRows]
        by_cases same : name = id
        · simp [same, present, read, eq_comm]
        · simp [same]

/-- Every index that an update returns is one that was updated. -/
theorem putIndexes_mem {library : Library} {id : String} {old : Option Json} {row : Json}
    {indexes after : List (String × Index)}
    (done : Table.putIndexes library id old row indexes = (after, none)) {field : String}
    {index : Index} (inside : (field, index) ∈ after) :
    ∃ before, (field, before) ∈ indexes ∧
      Table.putIndex library id old row field before = (index, none) := by
  induction indexes generalizing after with
  | nil =>
    obtain ⟨rfl, _⟩ := Prod.mk.inj done
    contradiction
  | cons entry rest ih =>
    simp only [Table.putIndexes] at done
    split at done
    · simp at done
    · rename_i one first
      obtain ⟨rfl, later⟩ := Prod.mk.inj done
      cases List.mem_cons.mp inside with
      | inl here =>
        obtain ⟨rfl, rfl⟩ := Prod.mk.inj here
        exact ⟨entry.2, List.mem_cons_self, first⟩
      | inr there =>
        obtain ⟨before, among, updated⟩ := ih (Prod.ext rfl later) there
        exact ⟨before, List.mem_cons_of_mem _ among, updated⟩

/-- A put that does not throw keeps a table exact. -/
theorem Table.Exact.put {library : Library} {table after : Table} (exact : table.Exact library)
    {id : String} {row : Json} (done : table.put library id row = (after, none)) :
    after.rows = putRows id row table.rows ∧ after.Exact library := by
  unfold Table.put at done
  split at done
  · simp at done
  · rename_i indexes updated
    obtain ⟨rfl, _⟩ := Prod.mk.inj done
    refine ⟨rfl, ?_, fun field index inside => ?_⟩
    · show Assoc.Sorted (putRows id row table.rows)
      unfold putRows
      split
      · exact exact.sorted.remove id
      · exact exact.sorted.assign id row
    · obtain ⟨before, among, put⟩ := putIndexes_mem updated inside
      exact putIndex_mirrors (exact.mirrors field before among) put

/-! ## Selecting -/

/-- Sorted maps with the same entries are the same. -/
theorem sorted_ext {α : Type} {left right : List (String × α)} (first : Assoc.Sorted left)
    (second : Assoc.Sorted right) (same : ∀ entry, entry ∈ left ↔ entry ∈ right) :
    left = right := by
  have irreflexive : Std.Irrefl fun left right : String × α => left.1 < right.1 :=
    ⟨fun entry => String.lt_irrefl entry.1⟩
  have antisymmetric : Std.Antisymm fun left right : String × α => left.1 < right.1 :=
    ⟨fun _ _ less more => absurd more (String.lt_asymm less)⟩
  exact List.Pairwise.eq_of_mem_iff first second same

/-- Whether a row has the values of the filters. -/
def fits (filters : List (String × Json)) (row : Json) : Bool :=
  filters.all fun filter => (row.find filter.1).any fun own => own.same filter.2

/-- A row with the fields of the filters is compared without an exception. -/
theorem passes_eq {filters : List (String × Json)} {row : Json}
    (has : ∀ filter ∈ filters, row.contains filter.1) :
    Table.passes row filters = .ok (fits filters row) := by
  induction filters with
  | nil => rfl
  | cons filter rest ih =>
    obtain ⟨field, value⟩ := filter
    obtain ⟨first, later⟩ := List.forall_mem_cons.mp has
    obtain ⟨own, found⟩ := Option.isSome_iff_exists.mp first
    simp only [Table.passes, Json.at_of_find found, bind, Except.bind, fits, List.all_cons, found,
      Option.any_some]
    cases own.same value with
    | true => simpa only [Bool.true_and, if_true, fits] using ih later
    | false => rfl

/-- Rows with the fields of the filters are scanned without an exception. -/
theorem passing_eq {filters : List (String × Json)} {rows : List Json}
    (has : ∀ row ∈ rows, ∀ filter ∈ filters, row.contains filter.1) :
    Table.passing filters rows = .ok (rows.filter (fits filters)) := by
  induction rows with
  | nil => rfl
  | cons row rest ih =>
    obtain ⟨first, later⟩ := List.forall_mem_cons.mp has
    simp only [Table.passing, passes_eq first, ih later, bind, Except.bind, pure, Except.pure,
      List.filter_cons]

/-- The rows of ids that have one. -/
theorem rowsOf_eq {table : Table} {ids : List String}
    (stored : ∀ id ∈ ids, (Assoc.lookup id table.rows).isSome) :
    ∃ entries : List (String × Json), entries.map (·.1) = ids ∧
      (∀ entry ∈ entries, Assoc.lookup entry.1 table.rows = some entry.2) ∧
      table.rowsOf ids = .ok (entries.map (·.2)) := by
  induction ids with
  | nil => exact ⟨[], rfl, by simp, rfl⟩
  | cons id rest ih =>
    obtain ⟨first, later⟩ := List.forall_mem_cons.mp stored
    obtain ⟨row, found⟩ := Option.isSome_iff_exists.mp first
    obtain ⟨entries, keys, looked, done⟩ := ih later
    refine ⟨(id, row) :: entries, ?_, List.forall_mem_cons.mpr ⟨found, looked⟩, ?_⟩
    · simp only [List.map_cons, keys]
    · simp only [Table.rowsOf, found, done, bind, Except.bind, pure, Except.pure, List.map_cons]

/-- What the search for the smallest entry returns: nothing when some filter has no entry, else the
entry of a filter, or the one it began with. -/
theorem candidates_cases {library : Library} {table : Table} (filters : List (String × Json))
    (best : Option (List String)) :
    (table.candidates library filters best = none ∧ ∃ filter ∈ filters, ∃ index,
      (filter.1, index) ∈ table.indexes ∧
        Assoc.lookup (library.dump filter.2) index = none) ∨
    (∃ ids, table.candidates library filters best = some (some ids) ∧
      (best = some ids ∨ ∃ filter ∈ filters, ∃ index, (filter.1, index) ∈ table.indexes ∧
        Assoc.lookup (library.dump filter.2) index = some ids)) ∨
    (table.candidates library filters best = some none ∧ best = none) := by
  induction filters generalizing best with
  | nil =>
    cases best with
    | none => exact .inr (.inr ⟨rfl, rfl⟩)
    | some ids => exact .inr (.inl ⟨ids, rfl, .inl rfl⟩)
  | cons filter rest ih =>
    obtain ⟨field, value⟩ := filter
    -- The search goes on with the best so far, or with an entry of this filter.
    have goes : ∀ next, (∀ ids, next = some ids → best = some ids ∨
          ∃ index, (field, index) ∈ table.indexes ∧
            Assoc.lookup (library.dump value) index = some ids) →
        (next = none → best = none) →
        (table.candidates library rest next = none ∧ ∃ filter ∈ (field, value) :: rest,
          ∃ index, (filter.1, index) ∈ table.indexes ∧
            Assoc.lookup (library.dump filter.2) index = none) ∨
        (∃ ids, table.candidates library rest next = some (some ids) ∧
          (best = some ids ∨ ∃ filter ∈ (field, value) :: rest, ∃ index,
            (filter.1, index) ∈ table.indexes ∧
              Assoc.lookup (library.dump filter.2) index = some ids)) ∨
        (table.candidates library rest next = some none ∧ best = none) := by
      intro next origin none_yet
      obtain ⟨done, filter, inside, missing⟩ | ⟨chosen, done, from_⟩ | ⟨done, absent⟩ := ih next
      · exact .inl ⟨done, filter, List.mem_cons_of_mem _ inside, missing⟩
      · refine .inr (.inl ⟨chosen, done, ?_⟩)
        cases from_ with
        | inl started =>
          cases origin chosen started with
          | inl kept => exact .inl kept
          | inr own => exact .inr ⟨(field, value), List.mem_cons_self, own⟩
        | inr there =>
          obtain ⟨filter, inside, rest⟩ := there
          exact .inr ⟨filter, List.mem_cons_of_mem _ inside, rest⟩
      · exact .inr (.inr ⟨done, none_yet absent⟩)
    rw [Table.candidates]
    cases found : Assoc.lookup field table.indexes with
    | none => exact goes best (fun ids kept => .inl kept) id
    | some index =>
      have among := Assoc.mem_of_lookup found
      cases entry : Assoc.lookup (library.dump value) index with
      | none =>
        simp only [entry]
        exact .inl ⟨trivial, (field, value), List.mem_cons_self, index, among, entry⟩
      | some ids =>
        simp only [entry]
        have own : ∀ other, some ids = some other → best = some other ∨
            ∃ index, (field, index) ∈ table.indexes ∧
              Assoc.lookup (library.dump value) index = some other := by
          intro other same
          exact .inr ⟨index, among, same ▸ entry⟩
        cases best with
        | none => exact goes (some ids) own (fun absent => absurd absent (by simp))
        | some fewest =>
          dsimp only
          split
          · exact goes (some ids) own (fun absent => absurd absent (by simp))
          · exact goes (some fewest) (fun other kept => .inl kept)
              (fun absent => absurd absent (by simp))

/-- The indexed fields of the rows hold texts or null, so that equal values have equal texts. -/
def Table.Textual (table : Table) : Prop :=
  ∀ id row, Assoc.lookup id table.rows = some row → ∀ field ∈ table.fields,
    ∃ value, row.find field = some value ∧ (value.isString ∨ value.isNull)

/-- A value that equals a text or null is that text or null. -/
theorem eq_of_same {own value : Json} (textual : own.isString ∨ own.isNull)
    (equal : own.same value = true) : own = value := by
  cases own with
  | str text =>
    cases value with
    | str other => simpa [Json.same] using equal
    | _ => simp [Json.same] at equal
  | null =>
    cases value with
    | null => rfl
    | _ => simp [Json.same] at equal
  | _ => simp [Json.isString, Json.isNull] at textual

/-- The rows of a table have the fields of some filters. -/
def Table.Covers (table : Table) (filters : List (String × Json)) : Prop :=
  ∀ id row, Assoc.lookup id table.rows = some row → ∀ filter ∈ filters, row.contains filter.1

/-- The rows have the fields of the indexes. -/
theorem Table.Textual.covers {table : Table} (textual : table.Textual)
    {filters : List (String × Json)} (indexed : ∀ filter ∈ filters, filter.1 ∈ table.fields) :
    table.Covers filters := by
  intro id row found filter inside
  obtain ⟨value, there, _⟩ := textual id row found filter.1 (indexed filter inside)
  exact Option.isSome_iff_exists.mpr ⟨value, there⟩

/-- `select` finds the rows that a scan of the table finds, in the order of their ids. -/
theorem Table.Exact.select {library : Library} {table : Table} (exact : table.Exact library)
    (textual : table.Textual) {filters : List (String × Json)} (has : table.Covers filters) :
    table.select library filters =
      .ok ((table.rows.filter fun entry => fits filters entry.2).map (·.2)) := by
  -- A row that fits is listed under the text of every filter that has an index.
  have listed : ∀ id row, Assoc.lookup id table.rows = some row → fits filters row →
      ∀ filter ∈ filters, ∀ index, (filter.1, index) ∈ table.indexes →
        index.Has (library.dump filter.2) id := by
    intro id row found fitting filter inside index among
    have field : filter.1 ∈ table.fields := List.mem_map_of_mem among
    obtain ⟨own, there, kind⟩ := textual id row found filter.1 field
    have equal : own.same filter.2 := by
      have all := List.all_eq_true.mp fitting filter inside
      simpa only [there, Option.any_some] using all
    have same := eq_of_same kind equal
    exact ((exact.mirrors filter.1 index among).has _ id).mpr
      ⟨row, own, found, Json.at_of_find there, same ▸ rfl⟩
  unfold Table.select
  obtain ⟨none_left, filter, inside, index, among, missing⟩ | ⟨ids, chosen, origin⟩ |
    ⟨scan, _⟩ := @candidates_cases library table filters none
  · rw [none_left]
    dsimp only
    have nothing : (table.rows.filter fun entry => fits filters entry.2) = [] := by
      apply List.filter_eq_nil_iff.mpr
      intro entry stored fitting
      have found := exact.sorted.mem_iff.mp stored
      obtain ⟨ids, there, _⟩ := listed entry.1 entry.2 found fitting filter inside index among
      rw [missing] at there
      contradiction
    rw [nothing]
    rfl
  · rw [chosen]
    dsimp only
    obtain ⟨filter, inside, index, among, found⟩ := origin.resolve_left (by simp)
    have mirrors := exact.mirrors filter.1 index among
    have stored : ∀ id ∈ ids, (Assoc.lookup id table.rows).isSome := by
      intro id there
      obtain ⟨row, _, looked, _⟩ := (mirrors.has (library.dump filter.2) id).mp ⟨ids, found, there⟩
      exact Option.isSome_iff_exists.mpr ⟨row, looked⟩
    obtain ⟨entries, keys, looked, done⟩ := rowsOf_eq stored
    have sorted : Assoc.Sorted entries := by
      have ordered : (entries.map (·.1)).Pairwise (· < ·) := keys ▸ (mirrors.sets _ ids found).1
      exact List.pairwise_map.mp ordered
    have fields : ∀ row ∈ entries.map (·.2), ∀ filter ∈ filters, row.contains filter.1 := by
      intro row there
      obtain ⟨entry, member, rfl⟩ := List.mem_map.mp there
      exact has entry.1 entry.2 (looked entry member)
    rw [done]
    simp only [bind, Except.bind]
    rw [passing_eq fields, List.filter_map]
    refine congrArg (fun kept => Except.ok (List.map Prod.snd kept)) ?_
    apply sorted_ext (List.Pairwise.filter _ sorted) (List.Pairwise.filter _ exact.sorted)
    intro entry
    simp only [List.mem_filter, Function.comp_apply]
    refine and_congr_left fun fitting => ?_
    rw [exact.sorted.mem_iff]
    constructor
    · exact looked entry
    · intro there
      obtain ⟨own, again, member⟩ := listed entry.1 entry.2 there fitting filter inside index among
      rw [found] at again
      obtain rfl := Option.some.inj again
      rw [← keys] at member
      obtain ⟨other, among, same⟩ := List.mem_map.mp member
      have value := looked other among
      rw [same, there] at value
      have equal : other = entry := Prod.ext same (Option.some.inj value).symm
      exact equal ▸ among
  · have fields : ∀ row ∈ table.rows.map (·.2), ∀ filter ∈ filters, row.contains filter.1 := by
      intro row there
      obtain ⟨entry, member, rfl⟩ := List.mem_map.mp there
      exact has entry.1 entry.2 (exact.sorted.mem_iff.mp member)
    rw [scan]
    dsimp only
    rw [passing_eq fields, List.filter_map]
    rfl

end Chitta.Ledger
