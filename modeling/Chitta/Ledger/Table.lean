import Chitta.Json

/-!
# A table and its indexes

A table keeps its rows by their ids and, for some fields, the ids of the rows by the text of the
field. `put` updates every index before the rows; an accessor that throws on the way leaves the
indexes as far as it came. The text of a value, its reading and the matching of globs are code
outside this development.
-/
namespace Chitta.Ledger

/-- The functions that the ledger takes from libraries. -/
structure Library where
  /-- `json::parse`, none for the discarded value. -/
  parse : String → Option Json
  /-- `dump`. -/
  dump : Json → String
  /-- `fnmatch`: the pattern first. -/
  glob : String → String → Bool

/-- The ids by the text of a field. -/
abbrev Index := List (String × List String)

/-- A table. -/
structure Table where
  /-- The rows by their ids. -/
  rows : List (String × Json) := []
  /-- The indexes by their fields. -/
  indexes : List (String × Index)

/-- An id leaves an index; an entry without ids goes. -/
def Index.leave (index : Index) (text id : String) : Index :=
  match Assoc.lookup text index with
  | none => index
  | some ids =>
    let others := Assoc.eraseKey id ids
    if others = [] then Assoc.remove text index else Assoc.assign text others index

/-- An id enters an index. -/
def Index.enter (index : Index) (text id : String) : Index :=
  Assoc.assign text (Assoc.insertKey id ((Assoc.lookup text index).getD [])) index

namespace Table

variable (library : Library)

/-- The update of one index: the index afterwards, and the exception that ended it. -/
def putIndex (id : String) (old : Option Json) (row : Json) (field : String) (index : Index) :
    Index × Option Thrown :=
  let left : Except Thrown Index :=
    match old with
    | none => .ok index
    | some old => do
      let value ← old.at field
      return index.leave (library.dump value) id
  match left with
  | .error thrown => (index, some thrown)
  | .ok left =>
    if row.isNull then (left, none)
    else
      match row.at field with
      | .error thrown => (left, some thrown)
      | .ok value => (left.enter (library.dump value) id, none)

/-- The updates of the indexes, up to the first exception. -/
def putIndexes (id : String) (old : Option Json) (row : Json) :
    List (String × Index) → List (String × Index) × Option Thrown
  | [] => ([], none)
  | (field, index) :: rest =>
    match putIndex library id old row field index with
    | (index, some thrown) => ((field, index) :: rest, some thrown)
    | (index, none) =>
      let (others, thrown) := putIndexes id old row rest
      ((field, index) :: others, thrown)

/-- `put`: a null row is removed. -/
def put (table : Table) (id : String) (row : Json) : Table × Option Thrown :=
  match putIndexes library id (Assoc.lookup id table.rows) row table.indexes with
  | (indexes, some thrown) => ({ table with indexes }, some thrown)
  | (indexes, none) =>
    let rows := if row.isNull then Assoc.remove id table.rows else Assoc.assign id row table.rows
    ({ rows, indexes }, none)

/-- `get`: null when there is no such row. -/
def get (table : Table) (id : String) : Json := (Assoc.lookup id table.rows).getD .null

/-- The ids that `select` looks at: the smallest index entry of the filters that have an index;
none when no filter has one, and no ids when an entry is missing. -/
def candidates (table : Table) :
    List (String × Json) → Option (List String) → Option (Option (List String))
  | [], best => some best
  | (field, value) :: rest, best =>
    match Assoc.lookup field table.indexes with
    | none => candidates table rest best
    | some index =>
      match Assoc.lookup (library.dump value) index with
      | none => none
      | some ids =>
        match best with
        | none => candidates table rest (some ids)
        | some fewest =>
          candidates table rest (some (if ids.length < fewest.length then ids else fewest))

/-- Whether a row has the values of the filters. -/
def passes (row : Json) : List (String × Json) → Except Thrown Bool
  | [] => .ok true
  | (field, value) :: rest => do
    let own ← row.at field
    if own.same value then passes row rest else return false

/-- The rows that pass, in order. -/
def passing (filters : List (String × Json)) : List Json → Except Thrown (List Json)
  | [] => .ok []
  | row :: rest => do
    let kept ← passes row filters
    let others ← passing filters rest
    return if kept then row :: others else others

/-- The rows of these ids; `std::map::at` throws for an id without one. -/
def rowsOf (table : Table) : List String → Except Thrown (List Json)
  | [] => .ok []
  | id :: rest =>
    match Assoc.lookup id table.rows with
    | none => .error (.outOfRange id)
    | some row => do
      let others ← rowsOf table rest
      return row :: others

/-- `select`: the filters are the fields of an object. -/
def select (table : Table) (filters : List (String × Json)) : Except Thrown (List Json) :=
  match table.candidates library filters none with
  | none => .ok []
  | some none => passing filters (table.rows.map (·.2))
  | some (some ids) => do
    let rows ← table.rowsOf ids
    passing filters rows

end Table

/-! ## Puts that do not throw -/

/-- The fields of the indexes. -/
def Table.fields (table : Table) : List String := table.indexes.map (·.1)

/-- A row has these fields. -/
def Indexed (fields : List String) (row : Json) : Prop := ∀ field ∈ fields, row.contains field

/-- The rows of a table have the fields of its indexes. -/
def Table.Sound (table : Table) : Prop :=
  ∀ id row, Assoc.lookup id table.rows = some row → Indexed table.fields row

/-- An index is updated without an exception when the rows have its field. -/
theorem putIndex_returns (library : Library) (id : String) {field : String} {old : Option Json}
    {row : Json} (index : Index) (had : ∀ former, old = some former → former.contains field)
    (has : row.isNull = false → row.contains field) :
    ∃ updated, Table.putIndex library id old row field index = (updated, none) := by
  have left : ∃ left, (match old with
      | none => (.ok index : Except Thrown Index)
      | some old => do
        let value ← old.at field
        return index.leave (library.dump value) id) = .ok left := by
    cases old with
    | none => exact ⟨index, rfl⟩
    | some former =>
      obtain ⟨value, found⟩ := Option.isSome_iff_exists.mp (had former rfl)
      refine ⟨index.leave (library.dump value) id, ?_⟩
      simp only [Json.at_of_find found]
      rfl
  obtain ⟨left, done⟩ := left
  unfold Table.putIndex
  simp only [done]
  split
  · exact ⟨left, rfl⟩
  · rename_i present
    obtain ⟨value, found⟩ := Option.isSome_iff_exists.mp (has (by simpa using present))
    simp only [Json.at_of_find found]
    exact ⟨_, rfl⟩

/-- The indexes are updated without an exception when the rows have their fields. -/
theorem putIndexes_returns (library : Library) (id : String) {old : Option Json} {row : Json}
    {indexes : List (String × Index)}
    (had : ∀ former, old = some former → Indexed (indexes.map (·.1)) former)
    (has : row.isNull = false → Indexed (indexes.map (·.1)) row) :
    ∃ updated, Table.putIndexes library id old row indexes = (updated, none) := by
  induction indexes with
  | nil => exact ⟨[], rfl⟩
  | cons entry rest ih =>
    obtain ⟨field, index⟩ := entry
    obtain ⟨one, own⟩ := putIndex_returns library id index
      (fun former found => had former found field List.mem_cons_self)
      (fun present => has present field List.mem_cons_self)
    obtain ⟨others, later⟩ := ih
      (fun former found other inside => had former found other (.tail _ inside))
      (fun present other inside => has present other (.tail _ inside))
    exact ⟨(field, one) :: others, by simp only [Table.putIndexes, own, later]⟩

/-- A row with the fields of the indexes is put into a sound table without an exception. -/
theorem Table.Sound.put_returns {table : Table} (sound : table.Sound) (library : Library)
    (id : String) {row : Json} (has : row.isNull = false → Indexed table.fields row) :
    ∃ after, table.put library id row = (after, none) := by
  obtain ⟨updated, done⟩ := putIndexes_returns library id
    (fun former found => sound id former found) has
  simp only [Table.put, done]
  exact ⟨_, rfl⟩

/-! ## What any put keeps -/

/-- The indexes stay those of the same fields. -/
theorem putIndexes_fields (library : Library) (id : String) (old : Option Json) (row : Json)
    (indexes : List (String × Index)) :
    (Table.putIndexes library id old row indexes).1.map (·.1) = indexes.map (·.1) := by
  induction indexes with
  | nil => rfl
  | cons entry rest ih =>
    simp only [Table.putIndexes]
    split
    · rfl
    · simp only [List.map_cons, ih]

/-- The update of an index that did not throw has read the field of the row. -/
theorem putIndex_reads {library : Library} {id field : String} {old : Option Json} {row : Json}
    {index after : Index} (done : Table.putIndex library id old row field index = (after, none))
    (present : row.isNull = false) : row.contains field := by
  simp only [Table.putIndex, present, Bool.false_eq_true, if_false] at done
  split at done
  · simp at done
  · split at done
    · simp at done
    · rename_i value read
      exact Json.contains_of_at read

/-- An update of the indexes that did not throw has read their fields. -/
theorem putIndexes_reads {library : Library} {id : String} {old : Option Json} {row : Json}
    {indexes : List (String × Index)}
    (done : (Table.putIndexes library id old row indexes).2 = none)
    (present : row.isNull = false) : Indexed (indexes.map (·.1)) row := by
  induction indexes with
  | nil => simp [Indexed]
  | cons entry rest ih =>
    simp only [Table.putIndexes] at done
    split at done
    · contradiction
    · rename_i one first
      exact List.forall_mem_cons.mpr ⟨putIndex_reads first present, ih done⟩

/-- A put keeps the fields of the indexes. -/
@[simp] theorem Table.fields_put (table : Table) (library : Library) (id : String) (row : Json) :
    (table.put library id row).1.fields = table.fields := by
  have kept := putIndexes_fields library id (Assoc.lookup id table.rows) row table.indexes
  unfold Table.put
  split <;> rename_i done <;> rw [done] at kept <;> exact kept

/-- A put keeps a table sound, also when it throws: the rows are changed last. -/
theorem Table.Sound.put {table : Table} (sound : table.Sound) (library : Library) (id : String)
    (row : Json) : (table.put library id row).1.Sound := by
  intro name other found
  rw [Table.fields_put]
  unfold Table.put at found
  split at found
  · exact sound name other found
  · rename_i updated done
    have read : row.isNull = false → Indexed table.fields row :=
      putIndexes_reads (congrArg Prod.snd done)
    by_cases own : name = id
    · subst own
      cases gone : row.isNull with
      | true => simp [gone] at found
      | false =>
        simp only [gone, Bool.false_eq_true, if_false, Assoc.lookup_assign_self,
          Option.some.injEq] at found
        exact found ▸ read gone
    · cases gone : row.isNull with
      | true =>
        simp only [gone, if_true, Assoc.lookup_remove_other own] at found
        exact sound name other found
      | false =>
        simp only [gone, Bool.false_eq_true, if_false, Assoc.lookup_assign_other own] at found
        exact sound name other found

end Chitta.Ledger
