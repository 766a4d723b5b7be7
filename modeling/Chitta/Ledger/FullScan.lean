import Chitta.Ledger.Leases

/-!
# Selections and full scans

A ledger runs operations and replays its journal. The rows of the journal passed their check when
they were persisted, or, where they are older than the derived columns, pass it once they are
upgraded. In all such ledgers an index lists exactly the rows that have a text in its field, so a
selection finds what a scan of all rows finds.
-/
namespace Chitta.Ledger

/-- The indexes of a table list its rows, and selections find what scans find. -/
structure Scanned (library : Library) (table : TableName) (stored : Table) : Prop where
  /-- There is an index for every indexed field. -/
  fields : stored.fields = table.indexed
  /-- An index lists the rows by the texts of its field. -/
  listed : ∀ field index, (field, index) ∈ stored.indexes → ∀ text id,
    index.Has text id ↔ ∃ row value, Assoc.lookup id stored.rows = some row ∧
      row.at field = .ok value ∧ library.dump value = text
  /-- No set of ids is empty. -/
  filled : ∀ field index, (field, index) ∈ stored.indexes → ∀ text ids,
    Assoc.lookup text index = some ids → ids ≠ []
  /-- The rows are in the order of their ids. -/
  ordered : Assoc.Sorted stored.rows
  /-- A selection by fields of the table finds the rows that have the values, in this order. -/
  scanned : ∀ filters : List (String × Json), (∀ filter ∈ filters, filter.1 ∈ table.keys) →
    stored.select library filters =
      .ok ((stored.rows.filter fun entry => fits filters entry.2).map (·.2))

variable {library : Library} {ledger : TaskLedger}

/-- The rows of a valid ledger have the fields of their table. -/
theorem TaskLedger.Valid.covers (valid : ledger.Valid library) {table : TableName}
    {filters : List (String × Json)} (fields : ∀ filter ∈ filters, filter.1 ∈ table.keys) :
    (ledger.tables table).Covers filters := by
  intro id row found filter inside
  have checked := valid.checked table id row found
  exact validateRow_contains checked.2 checked.1 filter.1 (fields filter inside)

/-- In every ledger that runs and replays of its journal reach, the indexes of each table list its
rows by the texts of their fields, and a selection finds what a scan finds. -/
theorem selection_scans (reached : (machine library).Reaches (Recorded library) ledger)
    (table : TableName) : Scanned library table (ledger.tables table) := by
  have valid := valid_recorded reached
  have exact := valid.exact table
  constructor
  · exact (valid.sound table).2
  · intro field index among
    exact (exact.mirrors field index among).has
  · intro field index among text ids found
    exact ((exact.mirrors field index among).sets text ids found).2
  · exact exact.sorted
  · intro filters fields
    exact exact.select (valid.textual table) (valid.covers fields)

/-- The leases of a ledger with a lease. -/
theorem selection_scans_leased :
    Scanned emptyLibrary .threadLeases (leased.tables .threadLeases) :=
  selection_scans leased_recorded .threadLeases

end Chitta.Ledger
