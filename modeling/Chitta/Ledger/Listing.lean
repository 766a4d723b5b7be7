import Mathlib.Data.List.Sort
import Chitta.Ledger.Row

/-!
# The list operations

Five operations list a table: they filter by the indexed fields, drop the rows that an operation
of its own excludes, cut off what comes before the cursor, sort by the time of the last change
and then by the primary key, and return a page with the cursor of its last row.
-/
namespace Chitta.Ledger

/-- The rows and the revision. -/
structure TaskLedger where
  /-- The tables. -/
  tables : TableName → Table
  /-- The revision of the last batch. -/
  revision : Nat

/-- A ledger without rows. -/
def TaskLedger.fresh : TaskLedger where
  tables table := { indexes := table.indexed.map fun field => (field, []) }
  revision := 0

/-- The list operations. -/
inductive Listing where
  /-- `thread_list`. -/
  | threads
  /-- `session_list`. -/
  | sessions
  /-- `lease_list`. -/
  | leases
  /-- `inbox_list`. -/
  | inbox
  /-- `artifact_list`. -/
  | artifacts
deriving DecidableEq, Repr

namespace Listing

/-- The table that is listed. -/
def table : Listing → TableName
  | threads => .threads
  | sessions => .threadSessions
  | leases => .threadLeases
  | inbox => .inbox
  | artifacts => .artifacts

/-- The field by which the rows are ordered, the last change first. -/
def orderField : Listing → String
  | threads => "last_active_at"
  | sessions => "last_active_at"
  | leases => "last_heartbeat_at"
  | inbox => "created_at"
  | artifacts => "created_at"

end Listing

/-- An argument that is there and not null. -/
def given (a : Json) (key : String) : Option Json :=
  match a.find key with
  | some value => if value.isNull then none else some value
  | none => none

/-- The filters by the indexed fields that are given. -/
def givenFilters (listing : Listing) (a : Json) : List String → List (String × Json)
  | [] => []
  | field :: rest =>
    match given a field with
    | none => givenFilters listing a rest
    | some value =>
      if listing = .artifacts && value.same (.str "") then givenFilters listing a rest
      else Assoc.assign field value (givenFilters listing a rest)

/-- The filters of an operation: a repository is looked up by its key, and the inbox by its state
instead of its realm. -/
def filtersOf (listing : Listing) (a : Json) : Except Thrown (List (String × Json)) := do
  let filters := givenFilters listing a listing.table.indexed
  match listing with
  | .sessions =>
    match Assoc.lookup "repository" filters with
    | none => return filters
    | some value => do
      let repository ← value.getString
      return Assoc.assign "repository" (.str (repositoryKey repository)) filters
  | .inbox => do
    let state ← a.valueString "state" "pending"
    return Assoc.assign "delivery_state" (.str state) (Assoc.remove "target_realm" filters)
  | _ => return filters

/-- The realm that the inbox is listed for. -/
def targetRealm (listing : Listing) (a : Json) : Option Json :=
  if listing = .inbox then given a "target_realm" else none

/-- The rows that the filters select. The inbox of a realm also has the items without one. -/
def selected (library : Library) (table : Table) (filters : List (String × Json))
    (target : Option Json) : Except Thrown (List Json) :=
  match target with
  | none => table.select library filters
  | some realm => do
    let own ← table.select library (Assoc.assign "target_realm" realm filters)
    if realm.same (.str "") then return own
    else do
      let general ← table.select library (Assoc.assign "target_realm" (.str "") filters)
      return own ++ general

/-- Whether an operation excludes a row. -/
def excludes (library : Library) (listing : Listing) (a : Json) (ts : Rat) (row : Json) :
    Except Thrown Bool :=
  match listing with
  | .leases => do
    let active ← a.valueWith Json.getBool "active_only" true
    if active then
      let expires ← (← row.index "expires_at").getDouble
      return expires ≤ ts
    else return false
  | .inbox =>
    match targetRealm listing a with
    | none => return false
    | some realm => do
      let own ← row.index "target_realm"
      return !own.same (.str "") && !own.same realm
  | .artifacts =>
    match given a "path_glob" with
    | none => return false
    | some pattern =>
      if pattern.same (.str "") then return false
      else do
        let text ← pattern.getString
        let path ← (← row.index "path").getString
        return !library.glob text path
  | _ => return false

/-- The items that are not excluded. -/
def remaining {α : Type} (excluded : α → Except Thrown Bool) : List α → Except Thrown (List α)
  | [] => .ok []
  | item :: rest => do
    let out ← excluded item
    let others ← remaining excluded rest
    return if out then others else item :: others

/-- What the order of a row depends on. -/
structure Position where
  /-- The time of the last change. -/
  time : Json
  /-- The primary key. -/
  key : Json

/-- The position of a row. -/
def positionOf (listing : Listing) (row : Json) : Except Thrown Position := do
  let time ← row.index listing.orderField
  let key ← row.index listing.table.key
  return { time, key }

/-- Whether a row stands before another: the later time first, then the smaller key. -/
def Position.before (left right : Position) : Bool :=
  if left.time.same right.time then left.key.less right.key else right.time.less left.time

/-- The rows with their positions. -/
def positioned (listing : Listing) : List Json → Except Thrown (List (Position × Json))
  | [] => .ok []
  | row :: rest => do
    let position ← positionOf listing row
    let others ← positioned listing rest
    return (position, row) :: others

/-- Whether a cursor stands before a row; its key is read only when the times are the same. -/
def cursorBefore (listing : Listing) (cursor : Json) (row : Position) : Except Thrown Bool := do
  let time ← cursor.index listing.orderField
  if time.same row.time then
    let key ← cursor.index listing.table.key
    return key.less row.key
  else return row.time.less time

/-- The rows behind the cursor. -/
def behind (listing : Listing) (after : Option Json) (rows : List (Position × Json)) :
    Except Thrown (List (Position × Json)) :=
  match after with
  | none => .ok rows
  | some cursor =>
    remaining (fun row => do
      let before ← cursorBefore listing cursor row.1
      return !before) rows

/-- The order of the page, as a relation that is also true of equal positions. What the source's
sort does with a comparison that is no order is not specified. -/
def notAfter (left right : Position × Json) : Prop := right.1.before left.1 = false

/-- The order can be decided. -/
instance : DecidableRel notAfter := fun left right =>
  inferInstanceAs (Decidable (right.1.before left.1 = false))

/-- The cursor of a page: the position of its last row, when rows are left over. -/
def cursorOf (listing : Listing) (page : List (Position × Json)) (more : Bool) : Json :=
  match page.getLast? with
  | some (position, _) =>
    if more then
      .object [(listing.orderField, position.time), (listing.table.key, position.key)]
    else .null
  | none => .null

/-- The limit of a page. -/
def pageLimit (a : Json) : Except Thrown Nat := do
  let limit ← a.valueWith Json.getInt "limit" 100
  return (max 1 (min limit 100)).toNat

/-- A page: the first rows in the order and the cursor. -/
def pageOf (listing : Listing) (rows : List (Position × Json)) (limit : Nat) : Json :=
  let page := (rows.insertionSort notAfter).take limit
  .object [("rows", .arr (page.map (·.2))), ("after", cursorOf listing page (limit < rows.length))]

/-- A list operation. -/
def list (library : Library) (ledger : TaskLedger) (listing : Listing) (a : Json) (ts : Rat) :
    Except Thrown Json := do
  let filters ← filtersOf listing a
  let rows ← selected library (ledger.tables listing.table) filters (targetRealm listing a)
  let rows ← remaining (excludes library listing a ts) rows
  let rows ← positioned listing rows
  let rows ← behind listing (given a "after") rows
  let limit ← pageLimit a
  return pageOf listing rows limit

end Chitta.Ledger
