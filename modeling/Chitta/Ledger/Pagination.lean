import Mathlib.Algebra.Order.Ring.Rat
import Mathlib.Data.String.Basic
import Chitta.Paging
import Chitta.Ledger.Leases

/-!
# Following the cursor of a list operation

A caller that wants more than a page repeats the request with the cursor that the last page
returned until it is null. On an unchanged ledger the rows of these pages are the rows that match
the arguments, each of them once and in order, as long as the comparison of their times puts them
into an order: then a row has a rank, one page is a page by the ranks, and the cursor stands for
the rank of its last row. A large whole number is rounded beside a number with a fraction, so three
times can stand in a circle, and then no order of the rows is right and rows are left out.
-/
namespace Chitta.Ledger

/-- The items of an array. -/
def elements : Json → Except Thrown (List Json)
  | .arr items => .ok items
  | _ => .error (.typeError 302)

/-- The loop of `_list` and `capsule_rows`: the rows of all pages, none when the requests run out
of fuel. -/
def listAll (library : Library) (ledger : TaskLedger) (listing : Listing) (ts : Rat) :
    Nat → Json → Except Thrown (Option (List Json))
  | 0, _ => .ok none
  | fuel + 1, a => do
    let page ← list library ledger listing a ts
    let rows ← elements (← page.at "rows")
    let after ← page.at "after"
    if after.isNull then return some rows
    else do
      let next ← a.set "after" after
      let others ← listAll library ledger listing ts fuel next
      return others.map (rows ++ ·)

/-- A row matches the arguments of a list operation. -/
def Matches (library : Library) (listing : Listing) (a : Json) (ts : Rat) (row : Json) : Prop :=
  ∃ filters, filtersOf listing a = .ok filters ∧ fits filters row = true ∧
    excludes library listing a ts row = .ok false

/-- A row stands before another one: the later time first, then the smaller key. -/
def Precedes (listing : Listing) (left right : String × Json) : Prop :=
  ∃ leftTime rightTime, left.2.find listing.orderField = some leftTime ∧
    right.2.find listing.orderField = some rightTime ∧
    (rightTime.less leftTime = true ∨ leftTime.same rightTime = true ∧ left.1 < right.1)

/-- Three matching rows stand in a circle, each of them before the next one. -/
def Circular (library : Library) (ledger : TaskLedger) (listing : Listing) (a : Json) (ts : Rat) :
    Prop :=
  ∃ first second third,
    (∀ entry ∈ [first, second, third], ledger.Stored listing.table entry.1 entry.2 ∧
      Matches library listing a ts entry.2) ∧
    Precedes listing first second ∧ Precedes listing second third ∧ Precedes listing third first

/-! ## Comparing times and keys -/

/-- The value that a number has beside another one. -/
def beside : Json → Json → ℚ
  | .int value, .int other => Json.signedBeside value other
  | .int value, _ => Json.toDouble value
  | .float value, _ => value
  | _, _ => 0

/-- The value of a text. -/
def textOf : Json → String
  | .str value => value
  | _ => ""

/-- A position whose time is a number and whose key is a text. -/
structure Position.Plain (position : Position) : Prop where
  /-- The time. -/
  time : position.time.isNumber = true
  /-- The key. -/
  key : position.key.isString = true

/-- Numbers are the same by their values beside each other. -/
theorem same_number {left right : Json} (first : left.isNumber = true)
    (second : right.isNumber = true) :
    left.same right = decide (beside left right = beside right left) := by
  cases left with
  | int value =>
    cases right with
    | int other => simp [Json.same, beside, beq_eq_decide]
    | float other => rfl
    | _ => contradiction
  | float value =>
    cases right with
    | int other => rfl
    | float other => rfl
    | _ => contradiction
  | _ => contradiction

/-- The comparison that tries `<` first. -/
theorem less_compare {α : Type} [LT α] [DecidableEq α] [DecidableRel (α := α) (· < ·)]
    (left right : α) : (compareOfLessAndEq left right == .lt) = decide (left < right) := by
  unfold compareOfLessAndEq
  split
  · rename_i less
    simp [less]
  · rename_i more
    split <;> simp [more]

/-- Numbers are ordered by their values beside each other. -/
theorem less_number {left right : Json} (first : left.isNumber = true)
    (second : right.isNumber = true) :
    left.less right = decide (beside left right < beside right left) := by
  cases left with
  | int value =>
    cases right with
    | int other =>
      have whole := less_compare (Json.signedBeside value other) (Json.signedBeside other value)
      simp only [beside, Rat.intCast_lt_intCast]
      exact whole
    | float other => exact less_compare (Json.toDouble value : ℚ) other
    | _ => contradiction
  | float value =>
    cases right with
    | int other => exact less_compare value (Json.toDouble other : ℚ)
    | float other => exact less_compare value other
    | _ => contradiction
  | _ => contradiction

/-- Texts are ordered as such. -/
theorem less_text {left right : Json} (first : left.isString = true)
    (second : right.isString = true) : left.less right = decide (textOf left < textOf right) := by
  cases left with
  | str value =>
    cases right with
    | str other => exact less_compare value other
    | _ => contradiction
  | _ => contradiction

/-- What stands before what. -/
theorem before_iff {left right : Position} (first : left.Plain) (second : right.Plain) :
    left.before right = true ↔
      beside right.time left.time < beside left.time right.time ∨
        beside left.time right.time = beside right.time left.time ∧
          textOf left.key < textOf right.key := by
  unfold Position.before
  rw [same_number first.time second.time, less_text first.key second.key,
    less_number second.time first.time]
  by_cases same : beside left.time right.time = beside right.time left.time
  · simp [same]
  · simp [same]

/-- Of two positions at most one stands before the other. -/
theorem before_asymm {left right : Position} (first : left.Plain) (second : right.Plain)
    (less : left.before right = true) : right.before left = false := by
  cases own : right.before left with
  | false => rfl
  | true =>
    have one := (before_iff first second).mp less
    have two := (before_iff second first).mp own
    rcases one with later | ⟨same, smaller⟩
    · rcases two with earlier | ⟨same, _⟩
      · exact absurd later (lt_asymm earlier)
      · exact absurd later (by rw [same]; exact lt_irrefl _)
    · rcases two with earlier | ⟨_, larger⟩
      · exact absurd earlier (by rw [same]; exact lt_irrefl _)
      · exact absurd smaller (lt_asymm larger)

/-- Of two positions with different keys one stands before the other. -/
theorem before_total {left right : Position} (first : left.Plain) (second : right.Plain)
    (apart : textOf left.key ≠ textOf right.key) :
    left.before right = true ∨ right.before left = true := by
  rw [before_iff first second, before_iff second first]
  rcases lt_trichotomy (beside left.time right.time) (beside right.time left.time) with
    earlier | same | later
  · exact .inr (.inl earlier)
  · cases lt_or_gt_of_ne apart with
    | inl smaller => exact .inl (.inr ⟨same, smaller⟩)
    | inr larger => exact .inr (.inr ⟨same.symm, larger⟩)
  · exact .inl (.inl later)

/-! ## The selected rows -/

variable {library : Library} {ledger : TaskLedger} {listing : Listing} {a : Json} {ts : Rat}

/-- An argument that is given is not null. -/
theorem given_isNull {key : String} {value : Json} (found : given a key = some value) :
    value.isNull = false := by
  unfold given at found
  split at found
  · split at found
    · contradiction
    · rename_i present
      obtain rfl := Option.some.inj found
      simpa using present
  · contradiction

/-- The given filters are by the fields, and not null. -/
theorem givenFilters_fields {fields : List String} :
    ∀ filter ∈ givenFilters listing a fields, filter.1 ∈ fields ∧ filter.2.isNull = false := by
  induction fields with
  | nil => simp [givenFilters]
  | cons field rest ih =>
    have later : ∀ filter ∈ givenFilters listing a rest,
        filter.1 ∈ field :: rest ∧ filter.2.isNull = false := fun filter inside =>
      ⟨List.mem_cons_of_mem _ (ih filter inside).1, (ih filter inside).2⟩
    intro filter inside
    simp only [givenFilters] at inside
    split at inside
    · exact later filter inside
    · rename_i value found
      split at inside
      · exact later filter inside
      · cases Assoc.mem_assign inside with
        | inl own =>
          rw [own]
          exact ⟨List.mem_cons_self, given_isNull found⟩
        | inr there => exact later filter there

/-- The filters of an operation are by the indexed fields, and not null. -/
theorem filtersOf_fields {filters : List (String × Json)}
    (read : filtersOf listing a = .ok filters) :
    ∀ filter ∈ filters, filter.1 ∈ listing.table.indexed ∧ filter.2.isNull = false := by
  have fields : ∀ filter ∈ givenFilters listing a listing.table.indexed,
      filter.1 ∈ listing.table.indexed ∧ filter.2.isNull = false := givenFilters_fields
  unfold filtersOf at read
  intro filter inside
  cases listing with
  | sessions =>
    dsimp only at read
    split at read
    · exact fields filter (Except.ok.inj read ▸ inside)
    · obtain ⟨repository, _, read⟩ := bind_ok read
      obtain rfl := Except.ok.inj read
      cases Assoc.mem_assign inside with
      | inl own =>
        rw [own]
        exact ⟨show "repository" ∈ TableName.threadSessions.indexed by decide, rfl⟩
      | inr there => exact fields filter there
  | inbox =>
    obtain ⟨state, _, read⟩ := bind_ok read
    obtain rfl := Except.ok.inj read
    cases Assoc.mem_assign inside with
    | inl own =>
      rw [own]
      exact ⟨show "delivery_state" ∈ TableName.inbox.indexed by decide, rfl⟩
    | inr there => exact fields filter (List.mem_filter.mp there).1
  | _ => exact fields filter (Except.ok.inj read ▸ inside)

/-- The filters of the inbox leave the realm out. -/
theorem filtersOf_inbox {filters : List (String × Json)}
    (read : filtersOf .inbox a = .ok filters) : ∀ filter ∈ filters, filter.1 ≠ "target_realm" := by
  obtain ⟨state, _, read⟩ := bind_ok read
  obtain rfl := Except.ok.inj read
  intro filter inside
  cases Assoc.mem_assign inside with
  | inl own =>
    rw [own]
    exact show "delivery_state" ≠ "target_realm" by decide
  | inr there => simpa using (List.mem_filter.mp there).2

/-- A filter by another field is one more condition. -/
theorem fits_assign {filters : List (String × Json)} {key : String} (value row : Json)
    (apart : ∀ filter ∈ filters, filter.1 ≠ key) :
    fits (Assoc.assign key value filters) row =
      ((row.find key).any (·.same value) && fits filters row) := by
  induction filters with
  | nil => rfl
  | cons filter rest ih =>
    obtain ⟨own, later⟩ := List.forall_mem_cons.mp apart
    obtain ⟨name, other⟩ := filter
    have step := ih later
    simp only [fits] at step ⊢
    simp only [Assoc.assign, if_neg own]
    split
    · rfl
    · rw [List.all_cons, List.all_cons, step]
      exact Bool.and_left_comm _ _ _

/-! ## The rows of a listing -/

/-- The realm that is asked for is that of the row, or the row has none. -/
def RealmFits (target : Option Json) (row : Json) : Prop :=
  ∀ realm, target = some realm →
    ∃ own, row.find "target_realm" = some own ∧ (own.same realm = true ∨ own.same (.str "") = true)

/-- Rows with different ids that are there and have a property. -/
structure Lists (ledger : TaskLedger) (table : TableName) (property : Json → Prop)
    (entries : List (String × Json)) : Prop where
  /-- The ids differ. -/
  nodup : (entries.map (·.1)).Nodup
  /-- The rows. -/
  mem : ∀ entry, entry ∈ entries ↔ ledger.Stored table entry.1 entry.2 ∧ property entry.2

/-- The same rows, described in another way. -/
theorem Lists.congr {table : TableName} {property other : Json → Prop}
    {entries : List (String × Json)} (lists : Lists ledger table property entries)
    (same : ∀ row, property row ↔ other row) : Lists ledger table other entries where
  nodup := lists.nodup
  mem entry := by rw [lists.mem, same]

/-- Rows of two kinds. -/
theorem Lists.append {table : TableName} {property other : Json → Prop}
    {first second : List (String × Json)} (one : Lists ledger table property first)
    (two : Lists ledger table other second) (apart : ∀ row, property row → ¬other row) :
    Lists ledger table (fun row => property row ∨ other row) (first ++ second) where
  nodup := by
    rw [List.map_append, List.nodup_append]
    refine ⟨one.nodup, two.nodup, fun id left id' right same => ?_⟩
    subst same
    obtain ⟨entry, inside, rfl⟩ := List.mem_map.mp left
    obtain ⟨entry', there, equal⟩ := List.mem_map.mp right
    obtain ⟨stored, own⟩ := (one.mem entry).mp inside
    obtain ⟨stored', own'⟩ := (two.mem entry').mp there
    rw [equal] at stored'
    have row : entry.2 = entry'.2 := Option.some.inj (stored.symm.trans stored')
    exact apart entry.2 own (row ▸ own')
  mem entry := by
    rw [List.mem_append, one.mem, two.mem, ← and_or_left]

/-- Only the empty text equals the empty text. -/
theorem same_empty {value : Json} : value.same (.str "") = true ↔ value = .str "" := by
  cases value with
  | str text => simp [Json.same]
  | _ => simp [Json.same]

/-- The empty text equals only the empty text. -/
theorem empty_same {value : Json} : Json.same (.str "") value = true ↔ value = .str "" := by
  cases value with
  | str text =>
    simp only [Json.same, beq_iff_eq, Json.str.injEq]
    exact eq_comm
  | _ => simp [Json.same]

/-- A selection by indexed fields. -/
theorem TaskLedger.Valid.lists (valid : ledger.Valid library) {table : TableName}
    {filters : List (String × Json)}
    (fields : ∀ filter ∈ filters, filter.1 ∈ table.indexed ∧ filter.2.isNull = false) :
    ∃ entries, (ledger.tables table).select library filters = .ok (entries.map (·.2)) ∧
      Lists ledger table (fun row => fits filters row = true) entries := by
  have indexed : ∀ filter ∈ filters, filter.1 ∈ (ledger.tables table).fields := by
    intro filter inside
    rw [(valid.sound table).2]
    exact (fields filter inside).1
  have textual := valid.textual table
  have selected := (valid.exact table).select textual (textual.covers indexed)
  have sorted := (valid.exact table).sorted
  refine ⟨_, selected, ?_, fun entry => ?_⟩
  · have ordered : (((ledger.tables table).rows.filter fun entry => fits filters entry.2).map
        (·.1)).Pairwise (· < ·) := List.pairwise_map.mpr (sorted.sublist List.filter_sublist)
    exact ordered.imp fun less => ne_of_lt less
  · rw [List.mem_filter, sorted.mem_iff]
    rfl

/-- The rows that the filters of an operation select. -/
theorem TaskLedger.Valid.selected (valid : ledger.Valid library) {filters : List (String × Json)}
    (read : filtersOf listing a = .ok filters) :
    ∃ entries, Ledger.selected library (ledger.tables listing.table) filters
        (targetRealm listing a) = .ok (entries.map (·.2)) ∧
      Lists ledger listing.table
        (fun row => fits filters row = true ∧ RealmFits (targetRealm listing a) row) entries := by
  have fields := filtersOf_fields read
  unfold Ledger.selected
  cases target : targetRealm listing a with
  | none =>
    obtain ⟨entries, done, lists⟩ := valid.lists fields
    exact ⟨entries, done, lists.nodup, by simpa [RealmFits] using lists.mem⟩
  | some realm =>
    obtain ⟨rfl, asked⟩ : listing = .inbox ∧ given a "target_realm" = some realm := by
      unfold targetRealm at target
      split at target
      · rename_i same
        exact ⟨same, target⟩
      · contradiction
    have apart := filtersOf_inbox read
    -- A selection by a realm, too.
    have by_realm : ∀ value : Json, value.isNull = false → ∃ entries,
        (ledger.tables .inbox).select library (Assoc.assign "target_realm" value filters) =
          .ok (entries.map (·.2)) ∧
        Lists ledger .inbox (fun row => (row.find "target_realm").any (·.same value) = true ∧
          fits filters row = true) entries := by
      intro value present
      have more : ∀ filter ∈ Assoc.assign "target_realm" value filters,
          filter.1 ∈ TableName.inbox.indexed ∧ filter.2.isNull = false := by
        intro filter inside
        cases Assoc.mem_assign inside with
        | inl own =>
          rw [own]
          exact ⟨show "target_realm" ∈ TableName.inbox.indexed by decide, present⟩
        | inr there => exact fields filter there
      obtain ⟨entries, done, lists⟩ := valid.lists more
      refine ⟨entries, done, lists.congr fun row => ?_⟩
      rw [fits_assign value row apart, Bool.and_eq_true]
    obtain ⟨own, selected, lists⟩ := by_realm realm (given_isNull asked)
    simp only [Listing.table, selected, bind, Except.bind]
    split
    · rename_i empty
      obtain rfl := same_empty.mp empty
      refine ⟨own, rfl, lists.congr fun row => ?_⟩
      cases found : row.find "target_realm" with
      | none => simp [RealmFits, found]
      | some value => simp [RealmFits, found, and_comm]
    · rename_i filled
      obtain ⟨general, selected', lists'⟩ := by_realm (.str "") rfl
      refine ⟨own ++ general, ?_, ?_⟩
      · simp only [selected', pure, Except.pure, List.map_append]
      · refine (lists.append lists' ?_).congr fun row => ?_
        · rintro row ⟨one, _⟩ ⟨two, _⟩
          cases found : row.find "target_realm" with
          | none => simp [found] at one
          | some value =>
            rw [found] at one two
            obtain rfl := same_empty.mp two
            exact filled (same_empty.mpr (empty_same.mp one))
        · cases found : row.find "target_realm" with
          | none => simp [RealmFits, found]
          | some value => simp [RealmFits, found, ← or_and_right, and_comm]

/-- Whether a row is kept by an exclusion. -/
def keeps (excluded : Except Thrown Bool) : Bool :=
  match excluded with
  | .ok out => !out
  | .error _ => false

/-- A row is kept when the exclusion says so. -/
theorem keeps_iff {excluded : Except Thrown Bool} : keeps excluded = true ↔
    excluded = .ok false := by
  cases excluded with
  | ok out => simp [keeps]
  | error thrown => simp [keeps]

/-- The items that remain are those that are kept. -/
theorem remaining_ok {α : Type} {excluded : α → Except Thrown Bool} {items kept : List α}
    (done : remaining excluded items = .ok kept) :
    kept = items.filter fun item => keeps (excluded item) := by
  induction items generalizing kept with
  | nil => exact (Except.ok.inj done).symm
  | cons item rest ih =>
    obtain ⟨out, own, done⟩ := bind_ok done
    obtain ⟨others, more, done⟩ := bind_ok done
    obtain rfl := ih more
    obtain rfl := Except.ok.inj done
    cases out with
    | true => simp [own, keeps]
    | false => simp [own, keeps]

/-- Items whose exclusions return remain or not. -/
theorem remaining_eq {α : Type} {excluded : α → Except Thrown Bool} {items : List α}
    {out : α → Bool} (returns : ∀ item ∈ items, excluded item = .ok (out item)) :
    remaining excluded items = .ok (items.filter fun item => !out item) := by
  induction items with
  | nil => rfl
  | cons item rest ih =>
    obtain ⟨own, later⟩ := List.forall_mem_cons.mp returns
    simp only [remaining, own, ih later, bind, Except.bind, pure, Except.pure]
    cases kept : out item with
    | true => simp [kept]
    | false => simp [kept]

/-- A row with its position. -/
def itemOf (listing : Listing) (entry : String × Json) : Position × Json :=
  (⟨(entry.2.find listing.orderField).getD .null, .str entry.1⟩, entry.2)

/-- Whether a row stands before another one. -/
def standsBefore (listing : Listing) (left right : String × Json) : Bool :=
  (itemOf listing left).1.before (itemOf listing right).1

/-- The field of the order is a number in every row. -/
theorem orderField_numeric (listing : Listing) :
    listing.orderField ∈ listing.table.keys ∧ listing.orderField ∈ numeric ∧
      listing.orderField ∉ nullable ∧ listing.orderField ≠ listing.table.key := by
  cases listing with
  | threads => decide
  | sessions => decide
  | leases => decide
  | inbox => decide
  | artifacts => decide

/-- A field that is there is read. -/
theorem index_of_find {row value : Json} {key : String} (found : row.find key = some value) :
    row.index key = .ok value := by
  cases row with
  | obj fields =>
    simp only [Json.find] at found
    simp only [Json.index, found]
  | _ => contradiction

/-- The time of a stored row. -/
theorem TaskLedger.Valid.time (valid : ledger.Valid library) {id : String} {row : Json}
    (stored : ledger.Stored listing.table id row) :
    ∃ time, row.find listing.orderField = some time ∧ time.isNumber = true := by
  obtain ⟨present, checked⟩ := valid.checked listing.table id row stored
  obtain ⟨inside, number, required, _⟩ := orderField_numeric listing
  obtain ⟨time, found, fitting⟩ := validateRow_fitting checked present inside
  refine ⟨time, found, ?_⟩
  have typed := fitting.resolve_left fun null => required null.1
  rwa [if_pos number] at typed

/-- The position of a stored row. -/
theorem TaskLedger.Valid.position (valid : ledger.Valid library) {entry : String × Json}
    (stored : ledger.Stored listing.table entry.1 entry.2) :
    positionOf listing entry.2 = .ok (itemOf listing entry).1 ∧ (itemOf listing entry).1.Plain := by
  obtain ⟨time, found, number⟩ := valid.time stored
  have key := valid.key stored
  constructor
  · simp only [positionOf, index_of_find found, index_of_find key, bind, Except.bind, pure,
      Except.pure, itemOf, found, Option.getD_some]
  · refine ⟨?_, rfl⟩
    simpa only [itemOf, found, Option.getD_some] using number

/-- The positions of stored rows. -/
theorem TaskLedger.Valid.positioned (valid : ledger.Valid library)
    {entries : List (String × Json)}
    (stored : ∀ entry ∈ entries, ledger.Stored listing.table entry.1 entry.2) :
    Ledger.positioned listing (entries.map (·.2)) = .ok (entries.map (itemOf listing)) := by
  induction entries with
  | nil => rfl
  | cons entry rest ih =>
    obtain ⟨own, later⟩ := List.forall_mem_cons.mp stored
    simp only [List.map_cons, Ledger.positioned, (valid.position own).1, ih later, bind,
      Except.bind, pure, Except.pure]
    rfl

/-! ## One page -/

/-- The cursor of a row. -/
def cursorAt (listing : Listing) (entry : String × Json) : Json :=
  .object [(listing.orderField, (itemOf listing entry).1.time), (listing.table.key, .str entry.1)]

/-- The fields of a cursor. -/
theorem cursorAt_fields (listing : Listing) (entry : String × Json) :
    (cursorAt listing entry).index listing.orderField = .ok (itemOf listing entry).1.time ∧
      (cursorAt listing entry).index listing.table.key = .ok (.str entry.1) := by
  have apart := (orderField_numeric listing).2.2.2
  constructor
  · apply index_of_find
    simp [cursorAt, Json.find_object, Assoc.lookup, Ne.symm apart]
  · apply index_of_find
    simp [cursorAt, Json.find_object, Assoc.lookup]

/-- A cursor stands where its row stands. -/
theorem cursorBefore_eq (listing : Listing) (cursor entry : String × Json) :
    cursorBefore listing (cursorAt listing cursor) (itemOf listing entry).1 =
      .ok (standsBefore listing cursor entry) := by
  obtain ⟨time, key⟩ := cursorAt_fields listing cursor
  simp only [cursorBefore, time, key, bind, Except.bind, pure, Except.pure, standsBefore,
    Position.before]
  split <;> rfl

/-- The rows behind the row of a cursor. -/
def rowsBehind (listing : Listing) (after : Option (String × Json))
    (entries : List (String × Json)) : List (String × Json) :=
  match after with
  | none => entries
  | some last => entries.filter (standsBefore listing last)

/-- The rows behind a cursor. -/
theorem behind_eq (listing : Listing) (after : Option (String × Json))
    (entries : List (String × Json)) :
    Ledger.behind listing (after.map (cursorAt listing)) (entries.map (itemOf listing)) =
      .ok ((rowsBehind listing after entries).map (itemOf listing)) := by
  cases after with
  | none => rfl
  | some last =>
    simp only [Option.map_some, Ledger.behind, rowsBehind]
    have returns : ∀ item ∈ entries.map (itemOf listing),
        (do
          let before ← cursorBefore listing (cursorAt listing last) item.1
          return !before) = Except.ok (!(itemOf listing last).1.before item.1) := by
      intro item inside
      obtain ⟨entry, there, rfl⟩ := List.mem_map.mp inside
      rw [cursorBefore_eq]
      rfl
    rw [remaining_eq returns, List.filter_map]
    simp only [Function.comp_def, Bool.not_not]
    rfl

/-- Rows stand as some ranks. -/
def Ranked (listing : Listing) (rank : String × Json → Nat) (entries : List (String × Json)) :
    Prop :=
  ∀ left ∈ entries, ∀ right ∈ entries,
    standsBefore listing left right = decide (rank left < rank right)

/-- The rows behind a cursor are those with a larger rank. -/
theorem Ranked.behind {rank : String × Json → Nat} {entries : List (String × Json)}
    (ranked : Ranked listing rank entries) {after : Option (String × Json)}
    (among : ∀ last, after = some last → last ∈ entries) :
    rowsBehind listing after entries = Paging.behind rank (after.map rank) entries := by
  cases after with
  | none => rfl
  | some last => exact List.filter_congr fun entry there => ranked last (among last rfl) entry there

/-- The first rows in the order. -/
def firstRows (listing : Listing) (limit : Nat) (entries : List (String × Json)) :
    List (String × Json) :=
  (entries.insertionSort fun left right => standsBefore listing right left = false).take limit

/-- The first rows are among the rows. -/
theorem mem_of_mem_firstRows {limit : Nat} {entries : List (String × Json)} {entry : String × Json}
    (inside : entry ∈ firstRows listing limit entries) : entry ∈ entries :=
  (List.perm_insertionSort _ _).mem_iff.mp (List.mem_of_mem_take inside)

/-- A page has the first rows. -/
theorem sorted_eq (listing : Listing) (limit : Nat) (entries : List (String × Json)) :
    ((entries.map (itemOf listing)).insertionSort notAfter).take limit =
      (firstRows listing limit entries).map (itemOf listing) := by
  have same := List.map_insertionSort
    (fun left right => standsBefore listing right left = false) notAfter (itemOf listing) entries
    fun _ _ _ _ => Iff.rfl
  rw [firstRows, List.map_take, same]

/-- The first rows are those of a page by the ranks. -/
theorem Ranked.firstRows {rank : String × Json → Nat} {entries : List (String × Json)}
    (ranked : Ranked listing rank entries) (limit : Nat) :
    Ledger.firstRows listing limit entries = Paging.page rank limit entries := by
  have same := List.map_insertionSort
    (fun left right => standsBefore listing right left = false)
    (fun left right => rank left ≤ rank right) id entries ?_
  · rw [List.map_id, List.map_id] at same
    rw [Ledger.firstRows, Paging.page, same]
  · intro left one right two
    rw [← Nat.not_lt, ranked right two left one, decide_eq_false_iff_not]
    rfl

/-! ## Requests that differ in the cursor -/

/-- Arguments that differ in the cursor only. -/
structure SameButAfter (a b : Json) : Prop where
  /-- The first are an object. -/
  first : a.isObject = true
  /-- So are the second. -/
  second : b.isObject = true
  /-- The other fields are the same. -/
  find : ∀ key, key ≠ "after" → b.find key = a.find key

variable {b : Json}

/-- An argument other than the cursor. -/
theorem SameButAfter.given (same : SameButAfter a b) {key : String} (apart : key ≠ "after") :
    Ledger.given b key = Ledger.given a key := by
  simp only [Ledger.given, same.find key apart]

/-- A converted argument other than the cursor. -/
theorem SameButAfter.valueWith {α : Type} (same : SameButAfter a b) {key : String}
    (apart : key ≠ "after") (get : Json → Except Thrown α) (fallback : α) :
    b.valueWith get key fallback = a.valueWith get key fallback :=
  Json.valueWith_congr same.second same.first (same.find key apart) get fallback

/-- The given filters. -/
theorem SameButAfter.givenFilters (same : SameButAfter a b) {fields : List String}
    (apart : "after" ∉ fields) :
    Ledger.givenFilters listing b fields = Ledger.givenFilters listing a fields := by
  induction fields with
  | nil => rfl
  | cons field rest ih =>
    have own : field ≠ "after" := fun equal => apart (equal ▸ List.mem_cons_self)
    have later : "after" ∉ rest := fun inside => apart (List.mem_cons_of_mem _ inside)
    simp only [Ledger.givenFilters, same.given own, ih later]

/-- No index is by the cursor. -/
theorem after_not_indexed (table : TableName) : "after" ∉ table.indexed := by
  cases table with
  | artifacts => decide
  | inbox => decide
  | threadLeases => decide
  | threadSessions => decide
  | threads => decide

/-- The filters. -/
theorem SameButAfter.filtersOf (same : SameButAfter a b) :
    Ledger.filtersOf listing b = Ledger.filtersOf listing a := by
  have filters : Ledger.givenFilters listing b listing.table.indexed =
      Ledger.givenFilters listing a listing.table.indexed := same.givenFilters (after_not_indexed _)
  have state := same.valueWith (show "state" ≠ "after" by decide) Json.getString "pending"
  simp only [Ledger.filtersOf, filters, Json.valueString, state]

/-- The realm. -/
theorem SameButAfter.targetRealm (same : SameButAfter a b) :
    Ledger.targetRealm listing b = Ledger.targetRealm listing a := by
  simp only [Ledger.targetRealm, same.given (show "target_realm" ≠ "after" by decide)]

/-- The exclusion. -/
theorem SameButAfter.excludes (same : SameButAfter a b) :
    Ledger.excludes library listing b ts = Ledger.excludes library listing a ts := by
  funext row
  have active := same.valueWith (show "active_only" ≠ "after" by decide) Json.getBool true
  simp only [Ledger.excludes, active, same.targetRealm,
    same.given (show "path_glob" ≠ "after" by decide)]

/-- The limit. -/
theorem SameButAfter.pageLimit (same : SameButAfter a b) :
    Ledger.pageLimit b = Ledger.pageLimit a := by
  simp only [Ledger.pageLimit, same.valueWith (show "limit" ≠ "after" by decide)]

/-- The limit of a page is positive. -/
theorem pageLimit_pos {limit : Nat} (read : pageLimit a = .ok limit) : 0 < limit := by
  obtain ⟨asked, _, read⟩ := bind_ok read
  have clamped : (max 1 (min asked 100)).toNat = limit := Except.ok.inj read
  omega

/-- A limit is read from an object. -/
theorem isObject_of_pageLimit {limit : Nat} (read : pageLimit a = .ok limit) :
    a.isObject = true := by
  obtain ⟨asked, converted, _⟩ := bind_ok read
  cases a with
  | obj fields => rfl
  | _ => contradiction

/-- A row that is not excluded is of the realm that is asked for. -/
theorem realmFits_of_excludes {row : Json} (kept : excludes library listing a ts row = .ok false) :
    RealmFits (targetRealm listing a) row := by
  intro realm target
  have inbox : listing = .inbox := by
    unfold targetRealm at target
    split at target
    · assumption
    · contradiction
  subst inbox
  simp only [excludes, target] at kept
  obtain ⟨own, read, kept⟩ := bind_ok kept
  have found : row.find "target_realm" = some own := by
    cases row with
    | obj fields =>
      simp only [Json.index] at read
      split at read
      · rename_i there
        exact Except.ok.inj read ▸ there
      · contradiction
    | _ => contradiction
  have either := Except.ok.inj kept
  refine ⟨own, found, ?_⟩
  cases general : own.same (.str "") with
  | true => exact .inr rfl
  | false => simpa [general] using either

/-- What the pages of a request have in common. -/
structure Prepared (library : Library) (ledger : TaskLedger) (listing : Listing) (a : Json)
    (ts : Rat) (entries : List (String × Json)) (limit : Nat) : Prop where
  /-- The limit is positive. -/
  positive : 0 < limit
  /-- The arguments are an object. -/
  object : a.isObject = true
  /-- The rows that match. -/
  lists : Lists ledger listing.table (Matches library listing a ts) entries
  /-- A request with a cursor at one of them has its page. -/
  page : ∀ b after, SameButAfter a b → given b "after" = after.map (cursorAt listing) →
    list library ledger listing b ts =
      .ok (pageOf listing ((rowsBehind listing after entries).map (itemOf listing)) limit)

/-- A request that returns prepares the others. -/
theorem TaskLedger.Valid.prepared (valid : ledger.Valid library) {page : Json}
    (returned : list library ledger listing a ts = .ok page) :
    ∃ entries limit, Prepared library ledger listing a ts entries limit := by
  obtain ⟨filters, read, returned⟩ := bind_ok returned
  obtain ⟨rows, select, returned⟩ := bind_ok returned
  obtain ⟨kept, exclude, returned⟩ := bind_ok returned
  obtain ⟨items, position, returned⟩ := bind_ok returned
  obtain ⟨found, _, returned⟩ := bind_ok returned
  obtain ⟨limit, limited, _⟩ := bind_ok returned
  obtain ⟨selected, done, lists⟩ := valid.selected read
  obtain rfl := Except.ok.inj (select.symm.trans done)
  let entries := selected.filter fun entry => keeps (excludes library listing a ts entry.2)
  have rows : kept = entries.map (·.2) := by
    rw [remaining_ok exclude, List.filter_map]
    rfl
  have matching : Lists ledger listing.table (Matches library listing a ts) entries := by
    refine ⟨lists.nodup.sublist (List.filter_sublist.map _), fun entry => ?_⟩
    rw [List.mem_filter, lists.mem, keeps_iff]
    constructor
    · rintro ⟨⟨stored, fitting, _⟩, out⟩
      exact ⟨stored, filters, read, fitting, out⟩
    · rintro ⟨stored, others, again, fitting, out⟩
      obtain rfl := Except.ok.inj (read.symm.trans again)
      exact ⟨⟨stored, fitting, realmFits_of_excludes out⟩, out⟩
  have stored : ∀ entry ∈ entries, ledger.Stored listing.table entry.1 entry.2 :=
    fun entry inside => ((matching.mem entry).mp inside).1
  refine ⟨entries, limit, pageLimit_pos limited, isObject_of_pageLimit limited, matching, ?_⟩
  intro b after same given_after
  subst rows
  simp only [list, same.filtersOf, read, same.targetRealm, select, same.excludes, exclude,
    valid.positioned stored, given_after, behind_eq, same.pageLimit, limited, bind, Except.bind,
    pure, Except.pure]

/-! ## Every page -/

variable {entries : List (String × Json)} {limit : Nat}

/-- Arguments are like themselves. -/
theorem SameButAfter.refl (object : a.isObject = true) : SameButAfter a a :=
  ⟨object, object, fun _ _ => rfl⟩

/-- The arguments of the next request. -/
theorem SameButAfter.next (same : SameButAfter a b) {next cursor : Json}
    (done : b.set "after" cursor = .ok next) (present : cursor.isNull = false) :
    SameButAfter a next ∧ Ledger.given next "after" = some cursor := by
  constructor
  · refine ⟨same.first, Json.isObject_set done, fun key apart => ?_⟩
    rw [Json.find_set done, if_neg apart, same.find key apart]
  · simp [Ledger.given, Json.find_set done, present]

/-- The rows and the cursor of a page. -/
theorem page_eq (listing : Listing) (entries : List (String × Json)) (limit : Nat) :
    (pageOf listing (entries.map (itemOf listing)) limit).at "rows" =
        .ok (.arr ((firstRows listing limit entries).map (·.2))) ∧
      (pageOf listing (entries.map (itemOf listing)) limit).at "after" =
        .ok (if limit < entries.length then
          match (firstRows listing limit entries).getLast? with
          | some last => cursorAt listing last
          | none => .null
        else .null) := by
  have sorted := sorted_eq listing limit entries
  constructor
  · apply Json.at_of_find
    simp only [pageOf, Json.find_object, sorted, List.map_map]
    rfl
  · apply Json.at_of_find
    simp only [pageOf, Json.find_object, sorted, List.length_map, cursorOf, List.getLast?_map]
    cases (firstRows listing limit entries).getLast? with
    | none => simp [Assoc.lookup]
    | some last => simp [Assoc.lookup, cursorAt, itemOf]

/-- The rows of a list behind a cursor are rows of the list. -/
theorem mem_of_mem_behind {rank : String × Json → Nat} {after : Option Nat}
    {entry : String × Json} (inside : entry ∈ Paging.behind rank after entries) :
    entry ∈ entries := by
  cases after with
  | none => exact inside
  | some last => exact (List.mem_filter.mp inside).1

/-- A page without a cursor is the last one. -/
theorem listAll_last {fuel : Nat} {page : Json} {rows : List Json}
    (returned : list library ledger listing b ts = .ok page)
    (own : page.at "rows" = .ok (.arr rows)) (last : page.at "after" = .ok .null) :
    listAll library ledger listing ts (fuel + 1) b = .ok (some rows) := by
  simp only [listAll, returned, own, elements, last, Json.isNull, bind, Except.bind, pure,
    Except.pure, if_true]

/-- A page with a cursor is followed by others. -/
theorem listAll_next {fuel : Nat} {page cursor next : Json} {rows : List Json}
    {others : Option (List Json)} (returned : list library ledger listing b ts = .ok page)
    (own : page.at "rows" = .ok (.arr rows)) (more : page.at "after" = .ok cursor)
    (present : cursor.isNull = false) (done : b.set "after" cursor = .ok next)
    (rest : listAll library ledger listing ts fuel next = .ok others) :
    listAll library ledger listing ts (fuel + 1) b = .ok (others.map (rows ++ ·)) := by
  simp only [listAll, returned, own, elements, more, present, done, rest, bind, Except.bind, pure,
    Except.pure, Bool.false_eq_true, if_false]

/-- The loop of a caller reads what requests in the abstract read. -/
theorem Prepared.listAll (prepared : Prepared library ledger listing a ts entries limit)
    {rank : String × Json → Nat} (ranked : Ranked listing rank entries) (fuel : Nat)
    {after : Option (String × Json)}
    (same : SameButAfter a b) (cursor : given b "after" = after.map (cursorAt listing))
    (among : ∀ last, after = some last → last ∈ entries) :
    Ledger.listAll library ledger listing ts fuel b =
      .ok ((Paging.readAll rank limit entries fuel (after.map rank)).map (List.map (·.2))) := by
  induction fuel generalizing b after with
  | zero => rfl
  | succ fuel ih =>
    have returned := prepared.page b after same cursor
    have inside : ∀ entry ∈ Paging.behind rank (after.map rank) entries, entry ∈ entries :=
      fun entry there => mem_of_mem_behind there
    rw [ranked.behind among] at returned
    simp only [Paging.readAll]
    generalize Paging.behind rank (after.map rank) entries = found at returned inside
    have own : Ranked listing rank found := fun left one right two =>
      ranked left (inside left one) right (inside right two)
    obtain ⟨rows, next⟩ := page_eq listing found limit
    rw [own.firstRows] at rows next
    split
    · rename_i more
      rw [if_pos more] at next
      cases final : (Paging.page rank limit found).getLast? with
      | none =>
        rw [final] at next
        exact listAll_last returned rows next
      | some last =>
        rw [final] at next
        have there : last ∈ entries :=
          inside last (Paging.mem_of_mem_page (List.mem_of_getLast? final))
        obtain ⟨following, set⟩ := Json.set_of_isObject same.second "after" (cursorAt listing last)
        obtain ⟨again, asked⟩ := same.next set rfl
        have others : Ledger.listAll library ledger listing ts fuel following =
            .ok ((Paging.readAll rank limit entries fuel ((some last).map rank)).map
              (List.map (·.2))) :=
          ih again asked fun entry is => Option.some.inj is ▸ there
        rw [listAll_next returned rows next rfl set others]
        simp only [Option.map_some, Option.map_map]
        refine congrArg (fun joined => Except.ok (Option.map joined _)) ?_
        funext later
        simp
    · rename_i whole
      rw [if_neg whole] at next
      exact listAll_last returned rows next

/-- Arguments that the operation can read. -/
structure Readable (listing : Listing) (a : Json) : Prop where
  /-- The filters. -/
  filters : ∃ filters, filtersOf listing a = .ok filters
  /-- The limit. -/
  limit : ∃ limit, pageLimit a = .ok limit
  /-- Whether expired leases are left out. -/
  active : listing = .leases → ∃ active, a.valueWith Json.getBool "active_only" true = .ok active
  /-- The pattern of the paths. -/
  pattern : listing = .artifacts →
    ∀ pattern, given a "path_glob" = some pattern → pattern.isString = true

/-- The rows of all pages: every row that matches, once and in order. -/
structure ListsAll (library : Library) (ledger : TaskLedger) (listing : Listing) (a : Json)
    (ts : Rat) (entries : List (String × Json)) : Prop where
  /-- The rows that match, each once. -/
  rows : Lists ledger listing.table (Matches library listing a ts) entries
  /-- They are in order. -/
  ordered : entries.Pairwise (Precedes listing)
  /-- The loop returns them. -/
  read : ∀ fuel, (ledger.tables listing.table).rows.length < fuel →
    listAll library ledger listing ts fuel a = .ok (some (entries.map (·.2)))

/-- One stored row precedes another when it stands before it. -/
theorem TaskLedger.Valid.precedes_iff (valid : ledger.Valid library) {left right : String × Json}
    (first : ledger.Stored listing.table left.1 left.2)
    (second : ledger.Stored listing.table right.1 right.2) :
    Precedes listing left right ↔ standsBefore listing left right = true := by
  obtain ⟨time, found, number⟩ := valid.time first
  obtain ⟨other, there, numeral⟩ := valid.time second
  have keys : (Json.str left.1).less (.str right.1) = decide (left.1 < right.1) :=
    less_text rfl rfl
  simp only [Precedes, standsBefore, Position.before, itemOf, found, there, Option.getD_some,
    Option.some.injEq, exists_and_left, exists_eq_left', keys]
  rw [same_number number numeral, less_number numeral number]
  by_cases same : beside time other = beside other time
  · simp [same]
  · simp [same]

/-- The comparison puts stored rows with different ids into an order, when no three of them stand
in a circle. -/
theorem TaskLedger.Valid.orders (valid : ledger.Valid library)
    (lists : Lists ledger listing.table (Matches library listing a ts) entries)
    (straight : ¬Circular library ledger listing a ts) :
    Paging.Orders (standsBefore listing) entries := by
  have stored : ∀ entry ∈ entries, ledger.Stored listing.table entry.1 entry.2 :=
    fun entry there => ((lists.mem entry).mp there).1
  have plain : ∀ entry ∈ entries, (itemOf listing entry).1.Plain :=
    fun entry there => (valid.position (stored entry there)).2
  have total : ∀ left ∈ entries, ∀ right ∈ entries, left = right ∨
      standsBefore listing left right = true ∨ standsBefore listing right left = true := by
    intro left one right two
    by_cases same : left.1 = right.1
    · have first := stored left one
      rw [same] at first
      exact .inl (Prod.ext same (Option.some.inj (first.symm.trans (stored right two))))
    · exact .inr (before_total (plain left one) (plain right two) same)
  refine ⟨fun left one right two => before_asymm (plain left one) (plain right two), total, ?_⟩
  intro first one second two third three onward further
  have precedes : ∀ left ∈ entries, ∀ right ∈ entries, standsBefore listing left right = true →
      Precedes listing left right := fun left there right other =>
    (valid.precedes_iff (stored left there) (stored right other)).mpr
  rcases total first one third three with same | less | around
  · have back := before_asymm (plain first one) (plain second two) onward
    rw [← same] at further
    exact absurd further (by simpa [standsBefore] using back)
  · exact less
  · refine absurd ⟨first, second, third, ?_, precedes first one second two onward,
      precedes second two third three further, precedes third three first one around⟩ straight
    simp only [List.mem_cons, List.not_mem_nil, or_false, forall_eq_or_imp, forall_eq]
    exact ⟨(lists.mem first).mp one, (lists.mem second).mp two, (lists.mem third).mp three⟩

/-- Prepared requests list every row, when no three rows stand in a circle. -/
theorem Prepared.listsAll (prepared : Prepared library ledger listing a ts entries limit)
    (valid : ledger.Valid library) (start : given a "after" = none)
    (straight : ¬Circular library ledger listing a ts) :
    ∃ rows, ListsAll library ledger listing a ts rows := by
  have lists := prepared.lists
  have orders := valid.orders lists straight
  let rank := Paging.rank (standsBefore listing) entries
  have ranked : Ranked listing rank entries := fun left one right two => orders.before_eq one two
  have apart : (entries.map rank).Nodup :=
    (List.Nodup.of_map _ lists.nodup).map_on fun left one right two =>
      orders.rank_injective one two
  have few : entries.length ≤ (ledger.tables listing.table).rows.length := by
    have different : entries.Nodup := List.Nodup.of_map _ lists.nodup
    have inside : entries ⊆ (ledger.tables listing.table).rows := fun entry there =>
      (valid.exact listing.table).sorted.mem_iff.mpr ((lists.mem entry).mp there).1
    exact (List.subperm_of_subset different inside).length_le
  have enough : (Paging.behind rank none entries).length <
      (ledger.tables listing.table).rows.length + 1 := Nat.lt_succ_of_le few
  obtain ⟨rows, read, sorted, all⟩ :=
    Paging.readAll_complete prepared.positive apart _ enough
  have stored : ∀ entry ∈ rows, ledger.Stored listing.table entry.1 entry.2 :=
    fun entry there => ((lists.mem entry).mp ((all entry).mp there)).1
  refine ⟨rows, ⟨?_, fun entry => (all entry).trans (lists.mem entry)⟩, ?_, fun fuel more => ?_⟩
  · have different : rows.Pairwise fun left right => left.1 ≠ right.1 := by
      refine sorted.imp_of_mem fun one two less same => ?_
      have first := stored _ one
      rw [same] at first
      have row := Option.some.inj (first.symm.trans (stored _ two))
      exact absurd (Prod.ext same row) fun equal => absurd less (equal ▸ lt_irrefl _)
    exact List.pairwise_map.mpr different
  · refine sorted.imp_of_mem fun one two less => ?_
    rw [valid.precedes_iff (stored _ one) (stored _ two),
      ranked _ ((all _).mp one) _ ((all _).mp two)]
    exact decide_eq_true less
  · have from_start : given a "after" = (none : Option (String × Json)).map (cursorAt listing) :=
      start
    have whole := Paging.readAll_more (Nat.succ_le_of_lt more) read
    rw [prepared.listAll ranked fuel (.refl prepared.object) from_start (by simp)]
    simp only [Option.map_none, whole, Option.map_some]

/-- Rows that are listed in order do not stand in a circle. -/
theorem ListsAll.straight (valid : ledger.Valid library)
    (all : ListsAll library ledger listing a ts entries) :
    ¬Circular library ledger listing a ts := by
  rintro ⟨first, second, third, matching, onward, further, around⟩
  have stored : ∀ entry ∈ entries, ledger.Stored listing.table entry.1 entry.2 :=
    fun entry there => ((all.rows.mem entry).mp there).1
  have inside : ∀ entry ∈ [first, second, third], entry ∈ entries :=
    fun entry there => (all.rows.mem entry).mpr (matching entry there)
  have asymm : ∀ left ∈ entries, ∀ right ∈ entries, Precedes listing left right →
      ¬Precedes listing right left := by
    intro left one right two
    rw [valid.precedes_iff (stored left one) (stored right two),
      valid.precedes_iff (stored right two) (stored left one)]
    intro less more
    have other := before_asymm (valid.position (stored left one)).2
      (valid.position (stored right two)).2 less
    exact absurd more (by simpa [standsBefore] using other)
  exact Paging.no_circle all.ordered asymm (inside first (by simp)) (inside second (by simp))
    (inside third (by simp)) onward further around

/-! ## Times that are not rounded -/

/-- A number that is a double. -/
def Exact : Json → Prop
  | .int value => value.natAbs ≤ 9007199254740992
  | .float _ => True
  | _ => False

instance : DecidablePred Exact
  | .int value => inferInstanceAs (Decidable (value.natAbs ≤ 9007199254740992))
  | .float _ => .isTrue trivial
  | .null | .bool _ | .str _ | .arr _ | .obj _ => .isFalse id

/-- The value of a number. -/
def numberOf : Json → ℚ
  | .int value => value
  | .float value => value
  | _ => 0

/-- A double has its own value beside others. -/
theorem beside_exact {left right : Json} (first : Exact left) (second : Exact right) :
    beside left right = numberOf left := by
  cases left with
  | int value =>
    have small : value.natAbs ≤ 9007199254740992 := first
    cases right with
    | int other =>
      have own : Json.signedBeside value other = value := by
        rw [Json.signedBeside]
        split
        · rw [Int.bmod_eq_emod]
          split <;> omega
        · rfl
      simp only [beside, own, numberOf]
    | float other => simp only [beside, Json.toDouble_eq small, numberOf]
    | _ => exact second.elim
  | float value => cases right <;> rfl
  | _ => exact first.elim

/-- Rows whose times are doubles stand in the order of the numbers, the later time first and then
the smaller key. -/
theorem TaskLedger.Valid.precedes_exact (valid : ledger.Valid library) {left right : String × Json}
    (first : ledger.Stored listing.table left.1 left.2)
    (second : ledger.Stored listing.table right.1 right.2)
    (one : Exact (itemOf listing left).1.time) (two : Exact (itemOf listing right).1.time) :
    Precedes listing left right ↔
      numberOf (itemOf listing right).1.time < numberOf (itemOf listing left).1.time ∨
        numberOf (itemOf listing left).1.time = numberOf (itemOf listing right).1.time ∧
          left.1 < right.1 := by
  rw [valid.precedes_iff first second, standsBefore,
    before_iff (valid.position first).2 (valid.position second).2, beside_exact one two,
    beside_exact two one]
  rfl

/-- Rows whose times are doubles do not stand in a circle. -/
theorem TaskLedger.Valid.straight (valid : ledger.Valid library)
    (exact : ∀ entry, ledger.Stored listing.table entry.1 entry.2 →
      Matches library listing a ts entry.2 → Exact (itemOf listing entry).1.time) :
    ¬Circular library ledger listing a ts := by
  rintro ⟨first, second, third, matching, onward, further, around⟩
  obtain ⟨⟨one, own⟩, ⟨two, other⟩, ⟨three, last⟩⟩ :
      (ledger.Stored listing.table first.1 first.2 ∧ Matches library listing a ts first.2) ∧
      (ledger.Stored listing.table second.1 second.2 ∧ Matches library listing a ts second.2) ∧
      (ledger.Stored listing.table third.1 third.2 ∧ Matches library listing a ts third.2) :=
    ⟨matching first (by simp), matching second (by simp), matching third (by simp)⟩
  rw [valid.precedes_exact one two (exact first one own) (exact second two other)] at onward
  rw [valid.precedes_exact two three (exact second two other) (exact third three last)] at further
  rw [valid.precedes_exact three one (exact third three last) (exact first one own)] at around
  rcases onward with later | ⟨same, smaller⟩
  · rcases further with more | ⟨equal, _⟩
    · rcases around with most | ⟨closed, _⟩
      · exact absurd (most.trans (more.trans later)) (lt_irrefl _)
      · exact absurd (closed ▸ more.trans later) (lt_irrefl _)
    · rcases around with most | ⟨closed, _⟩
      · exact absurd (most.trans (equal ▸ later)) (lt_irrefl _)
      · exact absurd (closed ▸ equal ▸ later) (lt_irrefl _)
  · rcases further with more | ⟨equal, larger⟩
    · rcases around with most | ⟨closed, _⟩
      · exact absurd (most.trans (same ▸ more)) (lt_irrefl _)
      · exact absurd (closed ▸ same ▸ more) (lt_irrefl _)
    · rcases around with most | ⟨_, largest⟩
      · exact absurd (same.trans equal ▸ most) (lt_irrefl _)
      · exact absurd (smaller.trans (larger.trans largest)) (lt_irrefl _)

/-- The exclusion of a stored row returns when the arguments can be read. -/
theorem Readable.excludes (readable : Readable listing a) (valid : ledger.Valid library) (ts : Rat)
    {id : String} {row : Json} (stored : ledger.Stored listing.table id row) :
    ∃ out, Ledger.excludes library listing a ts row = .ok out := by
  obtain ⟨present, checked⟩ := valid.checked listing.table id row stored
  cases listing with
  | threads => exact ⟨false, rfl⟩
  | sessions => exact ⟨false, rfl⟩
  | leases =>
    obtain ⟨active, read⟩ := readable.active rfl
    obtain ⟨expires, found, fitting⟩ :=
      validateRow_fitting checked present
        (show "expires_at" ∈ TableName.threadLeases.keys by decide)
    have number : expires.isNumber = true := by
      have typed := fitting.resolve_left fun null => absurd null.1 (by decide)
      rwa [if_pos (by decide)] at typed
    have double : ∃ ends, expires.getDouble = .ok ends := by
      cases expires with
      | int value => exact ⟨Json.toDouble value, rfl⟩
      | float value => exact ⟨value, rfl⟩
      | _ => contradiction
    obtain ⟨ends, double⟩ := double
    cases active with
    | true =>
      refine ⟨decide (ends ≤ ts), ?_⟩
      simp only [Ledger.excludes, read, index_of_find found, double, bind, Except.bind, pure,
        Except.pure, if_true]
    | false =>
      refine ⟨false, ?_⟩
      simp [Ledger.excludes, read, bind, Except.bind, pure, Except.pure]
  | inbox =>
    obtain ⟨own, found, _⟩ := validateRow_fitting checked present
      (show "target_realm" ∈ TableName.inbox.keys by decide)
    cases target : targetRealm .inbox a with
    | none =>
      refine ⟨false, ?_⟩
      simp [Ledger.excludes, target, pure, Except.pure]
    | some realm =>
      refine ⟨!own.same (.str "") && !own.same realm, ?_⟩
      simp only [Ledger.excludes, target, index_of_find found, bind, Except.bind, pure,
        Except.pure]
  | artifacts =>
    obtain ⟨path, found⟩ := validateRow_text checked present
      (show "path" ∈ TableName.artifacts.keys by decide) (by decide) (by decide)
    cases asked : given a "path_glob" with
    | none =>
      refine ⟨false, ?_⟩
      simp [Ledger.excludes, asked, pure, Except.pure]
    | some pattern =>
      have string := readable.pattern rfl pattern asked
      cases pattern with
      | str text =>
        by_cases empty : text = ""
        · refine ⟨false, ?_⟩
          simp [Ledger.excludes, asked, Json.same, empty, pure, Except.pure]
        · refine ⟨!library.glob text path, ?_⟩
          simp [Ledger.excludes, asked, Json.same, empty, Json.getString, index_of_find found, bind,
            Except.bind, pure, Except.pure]
      | _ => contradiction

/-- A first request whose arguments can be read returns a page. -/
theorem Readable.returns (readable : Readable listing a) (valid : ledger.Valid library)
    (start : given a "after" = none) (ts : Rat) :
    ∃ page, Ledger.list library ledger listing a ts = .ok page := by
  obtain ⟨filters, read⟩ := readable.filters
  obtain ⟨limit, limited⟩ := readable.limit
  obtain ⟨entries, selected, lists⟩ := valid.selected read
  have stored : ∀ entry ∈ entries, ledger.Stored listing.table entry.1 entry.2 :=
    fun entry there => ((lists.mem entry).mp there).1
  have returns : ∀ row ∈ entries.map (·.2), Ledger.excludes library listing a ts row =
      .ok (!keeps (Ledger.excludes library listing a ts row)) := by
    intro row inside
    obtain ⟨entry, there, rfl⟩ := List.mem_map.mp inside
    obtain ⟨out, done⟩ := readable.excludes valid ts (stored entry there)
    simp [done, keeps]
  have kept := remaining_eq returns
  rw [List.filter_map] at kept
  simp only [Function.comp_def] at kept
  generalize remain : entries.filter (fun entry =>
    !!keeps (Ledger.excludes library listing a ts entry.2)) = rest at kept
  have there : ∀ entry ∈ rest, ledger.Stored listing.table entry.1 entry.2 := by
    intro entry inside
    rw [← remain] at inside
    exact stored entry (List.mem_filter.mp inside).1
  have positions := valid.positioned there
  refine ⟨pageOf listing (rest.map (itemOf listing)) limit, ?_⟩
  simp only [Ledger.list, read, selected, kept, positions, start, Ledger.behind, limited, bind,
    Except.bind, pure, Except.pure]

/-- Following the cursor from the first request returns every row that matches once and in order,
and comes to an end, exactly when no three of the rows stand in a circle, unless the arguments
cannot be read and the first request throws. Rows whose times are doubles do not stand in a
circle. -/
theorem list_complete_iff (reached : (machine library).Reaches (Journaled library) ledger)
    (listing : Listing) (a : Json) (ts : Rat) (start : given a "after" = none) :
    (Readable listing a → ∃ page, list library ledger listing a ts = .ok page) ∧
      ((∃ thrown, list library ledger listing a ts = .error thrown) ∨
        ((∃ entries, ListsAll library ledger listing a ts entries) ↔
          ¬Circular library ledger listing a ts)) ∧
      ((∀ entry, ledger.Stored listing.table entry.1 entry.2 →
          Matches library listing a ts entry.2 → Exact (itemOf listing entry).1.time) →
        ¬Circular library ledger listing a ts) := by
  have valid := valid_journaled reached
  refine ⟨fun readable => readable.returns valid start ts, ?_, valid.straight⟩
  cases returned : list library ledger listing a ts with
  | error thrown => exact .inl ⟨thrown, rfl⟩
  | ok page =>
    obtain ⟨entries, limit, prepared⟩ := valid.prepared returned
    refine .inr ⟨fun all => ?_, prepared.listsAll valid start⟩
    obtain ⟨rows, all⟩ := all
    exact all.straight valid

/-- The arguments of a list operation with small pages. -/
def smallPages : Json := .object [("limit", .int 1)]

/-- Two sessions are listed in two pages, the last active one first. -/
theorem list_complete_sessions :
    ∃ entries, ListsAll emptyLibrary twoSessions .sessions smallPages 9 entries ∧
      listAll emptyLibrary twoSessions .sessions 9 3 smallPages =
        .ok (some (entries.map (·.2))) := by
  have reached : (machine emptyLibrary).Reaches (Journaled emptyLibrary) twoSessions :=
    reaches_performed (reaches_performed (reaches_performed .initial trivial) trivial) trivial
  have readable : Readable .sessions smallPages :=
    ⟨⟨[], rfl⟩, ⟨1, rfl⟩, by simp, by simp⟩
  have doubles : ((twoSessions.tables .threadSessions).rows.all fun entry =>
      decide (Exact (itemOf .sessions entry).1.time)) = true := by decide +kernel
  obtain ⟨returns, all, straight⟩ := list_complete_iff reached .sessions smallPages 9 rfl
  have exact : ¬Circular emptyLibrary twoSessions .sessions smallPages 9 := by
    refine straight fun entry stored _ => ?_
    have inside := ((valid_journaled reached).exact .threadSessions).sorted.mem_iff.mpr stored
    exact of_decide_eq_true (List.all_eq_true.mp doubles entry inside)
  obtain ⟨page, returned⟩ := returns readable
  obtain ⟨thrown, refused⟩ | complete := all
  · rw [returned] at refused
    contradiction
  · obtain ⟨entries, lists⟩ := complete.mpr exact
    have few : (twoSessions.tables .threadSessions).rows.length < 3 := by decide
    exact ⟨entries, lists, lists.read 3 few⟩

/-! ## Three times in a circle -/

/-- The arguments of a thread with an id. -/
def idArguments (id : String) : Json := .object [("id", .str id), ("title", .str id)]

/-- The arguments that give a thread a time. -/
def timeArguments (id : String) (time : Json) : Json :=
  .object [("thread_id", .str id), ("fields", .object [("last_active_at", time)])]

/-- The three times: two whole numbers, and between them the double that both become. -/
def circleTimes : List (String × Json) :=
  [("a", .int 9007199254740992), ("b", .float 9007199254740992), ("c", .int 9007199254740993)]

/-- Threads with these times. -/
def timeCircle : TaskLedger :=
  circleTimes.foldl (fun ledger entry =>
    performed (performed ledger "thread_create" (idArguments entry.1) 1) "thread_update"
      (timeArguments entry.1 entry.2) 2) .fresh

/-- Runs lead to them. -/
theorem timeCircle_reached : (machine emptyLibrary).Reaches (Journaled emptyLibrary) timeCircle :=
  reaches_performed (reaches_performed (reaches_performed (reaches_performed (reaches_performed
    (reaches_performed .initial trivial) trivial) trivial) trivial) trivial) trivial

/-- With three times in a circle rows are left out. -/
theorem list_incomplete : ¬∀ library ledger, (machine library).Reaches (Journaled library) ledger →
    ∀ listing a ts, given a "after" = none →
      (∃ thrown, list library ledger listing a ts = .error thrown) ∨
        ∃ entries, ListsAll library ledger listing a ts entries := by
  intro all
  have returns : (list emptyLibrary timeCircle .threads smallPages 9).isOk = true := by
    decide +kernel
  obtain ⟨thrown, refused⟩ | ⟨entries, lists⟩ :=
    all emptyLibrary timeCircle timeCircle_reached .threads smallPages 9 rfl
  · rw [refused] at returns
    contradiction
  · have two : (listAll emptyLibrary timeCircle .threads 9 4 smallPages).toOption.map
        (Option.map List.length) = some (some 2) := by decide +kernel
    have few : (timeCircle.tables .threads).rows.length < 4 := by decide
    rw [lists.read 4 few] at two
    have short : (entries.map (·.1)).length = 2 := by simpa [Except.toOption] using two
    have stored :
        (circleTimes.all fun entry => (timeCircle.row .threads entry.1).isSome) = true := by
      decide
    have inside : ∀ id ∈ circleTimes.map (·.1), id ∈ entries.map (·.1) := by
      intro id there
      obtain ⟨time, own, rfl⟩ := List.mem_map.mp there
      obtain ⟨row, found⟩ := Option.isSome_iff_exists.mp (List.all_eq_true.mp stored time own)
      have listed := (lists.rows.mem (time.1, row)).mpr ⟨found, [], rfl, rfl, rfl⟩
      exact List.mem_map.mpr ⟨_, listed, rfl⟩
    have more : 3 ≤ (entries.map (·.1)).length :=
      (List.subperm_of_subset (show (circleTimes.map (·.1)).Nodup by decide) inside).length_le
    omega

end Chitta.Ledger
