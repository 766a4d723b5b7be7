/-!
# The last write of a key in a log

A log is a list of entries in the order in which they were written; some of them write a key.
A read of a key sees the last entry that writes it. These are the rules of how that entry
changes when logs are joined, cut and filtered, for entries and keys of any type.
-/

variable {Item Key : Type} [DecidableEq Key]

/-- The last entry of a log that writes a key. -/
def lastWrite (keyOf : Item → Option Key) (key : Key) (log : List Item) : Option Item :=
  (log.filter fun item => keyOf item = some key).getLast?

variable {keyOf : Item → Option Key} {key : Key}

/-- An empty log has no write. -/
@[simp] theorem lastWrite_nil : lastWrite keyOf key ([] : List Item) = none := rfl

/-- The last write of a joined log is that of its end, when the end has one. -/
theorem lastWrite_append (first second : List Item) :
    lastWrite keyOf key (first ++ second) =
      (lastWrite keyOf key second).or (lastWrite keyOf key first) := by
  rw [lastWrite, List.filter_append, List.getLast?_append]
  rfl

/-- The last write of a log with one more entry at its start. -/
theorem lastWrite_cons (item : Item) (log : List Item) :
    lastWrite keyOf key (item :: log) =
      (lastWrite keyOf key log).or (if keyOf item = some key then some item else none) := by
  rw [← List.singleton_append, lastWrite_append]
  by_cases writes : keyOf item = some key <;> simp [lastWrite, writes]

/-- An entry that does not write the key can be left out at the start. -/
theorem lastWrite_cons_other {item : Item} (other : keyOf item ≠ some key) (log : List Item) :
    lastWrite keyOf key (item :: log) = lastWrite keyOf key log := by
  rw [lastWrite_cons, if_neg other, Option.or_none]

/-- An entry before another write of the key can be left out. -/
theorem lastWrite_cons_before {item : Item} {log : List Item}
    (later : lastWrite keyOf key log ≠ none) :
    lastWrite keyOf key (item :: log) = lastWrite keyOf key log := by
  obtain ⟨last, found⟩ := Option.ne_none_iff_exists'.mp later
  rw [lastWrite_cons, found, Option.some_or]

/-- An entry that writes the key is the last write when it ends the log. -/
theorem lastWrite_concat {item : Item} (writes : keyOf item = some key) (log : List Item) :
    lastWrite keyOf key (log ++ [item]) = some item := by
  rw [lastWrite_append, lastWrite_cons, if_pos writes]
  rfl

/-- An entry that does not write the key can be left out at the end. -/
theorem lastWrite_concat_other {item : Item} (other : keyOf item ≠ some key) (log : List Item) :
    lastWrite keyOf key (log ++ [item]) = lastWrite keyOf key log := by
  rw [lastWrite_append, lastWrite_cons_other other, lastWrite_nil, Option.none_or]

/-- A log that holds a write of the key has a last one. -/
theorem lastWrite_ne_none {log : List Item} {item : Item} (member : item ∈ log)
    (writes : keyOf item = some key) : lastWrite keyOf key log ≠ none := by
  rw [lastWrite, ne_eq, List.getLast?_eq_none_iff, List.filter_eq_nil_iff]
  intro none
  exact none item member (by simp [writes])

/-- Filtering out other entries than the last write keeps it. -/
theorem lastWrite_filter {kept : Item → Bool} {log : List Item} {last : Item}
    (found : lastWrite keyOf key log = some last) (keeps : kept last = true) :
    lastWrite keyOf key (log.filter kept) = some last := by
  induction log with
  | nil => contradiction
  | cons item rest ih =>
    cases later : lastWrite keyOf key rest with
    | some other =>
      have same : other = last := by
        rw [lastWrite_cons, later, Option.some_or] at found
        exact Option.some.inj found
      have inner := ih (same ▸ later)
      cases keep : kept item with
      | true =>
        rw [List.filter_cons_of_pos keep, lastWrite_cons, inner, Option.some_or]
      | false =>
        have drop : ¬ kept item = true := by simp [keep]
        rw [List.filter_cons_of_neg drop]
        exact inner
    | none =>
      rw [lastWrite_cons, later, Option.none_or] at found
      split at found
      · rename_i writes
        obtain rfl := Option.some.inj found
        have none_later : lastWrite keyOf key (rest.filter kept) = none := by
          rw [lastWrite, List.getLast?_eq_none_iff, List.filter_eq_nil_iff] at later ⊢
          intro other member
          exact later other (List.mem_filter.mp member).1
        rw [List.filter_cons_of_pos keeps, lastWrite_cons, none_later, if_pos writes,
          Option.none_or]
      · contradiction

/-- The last write of a key is an entry of the log that writes it. -/
theorem lastWrite_some {log : List Item} {last : Item}
    (found : lastWrite keyOf key log = some last) : last ∈ log ∧ keyOf last = some key := by
  have member := List.mem_filter.mp (List.mem_of_getLast? found)
  exact ⟨member.1, by simpa using member.2⟩

/-- The last write in a log of projected entries is the projection of the last write. -/
theorem lastWrite_filterMap {Value : Type} (project : Item → Option (Key × Value))
    (log : List Item) :
    lastWrite (fun pair : Key × Value => some pair.1) key (log.filterMap project) =
      (lastWrite (fun item => (project item).map (·.1)) key log).bind project := by
  induction log with
  | nil => rfl
  | cons item rest ih =>
    rw [lastWrite_cons]
    cases found : project item with
    | none =>
      rw [List.filterMap_cons_none found, ih]
      simp
    | some pair =>
      rw [List.filterMap_cons_some found, lastWrite_cons, ih]
      cases later : lastWrite (fun item => (project item).map (·.1)) key rest with
      | none => by_cases same : pair.1 = key <;> simp [same, found]
      | some last =>
        obtain ⟨value, projected, _⟩ := Option.map_eq_some_iff.mp (lastWrite_some later).2
        simp [projected]
