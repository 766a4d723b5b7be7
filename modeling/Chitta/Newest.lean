import Mathlib.Data.List.Induction

/-!
# The current items of a history of writes

A write puts an item under its key or drops a key. The shelf holds the item of every key whose last
write put one, the newest first. A reader that knows only the items that were put, newest first,
finds the shelf in them when no key was both put and dropped: it keeps the first item of each key.
-/
namespace Chitta.Newest

variable {Item Key : Type}

/-- A change of what a key has. -/
inductive Write (Item Key : Type) where
  /-- The item is put under its key. -/
  | put (item : Item)
  /-- The key has no item any more. -/
  | drop (key : Key)
deriving DecidableEq

/-- The items that were put, the newest first. -/
def puts : List (Write Item Key) → List Item
  | [] => []
  | .put item :: later => puts later ++ [item]
  | .drop _ :: later => puts later

/-- The items of two histories, one after the other. -/
theorem puts_append (first second : List (Write Item Key)) :
    puts (first ++ second) = puts second ++ puts first := by
  induction first with
  | nil => simp [puts]
  | cons write first ih =>
    cases write with
    | put item => simp [puts, ih]
    | drop key => simp [puts, ih]

/-- An item that was put has a write. -/
theorem mem_puts {writes : List (Write Item Key)} {item : Item} :
    item ∈ puts writes ↔ Write.put item ∈ writes := by
  induction writes with
  | nil => simp [puts]
  | cons write writes ih =>
    cases write with
    | put other => simp [puts, ih, or_comm]
    | drop key => simp [puts, ih]

variable [DecidableEq Key] (keyOf : Item → Key)

/-- The items of the other keys. -/
def without (key : Key) (items : List Item) : List Item := items.filter fun item => keyOf item ≠ key

/-- One write. -/
def apply (items : List Item) : Write Item Key → List Item
  | .put item => item :: without keyOf (keyOf item) items
  | .drop key => without keyOf key items

/-- What a history of writes leaves, the newest first. -/
def shelf (writes : List (Write Item Key)) : List Item := writes.foldl (apply keyOf) []

/-- The first item of each key. -/
def firsts : List Item → List Item
  | [] => []
  | item :: rest => item :: without keyOf (keyOf item) (firsts rest)

/-- The items behind `without` are items of other keys. -/
@[simp] theorem mem_without {key : Key} {items : List Item} {item : Item} :
    item ∈ without keyOf key items ↔ item ∈ items ∧ keyOf item ≠ key := by
  simp [without]

/-- A key that no item has takes nothing away. -/
theorem without_absent {key : Key} {items : List Item} (absent : ∀ item ∈ items, keyOf item ≠ key) :
    without keyOf key items = items := by
  apply List.filter_eq_self.mpr
  intro item inside
  simpa using absent item inside

/-- What one more write leaves. -/
@[simp] theorem shelf_concat (writes : List (Write Item Key)) (write : Write Item Key) :
    shelf keyOf (writes ++ [write]) = apply keyOf (shelf keyOf writes) write := by
  simp [shelf, List.foldl_append]

/-- The items of the shelf were put. -/
theorem mem_puts_of_mem_shelf {writes : List (Write Item Key)} {item : Item}
    (inside : item ∈ shelf keyOf writes) : item ∈ puts writes := by
  induction writes using List.reverseRecOn with
  | nil => exact inside
  | append_singleton writes write ih =>
    rw [shelf_concat] at inside
    rw [puts_append]
    cases write with
    | put other =>
      rcases List.mem_cons.mp inside with rfl | kept
      · simp [puts]
      · have before := ih (mem_without keyOf |>.mp kept).1
        simp [puts, before]
    | drop key =>
      have before := ih (mem_without keyOf |>.mp inside).1
      simpa [puts] using before

/-- The key that a write is about. -/
def Write.key : Write Item Key → Key
  | .put item => keyOf item
  | .drop key => key

/-- The first items are items. -/
theorem mem_of_mem_firsts {items : List Item} {item : Item} (inside : item ∈ firsts keyOf items) :
    item ∈ items := by
  induction items with
  | nil => exact inside
  | cons first rest ih =>
    rcases List.mem_cons.mp inside with rfl | kept
    · exact List.mem_cons_self
    · exact List.mem_cons_of_mem _ (ih (mem_without keyOf |>.mp kept).1)

/-- Without a key that was both put and dropped, the shelf is the first item of each key that was
put. -/
theorem shelf_eq_firsts {writes : List (Write Item Key)}
    (apart : ∀ item ∈ puts writes, Write.drop (keyOf item) ∉ writes) :
    shelf keyOf writes = firsts keyOf (puts writes) := by
  induction writes using List.reverseRecOn with
  | nil => rfl
  | append_singleton writes write ih =>
    have earlier : ∀ item ∈ puts writes, Write.drop (keyOf item) ∉ writes := by
      intro item inside dropped
      have later : item ∈ puts (writes ++ [write]) := by
        rw [puts_append]
        exact List.mem_append_right _ inside
      exact apart item later (List.mem_append_left _ dropped)
    rw [shelf_concat, ih earlier, puts_append]
    cases write with
    | put item => rfl
    | drop key =>
      apply without_absent
      intro item inside same
      have member : item ∈ puts (writes ++ [Write.drop key]) := by
        rw [puts_append]
        exact List.mem_append_right _ (mem_of_mem_firsts keyOf inside)
      apply apart item member
      rw [same]
      exact List.mem_append_right _ List.mem_cons_self

/-- A search that passes an item finds it as well among the items of the other keys. -/
theorem find_without {key : Key} {items : List Item} {wanted : Item → Bool}
    (other : ∀ item, items.find? wanted = some item → keyOf item ≠ key) :
    (without keyOf key items).find? wanted = items.find? wanted := by
  induction items with
  | nil => rfl
  | cons item rest ih =>
    by_cases found : wanted item = true
    · have apart : keyOf item ≠ key := other item (List.find?_cons_of_pos found)
      have kept : without keyOf key (item :: rest) = item :: without keyOf key rest :=
        List.filter_cons_of_pos (by simpa using apart)
      rw [kept, List.find?_cons_of_pos found, List.find?_cons_of_pos found]
    · have passed : (item :: rest).find? wanted = rest.find? wanted :=
        List.find?_cons_of_neg found
      rw [passed] at other ⊢
      rw [← ih other]
      by_cases apart : keyOf item = key
      · have gone : without keyOf key (item :: rest) = without keyOf key rest :=
          List.filter_cons_of_neg (by simpa using apart)
        rw [gone]
      · have kept : without keyOf key (item :: rest) = item :: without keyOf key rest :=
          List.filter_cons_of_pos (by simpa using apart)
        rw [kept, List.find?_cons_of_neg found]

/-- Whether an item has a key. -/
def has (key : Key) (item : Item) : Bool := keyOf item = key

/-- The first item of a key is found either way. -/
theorem find_firsts (key : Key) (items : List Item) :
    (firsts keyOf items).find? (has keyOf key) = items.find? (has keyOf key) := by
  induction items with
  | nil => rfl
  | cons item rest ih =>
    by_cases same : keyOf item = key
    · have found : has keyOf key item = true := by simpa [has] using same
      rw [firsts, List.find?_cons_of_pos found, List.find?_cons_of_pos found]
    · have passed : ¬has keyOf key item = true := by simpa [has] using same
      rw [firsts, List.find?_cons_of_neg passed, List.find?_cons_of_neg passed, ← ih]
      apply find_without
      intro other found
      have named : keyOf other = key := by simpa [has] using List.find?_some found
      rw [named]
      exact Ne.symm same

/-- A search reaches the first items at the item that it finds among all, when no newer item has
its key. -/
theorem find_firsts_of_fresh {newer older : List Item} {item : Item} {wanted : Item → Bool}
    (passed : ∀ other ∈ newer, wanted other = false) (found : wanted item = true)
    (fresh : ∀ other ∈ newer, keyOf other ≠ keyOf item) :
    (firsts keyOf (newer ++ item :: older)).find? wanted = some item := by
  induction newer with
  | nil =>
    rw [List.nil_append, firsts]
    exact List.find?_cons_of_pos found
  | cons first rest ih =>
    have deeper := ih (fun other inside => passed other (List.mem_cons_of_mem _ inside))
      (fun other inside => fresh other (List.mem_cons_of_mem _ inside))
    have skipped : ¬wanted first = true := by
      rw [passed first List.mem_cons_self]
      exact Bool.false_ne_true
    rw [List.cons_append, firsts, List.find?_cons_of_neg skipped, ← deeper]
    apply find_without
    intro other reached
    rw [deeper] at reached
    obtain rfl := Option.some.inj reached
    exact Ne.symm (fresh first List.mem_cons_self)

/-- Among the first items of a list, an item is the first of its key. -/
theorem find_of_mem_firsts {items : List Item} {item : Item} (inside : item ∈ firsts keyOf items) :
    items.find? (has keyOf (keyOf item)) = some item := by
  induction items with
  | nil => contradiction
  | cons first rest ih =>
    rcases List.mem_cons.mp inside with rfl | kept
    · exact List.find?_cons_of_pos (by simp [has])
    · have apart := mem_without keyOf |>.mp kept
      have passed : ¬has keyOf (keyOf item) first = true := by
        simpa [has] using Ne.symm apart.2
      rw [List.find?_cons_of_neg passed]
      exact ih apart.1

end Chitta.Newest
