import Mathlib.Data.List.Sort

/-!
# Pages behind a cursor

A collection is read in pages: a request takes the items behind its cursor, in the order of their
positions and up to a limit, and the position of the last item is the cursor of the next request.
Requests follow one another until no items are left over. When the items have different
positions, a page and what is behind its last item are together what the request asked for.
-/
namespace Chitta.Paging

variable {α κ : Type} [LinearOrder κ] (position : α → κ)

/-- The items behind a cursor. -/
def behind (after : Option κ) (items : List α) : List α :=
  match after with
  | none => items
  | some cursor => items.filter fun item => cursor < position item

/-- The items of a page. -/
def page (limit : Nat) (items : List α) : List α :=
  (items.insertionSort fun left right => position left ≤ position right).take limit

variable {position} {after : Option κ} {items : List α} {limit : Nat}

/-- The items of a page are items. -/
theorem mem_of_mem_page {item : α} (inside : item ∈ page position limit items) : item ∈ items :=
  (List.perm_insertionSort _ _).mem_iff.mp (List.mem_of_mem_take inside)

/-- A page that nothing is left over from has every item. -/
theorem mem_page_iff (enough : items.length ≤ limit) {item : α} :
    item ∈ page position limit items ↔ item ∈ items := by
  have whole : page position limit items =
      items.insertionSort fun left right => position left ≤ position right := by
    apply List.take_of_length_le
    rw [List.length_insertionSort]
    exact enough
  rw [whole]
  exact (List.perm_insertionSort _ _).mem_iff

/-- A page of a longer list has a last item. -/
theorem exists_last (positive : 0 < limit) (more : limit < items.length) :
    ∃ last, (page position limit items).getLast? = some last := by
  have full : (page position limit items).length = limit := by
    rw [page, List.length_take, List.length_insertionSort]
    omega
  cases final : (page position limit items).getLast? with
  | some last => exact ⟨last, rfl⟩
  | none =>
    rw [List.getLast?_eq_none_iff] at final
    rw [final] at full
    exact absurd full (Nat.ne_of_lt positive)

/-- An item that is not on a page stands at or behind its last item. -/
theorem last_le {last item : α} (final : (page position limit items).getLast? = some last)
    (inside : item ∈ items) (off : item ∉ page position limit items) :
    position last ≤ position item := by
  let sorted := items.insertionSort fun left right => position left ≤ position right
  have ordered : (sorted.take limit ++ sorted.drop limit).Pairwise
      fun left right => position left ≤ position right := by
    rw [List.take_append_drop]
    exact List.pairwise_insertionSort _ items
  have there : item ∈ sorted.take limit ++ sorted.drop limit := by
    rw [List.take_append_drop]
    exact (List.perm_insertionSort _ _).mem_iff.mpr inside
  have later : item ∈ sorted.drop limit := (List.mem_append.mp there).resolve_left off
  exact (List.pairwise_append.mp ordered).2.2 last (List.mem_of_getLast? final) item later

/-- The items behind a cursor that is behind another are the same in both views. -/
theorem behind_behind {cursor : κ} (further : ∀ earlier, after = some earlier → earlier < cursor) :
    behind position (some cursor) items =
      (behind position after items).filter fun item => cursor < position item := by
  cases after with
  | none => rfl
  | some earlier =>
    have less := further earlier rfl
    simp only [behind, List.filter_filter]
    apply List.filter_congr
    intro item _
    have chain : cursor < position item → earlier < position item := lt_trans less
    simpa using chain

/-- What a request asks for is its page and what is behind the last item of the page, and fewer
items are behind that. -/
theorem behind_last
    (apart : ∀ left ∈ items, ∀ right ∈ items, position left = position right → left = right)
    {last : α} (final : (page position limit (behind position after items)).getLast? = some last) :
    (∀ item, item ∈ behind position after items ↔
      item ∈ page position limit (behind position after items) ∨
        item ∈ behind position (some (position last)) items) ∧
    (behind position (some (position last)) items).length <
      (behind position after items).length := by
  have inside : last ∈ behind position after items :=
    mem_of_mem_page (List.mem_of_getLast? final)
  have among : ∀ item ∈ behind position after items, item ∈ items := by
    intro item there
    cases after with
    | none => exact there
    | some earlier => exact (List.mem_filter.mp there).1
  have further : ∀ earlier, after = some earlier → earlier < position last := by
    rintro earlier rfl
    simpa using (List.mem_filter.mp inside).2
  rw [behind_behind further]
  constructor
  · intro item
    constructor
    · intro there
      by_cases on : item ∈ page position limit (behind position after items)
      · exact .inl on
      · have le := last_le final there on
        have ne : position last ≠ position item := by
          intro same
          have equal := apart last (among last inside) item (among item there) same
          exact on (equal ▸ List.mem_of_getLast? final)
        exact .inr (List.mem_filter.mpr ⟨there, by simpa using lt_of_le_of_ne le ne⟩)
    · rintro (on | there)
      · exact mem_of_mem_page on
      · exact (List.mem_filter.mp there).1
  · rw [List.length_filter_lt_length_iff_exists]
    exact ⟨last, inside, by simp⟩

/-! ## Every page -/

/-- Items with different positions are on a page in their order. -/
theorem page_pairwise (apart : (items.map position).Nodup) :
    (page position limit items).Pairwise fun left right => position left < position right := by
  let sorted := items.insertionSort fun left right => position left ≤ position right
  have ordered : sorted.Pairwise fun left right => position left ≤ position right :=
    List.pairwise_insertionSort _ items
  have permuted : (sorted.map position).Nodup :=
    ((List.perm_insertionSort _ items).map position).nodup_iff.mpr apart
  have different : sorted.Pairwise fun left right => position left ≠ position right :=
    List.pairwise_map.mp permuted
  have strict := (ordered.and different).imp fun both => lt_of_le_of_ne both.1 both.2
  exact strict.sublist (List.take_sublist _ _)

/-- No item of a page stands behind its last one. -/
theorem le_last {item last : α} (apart : (items.map position).Nodup)
    (final : (page position limit items).getLast? = some last)
    (inside : item ∈ page position limit items) : position item ≤ position last := by
  have strict : (page position limit items).Pairwise fun left right =>
      position left < position right := page_pairwise apart
  obtain ⟨front, split⟩ := List.getLast?_eq_some_iff.mp final
  rw [split] at inside strict
  cases List.mem_append.mp inside with
  | inl before =>
    exact le_of_lt ((List.pairwise_append.mp strict).2.2 item before last (by simp))
  | inr same =>
    rw [List.mem_singleton.mp same]

variable (position) in
/-- The items of all requests from a cursor on, none when the requests run out of fuel. -/
def readAll (limit : Nat) (items : List α) : Nat → Option κ → Option (List α)
  | 0, _ => none
  | fuel + 1, after =>
    let found := behind position after items
    let current := page position limit found
    if limit < found.length then
      match current.getLast? with
      | none => some current
      | some last => (readAll limit items fuel (some (position last))).map (current ++ ·)
    else some current

/-- More fuel reads the same. -/
theorem readAll_more {fuel more : Nat} {rows : List α} (le : fuel ≤ more)
    (read : readAll position limit items fuel after = some rows) :
    readAll position limit items more after = some rows := by
  induction fuel generalizing more after rows with
  | zero => contradiction
  | succ fuel ih =>
    obtain ⟨rest, rfl⟩ : ∃ rest, more = rest + 1 := ⟨more - 1, by omega⟩
    simp only [readAll] at read ⊢
    split at read
    · rename_i longer
      rw [if_pos longer]
      split at read
      · exact read
      · rename_i last final
        obtain ⟨others, own, joined⟩ := Option.map_eq_some_iff.mp read
        simp only [ih (Nat.le_of_succ_le_succ le) own, Option.map_some, joined]
    · rename_i whole
      rw [if_neg whole]
      exact read

/-- A filtered list has positions that differ when the list has. -/
theorem behind_nodup (apart : (items.map position).Nodup) :
    ((behind position after items).map position).Nodup := by
  cases after with
  | none => exact apart
  | some cursor => exact apart.sublist (List.filter_sublist.map position)

/-- Requests that follow one another return every item behind the cursor once, in the order of the
positions, and come to an end. -/
theorem readAll_complete (positive : 0 < limit) (apart : (items.map position).Nodup) (fuel : Nat)
    (enough : (behind position after items).length < fuel) :
    ∃ rows, readAll position limit items fuel after = some rows ∧
      rows.Pairwise (fun left right => position left < position right) ∧
      ∀ item, item ∈ rows ↔ item ∈ behind position after items := by
  induction fuel generalizing after with
  | zero => exact absurd enough (Nat.not_lt_zero _)
  | succ fuel ih =>
    have own : ((behind position after items).map position).Nodup := behind_nodup apart
    simp only [readAll]
    split
    · rename_i more
      have full :
          ∃ last, (page position limit (behind position after items)).getLast? = some last :=
        exists_last positive more
      obtain ⟨last, final⟩ := full
      have injective : ∀ left ∈ items, ∀ right ∈ items, position left = position right →
          left = right := fun left one right two same => List.inj_on_of_nodup_map apart one two same
      obtain ⟨parts, fewer⟩ := behind_last injective final
      obtain ⟨rest, read, sorted, all⟩ := ih (Nat.lt_of_lt_of_le fewer (Nat.le_of_lt_succ enough))
      simp only [final, read, Option.map_some]
      refine ⟨_, rfl, ?_, fun item => ?_⟩
      · refine List.pairwise_append.mpr ⟨page_pairwise own, sorted, fun item on later there => ?_⟩
        have past := (List.mem_filter.mp ((all later).mp there)).2
        exact lt_of_le_of_lt (le_last own final on) (by simpa using past)
      · rw [List.mem_append, all, parts]
    · rename_i whole
      exact ⟨_, rfl, page_pairwise own, fun item => mem_page_iff (Nat.not_lt.mp whole)⟩

/-! ## Ranks -/

variable {before : α → α → Bool}

/-- A comparison that puts some items into an order. -/
structure Orders (before : α → α → Bool) (items : List α) : Prop where
  /-- Of two items at most one stands before the other. -/
  asymm : ∀ left ∈ items, ∀ right ∈ items, before left right = true → before right left = false
  /-- Of two different items one stands before the other. -/
  total : ∀ left ∈ items, ∀ right ∈ items,
    left = right ∨ before left right = true ∨ before right left = true
  /-- What stands before an item stands before those behind it. -/
  trans : ∀ first ∈ items, ∀ second ∈ items, ∀ third ∈ items,
    before first second = true → before second third = true → before first third = true

/-- The rank of an item: how many items stand before it. -/
def rank (before : α → α → Bool) (items : List α) (item : α) : Nat :=
  (items.filter fun other => before other item).length

/-- An item that stands before another one has a smaller rank. -/
theorem Orders.rank_lt (orders : Orders before items) {left right : α} (first : left ∈ items)
    (second : right ∈ items) (less : before left right = true) :
    rank before items left < rank before items right := by
  have fewer : items.filter (fun other => before other left) =
      (items.filter fun other => before other right).filter fun other => before other left := by
    rw [List.filter_filter]
    apply List.filter_congr
    intro other there
    have chain := fun own => orders.trans other there left first right second own less
    cases own : before other left with
    | false => rfl
    | true => simp [chain own]
  have self : before left left = false := by
    cases own : before left left with
    | false => rfl
    | true => exact absurd own (by simp [orders.asymm left first left first own])
  rw [rank, fewer, rank, List.length_filter_lt_length_iff_exists]
  exact ⟨left, List.mem_filter.mpr ⟨first, less⟩, by simp [self]⟩

/-- Ordered items stand as their ranks. -/
theorem Orders.before_eq (orders : Orders before items) {left right : α} (first : left ∈ items)
    (second : right ∈ items) :
    before left right = decide (rank before items left < rank before items right) := by
  cases own : before left right with
  | true => exact (decide_eq_true (orders.rank_lt first second own)).symm
  | false =>
    refine (decide_eq_false (Nat.not_lt.mpr ?_)).symm
    rcases orders.total left first right second with same | less | more
    · rw [same]
    · rw [own] at less
      contradiction
    · exact Nat.le_of_lt (orders.rank_lt second first more)

/-- Items whose ranks are the same are the same. -/
theorem Orders.rank_injective (orders : Orders before items) {left right : α}
    (first : left ∈ items) (second : right ∈ items)
    (same : rank before items left = rank before items right) : left = right := by
  rcases orders.total left first right second with equal | less | more
  · exact equal
  · exact absurd (orders.rank_lt first second less) (by omega)
  · exact absurd (orders.rank_lt second first more) (by omega)

/-- In a list in which every item stands before the later ones, no three items stand in a circle. -/
theorem no_circle {related : α → α → Prop} (ordered : items.Pairwise related)
    (asymm : ∀ left ∈ items, ∀ right ∈ items, related left right → ¬related right left)
    {first second third : α} (one : first ∈ items) (two : second ∈ items) (three : third ∈ items)
    (onward : related first second) (further : related second third) : ¬related third first := by
  induction items with
  | nil => contradiction
  | cons head rest ih =>
    obtain ⟨before, others⟩ := List.pairwise_cons.mp ordered
    -- Nothing stands before the head.
    have least : ∀ item ∈ head :: rest, ¬related item head := by
      intro item there again
      cases List.mem_cons.mp there with
      | inl same => exact asymm item there head List.mem_cons_self again (same ▸ again)
      | inr later => exact asymm item there head List.mem_cons_self again (before item later)
    intro around
    cases List.mem_cons.mp one with
    | inl same => exact least third three (same ▸ around)
    | inr one =>
      cases List.mem_cons.mp two with
      | inl same => exact least first (List.mem_cons_of_mem _ one) (same ▸ onward)
      | inr two =>
        cases List.mem_cons.mp three with
        | inl same => exact least second (List.mem_cons_of_mem _ two) (same ▸ further)
        | inr three =>
          exact ih others (fun left there right other => asymm left (List.mem_cons_of_mem _ there)
            right (List.mem_cons_of_mem _ other)) one two three around

end Chitta.Paging
