import Chitta.Tally

/-!
# Filling a room

Items are looked at one after another, and each is taken if it still fits into the room that is
left. What is taken stays in order and within the room; an item that is passed over did not fit
beside those taken before it, and so does not fit beside all that is taken in the end.
-/
namespace Chitta.Greedy

variable {α : Type} (weight : α → Nat) (room : Nat)

/-- The items that are taken when `used` of the room is taken already. -/
def fill : Nat → List α → List α
  | _, [] => []
  | used, item :: rest =>
    if used + weight item ≤ room then item :: fill (used + weight item) rest
    else fill used rest

variable {weight room} {used : Nat} {item : α} {items rest : List α}

/-- An item that fits is taken. -/
theorem fill_fits (fits : used + weight item ≤ room) :
    fill weight room used (item :: rest) = item :: fill weight room (used + weight item) rest :=
  if_pos fits

/-- An item that does not fit is passed over. -/
theorem fill_passes (large : ¬ used + weight item ≤ room) :
    fill weight room used (item :: rest) = fill weight room used rest :=
  if_neg large

/-- What is taken stays in order. -/
theorem fill_sublist (used : Nat) (items : List α) :
    (fill weight room used items).Sublist items := by
  induction items generalizing used with
  | nil => exact List.Sublist.slnil
  | cons item rest ih =>
    by_cases fits : used + weight item ≤ room
    · rw [fill_fits fits]
      exact (ih _).cons_cons item
    · rw [fill_passes fits]
      exact (ih _).cons item

/-- What is taken is one of the items. -/
theorem mem_of_mem_fill (inside : item ∈ fill weight room used items) : item ∈ items :=
  (fill_sublist used items).subset inside

/-- What is taken stays within the room. -/
theorem fill_within (items : List α) (start : used ≤ room) :
    used + tally weight (fill weight room used items) ≤ room := by
  induction items generalizing used with
  | nil => simpa [fill] using start
  | cons item rest ih =>
    by_cases fits : used + weight item ≤ room
    · rw [fill_fits fits, tally_cons]
      have later := ih fits
      omega
    · rw [fill_passes fits]
      exact ih start

/-- The items behind are looked at with what those before have left. -/
theorem fill_append (used : Nat) (front back : List α) :
    fill weight room used (front ++ back) = fill weight room used front ++
      fill weight room (used + tally weight (fill weight room used front)) back := by
  induction front generalizing used with
  | nil => simp [fill]
  | cons item rest ih =>
    rw [List.cons_append]
    by_cases fits : used + weight item ≤ room
    · rw [fill_fits fits, fill_fits fits, ih, tally_cons, List.cons_append, Nat.add_assoc]
    · rw [fill_passes fits, fill_passes fits, ih]

/-- An item that is passed over does not fit beside what is taken before it. -/
theorem passed {front back : List α} (out : item ∉ fill weight room used (front ++ item :: back)) :
    room < used + tally weight (fill weight room used front) + weight item := by
  rw [fill_append] at out
  refine Nat.lt_of_not_le fun fits => out ?_
  rw [fill_fits fits]
  exact List.mem_append_right _ List.mem_cons_self

/-- An item that is passed over does not fit beside what is taken in the end. -/
theorem full (inside : item ∈ items) (out : item ∉ fill weight room used items) :
    room < used + tally weight (fill weight room used items) + weight item := by
  obtain ⟨front, back, rfl⟩ := List.append_of_mem inside
  have before := passed out
  rw [fill_append, tally_append]
  omega

end Chitta.Greedy
