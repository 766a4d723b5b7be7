/-!
# The lines of a stream that grows

A stream is read line by line; what follows the last separator is a line too, if there is anything.
When the stream has grown, its complete lines are still there and only the unfinished line may have
changed.
-/
namespace Chitta.Lines

variable {α : Type} [DecidableEq α] (stop : α)

/-- The lines, the last of which may be unfinished. -/
@[grind =] def lines : List α → List (List α)
  | [] => []
  | item :: rest =>
    if item = stop then [] :: lines rest
    else match lines rest with
      | [] => [[item]]
      | line :: more => (item :: line) :: more

/-- The lines that a separator ends. -/
@[grind =] def complete : List α → List (List α)
  | [] => []
  | item :: rest =>
    if item = stop then [] :: complete rest
    else match complete rest with
      | [] => []
      | line :: more => (item :: line) :: more

/-- What follows the last separator. -/
@[grind =] def unfinished : List α → List α
  | [] => []
  | item :: rest =>
    if stop ∈ item :: rest then unfinished rest else item :: rest

variable {stop}

/-- A stream without a separator is one unfinished line. -/
theorem complete_of_absent {items : List α} (absent : stop ∉ items) :
    complete stop items = [] := by
  induction items with
  | nil => rfl
  | cons item rest ih =>
    have apart : item ≠ stop := fun same => absent (same ▸ List.mem_cons_self)
    have inner := ih fun inside => absent (List.mem_cons_of_mem _ inside)
    simp only [complete, if_neg apart, inner]

/-- A stream with a separator has a complete line. -/
theorem complete_of_mem {items : List α} (inside : stop ∈ items) :
    complete stop items ≠ [] := by
  induction items with
  | nil => contradiction
  | cons item rest ih =>
    by_cases same : item = stop
    · simp [complete, same]
    · have later : stop ∈ rest := by
        rcases List.mem_cons.mp inside with here | there
        · exact absurd here.symm same
        · exact there
      have inner := ih later
      cases found : complete stop rest with
      | nil => exact absurd found inner
      | cons line more => simp [complete, same, found]

/-- What is unfinished has no separator. -/
theorem unfinished_of_absent {items : List α} (absent : stop ∉ items) :
    unfinished stop items = items := by
  cases items with
  | nil => rfl
  | cons item rest => rw [unfinished, if_neg absent]

/-- What is unfinished is not longer than the stream. -/
theorem length_unfinished_le (items : List α) : (unfinished stop items).length ≤ items.length := by
  induction items with
  | nil => exact Nat.le_refl 0
  | cons item rest ih =>
    rw [unfinished]
    split
    · exact Nat.le_succ_of_le ih
    · exact Nat.le_refl _

/-- The lines of a stream that has grown: the complete ones, and then those of what was unfinished
with what was added. -/
theorem lines_append (items more : List α) :
    lines stop (items ++ more) =
      complete stop items ++ lines stop (unfinished stop items ++ more) := by
  induction items with
  | nil => rfl
  | cons item rest ih =>
    by_cases same : item = stop
    · have inside : stop ∈ item :: rest := by simp [same]
      rw [List.cons_append, lines, if_pos same, ih, complete, if_pos same, unfinished,
        if_pos inside, List.cons_append]
    · by_cases later : stop ∈ rest
      · have inside : stop ∈ item :: rest := List.mem_cons_of_mem _ later
        have some_line := complete_of_mem later
        rw [List.cons_append, lines, if_neg same, ih, complete, if_neg same, unfinished,
          if_pos inside]
        cases found : complete stop rest with
        | nil => exact absurd found some_line
        | cons line others => rfl
      · have absent : stop ∉ item :: rest := by
          intro inside
          rcases List.mem_cons.mp inside with here | there
          · exact same here.symm
          · exact later there
        rw [complete_of_absent absent, unfinished_of_absent absent]
        rfl

/-- The first line ends at the first stop. -/
theorem lines_break {line rest : List α} (absent : stop ∉ line) :
    lines stop (line ++ stop :: rest) = line :: lines stop rest := by
  induction line with
  | nil => simp [lines]
  | cons item others ih =>
    have apart : item ≠ stop := fun same => absent (same ▸ List.mem_cons_self)
    have later : stop ∉ others := fun inside => absent (List.mem_cons_of_mem _ inside)
    rw [List.cons_append, lines, if_neg apart, ih later]

/-- A line without a separator is the only one. -/
theorem lines_of_absent {items : List α} (absent : stop ∉ items) (some_item : items ≠ []) :
    lines stop items = [items] := by
  induction items with
  | nil => contradiction
  | cons item rest ih =>
    have apart : item ≠ stop := fun same => absent (same ▸ List.mem_cons_self)
    cases rest with
    | nil => simp [lines, apart]
    | cons next others =>
      have inner := ih (fun inside => absent (List.mem_cons_of_mem _ inside)) (by simp)
      rw [lines, if_neg apart, inner]

/-- No line has a stop inside. -/
theorem not_mem_lines (items : List α) : ∀ line ∈ lines stop items, stop ∉ line := by
  induction items with
  | nil => simp [lines]
  | cons item rest ih =>
    rw [lines]
    split
    · exact List.forall_mem_cons.mpr ⟨by simp, ih⟩
    · rename_i apart
      cases parts : lines stop rest with
      | nil => simpa using Ne.symm apart
      | cons line more =>
        rw [parts, List.forall_mem_cons] at ih
        refine List.forall_mem_cons.mpr ⟨?_, ih.2⟩
        rw [List.mem_cons, not_or]
        exact ⟨Ne.symm apart, ih.1⟩

/-- Every line is a part of the stream. -/
theorem infix_of_mem_lines {items line : List α} (inside : line ∈ lines stop items) :
    line <:+: items := by
  have rule : (∀ first ∈ (lines stop items).head?, first <+: items) ∧
      ∀ line ∈ lines stop items, line <:+: items := by
    clear inside
    induction items with
    | nil => simp [lines]
    | cons item rest ih =>
      rw [lines]
      split
      · constructor
        · intro first head
          rw [← Option.some.inj head]
          exact List.nil_prefix
        · rw [List.forall_mem_cons]
          exact ⟨List.nil_infix,
            fun line later => (ih.2 line later).trans (List.infix_cons (List.infix_refl rest))⟩
      · cases parts : lines stop rest with
        | nil =>
          have first : [item] <+: item :: rest := List.prefix_append [item] rest
          exact ⟨by simp, by simpa using first.isInfix⟩
        | cons line more =>
          rw [parts] at ih
          have first : item :: line <+: item :: rest :=
            (List.prefix_cons_inj item).mpr (ih.1 line rfl)
          constructor
          · intro other head
            rw [← Option.some.inj head]
            exact first
          · rw [List.forall_mem_cons]
            refine ⟨first.isInfix, fun other later => ?_⟩
            have inner := ih.2 other (List.mem_cons_of_mem _ later)
            exact inner.trans (List.infix_cons (List.infix_refl rest))
  exact rule.2 line inside

/-- What is unfinished has no separator. -/
theorem not_mem_unfinished (items : List α) : stop ∉ unfinished stop items := by
  induction items with
  | nil => simp [unfinished]
  | cons item rest ih =>
    rw [unfinished]
    split
    · exact ih
    · assumption

/-- The lines are the complete ones and what is unfinished. -/
theorem lines_eq (items : List α) :
    lines stop items = complete stop items ++
      if unfinished stop items = [] then [] else [unfinished stop items] := by
  have grown : lines stop items = complete stop items ++ lines stop (unfinished stop items) := by
    simpa using @lines_append _ _ stop items []
  rw [grown]
  congr 1
  split
  · rename_i empty
    rw [empty, lines]
  · rename_i some_item
    exact lines_of_absent (not_mem_unfinished items) some_item

/-- A stream that goes on after a stop keeps its lines. -/
theorem mem_lines_append {items line : List α} (rest : List α) (inside : line ∈ lines stop items) :
    line ∈ lines stop (items ++ stop :: rest) := by
  rw [lines_append, lines_break (not_mem_unfinished items)]
  rw [lines_eq, List.mem_append] at inside
  rcases inside with ended | last
  · exact List.mem_append_left _ ended
  · split at last
    · contradiction
    · rw [List.mem_singleton.mp last]
      exact List.mem_append_right _ List.mem_cons_self

/-- An item begins a line. -/
theorem lines_ne_nil {items : List α} (some_item : items ≠ []) : lines stop items ≠ [] := by
  cases items with
  | nil => contradiction
  | cons item rest =>
    rw [lines]
    split
    · simp
    · split <;> simp

/-- A stream that grows has as many lines or more. -/
theorem length_lines_le (items more : List α) :
    (lines stop items).length ≤ (lines stop (items ++ more)).length := by
  rw [lines_append, lines_eq, List.length_append, List.length_append]
  by_cases empty : unfinished stop items = []
  · rw [if_pos empty]
    simp
  · have some_item : unfinished stop items ++ more ≠ [] := by
      intro nothing
      exact empty (List.append_eq_nil_iff.mp nothing).1
    have some_line : 0 < (lines stop (unfinished stop items ++ more)).length :=
      List.length_pos_iff.mpr (lines_ne_nil some_item)
    rw [if_neg empty, List.length_singleton]
    omega

/-- Nothing is unfinished behind a separator. -/
theorem unfinished_break (items : List α) : unfinished stop (items ++ [stop]) = [] := by
  induction items with
  | nil => simp [unfinished]
  | cons item rest ih =>
    rw [List.cons_append, unfinished, if_pos, ih]
    exact List.mem_cons_of_mem _ (List.mem_append_right _ List.mem_cons_self)

/-- The lines behind a separator are lines. -/
theorem lines_append_ended {items : List α} (ended : unfinished stop items = []) (more : List α) :
    lines stop (items ++ more) = lines stop items ++ lines stop more := by
  rw [lines_append, lines_eq items, ended, if_pos rfl, List.append_nil, List.nil_append]

end Chitta.Lines
