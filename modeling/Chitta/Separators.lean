import Mathlib.Data.List.Infix
import Chitta.Bytes

/-!
# Texts between separators

A text is cut at the leftmost occurrence of a separator, and split at all of them from the left. The
pieces do not have the separator inside, and joined by it they are the text again; joined by another
text they are the text with every occurrence replaced.
-/
namespace Chitta.Bytes

variable {needle replacement text : Text}

/-! ## Occurrences -/

/-- What has no byte of a joint is on one side of it. -/
theorem infix_append_cons {front rest : Text} {byte : UInt8} (apart : byte ∉ needle)
    (inside : needle <:+: front ++ byte :: rest) : needle <:+: front ∨ needle <:+: rest := by
  obtain ⟨before, after, whole⟩ := inside
  rw [List.append_assoc] at whole
  rcases List.append_eq_append_iff.mp whole with ⟨more, split, others⟩ | ⟨more, split, others⟩
  · rcases List.append_eq_append_iff.mp others with ⟨last, own, rests⟩ | ⟨last, own, rests⟩
    · left
      refine ⟨before, last, ?_⟩
      rw [split, own, List.append_assoc]
    · cases last with
      | nil =>
        left
        refine ⟨before, [], ?_⟩
        rw [split, own]
        simp
      | cons other last =>
        obtain ⟨same, _⟩ := List.cons.inj rests
        rw [own, ← same] at apart
        simp at apart
  · right
    cases more with
    | nil =>
      cases needle with
      | nil => exact List.nil_infix
      | cons other more =>
        obtain ⟨same, _⟩ := List.cons.inj others
        simp [same] at apart
    | cons other more =>
      obtain ⟨_, same⟩ := List.cons.inj others
      refine ⟨more, after, ?_⟩
      rw [List.append_assoc, same]
      rfl

/-- What has no byte of a text in the middle is on one side of it. -/
theorem infix_append_middle {front middle rest : Text} (some_byte : middle ≠ [])
    (apart : ∀ byte ∈ middle, byte ∉ needle) (inside : needle <:+: front ++ (middle ++ rest)) :
    needle <:+: front ∨ needle <:+: rest := by
  induction middle generalizing front with
  | nil => contradiction
  | cons byte middle ih =>
    obtain ⟨own, others⟩ := List.forall_mem_cons.mp apart
    rcases infix_append_cons own inside with left | right
    · exact Or.inl left
    · cases middle with
      | nil => exact Or.inr right
      | cons next more =>
        have sides : needle <:+: [] ∨ needle <:+: rest := ih (by simp) others right
        rcases sides with none_there | later
        · rw [List.infix_nil] at none_there
          rw [none_there]
          exact Or.inl List.nil_infix
        · exact Or.inr later

/-! ## The leftmost occurrence -/

/-- A text that begins with the separator is cut at its start. -/
theorem cutAt_here (some_byte : needle ≠ []) (rest : Text) :
    cutAt needle (needle ++ rest) = some ([], rest) := by
  cases needle with
  | nil => contradiction
  | cons byte more =>
    rw [List.cons_append, cutAt, if_pos]
    · simp
    · rw [← List.cons_append]
      exact List.prefix_append _ _

/-- A text that does not begin with the separator is cut behind its first byte. -/
theorem cutAt_step {byte : UInt8} {rest : Text} (fails : ¬ needle <+: byte :: rest) :
    cutAt needle (byte :: rest) = (cutAt needle rest).map fun parts =>
    (byte :: parts.1, parts.2) := by
  rw [cutAt, if_neg fails]

/-- A text is not cut exactly when the separator is not inside. -/
theorem cutAt_eq_none : cutAt needle text = none ↔ ¬ needle <:+: text := by
  constructor
  · rintro fails ⟨front, rest, rfl⟩
    have cut := cutAt_isSome needle front rest
    rw [← List.append_assoc, fails] at cut
    contradiction
  · intro absent
    cases cut : cutAt needle text with
    | none => rfl
    | some parts =>
      have whole := cutAt_eq cut
      exact absurd ⟨parts.1, parts.2, whole.symm⟩ absent

/-- The part before the leftmost occurrence does not have the separator inside. -/
theorem not_infix_cutAt {before after : Text} (some_byte : needle ≠ [])
    (cut : cutAt needle text = some (before, after)) : ¬ needle <:+: before := by
  induction text generalizing before with
  | nil => simp [cutAt, some_byte] at cut
  | cons byte rest ih =>
    rw [cutAt] at cut
    split at cut
    · obtain ⟨rfl, rfl⟩ := Prod.mk.inj (Option.some.inj cut)
      simpa using some_byte
    · rename_i fails
      obtain ⟨⟨front, tail⟩, found, same⟩ := Option.map_eq_some_iff.mp cut
      obtain ⟨rfl, rfl⟩ := Prod.mk.inj same
      rw [List.infix_cons_iff]
      rintro (begins | later)
      · apply fails
        rw [cutAt_eq found, List.append_assoc]
        exact begins.trans (List.prefix_append (byte :: front) (needle ++ tail))
      · exact ih found later

/-- A byte is found behind a text without it. -/
theorem cutAt_byte {byte : UInt8} {front : Text} (absent : byte ∉ front) (rest : Text) :
    cutAt [byte] (front ++ rest) =
      (cutAt [byte] rest).map fun parts => (front ++ parts.1, parts.2) := by
  induction front with
  | nil => simp
  | cons other front ih =>
    rw [List.mem_cons, not_or] at absent
    obtain ⟨own, others⟩ := absent
    have fails : ¬ [byte] <+: other :: (front ++ rest) := by
      intro begins
      exact own (List.cons_prefix_cons.mp begins).1
    rw [List.cons_append, cutAt_step fails, ih others, Option.map_map]
    rfl

/-! ## The pieces -/

/-- The pieces are found with as many attempts as the text has bytes. -/
theorem splitFrom_enough (some_byte : needle ≠ []) {count other : Nat}
    (enough : text.length ≤ count) (enoughOther : text.length ≤ other) :
    splitFrom needle count text = splitFrom needle other text := by
  have alone : ∀ tries, splitFrom needle tries [] = [[]] := by
    intro tries
    cases tries with
    | zero => rfl
    | succ tries => simp [splitFrom, cutAt, some_byte]
  induction count generalizing other text with
  | zero =>
    obtain rfl := List.eq_nil_of_length_eq_zero (Nat.le_zero.mp enough)
    rw [alone, alone]
  | succ count ih =>
    cases other with
    | zero =>
      obtain rfl := List.eq_nil_of_length_eq_zero (Nat.le_zero.mp enoughOther)
      rw [alone, alone]
    | succ other =>
      rw [splitFrom, splitFrom]
      cases cut : cutAt needle text with
      | none => rfl
      | some parts =>
        have size := congrArg List.length (cutAt_eq cut)
        have some_length := List.length_pos_iff.mpr some_byte
        simp only [List.length_append] at size
        exact congrArg (parts.1 :: ·) (ih (by omega) (by omega))

/-- A text without the separator is its only piece. -/
theorem splitOn_absent (absent : ¬ needle <:+: text) : splitOn needle text = [text] := by
  rw [splitOn]
  cases text with
  | nil => rfl
  | cons byte rest => rw [List.length_cons, splitFrom, cutAt_eq_none.mpr absent]

/-- The pieces of a text that is cut. -/
theorem splitOn_cut (some_byte : needle ≠ []) {before after : Text}
    (cut : cutAt needle text = some (before, after)) :
    splitOn needle text = before :: splitOn needle after := by
  have size := congrArg List.length (cutAt_eq cut)
  have some_length := List.length_pos_iff.mpr some_byte
  simp only [List.length_append] at size
  obtain ⟨count, length⟩ : ∃ count, text.length = count + 1 := ⟨text.length - 1, by omega⟩
  rw [splitOn, length, splitFrom, cut]
  exact congrArg (before :: ·) (splitFrom_enough some_byte (by omega) (Nat.le_refl _))

/-- There is a first piece. -/
theorem splitOn_ne_nil (needle text : Text) : splitOn needle text ≠ [] := by
  rw [splitOn]
  cases text.length with
  | zero => simp [splitFrom]
  | succ count =>
    rw [splitFrom]
    split <;> simp

/-- A text has no separator inside, or it has one behind its first piece. -/
theorem splitOn_induction (some_byte : needle ≠ []) {motive : Text → Prop}
    (alone : ∀ piece, ¬ needle <:+: piece → motive piece)
    (more : ∀ piece rest, ¬ needle <:+: piece →
      splitOn needle (piece ++ needle ++ rest) = piece :: splitOn needle rest → motive rest →
        motive (piece ++ needle ++ rest))
    (text : Text) : motive text := by
  generalize bound : text.length = size
  induction size using Nat.strongRecOn generalizing text with
  | ind size ih =>
    cases cut : cutAt needle text with
    | none => exact alone text (cutAt_eq_none.mp cut)
    | some parts =>
      have whole := cutAt_eq cut
      have length := congrArg List.length whole
      have some_length := List.length_pos_iff.mpr some_byte
      simp only [List.length_append] at length
      have pieces := splitOn_cut some_byte cut
      rw [whole] at pieces ⊢
      exact more _ _ (not_infix_cutAt some_byte cut) pieces (ih _ (by omega) parts.2 rfl)

/-- Joined by the separator, the pieces are the text. -/
theorem intercalate_splitOn (some_byte : needle ≠ []) (text : Text) :
    needle.intercalate (splitOn needle text) = text := by
  induction text using splitOn_induction some_byte with
  | alone piece absent => rw [splitOn_absent absent, List.intercalate_singleton]
  | more piece rest _ pieces ih =>
    rw [pieces, List.intercalate_cons_of_ne_nil (splitOn_ne_nil _ _), ih]

/-- No piece has the separator inside. -/
theorem not_infix_splitOn (some_byte : needle ≠ []) (text : Text) :
    ∀ piece ∈ splitOn needle text, ¬ needle <:+: piece := by
  induction text using splitOn_induction some_byte with
  | alone piece absent => simpa [splitOn_absent absent] using absent
  | more piece rest absent pieces ih =>
    rw [pieces]
    exact List.forall_mem_cons.mpr ⟨absent, ih⟩

/-- Every piece is a part of the text. -/
theorem infix_of_mem_splitOn (some_byte : needle ≠ []) {piece : Text}
    (inside : piece ∈ splitOn needle text) : piece <:+: text := by
  induction text using splitOn_induction some_byte with
  | alone whole absent =>
    rw [splitOn_absent absent, List.mem_singleton] at inside
    rw [inside]
  | more first rest _ pieces ih =>
    rw [pieces] at inside
    rcases List.mem_cons.mp inside with rfl | later
    · rw [List.append_assoc]
      exact (List.prefix_append _ _).isInfix
    · exact (ih later).trans (List.suffix_append _ _).isInfix

/-- A text at whose bytes the separator does not begin belongs to the first piece. -/
theorem splitOn_front (some_byte : needle ≠ []) {front : Text} (rest : Text)
    (fails : ∀ part, part ≠ [] → part <:+ front → ¬ needle <+: part ++ rest) :
    splitOn needle (front ++ rest) = (splitOn needle rest).modifyHead (front ++ ·) := by
  induction front with
  | nil =>
    show splitOn needle rest = _
    cases splitOn needle rest <;> rfl
  | cons byte front ih =>
    have own := fails (byte :: front) (by simp) (List.suffix_refl _)
    have inner := ih fun part some_part ends =>
      fails part some_part (ends.trans (List.suffix_cons _ _))
    have step : splitOn needle (byte :: (front ++ rest)) =
        (splitOn needle (front ++ rest)).modifyHead (byte :: ·) := by
      have behind := cutAt_step own
      simp only [List.append_eq] at behind
      cases cut : cutAt needle (front ++ rest) with
      | none =>
        rw [cut, Option.map_none] at behind
        rw [splitOn_absent (cutAt_eq_none.mp behind), splitOn_absent (cutAt_eq_none.mp cut)]
        rfl
      | some parts =>
        rw [cut, Option.map_some] at behind
        rw [splitOn_cut some_byte behind, splitOn_cut some_byte cut]
        rfl
    rw [List.cons_append, step, inner, List.modifyHead_modifyHead]
    rfl

/-- A separator at the start ends an empty piece. -/
theorem splitOn_here (some_byte : needle ≠ []) (rest : Text) :
    splitOn needle (needle ++ rest) = [] :: splitOn needle rest :=
  splitOn_cut some_byte (cutAt_here some_byte rest)

/-- No occurrence begins in a text without the separator when what follows cannot go on with it. -/
theorem not_prefix_of_tail {front rest : Text} (absent : ¬ needle <:+: front)
    (ends : ∀ byte ∈ rest.head?, byte ∉ needle.tail) :
    ∀ part, part ≠ [] → part <:+ front → ¬ needle <+: part ++ rest := by
  intro part some_part ending begins
  rcases List.prefix_or_prefix_of_prefix begins (List.prefix_append part rest) with short | long
  · exact absent (short.isInfix.trans ending.isInfix)
  · obtain ⟨more, rfl⟩ := long
    cases more with
    | nil =>
      rw [List.append_nil] at absent
      exact absent ending.isInfix
    | cons byte more =>
      have goesOn := (List.prefix_append_right_inj part).mp begins
      obtain ⟨tail, rfl⟩ := goesOn
      cases part with
      | nil => contradiction
      | cons first others =>
        apply ends byte rfl
        simp

/-- No occurrence begins in a text without the first byte of the separator. -/
theorem not_prefix_of_head (some_byte : needle ≠ []) {front : Text}
    (absent : ∀ byte ∈ needle.head?, byte ∉ front) (rest : Text) :
    ∀ part, part ≠ [] → part <:+ front → ¬ needle <+: part ++ rest := by
  intro part some_part ending begins
  cases needle with
  | nil => contradiction
  | cons byte more =>
    cases part with
    | nil => contradiction
    | cons first others =>
      obtain ⟨same, _⟩ := List.cons_prefix_cons.mp begins
      apply absent byte rfl
      rw [same]
      exact ending.subset List.mem_cons_self

/-- A piece without the separator in front of a separator is the first piece, when the first byte of
the separator is nowhere else in it. -/
theorem splitOn_append (some_byte : needle ≠ [])
    (single : ∀ byte ∈ needle.head?, byte ∉ needle.tail)
    {front : Text} (absent : ¬ needle <:+: front) (rest : Text) :
    splitOn needle (front ++ (needle ++ rest)) = front :: splitOn needle rest := by
  have ends : ∀ byte ∈ (needle ++ rest).head?, byte ∉ needle.tail := by
    cases needle with
    | nil => contradiction
    | cons byte more => exact single
  rw [splitOn_front some_byte _ (not_prefix_of_tail absent ends), splitOn_here some_byte]
  simp

/-- The pieces on both sides of a separator are those of both texts. -/
theorem splitOn_join (some_byte : needle ≠ []) (single : ∀ byte ∈ needle.head?, byte ∉ needle.tail)
    (front rest : Text) :
    splitOn needle (front ++ (needle ++ rest)) = splitOn needle front ++ splitOn needle rest := by
  induction front using splitOn_induction some_byte with
  | alone piece absent =>
    rw [splitOn_append some_byte single absent, splitOn_absent absent]
    rfl
  | more piece front absent pieces ih =>
    rw [pieces, List.append_assoc, List.append_assoc, splitOn_append some_byte single absent, ih]
    rfl

/-- Pieces without the separator are found again in what they are joined to. -/
theorem splitOn_intercalate (some_byte : needle ≠ [])
    (single : ∀ byte ∈ needle.head?, byte ∉ needle.tail) {pieces : List Text}
    (some_piece : pieces ≠ [])
    (absent : ∀ piece ∈ pieces, ¬ needle <:+: piece) :
    splitOn needle (needle.intercalate pieces) = pieces := by
  induction pieces with
  | nil => contradiction
  | cons piece pieces ih =>
    obtain ⟨own, others⟩ := List.forall_mem_cons.mp absent
    cases pieces with
    | nil =>
      rw [List.intercalate_singleton]
      exact splitOn_absent own
    | cons next more =>
      rw [List.intercalate_cons_cons, List.append_assoc, splitOn_append some_byte single own,
        ih (by simp) others]

/-! ## Replacements -/

/-- The pieces joined by another text are the text with every occurrence replaced. -/
theorem replaceText_eq (needle replacement text : Text) :
    replaceText needle replacement text = replacement.intercalate (splitOn needle text) := rfl

/-- A text without an occurrence stays. -/
theorem replaceText_absent (absent : ¬ needle <:+: text) :
    replaceText needle replacement text = text := by
  rw [replaceText_eq, splitOn_absent absent, List.intercalate_singleton]

/-- An occurrence at the start is replaced. -/
theorem replaceText_here (some_byte : needle ≠ []) (rest : Text) :
    replaceText needle replacement (needle ++ rest) =
      replacement ++ replaceText needle replacement rest := by
  rw [replaceText_eq, splitOn_here some_byte,
    List.intercalate_cons_of_ne_nil (splitOn_ne_nil needle rest)]
  rfl

/-- A text in which no occurrence begins stays. -/
theorem replaceText_front (some_byte : needle ≠ []) {front rest : Text}
    (fails : ∀ part, part ≠ [] → part <:+ front → ¬ needle <+: part ++ rest) :
    replaceText needle replacement (front ++ rest) =
      front ++ replaceText needle replacement rest := by
  rw [replaceText_eq, splitOn_front some_byte rest fails, replaceText_eq]
  cases whole : splitOn needle rest with
  | nil => exact absurd whole (splitOn_ne_nil needle rest)
  | cons piece pieces =>
    cases pieces with
    | nil => simp
    | cons next more => simp [List.intercalate_cons_cons]

/-- What has no byte of the joint and is in no piece is not in what the pieces are joined to. -/
theorem not_infix_intercalate {other : Text} (some_byte : replacement ≠ [])
    (apart : ∀ byte ∈ replacement, byte ∉ other) {pieces : List Text} (some_piece : pieces ≠ [])
    (absent : ∀ piece ∈ pieces, ¬ other <:+: piece) :
    ¬ other <:+: replacement.intercalate pieces := by
  induction pieces with
  | nil => contradiction
  | cons piece pieces ih =>
    obtain ⟨own, others⟩ := List.forall_mem_cons.mp absent
    cases pieces with
    | nil =>
      rw [List.intercalate_singleton]
      exact own
    | cons next more =>
      rw [List.intercalate_cons_cons, List.append_assoc]
      intro inside
      rcases infix_append_middle some_byte apart inside with first | later
      · exact own first
      · exact ih (by simp) others later

/-- Replacing leaves no occurrence when the replacement has no byte of the separator. -/
theorem not_infix_replaceText (some_byte : needle ≠ []) (some_replacement : replacement ≠ [])
    (apart : ∀ byte ∈ replacement, byte ∉ needle) (text : Text) :
    ¬ needle <:+: replaceText needle replacement text :=
  not_infix_intercalate some_replacement apart (splitOn_ne_nil needle text)
    (not_infix_splitOn some_byte text)

/-- What is not in a text is not in it after a replacement that has no byte of it. -/
theorem not_infix_replaceText_other {other : Text} (some_byte : needle ≠ [])
    (some_replacement : replacement ≠ []) (apart : ∀ byte ∈ replacement, byte ∉ other)
    (absent : ¬ other <:+: text) : ¬ other <:+: replaceText needle replacement text := by
  apply not_infix_intercalate some_replacement apart (splitOn_ne_nil needle text)
  intro piece inside within
  exact absent (within.trans (infix_of_mem_splitOn some_byte inside))

end Chitta.Bytes
