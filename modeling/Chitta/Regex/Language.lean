import Chitta.Regex

/-!
# The texts of a pattern

A pattern without anchors passes over the same parts wherever they stand. The parts that it passes
over, with the groups that it records there, are described by the structure of the pattern; a match
that is found is such a part, the first one, and there is none where no match is found.
-/
namespace Chitta.Regex

variable {Symbol : Type}

namespace Pattern

/-- A pattern has no anchors. -/
def unanchored : Pattern Symbol → Bool
  | nothing | symbol _ => true
  | seq first second | either first second => first.unanchored && second.unanchored
  | repeated _ body => body.unanchored
  | group _ body => body.unanchored
  | atStart | atEnd => false

/-- A pattern passes over a part and records groups, the latest first. -/
def Matches : Pattern Symbol → List Symbol → List (Nat × List Symbol) → Prop
  | nothing, part, groups => part = [] ∧ groups = []
  | symbol test, part, groups => (∃ read, part = [read] ∧ test read = true) ∧ groups = []
  | seq first second, part, groups => ∃ front early back late, part = front ++ back ∧
      groups = late ++ early ∧ first.Matches front early ∧ second.Matches back late
  | either first second, part, groups => first.Matches part groups ∨ second.Matches part groups
  | repeated _ body, part, groups => ∃ pieces : List (List Symbol × List (Nat × List Symbol)),
      (∀ piece ∈ pieces, body.Matches piece.1 piece.2) ∧ part = pieces.flatMap Prod.fst ∧
        groups = pieces.reverse.flatMap Prod.snd
  | group number body, part, groups => ∃ inner, body.Matches part inner ∧
      groups = (number, part) :: inner
  | atStart, _, _ | atEnd, _, _ => False

end Pattern

/-! ## Moves -/

/-- What an unanchored pattern passes over is one of its texts. -/
theorem Moves.matches {pattern : Pattern Symbol} {start stop : Place Symbol}
    (moves : Moves pattern start stop) (free : pattern.unanchored = true) :
    ∃ part groups, pattern.Matches part groups ∧ start.rest = part ++ stop.rest ∧
      stop.groups = groups ++ start.groups := by
  induction moves with
  | nothing place => exact ⟨[], [], ⟨rfl, rfl⟩, rfl, rfl⟩
  | symbol passed rest groups passes => exact ⟨[_], [], ⟨⟨_, rfl, passes⟩, rfl⟩, rfl, rfl⟩
  | seq _ _ ihBefore ihAfter =>
    rw [Pattern.unanchored, Bool.and_eq_true] at free
    obtain ⟨front, early, first, whole, recorded⟩ := ihBefore free.1
    obtain ⟨back, late, second, others, later⟩ := ihAfter free.2
    refine ⟨front ++ back, late ++ early,
      ⟨front, early, back, late, rfl, rfl, first, second⟩, ?_, ?_⟩
    · rw [whole, others, List.append_assoc]
    · rw [later, recorded, List.append_assoc]
  | first _ ih =>
    rw [Pattern.unanchored, Bool.and_eq_true] at free
    obtain ⟨part, groups, one, rest⟩ := ih free.1
    exact ⟨part, groups, Or.inl one, rest⟩
  | second _ ih =>
    rw [Pattern.unanchored, Bool.and_eq_true] at free
    obtain ⟨part, groups, other, rest⟩ := ih free.2
    exact ⟨part, groups, Or.inr other, rest⟩
  | done place => exact ⟨[], [], ⟨[], by simp, rfl, rfl⟩, rfl, rfl⟩
  | again _ _ ihOnce ihOthers =>
    obtain ⟨front, early, once, whole, recorded⟩ := ihOnce free
    obtain ⟨back, late, ⟨pieces, all, parts, texts⟩, others, later⟩ := ihOthers free
    refine ⟨front ++ back, late ++ early, ⟨(front, early) :: pieces, ?_, ?_, ?_⟩, ?_, ?_⟩
    · exact List.forall_mem_cons.mpr ⟨once, all⟩
    · rw [List.flatMap_cons, parts]
    · rw [List.reverse_cons, List.flatMap_append, texts, List.flatMap_singleton]
    · rw [whole, others, List.append_assoc]
    · rw [later, recorded, List.append_assoc]
  | @group number _ start stop _ ih =>
    obtain ⟨part, groups, within, whole, recorded⟩ := ih free
    refine ⟨part, (number, part) :: groups, ⟨groups, within, rfl⟩, whole, ?_⟩
    show (number, start.rest.take (start.rest.length - stop.rest.length)) :: stop.groups = _
    rw [whole, recorded]
    simp
  | atStart => contradiction
  | atEnd => contradiction

/-- A text of a pattern is passed over wherever it stands. -/
theorem Pattern.Matches.moves {pattern : Pattern Symbol} {part : List Symbol}
    {groups : List (Nat × List Symbol)} (found : pattern.Matches part groups) (passed : Nat)
    (rest : List Symbol) (earlier : List (Nat × List Symbol)) :
    Moves pattern ⟨passed, part ++ rest, earlier⟩ ⟨passed + part.length, rest,
      groups ++ earlier⟩ := by
  induction pattern generalizing part groups passed rest earlier with
  | nothing =>
    obtain ⟨rfl, rfl⟩ := found
    exact .nothing _
  | symbol test =>
    obtain ⟨⟨read, rfl, passes⟩, rfl⟩ := found
    exact .symbol passed rest earlier passes
  | seq first second ihFirst ihSecond =>
    obtain ⟨front, early, back, late, rfl, rfl, one, other⟩ := found
    have before := ihFirst one passed (back ++ rest) earlier
    have after := ihSecond other (passed + front.length) rest (early ++ earlier)
    rw [List.append_assoc, List.append_assoc, List.length_append, ← Nat.add_assoc]
    exact .seq before after
  | either first second ihFirst ihSecond =>
    cases found with
    | inl one => exact .first (ihFirst one passed rest earlier)
    | inr other => exact .second (ihSecond other passed rest earlier)
  | repeated greedy body ih =>
    obtain ⟨pieces, all, rfl, rfl⟩ := found
    induction pieces generalizing passed earlier with
    | nil => exact .done _
    | cons piece pieces ihPieces =>
      obtain ⟨first, others⟩ := List.forall_mem_cons.mp all
      have once := ih first passed (pieces.flatMap Prod.fst ++ rest) earlier
      have more := ihPieces (passed + piece.1.length) (piece.2 ++ earlier) others
      rw [List.flatMap_cons, List.append_assoc, List.reverse_cons, List.flatMap_append,
        List.flatMap_singleton, List.append_assoc, List.length_append, ← Nat.add_assoc]
      exact .again once more
  | group number body ih =>
    obtain ⟨inner, within, rfl⟩ := found
    have moves : Moves (.group number body) _ _ := .group (ih within passed rest earlier)
    rw [Place.record] at moves
    simpa using moves
  | atStart => exact found.elim
  | atEnd => exact found.elim

/-! ## Searches -/

/-- A match that is found is a text of the pattern, and no text of it begins further in front. -/
theorem searchFrom_matches {pattern : Pattern Symbol} {passed : Nat} {text : List Symbol}
    {found : Found Symbol} (hit : searchFrom pattern passed text = some found)
    (free : pattern.unanchored = true) :
    text = found.skipped ++ (found.matched ++ found.rest) ∧
      pattern.Matches found.matched found.groups := by
  obtain ⟨whole, stop, moves, rest, groups⟩ := searchFrom_found hit
  obtain ⟨part, recorded, matched, same, texts⟩ := moves.matches free
  rw [rest] at same
  rw [groups, List.append_nil] at texts
  have own : found.matched = part := List.append_cancel_right same
  rw [texts, own]
  rw [own] at whole
  exact ⟨whole, matched⟩

/-- No match is found in a text without a text of the pattern. -/
theorem searchFrom_eq_none {pattern : Pattern Symbol} {passed : Nat} {text : List Symbol}
    (free : pattern.unanchored = true)
    (absent : ∀ front part rest groups, text = front ++ (part ++ rest) →
      ¬ pattern.Matches part groups) : searchFrom pattern passed text = none := by
  cases hit : searchFrom pattern passed text with
  | none => rfl
  | some found =>
    obtain ⟨whole, matched⟩ := searchFrom_matches hit free
    exact absurd matched (absent _ _ _ _ whole)

/-- A text that begins with a text of the pattern has a match at its start. -/
theorem searchFrom_here {pattern : Pattern Symbol} (passed : Nat) {part : List Symbol}
    {groups : List (Nat × List Symbol)} (matched : pattern.Matches part groups)
    (rest : List Symbol) (proper : pattern.proper = true) (free : pattern.unanchored = true) :
    ∃ found, searchFrom pattern passed (part ++ rest) = some found ∧ found.skipped = [] ∧
      part ++ rest = found.matched ++ found.rest ∧ pattern.Matches found.matched found.groups := by
  have succeeds := run_of_moves proper some _ _ (matched.moves passed rest []) rfl
  obtain ⟨after, here⟩ := Option.isSome_iff_exists.mp succeeds
  have hit : searchFrom pattern passed (part ++ rest) = some ⟨[],
      (part ++ rest).take ((part ++ rest).length - after.rest.length), after.rest,
      after.groups⟩ := by
    cases whole : part ++ rest with
    | nil =>
      rw [whole] at here
      simp [searchFrom, here]
    | cons symbol others =>
      rw [whole] at here
      simp [searchFrom, here]
  obtain ⟨split, own⟩ := searchFrom_matches hit free
  exact ⟨_, hit, rfl, split, own⟩

/-- A whole text that is matched is a text of the pattern. -/
theorem fullMatch_matches {pattern : Pattern Symbol} {text : List Symbol}
    {groups : List (Nat × List Symbol)} (found : fullMatch pattern text = some groups)
    (free : pattern.unanchored = true) : pattern.Matches text groups := by
  obtain ⟨stop, moves, ends, same⟩ := fullMatch_moves found
  obtain ⟨part, recorded, matched, whole, texts⟩ := moves.matches free
  rw [ends, List.append_nil] at whole
  rw [same, List.append_nil] at texts
  rw [texts]
  simp only at whole
  rw [whole]
  exact matched

/-- A text of the pattern is matched as a whole. -/
theorem fullMatch_isSome {pattern : Pattern Symbol} {text : List Symbol}
    {groups : List (Nat × List Symbol)} (matched : pattern.Matches text groups)
    (proper : pattern.proper = true) : (fullMatch pattern text).isSome = true := by
  have moves := matched.moves 0 [] []
  rw [List.append_nil] at moves
  exact fullMatch_of_moves proper moves rfl

/-! ## The texts of common patterns -/

namespace Pattern

variable {part : List Symbol} {groups : List (Nat × List Symbol)}

/-- A literal has one text. -/
theorem matches_literal [DecidableEq Symbol] (text : List Symbol) :
    (literal text).Matches part groups ↔ part = text ∧ groups = [] := by
  induction text generalizing part groups with
  | nil => exact Iff.rfl
  | cons head rest ih =>
    constructor
    · rintro ⟨front, early, back, late, rfl, rfl, ⟨⟨read, rfl, same⟩, rfl⟩, others⟩
      obtain ⟨rfl, rfl⟩ := ih.mp others
      rw [of_decide_eq_true same]
      exact ⟨rfl, rfl⟩
    · rintro ⟨rfl, rfl⟩
      exact ⟨[head], [], rest, [], rfl, rfl, ⟨⟨head, rfl, by simp⟩, rfl⟩, ih.mpr ⟨rfl, rfl⟩⟩

/-- The texts of patterns in order. -/
theorem matches_all_cons (first : Pattern Symbol) (others : List (Pattern Symbol)) :
    (all (first :: others)).Matches part groups ↔ ∃ front early back late, part = front ++ back ∧
      groups = late ++ early ∧ first.Matches front early ∧ (all others).Matches back late := by
  cases others with
  | nil =>
    constructor
    · intro matched
      exact ⟨part, groups, [], [], by simp, rfl, matched, rfl, rfl⟩
    · rintro ⟨front, early, back, late, rfl, rfl, matched, rfl, rfl⟩
      rw [List.append_nil, List.nil_append]
      exact matched
  | cons second more => exact Iff.rfl

/-- The texts of a choice. -/
theorem matches_oneOf (patterns : List (Pattern Symbol)) :
    (oneOf patterns).Matches part groups ↔ ∃ pattern ∈ patterns, pattern.Matches part groups := by
  induction patterns with
  | nil =>
    constructor
    · rintro ⟨⟨read, _, wrong⟩, _⟩
      contradiction
    · rintro ⟨pattern, inside, _⟩
      contradiction
  | cons first others ih =>
    cases others with
    | nil => simp [oneOf]
    | cons second more =>
      constructor
      · rintro (one | other)
        · exact ⟨first, List.mem_cons_self, one⟩
        · obtain ⟨pattern, inside, matched⟩ := ih.mp other
          exact ⟨pattern, List.mem_cons_of_mem first inside, matched⟩
      · rintro ⟨pattern, inside, matched⟩
        cases inside with
        | head => exact Or.inl matched
        | tail _ later => exact Or.inr (ih.mpr ⟨pattern, later, matched⟩)

/-- The texts of a pattern that may be left out. -/
theorem matches_maybe (body : Pattern Symbol) :
    (maybe body).Matches part groups ↔ body.Matches part groups ∨ (part = [] ∧ groups = []) :=
  Iff.rfl

/-- The texts of a repeated symbol. -/
theorem matches_many (test : Symbol → Bool) :
    (many (symbol test)).Matches part groups ↔
      (∀ read ∈ part, test read = true) ∧ groups = [] := by
  constructor
  · rintro ⟨pieces, all, rfl, rfl⟩
    constructor
    · intro read inside
      obtain ⟨piece, there, own⟩ := List.mem_flatMap.mp inside
      obtain ⟨⟨other, one, passes⟩, _⟩ := all piece there
      rw [one, List.mem_singleton] at own
      rw [own]
      exact passes
    · rw [List.flatMap_eq_nil_iff]
      intro piece inside
      exact (all piece (List.mem_reverse.mp inside)).2
  · rintro ⟨passes, rfl⟩
    refine ⟨part.map fun read => ([read], []), ?_, ?_, ?_⟩
    · intro piece inside
      obtain ⟨read, there, rfl⟩ := List.mem_map.mp inside
      exact ⟨⟨read, rfl, passes read there⟩, rfl⟩
    · rw [List.flatMap_map]
      simp
    · symm
      rw [List.flatMap_eq_nil_iff]
      intro piece inside
      obtain ⟨read, _, rfl⟩ := List.mem_map.mp (List.mem_reverse.mp inside)
      rfl

/-- The texts of a symbol that is there at least once. -/
theorem matches_more (test : Symbol → Bool) :
    (more (symbol test)).Matches part groups ↔
      part ≠ [] ∧ (∀ read ∈ part, test read = true) ∧ groups = [] := by
  constructor
  · rintro ⟨front, early, back, late, rfl, rfl, ⟨⟨read, rfl, passes⟩, rfl⟩, others⟩
    obtain ⟨each, rfl⟩ := (matches_many test).mp others
    exact ⟨by simp, List.forall_mem_cons.mpr ⟨passes, each⟩, rfl⟩
  · rintro ⟨some_read, each, rfl⟩
    cases part with
    | nil => contradiction
    | cons read rest =>
      obtain ⟨passes, others⟩ := List.forall_mem_cons.mp each
      exact ⟨[read], [], rest, [], rfl, rfl, ⟨⟨read, rfl, passes⟩, rfl⟩,
        (matches_many test).mpr ⟨others, rfl⟩⟩

/-- The texts of a symbol that is there a number of times. -/
theorem matches_times (count : Nat) (test : Symbol → Bool) :
    (times count (symbol test)).Matches part groups ↔
      part.length = count ∧ (∀ read ∈ part, test read = true) ∧ groups = [] := by
  induction count generalizing part groups with
  | zero =>
    constructor
    · rintro ⟨rfl, rfl⟩
      exact ⟨rfl, by simp, rfl⟩
    · rintro ⟨short, _, rfl⟩
      exact ⟨List.eq_nil_of_length_eq_zero short, rfl⟩
  | succ count ih =>
    constructor
    · rintro ⟨front, early, back, late, rfl, rfl, ⟨⟨read, rfl, passes⟩, rfl⟩, others⟩
      obtain ⟨size, each, rfl⟩ := ih.mp others
      refine ⟨?_, List.forall_mem_cons.mpr ⟨passes, each⟩, rfl⟩
      rw [List.length_append, size]
      exact Nat.add_comm 1 count
    · rintro ⟨size, each, rfl⟩
      cases part with
      | nil => contradiction
      | cons read rest =>
        obtain ⟨passes, others⟩ := List.forall_mem_cons.mp each
        exact ⟨[read], [], rest, [], rfl, rfl, ⟨⟨read, rfl, passes⟩, rfl⟩,
          ih.mpr ⟨Nat.succ.inj size, others, rfl⟩⟩

end Pattern

end Chitta.Regex
