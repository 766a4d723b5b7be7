import Mathlib.Data.List.Forall2
import Chitta.Ssl.ArrowChains

/-!
# Chains that differ in the blanks around their arrows

Two texts are respaced when their pieces between the arrows are the same up to blanks at the edges.
Every step from a line to its chain keeps this, so that respaced lines have the same triplets. A
reference directly behind an arrow is recognised by its sign, which therefore must not be moved away
from the arrow.
-/
namespace Chitta.Ssl

open Bytes Regex Regex.Pattern

/-! ## Pieces -/

/-- The blanks that are trimmed around an entity. -/
def blank (byte : UInt8) : Bool := byte == 32 || byte == 9 || byte == 13 || byte == 10

/-- Only blanks. -/
def Blank (text : Text) : Prop := ∀ byte ∈ text, blank byte = true

/-- Two pieces that are the same up to blanks behind them. -/
def Padded (piece other : Text) : Prop :=
  ∃ core back back', Blank back ∧ Blank back' ∧ piece = core ++ back ∧ other = core ++ back'

/-- Two pieces behind an arrow that are the same up to blanks around them, and up to blanks behind
them when they begin with the sign of a reference. -/
def Alike (piece other : Text) : Prop :=
  ∃ front front' core back back', Blank front ∧ Blank front' ∧ Blank back ∧ Blank back' ∧
    piece = front ++ (core ++ back) ∧ other = front' ++ (core ++ back') ∧
    (front = front' ∨ core.head? ≠ some 64)

/-- Two texts whose pieces are the same up to blanks around the arrows. -/
def Respaced (text other : Text) : Prop :=
  ∃ first first' pieces pieces', text = arrow.intercalate (first :: pieces) ∧
    other = arrow.intercalate (first' :: pieces') ∧ Padded first first' ∧
    List.Forall₂ Alike pieces pieces'

/-- A blank is white space. -/
theorem isSpace_of_blank {byte : UInt8} (blanks : blank byte = true) : isSpace byte = true := by
  simp only [blank, Bool.or_eq_true, beq_iff_eq] at blanks
  rcases blanks with ((rfl | rfl) | rfl) | rfl <;> rfl

/-- No byte of an arrow is white space. -/
theorem arrow_visible : ∀ byte ∈ arrow, isSpace byte = false := forall_bytes (by decide)

/-- Trimming an entity removes the blanks around it. -/
theorem trimEntity_eq (text : Text) :
    trimEntity text = (text.dropWhile blank).rdropWhile blank := rfl

/-- There are no blanks in nothing. -/
theorem blank_nil : Blank [] := by simp [Blank]

/-- Blanks are white space. -/
theorem Blank.spaces {text : Text} (blanks : Blank text) : ∀ byte ∈ text, isSpace byte = true :=
  fun byte inside => isSpace_of_blank (blanks byte inside)

/-- Blanks do not begin with another byte. -/
theorem Blank.head {text : Text} (blanks : Blank text) {byte : UInt8} (other : blank byte = false) :
    text.head? ≠ some byte := by
  intro head
  have inside := blanks byte (List.mem_of_mem_head? head)
  rw [other] at inside
  contradiction

/-- A piece is the same as itself. -/
theorem Padded.refl (piece : Text) : Padded piece piece :=
  ⟨piece, [], [], blank_nil, blank_nil, by simp, by simp⟩

/-- Pieces that are the same up to blanks behind them are alike. -/
theorem Padded.alike {piece other : Text} (padded : Padded piece other) : Alike piece other := by
  obtain ⟨core, back, back', blanks, blanks', rfl, rfl⟩ := padded
  exact ⟨[], [], core, back, back', blank_nil, blank_nil, blanks, blanks', rfl, rfl, Or.inl rfl⟩

/-- A text in front of both. -/
theorem Padded.append {piece other : Text} (padded : Padded piece other) (front : Text) :
    Padded (front ++ piece) (front ++ other) := by
  obtain ⟨core, back, back', blanks, blanks', rfl, rfl⟩ := padded
  exact ⟨front ++ core, back, back', blanks, blanks', by simp, by simp⟩

/-- Pieces that are alike are the same once they are trimmed. -/
theorem Alike.trimEntity_eq {piece other : Text} (alike : Alike piece other) :
    trimEntity piece = trimEntity other := by
  have trims : ∀ front core back : Text, Blank front → Blank back →
      trimEntity (front ++ (core ++ back)) = trimEntity core := by
    intro front core back blanks blanksBack
    rw [Ssl.trimEntity_eq, Ssl.trimEntity_eq, List.dropWhile_append_of_pos blanks,
      List.dropWhile_append]
    cases rest : core.dropWhile blank with
    | nil =>
      have empty : back.dropWhile blank = [] := List.dropWhile_eq_nil_iff.mpr blanksBack
      simp [empty]
    | cons byte more =>
      simp only [List.isEmpty_cons, Bool.false_eq_true, if_false]
      exact rdropWhile_append_passing blanksBack (byte :: more)
  obtain ⟨front, front', core, back, back', one, two, three, four, rfl, rfl, _⟩ := alike
  rw [trims front core back one three, trims front' core back' two four]

/-! ## Splitting -/

/-- The bytes of blanks are not those of an arrow. -/
theorem Blank.apart {text : Text} (blanks : Blank text) : ∀ byte ∈ arrow, byte ∉ text := by
  intro byte own inside
  have visible := arrow_visible byte own
  rw [blanks.spaces byte inside] at visible
  contradiction

/-- Pieces that are the same up to blanks behind them have such pieces. -/
theorem Padded.splitOn {piece other : Text} (padded : Padded piece other) :
    ∃ first first' pieces pieces', splitOn arrow piece = first :: pieces ∧
      splitOn arrow other = first' :: pieces' ∧ Padded first first' ∧
      List.Forall₂ Alike pieces pieces' := by
  obtain ⟨core, back, back', blanks, blanks', rfl, rfl⟩ := padded
  have free : ∀ core back : Text, Blank back → ¬ arrow <:+: core → ¬ arrow <:+: core ++ back := by
    intro core back blanks absent inside
    cases back with
    | nil =>
      rw [List.append_nil] at inside
      exact absent inside
    | cons byte more =>
      have apart : ∀ other ∈ byte :: more, other ∉ arrow :=
        fun other there own => blanks.apart other own there
      have middle : arrow <:+: core ++ ((byte :: more) ++ []) := by
        rw [List.append_nil]
        exact inside
      rcases infix_append_middle (by simp) apart middle with left | right
      · exact absent left
      · exact absurd (List.infix_nil.mp right) arrow_ne_nil
  induction core using splitOn_induction arrow_ne_nil with
  | alone core absent =>
    exact ⟨core ++ back, core ++ back', [], [], splitOn_absent (free core back blanks absent),
      splitOn_absent (free core back' blanks' absent),
      ⟨core, back, back', blanks, blanks', rfl, rfl⟩, .nil⟩
  | more piece core absent _ ih =>
    obtain ⟨first, first', pieces, pieces', split, split', padded, alike⟩ := ih
    have one := splitOn_append arrow_ne_nil arrow_single absent (core ++ back)
    have two := splitOn_append arrow_ne_nil arrow_single absent (core ++ back')
    rw [split] at one
    rw [split'] at two
    refine ⟨piece, piece, first :: pieces, first' :: pieces', ?_, ?_, Padded.refl _,
      .cons padded.alike alike⟩
    · rw [← one]
      simp
    · rw [← two]
      simp

/-- Pieces that are alike have pieces that are alike. -/
theorem Alike.splitOn {piece other : Text} (alike : Alike piece other) :
    List.Forall₂ Alike (splitOn arrow piece) (splitOn arrow other) := by
  obtain ⟨front, front', core, back, back', one, two, three, four, rfl, rfl, same⟩ := alike
  obtain ⟨first, first', pieces, pieces', split, split', padded, alike⟩ :=
    Padded.splitOn ⟨core, back, back', three, four, rfl, rfl⟩
  have behind : ∀ front rest : Text, Blank front → Bytes.splitOn arrow (front ++ rest) =
      (Bytes.splitOn arrow rest).modifyHead (front ++ ·) := by
    intro front rest blanks
    apply splitOn_front arrow_ne_nil
    apply not_prefix_of_head arrow_ne_nil
    intro byte head
    exact blanks.apart byte (List.mem_of_mem_head? head)
  rw [behind front _ one, behind front' _ two, split, split']
  refine .cons ?_ alike
  obtain ⟨core', back₁, back₂, blanks₁, blanks₂, whole, whole'⟩ := padded
  refine ⟨front, front', core', back₁, back₂, one, two, blanks₁, blanks₂, by rw [whole],
    by rw [whole'], ?_⟩
  rcases same with same | plain
  · exact Or.inl same
  · right
    cases core' with
    | nil => simp
    | cons byte more =>
      have joined := intercalate_splitOn arrow_ne_nil (core ++ back)
      rw [split, whole] at joined
      have begins : (core ++ back).head? = some byte := by
        rw [← joined]
        cases pieces with
        | nil => simp
        | cons next others => simp [List.intercalate_cons_cons]
      show some byte ≠ some 64
      rw [← begins]
      cases core with
      | nil => exact three.head (by decide)
      | cons first others => exact plain

/-- Respaced texts have pieces that are the same up to blanks. -/
theorem Respaced.splitOn {text other : Text} (respaced : Respaced text other) :
    ∃ first first' pieces pieces', splitOn arrow text = first :: pieces ∧
      splitOn arrow other = first' :: pieces' ∧ Padded first first' ∧
      List.Forall₂ Alike pieces pieces' := by
  obtain ⟨first, first', pieces, pieces', rfl, rfl, padded, alike⟩ := respaced
  have split : ∀ (piece : Text) (pieces : List Text),
      Bytes.splitOn arrow (arrow.intercalate (piece :: pieces)) =
        Bytes.splitOn arrow piece ++ pieces.flatMap (Bytes.splitOn arrow) := by
    intro piece pieces
    induction pieces generalizing piece with
    | nil => simp
    | cons next pieces ih =>
      rw [List.intercalate_cons_cons, List.append_assoc,
        splitOn_join arrow_ne_nil arrow_single, ih, List.flatMap_cons]
  obtain ⟨head, head', more, more', own, own', padded, others⟩ := padded.splitOn
  have later : List.Forall₂ Alike (pieces.flatMap (Bytes.splitOn arrow))
      (pieces'.flatMap (Bytes.splitOn arrow)) := by
    induction alike with
    | nil => exact .nil
    | cons pair _ ih =>
      rw [List.flatMap_cons, List.flatMap_cons]
      exact List.rel_append pair.splitOn ih
  refine ⟨head, head', more ++ pieces.flatMap (Bytes.splitOn arrow),
    more' ++ pieces'.flatMap (Bytes.splitOn arrow), ?_, ?_, padded, List.rel_append others later⟩
  · rw [split, own]
    rfl
  · rw [split, own']
    rfl

/-! ## Annotations without an arrow -/

/-- A joined text is replaced piece by piece when the pattern reads no byte of an arrow. -/
theorem replaceAll_intercalate {pattern : Pattern UInt8} (free : pattern.unanchored = true)
    (reading : pattern.reading = true) (unread : ∀ byte ∈ arrow, pattern.Reads (· ≠ byte))
    (first : Text) (pieces : List Text) :
    replaceAll pattern [] (arrow.intercalate (first :: pieces)) =
      arrow.intercalate ((first :: pieces).map (replaceAll pattern [])) := by
  induction pieces generalizing first with
  | nil => simp
  | cons next pieces ih =>
    have head : ∀ byte ∈ (arrow ++ arrow.intercalate (next :: pieces)).head?,
        pattern.Reads (· ≠ byte) := by
      intro byte begins
      rw [List.head?_append_of_ne_nil _ arrow_ne_nil] at begins
      exact unread byte (List.mem_of_mem_head? begins)
    rw [List.intercalate_cons_cons, List.append_assoc, replaceAll_append free reading head,
      replaceAll_unread free reading unread, ih]
    simp [List.intercalate_cons_cons]

section Stripped

variable {pattern : Pattern UInt8} (apart : Apart isSpace pattern)
include apart

/-- Removing an annotation keeps blanks behind a piece. -/
theorem Padded.replaceAll {piece other : Text} (padded : Padded piece other) :
    Padded (replaceAll (behind isSpace pattern) [] piece)
      (replaceAll (behind isSpace pattern) [] other) := by
  obtain ⟨core, back, back', blanks, blanks', rfl, rfl⟩ := padded
  exact ⟨Regex.replaceAll (behind isSpace pattern) [] core, back, back', blanks, blanks',
    apart.replaceAll_end [] blanks.spaces core, apart.replaceAll_end [] blanks'.spaces core⟩

/-- Removing an annotation keeps pieces alike. -/
theorem Alike.replaceAll {piece other : Text} (alike : Alike piece other) :
    Alike (replaceAll (behind isSpace pattern) [] piece)
      (replaceAll (behind isSpace pattern) [] other) := by
  obtain ⟨front, front', core, back, back', one, two, three, four, rfl, rfl, same⟩ := alike
  have ends := apart.replaceAll_end [] three.spaces (front ++ core)
  have ends' := apart.replaceAll_end [] four.spaces (front' ++ core)
  rw [List.append_assoc] at ends ends'
  rw [ends, ends']
  rcases apart.replaceAll_front [] core with removed | ⟨kept, head⟩
  · rw [removed front one.spaces, removed front' two.spaces]
    exact ⟨[], [], _, back, back', blank_nil, blank_nil, three, four, rfl, rfl, Or.inl rfl⟩
  · rw [kept front one.spaces, kept front' two.spaces, List.append_assoc, List.append_assoc]
    exact ⟨front, front', _, back, back', one, two, three, four, rfl, rfl, by rwa [head]⟩

/-- Removing an annotation without an arrow keeps texts respaced. -/
theorem Respaced.replaceAll {text other : Text}
    (unread : ∀ byte ∈ arrow, (behind isSpace pattern).Reads (· ≠ byte))
    (respaced : Respaced text other) :
    Respaced (replaceAll (behind isSpace pattern) [] text)
      (replaceAll (behind isSpace pattern) [] other) := by
  obtain ⟨first, first', pieces, pieces', rfl, rfl, padded, alike⟩ := respaced
  rw [replaceAll_intercalate apart.free_behind apart.reading_behind unread,
    replaceAll_intercalate apart.free_behind apart.reading_behind unread]
  refine ⟨_, _, _, _, rfl, rfl, padded.replaceAll apart, ?_⟩
  rw [List.forall₂_map_left_iff, List.forall₂_map_right_iff]
  exact alike.imp fun _ _ pair => pair.replaceAll apart

end Stripped

/-! ## References -/

/-- A byte of the name of a reference. -/
def isRefByte (byte : UInt8) : Bool := isWord byte || byte == 45

/-- The pattern of a reference without the white space before it. -/
def refBody : Pattern UInt8 := seq (text "→@") refName

/-- What follows a reference directly behind an arrow. -/
def refTail : Text → Option Text
  | [] => none
  | byte :: rest =>
    if byte = 64 ∧ rest.takeWhile isRefByte ≠ [] then some (rest.dropWhile isRefByte) else none

/-- A digit is not white space. -/
theorem digit_visible {byte : UInt8} (digit : isDigit byte = true) : isSpace byte = false := by
  grind [isDigit, isSpace]

/-- A byte of a list of flags is not white space. -/
theorem flagByte_visible {byte : UInt8}
    (named : (isUpper byte || byte == 95 || byte == 44) = true) : isSpace byte = false := by
  grind [isUpper, isSpace]

/-- A byte of a name is not white space. -/
theorem refByte_visible {byte : UInt8} (named : isRefByte byte = true) : isSpace byte = false := by
  grind [isRefByte, isWord, isUpper, isLower, isDigit, isSpace]

/-- A reference stands behind white space. -/
theorem apart_refBody : Apart isSpace refBody where
  free := rfl
  reading := rfl
  proper := rfl
  reads := ⟨reads_literal (forall_bytes (by decide)), fun _ => refByte_visible,
    fun _ => refByte_visible⟩

/-- A way over a reference begins with an arrow and the sign, and goes on with a name. -/
theorem refBody_run {passed : Nat} {rest : Text} {after : Place UInt8}
    (found : run refBody some ⟨passed, rest, []⟩ = some after) :
    ∃ more, rest = arrow ++ more ∧ (refTail more).isSome = true := by
  obtain ⟨_, moves, _⟩ := run_moves found
  cases moves with
  | seq sign name =>
    obtain ⟨whole, _⟩ := Moves.literal sign
    cases name with
    | seq first others =>
      cases first with
      | @symbol _ byte passed more groups passes =>
        have named : isRefByte byte = true := passes
        refine ⟨64 :: byte :: more, whole, ?_⟩
        simp [refTail, named]

/-- A reference directly behind an arrow is passed over. -/
theorem refBody_here {rest tail : Text} (refers : refTail rest = some tail) (passed : Nat) :
    ∃ after, run refBody some ⟨passed, arrow ++ rest, []⟩ = some after ∧ after.rest = tail := by
  cases rest with
  | nil => contradiction
  | cons sign rest =>
    rw [refTail] at refers
    split_ifs at refers with named
    obtain ⟨rfl, some_name⟩ := named
    obtain rfl := Option.some.inj refers
    have whole : rest.takeWhile isRefByte ++ rest.dropWhile isRefByte = rest :=
      List.takeWhile_append_dropWhile
    have ends : ∀ byte ∈ (rest.dropWhile isRefByte).head?, isRefByte byte = false := by
      intro byte head
      have first := List.head?_dropWhile_not isRefByte rest
      rw [Option.mem_def.mp head] at first
      simpa using first
    have passes : ∀ byte ∈ rest.takeWhile isRefByte, isRefByte byte = true :=
      fun byte inside => List.mem_takeWhile_imp inside
    generalize rest.dropWhile isRefByte = tail at whole ends
    generalize rest.takeWhile isRefByte = name at whole some_name passes
    cases name with
    | nil => contradiction
    | cons byte name =>
      obtain ⟨own, others⟩ := List.forall_mem_cons.mp passes
      refine ⟨⟨passed + (utf8 "→@").length + 1 + name.length, tail, []⟩, ?_, rfl⟩
      have literal : arrow ++ 64 :: rest = utf8 "→@" ++ (byte :: (name ++ tail)) := by
        rw [← whole]
        rfl
      have pattern : refName = more (symbol isRefByte) := rfl
      rw [literal, refBody, run, text, run_literal, pattern, more, run, run_symbol own]
      exact run_many_longest others ends rfl

/-- No reference begins in a piece in front of an arrow. -/
theorem refBody_fails {piece : Text} (absent : ¬ arrow <:+: piece) (rest : Text) (passed : Nat) :
    ∀ part, part ≠ [] → part <:+ piece →
      run refBody some ⟨passed, part ++ (arrow ++ rest), []⟩ = none := by
  intro part some_byte ends
  cases found : run refBody some ⟨passed, part ++ (arrow ++ rest), []⟩ with
  | none => rfl
  | some after =>
    obtain ⟨more, whole, _⟩ := refBody_run found
    have tail : ∀ byte ∈ (arrow ++ rest).head?, byte ∉ arrow.tail := by
      intro byte head
      rw [List.head?_append_of_ne_nil _ arrow_ne_nil] at head
      exact arrow_single byte head
    have fails := not_prefix_of_tail absent tail part some_byte ends
    rw [whole] at fails
    exact absurd (List.prefix_append _ _) fails

/-- Nothing is found in a piece without an arrow. -/
theorem search_refBody_none {piece : Text} (absent : ¬ arrow <:+: piece) :
    search refBody piece = none := by
  apply searchFrom_eq_none rfl
  rintro front part rest groups rfl ⟨sign, _, name, _, rfl, _, signed, _⟩
  obtain ⟨rfl, _⟩ := (matches_text "→@").mp signed
  apply absent
  exact ⟨front, utf8 "@" ++ (name ++ rest), by
    rw [show utf8 "→@" = arrow ++ utf8 "@" from rfl]
    simp⟩

/-- An end behind an arrow is removed behind it. -/
theorem rdropWhile_arrow {test : UInt8 → Bool} (fails : ∀ byte ∈ arrow, test byte = false)
    (front back : Text) :
    (front ++ (arrow ++ back)).rdropWhile test = front ++ (arrow ++ back.rdropWhile test) := by
  have stays : arrow.rdropWhile test = arrow := by
    rw [List.rdropWhile_eq_self_iff]
    intro some_byte
    rw [fails _ (List.getLast_mem some_byte)]
    decide
  have some_byte : arrow.rdropWhile test ≠ [] := by
    rw [stays]
    exact arrow_ne_nil
  by_cases empty : back.rdropWhile test = []
  · have passes := List.rdropWhile_eq_nil_iff.mp empty
    rw [empty, List.append_nil, ← List.append_assoc, rdropWhile_append_passing passes,
      rdropWhile_append_some some_byte, stays]
  · rw [← List.append_assoc, rdropWhile_append_some empty, List.append_assoc]

/-- The references are removed. -/
def withoutRefs (content : Text) : Text := replaceAll (behind isSpace refBody) [] content

/-- A piece without an arrow has no reference. -/
theorem withoutRefs_piece {piece : Text} (absent : ¬ arrow <:+: piece) :
    withoutRefs piece = piece :=
  apart_refBody.replaceAll_none (search_refBody_none absent)

/-- A reference is removed with its arrow and the white space before it. -/
theorem withoutRefs_refers {piece rest tail : Text} (absent : ¬ arrow <:+: piece)
    (refers : refTail rest = some tail) :
    withoutRefs (piece ++ (arrow ++ rest)) = piece.rdropWhile isSpace ++ withoutRefs tail := by
  obtain ⟨after, here, same⟩ := refBody_here refers (0 + piece.length)
  have hit := searchFrom_skip 0 fun place => refBody_fails absent rest place
  rw [searchFrom_of_run here, Option.map_some] at hit
  rw [withoutRefs, apart_refBody.replaceAll_some hit]
  simp [same, withoutRefs]

/-- An arrow without a reference stays. -/
theorem withoutRefs_arrow {piece rest : Text} (absent : ¬ arrow <:+: piece)
    (plain : refTail rest = none) :
    withoutRefs (piece ++ (arrow ++ rest)) = piece ++ (arrow ++ withoutRefs rest) := by
  have fails : ∀ place part, part ≠ [] → part <:+ arrow →
      run refBody some ⟨place, part ++ rest, []⟩ = none := by
    intro place part some_byte ends
    cases found : run refBody some ⟨place, part ++ rest, []⟩ with
    | none => rfl
    | some after =>
      obtain ⟨more, whole, refers⟩ := refBody_run found
      obtain ⟨front, split⟩ := ends
      cases front with
      | nil =>
        rw [List.nil_append] at split
        rw [split] at whole
        rw [← List.append_cancel_left whole, plain] at refers
        contradiction
      | cons first front =>
        cases part with
        | nil => contradiction
        | cons byte part =>
          have head : byte ∈ arrow.head? := by
            have heads := congrArg List.head? whole
            rw [List.head?_append_of_ne_nil _ arrow_ne_nil] at heads
            exact heads.symm
          have inside : byte ∈ arrow.tail := by
            rw [← split]
            simp
          exact absurd inside (arrow_single byte head)
  have hit := searchFrom_skip 0 fun place => refBody_fails absent rest place
  rw [searchFrom_skip (0 + piece.length) fails,
    searchFrom_place apart_refBody.free apart_refBody.reading _ rest] at hit
  cases later : search refBody rest with
  | none =>
    rw [later] at hit
    rw [withoutRefs, apart_refBody.replaceAll_none hit, withoutRefs,
      apart_refBody.replaceAll_none later]
  | some found =>
    rw [later] at hit
    rw [withoutRefs, apart_refBody.replaceAll_some hit, withoutRefs,
      apart_refBody.replaceAll_some later]
    simp [rdropWhile_arrow arrow_visible]

/-- What follows a reference in a text that goes on with neither a name nor the sign. -/
theorem refTail_append {back : Text}
    (stops : ∀ byte ∈ back.head?, byte ≠ 64 ∧ isRefByte byte = false) (text : Text) :
    refTail (text ++ back) = (refTail text).map (· ++ back) := by
  have taken : back.takeWhile isRefByte = [] := by
    cases back with
    | nil => rfl
    | cons byte more => simp [(stops byte rfl).2]
  have dropped : back.dropWhile isRefByte = back := by
    cases back with
    | nil => rfl
    | cons byte more => simp [(stops byte rfl).2]
  cases text with
  | nil =>
    cases back with
    | nil => rfl
    | cons byte more => simp [refTail, (stops byte rfl).1]
  | cons sign rest =>
    have front : (rest ++ back).takeWhile isRefByte = rest.takeWhile isRefByte := by
      rw [List.takeWhile_append]
      split_ifs with all
      · rw [taken, List.append_nil]
        exact ((List.takeWhile_prefix isRefByte).eq_of_length all).symm
      · rfl
    have tail : (rest ++ back).dropWhile isRefByte = rest.dropWhile isRefByte ++ back := by
      rw [List.dropWhile_append, dropped]
      split_ifs with empty
      · rw [List.isEmpty_iff.mp empty]
        rfl
      · rfl
    simp only [List.cons_append, refTail, front, tail]
    split_ifs <;> rfl

/-- What follows a reference is the end of the text. -/
theorem refTail_suffix {text tail : Text} (refers : refTail text = some tail) : tail <:+ text := by
  cases text with
  | nil => contradiction
  | cons sign rest =>
    rw [refTail] at refers
    split_ifs at refers
    obtain rfl := Option.some.inj refers
    exact (List.dropWhile_suffix isRefByte).trans (List.suffix_cons sign rest)

/-- A reference behind an arrow ends before the next arrow. -/
theorem refTail_intercalate (piece : Text) (pieces : List Text) :
    refTail (arrow.intercalate (piece :: pieces)) =
      (refTail piece).map fun tail => arrow.intercalate (tail :: pieces) := by
  cases pieces with
  | nil => simp
  | cons next pieces =>
    have stops : ∀ byte ∈ (arrow ++ arrow.intercalate (next :: pieces)).head?,
        byte ≠ 64 ∧ isRefByte byte = false := by
      intro byte head
      rw [List.head?_append_of_ne_nil _ arrow_ne_nil] at head
      obtain rfl := Option.some.inj head
      decide
    rw [List.intercalate_cons_cons, List.append_assoc, refTail_append stops]
    simp [List.intercalate_cons_cons]

/-- Pieces that are alike have a reference at the same time. -/
theorem Alike.refTail {piece other : Text} (alike : Alike piece other) :
    (refTail piece = none ∧ refTail other = none) ∨
      ∃ tail tail', refTail piece = some tail ∧ refTail other = some tail' ∧ Padded tail tail' := by
  obtain ⟨front, front', core, back, back', one, two, three, four, rfl, rfl, same⟩ := alike
  have stops : ∀ back : Text, Blank back → ∀ byte ∈ back.head?,
      byte ≠ 64 ∧ isRefByte byte = false := by
    intro back blanks byte head
    have space := blanks.spaces byte (List.mem_of_mem_head? head)
    constructor
    · rintro rfl
      exact absurd space (by decide)
    · by_contra named
      rw [refByte_visible (by simpa using named)] at space
      contradiction
  have moved : ∀ front rest : Text, Blank front → (front ≠ [] ∨ rest.head? ≠ some 64) →
      Ssl.refTail (front ++ rest) = none := by
    intro front rest blanks apart
    cases front with
    | cons byte more =>
      have sign := (stops _ blanks byte rfl).1
      simp [Ssl.refTail, sign]
    | nil =>
      cases rest with
      | nil => rfl
      | cons byte more =>
        have sign : byte ≠ 64 := by
          rintro rfl
          simp at apart
        simp [Ssl.refTail, sign]
  have behind : ∀ back : Text, Blank back → core.head? ≠ some 64 →
      (core ++ back).head? ≠ some 64 := by
    intro back blanks plain
    cases core with
    | nil => exact blanks.head (by decide)
    | cons byte more => exact plain
  rcases same with rfl | plain
  · by_cases empty : front = []
    · rw [empty, List.nil_append, List.nil_append, refTail_append (stops back three),
        refTail_append (stops back' four)]
      cases Ssl.refTail core with
      | none => exact Or.inl ⟨rfl, rfl⟩
      | some tail => exact Or.inr ⟨_, _, rfl, rfl, tail, back, back', three, four, rfl, rfl⟩
    · exact Or.inl ⟨moved front _ one (Or.inl empty), moved front _ two (Or.inl empty)⟩
  · exact Or.inl ⟨moved front _ one (Or.inr (behind back three plain)),
      moved front' _ two (Or.inr (behind back' four plain))⟩

/-- Blanks behind a piece are removed with the other white space. -/
theorem Padded.trimEnd {piece other : Text} (padded : Padded piece other) {test : UInt8 → Bool}
    (all : ∀ byte, blank byte = true → test byte = true) :
    piece.rdropWhile test = other.rdropWhile test := by
  obtain ⟨core, back, back', blanks, blanks', rfl, rfl⟩ := padded
  rw [rdropWhile_append_passing fun byte inside => all byte (blanks byte inside),
    rdropWhile_append_passing fun byte inside => all byte (blanks' byte inside)]

/-- Pieces that are alike stay alike when their ends are trimmed and followed by the same. -/
theorem Alike.trimEnd {piece other : Text} (alike : Alike piece other) {test : UInt8 → Bool}
    (all : ∀ byte, blank byte = true → test byte = true) {more more' : Text}
    (padded : Padded more more') :
    Alike (piece.rdropWhile test ++ more) (other.rdropWhile test ++ more') := by
  obtain ⟨front, front', core, back, back', one, two, three, four, rfl, rfl, same⟩ := alike
  have trims : ∀ front back : Text, Blank front → Blank back →
      (front ++ (core ++ back)).rdropWhile test =
        if core.rdropWhile test = [] then [] else front ++ core.rdropWhile test := by
    intro front back blanks blanksBack
    rw [← List.append_assoc,
      rdropWhile_append_passing fun byte inside => all byte (blanksBack byte inside)]
    split_ifs with empty
    · rw [rdropWhile_append_passing (List.rdropWhile_eq_nil_iff.mp empty)]
      exact List.rdropWhile_eq_nil_iff.mpr fun byte inside => all byte (blanks byte inside)
    · exact rdropWhile_append_some empty front
  rw [trims front back one three, trims front' back' two four]
  split_ifs with empty
  · exact padded.alike
  · obtain ⟨core', tail, tail', blanks, blanks', rfl, rfl⟩ := padded
    refine ⟨front, front', core.rdropWhile test ++ core', tail, tail', one, two, blanks, blanks',
      by simp, by simp, ?_⟩
    have head : (core.rdropWhile test ++ core').head? = core.head? := by
      obtain ⟨removed, split⟩ := core.rdropWhile_prefix test
      rw [List.head?_append_of_ne_nil _ empty]
      conv_rhs => rw [← split, List.head?_append_of_ne_nil _ empty]
    rw [head]
    exact same

/-- A text in front of pieces belongs to the first of them. -/
theorem append_intercalate (front piece : Text) (pieces : List Text) :
    front ++ arrow.intercalate (piece :: pieces) =
    arrow.intercalate ((front ++ piece) :: pieces) := by
  cases pieces with
  | nil => simp
  | cons next more => simp [List.intercalate_cons_cons]

/-- The removal of references leaves the first piece, or joins it to what follows the references. -/
theorem withoutRefs_pieces {pieces pieces' : List Text} (alike : List.Forall₂ Alike pieces pieces')
    (free : ∀ piece ∈ pieces, ¬ arrow <:+: piece) (free' : ∀ piece ∈ pieces', ¬ arrow <:+: piece)
    {first first' : Text} (own : ¬ arrow <:+: first) (own' : ¬ arrow <:+: first') :
    ∃ rest rest', List.Forall₂ Alike rest rest' ∧
      ((withoutRefs (arrow.intercalate (first :: pieces)) = arrow.intercalate (first :: rest) ∧
        withoutRefs (arrow.intercalate (first' :: pieces')) = arrow.intercalate (first' :: rest')) ∨
      ∃ more more', Padded more more' ∧
        withoutRefs (arrow.intercalate (first :: pieces)) =
          arrow.intercalate ((first.rdropWhile isSpace ++ more) :: rest) ∧
        withoutRefs (arrow.intercalate (first' :: pieces')) =
          arrow.intercalate ((first'.rdropWhile isSpace ++ more') :: rest')) := by
  induction alike generalizing first first' with
  | nil =>
    refine ⟨[], [], .nil, Or.inl ⟨?_, ?_⟩⟩
    · rw [List.intercalate_singleton, withoutRefs_piece own]
    · rw [List.intercalate_singleton, withoutRefs_piece own']
  | @cons next next' pieces pieces' pair _ ih =>
    obtain ⟨nextFree, others⟩ := List.forall_mem_cons.mp free
    obtain ⟨nextFree', others'⟩ := List.forall_mem_cons.mp free'
    rw [List.intercalate_cons_cons, List.intercalate_cons_cons, List.append_assoc,
      List.append_assoc]
    rcases pair.refTail with ⟨plain, plain'⟩ | ⟨tail, tail', refers, refers', padded⟩
    · have none_there : refTail (arrow.intercalate (next :: pieces)) = none := by
        rw [refTail_intercalate, plain]
        rfl
      have none_there' : refTail (arrow.intercalate (next' :: pieces')) = none := by
        rw [refTail_intercalate, plain']
        rfl
      rw [withoutRefs_arrow own none_there, withoutRefs_arrow own' none_there']
      obtain ⟨rest, rest', related, ⟨one, two⟩ | ⟨more, more', padded, one, two⟩⟩ :=
        ih others others' nextFree nextFree'
      · refine ⟨next :: rest, next' :: rest', .cons pair related, Or.inl ⟨?_, ?_⟩⟩
        · rw [one, List.intercalate_cons_cons, List.append_assoc]
        · rw [two, List.intercalate_cons_cons, List.append_assoc]
      · refine ⟨_ :: rest, _ :: rest',
          .cons (pair.trimEnd (fun _ => isSpace_of_blank) padded) related, Or.inl ⟨?_, ?_⟩⟩
        · rw [one, List.intercalate_cons_cons, List.append_assoc]
        · rw [two, List.intercalate_cons_cons, List.append_assoc]
    · have there : refTail (arrow.intercalate (next :: pieces)) =
          some (arrow.intercalate (tail :: pieces)) := by
        rw [refTail_intercalate, refers]
        rfl
      have there' : refTail (arrow.intercalate (next' :: pieces')) =
          some (arrow.intercalate (tail' :: pieces')) := by
        rw [refTail_intercalate, refers']
        rfl
      have tailFree : ¬ arrow <:+: tail := fun inside =>
        nextFree (inside.trans (refTail_suffix refers).isInfix)
      have tailFree' : ¬ arrow <:+: tail' := fun inside =>
        nextFree' (inside.trans (refTail_suffix refers').isInfix)
      rw [withoutRefs_refers own there, withoutRefs_refers own' there']
      obtain ⟨rest, rest', related, ⟨one, two⟩ | ⟨more, more', behind, one, two⟩⟩ :=
        ih others others' tailFree tailFree'
      · refine ⟨rest, rest', related, Or.inr ⟨tail, tail', padded, ?_, ?_⟩⟩
        · rw [one, append_intercalate]
        · rw [two, append_intercalate]
      · have same : tail.rdropWhile isSpace = tail'.rdropWhile isSpace :=
          padded.trimEnd fun _ => isSpace_of_blank
        refine ⟨rest, rest', related, Or.inr ⟨tail.rdropWhile isSpace ++ more,
          tail'.rdropWhile isSpace ++ more', ?_, ?_, ?_⟩⟩
        · rw [same]
          exact behind.append _
        · rw [one, append_intercalate]
        · rw [two, append_intercalate]

/-- Removing the references keeps texts respaced. -/
theorem Respaced.withoutRefs {text other : Text} (respaced : Respaced text other) :
    Respaced (withoutRefs text) (withoutRefs other) := by
  obtain ⟨first, first', pieces, pieces', split, split', padded, alike⟩ := respaced.splitOn
  have free := not_infix_splitOn arrow_ne_nil text
  have free' := not_infix_splitOn arrow_ne_nil other
  rw [split] at free
  rw [split'] at free'
  obtain ⟨own, others⟩ := List.forall_mem_cons.mp free
  obtain ⟨own', others'⟩ := List.forall_mem_cons.mp free'
  have whole := intercalate_splitOn arrow_ne_nil text
  have whole' := intercalate_splitOn arrow_ne_nil other
  rw [split] at whole
  rw [split'] at whole'
  obtain ⟨rest, rest', related, ⟨one, two⟩ | ⟨more, more', behind, one, two⟩⟩ :=
    withoutRefs_pieces alike others others' own own'
  · rw [← whole, ← whole', one, two]
    exact ⟨first, first', rest, rest', rfl, rfl, padded, related⟩
  · have same : first.rdropWhile isSpace = first'.rdropWhile isSpace :=
      padded.trimEnd fun _ => isSpace_of_blank
    rw [← whole, ← whole', one, two, same]
    exact ⟨_, _, rest, rest', rfl, rfl, behind.append _, related⟩

/-! ## Trimming -/

/-- Trimming the end keeps texts respaced. -/
theorem Respaced.rdropWhile {test : UInt8 → Bool}
    (all : ∀ byte, blank byte = true → test byte = true) (fails : ∀ byte ∈ arrow, test byte = false)
    {text other : Text} (respaced : Respaced text other) :
    Respaced (text.rdropWhile test) (other.rdropWhile test) := by
  obtain ⟨first, first', pieces, pieces', rfl, rfl, padded, alike⟩ := respaced
  cases alike with
  | nil =>
    rw [List.intercalate_singleton, List.intercalate_singleton, padded.trimEnd all]
    exact ⟨_, _, [], [], (List.intercalate_singleton).symm, (List.intercalate_singleton).symm,
      Padded.refl _, .nil⟩
  | @cons next next' pieces pieces' pair others =>
    have ends : ∃ rest rest', List.Forall₂ Alike rest rest' ∧ rest ≠ [] ∧ rest' ≠ [] ∧
        (arrow.intercalate (next :: pieces)).rdropWhile test = arrow.intercalate rest ∧
        (arrow.intercalate (next' :: pieces')).rdropWhile test = arrow.intercalate rest' := by
      clear padded
      induction others generalizing next next' with
      | nil =>
        have trimmed := pair.trimEnd all (Padded.refl [])
        rw [List.append_nil, List.append_nil] at trimmed
        exact ⟨[_], [_], .cons trimmed .nil, by simp, by simp, by simp, by simp⟩
      | @cons later later' pieces pieces' behind _ ih =>
        obtain ⟨rest, rest', related, some_piece, some_piece', one, two⟩ := ih behind
        refine ⟨next :: rest, next' :: rest', .cons pair related, by simp, by simp, ?_, ?_⟩
        · rw [List.intercalate_cons_cons, List.append_assoc, rdropWhile_arrow fails, one,
            List.intercalate_cons_of_ne_nil some_piece, List.append_assoc]
        · rw [List.intercalate_cons_cons, List.append_assoc, rdropWhile_arrow fails, two,
            List.intercalate_cons_of_ne_nil some_piece', List.append_assoc]
    obtain ⟨rest, rest', related, some_piece, some_piece', one, two⟩ := ends
    refine ⟨first, first', rest, rest', ?_, ?_, padded, related⟩
    · rw [List.intercalate_cons_cons, List.append_assoc, rdropWhile_arrow fails, one,
        List.intercalate_cons_of_ne_nil some_piece, List.append_assoc]
    · rw [List.intercalate_cons_cons, List.append_assoc, rdropWhile_arrow fails, two,
        List.intercalate_cons_of_ne_nil some_piece', List.append_assoc]

/-- Blanks in front of a piece are removed from the text. -/
theorem dropWhile_intercalate (piece : Text) (pieces : List Text) :
    (arrow.intercalate (piece :: pieces)).dropWhile blank =
      arrow.intercalate (piece.dropWhile blank :: pieces) := by
  cases pieces with
  | nil => simp
  | cons next pieces =>
    have stays : (arrow ++ arrow.intercalate (next :: pieces)).dropWhile blank =
        arrow ++ arrow.intercalate (next :: pieces) := rfl
    rw [List.intercalate_cons_cons, List.intercalate_cons_cons, List.append_assoc,
      List.append_assoc, List.dropWhile_append]
    split_ifs with empty
    · rw [stays, List.isEmpty_iff.mp empty]
      rfl
    · rfl

/-- Trimming the start keeps texts respaced. -/
theorem Respaced.dropWhile {text other : Text} (respaced : Respaced text other) :
    Respaced (text.dropWhile blank) (other.dropWhile blank) := by
  obtain ⟨first, first', pieces, pieces', rfl, rfl, padded, alike⟩ := respaced
  rw [dropWhile_intercalate, dropWhile_intercalate]
  refine ⟨_, _, pieces, pieces', rfl, rfl, ?_, alike⟩
  obtain ⟨core, back, back', blanks, blanks', rfl, rfl⟩ := padded
  rw [List.dropWhile_append, List.dropWhile_append]
  split_ifs
  · rw [List.dropWhile_eq_nil_iff.mpr blanks, List.dropWhile_eq_nil_iff.mpr blanks']
    exact Padded.refl _
  · exact ⟨core.dropWhile blank, back, back', blanks, blanks', rfl, rfl⟩

/-- Trimming an entity keeps texts respaced. -/
theorem Respaced.trimEntity {text other : Text} (respaced : Respaced text other) :
    Respaced (trimEntity text) (trimEntity other) := by
  have fails : ∀ byte ∈ arrow, blank byte = false := forall_bytes (by decide)
  exact respaced.dropWhile.rdropWhile (fun _ blanks => blanks) fails

/-! ## Cutting -/

/-- A relation of pieces that are cut at a byte at the same time, and stay related in front of
it. -/
def CutAlike (byte : UInt8) (related : Text → Text → Prop) : Prop :=
  ∀ piece other, related piece other → (byte ∉ piece ∧ byte ∉ other) ∨
    ∃ front front' back back', piece = front ++ byte :: back ∧ other = front' ++ byte :: back' ∧
      byte ∉ front ∧ byte ∉ front' ∧ related front front' ∧ Padded back back'

section Cut

variable {byte : UInt8} (visible : blank byte = false)
include visible

/-- A byte that is no blank is not among blanks. -/
theorem Blank.not_mem {text : Text} (blanks : Blank text) : byte ∉ text := by
  intro inside
  rw [blanks byte inside] at visible
  contradiction

/-- Pieces that are the same up to blanks behind them are cut at the same byte. -/
theorem cut_padded : CutAlike byte Padded := by
  rintro piece other ⟨core, back, back', blanks, blanks', rfl, rfl⟩
  have absent := blanks.not_mem visible
  have absent' := blanks'.not_mem visible
  by_cases inside : byte ∈ core
  · obtain ⟨front, rest, rfl, first⟩ := List.eq_append_cons_of_mem inside
    right
    refine ⟨front, front, rest ++ back, rest ++ back', by simp, by simp, first, first,
      Padded.refl front, ?_⟩
    exact ⟨rest, back, back', blanks, blanks', rfl, rfl⟩
  · left
    simp [inside, absent, absent']

/-- Pieces that are alike are cut at the same byte. -/
theorem cut_alike : CutAlike byte Alike := by
  rintro piece other ⟨front, front', core, back, back', one, two, three, four, rfl, rfl, same⟩
  have absent := one.not_mem visible
  have absent' := two.not_mem visible
  have related : Padded (core ++ back) (core ++ back') := ⟨core, back, back', three, four, rfl, rfl⟩
  by_cases inside : byte ∈ core
  · obtain ⟨begin_, rest, rfl, first⟩ := List.eq_append_cons_of_mem inside
    right
    refine ⟨front ++ begin_, front' ++ begin_, rest ++ back, rest ++ back', by simp, by simp,
      by simp [absent, first], by simp [absent', first], ?_, ?_⟩
    · refine ⟨front, front', begin_, [], [], one, two, blank_nil, blank_nil, by simp, by simp, ?_⟩
      rcases same with same | plain
      · exact Or.inl same
      · right
        cases begin_ with
        | nil => simp
        | cons head more => exact plain
    · exact ⟨rest, back, back', three, four, rfl, rfl⟩
  · left
    have ends := three.not_mem visible
    have ends' := four.not_mem visible
    simp [inside, absent, absent', ends, ends']

/-- Related first pieces and alike pieces behind them are cut at the same byte. -/
theorem cut_pieces (apart : byte ∉ arrow) {pieces pieces' : List Text}
    (alike : List.Forall₂ Alike pieces pieces') {related : Text → Text → Prop}
    (cuts : CutAlike byte related) {first first' : Text} (pair : related first first') :
    (cutAt [byte] (arrow.intercalate (first :: pieces)) = none ∧
      cutAt [byte] (arrow.intercalate (first' :: pieces')) = none) ∨
    ∃ head head' begin_ begin' tail tail' ends ends',
      cutAt [byte] (arrow.intercalate (first :: pieces)) =
        some (arrow.intercalate (head :: begin_), arrow.intercalate (tail :: ends)) ∧
      cutAt [byte] (arrow.intercalate (first' :: pieces')) =
        some (arrow.intercalate (head' :: begin'), arrow.intercalate (tail' :: ends')) ∧
      related head head' ∧ List.Forall₂ Alike begin_ begin' ∧ Padded tail tail' ∧
      List.Forall₂ Alike ends ends' := by
  have here : ∀ (front back : Text) (pieces : List Text), byte ∉ front →
      cutAt [byte] (arrow.intercalate ((front ++ byte :: back) :: pieces)) =
        some (arrow.intercalate [front], arrow.intercalate (back :: pieces)) := by
    intro front back pieces absent
    have starts := cutAt_here (List.cons_ne_nil byte []) (arrow.intercalate (back :: pieces))
    rw [List.singleton_append] at starts
    rw [← append_intercalate, List.intercalate_cons_cons_left, cutAt_byte absent, starts]
    simp
  have later : ∀ (piece rest : Text), byte ∉ piece →
      cutAt [byte] (piece ++ (arrow ++ rest)) =
        (cutAt [byte] rest).map fun parts => (piece ++ (arrow ++ parts.1), parts.2) := by
    intro piece rest absent
    rw [cutAt_byte absent, cutAt_byte apart, Option.map_map]
    rfl
  induction alike generalizing first first' related with
  | nil =>
    rcases cuts first first' pair with ⟨absent, absent'⟩ |
      ⟨front, front', back, back', rfl, rfl, absent, absent', kept, padded⟩
    · left
      constructor
      · rw [List.intercalate_singleton, ← List.append_nil first, cutAt_byte absent]
        rfl
      · rw [List.intercalate_singleton, ← List.append_nil first', cutAt_byte absent']
        rfl
    · right
      exact ⟨front, front', [], [], back, back', [], [], here front back [] absent,
        here front' back' [] absent', kept, .nil, padded, .nil⟩
  | @cons next next' pieces pieces' pairNext others ih =>
    rcases cuts first first' pair with ⟨absent, absent'⟩ |
      ⟨front, front', back, back', rfl, rfl, absent, absent', kept, padded⟩
    · rw [List.intercalate_cons_cons, List.intercalate_cons_cons, List.append_assoc,
        List.append_assoc, later first _ absent, later first' _ absent']
      rcases ih (cut_alike visible) pairNext with ⟨missing, missing'⟩ |
        ⟨head, head', begin_, begin', tail, tail', ends, ends', one, two, kept, fronts,
          padded, backs⟩
      · left
        rw [missing, missing']
        exact ⟨rfl, rfl⟩
      · right
        refine ⟨first, first', head :: begin_, head' :: begin', tail, tail', ends, ends',
          ?_, ?_, pair,
          .cons kept fronts, padded, backs⟩
        · rw [one, List.intercalate_cons_cons, List.append_assoc]
          rfl
        · rw [two, List.intercalate_cons_cons, List.append_assoc]
          rfl
    · right
      exact ⟨front, front', [], [], back, back', next :: pieces, next' :: pieces',
        here front back _ absent, here front' back' _ absent', kept, .nil, padded,
        .cons pairNext others⟩

/-- Respaced texts are cut at the same byte into respaced texts. -/
theorem Respaced.cutAt (apart : byte ∉ arrow) {text other : Text} (respaced : Respaced text other) :
    (cutAt [byte] text = none ∧ cutAt [byte] other = none) ∨
    ∃ front front' back back', cutAt [byte] text = some (front, back) ∧
      cutAt [byte] other = some (front', back') ∧ Respaced front front' ∧ Respaced back back' := by
  obtain ⟨first, first', pieces, pieces', rfl, rfl, padded, alike⟩ := respaced
  rcases cut_pieces visible apart alike (cut_padded visible) padded with missing |
    ⟨head, head', begin_, begin', tail, tail', ends, ends', one, two, kept, fronts, behind, backs⟩
  · exact Or.inl missing
  · exact Or.inr ⟨_, _, _, _, one, two, ⟨head, head', begin_, begin', rfl, rfl, kept, fronts⟩,
      ⟨tail, tail', ends, ends', rfl, rfl, behind, backs⟩⟩

end Cut

/-! ## From a line to its triplets -/

/-- An arrow between respaced texts. -/
theorem Respaced.join {front front' back back' : Text} (one : Respaced front front')
    (two : Respaced back back') : Respaced (front ++ arrow ++ back) (front' ++ arrow ++ back') := by
  obtain ⟨first, first', pieces, pieces', rfl, rfl, padded, alike⟩ := one
  obtain ⟨next, next', others, others', rfl, rfl, behind, later⟩ := two
  have joined : ∀ (first next : Text) (pieces others : List Text),
      arrow.intercalate (first :: pieces) ++ arrow ++ arrow.intercalate (next :: others) =
        arrow.intercalate (first :: (pieces ++ next :: others)) := by
    intro first next pieces others
    induction pieces generalizing first with
    | nil => simp [List.intercalate_cons_cons]
    | cons piece pieces ih =>
      rw [List.intercalate_cons_cons, List.cons_append, List.intercalate_cons_cons, ← ih]
      simp
  rw [joined, joined]
  exact ⟨first, first', _, _, rfl, rfl, padded, List.rel_append alike (.cons behind.alike later)⟩

/-- Removing the domain keeps texts respaced. -/
theorem Respaced.undomained {text other : Text} (respaced : Respaced text other) :
    Respaced (undomained text) (undomained other) := by
  have head : text.head? = some 91 ↔ other.head? = some 91 := by
    have bracket : ∀ (core back : Text) (pieces : List Text), Blank back →
        ((arrow.intercalate ((core ++ back) :: pieces)).head? = some 91 ↔
          core.head? = some 91) := by
      intro core back pieces blanks
      cases core with
      | cons byte more => rw [List.cons_append, List.intercalate_cons_cons_left]; rfl
      | nil =>
        cases back with
        | cons byte more =>
          have other := blanks.head (show blank 91 = false from rfl)
          rw [List.nil_append, List.intercalate_cons_cons_left]
          simpa using other
        | nil =>
          cases pieces with
          | nil => simp
          | cons next more =>
            rw [List.nil_append, List.intercalate_cons_cons, List.nil_append,
              List.head?_append_of_ne_nil _ arrow_ne_nil]
            decide
    obtain ⟨first, first', pieces, pieces', rfl, rfl,
        ⟨core, back, back', blanks, blanks', rfl, rfl⟩,
      alike⟩ := respaced
    rw [bracket core back pieces blanks, bracket core back' pieces' blanks']
  have closing : utf8 "]" = [93] := rfl
  unfold Ssl.undomained
  rw [closing]
  by_cases bracket : text.head? = some 91
  · rw [if_pos bracket, if_pos (head.mp bracket)]
    have visible : blank 93 = false := rfl
    rcases respaced.cutAt visible (by decide) with ⟨missing, missing'⟩ |
      ⟨front, front', back, back', one, two, _, behind⟩
    · rw [missing, missing']
      exact respaced
    · rw [one, two]
      exact behind.trimEntity
  · rw [if_neg bracket, if_neg (mt head.mpr bracket)]
    exact respaced

/-- An arrow is inside of both texts or of neither. -/
theorem Respaced.arrow_isSome {text other : Text} (respaced : Respaced text other) :
    (Bytes.cutAt arrow text).isSome = (Bytes.cutAt arrow other).isSome := by
  obtain ⟨first, first', pieces, pieces', split, split', _, alike⟩ := respaced.splitOn
  have several : ∀ {text first : Text} {pieces : List Text},
      Bytes.splitOn arrow text = first :: pieces →
        ((Bytes.cutAt arrow text).isSome = true ↔ pieces ≠ []) := by
    intro text first pieces split
    cases cut : Bytes.cutAt arrow text with
    | none =>
      rw [splitOn_absent (cutAt_eq_none.mp cut)] at split
      rw [← (List.cons.inj split).2]
      simp
    | some parts =>
      rw [splitOn_cut arrow_ne_nil cut] at split
      have later := splitOn_ne_nil arrow parts.2
      rw [(List.cons.inj split).2] at later
      simp [later]
  have empty : pieces ≠ [] ↔ pieces' ≠ [] := by
    cases alike with
    | nil => exact Iff.rfl
    | cons => simp
  exact Bool.eq_iff_iff.mpr ((several split).trans (empty.trans (several split').symm))

/-- A chain with an arrow for the sign of a comparison. -/
def compared (first : Text) : Text :=
  if (Bytes.cutAt arrow first).isSome then first
  else (Bytes.cutAt [62] first).elim first fun parts => parts.1 ++ arrow ++ parts.2

/-- A choice is its first alternative with the arrow of its comparison. -/
theorem chosen_eq (chain : Text) :
    chosen chain = compared ((Bytes.cutAt [124] chain).elim chain Prod.fst) := by
  have alternatives : utf8 "|" = [124] := rfl
  have greater : utf8 ">" = [62] := rfl
  unfold chosen compared
  rw [alternatives, greater]
  cases Bytes.cutAt [124] chain with
  | none =>
    dsimp only [Option.elim_none]
    cases Bytes.cutAt [62] chain <;> rfl
  | some parts =>
    dsimp only [Option.elim_some]
    cases Bytes.cutAt [62] parts.1 <;> rfl

/-- An arrow for the sign of a comparison keeps texts respaced. -/
theorem Respaced.compared {first first' : Text} (firsts : Respaced first first') :
    Respaced (compared first) (compared first') := by
  have greater : blank 62 = false := rfl
  unfold Ssl.compared
  rw [firsts.arrow_isSome]
  split_ifs
  · exact firsts
  · rcases firsts.cutAt greater (by decide) with ⟨missing, missing'⟩ |
      ⟨front, front', back, back', one, two, fronts, backs⟩
    · rw [missing, missing']
      exact firsts
    · rw [one, two]
      exact fronts.join backs

/-- Removing the alternatives of a choice keeps texts respaced. -/
theorem Respaced.chosen {text other : Text} (respaced : Respaced text other) :
    Respaced (chosen text) (chosen other) := by
  have bar : blank 124 = false := rfl
  rw [chosen_eq, chosen_eq]
  apply Respaced.compared
  rcases respaced.cutAt bar (by decide) with ⟨missing, missing'⟩ |
    ⟨front, front', back, back', one, two, fronts, _⟩
  · rw [missing, missing']
    exact respaced
  · rw [one, two]
    exact fronts

/-- `A:v,a` without the white space before it. -/
def affectBody : Pattern UInt8 := all [text "A:", sign, decimal, text ",", decimal]

/-- `F:FLAG` without the white space before it. -/
def flagBody : Pattern UInt8 := seq (text "F:") flagNames

/-- The annotations are removed kind by kind. -/
theorem stripAnnotations_eq (content : Text) :
    stripAnnotations content = (withoutRefs (replaceAll (behind isSpace flagBody) []
      (replaceAll (behind isSpace affectBody) [] content))).rdropWhile isSpace := rfl

/-- A number reads digits and a dot. -/
theorem reads_decimal {property : UInt8 → Prop}
    (digits : ∀ byte, isDigit byte = true → property byte) (dot : property 46) :
    decimal.Reads property := by
  have point : ∀ byte ∈ utf8 ".", property byte := by
    intro byte inside
    rw [List.mem_singleton.mp (show byte ∈ [46] from inside)]
    exact dot
  exact ⟨⟨digits, digits⟩, ⟨reads_literal point, trivial⟩, digits⟩

/-- A signed pair of numbers reads what its parts read. -/
theorem reads_affectBody {property : UInt8 → Prop}
    (digits : ∀ byte, isDigit byte = true → property byte)
    (others : ∀ byte ∈ utf8 "A:+-.,", property byte) : affectBody.Reads property := by
  have dot : property 46 := others 46 (by decide)
  refine ⟨reads_literal fun byte inside => others byte ?_, ⟨fun byte passes => ?_, trivial⟩,
    reads_decimal digits dot, reads_literal fun byte inside => others byte ?_,
    reads_decimal digits dot⟩
  · revert byte
    exact forall_bytes (by decide)
  · simp only [Bool.or_eq_true, beq_iff_eq] at passes
    rcases passes with rfl | rfl
    · exact others 43 (by decide)
    · exact others 45 (by decide)
  · revert byte
    exact forall_bytes (by decide)

/-- A pair of numbers stands behind white space. -/
theorem apart_affectBody : Apart isSpace affectBody where
  free := rfl
  reading := rfl
  proper := rfl
  reads := reads_affectBody (fun _ => digit_visible) (forall_bytes (by decide))

/-- A list of flags stands behind white space. -/
theorem apart_flagBody : Apart isSpace flagBody where
  free := rfl
  reading := rfl
  proper := rfl
  reads := ⟨reads_literal (forall_bytes (by decide)), fun _ => flagByte_visible,
    fun _ => flagByte_visible⟩

/-- Entities are the same when blanks are added around a piece. -/
theorem Alike.chainEntities {piece other : Text} (alike : Alike piece other) :
    chainEntities piece = chainEntities other := by
  unfold Ssl.chainEntities
  rw [alike.trimEntity_eq]

/-- Pieces that are alike in order have the same entities. -/
theorem map_chainEntities {pieces pieces' : List Text} (alike : List.Forall₂ Alike pieces pieces') :
    pieces.map chainEntities = pieces'.map chainEntities := by
  induction alike with
  | nil => rfl
  | cons pair _ ih => rw [List.map_cons, List.map_cons, pair.chainEntities, ih]

/-- The removal of annotations keeps texts respaced. -/
theorem Respaced.stripAnnotations {text other : Text} (respaced : Respaced text other) :
    Respaced (stripAnnotations text) (stripAnnotations other) := by
  have high : ∀ byte ∈ arrow, ¬ byte < 128 := forall_bytes (by decide)
  have unread : ∀ {pattern : Pattern UInt8}, pattern.Reads (· < 128) → ∀ byte ∈ arrow,
      (behind isSpace pattern).Reads (· ≠ byte) := by
    intro pattern reads byte inside
    have apart : ∀ read : UInt8, read < 128 → read ≠ byte := by
      rintro read small rfl
      exact high read inside small
    exact ⟨fun read passes => apart read (small_space passes), reads.mono apart⟩
  have affect : affectBody.Reads (· < 128) :=
    reads_affectBody (fun byte digit => by grind [isDigit]) (forall_bytes (by decide))
  have flag : flagBody.Reads (· < 128) := by
    have small : ∀ byte, (isUpper byte || byte == 95 || byte == 44) = true → byte < 128 := by
      intro byte named
      grind [isUpper]
    exact ⟨reads_literal (forall_bytes (by decide)), small, small⟩
  rw [stripAnnotations_eq, stripAnnotations_eq]
  have affectless := respaced.replaceAll apart_affectBody (unread affect)
  have flagless := affectless.replaceAll apart_flagBody (unread flag)
  exact flagless.withoutRefs.rdropWhile (fun _ => isSpace_of_blank) arrow_visible

/-- Respaced lines have the same triplets. -/
theorem lineTriplets_respaced {type line other : Text}
    (verbatim : utf8 "[ε]" <+: trimEntity line ↔ utf8 "[ε]" <+: trimEntity other)
    (respaced : Respaced (normalizeArrows (trimEntity line)) (normalizeArrows (trimEntity other))) :
    lineTriplets type line = lineTriplets type other := by
  have chain := respaced.stripAnnotations.trimEntity.undomained
  have bar : blank 124 = false := rfl
  have choice : (cutAt (utf8 "|") (undomained (trimEntity (stripAnnotations
      (normalizeArrows (trimEntity line)))))).isSome = (cutAt (utf8 "|") (undomained (trimEntity
      (stripAnnotations (normalizeArrows (trimEntity other)))))).isSome := by
    rcases chain.cutAt bar (by decide) with ⟨missing, missing'⟩ |
      ⟨front, front', back, back', one, two, _⟩
    · exact congrArg Option.isSome (missing.trans missing'.symm)
    · exact (congrArg Option.isSome one).trans (congrArg Option.isSome two).symm
  have same : predicateOf type line = predicateOf type other := by
    unfold predicateOf
    dsimp only
    rw [choice]
  have left : Respaced (chainOf type line) (chainOf type other) := by
    unfold chainOf
    dsimp only
    rw [choice]
    split_ifs
    · exact chain.chosen
    · exact chain
  have nodes : (splitOn arrow (chainOf type line)).map chainEntities =
      (splitOn arrow (chainOf type other)).map chainEntities := by
    obtain ⟨first, first', pieces, pieces', split, split', padded, alike⟩ := left.splitOn
    rw [split, split']
    exact map_chainEntities (.cons padded.alike alike)
  rw [lineTriplets_eq, lineTriplets_eq, left.arrow_isSome, nodes, same]
  simp only [verbatim]

end Chitta.Ssl
