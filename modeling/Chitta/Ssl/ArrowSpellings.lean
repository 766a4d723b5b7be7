import Chitta.Ssl.Compositional
import Chitta.Ssl.Respacing

/-!
# The spellings of an arrow

A chain may be written with arrows, with two kinds of ASCII arrows, and with the name of an arrow in
formulas, whose signs and blanks belong to the spelling. Normalising the arrows of a written chain
leaves its nodes up to blanks, so that every spelling yields the same triplets.
-/
namespace Chitta.Ssl

open Bytes Regex Regex.Pattern

/-! ## Written chains -/

/-- White space between a sign of a formula and a name. -/
def Gap : Type := {gap : Text // ∀ byte ∈ gap, isSpace byte = true}

/-- A spelling of an arrow. -/
inductive Spelling where
  /-- `→`. -/
  | arrow
  /-- `->`. -/
  | dash
  /-- `=>`. -/
  | double
  /-- `\rightarrow`, maybe with a sign before it and one behind it. -/
  | latex (before after : Option Gap)

/-- A sign before a name. -/
def opened : Option Gap → Text
  | none => []
  | some gap => utf8 "$" ++ gap.1

/-- A sign behind a name. -/
def closed : Option Gap → Text
  | none => []
  | some gap => gap.1 ++ utf8 "$"

/-- The text of a spelling. -/
def Spelling.text : Spelling → Text
  | arrow => Ssl.arrow
  | dash => utf8 "->"
  | double => utf8 "=>"
  | latex before after => opened before ++ (latexName ++ closed after)

/-- A chain as it is written. -/
def written (first : Text) : List (Spelling × Text) → Text
  | [] => first
  | (spelling, node) :: rest => first ++ (spelling.text ++ written node rest)

/-- No spelling of an arrow is in a node. -/
structure Unspelled (node : Text) : Prop where
  /-- No arrow. -/
  arrow : ¬ Ssl.arrow <:+: node
  /-- No `->`. -/
  dash : ¬ utf8 "->" <:+: node
  /-- No `=>`. -/
  double : ¬ utf8 "=>" <:+: node
  /-- No `\rightarrow`. -/
  name : ¬ latexName <:+: node

/-- Behind a name a node begins with blanks and then a byte that is neither white space nor the
sign of a formula; the sign of a reference has no blanks before it. -/
def Opens (node : Text) : Prop :=
  ∃ front byte rest, node = front ++ byte :: rest ∧ Blank front ∧ isSpace byte = false ∧ byte ≠ 36 ∧
    (front = [] ∨ byte ≠ 64)

/-- In front of a name a node ends with a byte that is neither white space nor the sign of a
formula, and then blanks. -/
def Closes (node : Text) : Prop :=
  ∃ rest byte back, node = rest ++ byte :: back ∧ Blank back ∧ isSpace byte = false ∧ byte ≠ 36

/-- The nodes next to a spelling, when it is a name, have no part in its blanks and signs. -/
def Spelling.Fits (first node : Text) : Spelling → Prop
  | latex _ _ => Closes first ∧ Opens node
  | _ => True

/-- A chain whose nodes can be told from its arrows. -/
def Legible (first : Text) : List (Spelling × Text) → Prop
  | [] => Unspelled first
  | (spelling, node) :: rest => Unspelled first ∧ spelling.Fits first node ∧ Legible node rest

/-- A part of a node has no spelling either. -/
theorem Unspelled.part {node part : Text} (plain : Unspelled node) (inside : part <:+: node) :
    Unspelled part where
  arrow there := plain.arrow (there.trans inside)
  dash there := plain.dash (there.trans inside)
  double there := plain.double (there.trans inside)
  name there := plain.name (there.trans inside)

/-- A node ends the same without blanks in front. -/
theorem Closes.behind {front node : Text} (closes : Closes (front ++ node)) (blanks : Blank front) :
    Closes node := by
  obtain ⟨rest, byte, back, whole, ends, visible, sign⟩ := closes
  rcases List.append_eq_append_iff.mp whole with ⟨more, same, own⟩ | ⟨more, same, own⟩
  · exact ⟨more, byte, back, own, ends, visible, sign⟩
  · cases more with
    | nil => exact ⟨[], byte, back, own.symm, ends, visible, sign⟩
    | cons other more =>
      obtain ⟨rfl, _⟩ := List.cons.inj own
      have space := blanks.spaces byte (by simp [same])
      rw [visible] at space
      contradiction

/-- The first node of a chain is its own. -/
theorem Legible.unspelled {first : Text} {rest : List (Spelling × Text)}
    (legible : Legible first rest) : Unspelled first := by
  cases rest with
  | nil => exact legible
  | cons pair rest => exact legible.1

/-- A chain is the same without blanks in front. -/
theorem Legible.behind {front first : Text} {rest : List (Spelling × Text)}
    (legible : Legible (front ++ first) rest) (blanks : Blank front) : Legible first rest := by
  have part : first <:+: front ++ first := (List.suffix_append front first).isInfix
  cases rest with
  | nil => exact Unspelled.part legible part
  | cons pair rest =>
    obtain ⟨spelling, node⟩ := pair
    obtain ⟨plain, fits, others⟩ := legible
    refine ⟨plain.part part, ?_, others⟩
    cases spelling with
    | arrow | dash | double => trivial
    | latex before after => exact ⟨fits.1.behind blanks, fits.2⟩

/-- A chain with arrows is its nodes joined by them. -/
theorem written_arrow (first : Text) (nodes : List Text) :
    written first (nodes.map fun node => (.arrow, node)) = arrow.intercalate (first :: nodes) := by
  induction nodes generalizing first with
  | nil => simp [written]
  | cons node nodes ih =>
    rw [List.map_cons, written, ih, List.intercalate_cons_cons, List.append_assoc]
    rfl

/-! ## Names in formulas -/

/-- What may be left out is left out where it does not lead on. -/
theorem run_maybe_skip {body : Pattern UInt8} {next : Place UInt8 → Option (Place UInt8)}
    {place : Place UInt8} (fails : run body next place = none) :
    run (maybe body) next place = next place := by
  rw [maybe, run, fails]
  rfl

/-- What may be left out is passed over where it leads on. -/
theorem run_maybe_take {body : Pattern UInt8} {next : Place UInt8 → Option (Place UInt8)}
    {place result : Place UInt8} (leads : run body next place = some result) :
    run (maybe body) next place = some result := by
  rw [maybe, run, leads]
  rfl

/-- A sign is not passed over where there is none. -/
theorem run_sign_none {next : Place UInt8 → Option (Place UInt8)} {passed : Nat} {rest : Text}
    (other : ∀ byte ∈ rest.head?, byte ≠ 36) :
    run (text "$") next ⟨passed, rest, []⟩ = none := by
  have ends : ∀ read ∈ rest.head?, decide (read = (36 : UInt8)) = false := by
    intro read head
    exact decide_eq_false (other read head)
  exact run_symbol_stop ends

/-- A name with signs and white space on both sides is passed over. -/
theorem latex_run {sign gap gap' close rest : Text} (signed : sign = utf8 "$" ∨ sign = [])
    (spaces : ∀ byte ∈ gap, isSpace byte = true) (spaces' : ∀ byte ∈ gap', isSpace byte = true)
    (ends : close = utf8 "$" ∨
      (close = [] ∧ ∀ byte ∈ rest.head?, isSpace byte = false ∧ byte ≠ 36)) (passed : Nat) :
    ∃ after, run latexPattern some
        ⟨passed, sign ++ (gap ++ (latexName ++ (gap' ++ (close ++ rest)))), []⟩ = some after ∧
      after.rest = rest := by
  have last : ∀ place, ∃ after,
      run (all [maybe (text "$")]) some ⟨place, close ++ rest, []⟩ = some after ∧
        after.rest = rest := by
    intro place
    rcases ends with rfl | ⟨rfl, others⟩
    · exact ⟨_, run_maybe_take (run_literal (utf8 "$") rest), rfl⟩
    · exact ⟨_, run_maybe_skip (run_sign_none fun byte head => (others byte head).2), rfl⟩
  have behind : ∀ place, ∃ after, run (all [many space, maybe (text "$")]) some
      ⟨place, gap' ++ (close ++ rest), []⟩ = some after ∧ after.rest = rest := by
    intro place
    obtain ⟨after, leads, same⟩ := last (place + gap'.length)
    have visible : ∀ byte ∈ (close ++ rest).head?, isSpace byte = false := by
      rcases ends with rfl | ⟨rfl, others⟩
      · intro byte head
        obtain rfl := Option.some.inj head
        rfl
      · exact fun byte head => (others byte head).1
    refine ⟨after, ?_, same⟩
    rw [run_all_cons]
    exact run_many_longest spaces' visible leads
  have named : ∀ place, ∃ after, run (all [text "\\rightarrow", many space, maybe (text "$")]) some
      ⟨place, latexName ++ (gap' ++ (close ++ rest)), []⟩ = some after ∧ after.rest = rest := by
    intro place
    obtain ⟨after, leads, same⟩ := behind (place + latexName.length)
    refine ⟨after, ?_, same⟩
    rw [run_all_cons]
    exact (run_literal latexName _).trans leads
  have spaced : ∀ place, ∃ after, run (all [many space, text "\\rightarrow", many space,
      maybe (text "$")]) some ⟨place, gap ++ (latexName ++ (gap' ++ (close ++ rest))), []⟩ =
        some after ∧ after.rest = rest := by
    intro place
    obtain ⟨after, leads, same⟩ := named (place + gap.length)
    refine ⟨after, ?_, same⟩
    rw [run_all_cons]
    apply run_many_longest spaces _ leads
    intro byte head
    obtain rfl := Option.some.inj head
    rfl
  rw [latexPattern]
  rcases signed with rfl | rfl
  · obtain ⟨after, leads, same⟩ := spaced (passed + (utf8 "$").length)
    refine ⟨after, ?_, same⟩
    rw [run_all_cons]
    exact run_maybe_take ((run_literal (utf8 "$") _).trans leads)
  · obtain ⟨after, leads, same⟩ := spaced passed
    refine ⟨after, ?_, same⟩
    rw [run_all_cons, List.nil_append]
    refine (run_maybe_skip (run_sign_none ?_)).trans leads
    intro byte head
    cases gap with
    | nil =>
      obtain rfl := Option.some.inj head
      decide
    | cons first more =>
      obtain rfl := Option.some.inj head
      have space := spaces first List.mem_cons_self
      rintro rfl
      exact absurd space (by decide)

/-- No name begins in a text in front of one, when the text ends with a byte that is neither white
space nor a sign, or when a sign follows. -/
theorem latex_fails {kept rest : Text} (absent : ¬ latexName <:+: kept)
    (head : ∀ byte ∈ rest.head?, byte ∉ latexName.tail)
    (ends : (∀ byte ∈ kept.getLast?, isSpace byte = false ∧ byte ≠ 36) ∨ rest.head? = some 36)
    (passed : Nat) : ∀ part, part ≠ [] → part <:+ kept →
      run latexPattern some ⟨passed, part ++ rest, []⟩ = none := by
  intro part some_byte ending
  cases found : run latexPattern some ⟨passed, part ++ rest, []⟩ with
  | none => rfl
  | some after =>
    obtain ⟨stop, moves, _⟩ := run_moves found
    obtain ⟨matched, groups, own, whole, _⟩ := moves.matches rfl
    obtain ⟨sign, blanks, more, rfl, signed, spaces⟩ := matches_latex own
    have split : part ++ rest = (sign ++ blanks) ++ (latexName ++ (more ++ stop.rest)) := by
      rw [show part ++ rest = _ from whole]
      simp
    have inside : ∀ byte ∈ sign ++ blanks, isSpace byte = true ∨ byte = 36 := by
      intro byte there
      rcases List.mem_append.mp there with left | right
      · rcases signed with rfl | rfl
        · exact Or.inr (List.mem_singleton.mp left)
        · contradiction
      · exact Or.inl (spaces byte right)
    have sides : (∃ others, sign ++ blanks = part ++ others ∧
        rest = others ++ (latexName ++ (more ++ stop.rest))) ∨
        ∃ byte others, part = sign ++ blanks ++ byte :: others ∧
          latexName ++ (more ++ stop.rest) = byte :: others ++ rest := by
      rcases List.append_eq_append_iff.mp split with longer | ⟨others, front, tail⟩
      · exact Or.inl longer
      · cases others with
        | nil => exact Or.inl ⟨[], by simpa using front.symm, by simpa using tail.symm⟩
        | cons byte others => exact Or.inr ⟨byte, others, front, tail⟩
    rcases sides with ⟨others, front, tail⟩ | ⟨byte, others, front, tail⟩
    · rcases ends with visible | signs
      · have last : part.getLast some_byte ∈ kept.getLast? := by
          obtain ⟨before, rfl⟩ := ending
          rw [List.getLast?_append_of_ne_nil _ some_byte, List.getLast?_eq_some_getLast some_byte]
          rfl
        obtain ⟨dark, apart⟩ := visible _ last
        have there : part.getLast some_byte ∈ sign ++ blanks := by
          rw [front]
          exact List.mem_append_left _ (List.getLast_mem some_byte)
        rcases inside _ there with space | same
        · rw [dark] at space
          contradiction
        · exact absurd same apart
      · cases others with
        | nil =>
          rw [List.nil_append] at tail
          rw [tail] at signs
          exact absurd (Option.some.inj signs) (by decide)
        | cons byte others =>
          rw [tail] at signs
          obtain rfl := Option.some.inj signs
          cases part with
          | nil => contradiction
          | cons first part =>
            have later : (36 : UInt8) ∈ blanks := by
              rcases signed with rfl | rfl
              · have same := (List.cons.inj front).2
                have same : blanks = part ++ 36 :: others := same
                rw [same]
                simp
              · rw [List.nil_append] at front
                rw [front]
                simp
            exact absurd (spaces 36 later) (by decide)
    · have inner : byte :: others <:+ kept := by
        rw [front] at ending
        exact (List.suffix_append _ _).trans ending
      have fails := not_prefix_of_tail absent head (byte :: others) (by simp) inner
      rw [← tail] at fails
      exact absurd (List.prefix_append _ _) fails

/-! ## Normalising a written chain -/

/-- A spelling once the names are replaced. -/
def Spelling.unnamed : Spelling → Spelling
  | latex _ _ => arrow
  | spelling => spelling

/-- A node behind its spelling, once blanks are removed around it. -/
structure Reduced (before after : Spelling × Text) : Prop where
  /-- The spelling is no name any more. -/
  spelling : after.1 = before.1.unnamed
  /-- The node is the same up to blanks. -/
  alike : Alike after.2 before.2
  /-- Nothing is added. -/
  part : after.2 <:+: before.2

/-- The bytes with which a spelling begins. -/
theorem Spelling.head (spelling : Spelling) (rest : Text) :
    ∀ byte ∈ (spelling.text ++ rest).head?, byte ∈ [(226 : UInt8), 45, 61, 92, 36] := by
  intro byte head
  cases spelling with
  | arrow | dash | double =>
    obtain rfl := Option.some.inj head
    decide
  | latex before after =>
    cases before with
    | none =>
      obtain rfl := Option.some.inj head
      decide
    | some gap =>
      obtain rfl := Option.some.inj head
      decide

/-- A spelling without the name stays when names are replaced. -/
theorem replaceAll_unnamed {first : Text} (plain : Unspelled first) {spelling : Spelling}
    (same : spelling.unnamed = spelling) (rest : Text) :
    replaceAll latexPattern arrow (first ++ (spelling.text ++ rest)) =
      first ++ (spelling.text ++ replaceAll latexPattern arrow rest) := by
  have reads : latexPattern.Reads fun byte => isSpace byte = true ∨ byte ∈ utf8 "$\\rightarrow" :=
    ⟨⟨reads_literal (forall_bytes (by decide)), trivial⟩, fun _ => Or.inl,
      reads_literal (forall_bytes (by decide)), fun _ => Or.inl,
      reads_literal (forall_bytes (by decide)), trivial⟩
  have unread : ∀ byte ∈ spelling.text, latexPattern.Reads (· ≠ byte) := by
    intro byte inside
    apply reads.mono
    rintro read allowed rfl
    have apart : ∀ byte ∈ spelling.text, isSpace byte = false ∧ byte ∉ utf8 "$\\rightarrow" := by
      cases spelling with
      | arrow | dash | double => exact forall_bytes (by decide)
      | latex before after => contradiction
    obtain ⟨visible, other⟩ := apart read inside
    rcases allowed with space | there
    · rw [visible] at space
      contradiction
    · exact other there
  have head : ∀ byte ∈ (spelling.text ++ rest).head?, latexPattern.Reads (· ≠ byte) := by
    intro byte begins
    have some_byte : spelling.text ≠ [] := by
      cases spelling with
      | arrow | dash | double => decide
      | latex before after => contradiction
    rw [List.head?_append_of_ne_nil _ some_byte] at begins
    exact unread byte (List.mem_of_mem_head? begins)
  rw [replaceAll_append rfl rfl head, replaceAll_unread rfl rfl unread,
    replaceAll_none (search_latex_none.mpr plain.name)]

/-- Blanks in front of the first node stand in front of the chain. -/
theorem written_append (front first : Text) (rest : List (Spelling × Text)) :
    written (front ++ first) rest = front ++ written first rest := by
  cases rest with
  | nil => rfl
  | cons pair rest => rw [written, written, List.append_assoc]

/-- What stands in front of a name: what stays of the node, and a sign and white space. -/
theorem before_name {first : Text} (closes : Closes first) (before : Option Gap) :
    ∃ kept back sign gap, first = kept ++ back ∧ Blank back ∧
      first ++ opened before = kept ++ (sign ++ gap) ∧ (∀ byte ∈ gap, isSpace byte = true) ∧
      (sign = utf8 "$" ∨
        (sign = [] ∧ ∀ byte ∈ kept.getLast?, isSpace byte = false ∧ byte ≠ 36)) := by
  obtain ⟨rest, byte, back, rfl, blanks, visible, sign⟩ := closes
  cases before with
  | none =>
    refine ⟨rest ++ [byte], back, [], back, by simp, blanks, by simp [opened], blanks.spaces,
      Or.inr ⟨rfl, ?_⟩⟩
    intro last ends
    rw [List.getLast?_concat] at ends
    obtain rfl := Option.some.inj ends
    exact ⟨visible, sign⟩
  | some gap =>
    exact ⟨rest ++ byte :: back, [], utf8 "$", gap.1, by simp, blank_nil, by simp [opened], gap.2,
      Or.inl rfl⟩

/-- What stands behind a name: white space and a sign, and what stays of the chain. -/
theorem after_name {node : Text} (opens : Opens node) (after : Option Gap)
    (nodes : List (Spelling × Text)) :
    ∃ front behind gap close, node = front ++ behind ∧ Blank front ∧
      (front = [] ∨ behind.head? ≠ some 64) ∧
      closed after ++ written node nodes = gap ++ (close ++ written behind nodes) ∧
      (∀ byte ∈ gap, isSpace byte = true) ∧
      (close = utf8 "$" ∨ (close = [] ∧ ∀ byte ∈ (written behind nodes).head?,
        isSpace byte = false ∧ byte ≠ 36)) := by
  obtain ⟨front, byte, rest, rfl, blanks, visible, sign, reference⟩ := opens
  cases after with
  | none =>
    refine ⟨front, byte :: rest, front, [], rfl, blanks, ?_, ?_, blanks.spaces, Or.inr ⟨rfl, ?_⟩⟩
    · rcases reference with empty | apart
      · exact Or.inl empty
      · exact Or.inr (by simpa using apart)
    · rw [written_append]
      rfl
    · intro first head
      rw [← List.singleton_append, written_append] at head
      obtain rfl := Option.some.inj head
      exact ⟨visible, sign⟩
  | some gap =>
    exact ⟨[], _, gap.1, utf8 "$", rfl, blank_nil, Or.inl rfl, by simp [closed], gap.2, Or.inl rfl⟩

/-- A name is replaced with its signs and the white space next to it. -/
theorem replaceAll_named {first : Text} (plain : Unspelled first) (closes : Closes first)
    {node : Text} (opens : Opens node) (before after : Option Gap)
    (nodes : List (Spelling × Text)) :
    ∃ kept back front behind, first = kept ++ back ∧ Blank back ∧ node = front ++ behind ∧
      Blank front ∧ (front = [] ∨ behind.head? ≠ some 64) ∧
      replaceAll latexPattern arrow
        (first ++ ((Spelling.latex before after).text ++ written node nodes)) =
          kept ++ (arrow ++ replaceAll latexPattern arrow (written behind nodes)) := by
  obtain ⟨kept, back, sign, gap, split, blanks, left, spaces, signed⟩ := before_name closes before
  obtain ⟨front, behind, gap', close, parts, fronts, reference, right, spaces', closing⟩ :=
    after_name opens after nodes
  refine ⟨kept, back, front, behind, split, blanks, parts, fronts, reference, ?_⟩
  have whole : first ++ ((Spelling.latex before after).text ++ written node nodes) =
      kept ++ (sign ++ (gap ++ (latexName ++ (gap' ++ (close ++ written behind nodes))))) := by
    calc first ++ ((Spelling.latex before after).text ++ written node nodes)
        = (first ++ opened before) ++ (latexName ++ (closed after ++ written node nodes)) := by
          simp [Spelling.text]
      _ = kept ++ (sign ++ (gap ++ (latexName ++ (gap' ++ (close ++ written behind nodes))))) := by
          rw [left, right]
          simp
  have absent : ¬ latexName <:+: kept := by
    intro there
    apply plain.name
    rw [split]
    exact there.trans (List.prefix_append kept back).isInfix
  have signs : sign = utf8 "$" ∨ sign = [] := by
    rcases signed with there | ⟨none_there, _⟩
    · exact Or.inl there
    · exact Or.inr none_there
  obtain ⟨stop, here, same⟩ := latex_run signs spaces spaces' closing (0 + kept.length)
  have head : ∀ byte ∈ (sign ++ (gap ++ (latexName ++ (gap' ++ (close ++
      written behind nodes))))).head?, byte ∉ latexName.tail := by
    intro byte begins
    rcases signs with rfl | rfl
    · obtain rfl := Option.some.inj begins
      decide
    · cases gap with
      | nil =>
        obtain rfl := Option.some.inj begins
        decide
      | cons first more =>
        obtain rfl := Option.some.inj begins
        have dark : ∀ byte ∈ latexName.tail, isSpace byte = false := forall_bytes (by decide)
        intro inside
        have visible := dark first inside
        rw [spaces first List.mem_cons_self] at visible
        exact Bool.noConfusion visible
  have ends : (∀ byte ∈ kept.getLast?, isSpace byte = false ∧ byte ≠ 36) ∨
      (sign ++ (gap ++ (latexName ++ (gap' ++ (close ++ written behind nodes))))).head? =
        some 36 := by
    rcases signed with rfl | ⟨_, visible⟩
    · exact Or.inr rfl
    · exact Or.inl visible
  have hit := searchFrom_skip 0 fun place => latex_fails absent head ends place
  rw [searchFrom_of_run here, Option.map_some] at hit
  rw [whole, replaceAll_some rfl rfl hit]
  simp [same]

/-- Replacing the names leaves a chain without them. -/
theorem replaceAll_written {rest : List (Spelling × Text)} {first : Text}
    (legible : Legible first rest) :
    ∃ kept back reduced, first = kept ++ back ∧ Blank back ∧ List.Forall₂ Reduced rest reduced ∧
      replaceAll latexPattern arrow (written first rest) = written kept reduced := by
  induction rest generalizing first with
  | nil =>
    refine ⟨first, [], [], by simp, blank_nil, .nil, ?_⟩
    rw [written, replaceAll_none (search_latex_none.mpr legible.unspelled.name)]
  | cons pair rest ih =>
    obtain ⟨spelling, node⟩ := pair
    obtain ⟨plain, fits, others⟩ := legible
    have stays : spelling.unnamed = spelling → ∃ kept back reduced, first = kept ++ back ∧
        Blank back ∧ List.Forall₂ Reduced ((spelling, node) :: rest) reduced ∧
        replaceAll latexPattern arrow (written first ((spelling, node) :: rest)) =
          written kept reduced := by
      intro same
      obtain ⟨kept, back, reduced, split, blanks, related, replaced⟩ := ih others
      have alike : Alike kept node := by
        have padded : Padded kept node := ⟨kept, [], back, blank_nil, blanks, by simp, split⟩
        exact padded.alike
      refine ⟨first, [], (spelling, kept) :: reduced, by simp, blank_nil,
        .cons ⟨?_, alike, ?_⟩ related,
        ?_⟩
      · exact same.symm
      · rw [split]
        exact (List.prefix_append kept back).isInfix
      · rw [written, replaceAll_unnamed plain same, replaced]
        rfl
    cases spelling with
    | arrow => exact stays rfl
    | dash => exact stays rfl
    | double => exact stays rfl
    | latex before after =>
      obtain ⟨kept, back, front, behind, split, blanks, parts, fronts, sign, replaced⟩ :=
        replaceAll_named plain fits.1 fits.2 before after rest
      rw [parts] at others
      obtain ⟨inner, ends, reduced, whole, blanksInner, related, later⟩ := ih (others.behind fronts)
      refine ⟨kept, back, (.arrow, inner) :: reduced, split, blanks,
        .cons ⟨rfl, ?_, ?_⟩ related, ?_⟩
      · refine ⟨[], front, inner, [], ends, blank_nil, fronts, blank_nil,
          blanksInner, by simp, ?_, ?_⟩
        · rw [parts, whole]
        · rcases sign with empty | apart
          · exact Or.inl empty.symm
          · right
            cases inner with
            | nil => simp
            | cons byte more =>
              rw [whole] at apart
              exact apart
      · rw [parts, whole]
        exact (List.prefix_append inner ends).isInfix.trans (List.suffix_append front _).isInfix
      · rw [written, replaced, later]
        rfl

/-- A spelling that is replaced by an arrow, and one in which the replaced text does not begin. -/
def Replaces (needle : Text) (spelling result : Spelling) : Prop :=
  (spelling.text = needle ∧ result = .arrow) ∨
    (result = spelling ∧ ∀ byte ∈ needle.head?, byte ∉ spelling.text)

/-- Replacing a spelling leaves the chain with arrows in its place. -/
theorem replaceText_written {needle : Text} (some_byte : needle ≠ [])
    (ends : ∀ byte ∈ [(226 : UInt8), 45, 61, 92, 36], byte ∉ needle.tail)
    {first : Text} {rest : List (Spelling × Text)} {change : Spelling → Spelling}
    (absent : ¬ needle <:+: first)
    (each : ∀ pair ∈ rest, ¬ needle <:+: pair.2 ∧ Replaces needle pair.1 (change pair.1)) :
    replaceText needle arrow (written first rest) =
      written first (rest.map fun pair => (change pair.1, pair.2)) := by
  induction rest generalizing first with
  | nil => exact replaceText_absent absent
  | cons pair rest ih =>
    obtain ⟨⟨free, replaces⟩, others⟩ := List.forall_mem_cons.mp each
    have head : ∀ byte ∈ (pair.1.text ++ written pair.2 rest).head?, byte ∉ needle.tail :=
      fun byte begins => ends byte (pair.1.head _ byte begins)
    rw [written, replaceText_front some_byte (not_prefix_of_tail absent head)]
    have later := ih free others
    rcases replaces with ⟨same, result⟩ | ⟨same, apart⟩
    · rw [same, replaceText_here some_byte, later, List.map_cons, result]
      rfl
    · rw [replaceText_front some_byte (not_prefix_of_head some_byte apart _), later,
        List.map_cons, same]
      rfl

/-- A spelling once `->` is replaced. -/
def Spelling.undashed : Spelling → Spelling
  | dash => arrow
  | spelling => spelling

/-- A spelling once `=>` is replaced. -/
def Spelling.undoubled : Spelling → Spelling
  | double => arrow
  | spelling => spelling

/-- The nodes of a chain have no spelling inside. -/
theorem Legible.nodes {first : Text} {rest : List (Spelling × Text)}
    (legible : Legible first rest) : ∀ node ∈ rest.map Prod.snd, Unspelled node := by
  induction rest generalizing first with
  | nil => simp
  | cons pair rest ih =>
    have others := legible.2.2
    exact List.forall_mem_cons.mpr ⟨others.unspelled, ih others⟩

/-- The arrows of a written chain become arrows between nodes that are the same up to blanks. -/
theorem normalizeArrows_written {first : Text} {rest : List (Spelling × Text)}
    (legible : Legible first rest) :
    Respaced (normalizeArrows (written first rest))
      (arrow.intercalate (first :: rest.map Prod.snd)) := by
  obtain ⟨kept, back, reduced, split, blanks, related, replaced⟩ := replaceAll_written legible
  have inner : Unspelled kept := by
    apply legible.unspelled.part
    rw [split]
    exact (List.prefix_append kept back).isInfix
  have free : ∀ pair ∈ reduced, Unspelled pair.2 ∧ ∃ spelling : Spelling,
      pair.1 = spelling.unnamed := by
    have all := legible.nodes
    clear replaced legible
    induction related with
    | nil => simp
    | cons own _ ih =>
      rw [List.map_cons] at all
      obtain ⟨here, others⟩ := List.forall_mem_cons.mp all
      exact List.forall_mem_cons.mpr ⟨⟨here.part own.part, _, own.spelling⟩, ih others⟩
  have undashed : replaceText (utf8 "->") arrow (written kept reduced) =
      written kept (reduced.map fun pair => (pair.1.undashed, pair.2)) := by
    apply replaceText_written (by decide) (forall_bytes (by decide)) inner.dash
    intro pair inside
    obtain ⟨plain, spelling, unnamed⟩ := free pair inside
    refine ⟨plain.dash, ?_⟩
    rw [unnamed]
    have absent : ∀ byte ∈ (utf8 "->").head?,
        byte ∉ Spelling.arrow.text ∧ byte ∉ Spelling.double.text := by
      rintro _ ⟨⟩
      decide
    cases spelling with
    | arrow | latex => exact Or.inr ⟨rfl, fun byte begins => (absent byte begins).1⟩
    | double => exact Or.inr ⟨rfl, fun byte begins => (absent byte begins).2⟩
    | dash => exact Or.inl ⟨rfl, rfl⟩
  have undoubled : replaceText (utf8 "=>") arrow
      (written kept (reduced.map fun pair => (pair.1.undashed, pair.2))) =
      written kept ((reduced.map fun pair => (pair.1.undashed, pair.2)).map
        fun pair => (pair.1.undoubled, pair.2)) := by
    apply replaceText_written (by decide) (forall_bytes (by decide)) inner.double
    intro pair inside
    obtain ⟨old, there, rfl⟩ := List.mem_map.mp inside
    obtain ⟨plain, spelling, unnamed⟩ := free old there
    refine ⟨plain.double, ?_⟩
    simp only
    rw [unnamed]
    have absent : ∀ byte ∈ (utf8 "=>").head?, byte ∉ Spelling.arrow.text := by
      rintro _ ⟨⟩
      decide
    cases spelling with
    | arrow | dash | latex => exact Or.inr ⟨rfl, absent⟩
    | double => exact Or.inl ⟨rfl, rfl⟩
  have normal : (reduced.map fun pair => (pair.1.undashed, pair.2)).map
      (fun pair => (pair.1.undoubled, pair.2)) =
      (reduced.map Prod.snd).map fun node => (Spelling.arrow, node) := by
    rw [List.map_map, List.map_map]
    apply List.map_congr_left
    intro pair inside
    obtain ⟨_, spelling, unnamed⟩ := free pair inside
    simp only [Function.comp_apply]
    rw [unnamed]
    cases spelling <;> rfl
  rw [normalizeArrows_eq, replaced, undashed, undoubled, normal, written_arrow]
  refine ⟨kept, first, reduced.map Prod.snd, rest.map Prod.snd, rfl, rfl,
    ⟨kept, [], back, blank_nil, blanks, by simp, split⟩, ?_⟩
  rw [List.forall₂_map_left_iff, List.forall₂_map_right_iff]
  exact related.flip.imp fun _ _ own => own.alike

/-! ## Trimming a written chain -/

/-- A node keeps its first byte when blanks behind it are removed. -/
theorem Opens.trimEnd {node : Text} (opens : Opens node) : Opens (node.rdropWhile blank) := by
  obtain ⟨front, byte, rest, rfl, blanks, visible, sign, reference⟩ := opens
  have dark : blank byte = false := by
    by_contra shown
    rw [isSpace_of_blank (by simpa using shown)] at visible
    contradiction
  have stays : (byte :: rest).rdropWhile blank = byte :: rest.rdropWhile blank := by
    by_cases empty : rest.rdropWhile blank = []
    · have all := rdropWhile_append_passing (List.rdropWhile_eq_nil_iff.mp empty) [byte]
      rw [List.singleton_append, List.rdropWhile_singleton, dark] at all
      rw [all, empty]
      rfl
    · exact rdropWhile_append_some empty [byte]
  have some_byte : (byte :: rest).rdropWhile blank ≠ [] := by
    rw [stays]
    simp
  rw [rdropWhile_append_some some_byte, stays]
  exact ⟨front, byte, _, rfl, blanks, visible, sign, reference⟩

/-- A chain without the blanks at its end. -/
def trimmed : List (Spelling × Text) → List (Spelling × Text)
  | [] => []
  | [(spelling, node)] => [(spelling, node.rdropWhile blank)]
  | pair :: next :: rest => pair :: trimmed (next :: rest)

/-- A spelling begins and ends with bytes that are no blanks. -/
theorem Spelling.visible (spelling : Spelling) : ∃ byte rest front last,
    spelling.text = byte :: rest ∧ spelling.text = front ++ [last] ∧ blank byte = false ∧
      blank last = false := by
  cases spelling with
  | arrow => exact ⟨226, [134, 146], [226, 134], 146, rfl, rfl, rfl, rfl⟩
  | dash => exact ⟨45, [62], [45], 62, rfl, rfl, rfl, rfl⟩
  | double => exact ⟨61, [62], [61], 62, rfl, rfl, rfl, rfl⟩
  | latex before after =>
    have name : latexName = 92 :: latexName.tail := rfl
    have name' : latexName = latexName.dropLast ++ [119] := rfl
    obtain ⟨byte, rest, begins, shown⟩ : ∃ byte rest, opened before ++ latexName = byte :: rest ∧
        blank byte = false := by
      cases before with
      | none => exact ⟨92, _, name, rfl⟩
      | some gap => exact ⟨36, gap.1 ++ latexName, rfl, rfl⟩
    obtain ⟨front, last, ends, shown'⟩ : ∃ front last, latexName ++ closed after = front ++ [last] ∧
        blank last = false := by
      cases after with
      | none => exact ⟨latexName.dropLast, 119, by simpa [closed] using name', rfl⟩
      | some gap => exact ⟨latexName ++ gap.1, 36, (List.append_assoc ..).symm, rfl⟩
    refine ⟨byte, rest ++ closed after, opened before ++ front, last, ?_, ?_, shown, shown'⟩
    · rw [Spelling.text, ← List.append_assoc, begins, List.cons_append]
    · rw [Spelling.text, ends, List.append_assoc]

/-- Blanks behind a spelling are removed up to it. -/
theorem Spelling.rdropWhile (spelling : Spelling) (first text : Text) :
    (first ++ (spelling.text ++ text)).rdropWhile blank =
      first ++ (spelling.text ++ text.rdropWhile blank) := by
  by_cases empty : text.rdropWhile blank = []
  · obtain ⟨_, _, front, last, _, ends, _, shown⟩ := spelling.visible
    have all := rdropWhile_append_passing (List.rdropWhile_eq_nil_iff.mp empty)
      (first ++ spelling.text)
    rw [← List.append_assoc, all, empty, ends, ← List.append_assoc,
      List.rdropWhile_concat_neg _ _ _ (by simpa using shown)]
    simp
  · rw [← List.append_assoc, rdropWhile_append_some empty, List.append_assoc]

/-- Blanks at the end of a chain are removed from its last node. -/
theorem written_trimEnd {first : Text} {rest : List (Spelling × Text)} (some_arrow : rest ≠ []) :
    (written first rest).rdropWhile blank = written first (trimmed rest) := by
  induction rest generalizing first with
  | nil => contradiction
  | cons pair rest ih =>
    obtain ⟨spelling, node⟩ := pair
    cases rest with
    | nil => exact spelling.rdropWhile first node
    | cons next rest =>
      rw [written, spelling.rdropWhile, ih (by simp)]
      rfl

/-- A trimmed chain can be told from its arrows. -/
theorem Legible.trimmed {first : Text} {rest : List (Spelling × Text)}
    (legible : Legible first rest) : Legible first (trimmed rest) := by
  induction rest generalizing first with
  | nil => exact legible
  | cons pair rest ih =>
    obtain ⟨spelling, node⟩ := pair
    obtain ⟨plain, fits, others⟩ := legible
    cases rest with
    | nil =>
      refine ⟨plain, ?_, Unspelled.part others (node.rdropWhile_prefix blank).isInfix⟩
      cases spelling with
      | arrow | dash | double => trivial
      | latex before after => exact ⟨fits.1, fits.2.trimEnd⟩
    | cons next rest => exact ⟨plain, fits, ih others⟩

/-- Trimming does not look at the spellings. -/
theorem trimmed_arrow (rest : List (Spelling × Text)) :
    trimmed ((rest.map Prod.snd).map fun node => (.arrow, node)) =
      ((trimmed rest).map Prod.snd).map fun node => (.arrow, node) := by
  induction rest with
  | nil => rfl
  | cons pair rest ih =>
    cases rest with
    | nil => rfl
    | cons next rest => exact congrArg (List.cons _) ih

/-- Blanks around a chain are removed from its first and last nodes. -/
theorem written_trim {first : Text} {rest : List (Spelling × Text)} (some_arrow : rest ≠ []) :
    trimEntity (written first rest) = written (first.dropWhile blank) (trimmed rest) := by
  rw [← written_trimEnd some_arrow, trimEntity_eq]
  cases rest with
  | nil => contradiction
  | cons pair rest =>
    obtain ⟨byte, text, _, _, begins, _, shown, _⟩ := pair.1.visible
    rw [written, written, List.dropWhile_append]
    split
    · rename_i empty
      rw [List.isEmpty_iff.mp empty, begins]
      simp [shown]
    · rfl

/-- A line is verbatim when its first node begins so, however its arrows are spelled. -/
theorem verbatim_written {first : Text} {rest : List (Spelling × Text)} :
    utf8 "[ε]" <+: written first rest ↔ utf8 "[ε]" <+: first := by
  cases rest with
  | nil => rfl
  | cons pair rest =>
    constructor
    · intro begins
      rw [written] at begins
      rcases List.prefix_or_prefix_of_prefix begins (List.prefix_append first _) with short | long
      · exact short
      · obtain ⟨more, whole⟩ := long
        cases more with
        | nil =>
          rw [List.append_nil] at whole
          rw [whole]
        | cons byte more =>
          have goesOn : byte :: more <+: pair.1.text ++ written pair.2 rest := by
            rw [← whole] at begins
            exact (List.prefix_append_right_inj first).mp begins
          obtain ⟨tail, same⟩ := goesOn
          have head := pair.1.head (written pair.2 rest) byte (by rw [← same]; rfl)
          have inside : byte ∈ utf8 "[ε]" := by
            rw [← whole]
            simp
          have apart : ∀ byte ∈ [(226 : UInt8), 45, 61, 92, 36], byte ∉ utf8 "[ε]" :=
            forall_bytes (by decide)
          exact absurd inside (apart byte head)
    · intro begins
      rw [written]
      exact begins.trans (List.prefix_append _ _)

/-- The arrows of a chain with arrows are normal. -/
theorem normalizeArrows_joined {first : Text} {rest : List (Spelling × Text)}
    (legible : Legible first rest) :
    normalizeArrows (arrow.intercalate (first :: rest.map Prod.snd)) =
      arrow.intercalate (first :: rest.map Prod.snd) := by
  have plain : ∀ node ∈ first :: rest.map Prod.snd, Unspelled node :=
    List.forall_mem_cons.mpr ⟨legible.unspelled, legible.nodes⟩
  have some_node : first :: rest.map Prod.snd ≠ [] := List.cons_ne_nil _ _
  apply normalizeArrows_of_absent
  · exact not_infix_intercalate arrow_ne_nil (forall_bytes (by decide)) some_node
      fun node own => (plain node own).name
  · exact not_infix_intercalate arrow_ne_nil (forall_bytes (by decide)) some_node
      fun node own => (plain node own).dash
  · exact not_infix_intercalate arrow_ne_nil (forall_bytes (by decide)) some_node
      fun node own => (plain node own).double

/-- A written chain has the triplets of the chain with arrows. -/
theorem lineTriplets_written (type : Text) {first : Text} {rest : List (Spelling × Text)}
    (legible : Legible first rest) :
    lineTriplets type (written first rest) =
      lineTriplets type (arrow.intercalate (first :: rest.map Prod.snd)) := by
  by_cases none_there : rest = []
  · subst none_there
    simp [written]
  · have blanks : Blank (first.takeWhile blank) := fun byte inside => List.mem_takeWhile_imp inside
    have kept : Legible (first.dropWhile blank) (trimmed rest) := by
      rw [← List.takeWhile_append_dropWhile (p := blank) (l := first)] at legible
      exact (legible.behind blanks).trimmed
    have joined : trimEntity (arrow.intercalate (first :: rest.map Prod.snd)) =
        arrow.intercalate (first.dropWhile blank :: (trimmed rest).map Prod.snd) := by
      rw [← written_arrow, written_trim (by simpa using none_there), trimmed_arrow, written_arrow]
    apply lineTriplets_respaced
    · rw [written_trim none_there, joined, ← written_arrow, verbatim_written, verbatim_written]
    · rw [written_trim none_there, joined, normalizeArrows_joined kept]
      exact normalizeArrows_written kept

/-! ## What a chain yields -/

/-- Every physical line of a content yields the triplets of its pairs when it is a chain, and none
otherwise. There are as many pairs as the products of neighbouring numbers of entities add up to,
and only those do not become triplets whose object is emptied. No part of a triplet is empty, and no
triplet of a chain has an arrow in a part. Normal arrows are normalised to themselves, and all
spellings of a chain with which it is legible yield the same triplets. -/
theorem arrow_chains (stof : Text → Option Rat) (type : Text) :
    (∀ content citations, type ≠ [] →
      (storeCurrent stof ⟨type, content, citations⟩).2.triplets =
        (Lines.lines newline content).flatMap (lineTriplets type)) ∧
    (∀ line nodes, Chain type line nodes →
      lineTriplets type line =
        (edges (nodes.map chainEntities)).filterMap (edgeTriplet (predicateOf type line)) ∧
      (lineTriplets type line).length + (edges (nodes.map chainEntities)).countP emptied =
        ((neighbours ((nodes.map chainEntities).map List.length)).map
          fun counts => counts.1 * counts.2).sum) ∧
    (∀ line, (∀ nodes, ¬ Chain type line nodes) → lineTriplets type line = []) ∧
    (∀ line, ∀ triplet ∈ lineTriplets type line,
      ¬ arrow <:+: triplet.subject ∧ ¬ arrow <:+: triplet.predicate ∧
        ¬ arrow <:+: triplet.object) ∧
    (∀ output, ∀ triplet ∈ (parse stof output).triplets,
      triplet.subject ≠ [] ∧ triplet.predicate ≠ [] ∧ triplet.object ≠ []) ∧
    (∀ content, normalizeArrows (normalizeArrows content) = normalizeArrows content) ∧
    ∀ first rest rest', Legible first rest → Legible first rest' →
      rest.map Prod.snd = rest'.map Prod.snd →
        lineTriplets type (written first rest) = lineTriplets type (written first rest') := by
  refine ⟨?stored, ?chains, ?others, ?plain, ?filled, normalizeArrows_idempotent, ?spelled⟩
  case stored =>
    intro content citations typed
    cases content with
    | nil =>
      rw [storeCurrent_open]
      rfl
    | cons byte more => rw [storeCurrent_filled typed (by simp)]
  case chains =>
    intro line nodes chain
    have triplets := lineTriplets_chain chain
    refine ⟨triplets, ?_⟩
    rw [triplets, length_filterMap_edgeTriplet, length_edges]
  case others =>
    intro line unchained
    rw [List.eq_nil_iff_forall_not_mem]
    intro triplet inside
    exact unchained _ (chain_of_triplet inside)
  case plain => exact fun line triplet inside => (parts_of_line inside).2
  case filled => exact fun output triplet inside => (made_parse inside).filled
  case spelled =>
    intro first rest rest' legible legible' same
    rw [lineTriplets_written type legible, lineTriplets_written type legible', same]

/-- The chain `rain→flood`, with an arrow and with a formula. -/
theorem arrow_chains_rain :
    lineTriplets (utf8 "GOTCHA") (written (utf8 "rain ") [(.arrow, utf8 " flood")]) =
      lineTriplets (utf8 "GOTCHA") (written (utf8 "rain ")
        [(.latex none (some ⟨utf8 " ", forall_bytes (by decide)⟩), utf8 " flood")]) := by
  have plain : ∀ node ∈ [utf8 "rain ", utf8 " flood"], Unspelled node := by
    have each : ∀ node ∈ [utf8 "rain ", utf8 " flood"],
        ¬ arrow <:+: node ∧ ¬ utf8 "->" <:+: node ∧ ¬ utf8 "=>" <:+: node ∧
          ¬ latexName <:+: node := by decide
    intro node inside
    obtain ⟨one, two, three, four⟩ := each node inside
    exact ⟨one, two, three, four⟩
  have closes : Closes (utf8 "rain ") :=
    ⟨utf8 "rai", 110, utf8 " ", by decide, forall_bytes (by decide), by decide, by decide⟩
  have opens : Opens (utf8 " flood") :=
    ⟨utf8 " ", 102, utf8 "lood", by decide, forall_bytes (by decide), by decide, by decide,
      Or.inr (by decide)⟩
  have chains := arrow_chains noNumbers (utf8 "GOTCHA")
  exact chains.2.2.2.2.2.2 (utf8 "rain ") [(.arrow, utf8 " flood")] _
    ⟨plain _ (by simp), trivial, plain _ (by simp)⟩
    ⟨plain _ (by simp), ⟨closes, opens⟩, plain _ (by simp)⟩ rfl

/-- The words of a `[TRIPLET]` line are taken with their arrows, removing an annotation may leave an
ASCII arrow, and the sign of an amount next to an arrow's name is taken for that of a formula. -/
theorem arrow_in_word :
    (∃ triplet ∈ (parse noNumbers (utf8 "[TRIPLET] a→b c d")).triplets,
      arrow <:+: triplet.subject) ∧
    (∃ triplet ∈ lineTriplets (utf8 "GOTCHA") (utf8 "x - A:1,1> b → c"),
      utf8 "->" <:+: triplet.subject) ∧
    lineTriplets (utf8 "GOTCHA") (utf8 "cost\\rightarrow$5") ≠
      lineTriplets (utf8 "GOTCHA") (utf8 "cost->$5") := by
  refine ⟨?_, ?_, ?_⟩ <;> decide

end Chitta.Ssl
