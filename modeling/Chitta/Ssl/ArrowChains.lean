import Mathlib.Algebra.GroupWithZero.Nat
import Chitta.Regex.Local
import Chitta.Separators
import Chitta.Ssl.Gloss
import Chitta.Ssl.Parser

/-!
# Arrow chains and their triplets

A physical line of a content is a chain when what is left of it behind the annotations, the domain
and the alternatives of a choice has an arrow, and every part between the arrows has an entity. A
chain has one triplet for each pair of entities of neighbouring parts whose object is more than a
date. No entity of a chain has an arrow inside, and a text whose arrows are normalised has no other
spelling of one.
-/
namespace Chitta.Ssl

open Bytes Regex Regex.Pattern

/-! ## Where triplets come from -/

/-- What is pushed later has its triplets later. -/
theorem triplets_append (first second : Result) :
    (first ++ second).triplets = first.triplets ++ second.triplets := rfl

/-- A triplet is one of a physical line, or the one of a `[TRIPLET]` line. -/
def Made (triplet : Triplet) : Prop :=
  (∃ type line, triplet ∈ lineTriplets type line) ∨ ∃ groups, lineTriplet groups = some triplet

/-- The triplets of a block are those of its physical lines. -/
theorem made_storeCurrent {stof : Text → Option Rat} {block : Block} {triplet : Triplet}
    (inside : triplet ∈ (storeCurrent stof block).2.triplets) : Made triplet := by
  unfold storeCurrent at inside
  split at inside
  · exact absurd inside List.not_mem_nil
  · obtain ⟨line, _, there⟩ := List.mem_flatMap.mp inside
    exact Or.inl ⟨block.type, line, there⟩

/-- The triplets that a line pushes are those of a block, or its own. -/
theorem made_feedLine {stof : Text → Option Rat} {block : Block} {line : Text} {triplet : Triplet}
    (inside : triplet ∈ (feedLine stof block line).2.triplets) : Made triplet := by
  have stored : ∀ groups, triplet ∈ (storeCurrent stof block).2.triplets ++
      (lineTriplet groups).toList → Made triplet := by
    intro groups there
    cases List.mem_append.mp there with
    | inl earlier => exact made_storeCurrent earlier
    | inr own => exact Or.inr ⟨groups, Option.mem_toList.mp own⟩
  unfold feedLine at inside
  split at inside
  · exact absurd inside List.not_mem_nil
  · split at inside
    · exact made_storeCurrent inside
    · split at inside
      · exact absurd inside List.not_mem_nil
      · split at inside
        · have pushed : triplet ∈ ([] : List Triplet) := by
            dsimp only at inside
            split_ifs at inside <;> exact inside
          exact absurd pushed List.not_mem_nil
        · split at inside
          · dsimp only at inside
            rw [triplets_append] at inside
            dsimp only at inside
            exact stored _ inside
          · split_ifs at inside <;> exact absurd inside List.not_mem_nil

/-- The triplets of a text are those of its physical lines and of its `[TRIPLET]` lines. -/
theorem made_parse {stof : Text → Option Rat} {output : Text} {triplet : Triplet}
    (inside : triplet ∈ (parse stof output).triplets) : Made triplet := by
  have run : ∀ (lines : List Text) (block : Block),
      triplet ∈ (parseLines stof block lines).triplets → Made triplet := by
    intro lines
    induction lines with
    | nil => exact fun block there => made_storeCurrent there
    | cons line lines ih =>
      intro block there
      rw [parseLines] at there
      dsimp only at there
      rw [triplets_append, List.mem_append] at there
      cases there with
      | inl pushed => exact made_feedLine pushed
      | inr later => exact ih _ later
  exact run _ _ inside

/-! ## Chains -/

/-- What is left of a physical line when its parts are split. -/
def chainOf (type line : Text) : Text :=
  let chain := undomained (trimEntity (stripAnnotations (normalizeArrows (trimEntity line))))
  if type = utf8 "DECISION" ∧ (cutAt (utf8 "|") chain).isSome then chosen chain else chain

/-- The predicate of the triplets of a physical line. -/
def predicateOf (type line : Text) : Text :=
  let chain := undomained (trimEntity (stripAnnotations (normalizeArrows (trimEntity line))))
  if type = utf8 "DECISION" ∧ (cutAt (utf8 "|") chain).isSome then utf8 "chosen_over"
  else if type = utf8 "GOTCHA" then utf8 "causes" else utf8 "leads_to"

/-- A physical line is a chain of these parts. -/
structure Chain (type line : Text) (nodes : List Text) : Prop where
  /-- The line is not verbatim. -/
  spoken : ¬ utf8 "[ε]" <+: trimEntity line
  /-- Arrows join the parts to what is left of the line. -/
  joined : chainOf type line = arrow.intercalate nodes
  /-- There are at least two parts. -/
  several : 2 ≤ nodes.length
  /-- No part has an arrow inside. -/
  parted : ∀ node ∈ nodes, ¬ arrow <:+: node
  /-- Every part has an entity. -/
  named : ∀ node ∈ nodes, chainEntities node ≠ []

/-- The neighbours in a list. -/
def neighbours {α : Type} (items : List α) : List (α × α) := items.zip items.tail

/-- The pairs of entities of neighbouring parts. -/
def edges (nodes : List (List Text)) : List (Text × Text) :=
  (neighbours nodes).flatMap fun ends =>
    ends.1.flatMap fun subject => ends.2.map fun object => (subject, object)

/-- Nothing is left of an object without its date. -/
def emptied (edge : Text × Text) : Bool := (extractDateFromObject edge.2).1.isEmpty

/-- The triplet of a pair of entities. -/
def edgeTriplet (predicate : Text) (edge : Text × Text) : Option Triplet :=
  let (clean, date) := extractDateFromObject edge.2
  if clean = [] then none else some ⟨edge.1, predicate, clean, date⟩

/-- The triplets of a chain are those of its pairs. -/
theorem chainTriplets_eq (predicate : Text) (nodes : List (List Text)) :
    chainTriplets predicate nodes = (edges nodes).filterMap (edgeTriplet predicate) := by
  induction nodes with
  | nil => rfl
  | cons subjects rest ih =>
    cases rest with
    | nil => rfl
    | cons objects rest =>
      have pairs : edges (subjects :: objects :: rest) =
          (subjects.flatMap fun subject => objects.map fun object => (subject, object)) ++
            edges (objects :: rest) := by
        simp [edges, neighbours]
      rw [chainTriplets, ih, pairs, List.filterMap_append, List.filterMap_flatMap]
      simp only [List.filterMap_map]
      rfl

/-- The number of pairs is the sum of the products of neighbouring numbers of entities. -/
theorem length_edges (nodes : List (List Text)) :
    (edges nodes).length =
      ((neighbours (nodes.map List.length)).map fun counts => counts.1 * counts.2).sum := by
  have sizes : neighbours (nodes.map List.length) =
      (neighbours nodes).map fun ends => (ends.1.length, ends.2.length) := by
    rw [neighbours, neighbours, ← List.map_tail, List.zip_map]
    rfl
  rw [edges, List.length_flatMap, sizes, List.map_map]
  simp [Function.comp_def]

/-- Every pair has its triplet unless it is emptied. -/
theorem length_filterMap_edgeTriplet (predicate : Text) (pairs : List (Text × Text)) :
    (pairs.filterMap (edgeTriplet predicate)).length + pairs.countP emptied = pairs.length := by
  induction pairs with
  | nil => rfl
  | cons edge pairs ih =>
    by_cases empty : (extractDateFromObject edge.2).1 = []
    · have none_there : edgeTriplet predicate edge = none := by simp [edgeTriplet, empty]
      have counted : emptied edge = true := by simp [emptied, empty]
      rw [List.filterMap_cons_none none_there, List.countP_cons_of_pos counted, List.length_cons]
      omega
    · have there : edgeTriplet predicate edge = some ⟨edge.1, predicate,
          (extractDateFromObject edge.2).1, (extractDateFromObject edge.2).2⟩ := by
        simp [edgeTriplet, empty]
      have passed : ¬ emptied edge = true := by simp [emptied, empty]
      rw [List.filterMap_cons_some there, List.countP_cons_of_neg passed, List.length_cons,
        List.length_cons]
      omega

/-! ## Lines -/

/-- An arrow has bytes. -/
theorem arrow_ne_nil : arrow ≠ [] := by decide

/-- The first byte of an arrow is nowhere else in it. -/
theorem arrow_single : ∀ byte ∈ arrow.head?, byte ∉ arrow.tail := by
  rintro _ ⟨⟩
  decide

/-- The triplets of a line by what is left of it. -/
theorem lineTriplets_eq (type line : Text) :
    lineTriplets type line =
      if utf8 "[ε]" <+: trimEntity line then []
      else if (cutAt arrow (chainOf type line)).isSome then
        let nodes := (splitOn arrow (chainOf type line)).map chainEntities
        if nodes.any List.isEmpty then [] else chainTriplets (predicateOf type line) nodes
      else [] := by
  unfold lineTriplets chainOf predicateOf
  dsimp only
  generalize undomained (trimEntity (stripAnnotations (normalizeArrows (trimEntity line)))) = chain
  by_cases choice : type = utf8 "DECISION" ∧ (cutAt (utf8 "|") chain).isSome = true
  · simp [choice, arrow]
  · have no_choice :
        (decide (type = utf8 "DECISION") && (cutAt (utf8 "|") chain).isSome) = false := by
      simpa using choice
    simp [choice, no_choice, arrow]

/-- A chain has the triplets of its pairs. -/
theorem lineTriplets_chain {type line : Text} {nodes : List Text} (chain : Chain type line nodes) :
    lineTriplets type line =
      (edges (nodes.map chainEntities)).filterMap (edgeTriplet (predicateOf type line)) := by
  have some_node : nodes ≠ [] := by
    rintro rfl
    exact absurd chain.several (by decide)
  have found : splitOn arrow (chainOf type line) = nodes := by
    rw [chain.joined]
    exact splitOn_intercalate arrow_ne_nil arrow_single some_node chain.parted
  have cut : (cutAt arrow (chainOf type line)).isSome = true := by
    cases missing : cutAt arrow (chainOf type line) with
    | some parts => rfl
    | none =>
      rw [splitOn_absent (cutAt_eq_none.mp missing)] at found
      have several := chain.several
      rw [← found, List.length_singleton] at several
      exact absurd several (by decide)
  have named : (nodes.map chainEntities).any List.isEmpty = false := by
    rw [List.any_eq_false]
    intro entities inside
    obtain ⟨node, there, rfl⟩ := List.mem_map.mp inside
    simpa using chain.named node there
  rw [lineTriplets_eq, if_neg chain.spoken, if_pos cut, found]
  simp only [named]
  exact chainTriplets_eq _ _

/-- A line that has triplets is a chain. -/
theorem chain_of_triplet {type line : Text} {triplet : Triplet}
    (inside : triplet ∈ lineTriplets type line) :
    Chain type line (splitOn arrow (chainOf type line)) := by
  rw [lineTriplets_eq] at inside
  split_ifs at inside with verbatim cut
  · exact absurd inside List.not_mem_nil
  · obtain ⟨parts, cut⟩ := Option.isSome_iff_exists.mp cut
    dsimp only at inside
    split_ifs at inside with unnamed
    · exact absurd inside List.not_mem_nil
    · constructor
      · exact verbatim
      · exact (intercalate_splitOn arrow_ne_nil _).symm
      · rw [splitOn_cut arrow_ne_nil cut, List.length_cons]
        have later := List.length_pos_iff.mpr (splitOn_ne_nil arrow parts.2)
        omega
      · exact not_infix_splitOn arrow_ne_nil _
      · intro node there empty
        apply unnamed
        rw [List.any_eq_true]
        exact ⟨[], List.mem_map.mpr ⟨node, there, empty⟩, rfl⟩
  · exact absurd inside List.not_mem_nil

/-! ## Entities -/

/-- A trimmed entity is a part of the text. -/
theorem trimEntity_part (text : Text) : trimEntity text <:+: text := by
  rw [trimEntity]
  have front := List.dropWhile_suffix (l := text)
    fun byte : UInt8 => byte == 32 || byte == 9 || byte == 13 || byte == 10
  have back := List.rdropWhile_prefix
    (fun byte : UInt8 => byte == 32 || byte == 9 || byte == 13 || byte == 10)
    (text.dropWhile fun byte : UInt8 => byte == 32 || byte == 9 || byte == 13 || byte == 10)
  exact back.isInfix.trans front.isInfix

/-- An entity is a part of its node, and not empty. -/
theorem entity_of_mem {node entity : Text} (inside : entity ∈ chainEntities node) :
    entity ≠ [] ∧ entity <:+: node := by
  unfold chainEntities at inside
  dsimp only at inside
  have value := trimEntity_part node
  split_ifs at inside with empty single open_set unnamed
  · exact absurd inside List.not_mem_nil
  · rw [List.mem_singleton] at inside
    rw [inside]
    exact ⟨empty, value⟩
  · exact absurd inside List.not_mem_nil
  · exact absurd inside List.not_mem_nil
  · have each : ∀ member ∈ (Lines.lines 44
        ((trimEntity node |>.drop 1).take ((trimEntity node).length - 2))).map trimEntity,
        member ≠ [] := by
      intro member there missing
      apply unnamed
      rw [List.any_eq_true]
      exact ⟨member, there, by simp [missing]⟩
    refine ⟨each entity inside, ?_⟩
    obtain ⟨member, there, rfl⟩ := List.mem_map.mp inside
    have within : (trimEntity node |>.drop 1).take ((trimEntity node).length - 2) <:+:
        trimEntity node :=
      (List.take_prefix _ _).isInfix.trans (List.drop_suffix _ _).isInfix
    exact (trimEntity_part member).trans
      ((Lines.infix_of_mem_lines there).trans (within.trans value))

/-- What is left of an object begins it. -/
theorem extract_begins (object : Text) : (extractDateFromObject object).1 <+: object := by
  unfold extractDateFromObject
  cases found : fullMatch dateSuffixPattern object with
  | none => exact List.prefix_refl object
  | some groups =>
    obtain ⟨stop, moves, _, rfl⟩ := fullMatch_moves found
    rw [dateSuffixPattern] at moves
    obtain ⟨start, begins, moves⟩ := moves.all_cons
    obtain ⟨_, rfl⟩ := begins.of_atStart
    obtain ⟨first, body, moves⟩ := moves.all_cons
    obtain ⟨_, blanks, moves⟩ := moves.all_cons
    obtain ⟨_, sign, moves⟩ := moves.all_cons
    obtain ⟨last, date, ends⟩ := moves.all_cons
    obtain ⟨inner, part, within, whole, _, recorded⟩ := body.of_group
    obtain ⟨after, own, dated, _, _, dates⟩ := date.of_group
    have kept : stop.groups = last.groups := by
      cases ends
      rfl
    have read : groupText stop.groups 1 = part := by
      rw [kept, dates, dated.groups_eq rfl, sign.groups_eq rfl, blanks.groups_eq rfl, recorded]
      rfl
    show trimEnd (groupText stop.groups 1) <+: object
    rw [read]
    have kept := List.rdropWhile_prefix isSpace part
    rw [show object = part ++ inner.rest from whole]
    exact kept.trans (List.prefix_append _ _)

/-- Both ends of a pair are entities of a part. -/
theorem ends_of_edge {nodes : List (List Text)} {edge : Text × Text} (inside : edge ∈ edges nodes) :
    (∃ entities ∈ nodes, edge.1 ∈ entities) ∧ ∃ entities ∈ nodes, edge.2 ∈ entities := by
  obtain ⟨ends, pair, there⟩ := List.mem_flatMap.mp inside
  obtain ⟨subject, own, there⟩ := List.mem_flatMap.mp there
  obtain ⟨object, other, rfl⟩ := List.mem_map.mp there
  have both := List.of_mem_zip pair
  exact ⟨⟨ends.1, both.1, own⟩, ⟨ends.2, List.mem_of_mem_tail both.2, other⟩⟩

/-- A triplet of a line says what a pair of entities without an arrow says. -/
theorem triplet_of_line {type line : Text} {triplet : Triplet}
    (inside : triplet ∈ lineTriplets type line) :
    ∃ subject object, triplet = ⟨subject, predicateOf type line, (extractDateFromObject object).1,
        (extractDateFromObject object).2⟩ ∧ (extractDateFromObject object).1 ≠ [] ∧ subject ≠ [] ∧
      ¬ arrow <:+: subject ∧ ¬ arrow <:+: object := by
  have chain := chain_of_triplet inside
  have free : ∀ entities ∈ (splitOn arrow (chainOf type line)).map chainEntities,
      ∀ entity ∈ entities, entity ≠ [] ∧ ¬ arrow <:+: entity := by
    intro entities there entity own
    obtain ⟨node, part, rfl⟩ := List.mem_map.mp there
    obtain ⟨some_byte, within⟩ := entity_of_mem own
    exact ⟨some_byte, fun holds => chain.parted node part (holds.trans within)⟩
  rw [lineTriplets_chain chain, List.mem_filterMap] at inside
  obtain ⟨edge, pair, made⟩ := inside
  obtain ⟨⟨subjects, left, own⟩, ⟨objects, right, other⟩⟩ := ends_of_edge pair
  obtain ⟨some_subject, plain⟩ := free subjects left edge.1 own
  obtain ⟨_, plainObject⟩ := free objects right edge.2 other
  unfold edgeTriplet at made
  dsimp only at made
  split_ifs at made with empty
  exact ⟨edge.1, edge.2, (Option.some.inj made).symm, empty, some_subject, plain, plainObject⟩

/-- The parts of a triplet of a line are not empty and have no arrow inside. -/
theorem parts_of_line {type line : Text} {triplet : Triplet}
    (inside : triplet ∈ lineTriplets type line) :
    (triplet.subject ≠ [] ∧ triplet.predicate ≠ [] ∧ triplet.object ≠ []) ∧
      ¬ arrow <:+: triplet.subject ∧ ¬ arrow <:+: triplet.predicate ∧
        ¬ arrow <:+: triplet.object := by
  obtain ⟨subject, object, rfl, clean, some_subject, plain, plainObject⟩ := triplet_of_line inside
  have predicate : predicateOf type line ≠ [] ∧ ¬ arrow <:+: predicateOf type line := by
    unfold predicateOf
    dsimp only
    split_ifs <;> decide
  have inner := (extract_begins object).isInfix
  exact ⟨⟨some_subject, predicate.1, clean⟩, plain, predicate.2,
    fun holds => plainObject (holds.trans inner)⟩

/-- No part of a triplet is empty. -/
theorem Made.filled {triplet : Triplet} (made : Made triplet) :
    triplet.subject ≠ [] ∧ triplet.predicate ≠ [] ∧ triplet.object ≠ [] := by
  rcases made with ⟨type, line, inside⟩ | ⟨groups, made⟩
  · exact (parts_of_line inside).1
  · unfold lineTriplet at made
    dsimp only at made
    split_ifs at made with empty
    rw [← Option.some.inj made]
    simpa [and_assoc] using empty

/-! ## Spellings of arrows -/

/-- The name of an arrow in formulas. -/
def latexName : Text := utf8 "\\rightarrow"

/-- `latex`. -/
def latexPattern : Pattern UInt8 :=
  all [maybe (text "$"), many space, text "\\rightarrow", many space, maybe (text "$")]

/-- The arrows are normalised spelling by spelling. -/
theorem normalizeArrows_eq (content : Text) :
    normalizeArrows content = replaceText (utf8 "=>") arrow
      (replaceText (utf8 "->") arrow (replaceAll latexPattern arrow content)) := rfl

/-- A text of the pattern has the name inside, maybe with a sign and white space on both sides. -/
theorem matches_latex {part : Text} {groups : List (Nat × Text)}
    (matched : latexPattern.Matches part groups) :
    ∃ sign blanks more, part = sign ++ (blanks ++ (latexName ++ more)) ∧
      (sign = utf8 "$" ∨ sign = []) ∧ ∀ byte ∈ blanks, isSpace byte = true := by
  rw [latexPattern, matches_all_cons] at matched
  obtain ⟨sign, _, rest, _, rfl, _, signed, matched⟩ := matched
  rw [matches_all_cons] at matched
  obtain ⟨blanks, _, rest, _, rfl, _, spaced, matched⟩ := matched
  rw [matches_all_cons] at matched
  obtain ⟨name, _, more, _, rfl, _, named, _⟩ := matched
  obtain ⟨rfl, _⟩ := (matches_text "\\rightarrow").mp named
  refine ⟨sign, blanks, more, rfl, ?_, ((matches_many isSpace).mp spaced).1⟩
  rcases (matches_maybe (text "$")).mp signed with there | ⟨empty, _⟩
  · exact Or.inl ((matches_text "$").mp there).1
  · exact Or.inr empty

/-- The name alone is a text of the pattern. -/
theorem latex_matches : latexPattern.Matches latexName [] := by
  have blank : (many space).Matches [] [] := (matches_many isSpace).mpr ⟨by simp, rfl⟩
  have none_there : (maybe (text "$")).Matches [] [] := Or.inr ⟨rfl, rfl⟩
  have name : (text "\\rightarrow").Matches latexName [] := (matches_text _).mpr ⟨rfl, rfl⟩
  exact ⟨[], [], _, [], rfl, rfl, none_there, [], [], _, [], rfl, rfl, blank, latexName, [], [], [],
    (List.append_nil latexName).symm, rfl, name, [], [], [], [], rfl, rfl, blank, none_there⟩

/-- No match is found exactly in the texts without the name. -/
theorem search_latex_none {content : Text} :
    search latexPattern content = none ↔ ¬ latexName <:+: content := by
  constructor
  · rintro missing ⟨front, rest, rfl⟩
    have found := searchFrom_of_moves rfl (latex_matches.moves (0 + front.length) rest [])
    rw [← search, ← List.append_assoc, missing] at found
    contradiction
  · intro absent
    apply searchFrom_eq_none rfl
    rintro front part rest groups rfl matched
    obtain ⟨sign, blanks, more, rfl, _⟩ := matches_latex matched
    apply absent
    exact ⟨front ++ (sign ++ blanks), more ++ rest, by simp⟩

/-- No name is left in front of a match. -/
theorem not_infix_skipped {content : Text} {found : Found UInt8}
    (hit : search latexPattern content = some found) : ¬ latexName <:+: found.skipped := by
  rintro ⟨front, rest, whole⟩
  have some_byte : latexName ++ rest ≠ [] := List.append_ne_nil_of_left_ne_nil (by decide) rest
  have fails := searchFrom_leftmost hit (by rw [← whole, List.append_assoc]) some_byte
  have moves := latex_matches.moves (0 + front.length) (rest ++ (found.matched ++ found.rest)) []
  rw [← List.append_assoc] at moves
  have leads := run_of_moves rfl some _ _ moves rfl
  rw [fails] at leads
  contradiction

/-- Replacing the matches leaves no name. -/
theorem not_infix_replaceAll (content : Text) :
    ¬ latexName <:+: replaceAll latexPattern arrow content := by
  induction content using search_induction (rfl : latexPattern.reading = true) with
  | absent content none_here =>
    rw [replaceAll_none none_here]
    exact search_latex_none.mp none_here
  | hit content found first ih =>
    rw [replaceAll_some rfl rfl first]
    intro inside
    have apart : ∀ byte ∈ arrow, byte ∉ latexName := forall_bytes (by decide)
    rcases infix_append_middle arrow_ne_nil apart inside with skipped | later
    · exact not_infix_skipped first skipped
    · exact ih later

/-- A text without another spelling of an arrow is normal. -/
theorem normalizeArrows_of_absent {content : Text} (name : ¬ latexName <:+: content)
    (dash : ¬ utf8 "->" <:+: content) (double : ¬ utf8 "=>" <:+: content) :
    normalizeArrows content = content := by
  rw [normalizeArrows_eq, replaceAll_none (search_latex_none.mpr name), replaceText_absent dash,
    replaceText_absent double]

/-- No other spelling of an arrow is left. -/
theorem normalizeArrows_absent (content : Text) :
    ¬ latexName <:+: normalizeArrows content ∧ ¬ utf8 "->" <:+: normalizeArrows content ∧
      ¬ utf8 "=>" <:+: normalizeArrows content := by
  have name := not_infix_replaceAll content
  rw [normalizeArrows_eq]
  generalize replaceAll latexPattern arrow content = first at name
  have dash : ¬ utf8 "->" <:+: replaceText (utf8 "->") arrow first :=
    not_infix_replaceText (by decide) arrow_ne_nil (forall_bytes (by decide)) first
  have kept : ¬ latexName <:+: replaceText (utf8 "->") arrow first :=
    not_infix_replaceText_other (by decide) arrow_ne_nil (forall_bytes (by decide)) name
  refine ⟨?_, ?_, ?_⟩
  · exact not_infix_replaceText_other (by decide) arrow_ne_nil (forall_bytes (by decide)) kept
  · exact not_infix_replaceText_other (by decide) arrow_ne_nil (forall_bytes (by decide)) dash
  · exact not_infix_replaceText (by decide) arrow_ne_nil (forall_bytes (by decide)) _

/-- Normal arrows stay. -/
theorem normalizeArrows_idempotent (content : Text) :
    normalizeArrows (normalizeArrows content) = normalizeArrows content := by
  obtain ⟨name, dash, double⟩ := normalizeArrows_absent content
  exact normalizeArrows_of_absent name dash double

end Chitta.Ssl
