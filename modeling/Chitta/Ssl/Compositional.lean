import Mathlib.Data.List.Induction
import Chitta.Ssl.Parser

/-!
# Parsing the parts of a text

A text that is cut before a marker or `[TRIPLET]` line parses like its two parts, unless the first
part ends inside a block whose content is still empty: `store_current` returns early there and
keeps the type and the citations. The citations then go to the first block of the second part that
has content, and behind a `[TRIPLET]` line the open block takes the continuation lines that follow.
The condition says when this shows.
-/
namespace Chitta.Ssl

open Bytes Regex Regex.Pattern

/-- What a line is to a parser inside a block. -/
inductive LineKind where
  /-- A typed marker with its type and its content. -/
  | marker (type content : Text)
  /-- A verbatim or continuation line. -/
  | extends
  /-- A citation of a file. -/
  | cites (cite : Citation)
  /-- A `[TRIPLET]` line, with its triplet unless a part of it is empty. -/
  | triplet (triplet : Option Triplet)
  /-- Anything else. -/
  | nothing

/-- The kind of a line. -/
def kindOf (line : Text) : LineKind :=
  if line.isEmpty || line.take 3 == utf8 "```" || line == utf8 "---" then .nothing
  else
    match fullMatch typePattern line with
    | some groups => .marker (groupText groups 1) (groupText groups 2)
    | none =>
      if utf8 "[ε]" <+: line then .extends
      else if (search citePattern line).isSome then
        let cite := parseCiteLine line
        if cite.file.isEmpty then .nothing else .cites cite
      else
        match fullMatch tripletPattern line with
        | some groups => .triplet (lineTriplet groups)
        | none => if line.head? != some 91 then .extends else .nothing

/-- The block that is pending after a text. -/
def pendingAfter (stof : Text → Option Rat) (lines : List Text) : Block :=
  lines.foldl (fun block line => (feedLine stof block line).1) {}

/-- A text begins with a typed marker that has content, or with a `[TRIPLET]` line. -/
def BeginsBlock (output : Text) : Prop :=
  ∃ first rest, Lines.lines newline output = first :: rest ∧
    ((∃ groups, fullMatch typePattern first = some groups ∧ groupText groups 2 ≠ []) ∨
      ∃ groups, fullMatch tripletPattern first = some groups)

/-- Citations collected before change nothing about a block with this content. -/
def settled (extra own : List Citation) (content : Text) : Bool :=
  content.isEmpty ||
    allCitations (extra ++ own) (extractInlineCitations content) ==
      allCitations own (extractInlineCitations content)

/-- Citations collected before change nothing when a block with these citations and this content
is followed by some lines: the first block with content has all of them anyway. -/
def harmless (extra : List Citation) : List Citation → Text → List Text → Bool
  | own, content, [] => settled extra own content
  | own, content, line :: rest =>
    match kindOf line with
    | .marker _ fresh =>
      if content.isEmpty then harmless extra own fresh rest else settled extra own content
    | .extends => harmless extra own (content ++ newline :: line) rest
    | .cites cite => harmless extra (own ++ [cite]) content rest
    | .triplet _ =>
      if content.isEmpty then harmless extra own content rest else settled extra own content
    | .nothing => harmless extra own content rest

/-- An open block without content, with these citations, does not show behind it: up to the next
marker there is no verbatim or continuation line, and its citations are harmless there. -/
def unseen (extra : List Citation) : List Text → Bool
  | [] => true
  | line :: rest =>
    match kindOf line with
    | .marker _ fresh => harmless extra [] fresh rest
    | .extends => false
    | .cites cite => unseen (extra ++ [cite]) rest
    | .triplet _ => unseen extra rest
    | .nothing => unseen extra rest

/-! ## Lines that begin with a bracket -/

variable {stof : Text → Option Rat} {block : Block} {line : Text}

/-- A pattern that begins with a literal at the start matches only texts that begin with it. -/
theorem anchored_begins {characters : Text} {rest : List (Pattern UInt8)}
    {place stop : Place UInt8}
    (moves : Moves (all (atStart :: literal characters :: rest)) place stop) :
    place.passed = 0 ∧ characters <+: place.rest := by
  obtain ⟨_, start, others⟩ := moves.all_cons
  obtain ⟨first, rfl⟩ := start.of_atStart
  obtain ⟨_, literally, _⟩ := others.all_cons
  exact ⟨first, _, literally.literal.1.symm⟩

/-- A marker begins with a bracket, and its type is not empty. -/
theorem marker_reads {groups : List (Nat × Text)}
    (found : fullMatch typePattern line = some groups) :
    utf8 "[" <+: line ∧ groupText groups 1 ≠ [] := by
  obtain ⟨stop, moves, _, rfl⟩ := fullMatch_moves found
  refine ⟨(anchored_begins moves).2, ?_⟩
  obtain ⟨_, _, moves⟩ := moves.all_cons
  obtain ⟨_, _, moves⟩ := moves.all_cons
  obtain ⟨named, name, moves⟩ := moves.all_cons
  obtain ⟨closed, bracket, moves⟩ := moves.all_cons
  obtain ⟨spaced, blanks, moves⟩ := moves.all_cons
  obtain ⟨filled, content, moves⟩ := moves.all_cons
  obtain ⟨last, body, inner, _, _, recorded⟩ := content.of_group
  obtain ⟨passed, part, within, start, _, named_groups⟩ := name.of_group
  -- the groups at the end are the content, then the name
  have groups : stop.groups = (2, body) :: (1, part) :: passed.groups := by
    rw [moves.groups_eq rfl, recorded, inner.groups_eq rfl, blanks.groups_eq rfl,
      bracket.groups_eq rfl, named_groups]
  have reads : groupText stop.groups 1 = part := by
    rw [groups]
    rfl
  rw [reads]
  rintro rfl
  -- each name passes over something
  obtain ⟨pattern, choice, beyond⟩ := within.oneOf
  obtain ⟨characters, listed, rfl⟩ := List.mem_map.mp choice
  have literally := beyond.literal.1
  rw [start, List.nil_append, List.self_eq_append_left] at literally
  have some_name : ∀ name ∈ typeNames, utf8 name ≠ [] := by decide
  exact some_name characters listed literally

/-- A `[TRIPLET]` line begins with this text. -/
theorem triplet_begins {groups : List (Nat × Text)}
    (found : fullMatch tripletPattern line = some groups) : utf8 "[TRIPLET]" <+: line := by
  obtain ⟨stop, moves, _, _⟩ := fullMatch_moves found
  exact (anchored_begins moves).2

/-- A citation line begins with its marker. -/
theorem cite_begins (found : (search citePattern line).isSome = true) :
    utf8 "[CITE]" <+: line := by
  obtain ⟨hit, found⟩ := Option.isSome_iff_exists.mp found
  obtain ⟨count, stop, moves⟩ := searchFrom_moves found
  obtain ⟨first, begins⟩ := anchored_begins moves
  have here : count = 0 := by simpa using first
  subst here
  exact begins

/-- Two beginnings of a text agree as far as they go. -/
theorem begins_apart {one other : Text}
    (apart : (one.isPrefixOf other || other.isPrefixOf one) = false)
    (begins : one <+: line) : ¬ other <+: line := by
  intro too
  rw [Bool.or_eq_false_iff] at apart
  rcases List.prefix_or_prefix_of_prefix begins too with first | second
  · rw [← List.isPrefixOf_iff_prefix, apart.1] at first
    contradiction
  · rw [← List.isPrefixOf_iff_prefix, apart.2] at second
    contradiction

/-- A line that begins with a bracket is not passed by. -/
theorem bracket_read (begins : utf8 "[" <+: line) :
    (line.isEmpty || line.take 3 == utf8 "```" || line == utf8 "---") = false := by
  obtain ⟨rest, rfl⟩ := begins
  have first : (utf8 "[" ++ rest).head? = some 91 := rfl
  simp only [Bool.or_eq_false_iff, beq_eq_false_iff_ne]
  refine ⟨⟨rfl, fun fence => ?_⟩, fun rule => ?_⟩
  · have begin_fence := congrArg List.head? fence
    rw [List.head?_take, if_neg (by decide), first] at begin_fence
    revert begin_fence
    decide
  · rw [rule] at first
    revert first
    decide

/-- The lines that the loop passes by. -/
def passedBy (line : Text) : Bool :=
  line.isEmpty || line.take 3 == utf8 "```" || line == utf8 "---"

/-- Why a line is of its kind. -/
inductive KindCase (line : Text) : LineKind → Prop
  | passedBy (passed : passedBy line = true) : KindCase line .nothing
  | marker (read : passedBy line = false) (groups : List (Nat × Text))
      (found : fullMatch typePattern line = some groups) :
      KindCase line (.marker (groupText groups 1) (groupText groups 2))
  | verbatim (read : passedBy line = false) (unmarked : fullMatch typePattern line = none)
      (begins : utf8 "[ε]" <+: line) : KindCase line .extends
  | cites (read : passedBy line = false) (unmarked : fullMatch typePattern line = none)
      (plain : ¬ utf8 "[ε]" <+: line) (found : (search citePattern line).isSome = true)
      (file : (parseCiteLine line).file.isEmpty = false) :
      KindCase line (.cites (parseCiteLine line))
  | citesNothing (read : passedBy line = false) (unmarked : fullMatch typePattern line = none)
      (plain : ¬ utf8 "[ε]" <+: line) (found : (search citePattern line).isSome = true)
      (file : (parseCiteLine line).file.isEmpty = true) : KindCase line .nothing
  | triplet (read : passedBy line = false) (unmarked : fullMatch typePattern line = none)
      (plain : ¬ utf8 "[ε]" <+: line) (uncited : (search citePattern line).isSome = false)
      (groups : List (Nat × Text)) (found : fullMatch tripletPattern line = some groups) :
      KindCase line (.triplet (lineTriplet groups))
  | continues (read : passedBy line = false) (unmarked : fullMatch typePattern line = none)
      (plain : ¬ utf8 "[ε]" <+: line) (uncited : (search citePattern line).isSome = false)
      (untripled : fullMatch tripletPattern line = none)
      (open_line : (line.head? != some 91) = true) : KindCase line .extends
  | ignored (read : passedBy line = false) (unmarked : fullMatch typePattern line = none)
      (plain : ¬ utf8 "[ε]" <+: line) (uncited : (search citePattern line).isSome = false)
      (untripled : fullMatch tripletPattern line = none)
      (bracket : (line.head? != some 91) = false) : KindCase line .nothing

/-- Every line is of its kind for one of these reasons. -/
theorem kindOf_case (line : Text) : KindCase line (kindOf line) := by
  unfold kindOf
  split
  · rename_i passed
    exact .passedBy passed
  · rename_i read
    have read : passedBy line = false := by simpa [passedBy] using read
    cases unmarked : fullMatch typePattern line with
    | some groups => exact .marker read groups unmarked
    | none =>
      dsimp only
      split
      · rename_i begins
        exact .verbatim read unmarked begins
      · rename_i plain
        split
        · rename_i found
          split
          · rename_i file
            exact .citesNothing read unmarked plain found file
          · rename_i file
            exact .cites read unmarked plain found (by simpa using file)
        · rename_i uncited
          have uncited : (search citePattern line).isSome = false := by simpa using uncited
          cases untripled : fullMatch tripletPattern line with
          | some groups => exact .triplet read unmarked plain uncited groups untripled
          | none =>
            dsimp only
            split
            · rename_i open_line
              exact .continues read unmarked plain uncited untripled open_line
            · rename_i bracket
              exact .ignored read unmarked plain uncited untripled (by simpa using bracket)

/-- A text that begins a block begins with a marker or a triplet. -/
theorem BeginsBlock.kind {output : Text} (begins : BeginsBlock output) :
    ∃ first rest, Lines.lines newline output = first :: rest ∧
      ((∃ type content, kindOf first = .marker type content) ∨
        ∃ triplet, kindOf first = .triplet triplet) := by
  obtain ⟨first, rest, lines, ⟨groups, marker, _⟩ | ⟨groups, triplet⟩⟩ := begins
  · refine ⟨first, rest, lines, .inl ⟨groupText groups 1, groupText groups 2, ?_⟩⟩
    rw [kindOf, bracket_read (marker_reads marker).1, marker]
    rfl
  · refine ⟨first, rest, lines, ?_⟩
    have start := triplet_begins triplet
    have bracket : utf8 "[" <+: first := List.IsPrefix.trans (by decide) start
    have reason := kindOf_case first
    generalize kindOf first = kind at reason
    cases reason with
    | marker _ groups _ => exact .inl ⟨_, _, rfl⟩
    | triplet _ _ _ _ groups _ => exact .inr ⟨_, rfl⟩
    | passedBy passed =>
      rw [passedBy, bracket_read bracket] at passed
      contradiction
    | verbatim _ _ begins => exact absurd begins (begins_apart (by decide) start)
    | cites _ _ _ found _ | citesNothing _ _ _ found _ =>
      exact absurd (cite_begins found) (begins_apart (by decide) start)
    | continues _ _ _ _ untripled _ | ignored _ _ _ _ untripled _ =>
      rw [triplet] at untripled
      contradiction

/-- A marker has a type. -/
theorem type_of_marker {type content : Text} (kind : kindOf line = .marker type content) :
    type ≠ [] := by
  have reason := kindOf_case line
  rw [kind] at reason
  cases reason with
  | marker _ groups found => exact (marker_reads found).2

/-- What a line does inside a block. -/
theorem feedLine_inside (stof : Text → Option Rat) (line : Text) (inside : block.type ≠ []) :
    feedLine stof block line =
      match kindOf line with
      | .marker type content =>
        ({ (storeCurrent stof block).1 with type, content }, (storeCurrent stof block).2)
      | .extends => (block.extend line, {})
      | .cites cite => ({ block with citations := block.citations ++ [cite] }, {})
      | .triplet triplet =>
        ((storeCurrent stof block).1, (storeCurrent stof block).2 ++ ⟨[], triplet.toList⟩)
      | .nothing => (block, {}) := by
  have typed : block.type.isEmpty = false := by simpa using inside
  have reason := kindOf_case line
  generalize kindOf line = kind at reason
  cases reason with
  | passedBy passed =>
    rw [passedBy] at passed
    simp only [feedLine, passed, ↓reduceIte]
  | marker read groups found =>
    rw [passedBy] at read
    simp only [feedLine, read, found, Bool.false_eq_true, ↓reduceIte]
  | verbatim read unmarked begins =>
    rw [passedBy] at read
    simp [feedLine, read, unmarked, begins, typed]
  | cites read unmarked plain found file | citesNothing read unmarked plain found file =>
    rw [passedBy] at read
    simp [feedLine, read, unmarked, plain, found, file, typed]
  | triplet read unmarked plain uncited groups found =>
    rw [passedBy] at read
    simp [feedLine, read, unmarked, plain, uncited, found]
  | continues read unmarked plain uncited untripled line_start
  | ignored read unmarked plain uncited untripled line_start =>
    rw [passedBy] at read
    simp [feedLine, read, unmarked, plain, uncited, untripled, line_start, typed]

/-! ## Results -/

/-- Nothing before a result. -/
@[simp] theorem empty_append (result : Result) : ({} : Result) ++ result = result := rfl

/-- Nothing behind a result. -/
@[simp] theorem append_empty (result : Result) : result ++ ({} : Result) = result := by
  change Result.append result {} = result
  simp [Result.append]

/-- Results are joined in any grouping. -/
theorem append_assoc (first second third : Result) :
    first ++ second ++ third = first ++ (second ++ third) := by
  change Result.append (Result.append first second) third =
    Result.append first (Result.append second third)
  simp [Result.append]

/-- A common beginning can be left out. -/
theorem append_left_inj (first : Result) {second third : Result} :
    first ++ second = first ++ third ↔ second = third := by
  constructor
  · intro same
    have learnings := congrArg Result.learnings same
    have triplets := congrArg Result.triplets same
    cases second
    cases third
    exact congrArg₂ Result.mk (List.append_cancel_left learnings)
      (List.append_cancel_left triplets)
  · exact congrArg _

/-- A common end can be left out. -/
theorem append_right_inj (third : Result) {first second : Result} :
    first ++ third = second ++ third ↔ first = second := by
  constructor
  · intro same
    have learnings := congrArg Result.learnings same
    have triplets := congrArg Result.triplets same
    cases first
    cases second
    exact congrArg₂ Result.mk (List.append_cancel_right learnings)
      (List.append_cancel_right triplets)
  · exact congrArg (· ++ third)

/-- What a line does outside a block. -/
theorem feedLine_outside (stof : Text → Option Rat) (line : Text) :
    feedLine stof {} line =
      match kindOf line with
      | .marker type content => ({ type, content }, {})
      | .triplet triplet => ({}, ⟨[], triplet.toList⟩)
      | _ => ({}, {}) := by
  have untripled : utf8 "[ε]" <+: line ∨ (search citePattern line).isSome = true →
      fullMatch tripletPattern line = none := by
    intro other
    cases found : fullMatch tripletPattern line with
    | none => rfl
    | some groups =>
      have start := triplet_begins found
      rcases other with verbatim | cited
      · exact absurd verbatim (begins_apart (by decide) start)
      · exact absurd (cite_begins cited) (begins_apart (by decide) start)
  have reason := kindOf_case line
  generalize kindOf line = kind at reason
  cases reason with
  | passedBy passed =>
    rw [passedBy] at passed
    simp only [feedLine, passed, ↓reduceIte]
  | marker read groups found =>
    rw [passedBy] at read
    simp [feedLine, read, found, storeCurrent]
  | verbatim read unmarked begins =>
    rw [passedBy] at read
    simp [feedLine, read, unmarked, untripled (.inl begins)]
  | cites read unmarked plain found file | citesNothing read unmarked plain found file =>
    rw [passedBy] at read
    simp [feedLine, read, unmarked, untripled (.inr found)]
  | triplet read unmarked plain uncited groups found =>
    rw [passedBy] at read
    simp [feedLine, read, unmarked, found, storeCurrent]
  | continues read unmarked plain uncited untripled line_start
  | ignored read unmarked plain uncited untripled line_start =>
    rw [passedBy] at read
    simp [feedLine, read, unmarked, untripled]

/-! ## Blocks without content -/

/-- A block without content stores nothing and stays. -/
theorem storeCurrent_open {type : Text} {citations : List Citation} :
    storeCurrent stof ⟨type, [], citations⟩ = (⟨type, [], citations⟩, {}) := by
  simp [storeCurrent]

/-- A block with content stores its learning and its triplets. -/
theorem storeCurrent_filled {type content : Text} {citations : List Citation} (typed : type ≠ [])
    (filled : content ≠ []) :
    storeCurrent stof ⟨type, content, citations⟩ =
      ({}, ⟨[learningOf stof ⟨type, content, citations⟩],
        (Lines.lines newline content).flatMap (lineTriplets type)⟩) := by
  simp [storeCurrent, typed, filled]

/-- The learning of a block is the same with more citations exactly when they are settled. -/
theorem learningOf_extra (stof : Text → Option Rat) (type : Text) {content : Text}
    {extra own : List Citation} (filled : content ≠ []) :
    learningOf stof ⟨type, content, extra ++ own⟩ = learningOf stof ⟨type, content, own⟩ ↔
      settled extra own content = true := by
  simp [learningOf, settled, filled]

/-- Two blocks that differ in the citations store the same exactly when these are settled. -/
theorem storeCurrent_extra (stof : Text → Option Rat) (extra own : List Citation)
    {type content : Text} (typed : type ≠ []) (filled : content ≠ []) (rest : Result) :
    (storeCurrent stof ⟨type, content, extra ++ own⟩).2 ++ rest =
        (storeCurrent stof ⟨type, content, own⟩).2 ++ rest ↔
      settled extra own content = true := by
  rw [append_right_inj, storeCurrent_filled typed filled, storeCurrent_filled typed filled,
    ← learningOf_extra stof type filled]
  simp

/-- Two blocks that differ in the citations have the same outcome exactly when the additional
citations are harmless. -/
theorem parseLines_extra {type content : Text} {extra own : List Citation} (typed : type ≠ [])
    (lines : List Text) :
    parseLines stof ⟨type, content, extra ++ own⟩ lines =
        parseLines stof ⟨type, content, own⟩ lines ↔
      harmless extra own content lines = true := by
  induction lines generalizing type content own with
  | nil =>
    by_cases filled : content = []
    · subst filled
      simp [parseLines, storeCurrent_open, harmless, settled]
    · have same := storeCurrent_extra stof extra own typed filled {}
      simpa [parseLines, harmless] using same
  | cons line rest ih =>
    simp only [parseLines, harmless]
    rw [feedLine_inside stof line typed, feedLine_inside stof line typed]
    cases kind : kindOf line with
    | marker next fresh =>
      have named := type_of_marker kind
      by_cases filled : content = []
      · subst filled
        simpa [storeCurrent_open] using ih named
      · have same := storeCurrent_extra stof extra own typed filled
          (parseLines stof ⟨next, fresh, []⟩ rest)
        simpa [storeCurrent_filled typed filled, filled] using same
    | «extends» =>
      simpa [Block.extend] using ih typed
    | cites cite =>
      simpa [List.append_assoc] using @ih type content (own ++ [cite]) typed
    | triplet triplet =>
      by_cases filled : content = []
      · subst filled
        simpa [storeCurrent_open, append_left_inj] using ih typed
      · have same := storeCurrent_extra stof extra own typed filled
          (⟨[], triplet.toList⟩ ++ parseLines stof {} rest)
        simpa [storeCurrent_filled typed filled, filled, append_assoc] using same
    | nothing => simpa using ih typed

/-- A block with content that is still open stores one learning more. -/
theorem length_parseLines_filled {type content : Text} {citations : List Citation}
    (typed : type ≠ []) (filled : content ≠ []) (lines : List Text) :
    (parseLines stof ⟨type, content, citations⟩ lines).learnings.length =
      (parseLines stof {} lines).learnings.length + 1 := by
  have joined : ∀ first second : Result, (first ++ second).learnings.length =
      first.learnings.length + second.learnings.length :=
    fun first second => List.length_append
  induction lines generalizing content citations with
  | nil =>
    have empty : storeCurrent stof {} = ({}, {}) := rfl
    simp [parseLines, storeCurrent_filled typed filled, empty]
  | cons line rest ih =>
    simp only [parseLines]
    rw [feedLine_inside stof line typed, feedLine_outside stof line]
    cases kind : kindOf line with
    | marker next fresh =>
      simp only [storeCurrent_filled typed filled, joined, List.length_singleton, List.length_nil]
      omega
    | triplet triplet =>
      simp only [storeCurrent_filled typed filled, joined, List.length_singleton, List.length_nil]
      omega
    | «extends» =>
      have more : content ++ newline :: line ≠ [] := by simp
      simpa [Block.extend] using ih more
    | cites cite => simpa using ih filled
    | nothing => simpa using ih filled

/-- A block without content has no outcome of its own exactly when it is unseen. -/
theorem parseLines_open {type : Text} {citations : List Citation} (typed : type ≠ [])
    (lines : List Text) :
    parseLines stof ⟨type, [], citations⟩ lines = parseLines stof {} lines ↔
      unseen citations lines = true := by
  induction lines generalizing citations with
  | nil =>
    have empty : storeCurrent stof {} = ({}, {}) := rfl
    simp [parseLines, storeCurrent_open, unseen, empty]
  | cons line rest ih =>
    simp only [parseLines, unseen]
    rw [feedLine_inside stof line typed, feedLine_outside stof line]
    cases kind : kindOf line with
    | marker next fresh =>
      have same := @parseLines_extra stof next fresh citations [] (type_of_marker kind) rest
      simpa [storeCurrent_open] using same
    | triplet triplet => simpa [storeCurrent_open, append_left_inj] using ih
    | «extends» =>
      have more : ([] : Text) ++ newline :: line ≠ [] := by simp
      have length := @length_parseLines_filled stof type _ citations typed more rest
      refine ⟨fun same => ?_, fun impossible => by contradiction⟩
      have equal := congrArg (fun result => result.learnings.length) same
      simp only [empty_append, Block.extend] at equal
      omega
    | cites cite => simpa using ih
    | nothing => simpa using ih

/-! ## Joining two texts -/

/-- The lines of a text have an outcome, and leave a block to the lines that follow. -/
theorem parseLines_append (stof : Text → Option Rat) (lines : List Text) (block : Block) :
    ∃ pushed, ∀ others, parseLines stof block (lines ++ others) =
      pushed ++ parseLines stof (lines.foldl (fun block line => (feedLine stof block line).1) block)
        others := by
  induction lines generalizing block with
  | nil => exact ⟨{}, fun others => rfl⟩
  | cons line rest ih =>
    obtain ⟨pushed, later⟩ := ih (feedLine stof block line).1
    refine ⟨(feedLine stof block line).2 ++ pushed, fun others => ?_⟩
    simp only [List.cons_append, parseLines, List.foldl_cons]
    rw [later others, append_assoc]

/-- Empty lines are passed by. -/
theorem feedLine_empty (stof : Text → Option Rat) (block : Block) :
    feedLine stof block [] = (block, {}) := rfl

/-- Two texts that a line break joins have the lines of the first and then those of the second,
apart from an empty one. -/
theorem parse_join (stof : Text → Option Rat) (first second : Text) :
    parse stof (first ++ newline :: second) =
      parseLines stof {} (Lines.lines newline first ++ Lines.lines newline second) := by
  have absent := @Lines.not_mem_unfinished _ _ newline first
  have behind : Lines.lines newline (Lines.unfinished newline first ++ newline :: second) =
      Lines.unfinished newline first :: Lines.lines newline second := by
    generalize Lines.unfinished newline first = line at absent
    induction line with
    | nil => simp [Lines.lines]
    | cons byte rest ih =>
      have apart : byte ≠ newline := fun same => absent (same ▸ List.mem_cons_self)
      have inner := ih fun inside => absent (List.mem_cons_of_mem _ inside)
      rw [List.cons_append, Lines.lines, if_neg apart, inner]
  rw [parse, Lines.lines_append, behind, Lines.lines_eq first]
  obtain ⟨pushed, later⟩ := parseLines_append stof (Lines.complete newline first) {}
  rw [later, List.append_assoc, later]
  by_cases empty : Lines.unfinished newline first = []
  · rw [empty, if_pos rfl, parseLines, feedLine_empty]
    rfl
  · rw [if_neg empty]
    rfl

/-- Outside a block nothing is pending. -/
theorem pendingAfter_untyped (stof : Text → Option Rat) (lines : List Text)
    (outside : (pendingAfter stof lines).type = []) : pendingAfter stof lines = {} := by
  induction lines using List.reverseRecOn with
  | nil => rfl
  | append_singleton earlier line ih =>
    rw [pendingAfter, List.foldl_append, List.foldl_cons, List.foldl_nil] at outside ⊢
    change (feedLine stof (pendingAfter stof earlier) line).1.type = [] at outside
    change (feedLine stof (pendingAfter stof earlier) line).1 = {}
    by_cases typed : (pendingAfter stof earlier).type = []
    · rw [ih typed, feedLine_outside] at outside ⊢
      cases kind : kindOf line with
      | marker type content =>
        rw [kind] at outside
        exact absurd outside (type_of_marker kind)
      | _ => rfl
    · rw [feedLine_inside stof line typed] at outside ⊢
      cases kind : kindOf line with
      | marker type content =>
        rw [kind] at outside
        exact absurd outside (type_of_marker kind)
      | triplet triplet =>
        simp only [kind] at outside ⊢
        by_cases filled : (pendingAfter stof earlier).content = []
        · simp [storeCurrent, filled] at outside
          contradiction
        · simp [storeCurrent, filled, typed]
      | _ =>
        rw [kind] at outside
        contradiction

/-- For a text before a typed marker with content or a `[TRIPLET]` line, parsing the joined text
gives what the two texts give exactly when the first one does not end inside a block without
content, or that block does not show in the second. -/
theorem parse_compositional_iff (stof : Text → Option Rat) (first : Text) {second : Text}
    (begins : BeginsBlock second) :
    parse stof (first ++ newline :: second) = parse stof first ++ parse stof second ↔
      (pendingAfter stof (Lines.lines newline first)).type = [] ∨
        (pendingAfter stof (Lines.lines newline first)).content ≠ [] ∨
        unseen (pendingAfter stof (Lines.lines newline first)).citations
          (Lines.lines newline second) = true := by
  obtain ⟨pushed, later⟩ := parseLines_append stof (Lines.lines newline first) {}
  have own : parse stof first = pushed ++
      (storeCurrent stof (pendingAfter stof (Lines.lines newline first))).2 := by
    have alone := later []
    rw [List.append_nil] at alone
    exact alone
  have outside := pendingAfter_untyped stof (Lines.lines newline first)
  rw [parse_join, later, own, append_assoc, append_left_inj, parse]
  change parseLines stof (pendingAfter stof (Lines.lines newline first)) _ = _ ↔ _
  generalize pendingAfter stof (Lines.lines newline first) = block at outside
  obtain ⟨type, content, citations⟩ := block
  by_cases typed : type = []
  · have empty := outside typed
    obtain ⟨rfl, rfl, rfl⟩ : type = [] ∧ content = [] ∧ citations = [] := by simpa using empty
    simp [storeCurrent]
  · by_cases filled : content = []
    · subst filled
      rw [storeCurrent_open, empty_append, parseLines_open typed]
      simp [typed]
    · obtain ⟨line, rest, lines, kind⟩ := begins.kind
      have same : parseLines stof ⟨type, content, citations⟩ (Lines.lines newline second) =
          (storeCurrent stof ⟨type, content, citations⟩).2 ++
            parseLines stof {} (Lines.lines newline second) := by
        rw [lines, parseLines, parseLines, feedLine_inside stof line typed,
          feedLine_outside stof line, storeCurrent_filled typed filled]
        rcases kind with ⟨next, fresh, marker⟩ | ⟨triplet, isTriplet⟩
        · rw [marker]
          rfl
        · rw [isTriplet]
          exact append_assoc _ _ _
      simp [same, filled]

/-- A `std::stof` that is never asked below. -/
def noNumbers : Text → Option Rat := fun _ => none

/-- A second marker follows a first one with content. -/
theorem parse_compositional_iff_markers :
    parse noNumbers (utf8 "[SOLUTION] a" ++ newline :: utf8 "[GOTCHA] b") =
      parse noNumbers (utf8 "[SOLUTION] a") ++ parse noNumbers (utf8 "[GOTCHA] b") := by
  refine (parse_compositional_iff noNumbers (utf8 "[SOLUTION] a") ⟨utf8 "[GOTCHA] b", [],
    by decide, .inl ⟨[(2, utf8 "b"), (1, utf8 "GOTCHA")], by decide,
      by decide⟩⟩).mpr (.inr (.inl ?_))
  decide

/-- The citation of a marker without content goes to the next marker. -/
theorem citation_leaves_block :
    BeginsBlock (utf8 "[GOTCHA] b") ∧
      parse noNumbers (utf8 "[SOLUTION] \n[CITE] f:1" ++ newline :: utf8 "[GOTCHA] b") ≠
        parse noNumbers (utf8 "[SOLUTION] \n[CITE] f:1") ++
          parse noNumbers (utf8 "[GOTCHA] b") := by
  refine ⟨⟨utf8 "[GOTCHA] b", [], by decide,
    .inl ⟨[(2, utf8 "b"), (1, utf8 "GOTCHA")], by decide, by decide⟩⟩, ?_⟩
  decide

end Chitta.Ssl
