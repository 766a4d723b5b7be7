import Chitta.Regex.Greedy
import Chitta.Ssl.Gloss
import Mathlib.Data.List.TakeWhile

/-!
# What a gloss says of a line

A line has tags in front, a subject, a predicate and perhaps an object. Every tag that is found
later in the line takes what stands before it away, so a bracketed word behind the tags in front is
lost with the words before it. The brackets of a text are counted to show that.
-/
namespace Chitta.Ssl

open Bytes Regex Regex.Pattern Utf8

/-! ## Structured lines -/

/-- A byte of a tag behind its first one. -/
def tagByte (byte : UInt8) : Bool := isLetter byte || isDigit byte || byte == 95 || byte == 45

/-- The name of a tag: a letter and at least one more byte. -/
def TagName : Text → Prop
  | first :: second :: more =>
    isLetter first = true ∧ ∀ byte ∈ second :: more, tagByte byte = true
  | _ => False

/-- A text has a bracketed word. -/
def Bracketed (text : Text) : Prop :=
  ∃ front name rest, TagName name ∧ text = front ++ (91 :: (name ++ 93 :: rest))

/-- What is said of an object: no flag behind it, no blanks around it. -/
def objectText (object : Text) : Text :=
  trimBlank (replaceAll flagSuffixPattern [] (trimBlank object))

/-- A line with its parts. -/
structure TripletLine where
  /-- The names of the tags in front with the white space behind them. -/
  tags : List (Text × Text)
  /-- What stands before the first arrow. -/
  subject : Text
  /-- What stands before the next arrow. -/
  predicate : Text
  /-- What stands behind it. -/
  object : Option Text
  /-- Tags have names. -/
  named : ∀ tag ∈ tags, TagName tag.1
  /-- The white space is white. -/
  blank : ∀ tag ∈ tags, ∀ byte ∈ tag.2, isSpace byte = true
  /-- All the white space behind a tag belongs to it. -/
  begins : tags ≠ [] → ∀ byte ∈ subject.head?, isSpace byte = false
  /-- The subject has no arrow. -/
  whole : cutAt arrow subject = none
  /-- The predicate has no arrow. -/
  single : cutAt arrow predicate = none
  /-- There is a subject. -/
  filled : trimBlank subject ≠ []

namespace TripletLine

/-- The object with its arrow. -/
def pointed (line : TripletLine) : Text :=
  match line.object with
  | some object => arrow ++ object
  | none => []

/-- The line behind its tags. -/
def body (line : TripletLine) : Text :=
  line.subject ++ (arrow ++ (line.predicate ++ line.pointed))

/-- The tags. -/
def front (tags : List (Text × Text)) : Text := tags.flatMap fun tag => 91 :: (tag.1 ++ 93 :: tag.2)

/-- The line. -/
def text (line : TripletLine) : Text := front line.tags ++ line.body

/-- The subject. -/
def subj (line : TripletLine) : Text := trimBlank line.subject

/-- The predicate. -/
def pred (line : TripletLine) : Text := trimBlank line.predicate

/-- The object. -/
def obj (line : TripletLine) : Text := objectText (line.object.getD [])

/-- The first tag. -/
def domain (line : TripletLine) : Text :=
  match line.tags.head? with
  | some tag => utf8 "[" ++ tag.1 ++ utf8 "]"
  | none => []

end TripletLine

/-- The words that a domain adds. -/
def domainWords (domain : Text) : Text :=
  if domain.isEmpty then []
  else
    match findWord domainSuffixMap (toLower (stripBrackets domain)) with
    | some suffix => if suffix.isEmpty then [] else utf8 " " ++ utf8 suffix
    | none => []

/-! ## Tags -/

/-- A tag that begins a text is read with the white space behind it. -/
theorem tag_here {name gap rest : Text} (named : TagName name)
    (blank : ∀ byte ∈ gap, isSpace byte = true)
    (ends : ∀ byte ∈ rest.head?, isSpace byte = false) (passed : Nat) :
    ∃ after, run tagPattern some ⟨passed, 91 :: (name ++ 93 :: (gap ++ rest)), []⟩ = some after ∧
      after.rest = rest ∧ after.groups = [(1, name)] := by
  match name, named with
  | first :: second :: more, ⟨letter, others⟩ =>
    obtain ⟨next, behind⟩ := List.forall_mem_cons.mp others
    have close : ∀ byte ∈ (93 :: (gap ++ rest)).head?, tagByte byte = false := by
      intro byte here
      rw [← Option.some.inj here]
      decide
    have white (place : Nat) (groups : List (Nat × Text)) :
        run (all [text "]", many space]) some ⟨place, 93 :: (gap ++ rest), groups⟩ =
          some ⟨place + 1 + gap.length, rest, groups⟩ := by
      have bracket : run (text "]") (run (all [many space]) some)
          ⟨place, utf8 "]" ++ (gap ++ rest), groups⟩ =
            run (all [many space]) some ⟨place + 1, gap ++ rest, groups⟩ := run_literal _ _
      exact bracket.trans (run_many_longest blank ends rfl)
    have letters : run (group 1 (seq (symbol isLetter) (Pattern.more (symbol tagByte))))
        (run (all [text "]", many space]) some)
        ⟨passed + 1, first :: second :: more ++ 93 :: (gap ++ rest), []⟩ =
          some ⟨passed + 1 + 1 + 1 + more.length + 1 + gap.length, rest,
            [(1, first :: second :: more)]⟩ := by
      apply (run_symbol letter).trans
      apply (run_symbol next).trans
      apply run_many_longest behind close
      rw [record_part]
      exact white _ _
    have bracket : run (text "[") (run (all [group 1 (seq (symbol isLetter)
        (Pattern.more (symbol tagByte))), text "]", many space]) some)
          ⟨passed, utf8 "[" ++ (first :: second :: more ++ 93 :: (gap ++ rest)), []⟩ =
        run (all [group 1 (seq (symbol isLetter) (Pattern.more (symbol tagByte))), text "]",
          many space]) some
          ⟨passed + 1, first :: second :: more ++ 93 :: (gap ++ rest), []⟩ := run_literal _ _
    exact ⟨_, bracket.trans letters, rfl, rfl⟩

/-- What is found of a tag has a bracket. -/
theorem tag_found {text : Text} {found : Found UInt8} (hit : search tagPattern text = some found) :
    ∃ name gap, TagName name ∧ text = found.skipped ++ (91 :: (name ++ 93 :: gap)) ++
    found.rest := by
  obtain ⟨whole, matched⟩ := searchFrom_matches hit rfl
  obtain ⟨_, _, _, _, front, _, bracket, matched⟩ := (matches_all_cons _ _).mp matched
  obtain ⟨name, _, _, _, rfl, _, ⟨_, named, _⟩, matched⟩ := (matches_all_cons _ _).mp matched
  obtain ⟨_, _, gap, _, rfl, _, close, _⟩ := (matches_all_cons _ _).mp matched
  obtain ⟨rfl, _⟩ := (matches_text "[").mp bracket
  obtain ⟨rfl, _⟩ := (matches_text "]").mp close
  obtain ⟨_, _, others, _, rfl, _, ⟨⟨first, rfl, letter⟩, _⟩, behind⟩ := named
  obtain ⟨some_byte, all_bytes, _⟩ := (matches_more _).mp behind
  obtain ⟨second, more, rfl⟩ := List.exists_cons_of_ne_nil some_byte
  refine ⟨first :: second :: more, gap, ⟨letter, all_bytes⟩, ?_⟩
  have brackets : utf8 "[" = [91] ∧ utf8 "]" = [93] := by decide
  rw [whole, front, brackets.1, brackets.2]
  simp

/-- A tag is found exactly in a text with a bracketed word. -/
theorem search_tag_isSome (text : Text) : (search tagPattern text).isSome = true ↔
    Bracketed text := by
  constructor
  · intro some_tag
    obtain ⟨found, hit⟩ := Option.isSome_iff_exists.mp some_tag
    obtain ⟨name, gap, named, whole⟩ := tag_found hit
    refine ⟨found.skipped, name, gap ++ found.rest, named, ?_⟩
    rw [whole]
    simp
  · rintro ⟨front, name, rest, named, rfl⟩
    have split : rest = rest.takeWhile isSpace ++ rest.dropWhile isSpace :=
      List.takeWhile_append_dropWhile.symm
    have blank : ∀ byte ∈ rest.takeWhile isSpace, isSpace byte = true :=
      fun byte inside => List.all_eq_true.mp List.all_takeWhile byte inside
    have ends : ∀ byte ∈ (rest.dropWhile isSpace).head?, isSpace byte = false := by
      intro byte here
      have stops := List.head?_dropWhile_not isSpace rest
      rw [Option.mem_def.mp here] at stops
      simpa using stops
    obtain ⟨after, here, _⟩ := tag_here named blank ends front.length
    rw [← split] at here
    obtain ⟨stop, moves, _⟩ := run_moves here
    apply searchFrom_of_moves (by rfl)
    rw [Nat.zero_add]
    exact moves

/-- The text of a tag in brackets. -/
def bracketed (tag : Text × Text) : Text := utf8 "[" ++ tag.1 ++ utf8 "]"

/-- The first of some tags, when there is no domain yet. -/
def firstDomain (domain : Text) (tags : List (Text × Text)) : Text :=
  if domain.isEmpty then (tags.head?.map bracketed).getD [] else domain

/-- The tags in front of a text are read, one after the other. -/
theorem readTags_front {tags : List (Text × Text)} {rest : Text}
    (named : ∀ tag ∈ tags, TagName tag.1)
    (blank : ∀ tag ∈ tags, ∀ byte ∈ tag.2, isSpace byte = true)
    (begins : tags ≠ [] → ∀ byte ∈ rest.head?, isSpace byte = false) (domain : Text) {count : Nat}
    (enough : (TripletLine.front tags ++ rest).length ≤ count) :
    ∃ left, rest.length ≤ left ∧ readTags count domain (TripletLine.front tags ++ rest) =
      readTags left (firstDomain domain tags) rest := by
  induction tags generalizing domain count with
  | nil =>
    refine ⟨count, enough, ?_⟩
    have same : firstDomain domain [] = domain := by
      unfold firstDomain
      split
      · rename_i empty
        exact (List.isEmpty_iff.mp empty).symm
      · rfl
    rw [same]
    rfl
  | cons tag others ih =>
    obtain ⟨name, gap⟩ := tag
    obtain ⟨namedFirst, namedOthers⟩ := List.forall_mem_cons.mp named
    obtain ⟨blankFirst, blankOthers⟩ := List.forall_mem_cons.mp blank
    have ends : ∀ byte ∈ (TripletLine.front others ++ rest).head?, isSpace byte = false := by
      cases others with
      | nil => exact begins (List.cons_ne_nil _ _)
      | cons second more =>
        intro byte here
        rw [← Option.some.inj here]
        decide
    have whole : TripletLine.front ((name, gap) :: others) ++ rest =
        91 :: (name ++ 93 :: (gap ++ (TripletLine.front others ++ rest))) := by
      simp [TripletLine.front]
    rw [whole] at enough ⊢
    obtain ⟨after, here, remains, recorded⟩ := tag_here namedFirst blankFirst ends 0
    have hit := searchFrom_of_run here
    have size : (TripletLine.front others ++ rest).length < count := by
      simp only [List.length_cons, List.length_append] at enough ⊢
      omega
    cases count with
    | zero => omega
    | succ count =>
      obtain ⟨left, bound, same⟩ := ih namedOthers blankOthers
        (fun some_tag => begins (List.cons_ne_nil _ _))
        (firstDomain domain ((name, gap) :: others)) (Nat.le_of_lt_succ size)
      refine ⟨left, bound, ?_⟩
      have some_domain : (firstDomain domain ((name, gap) :: others)).isEmpty = false := by
        by_cases empty : domain = []
        · rw [empty]
          rfl
        · simp [firstDomain, empty]
      have kept : firstDomain (firstDomain domain ((name, gap) :: others)) others =
          firstDomain domain ((name, gap) :: others) := by
        rw [firstDomain, some_domain]
        rfl
      have read : (if ((toLower name == name || (toLower name).length == name.length) &&
          domain.isEmpty) = true then utf8 "[" ++ name ++ utf8 "]" else domain) =
          firstDomain domain ((name, gap) :: others) := by
        have long : (toLower name).length = name.length := List.length_map _
        rw [long, beq_self_eq_true, Bool.or_true, Bool.true_and]
        rfl
      have name_read : groupText [(1, name)] 1 = name := rfl
      rw [← kept, ← same, readTags, search, hit]
      simp only [remains, recorded, name_read, read]

/-! ## The sentence -/

/-- A sentence in its parts. -/
theorem buildSentence_eq (subj predRaw obj domain : Text) :
    buildSentence subj predRaw obj domain = humanise subj ++ utf8 " " ++ predicateToNl predRaw ++
      ((if obj ≠ [] ∧ obj ≠ predRaw then utf8 " " ++ humanise obj else []) ++
        domainWords domain) := by
  have told : (!obj.isEmpty && obj != predRaw) = true ↔ obj ≠ [] ∧ obj ≠ predRaw := by
    simp
  unfold buildSentence domainWords
  simp only [told]
  generalize findWord domainSuffixMap (toLower (stripBrackets domain)) = words
  by_cases said : obj ≠ [] ∧ obj ≠ predRaw
  · simp only [if_pos said]
    cases words with
    | none => simp
    | some suffix => by_cases empty : suffix = "" <;> split_ifs <;> simp [empty]
  · simp only [if_neg said]
    cases words with
    | none => simp
    | some suffix => by_cases empty : suffix = "" <;> split_ifs <;> simp [empty]

/-- An arrow behind a text without one is the first. -/
theorem cutAt_arrow {front : Text} (absent : cutAt arrow front = none) (rest : Text) :
    cutAt arrow (front ++ (arrow ++ rest)) = some (front, rest) := by
  have bytes : arrow = [0xe2, 0x86, 0x92] := by decide
  rw [bytes] at absent ⊢
  induction front with
  | nil => simp [cutAt]
  | cons byte more ih =>
    rw [cutAt] at absent
    split at absent
    · contradiction
    · rename_i other
      have later := ih (Option.map_eq_none_iff.mp absent)
      have still : ¬ [0xe2, 0x86, 0x92] <+: byte :: (more ++ ([0xe2, 0x86, 0x92] ++ rest)) := by
        intro begins
        apply other
        rcases more with _ | ⟨second, _ | ⟨third, others⟩⟩
        · simp at begins
        · simp at begins
        · simpa using begins
      rw [List.cons_append, cutAt, if_neg still, later]
      rfl

/-- What is read of a text with two parts or three. -/
theorem parts_body (line : TripletLine) :
    cutAt arrow line.body = some (line.subject, line.predicate ++ line.pointed) ∧
      (cutAt arrow (line.predicate ++ line.pointed)).getD (line.predicate ++ line.pointed, []) =
        (line.predicate, line.object.getD []) := by
  constructor
  · exact cutAt_arrow line.whole _
  · unfold TripletLine.pointed
    cases line.object with
    | none => simp [line.single]
    | some object => simp [cutAt_arrow line.single object]

/-- Trailing blanks are removed once. -/
theorem trimBlank_trimBlankEnd (text : Text) : trimBlank (trimBlankEnd text) = trimBlank text := by
  have whole : text = trimBlankEnd text ++ (text.reverse.takeWhile isBlank).reverse := by
    rw [trimBlankEnd, ← List.reverse_append, List.takeWhile_append_dropWhile, List.reverse_reverse]
  have blank : ∀ byte ∈ (text.reverse.takeWhile isBlank).reverse, isBlank byte = true := by
    intro byte inside
    rw [List.mem_reverse] at inside
    exact List.all_eq_true.mp List.all_takeWhile byte inside
  generalize (text.reverse.takeWhile isBlank).reverse = blanks at whole blank
  have ends (front : Text) : trimBlankEnd (front ++ blanks) = trimBlankEnd front := by
    unfold trimBlankEnd
    rw [List.reverse_append, List.dropWhile_append_of_pos]
    intro byte inside
    exact blank byte (List.mem_reverse.mp inside)
  generalize trimBlankEnd text = front at whole
  rw [whole, trimBlank, trimBlank]
  by_cases visible : ∃ byte ∈ front, isBlank byte = false
  · have kept : (front ++ blanks).dropWhile isBlank = front.dropWhile isBlank ++ blanks := by
      rw [List.dropWhile_append, if_neg]
      intro empty
      obtain ⟨byte, inside, other⟩ := visible
      have all := List.dropWhile_eq_nil_iff.mp (List.isEmpty_iff.mp empty) byte inside
      rw [other] at all
      contradiction
    rw [kept, ends]
  · have all : ∀ byte ∈ front, isBlank byte = true := by
      intro byte inside
      cases other : isBlank byte with
      | true => rfl
      | false => exact absurd ⟨byte, inside, other⟩ visible
    rw [List.dropWhile_append_of_pos all, List.dropWhile_eq_nil_iff.mpr all,
      List.dropWhile_eq_nil_iff.mpr blank]

/-- The tags in front of a line are read, and its body is left. -/
theorem read_body (line : TripletLine) :
    ∃ left, line.body.length ≤ left ∧
      readTags line.text.length [] line.text = readTags left line.domain line.body := by
  have begins : line.tags ≠ [] → ∀ byte ∈ line.body.head?, isSpace byte = false := by
    intro some_tag byte here
    apply line.begins some_tag
    have some_byte : line.subject ≠ [] := by
      intro empty
      apply line.filled
      rw [empty]
      rfl
    obtain ⟨first, more, same⟩ := List.exists_cons_of_ne_nil some_byte
    rw [TripletLine.body, same] at here
    rw [same]
    exact here
  have domain : firstDomain [] line.tags = line.domain := by
    unfold firstDomain TripletLine.domain
    cases line.tags with
    | nil => rfl
    | cons tag others => rfl
  rw [← domain]
  exact readTags_front line.named line.blank begins [] (Nat.le_refl _)

/-- A line without a bracketed word behind its tags is read by its parts. -/
theorem parse_plain (line : TripletLine) (plain : ¬ Bracketed line.body) :
    parseArrowTriplet line.text = some ⟨line.domain, line.subj, line.pred, line.obj⟩ := by
  have there : (cutAt arrow line.text).isNone = false := by
    have some_arrow := cutAt_isSome arrow (TripletLine.front line.tags ++ line.subject)
      (line.predicate ++ line.pointed)
    rw [List.append_assoc] at some_arrow
    rw [TripletLine.text, TripletLine.body, Option.isNone_eq_false_iff]
    exact some_arrow
  have no_tag : search tagPattern line.body = none := by
    cases hit : search tagPattern line.body with
    | none => rfl
    | some found =>
      have some_tag : (search tagPattern line.body).isSome = true := by
        rw [hit]
        rfl
      exact absurd ((search_tag_isSome line.body).mp some_tag) plain
  have whole : readTags line.text.length [] line.text = (line.domain, line.body) := by
    obtain ⟨left, _, read⟩ := read_body line
    rw [read]
    cases left with
    | zero => rfl
    | succ count => rw [readTags, no_tag]
  obtain ⟨cut, parts⟩ := parts_body line
  unfold parseArrowTriplet
  rw [there]
  simp only [whole, cut, parts, trimBlank_trimBlankEnd, Bool.false_eq_true, if_false]
  rw [if_neg (by simpa using line.filled)]
  rfl

/-! ## Brackets -/

/-- The opening brackets of a text. -/
def brackets (text : Text) : Nat := text.count 91

@[simp] theorem brackets_append (front rest : Text) :
    brackets (front ++ rest) = brackets front + brackets rest := List.count_append

/-- Blanks in the place of other characters leave the brackets. -/
theorem brackets_spaced (test : UInt8 → Bool) (other : test 91 = false) (text : Text) :
    brackets (spaced test text) = brackets text := by
  induction text with
  | nil => rfl
  | cons byte rest ih =>
    have each : (if test byte = true then (32 : UInt8) else byte) = 91 ↔ byte = 91 := by
      constructor
      · intro same
        split at same
        · contradiction
        · exact same
      · rintro rfl
        rw [other]
        rfl
    unfold brackets spaced at ih ⊢
    rw [List.map_cons, List.count_cons, List.count_cons, ih]
    simp only [beq_iff_eq, each]

/-- Removing blanks in front leaves the brackets. -/
theorem brackets_dropWhile (text : Text) : brackets (text.dropWhile isBlank) = brackets text := by
  induction text with
  | nil => rfl
  | cons byte rest ih =>
    rw [List.dropWhile_cons]
    split
    · rename_i blank
      have other : byte ≠ 91 := by
        rintro rfl
        contradiction
      rw [ih, brackets, brackets, List.count_cons_of_ne other]
    · rfl

/-- Removing blanks behind leaves the brackets. -/
theorem brackets_trimBlankEnd (text : Text) : brackets (trimBlankEnd text) = brackets text := by
  have turned (text : Text) : brackets text.reverse = brackets text := List.count_reverse
  rw [trimBlankEnd, turned, brackets_dropWhile, turned]

/-- Removing blanks leaves the brackets. -/
theorem brackets_trimBlank (text : Text) : brackets (trimBlank text) = brackets text := by
  rw [trimBlank, brackets_trimBlankEnd, brackets_dropWhile]

/-- Flags have no brackets. -/
theorem brackets_flags (text : Text) :
    brackets (replaceAll flagSuffixPattern [] text) = brackets text := by
  have reads : flagSuffixPattern.Reads (· ≠ 91) := by
    have white : ∀ byte, isSpace byte = true → byte ≠ 91 := by
      rintro _ space rfl
      exact absurd space (by decide)
    have capital : ∀ byte, isUpper byte = true → byte ≠ 91 := by
      rintro _ upper rfl
      exact absurd upper (by decide)
    exact ⟨⟨white, white⟩, reads_literal (forall_bytes (by decide)), ⟨capital, capital⟩,
      white, trivial⟩
  have rule : ∀ text : Text, brackets text = brackets (replaceAll flagSuffixPattern [] text) := by
    apply @replaceAll_rule UInt8 flagSuffixPattern []
      (fun text out => brackets text = brackets out) (fun _ => rfl)
    intro text passed found out hit later
    have plain : brackets found.matched = 0 := by
      apply List.count_eq_zero.mpr
      intro inside
      exact matched_reads hit reads 91 inside rfl
    rw [(searchFrom_found hit).1]
    have nothing : brackets [] = 0 := rfl
    simp only [brackets_append, plain, later, nothing]
    omega
  exact (rule text).symm

/-- The object keeps its brackets. -/
theorem brackets_objectText (object : Text) : brackets (objectText object) = brackets object := by
  rw [objectText, brackets_trimBlank, brackets_flags, brackets_trimBlank]

/-- The words of a map have no brackets. -/
theorem brackets_findWord {map : List (String × String)} {word : Text} {phrase : String}
    (plain : ∀ entry ∈ map, brackets (utf8 entry.1) = 0 ∧ brackets (utf8 entry.2) = 0)
    (found : findWord map word = some phrase) :
    brackets word = 0 ∧ brackets (utf8 phrase) = 0 := by
  obtain ⟨entry, hit, rfl⟩ := Option.map_eq_some_iff.mp found
  have own := plain entry (List.mem_of_find?_eq_some hit)
  have same : utf8 entry.1 = word := by simpa using List.find?_some hit
  rw [← same]
  exact own

/-- A domain adds no brackets. -/
theorem brackets_domainWords (domain : Text) : brackets (domainWords domain) = 0 := by
  unfold domainWords
  split
  · rfl
  · split
    · rename_i suffix found
      split
      · rfl
      · rw [brackets_append, (brackets_findWord (by decide) found).2]
        rfl
    · rfl

/-- One more byte adds its bracket. -/
theorem brackets_cons (byte : UInt8) (rest : Text) :
    brackets (byte :: rest) = brackets [byte] + brackets rest := brackets_append [byte] rest

/-- Putting blanks in the place of arrows adds no brackets. -/
theorem brackets_stripArrows_le (text : Text) : brackets (stripArrows text) ≤ brackets text := by
  have blank : brackets [32] = 0 := by decide
  fun_induction stripArrows text with
  | case1 third rest ih =>
    rw [brackets_cons 32, brackets_cons 0xe2, brackets_cons 0x86, brackets_cons third]
    omega
  | case2 byte rest _ ih =>
    rw [brackets_cons byte rest, brackets_cons byte (stripArrows rest)]
    omega
  | case3 => exact Nat.le_refl 0

/-- No bracket is lost with the arrows of a text in UTF-8. -/
theorem brackets_stripArrows {text : Text} (valid : Valid text) :
    brackets (stripArrows text) = brackets text := by
  induction valid with
  | nil => rfl
  | @character c rest _ ih =>
    rcases stripArrows_character c rest with ⟨third, encoded, goesOn, short⟩ | same
    · have none_there : brackets [0xe2, 0x86, third] = 0 := by
        apply List.count_eq_zero.mpr
        have other : third ≠ 91 := by
          rintro rfl
          contradiction
        simp [other.symm]
      rw [short, encoded, brackets_append, none_there, brackets_cons, ih]
      rfl
    · rw [same, brackets_append, brackets_append, ih]

/-- The verb phrase has no more brackets than the predicate, and as many when it is UTF-8. -/
theorem brackets_predicateToNl (pred : Text) :
    brackets (predicateToNl pred) ≤ brackets pred ∧
      (Valid pred → brackets (predicateToNl pred) = brackets pred) := by
  have plain : ∀ entry ∈ predicateNlMap,
      brackets (utf8 entry.1) = 0 ∧ brackets (utf8 entry.2) = 0 := by
    decide
  fun_induction predicateToNl pred with
  | case1 rest ih =>
    have phrase : brackets (utf8 "does not ") = 0 := by decide
    have mark : brackets [33] = 0 := by decide
    rw [brackets_append, phrase, brackets_cons 33, mark]
    constructor
    · omega
    · intro valid
      rw [ih.2 (valid.tail (by decide))]
  | case2 pred _ phrase found =>
    have words := brackets_findWord plain found
    have same : brackets pred = 0 := by
      apply List.count_eq_zero.mpr
      intro inside
      have lowered : lower 91 ∈ toLower pred := List.mem_map_of_mem inside
      exact List.count_eq_zero.mp words.1 lowered
    rw [words.2, same]
    exact ⟨Nat.le_refl 0, fun _ => rfl⟩
  | case3 pred _ missing =>
    have blanks := brackets_spaced (fun byte => byte == 45 || byte == 95) (by decide) pred
    constructor
    · rw [← blanks]
      exact brackets_stripArrows_le _
    · intro valid
      rw [brackets_stripArrows, blanks]
      exact closed_valid.spaced valid (by grind)

/-! ## What is lost -/

/-- The tags that are read take what stands before them away. -/
theorem readTags_cut (count : Nat) (domain text : Text) :
    ∃ cut, text = cut ++ (readTags count domain text).2 ∧
      (0 < count → Bracketed text → 0 < brackets cut) := by
  induction count generalizing domain text with
  | zero => exact ⟨[], rfl, fun positive => absurd positive (Nat.lt_irrefl 0)⟩
  | succ count ih =>
    rw [readTags]
    cases hit : search tagPattern text with
    | none =>
      refine ⟨[], rfl, fun _ word => ?_⟩
      rw [← search_tag_isSome, hit] at word
      contradiction
    | some found =>
      dsimp only
      obtain ⟨name, gap, _, whole⟩ := tag_found hit
      obtain ⟨cut, later, _⟩ := ih _ found.rest
      refine ⟨found.skipped ++ (91 :: (name ++ 93 :: gap)) ++ cut, ?_, fun _ _ => ?_⟩
      · rw [List.append_assoc, ← later]
        exact whole
      · have opening : brackets [91] = 1 := by decide
        rw [brackets_append, brackets_append, brackets_cons, opening]
        omega

/-- The parts of a triplet have no more brackets than what is left behind the tags. -/
theorem brackets_parse {line : Text} {triplet : ArrowTriplet}
    (parsed : parseArrowTriplet line = some triplet) :
    brackets triplet.subj + brackets triplet.pred + brackets triplet.obj ≤
      brackets (readTags line.length [] line).2 := by
  unfold parseArrowTriplet at parsed
  split at parsed
  · contradiction
  · dsimp only at parsed
    generalize (readTags line.length [] line).2 = rest at parsed ⊢
    split at parsed
    · contradiction
    · rename_i before after cut
      split at parsed
      · contradiction
      · obtain rfl := Option.some.inj parsed
        have whole := congrArg brackets (cutAt_eq cut)
        have sides : brackets ((cutAt arrow after).getD (after, [])).1 +
            brackets ((cutAt arrow after).getD (after, [])).2 ≤ brackets after := by
          cases second : cutAt arrow after with
          | none => exact Nat.le_refl _
          | some parts =>
            have inner := congrArg brackets (cutAt_eq second)
            simp only [brackets_append] at inner
            simp only [Option.getD_some]
            omega
        simp only [brackets_append] at whole
        simp only [brackets_trimBlank, brackets_trimBlankEnd, brackets_flags]
        omega

/-- A gloss has no more brackets than what is left behind the tags. -/
theorem brackets_gloss (line : Text) :
    brackets (glossSslLine line) ≤ brackets (readTags line.length [] line).2 := by
  unfold glossSslLine
  cases parsed : parseArrowTriplet line with
  | none => exact Nat.zero_le _
  | some triplet =>
    have parts := brackets_parse parsed
    have phrase := (brackets_predicateToNl triplet.pred).1
    have blank : brackets (utf8 " ") = 0 := by decide
    have said :
        brackets (if (if triplet.obj.isEmpty = true then triplet.pred else triplet.obj) ≠ [] ∧
        (if triplet.obj.isEmpty = true then triplet.pred else triplet.obj) ≠ triplet.pred then
        utf8 " " ++ humanise (if triplet.obj.isEmpty = true then triplet.pred else triplet.obj)
        else []) ≤ brackets triplet.obj := by
      by_cases empty : triplet.obj.isEmpty = true
      · simp only [if_pos empty]
        rw [if_neg (fun both => both.2 rfl)]
        exact Nat.zero_le _
      · simp only [if_neg empty]
        split
        · rw [brackets_append, blank, humanise, brackets_spaced _ (by decide)]
          omega
        · exact Nat.zero_le _
    dsimp only
    rw [buildSentence_eq]
    simp only [brackets_append, blank, humanise, brackets_spaced (· == 45) (by decide),
      brackets_domainWords] at said ⊢
    omega

/-! ## Coverage -/

/-- A sentence says the subject, then the verb phrase, then the object. -/
def InOrder (line : TripletLine) (sentence : Text) : Prop :=
  ∃ rest, sentence = humanise line.subj ++ utf8 " " ++ predicateToNl line.pred ++ rest ∧
    humanise line.obj <:+: rest

/-- A sentence begins with the subject and has the verb phrase and the object. -/
def Covers (line : TripletLine) (sentence : Text) : Prop :=
  sentence ≠ [] ∧ humanise line.subj <+: sentence ∧ predicateToNl line.pred <:+: sentence ∧
    humanise line.obj <:+: sentence

/-- The gloss of a line without a bracketed word behind its tags. -/
theorem gloss_plain (line : TripletLine) (plain : ¬ Bracketed line.body) :
    glossSslLine line.text = humanise line.subj ++ utf8 " " ++ predicateToNl line.pred ++
      ((if line.obj ≠ [] ∧ line.obj ≠ line.pred then utf8 " " ++ humanise line.obj else []) ++
        domainWords line.domain) := by
  rw [glossSslLine, parse_plain line plain]
  dsimp only
  rw [buildSentence_eq]
  by_cases empty : line.obj = []
  · simp [empty]
  · have filled : line.obj.isEmpty = false := by simpa using empty
    simp only [filled, Bool.false_eq_true, if_false]

/-- The predicate of a line in UTF-8 is UTF-8. -/
theorem valid_pred (line : TripletLine) (valid : Valid line.text) : Valid line.pred := by
  have arrows : Valid arrow ∧ arrow ≠ [] := ⟨valid_utf8 "→", by decide⟩
  have behind : Valid (line.predicate ++ line.pointed) := by
    have split : line.text = TripletLine.front line.tags ++ line.subject ++
        (arrow ++ (line.predicate ++ line.pointed)) := by
      rw [TripletLine.text, TripletLine.body, List.append_assoc]
    rw [split] at valid
    exact (valid.parts arrows.1 arrows.2).2
  apply closed_valid.trimBlank
  unfold TripletLine.pointed at behind
  cases same : line.object with
  | none =>
    rw [same] at behind
    simpa using behind
  | some object =>
    rw [same] at behind
    exact (behind.parts arrows.1 arrows.2).1

/-- A bracketed word behind the tags is not said. -/
theorem not_inOrder (line : TripletLine) (valid : Valid line.text) (word : Bracketed line.body) :
    ¬ InOrder line (glossSslLine line.text) := by
  rintro ⟨rest, whole, front, back, object⟩
  have said := brackets_gloss line.text
  obtain ⟨left, enough, read⟩ := read_body line
  rw [read] at said
  have some_byte : 0 < line.body.length := by
    obtain ⟨before, name, after, _, split⟩ := word
    rw [split, List.length_append, List.length_cons]
    omega
  obtain ⟨cut, split, lost⟩ := readTags_cut left line.domain line.body
  have some_bracket := lost (by omega) word
  have arrows : brackets arrow = 0 := by decide
  have blank : brackets (utf8 " ") = 0 := by decide
  have pointed : brackets line.pointed = brackets line.obj := by
    unfold TripletLine.pointed TripletLine.obj
    rw [brackets_objectText]
    cases line.object with
    | none => rfl
    | some object => simp [arrows]
  have body : brackets line.body = brackets line.subj + brackets line.pred + brackets line.obj := by
    unfold TripletLine.body TripletLine.subj TripletLine.pred
    simp only [brackets_append, brackets_trimBlank, arrows, pointed]
    omega
  rw [split, brackets_append] at body
  rw [whole, ← object] at said
  simp only [brackets_append, blank, humanise, brackets_spaced (· == 45) (by decide),
    (brackets_predicateToNl line.pred).2 (valid_pred line valid)] at said
  omega

/-- A line without a bracketed word behind its tags is covered by its gloss unless the object is the
predicate again and is said neither by the verb phrase nor by the words of the domain; and of the
lines in UTF-8 the parts are said one after the other exactly when there is no bracketed word and
the object is not the predicate again, unless the words of the domain have it. -/
theorem gloss_covers_iff (line : TripletLine) :
    (¬ Bracketed line.body → (line.obj = line.pred →
        humanise line.obj <:+: predicateToNl line.pred ∨
          humanise line.obj <:+: domainWords line.domain) →
      Covers line (glossSslLine line.text)) ∧
    (Valid line.text → (InOrder line (glossSslLine line.text) ↔
      ¬ Bracketed line.body ∧ (line.obj = [] ∨ line.obj ≠ line.pred ∨
        humanise line.obj <:+: domainWords line.domain))) := by
  have said_last (said : line.obj ≠ [] ∧ line.obj ≠ line.pred) : humanise line.obj <:+:
      (if line.obj ≠ [] ∧ line.obj ≠ line.pred then utf8 " " ++ humanise line.obj else []) ++
        domainWords line.domain := by
    rw [if_pos said]
    exact ⟨utf8 " ", domainWords line.domain, rfl⟩
  have empty_said (text : Text) (empty : line.obj = []) : humanise line.obj <:+: text := by
    rw [empty]
    exact List.nil_infix
  constructor
  · intro plain again
    rw [gloss_plain line plain]
    refine ⟨?_, ?_, ?_, ?_⟩
    · intro empty
      have size := congrArg List.length empty
      have one : (utf8 " ").length = 1 := by decide
      simp only [List.length_append, one, List.length_nil] at size
      omega
    · rw [List.append_assoc, List.append_assoc]
      exact List.prefix_append _ _
    · exact ⟨humanise line.subj ++ utf8 " ", _, rfl⟩
    · by_cases empty : line.obj = []
      · exact empty_said _ empty
      · by_cases same : line.obj = line.pred
        · rcases again same with ⟨front, back, phrase⟩ | words
          · rw [← phrase]
            exact ⟨humanise line.subj ++ utf8 " " ++ front, back ++
              ((if line.obj ≠ [] ∧ line.obj ≠ line.pred then utf8 " " ++ humanise line.obj
                else []) ++ domainWords line.domain), by simp only [List.append_assoc]⟩
          · exact (words.trans (List.suffix_append _ _).isInfix).trans
              (List.suffix_append _ _).isInfix
        · exact (said_last ⟨empty, same⟩).trans (List.suffix_append _ _).isInfix
  · intro valid
    constructor
    · intro ordered
      have plain : ¬ Bracketed line.body := fun word => not_inOrder line valid word ordered
      refine ⟨plain, ?_⟩
      obtain ⟨rest, whole, object⟩ := ordered
      rw [gloss_plain line plain] at whole
      obtain rfl := List.append_cancel_left whole
      by_cases empty : line.obj = []
      · exact Or.inl empty
      · by_cases same : line.obj = line.pred
        · rw [if_neg (fun both => both.2 same), List.nil_append] at object
          exact Or.inr (Or.inr object)
        · exact Or.inr (Or.inl same)
    · rintro ⟨plain, object⟩
      refine ⟨_, gloss_plain line plain, ?_⟩
      by_cases empty : line.obj = []
      · exact empty_said _ empty
      · by_cases same : line.obj = line.pred
        · have words := (object.resolve_left empty).resolve_left (fun other => other same)
          exact words.trans (List.suffix_append _ _).isInfix
        · exact said_last ⟨empty, same⟩

/-- The line `[SOLUTION] job-runner→ssh-to→node-1 F:KEY`. -/
def tagged : TripletLine where
  tags := [(utf8 "SOLUTION", utf8 " ")]
  subject := utf8 "job-runner"
  predicate := utf8 "ssh-to"
  object := some (utf8 "node-1 F:KEY")
  named := List.forall_mem_singleton.mpr
    (show isLetter 83 = true ∧ ∀ byte ∈ utf8 "OLUTION", tagByte byte = true from
      ⟨by decide, forall_bytes (by decide)⟩)
  blank := List.forall_mem_singleton.mpr
    (show ∀ byte ∈ utf8 " ", isSpace byte = true from forall_bytes (by decide))
  begins := by
    rintro - _ ⟨⟩
    decide
  whole := by decide
  single := by decide
  filled := by decide

/-- A line with a tag and without another bracketed word is covered. -/
theorem gloss_covers_tagged : Covers tagged (glossSslLine tagged.text) := by
  apply (gloss_covers_iff tagged).1
  · rw [← search_tag_isSome]
    decide
  · intro same
    have other : tagged.obj ≠ tagged.pred := by decide
    exact absurd same other

/-- The line `a→b→c [foo]`. -/
def wordBehind : TripletLine where
  tags := []
  subject := utf8 "a"
  predicate := utf8 "b"
  object := some (utf8 "c [foo]")
  named := List.forall_mem_nil _
  blank := List.forall_mem_nil _
  begins := fun some_tag => absurd rfl some_tag
  whole := by decide
  single := by decide
  filled := by decide

/-- A bracketed word in the object leaves nothing. -/
theorem word_behind_lost :
    glossSslLine wordBehind.text = [] ∧ ¬ Covers wordBehind (glossSslLine wordBehind.text) := by
  have nothing : glossSslLine wordBehind.text = [] := by decide
  exact ⟨nothing, fun covers => covers.1 nothing⟩

end Chitta.Ssl
