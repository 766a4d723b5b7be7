import Chitta.Utf8

/-!
# The gloss of a memory

A line with an arrow is put into words: a subject, a predicate and an object, and the place that
its domain names. The gloss of a memory is that of its lines, and the text that is embedded is the
memory followed by its gloss.
-/
namespace Chitta.Ssl

open Bytes Regex Regex.Pattern Utf8

/-! ## Words -/

/-- `predicate_nl_map`. -/
def predicateNlMap : List (String × String) :=
  [("do-not-require", "does not require"), ("does-not-require", "does not require"),
    ("not-require", "does not require"), ("require", "requires"), ("requires", "requires"),
    ("uses", "uses"), ("use", "uses"), ("speeds", "speeds up"), ("speeds-up", "speeds up"),
    ("connect", "connects to"), ("connects-to", "connects to"),
    ("ssh-to", "connects via SSH to"), ("access", "accesses"), ("accesses", "accesses"),
    ("enables", "enables"), ("enable", "enables"), ("disables", "disables"), ("causes", "causes"),
    ("fixes", "fixes"), ("fix", "fixes"), ("solves", "solves"), ("improve", "improves"),
    ("improves", "improves"), ("replaces", "replaces"), ("replace", "replaces"),
    ("is-a", "is a type of"), ("is", "is"), ("are", "are"), ("has", "has"), ("have", "have"),
    ("run", "runs on"), ("runs-on", "runs on"), ("runs", "runs on"),
    ("defined-in", "is defined in"), ("located-in", "is located in"), ("needs", "needs"),
    ("need", "needs"), ("avoid", "should avoid"), ("avoids", "avoids"), ("supports", "supports"),
    ("support", "supports"), ("contains", "contains"), ("prefer", "is preferred over"),
    ("prefers", "is preferred over")]

/-- `domain_suffix_map`. -/
def domainSuffixMap : List (String × String) :=
  [("cluster", "on the cluster"), ("build", "in the build system"), ("solution", ""),
    ("gotcha", ""), ("decision", ""), ("pattern", ""), ("code", "in the codebase"),
    ("ops", "in operations"), ("ml", "in the ML pipeline")]

/-- `find` in a map of words. -/
def findWord (map : List (String × String)) (word : Text) : Option String :=
  (map.find? fun entry => utf8 entry.1 == word).map (·.2)

/-- `to_lower`. -/
def toLower (text : Text) : Text := text.map lower

/-- The loop of `predicate_to_nl` that puts a blank in the place of an arrow. -/
def stripArrows : Text → Text
  | 0xe2 :: 0x86 :: _ :: rest => 32 :: stripArrows rest
  | byte :: rest => byte :: stripArrows rest
  | [] => []

/-- A blank in the place of some bytes. -/
def spaced (test : UInt8 → Bool) (text : Text) : Text :=
  text.map fun byte => if test byte then 32 else byte

/-- `predicate_to_nl`. -/
def predicateToNl : Text → Text
  | 33 :: rest => utf8 "does not " ++ predicateToNl rest
  | pred =>
    match findWord predicateNlMap (toLower pred) with
    | some phrase => utf8 phrase
    | none => stripArrows (spaced (fun byte => byte == 45 || byte == 95) pred)

/-- `strip_brackets`. -/
def stripBrackets (text : Text) : Text :=
  if 2 ≤ text.length ∧ text.head? = some 91 ∧ text.getLast? = some 93 then
    (text.drop 1).take (text.length - 2)
  else text

/-- `humanise`. -/
def humanise (text : Text) : Text := spaced (· == 45) text

/-- `build_sentence`. -/
def buildSentence (subj predRaw obj domain : Text) : Text :=
  let sentence := humanise subj ++ utf8 " " ++ predicateToNl predRaw
  let sentence :=
    if !obj.isEmpty && obj != predRaw then sentence ++ (utf8 " " ++ humanise obj) else sentence
  if domain.isEmpty then sentence
  else
    match findWord domainSuffixMap (toLower (stripBrackets domain)) with
    | some suffix => if suffix.isEmpty then sentence else sentence ++ (utf8 " " ++ utf8 suffix)
    | none => sentence

/-! ## Lines -/

/-- `arrow`. -/
def arrow : Text := utf8 "→"

/-- A letter. -/
def isLetter (byte : UInt8) : Bool := isUpper byte || isLower byte

/-- `tag_re`. -/
def tagPattern : Pattern UInt8 :=
  all [text "[",
    group 1 (seq (symbol isLetter)
      (more (symbol fun byte => isLetter byte || isDigit byte || byte == 95 || byte == 45))),
    text "]", many space]

/-- `flag_re`. -/
def flagSuffixPattern : Pattern UInt8 :=
  all [more space, text "F:", more (symbol isUpper), many space, atEnd]

/-- A blank or a tabulator. -/
def isBlank (byte : UInt8) : Bool := byte == 32 || byte == 9

/-- The loop that removes trailing blanks. -/
def trimBlankEnd (text : Text) : Text := (text.reverse.dropWhile isBlank).reverse

/-- `trim`. -/
def trimBlank (text : Text) : Text := trimBlankEnd (text.dropWhile isBlank)

/-- What a line with an arrow says. -/
structure ArrowTriplet where
  /-- The first tag. -/
  domain : Text
  /-- The subject. -/
  subj : Text
  /-- The predicate. -/
  pred : Text
  /-- The object. -/
  obj : Text
deriving DecidableEq

/-- The loop over the tags; there are at most `count`. -/
def readTags : Nat → Text → Text → Text × Text
  | 0, domain, rest => (domain, rest)
  | count + 1, domain, rest =>
    match search tagPattern rest with
    | none => (domain, rest)
    | some found =>
      let tag := groupText found.groups 1
      let ltag := toLower tag
      let domain :=
        if (ltag == tag || ltag.length == tag.length) && domain.isEmpty then
          utf8 "[" ++ tag ++ utf8 "]"
        else domain
      readTags count domain found.rest

/-- `parse_arrow_triplet`. -/
def parseArrowTriplet (line : Text) : Option ArrowTriplet :=
  if (cutAt arrow line).isNone then none
  else
    let read := readTags line.length [] line
    match cutAt arrow read.2 with
    | none => none
    | some (before, after) =>
      let subj := trimBlank (trimBlankEnd before)
      let parts := (cutAt arrow after).getD (after, [])
      let pred := trimBlank parts.1
      let obj := trimBlank (replaceAll flagSuffixPattern [] (trimBlank parts.2))
      if subj.isEmpty then none else some ⟨read.1, subj, pred, obj⟩

/-- `gloss_ssl_line`. -/
def glossSslLine (line : Text) : Text :=
  match parseArrowTriplet line with
  | none => []
  | some triplet =>
    buildSentence triplet.subj triplet.pred
      (if triplet.obj.isEmpty then triplet.pred else triplet.obj) triplet.domain

/-- The step of the loop over the lines. -/
def addGloss (result line : Text) : Text :=
  if line.isEmpty then result
  else
    let gloss := glossSslLine line
    if gloss.isEmpty then result
    else (if result.isEmpty then result else result ++ [32]) ++ gloss

/-- `gloss_ssl_content`. -/
def glossSslContent (content : Text) : Text := (Lines.lines newline content).foldl addGloss []

/-- `retrieval_text`. -/
def retrievalText (content : Text) : Text :=
  let gloss := glossSslContent content
  if gloss.isEmpty then content else content ++ newline :: gloss

/-! ## What a gloss is made of -/

theorem small_blank {byte : UInt8} (blank : isBlank byte = true) : byte < 128 := by
  grind [isBlank]

theorem small_space {byte : UInt8} (space : isSpace byte = true) : byte < 128 := by
  grind [isSpace]

theorem small_upper {byte : UInt8} (upper : isUpper byte = true) : byte < 128 := by
  grind [isUpper]

theorem small_letter {byte : UInt8} (letter : isLetter byte = true) : byte < 128 := by
  grind [isLetter, isUpper, isLower]

theorem tagPattern_ascii : tagPattern.Reads (· < 128) := by
  have name (byte : UInt8)
      (named : (isLetter byte || isDigit byte || byte == 95 || byte == 45) = true) :
      byte < 128 := by
    grind [isLetter, isUpper, isLower, isDigit]
  exact ⟨reads_literal (small_of_all (by decide)), ⟨fun _ => small_letter, name, name⟩,
    reads_literal (small_of_all (by decide)), fun _ => small_space⟩

theorem flagSuffixPattern_ascii : flagSuffixPattern.Reads (· < 128) :=
  ⟨⟨fun _ => small_space, fun _ => small_space⟩, reads_literal (small_of_all (by decide)),
    ⟨fun _ => small_upper, fun _ => small_upper⟩, fun _ => small_space, trivial⟩

/-- A property of texts that all steps from a line to its gloss keep. -/
structure Closed (property : Text → Prop) : Prop where
  /-- Words have it. -/
  literal : ∀ text : String, newline ∉ utf8 text → property (utf8 text)
  /-- Texts are joined. -/
  append : ∀ {text rest : Text}, property text → property rest → property (text ++ rest)
  /-- A text is cut around characters. -/
  parts : ∀ {front middle rest : Text}, property (front ++ (middle ++ rest)) → Valid middle →
    middle ≠ [] → property front ∧ property rest
  /-- Blanks are put in the place of characters. -/
  spaced : ∀ {text : Text} {test : UInt8 → Bool}, property text →
    (∀ byte, test byte = true → byte < 128) → property (spaced test text)
  /-- Blanks are put in the place of arrows. -/
  stripped : ∀ {text : Text}, property text → property (stripArrows text)

section Closed

variable {property : Text → Prop} (closed : Closed property)
include closed

theorem Closed.nil : property [] := closed.literal "" (by decide)

/-- A word of a map has the property. -/
theorem Closed.findWord {map : List (String × String)} {word : Text} {phrase : String}
    (plain : ∀ entry ∈ map, newline ∉ utf8 entry.2) (found : findWord map word = some phrase) :
    property (utf8 phrase) := by
  obtain ⟨entry, here, rfl⟩ := Option.map_eq_some_iff.mp found
  exact closed.literal _ (plain entry (List.mem_of_find?_eq_some here))

theorem Closed.tail {byte : UInt8} {rest : Text} (has : property (byte :: rest))
    (small : byte < 128) : property rest := by
  have whole : property ([] ++ ([byte] ++ rest)) := has
  exact (closed.parts whole (.ascii (by simpa using small)) (by simp)).2

theorem Closed.predicateToNl {pred : Text} (has : property pred) :
    property (predicateToNl pred) := by
  fun_induction Ssl.predicateToNl pred with
  | case1 rest ih =>
      exact closed.append (closed.literal _ (by decide)) (ih (closed.tail has (by decide)))
  | case2 pred _ phrase found => exact closed.findWord (by decide) found
  | case3 pred _ missing =>
    exact closed.stripped (closed.spaced has (by grind))

theorem Closed.humanise {text : Text} (has : property text) : property (humanise text) :=
  closed.spaced has (by grind)

theorem Closed.buildSentence {subj predRaw obj domain : Text} (subject : property subj)
    (predicate : property predRaw) (object : property obj) :
    property (buildSentence subj predRaw obj domain) := by
  have blank : property (utf8 " ") := closed.literal " " (by decide)
  have start := closed.append (closed.append (closed.humanise subject) blank)
    (closed.predicateToNl predicate)
  have sentence : property (if (!obj.isEmpty && obj != predRaw) = true then
      Ssl.humanise subj ++ utf8 " " ++ Ssl.predicateToNl predRaw ++ (utf8 " " ++ Ssl.humanise obj)
      else Ssl.humanise subj ++ utf8 " " ++ Ssl.predicateToNl predRaw) := by
    split
    · exact closed.append start (closed.append blank (closed.humanise object))
    · exact start
  rw [Ssl.buildSentence]
  split
  · exact sentence
  · split
    · rename_i suffix found
      split
      · exact sentence
      · exact closed.append sentence
          (closed.append blank (closed.findWord (by decide) found))
    · exact sentence

/-! ### Lines -/

theorem Closed.trimBlankEnd {text : Text} (has : property text) :
    property (trimBlankEnd text) := by
  have whole : text = Ssl.trimBlankEnd text ++ (text.reverse.takeWhile isBlank).reverse := by
    rw [Ssl.trimBlankEnd, ← List.reverse_append, List.takeWhile_append_dropWhile,
      List.reverse_reverse]
  cases blanks : (text.reverse.takeWhile isBlank).reverse with
  | nil =>
    rw [blanks, List.append_nil] at whole
    rwa [← whole]
  | cons byte more =>
    have ascii : ∀ blank ∈ byte :: more, blank < 128 := by
      intro blank inside
      rw [← blanks, List.mem_reverse] at inside
      exact small_blank (List.all_eq_true.mp List.all_takeWhile blank inside)
    rw [blanks] at whole
    have has' : property (Ssl.trimBlankEnd text ++ (byte :: more ++ [])) := by
      rwa [List.append_nil, ← whole]
    exact (closed.parts has' (.ascii ascii) (List.cons_ne_nil byte more)).1

theorem Closed.trimBlank {text : Text} (has : property text) : property (trimBlank text) := by
  refine closed.trimBlankEnd ?_
  induction text with
  | nil => exact has
  | cons byte rest ih =>
    rw [List.dropWhile_cons]
    split
    · rename_i blank
      exact ih (closed.tail has (small_blank blank))
    · exact has

theorem Closed.cutAt {needle text before after : Text} (has : property text)
    (valid : Valid needle) (some_byte : needle ≠ [])
    (cut : cutAt needle text = some (before, after)) :
    property before ∧ property after := by
  rw [cutAt_eq cut, List.append_assoc] at has
  exact closed.parts has valid some_byte

/-- A text is cut around a match of characters below 128. -/
theorem Closed.found {pattern : Pattern UInt8} {passed : Nat} {text : Text} {found : Found UInt8}
    (has : property text) (ascii : pattern.Reads (· < 128)) (reading : pattern.reading = true)
    (hit : searchFrom pattern passed text = some found) :
    property found.skipped ∧ property found.rest := by
  rw [(searchFrom_found hit).1] at has
  exact closed.parts has (.ascii (matched_reads hit ascii)) (matched_ne_nil hit reading)

theorem Closed.replaceAll {pattern : Pattern UInt8} {text : Text} (has : property text)
    (ascii : pattern.Reads (· < 128)) (reading : pattern.reading = true) :
    property (replaceAll pattern [] text) := by
  refine @replaceAll_rule UInt8 pattern [] (fun text out => property text → property out)
    (fun _ => id) ?_ text has
  intro text passed found out hit later has
  have around := closed.found has ascii reading hit
  rw [List.append_nil]
  exact closed.append around.1 (later around.2)

theorem Closed.readTags {count : Nat} {domain text : Text} (has : property text) :
    property (readTags count domain text).2 := by
  induction count generalizing domain text with
  | zero => exact has
  | succ count ih =>
    rw [Ssl.readTags]
    split
    · exact has
    · rename_i found hit
      exact ih (closed.found has tagPattern_ascii (by decide) hit).2

/-- The parts of a triplet have the property when the line has it. -/
theorem Closed.parseArrowTriplet {line : Text} {triplet : ArrowTriplet} (has : property line)
    (parsed : parseArrowTriplet line = some triplet) :
    property triplet.subj ∧ property triplet.pred ∧ property triplet.obj := by
  rw [Ssl.parseArrowTriplet] at parsed
  split at parsed
  · contradiction
  · dsimp only at parsed
    split at parsed
    · contradiction
    · rename_i before after cut
      have sides := closed.cutAt (closed.readTags has) (valid_utf8 "→") (by decide) cut
      have parts : property ((Bytes.cutAt arrow after).getD (after, [])).1 ∧
          property ((Bytes.cutAt arrow after).getD (after, [])).2 := by
        cases second : Bytes.cutAt arrow after with
        | none => exact ⟨sides.2, closed.nil⟩
        | some parts => exact closed.cutAt sides.2 (valid_utf8 "→") (by decide) second
      split at parsed
      · contradiction
      · obtain rfl := Option.some.inj parsed
        refine ⟨closed.trimBlank (closed.trimBlankEnd sides.1), closed.trimBlank parts.1, ?_⟩
        exact closed.trimBlank (closed.replaceAll (closed.trimBlank parts.2)
          flagSuffixPattern_ascii (by decide))

/-- The gloss of a line has the property when the line has it. -/
theorem Closed.glossSslLine {line : Text} (has : property line) :
    property (glossSslLine line) := by
  rw [Ssl.glossSslLine]
  split
  · exact closed.nil
  · rename_i triplet parsed
    obtain ⟨subject, predicate, object⟩ := closed.parseArrowTriplet has parsed
    refine closed.buildSentence subject predicate ?_
    split
    · exact predicate
    · exact object

/-- The gloss of a memory has the property when all of its lines have it. -/
theorem Closed.glosses {lines : List Text} {result : Text} (has : property result)
    (each : ∀ line ∈ lines, property line) : property (lines.foldl addGloss result) := by
  induction lines generalizing result with
  | nil => exact has
  | cons line rest ih =>
    rw [List.forall_mem_cons] at each
    refine ih ?_ each.2
    rw [addGloss]
    split
    · exact has
    · dsimp only
      split
      · exact has
      · have gloss := closed.glossSslLine each.1
        split
        · exact closed.append has gloss
        · exact closed.append (closed.append has (closed.literal " " (by decide))) gloss

end Closed

/-! ## The gloss is UTF-8 and has no line break -/

theorem stripArrows_cons {byte : UInt8} {rest : Text} (other : byte ≠ 0xe2) :
    stripArrows (byte :: rest) = byte :: stripArrows rest := by
  cases rest with
  | nil => simp [stripArrows]
  | cons second more =>
    cases more with
    | nil => simp [stripArrows]
    | cons third last => simp [stripArrows, other]

theorem stripArrows_append {front rest : Text} (other : ∀ byte ∈ front, byte ≠ 0xe2) :
    stripArrows (front ++ rest) = front ++ stripArrows rest := by
  induction front with
  | nil => rfl
  | cons byte more ih =>
    rw [List.forall_mem_cons] at other
    rw [List.cons_append, stripArrows_cons other.1, ih other.2, List.cons_append]

/-- A character that begins like an arrow has three bytes. -/
theorem character_arrow {c : Char} {rest : Text}
    (begins : String.utf8EncodeChar c = 0xe2 :: rest) : ∃ second third, rest = [second, third] := by
  have other : ∀ byte : UInt8, byte &&& 0x1f ||| 0xc0 ≠ 0xe2 ∧ byte &&& 0x07 ||| 0xf0 ≠ 0xe2 :=
    every_byte (by decide)
  rcases character_cases c with ⟨byte, small, single⟩ | ⟨several, _⟩
  · rw [begins, List.cons.injEq] at single
    rw [← single.1] at small
    exact absurd small (by decide)
  · rcases c.utf8Size_eq with size | size | size | size
    · omega
    · rw [String.utf8EncodeChar_eq_cons_cons size, List.cons.injEq] at begins
      exact absurd begins.1 (other _).1
    · rw [String.utf8EncodeChar_eq_cons_cons_cons size, List.cons.injEq] at begins
      exact ⟨_, _, begins.2.symm⟩
    · rw [String.utf8EncodeChar_eq_cons_cons_cons_cons size, List.cons.injEq] at begins
      exact absurd begins.1 (other _).2

/-- A character is kept or, when it begins like an arrow, replaced by a blank. -/
theorem stripArrows_character (c : Char) (rest : Text) :
    (∃ third, String.utf8EncodeChar c = [0xe2, 0x86, third] ∧ continues third = true ∧
      stripArrows (String.utf8EncodeChar c ++ rest) = 32 :: stripArrows rest) ∨
    stripArrows (String.utf8EncodeChar c ++ rest) =
      String.utf8EncodeChar c ++ stripArrows rest := by
  obtain ⟨first, others, encoded, _, continued⟩ := character_eq c
  have plain : ∀ byte ∈ others, byte ≠ 0xe2 := by
    intro byte inside same
    have goesOn := continued byte inside
    rw [same] at goesOn
    contradiction
  by_cases begins : first = 0xe2
  · rw [begins] at encoded
    obtain ⟨second, third, rfl⟩ := character_arrow encoded
    by_cases isArrow : second = 0x86
    · left
      rw [isArrow] at encoded
      refine ⟨third, encoded, continued third (by simp), ?_⟩
      simp [encoded, stripArrows]
    · right
      rw [encoded]
      have later : stripArrows (second :: third :: rest) =
          second :: third :: stripArrows rest := stripArrows_append plain
      simp only [List.cons_append, List.nil_append]
      rw [← later]
      simp [stripArrows, isArrow]
  · right
    rw [encoded, stripArrows_append (List.forall_mem_cons.mpr ⟨begins, plain⟩)]

theorem valid_stripArrows {text : Text} (valid : Valid text) : Valid (stripArrows text) := by
  induction valid with
  | nil => exact .nil
  | @character c rest _ ih =>
    rcases stripArrows_character c rest with ⟨_, _, _, short⟩ | same
    · rw [short]
      exact ih.cons (by decide)
    · rw [same]
      exact .character c ih

/-- What a line has of UTF-8 its gloss keeps. -/
theorem closed_valid : Closed Valid where
  literal text _ := valid_utf8 text
  append := Valid.append
  parts := Valid.parts
  spaced valid ascii := by
    refine valid.map (fun byte small => ?_) fun byte large => ?_
    · split
      · decide
      · exact small
    · rw [if_neg]
      intro passes
      exact absurd (ascii byte passes) (UInt8.not_lt.mpr large)
  stripped := valid_stripArrows

theorem newline_stripArrows {text : Text} (absent : newline ∉ text) :
    newline ∉ stripArrows text := by
  fun_induction stripArrows text with
  | case1 third rest ih =>
    simp only [List.mem_cons, not_or] at absent ⊢
    exact ⟨by decide, ih absent.2.2.2⟩
  | case2 byte rest _ ih =>
    simp only [List.mem_cons, not_or] at absent ⊢
    exact ⟨absent.1, ih absent.2⟩
  | case3 => exact absent

/-- No step from a line to its gloss breaks it. -/
theorem closed_newline : Closed (newline ∉ ·) where
  literal _ absent := absent
  append first second := by simp [first, second]
  parts absent _ _ := by
    simp only [List.mem_append, not_or] at absent
    exact ⟨absent.1, absent.2.2⟩
  spaced absent _ := by
    rw [spaced, List.mem_map]
    rintro ⟨byte, inside, same⟩
    split at same
    · contradiction
    · exact absent (same ▸ inside)
  stripped := newline_stripArrows

theorem valid_glossSslContent {content : Text} (valid : Valid content) :
    Valid (glossSslContent content) :=
  closed_valid.glosses .nil valid.lines

theorem newline_glossSslContent (content : Text) : newline ∉ glossSslContent content :=
  closed_newline.glosses (by simp) (Lines.not_mem_lines content)

/-! ## The text that is embedded -/

/-- The gloss is empty when there is no line that has one. -/
theorem glossSslContent_eq_nil (content : Text) :
    glossSslContent content = [] ↔
      ∀ line ∈ Lines.lines newline content, line = [] ∨ glossSslLine line = [] := by
  have added (result line : Text) :
      addGloss result line = [] ↔ result = [] ∧ (line = [] ∨ glossSslLine line = []) := by
    simp only [addGloss, List.isEmpty_iff]
    split
    · simp [*]
    · split
      · simp [*]
      · split <;> simp [*]
  have folded (lines : List Text) (result : Text) :
      lines.foldl addGloss result = [] ↔
        result = [] ∧ ∀ line ∈ lines, line = [] ∨ glossSslLine line = [] := by
    induction lines generalizing result with
    | nil => simp
    | cons line rest ih => rw [List.foldl_cons, ih, added, List.forall_mem_cons, and_assoc]
  rw [glossSslContent, folded]
  simp

/-- A memory that goes on after a line break keeps its gloss. -/
theorem glossSslContent_more {content rest : Text}
    (none : glossSslContent (content ++ newline :: rest) = []) : glossSslContent content = [] := by
  rw [glossSslContent_eq_nil] at none ⊢
  intro line inside
  exact none line (Lines.mem_lines_append rest inside)

theorem retrievalText_eq (content : Text) :
    retrievalText content = content ∧ glossSslContent content = [] ∨
      glossSslContent content ≠ [] ∧
        retrievalText content = content ++ newline :: glossSslContent content := by
  simp only [retrievalText, List.isEmpty_iff]
  split
  · exact .inl ⟨rfl, ‹_›⟩
  · exact .inr ⟨‹_›, rfl⟩

/-- The retrieval text is UTF-8 exactly when the memory is. -/
theorem valid_retrievalText (content : Text) : Valid (retrievalText content) ↔ Valid content := by
  rcases retrievalText_eq content with ⟨same, _⟩ | ⟨_, longer⟩
  · rw [same]
  · rw [longer]
    constructor
    · intro valid
      exact (valid.cut (.ascii (by decide))).1
    · intro valid
      exact valid.append ((valid_glossSslContent valid).cons (by decide))

/-- Two memories have different retrieval texts. -/
theorem retrievalText_injective : Function.Injective retrievalText := by
  -- The longer of two such memories would have to end where the gloss of the other one ends.
  have shorter {content other : Text} (same : retrievalText content = retrievalText other)
      (no_longer : other.length ≤ content.length) : content = other := by
    have longer (gloss : Text) (absent : newline ∉ gloss)
        (whole : retrievalText content = other ++ newline :: gloss)
        (glossed : glossSslContent other = gloss) (some_gloss : gloss ≠ []) :
        content = other := by
      rcases retrievalText_eq content with ⟨plain, none⟩ | ⟨_, both⟩
      · rw [plain] at whole
        rw [whole] at none
        exact absurd (glossed.symm.trans (glossSslContent_more none)) some_gloss
      · rw [both] at whole
        rcases List.append_eq_append_iff.mp whole with ⟨part, parts, _⟩ | ⟨part, parts, ends⟩
        · rw [parts, List.length_append] at no_longer
          have empty : part = [] := List.length_eq_zero_iff.mp (by omega)
          rw [parts, empty, List.append_nil]
        · cases part with
          | nil => rw [parts, List.append_nil]
          | cons byte more =>
            obtain ⟨_, rfl⟩ := List.cons.inj ends
            simp at absent
    rcases retrievalText_eq other with ⟨plain, none⟩ | ⟨some_gloss, both⟩
    · rw [plain] at same
      have bound : (retrievalText content).length = other.length := by rw [same]
      rcases retrievalText_eq content with ⟨alone, _⟩ | ⟨_, more⟩
      · rw [← alone, same]
      · rw [more, List.length_append, List.length_cons] at bound
        omega
    · exact longer _ (newline_glossSslContent other) (same.trans both) rfl some_gloss
  intro content other same
  rcases Nat.le_total content.length other.length with less | more
  · exact (shorter same.symm less).symm
  · exact shorter same more

end Chitta.Ssl
