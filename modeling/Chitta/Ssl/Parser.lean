import Mathlib.Algebra.Order.Ring.Rat
import Chitta.Bytes
import Chitta.Lines

/-!
# The parser of distilled learnings

`SSLParser::parse` reads the answer of a model line by line. A typed marker opens a block; verbatim
and continuation lines are appended to its content, `[CITE]` lines to its citations, and the next
marker or `[TRIPLET]` line stores it. Texts are bytes, character classes those of the C locale, and
`stof` is the conversion of a number, which may throw.
-/
namespace Chitta.Ssl

open Bytes Regex Regex.Pattern

/-! ## Patterns -/

/-- `[+\-]?`. -/
def sign : Pattern UInt8 := maybe (symbol fun byte => byte == 43 || byte == 45)

/-- `\d+\.?\d*`. -/
def decimal : Pattern UInt8 := all [more digit, maybe (text "."), many digit]

/-- `[A-Z_,]+`. -/
def flagNames : Pattern UInt8 :=
  more (symbol fun byte => isUpper byte || byte == 95 || byte == 44)

/-- `[a-zA-Z0-9_-]+`. -/
def refName : Pattern UInt8 := more (symbol fun byte => isWord byte || byte == 45)

/-- `[\w./\-]+(?:\.\w+)?`. -/
def filePath : Pattern UInt8 :=
  seq (more (symbol fun byte => isWord byte || byte == 46 || byte == 47 || byte == 45))
    (maybe (seq (text ".") (more (symbol isWord))))

/-- The names of the types. -/
def typeNames : List String :=
  ["SOLUTION", "GOTCHA", "DECISION", "PATTERN", "PREFERENCE", "BELIEF", "INSIGHT", "FAILURE",
    "AFFECT", "CORRECTION", "EVENT", "OPERATIONAL"]

/-- `type_pattern`. -/
def typePattern : Pattern UInt8 :=
  all [atStart, text "[", group 1 (oneOf (typeNames.map text)), text "]", more space,
    group 2 (many any), atEnd]

/-- `triplet_pattern`. -/
def tripletPattern : Pattern UInt8 :=
  all [atStart, text "[TRIPLET]", more space, group 1 (more visible), more space,
    group 2 (more visible), more space, group 3 (more any), atEnd]

/-- `cite_line_pattern` of `parse`. -/
def citePattern : Pattern UInt8 := all [atStart, text "[CITE]", more space]

/-- `cite_line_pattern` of `parse_cite_line`. -/
def citeLinePattern : Pattern UInt8 :=
  all [atStart, text "[CITE]", more space, group 1 filePath, maybe (text ":"),
    group 2 (many digit), many space, maybe (group 3 (many any)), atEnd]

/-- `cite_pattern`. -/
def inlineCitePattern : Pattern UInt8 :=
  all [text "@", group 1 filePath, maybe (text ":"), group 2 (many digit)]

/-- `date_suffix_pattern`. -/
def dateSuffixPattern : Pattern UInt8 :=
  all [atStart, group 1 (few any), many space, text "@",
    group 2 (oneOf
      [all [times 4 digit, text "-", times 2 digit, text "-", times 2 digit],
        textNoCase "yesterday", textNoCase "today",
        all [textNoCase "last", more space, many digit, many space,
          oneOf [textNoCase "day", textNoCase "week", textNoCase "month", textNoCase "year"],
          maybe (textNoCase "s")]]),
    atEnd]

/-- `v03_pattern`. -/
def affectPattern : Pattern UInt8 :=
  all [text "A:", group 1 (seq sign decimal), text ",", group 2 decimal]

/-- `legacy_pattern`. -/
def legacyAffectPattern : Pattern UInt8 :=
  all [text "valence:", many space, group 1 (seq sign decimal), many space, text ",", many space,
    text "arousal:", many space, group 2 decimal]

/-- `flag_pattern`. -/
def flagPattern : Pattern UInt8 := seq (text "F:") (group 1 flagNames)

/-- `ref_pattern`. -/
def refPattern : Pattern UInt8 := seq (text "→@") (group 1 refName)

/-! ## What is read in a content -/

/-- `trim_entity`. -/
def trimEntity (text : Text) : Text :=
  let blank := fun byte : UInt8 => byte == 32 || byte == 9 || byte == 13 || byte == 10
  ((text.dropWhile blank).reverse.dropWhile blank).reverse

/-- `SSLCitation`. -/
structure Citation where
  /-- The file. -/
  file : Text
  /-- The line, or 0. -/
  line : Nat
  /-- The reason. -/
  context : Text
deriving DecidableEq

/-- `SSLLearning`. -/
structure Learning where
  /-- The name in the marker. -/
  type : Text
  /-- The text without annotations. -/
  content : Text
  /-- The first line of it, cut. -/
  title : Text
  /-- The category of the type. -/
  category : String
  /-- The files. -/
  citations : List Citation
  /-- The affect. -/
  affectValence : Rat
  /-- Its strength. -/
  affectArousal : Rat
  /-- The flags. -/
  flags : List Text
  /-- The references. -/
  refs : List Text
deriving DecidableEq

/-- `SSLTriplet`; `parse` leaves the resolved time at 0. -/
structure Triplet where
  /-- The subject. -/
  subject : Text
  /-- The predicate. -/
  predicate : Text
  /-- The object. -/
  object : Text
  /-- The date expression. -/
  dateAnnotation : Text
deriving DecidableEq

/-- `extract_date_from_object`. -/
def extractDateFromObject (object : Text) : Text × Text :=
  match fullMatch dateSuffixPattern object with
  | some groups => (trimEnd (groupText groups 1), groupText groups 2)
  | none => (object, [])

/-- `type_to_category`. -/
def typeToCategory (type : Text) : String :=
  if type = utf8 "SOLUTION" then "solution"
  else if type = utf8 "GOTCHA" then "gotcha"
  else if type = utf8 "DECISION" then "decision"
  else if type = utf8 "PATTERN" then "pattern"
  else if type = utf8 "PREFERENCE" then "preference"
  else if type = utf8 "BELIEF" then "belief"
  else if type = utf8 "FAILURE" then "failure"
  else if type = utf8 "AFFECT" then "affect"
  else if type = utf8 "CORRECTION" then "correction"
  else if type = utf8 "EVENT" then "event"
  else if type = utf8 "OPERATIONAL" then "operational"
  else "wisdom"

/-- The bounds of the affect values. -/
def bounded (low high value : Rat) : Rat := max low (min high value)

/-- The two numbers of an affect; an exception keeps what was there or was just assigned. -/
def readAffect (stof : Text → Option Rat) (before : Rat × Rat)
    (groups : List (Nat × Text)) : (Rat × Rat) × Bool :=
  match stof (groupText groups 1) with
  | none => (before, false)
  | some valence =>
    match stof (groupText groups 2) with
    | none => ((valence, before.2), false)
    | some arousal => ((bounded (-1) 1 valence, bounded 0 1 arousal), true)

/-- `parse_affect_values`. -/
def parseAffectValues (stof : Text → Option Rat) (content : Text) : Rat × Rat :=
  let first :=
    match search affectPattern content with
    | some found => readAffect stof (0, 0) found.groups
    | none => ((0, 0), false)
  if first.2 then first.1
  else
    match search legacyAffectPattern content with
    | some found => (readAffect stof first.1 found.groups).1
    | none => first.1

/-- `parse_flags`. -/
def parseFlags (content : Text) : List Text :=
  match search flagPattern content with
  | some found => (Lines.lines 44 (groupText found.groups 1)).filter fun flag => !flag.isEmpty
  | none => []

/-- `parse_refs`. -/
def parseRefs (content : Text) : List Text :=
  (findAll refPattern content).map fun found => groupText found.groups 1

/-- `strip_annotations`. -/
def stripAnnotations (content : Text) : Text :=
  let affectless := replaceAll
    (all [many space, text "A:", sign, decimal, text ",", decimal]) [] content
  let flagless := replaceAll (all [many space, text "F:", flagNames]) [] affectless
  trimEnd (replaceAll (all [many space, text "→@", refName]) [] flagless)

/-- `std::stoi` of digits, 0 for none and out of range. -/
def lineNumber (digits : Text) : Nat :=
  let value := digits.foldl (fun value byte => 10 * value + (byte.toNat - 48)) 0
  if value ≤ 2147483647 then value else 0

/-- `extract_inline_citations`. -/
def extractInlineCitations (content : Text) : List Citation :=
  (findAll inlineCitePattern content).map fun found =>
    ⟨groupText found.groups 1, lineNumber (groupText found.groups 2), []⟩

/-- `parse_cite_line`. -/
def parseCiteLine (line : Text) : Citation :=
  match fullMatch citeLinePattern line with
  | some groups =>
    ⟨groupText groups 1, lineNumber (groupText groups 2), trimEnd (groupText groups 3)⟩
  | none => ⟨[], 0, []⟩

/-- `normalize_arrows`. -/
def normalizeArrows (content : Text) : Text :=
  let latex := all [maybe (text "$"), many space, text "\\rightarrow", many space,
    maybe (text "$")]
  replaceText (utf8 "=>") (utf8 "→")
    (replaceText (utf8 "->") (utf8 "→") (replaceAll latex (utf8 "→") content))

/-- `chain_entities`. -/
def chainEntities (part : Text) : List Text :=
  let value := trimEntity part
  if value = [] then []
  else if value.head? ≠ some 123 then [value]
  else if value.getLast? ≠ some 125 then []
  else
    let members := (Lines.lines 44 ((value.drop 1).take (value.length - 2))).map trimEntity
    if members.any List.isEmpty then [] else members

/-- The triplets between the entities of neighbouring nodes. -/
def chainTriplets (predicate : Text) : List (List Text) → List Triplet
  | subjects :: objects :: rest =>
    (subjects.flatMap fun subject => objects.filterMap fun object =>
      let (clean, date) := extractDateFromObject object
      if clean = [] then none else some ⟨subject, predicate, clean, date⟩) ++
    chainTriplets predicate (objects :: rest)
  | _ => []

/-- A chain without its domain in brackets. -/
def undomained (chain : Text) : Text :=
  if chain.head? = some 91 then
    match cutAt (utf8 "]") chain with
    | some (_, after) => trimEntity after
    | none => chain
  else chain

/-- A choice without its alternatives and reason. -/
def chosen (chain : Text) : Text :=
  let first := match cutAt (utf8 "|") chain with
    | some (before, _) => before
    | none => chain
  if (cutAt (utf8 "→") first).isSome then first
  else
    match cutAt (utf8 ">") first with
    | some (before, after) => before ++ utf8 "→" ++ after
    | none => first

/-- The triplets of one physical line of a content. -/
def lineTriplets (type line : Text) : List Triplet :=
  let chain := trimEntity line
  if utf8 "[ε]" <+: chain then []
  else
    let chain := undomained (trimEntity (stripAnnotations (normalizeArrows chain)))
    let choice := decide (type = utf8 "DECISION") && (cutAt (utf8 "|") chain).isSome
    let predicate := if choice then utf8 "chosen_over"
      else if type = utf8 "GOTCHA" then utf8 "causes" else utf8 "leads_to"
    let chain := if choice then chosen chain else chain
    if (cutAt (utf8 "→") chain).isSome then
      let nodes := (splitOn (utf8 "→") chain).map chainEntities
      if nodes.any List.isEmpty then [] else chainTriplets predicate nodes
    else []

/-- The citations of a learning: those of its lines, then those in its content that are new. -/
def allCitations (collected inline : List Citation) : List Citation :=
  inline.foldl (fun citations cite =>
    if citations.any fun existing => existing.file == cite.file && existing.line == cite.line
    then citations else citations ++ [cite]) collected

/-! ## The parser -/

/-- `SSLParser::Result`. -/
structure Result where
  /-- The learnings. -/
  learnings : List Learning := []
  /-- The triplets. -/
  triplets : List Triplet := []
deriving DecidableEq

/-- What is pushed later. -/
def Result.append (first second : Result) : Result :=
  ⟨first.learnings ++ second.learnings, first.triplets ++ second.triplets⟩

instance : Append Result := ⟨Result.append⟩

/-- The pending state of the parser. -/
structure Block where
  /-- `current_type`, empty outside a block. -/
  type : Text := []
  /-- `current_content`. -/
  content : Text := []
  /-- `current_citations`. -/
  citations : List Citation := []
deriving DecidableEq

/-- The learning of a block. -/
def learningOf (stof : Text → Option Rat) (block : Block) : Learning :=
  let content := stripAnnotations block.content
  let affect := parseAffectValues stof block.content
  { type := block.type
    content
    title := (content.takeWhile fun byte => byte != newline).take 100
    category := typeToCategory block.type
    citations := allCitations block.citations (extractInlineCitations block.content)
    affectValence := affect.1
    affectArousal := affect.2
    flags := parseFlags block.content
    refs := parseRefs block.content }

/-- `store_current`: the block afterwards, and what is pushed. -/
def storeCurrent (stof : Text → Option Rat) (block : Block) : Block × Result :=
  if block.type.isEmpty || block.content.isEmpty then (block, {})
  else
    ({}, { learnings := [learningOf stof block]
           triplets := (Lines.lines newline block.content).flatMap (lineTriplets block.type) })

/-- The triplet of a `[TRIPLET]` line, when no part of it is empty. -/
def lineTriplet (groups : List (Nat × Text)) : Option Triplet :=
  let (object, date) := extractDateFromObject (trimEnd (stripAnnotations (groupText groups 3)))
  let triplet : Triplet := ⟨groupText groups 1, groupText groups 2, object, date⟩
  if triplet.subject.isEmpty || triplet.predicate.isEmpty || triplet.object.isEmpty then none
  else some triplet

/-- A line appended to the content. -/
def Block.extend (block : Block) (line : Text) : Block :=
  { block with content := block.content ++ newline :: line }

/-- One line of the loop. -/
def feedLine (stof : Text → Option Rat) (block : Block) (line : Text) : Block × Result :=
  if line.isEmpty || line.take 3 == utf8 "```" || line == utf8 "---" then (block, {})
  else
    match fullMatch typePattern line with
    | some groups =>
      let (stored, pushed) := storeCurrent stof block
      ({ stored with type := groupText groups 1, content := groupText groups 2 }, pushed)
    | none =>
      if decide (utf8 "[ε]" <+: line) && !block.type.isEmpty then (block.extend line, {})
      else if (search citePattern line).isSome && !block.type.isEmpty then
        let cite := parseCiteLine line
        if cite.file.isEmpty then (block, {})
        else ({ block with citations := block.citations ++ [cite] }, {})
      else
        match fullMatch tripletPattern line with
        | some groups =>
          let (stored, pushed) := storeCurrent stof block
          (stored, pushed ++ ⟨[], (lineTriplet groups).toList⟩)
        | none =>
          if !block.type.isEmpty && line.head? != some 91 then (block.extend line, {})
          else (block, {})

/-- The loop over the lines, and the block that is pending at its end. -/
def parseLines (stof : Text → Option Rat) : Block → List Text → Result
  | block, [] => (storeCurrent stof block).2
  | block, line :: rest =>
    let (next, pushed) := feedLine stof block line
    pushed ++ parseLines stof next rest

/-- `SSLParser::parse`. -/
def parse (stof : Text → Option Rat) (output : Text) : Result :=
  parseLines stof {} (Lines.lines newline output)

end Chitta.Ssl
