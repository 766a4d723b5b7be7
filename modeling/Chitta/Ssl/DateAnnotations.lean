import Chitta.Ssl.ArrowChains
import Chitta.Ssl.Temporal

/-!
# Date annotations and their resolution

An annotation that `extract_date_from_object` accepts is a day by its fields, yesterday or today, or
a time counted back, whose number and gap may be missing. The patterns of `resolve` were written
apart from it: they need a gap behind a number, know no last day, and convert the number to an
`int`.
-/
namespace Chitta.Ssl

open Bytes Regex Regex.Pattern

/-! ## Forms -/

/-- A date by its fields. -/
structure Iso (date year month day : Text) : Prop where
  /-- The fields with dashes between them. -/
  whole : date = year ++ (utf8 "-" ++ (month ++ (utf8 "-" ++ day)))
  /-- Four digits. -/
  year : year.length = 4 ∧ ∀ byte ∈ year, isDigit byte = true
  /-- Two digits. -/
  month : month.length = 2 ∧ ∀ byte ∈ month, isDigit byte = true
  /-- Two digits. -/
  day : day.length = 2 ∧ ∀ byte ∈ day, isDigit byte = true

/-- A time counted back, in capitals or small. -/
structure Last (date word blanks digits gap unit plural : Text) : Prop where
  /-- The parts. -/
  whole : date = word ++ (blanks ++ (digits ++ (gap ++ (unit ++ plural))))
  /-- The word. -/
  word : word.map lower = utf8 "last"
  /-- White space behind the word. -/
  blanks : blanks ≠ [] ∧ ∀ byte ∈ blanks, isSpace byte = true
  /-- The digits of a number, if there is one. -/
  digits : ∀ byte ∈ digits, isDigit byte = true
  /-- White space, if there is any. -/
  gap : ∀ byte ∈ gap, isSpace byte = true
  /-- A unit. -/
  unit : ∃ name ∈ unitNames, unit.map lower = utf8 name
  /-- An ending. -/
  plural : plural.map lower = utf8 "s" ∨ plural = []

/-- What is accepted as a date. -/
inductive Accepted (date : Text) : Prop where
  /-- The fields. -/
  | iso {year month day : Text} (fields : Iso date year month day)
  /-- A word. -/
  | word (word : date.map lower = utf8 "yesterday" ∨ date.map lower = utf8 "today")
  /-- A time counted back. -/
  | last {word blanks digits gap unit plural : Text}
    (parts : Last date word blanks digits gap unit plural)

/-- The second group of `date_suffix_pattern`. -/
def datePattern : Pattern UInt8 :=
  oneOf [isoPattern, textNoCase "yesterday", textNoCase "today",
    all [textNoCase "last", more space, many digit, many space,
      oneOf (unitNames.map textNoCase), maybe (textNoCase "s")]]

/-- The units in capitals or small. -/
theorem matches_units {part : Text} {groups : List (Nat × Text)}
    (matched : (oneOf (unitNames.map textNoCase)).Matches part groups) :
    (∃ name ∈ unitNames, part.map lower = utf8 name) ∧ groups = [] := by
  obtain ⟨pattern, inside, own⟩ := (matches_oneOf _).mp matched
  obtain ⟨name, there, rfl⟩ := List.mem_map.mp inside
  obtain ⟨same, rfl⟩ := (matches_textNoCase name).mp own
  have small : ∀ name ∈ unitNames, (utf8 name).map lower = utf8 name := by decide
  rw [small name there] at same
  exact ⟨⟨name, there, same⟩, rfl⟩

/-- The texts of fields. -/
theorem matches_iso {part : Text} {groups : List (Nat × Text)} :
    isoPattern.Matches part groups ↔ (∃ year month day, Iso part year month day) ∧ groups = [] := by
  constructor
  · intro matched
    obtain ⟨year, _, _, _, rfl, rfl, first, matched⟩ := (matches_all_cons _ _).mp matched
    obtain ⟨_, _, _, _, rfl, rfl, dash, matched⟩ := (matches_all_cons _ _).mp matched
    obtain ⟨month, _, _, _, rfl, rfl, second, matched⟩ := (matches_all_cons _ _).mp matched
    obtain ⟨_, _, day, _, rfl, rfl, other, third⟩ := (matches_all_cons _ _).mp matched
    obtain ⟨yearSize, yearDigits, rfl⟩ := (matches_times 4 _).mp first
    obtain ⟨monthSize, monthDigits, rfl⟩ := (matches_times 2 _).mp second
    obtain ⟨daySize, dayDigits, rfl⟩ := (matches_times 2 _).mp third
    obtain ⟨rfl, rfl⟩ := (matches_text "-").mp dash
    obtain ⟨rfl, rfl⟩ := (matches_text "-").mp other
    exact ⟨⟨year, month, day, rfl, ⟨yearSize, yearDigits⟩, ⟨monthSize, monthDigits⟩,
      ⟨daySize, dayDigits⟩⟩, rfl⟩
  · rintro ⟨⟨year, month, day, fields⟩, rfl⟩
    rw [fields.whole]
    refine (matches_all_cons _ _).mpr ⟨year, [], _, [], rfl, rfl,
      (matches_times 4 _).mpr ⟨fields.year.1, fields.year.2, rfl⟩, ?_⟩
    refine (matches_all_cons _ _).mpr ⟨utf8 "-", [], _, [], rfl, rfl,
      (matches_text "-").mpr ⟨rfl, rfl⟩, ?_⟩
    refine (matches_all_cons _ _).mpr ⟨month, [], _, [], rfl, rfl,
      (matches_times 2 _).mpr ⟨fields.month.1, fields.month.2, rfl⟩, ?_⟩
    exact (matches_all_cons _ _).mpr ⟨utf8 "-", [], day, [], rfl, rfl,
      (matches_text "-").mpr ⟨rfl, rfl⟩,
      (matches_times 2 _).mpr ⟨fields.day.1, fields.day.2, rfl⟩⟩

/-- The texts of dates are the accepted ones. -/
theorem accepted_of_matches {part : Text} {groups : List (Nat × Text)}
    (matched : datePattern.Matches part groups) : Accepted part := by
  obtain ⟨pattern, inside, own⟩ := (matches_oneOf _).mp matched
  simp only [List.mem_cons, List.not_mem_nil, or_false] at inside
  rcases inside with rfl | rfl | rfl | rfl
  · obtain ⟨⟨year, month, day, fields⟩, _⟩ := matches_iso.mp own
    exact .iso fields
  · obtain ⟨same, _⟩ := (matches_textNoCase "yesterday").mp own
    exact .word (Or.inl same)
  · obtain ⟨same, _⟩ := (matches_textNoCase "today").mp own
    exact .word (Or.inr same)
  · obtain ⟨word, _, _, _, rfl, rfl, first, own⟩ := (matches_all_cons _ _).mp own
    obtain ⟨blanks, _, _, _, rfl, rfl, second, own⟩ := (matches_all_cons _ _).mp own
    obtain ⟨digits, _, _, _, rfl, rfl, third, own⟩ := (matches_all_cons _ _).mp own
    obtain ⟨gap, _, _, _, rfl, rfl, fourth, own⟩ := (matches_all_cons _ _).mp own
    obtain ⟨unit, _, plural, _, rfl, rfl, fifth, sixth⟩ := (matches_all_cons _ _).mp own
    obtain ⟨wordSame, _⟩ := (matches_textNoCase "last").mp first
    obtain ⟨someBlank, allBlank, _⟩ := (matches_more _).mp second
    obtain ⟨allDigit, _⟩ := (matches_many _).mp third
    obtain ⟨allGap, _⟩ := (matches_many _).mp fourth
    obtain ⟨unitName, _⟩ := matches_units fifth
    have ending : plural.map lower = utf8 "s" ∨ plural = [] := by
      cases sixth with
      | inl letter => exact Or.inl ((matches_textNoCase "s").mp letter).1
      | inr empty => exact Or.inr empty.1
    exact .last ⟨rfl, wordSame, ⟨someBlank, allBlank⟩, allDigit, allGap, unitName, ending⟩

/-- A date that an object ends with is an accepted one. -/
theorem accepted_extract {object : Text} (dated : (extractDateFromObject object).2 ≠ []) :
    Accepted (extractDateFromObject object).2 := by
  unfold extractDateFromObject at dated ⊢
  cases found : fullMatch dateSuffixPattern object with
  | none =>
    rw [found] at dated
    exact absurd rfl dated
  | some groups =>
    obtain ⟨stop, moves, _, rfl⟩ := fullMatch_moves found
    rw [dateSuffixPattern] at moves
    obtain ⟨_, _, moves⟩ := moves.all_cons
    obtain ⟨_, _, moves⟩ := moves.all_cons
    obtain ⟨_, _, moves⟩ := moves.all_cons
    obtain ⟨_, _, moves⟩ := moves.all_cons
    obtain ⟨last, date, ends⟩ := moves.all_cons
    obtain ⟨after, part, within, whole, _, recorded⟩ := date.of_group
    obtain ⟨own, inner, matched, same, _⟩ := within.matches rfl
    have text : own = part := List.append_cancel_right (same.symm.trans whole)
    have kept : stop.groups = last.groups := by
      cases ends
      rfl
    have read : groupText stop.groups 2 = part := by
      rw [kept, recorded]
      rfl
    show Accepted (groupText stop.groups 2)
    rw [read, ← text]
    exact accepted_of_matches matched

/-! ## Times counted back -/

/-- A time counted back in small letters. -/
structure Lowered (text blanks digits gap : Text) (name : String) (plural : Text) : Prop where
  /-- The parts. -/
  whole : text = utf8 "last" ++ (blanks ++ (digits ++ (gap ++ (utf8 name ++ plural))))
  /-- White space behind the word. -/
  blanks : blanks ≠ [] ∧ ∀ byte ∈ blanks, isSpace byte = true
  /-- The digits of a number, if there is one. -/
  digits : ∀ byte ∈ digits, isDigit byte = true
  /-- White space, if there is any. -/
  gap : ∀ byte ∈ gap, isSpace byte = true
  /-- A unit. -/
  unit : name ∈ unitNames
  /-- An ending. -/
  plural : plural = utf8 "s" ∨ plural = []

/-- White space and digits have no other form in small. -/
theorem map_lower {part : Text}
    (neutral : ∀ byte ∈ part, isSpace byte = true ∨ isDigit byte = true) :
    part.map lower = part := by
  have all : ∀ byte : UInt8, isSpace byte = true ∨ isDigit byte = true → lower byte = byte :=
    every_byte (by decide)
  have each : ∀ byte ∈ part, lower byte = byte :=
    fun byte inside => all byte (neutral byte inside)
  rw [List.map_congr_left each, List.map_id']

/-- A time counted back in small letters has the same parts. -/
theorem Last.lowered {date word blanks digits gap unit plural : Text}
    (parts : Last date word blanks digits gap unit plural) :
    ∃ name, unit.map lower = utf8 name ∧
      Lowered (date.map lower) blanks digits gap name (plural.map lower) := by
  obtain ⟨name, there, same⟩ := parts.unit
  have blanks := map_lower fun byte inside => Or.inl (parts.blanks.2 byte inside)
  have digits := map_lower fun byte inside => Or.inr (parts.digits byte inside)
  have gap := map_lower fun byte inside => Or.inl (parts.gap byte inside)
  refine ⟨name, same, ?_, parts.blanks, parts.digits, parts.gap, there, ?_⟩
  · rw [parts.whole]
    simp only [List.map_append, parts.word, blanks, digits, gap, same]
  · cases parts.plural with
    | inl letter => exact Or.inl letter
    | inr empty => exact Or.inr (by rw [empty]; rfl)

/-- A unit begins with a letter. -/
theorem head_unit {name : String} (unit : name ∈ unitNames) (rest : Text) :
    ∀ byte ∈ (utf8 name ++ rest).head?, isSpace byte = false ∧ isDigit byte = false := by
  have each : ∀ name ∈ unitNames, ∃ byte more, utf8 name = byte :: more ∧ isSpace byte = false ∧
      isDigit byte = false := by
    simp only [unitNames, List.forall_mem_cons]
    exact ⟨⟨_, _, rfl, by decide⟩, ⟨_, _, rfl, by decide⟩, ⟨_, _, rfl, by decide⟩,
      ⟨_, _, rfl, by decide⟩, by simp⟩
  obtain ⟨byte, more, written, apart⟩ := each name unit
  intro first here
  rw [written] at here
  obtain rfl := Option.some.inj here
  exact apart

/-- Two units that begin the same text are the same. -/
theorem unit_unique {one other : String} (unit : one ∈ unitNames) (unitOther : other ∈ unitNames)
    {rest more : Text} (same : utf8 one ++ rest = utf8 other ++ more) : one = other := by
  have each : ∀ one ∈ unitNames, ∀ other ∈ unitNames,
      (utf8 one).head? = (utf8 other).head? → one = other := by
    decide
  have some_byte : ∀ name ∈ unitNames, (utf8 name).head?.isSome = true := by decide
  apply each one unit other unitOther
  have heads := congrArg List.head? same
  have first := some_byte one unit
  have second := some_byte other unitOther
  rw [List.head?_append, List.head?_append] at heads
  obtain ⟨a, ha⟩ := Option.isSome_iff_exists.mp first
  obtain ⟨b, hb⟩ := Option.isSome_iff_exists.mp second
  rw [ha, hb] at heads ⊢
  exact heads

/-- White space is no digit. -/
theorem space_not_digit {byte : UInt8} (space : isSpace byte = true) : isDigit byte = false := by
  have all : ∀ byte : UInt8, isSpace byte = true → isDigit byte = false :=
    every_byte (by decide)
  exact all byte space

/-- A digit is no white space. -/
theorem digit_not_space {byte : UInt8} (digit : isDigit byte = true) : isSpace byte = false := by
  cases space : isSpace byte with
  | false => rfl
  | true =>
    rw [space_not_digit space] at digit
    contradiction

/-- A text that begins with bytes that pass a test. -/
theorem head_of_all {test : UInt8 → Bool} {part : Text} (some_byte : part ≠ [])
    (passes : ∀ byte ∈ part, test byte = true) (rest : Text) :
    ∀ byte ∈ (part ++ rest).head?, test byte = true := by
  cases part with
  | nil => contradiction
  | cons first others =>
    intro byte here
    rw [← Option.some.inj here]
    exact passes first List.mem_cons_self

/-- The texts of `last_n_pattern`. -/
theorem matches_lastN {part : Text} {groups : List (Nat × Text)} :
    lastNPattern.Matches part groups ↔ ∃ blanks digits gap name plural,
      Lowered part blanks digits gap name plural ∧ digits ≠ [] ∧ gap ≠ [] ∧
        groups = [(2, utf8 name), (1, digits)] := by
  constructor
  · intro matched
    obtain ⟨_, _, _, _, rfl, rfl, word, behindWord⟩ := (matches_all_cons _ _).mp matched
    obtain ⟨blanks, _, _, _, rfl, rfl, second, behindBlanks⟩ := (matches_all_cons _ _).mp behindWord
    obtain ⟨digits, _, _, _, rfl, rfl, ⟨_, third, rfl⟩, behindDigits⟩ :=
      (matches_all_cons _ _).mp behindBlanks
    obtain ⟨gap, _, _, _, rfl, rfl, fourth, behindGap⟩ := (matches_all_cons _ _).mp behindDigits
    obtain ⟨unit, _, plural, _, rfl, rfl, ⟨_, fifth, rfl⟩, sixth⟩ :=
      (matches_all_cons _ _).mp behindGap
    obtain ⟨rfl, rfl⟩ := (matches_text "last").mp word
    obtain ⟨someBlank, allBlank, rfl⟩ := (matches_more _).mp second
    obtain ⟨someDigit, allDigit, rfl⟩ := (matches_more _).mp third
    obtain ⟨someGap, allGap, rfl⟩ := (matches_more _).mp fourth
    obtain ⟨pattern, inside, own⟩ := (matches_oneOf _).mp fifth
    obtain ⟨name, there, rfl⟩ := List.mem_map.mp inside
    obtain ⟨rfl, rfl⟩ := (matches_text name).mp own
    have ending :
        (plural = utf8 "s" ∨ plural = []) ∧ ∀ late, (maybe (text "s")).Matches plural late →
        late = [] := by
      constructor
      · cases sixth with
        | inl letter => exact Or.inl ((matches_text "s").mp letter).1
        | inr empty => exact Or.inr empty.1
      · intro late found
        cases found with
        | inl letter => exact ((matches_text "s").mp letter).2
        | inr empty => exact empty.2
    obtain rfl := ending.2 _ sixth
    exact ⟨blanks, digits, gap, name, plural, ⟨rfl, ⟨someBlank, allBlank⟩, allDigit, allGap, there,
      ending.1⟩, someDigit, someGap, rfl⟩
  · rintro ⟨blanks, digits, gap, name, plural, parts, someDigit, someGap, rfl⟩
    rw [parts.whole]
    refine (matches_all_cons _ _).mpr ⟨_, [], _, [(2, utf8 name), (1, digits)], rfl, rfl,
      (matches_text "last").mpr ⟨rfl, rfl⟩, ?_⟩
    refine (matches_all_cons _ _).mpr ⟨blanks, [], _, [(2, utf8 name), (1, digits)], rfl, rfl,
      (matches_more _).mpr ⟨parts.blanks.1, parts.blanks.2, rfl⟩, ?_⟩
    refine (matches_all_cons _ _).mpr ⟨digits, [(1, digits)], _, [(2, utf8 name)], rfl, rfl,
      ⟨[], (matches_more _).mpr ⟨someDigit, parts.digits, rfl⟩, rfl⟩, ?_⟩
    refine (matches_all_cons _ _).mpr ⟨gap, [], _, [(2, utf8 name)], rfl, rfl,
      (matches_more _).mpr ⟨someGap, parts.gap, rfl⟩, ?_⟩
    refine (matches_all_cons _ _).mpr ⟨utf8 name, [(2, utf8 name)], plural, [], rfl, rfl,
      ⟨[], (matches_oneOf _).mpr ⟨text name, List.mem_map_of_mem parts.unit,
        (matches_text name).mpr ⟨rfl, rfl⟩⟩, rfl⟩, ?_⟩
    cases parts.plural with
    | inl letter => exact Or.inl ((matches_text "s").mpr ⟨letter, rfl⟩)
    | inr empty => exact Or.inr ⟨empty, rfl⟩

/-- The parts of a text with a number and a gap are the only ones, whatever follows. -/
theorem lowered_unique {text part rest blanks digits gap plural blanks' digits' gap' plural' : Text}
    {name name' : String} (parts : Lowered text blanks digits gap name plural)
    (others : Lowered part blanks' digits' gap' name' plural') (begins : text = part ++ rest)
    (someDigit : digits' ≠ []) (someGap : gap' ≠ []) :
    digits = digits' ∧ gap ≠ [] ∧ name = name' := by
  have spaces := head_of_all someGap others.gap
  have numbers := head_of_all someDigit others.digits
  rw [parts.whole, others.whole] at begins
  simp only [List.append_assoc] at begins
  have behind := List.append_cancel_left begins
  by_cases number : digits = []
  · -- White space is followed by a unit, not by a digit.
    rw [number, List.nil_append, ← List.append_assoc] at behind
    have units := head_unit parts.unit plural
    have split := span_unique behind
      (fun byte inside => (List.mem_append.mp inside).elim (parts.blanks.2 byte) (parts.gap byte))
      (fun byte here => (units byte here).1) others.blanks.2
      (fun byte here => digit_not_space (numbers _ byte here))
    have first := numbers (gap' ++ (utf8 name' ++ (plural' ++ rest)))
    rw [← split.2] at first
    cases whole : utf8 name ++ plural with
    | nil =>
      rw [whole] at split
      exact absurd (List.append_eq_nil_iff.mp split.2.symm).1 someDigit
    | cons byte more =>
      rw [whole] at first units
      have digit := first byte rfl
      rw [(units byte rfl).2] at digit
      contradiction
  · have ownNumbers := head_of_all number parts.digits
    have split := span_unique behind parts.blanks.2
      (fun byte here => digit_not_space (ownNumbers _ byte here)) others.blanks.2
      (fun byte here => digit_not_space (numbers _ byte here))
    have ends : ∀ byte ∈ (gap ++ (utf8 name ++ plural)).head?, isDigit byte = false := by
      by_cases blank : gap = []
      · rw [blank]
        exact fun byte here => (head_unit parts.unit plural byte here).2
      · exact fun byte here => space_not_digit (head_of_all blank parts.gap _ byte here)
    have middle := span_unique split.2 parts.digits ends others.digits
      (fun byte here => space_not_digit (spaces _ byte here))
    have tail := span_unique middle.2 parts.gap
      (fun byte here => (head_unit parts.unit plural byte here).1) others.gap
      (fun byte here => (head_unit others.unit (plural' ++ rest) byte here).1)
    refine ⟨middle.1, ?_, unit_unique parts.unit others.unit tail.2⟩
    rw [tail.1]
    exact someGap

/-- The letter that begins a time counted back stands nowhere else in it. -/
theorem Lowered.front {text blanks digits gap plural : Text} {name : String}
    (parts : Lowered text blanks digits gap name plural) {front part rest : Text}
    (whole : text = front ++ (utf8 "last" ++ part ++ rest)) : front = [] := by
  have word : utf8 "last" = 108 :: utf8 "ast" := rfl
  have behind :
      (108 : UInt8) ∉ utf8 "ast" ++ (blanks ++ (digits ++ (gap ++ (utf8 name ++ plural)))) := by
    have blank : ¬ isSpace 108 = true := by decide
    have digit : ¬ isDigit 108 = true := by decide
    have names : ∀ name ∈ unitNames, (108 : UInt8) ∉ utf8 name := by decide
    have ending : (108 : UInt8) ∉ plural := by
      cases parts.plural with
      | inl letter =>
        rw [letter]
        decide
      | inr empty =>
        rw [empty]
        exact List.not_mem_nil
    have start : (108 : UInt8) ∉ utf8 "ast" := by decide
    simp only [List.mem_append, not_or]
    exact ⟨start, fun inside => blank (parts.blanks.2 _ inside),
      fun inside => digit (parts.digits _ inside), fun inside => blank (parts.gap _ inside),
      names name parts.unit, ending⟩
  cases front with
  | nil => rfl
  | cons first front =>
    rw [parts.whole, word, List.cons_append, List.cons_append] at whole
    have tail := (List.cons.inj whole).2
    rw [tail] at behind
    simp at behind

/-- A number with a gap behind it is found with its unit. -/
theorem search_lastN {text blanks digits gap plural : Text} {name : String}
    (parts : Lowered text blanks digits gap name plural) (someDigit : digits ≠ [])
    (someGap : gap ≠ []) :
    ∃ found, search lastNPattern text = some found ∧ groupText found.groups 1 = digits ∧
      groupText found.groups 2 = utf8 name := by
  have matched :=
    matches_lastN.mpr ⟨blanks, digits, gap, name, plural, parts, someDigit, someGap, rfl⟩
  obtain ⟨found, hit, _, whole, own⟩ := searchFrom_here 0 matched [] rfl rfl
  rw [List.append_nil] at hit whole
  obtain ⟨blanks', digits', gap', name', plural', others, digitThere, gapThere, groups⟩ :=
    matches_lastN.mp own
  have same := lowered_unique parts others whole digitThere gapThere
  refine ⟨found, hit, ?_, ?_⟩
  · rw [groups, same.1]
    rfl
  · rw [groups, same.2.2]
    rfl

/-- Without a number or without a gap no number is found. -/
theorem search_lastN_none {text blanks digits gap plural : Text} {name : String}
    (parts : Lowered text blanks digits gap name plural) (missing : digits = [] ∨ gap = []) :
    search lastNPattern text = none := by
  apply searchFrom_eq_none rfl
  intro front part rest groups whole matched
  obtain ⟨blanks', digits', gap', name', plural', others, someDigit, someGap, _⟩ :=
    matches_lastN.mp matched
  have begins : part = utf8 "last" ++ (blanks' ++ (digits' ++ (gap' ++ (utf8 name' ++ plural')))) :=
    others.whole
  rw [begins] at whole
  have start := parts.front whole
  rw [start, ← begins, List.nil_append] at whole
  have same := lowered_unique parts others whole someDigit someGap
  cases missing with
  | inl number => exact someDigit (same.1.symm.trans number)
  | inr blank => exact same.2.1 blank

/-- The texts of `last_unit_pattern`. -/
theorem matches_lastUnit {part : Text} {groups : List (Nat × Text)} :
    lastUnitPattern.Matches part groups ↔ ∃ blanks name,
      part = utf8 "last" ++ (blanks ++ utf8 name) ∧ blanks ≠ [] ∧
        (∀ byte ∈ blanks, isSpace byte = true) ∧ name ∈ ["week", "month", "year"] ∧
          groups = [(1, utf8 name)] := by
  constructor
  · intro matched
    obtain ⟨_, _, _, _, rfl, rfl, word, behindWord⟩ := (matches_all_cons _ _).mp matched
    obtain ⟨blanks, _, unit, _, rfl, rfl, second, ⟨_, third, rfl⟩⟩ :=
      (matches_all_cons _ _).mp behindWord
    obtain ⟨rfl, rfl⟩ := (matches_text "last").mp word
    obtain ⟨someBlank, allBlank, rfl⟩ := (matches_more _).mp second
    obtain ⟨pattern, inside, own⟩ := (matches_oneOf _).mp third
    obtain ⟨name, there, rfl⟩ := List.mem_map.mp inside
    obtain ⟨rfl, rfl⟩ := (matches_text name).mp own
    exact ⟨blanks, name, rfl, someBlank, allBlank, there, rfl⟩
  · rintro ⟨blanks, name, rfl, someBlank, allBlank, unit, rfl⟩
    refine (matches_all_cons _ _).mpr ⟨_, [], _, [(1, utf8 name)], rfl, rfl,
      (matches_text "last").mpr ⟨rfl, rfl⟩, ?_⟩
    exact (matches_all_cons _ _).mpr ⟨blanks, [], utf8 name, [(1, utf8 name)], rfl, rfl,
      (matches_more _).mpr ⟨someBlank, allBlank, rfl⟩,
      ⟨[], (matches_oneOf _).mpr ⟨text name, List.mem_map_of_mem unit,
        (matches_text name).mpr ⟨rfl, rfl⟩⟩, rfl⟩⟩

/-- The units that stand without a number are units. -/
theorem unit_of_alone {name : String} (alone : name ∈ ["week", "month", "year"]) :
    name ∈ unitNames ∧ name ≠ "day" := by
  have each : ∀ name ∈ ["week", "month", "year"], name ∈ unitNames ∧ name ≠ "day" := by decide
  exact each name alone

/-- The unit of a time counted back without a number is the one behind the white space. -/
theorem lastUnit_unique {text blanks digits gap plural rest blanks' : Text} {name name' : String}
    (parts : Lowered text blanks digits gap name plural)
    (begins : text = utf8 "last" ++ (blanks' ++ utf8 name') ++ rest)
    (space : ∀ byte ∈ blanks', isSpace byte = true) (unit : name' ∈ ["week", "month", "year"]) :
    digits = [] ∧ name = name' := by
  have known := (unit_of_alone unit).1
  have heads := head_unit known rest
  rw [parts.whole] at begins
  simp only [List.append_assoc] at begins
  have behind := List.append_cancel_left begins
  have none_there : digits = [] := by
    by_contra number
    have ownNumbers := head_of_all number parts.digits
    have split := span_unique behind parts.blanks.2
      (fun byte here => digit_not_space (ownNumbers _ byte here)) space
      (fun byte here => (heads byte here).1)
    have first := ownNumbers (gap ++ (utf8 name ++ plural))
    rw [split.2] at first
    have some_byte : utf8 name' ++ rest ≠ [] := by
      intro empty
      rw [empty] at split
      exact number (List.append_eq_nil_iff.mp split.2).1
    obtain ⟨byte, more, whole⟩ := List.exists_cons_of_ne_nil some_byte
    rw [whole] at first heads
    have digit := first byte rfl
    rw [(heads byte rfl).2] at digit
    contradiction
  rw [none_there, List.nil_append, ← List.append_assoc] at behind
  have split := span_unique behind
    (fun byte inside => (List.mem_append.mp inside).elim (parts.blanks.2 byte) (parts.gap byte))
    (fun byte here => (head_unit parts.unit plural byte here).1) space
    (fun byte here => (heads byte here).1)
  exact ⟨none_there, unit_unique parts.unit known split.2⟩

/-- A unit without a number is found, unless it is the day. -/
theorem search_lastUnit {text blanks gap plural : Text} {name : String}
    (parts : Lowered text blanks [] gap name plural) (longer : name ≠ "day") :
    ∃ found, search lastUnitPattern text = some found ∧ groupText found.groups 1 = utf8 name := by
  have alone : name ∈ ["week", "month", "year"] := by
    have each : ∀ name ∈ unitNames, name ≠ "day" → name ∈ ["week", "month", "year"] := by decide
    exact each name parts.unit longer
  have spaces : ∀ byte ∈ blanks ++ gap, isSpace byte = true := fun byte inside =>
    (List.mem_append.mp inside).elim (parts.blanks.2 byte) (parts.gap byte)
  have some_space : blanks ++ gap ≠ [] := List.append_ne_nil_of_left_ne_nil parts.blanks.1 gap
  have matched := matches_lastUnit.mpr ⟨blanks ++ gap, name, rfl, some_space, spaces, alone, rfl⟩
  obtain ⟨found, hit, _, whole, own⟩ := searchFrom_here 0 matched plural rfl rfl
  have split : utf8 "last" ++ (blanks ++ gap ++ utf8 name) ++ plural = text := by
    rw [parts.whole]
    simp
  rw [split] at hit whole
  obtain ⟨blanks', name', begins, _, space, unit, groups⟩ := matches_lastUnit.mp own
  rw [begins] at whole
  have same := lastUnit_unique parts whole space unit
  refine ⟨found, hit, ?_⟩
  rw [groups, same.2]
  rfl

/-- No unit is found behind a number, and the day is not found. -/
theorem search_lastUnit_none {text blanks digits gap plural : Text} {name : String}
    (parts : Lowered text blanks digits gap name plural) (other : digits ≠ [] ∨ name = "day") :
    search lastUnitPattern text = none := by
  apply searchFrom_eq_none rfl
  intro front part rest groups whole matched
  obtain ⟨blanks', name', begins, _, space, unit, _⟩ := matches_lastUnit.mp matched
  rw [begins] at whole
  have start : front = [] := by
    apply parts.front
    rw [whole, List.append_assoc]
  rw [start, List.nil_append, ← List.append_assoc] at whole
  have same := lastUnit_unique parts whole space unit
  cases other with
  | inl number => exact number same.1
  | inr day => exact (unit_of_alone unit).2 (same.2.symm.trans day)

/-- Nothing is said to be ago. -/
theorem search_ago_none {text blanks digits gap plural : Text} {name : String}
    (parts : Lowered text blanks digits gap name plural) : search agoPattern text = none := by
  have absent : (103 : UInt8) ∉ text := by
    have blank : ¬ isSpace 103 = true := by decide
    have digit : ¬ isDigit 103 = true := by decide
    have names : ∀ name ∈ unitNames, (103 : UInt8) ∉ utf8 name := by decide
    have word : (103 : UInt8) ∉ utf8 "last" := by decide
    have ending : (103 : UInt8) ∉ plural := by
      cases parts.plural with
      | inl letter =>
        rw [letter]
        decide
      | inr empty =>
        rw [empty]
        exact List.not_mem_nil
    rw [parts.whole]
    simp only [List.mem_append, not_or]
    exact ⟨word, fun inside => blank (parts.blanks.2 _ inside),
      fun inside => digit (parts.digits _ inside), fun inside => blank (parts.gap _ inside),
      names name parts.unit, ending⟩
  apply searchFrom_eq_none rfl
  intro front part rest groups whole matched
  obtain ⟨_, _, _, _, rfl, rfl, _, one⟩ := (matches_all_cons _ _).mp matched
  obtain ⟨_, _, _, _, rfl, rfl, _, two⟩ := (matches_all_cons _ _).mp one
  obtain ⟨_, _, _, _, rfl, rfl, _, three⟩ := (matches_all_cons _ _).mp two
  obtain ⟨_, _, _, _, rfl, rfl, _, four⟩ := (matches_all_cons _ _).mp three
  obtain ⟨_, _, ago, _, rfl, rfl, _, five⟩ := (matches_all_cons _ _).mp four
  obtain ⟨rfl, _⟩ := (matches_text "ago").mp five
  have letter : (103 : UInt8) ∈ utf8 "ago" := by decide
  rw [whole] at absent
  simp [letter] at absent

/-! ## White space around a date -/

/-- A text has no white space around it, and is not empty. -/
structure Tight (text : Text) : Prop where
  /-- The first byte. -/
  first : ∃ byte, text.head? = some byte ∧ isSpace byte = false
  /-- The last byte. -/
  last : ∃ byte, text.getLast? = some byte ∧ isSpace byte = false

/-- Nothing is removed around a tight text. -/
theorem Tight.trim {text : Text} (tight : Tight text) :
    trimExpression text = text ∧ text ≠ [] := by
  obtain ⟨byte, head, visible⟩ := tight.first
  obtain ⟨other, final, apart⟩ := tight.last
  have some_byte : text ≠ [] := by
    intro empty
    rw [empty] at head
    contradiction
  have front : text.dropWhile isSpace = text := by
    obtain ⟨one, rest, rfl⟩ := List.exists_cons_of_ne_nil some_byte
    obtain rfl := Option.some.inj head
    rw [List.dropWhile_cons, if_neg]
    simpa using visible
  have back : text.reverse.dropWhile isSpace = text.reverse := by
    rw [← List.head?_reverse] at final
    cases whole : text.reverse with
    | nil => rfl
    | cons one rest =>
      rw [whole] at final
      obtain rfl := Option.some.inj final
      rw [List.dropWhile_cons, if_neg]
      simpa using apart
  refine ⟨?_, some_byte⟩
  rw [trimExpression, front, trimEnd, back, List.reverse_reverse]

/-- Capitals and small letters are both no white space. -/
theorem Tight.of_lower {text : Text} (tight : Tight (text.map lower)) : Tight text := by
  have same : ∀ byte : UInt8, isSpace (lower byte) = isSpace byte := every_byte (by decide)
  obtain ⟨byte, head, visible⟩ := tight.first
  obtain ⟨other, final, apart⟩ := tight.last
  rw [List.head?_map, Option.map_eq_some_iff] at head
  rw [List.getLast?_map, Option.map_eq_some_iff] at final
  obtain ⟨one, there, rfl⟩ := head
  obtain ⟨two, ends, rfl⟩ := final
  exact ⟨⟨one, there, (same one).symm.trans visible⟩,
    ⟨two, ends, (same two).symm.trans apart⟩⟩

/-- A time counted back is tight. -/
theorem Lowered.tight {text blanks digits gap plural : Text} {name : String}
    (parts : Lowered text blanks digits gap name plural) : Tight text := by
  have ending : ∃ byte, (utf8 name ++ plural).getLast? = some byte ∧ isSpace byte = false := by
    have each : ∀ name ∈ unitNames, ∀ plural ∈ [utf8 "s", []],
        ((utf8 name ++ plural).getLast?.any fun byte => !isSpace byte) = true := by
      decide
    have there : plural ∈ [utf8 "s", []] := by
      cases parts.plural with
      | inl letter => simp [letter]
      | inr empty => simp [empty]
    have own := each name parts.unit plural there
    cases final : (utf8 name ++ plural).getLast? with
    | none =>
      rw [final] at own
      contradiction
    | some byte =>
      rw [final] at own
      exact ⟨byte, rfl, by simpa using own⟩
  obtain ⟨byte, final, apart⟩ := ending
  constructor
  · rw [parts.whole]
    exact ⟨108, rfl, by decide⟩
  · refine ⟨byte, ?_, apart⟩
    rw [parts.whole, List.getLast?_append, List.getLast?_append, List.getLast?_append,
      List.getLast?_append, final]
    rfl

/-- A date by its fields is tight. -/
theorem Iso.tight {date year month day : Text} (fields : Iso date year month day) : Tight date := by
  have some_year : year ≠ [] := by
    intro empty
    have size := fields.year.1
    rw [empty] at size
    contradiction
  have some_day : day ≠ [] := by
    intro empty
    have size := fields.day.1
    rw [empty] at size
    contradiction
  obtain ⟨first, rest, rfl⟩ := List.exists_cons_of_ne_nil some_year
  constructor
  · rw [fields.whole]
    exact ⟨first, rfl, digit_not_space (fields.year.2 first List.mem_cons_self)⟩
  · refine ⟨day.getLast some_day, ?_, digit_not_space (fields.day.2 _ (List.getLast_mem some_day))⟩
    rw [fields.whole, List.getLast?_append, List.getLast?_append, List.getLast?_append,
      List.getLast?_append, List.getLast?_eq_some_getLast some_day]
    rfl

/-- A word is tight. -/
theorem tight_word {date : Text}
    (word : date.map lower = utf8 "yesterday" ∨ date.map lower = utf8 "today") : Tight date := by
  apply Tight.of_lower
  cases word with
  | inl same =>
    rw [same]
    exact ⟨⟨121, rfl, by decide⟩, ⟨121, rfl, by decide⟩⟩
  | inr same =>
    rw [same]
    exact ⟨⟨116, rfl, by decide⟩, ⟨121, rfl, by decide⟩⟩

/-! ## Relative expressions -/

/-- A word is relative. -/
theorem relative_word {date : Text}
    (word : date.map lower = utf8 "yesterday" ∨ date.map lower = utf8 "today") :
    isRelativeExpression date = true := by
  have matched : relativePattern.Matches date [] := by
    apply (matches_oneOf _).mpr
    cases word with
    | inl same =>
      exact ⟨textNoCase "yesterday", by simp, (matches_textNoCase _).mpr ⟨same, rfl⟩⟩
    | inr same => exact ⟨textNoCase "today", by simp, (matches_textNoCase _).mpr ⟨same, rfl⟩⟩
  obtain ⟨found, hit, _⟩ := searchFrom_here 0 matched [] rfl rfl
  rw [List.append_nil] at hit
  rw [isRelativeExpression, search, hit]
  rfl

/-- Letters that are those of a unit in small are letters. -/
theorem word_unit {unit : Text} {name : String} (known : name ∈ unitNames)
    (named : unit.map lower = utf8 name) : unit ≠ [] ∧ ∀ byte ∈ unit, isWord byte = true := by
  have letters : ∀ name ∈ unitNames, utf8 name ≠ [] ∧ (utf8 name).all isLower = true := by decide
  have all : ∀ byte : UInt8, isLower (lower byte) = true → isWord byte = true :=
    every_byte (by decide)
  constructor
  · intro empty
    rw [empty] at named
    exact (letters name known).1 named.symm
  · intro byte inside
    have small : lower byte ∈ utf8 name := named ▸ List.mem_map_of_mem inside
    exact all byte (List.all_eq_true.mp (letters name known).2 _ small)

/-- A digit is a letter of a word. -/
theorem word_digit {byte : UInt8} (digit : isDigit byte = true) : isWord byte = true := by
  rw [isWord, digit, Bool.or_true, Bool.true_or]

/-- A time counted back is relative. -/
theorem relative_last {date word blanks digits gap unit plural : Text}
    (parts : Last date word blanks digits gap unit plural) : isRelativeExpression date = true := by
  obtain ⟨name, known, named⟩ := parts.unit
  obtain ⟨some_letter, letters⟩ := word_unit known named
  have begins : ∃ spaces own rest, date = word ++ (spaces ++ own) ++ rest ∧ spaces ≠ [] ∧
      (∀ byte ∈ spaces, isSpace byte = true) ∧ own ≠ [] ∧ ∀ byte ∈ own, isWord byte = true := by
    by_cases number : digits = []
    · refine ⟨blanks ++ gap, unit, plural, ?_, List.append_ne_nil_of_left_ne_nil parts.blanks.1 gap,
        ?_, some_letter, letters⟩
      · rw [parts.whole, number]
        simp
      · intro byte inside
        exact (List.mem_append.mp inside).elim (parts.blanks.2 byte) (parts.gap byte)
    · refine ⟨blanks, digits, gap ++ (unit ++ plural), ?_, parts.blanks.1, parts.blanks.2, number,
        fun byte inside => word_digit (parts.digits byte inside)⟩
      rw [parts.whole]
      simp
  obtain ⟨spaces, own, rest, whole, some_space, all_space, some_word, all_word⟩ := begins
  have matched : relativePattern.Matches (word ++ (spaces ++ own)) [] := by
    apply (matches_oneOf _).mpr
    refine ⟨all [textNoCase "last", more space, more (symbol isWord)], by simp, ?_⟩
    refine (matches_all_cons _ _).mpr ⟨word, [], _, [], rfl, rfl,
      (matches_textNoCase "last").mpr ⟨parts.word, rfl⟩, ?_⟩
    exact (matches_all_cons _ _).mpr ⟨spaces, [], own, [], rfl, rfl,
      (matches_more _).mpr ⟨some_space, all_space, rfl⟩,
      (matches_more _).mpr ⟨some_word, all_word, rfl⟩⟩
  obtain ⟨found, hit, _⟩ := searchFrom_here 0 matched rest rfl rfl
  rw [← whole] at hit
  rw [isRelativeExpression, search, hit]
  rfl

/-- The bytes of fields are digits and dashes. -/
theorem Iso.bytes {date year month day : Text} (fields : Iso date year month day) :
    ∀ byte ∈ date, isDigit byte = true ∨ byte = 45 := by
  have dash : ∀ byte ∈ utf8 "-", byte = 45 := forall_bytes (by decide)
  rw [fields.whole]
  simp only [List.mem_append]
  rintro byte (inside | inside | inside | inside | inside)
  · exact Or.inl (fields.year.2 byte inside)
  · exact Or.inr (dash byte inside)
  · exact Or.inl (fields.month.2 byte inside)
  · exact Or.inr (dash byte inside)
  · exact Or.inl (fields.day.2 byte inside)

/-- Digits and dashes are no white space and no letters. -/
theorem plain_byte {byte : UInt8} (plain : isDigit byte = true ∨ byte = 45) :
    isSpace byte = false ∧ isLower (lower byte) = false := by
  have all : ∀ byte : UInt8, isDigit byte = true ∨ byte = 45 →
      isSpace byte = false ∧ isLower (lower byte) = false := every_byte (by decide)
  exact all byte plain

/-- A date by its fields is not relative. -/
theorem relative_iso {date year month day : Text} (fields : Iso date year month day) :
    isRelativeExpression date = false := by
  have plain := fields.bytes
  have absent : searchFrom relativePattern 0 date = none := by
    apply searchFrom_eq_none rfl
    intro front part rest groups whole matched
    have inside : ∀ byte ∈ part, isSpace byte = false ∧ isLower (lower byte) = false := by
      intro byte there
      apply plain_byte
      apply plain byte
      rw [whole]
      exact List.mem_append_right front (List.mem_append_left rest there)
    -- Every alternative has a letter or white space.
    have no_letters : ∀ (own : Text) (letter : UInt8) (others : Text),
        own.map lower = letter :: others → isLower letter = true → ¬ ∀ byte ∈ own, byte ∈ part := by
      intro own letter others same small within
      cases own with
      | nil => contradiction
      | cons first more =>
        obtain ⟨rfl, _⟩ := List.cons.inj same
        have other := (inside first (within first List.mem_cons_self)).2
        rw [other] at small
        contradiction
    obtain ⟨pattern, listed, own⟩ := (matches_oneOf _).mp matched
    simp only [List.mem_cons, List.not_mem_nil, or_false] at listed
    rcases listed with rfl | rfl | rfl | rfl
    · exact no_letters part 121 _ ((matches_textNoCase _).mp own).1 (by decide) fun _ there => there
    · exact no_letters part 116 _ ((matches_textNoCase _).mp own).1 (by decide) fun _ there => there
    · obtain ⟨word, _, _, _, rfl, rfl, first, _⟩ := (matches_all_cons _ _).mp own
      exact no_letters word 108 _ ((matches_textNoCase "last").mp first).1 (by decide)
        fun _ there => List.mem_append_left _ there
    · obtain ⟨digits, _, _, _, rfl, rfl, _, one⟩ := (matches_all_cons _ _).mp own
      obtain ⟨blanks, _, _, _, rfl, rfl, second, _⟩ := (matches_all_cons _ _).mp one
      obtain ⟨some_blank, all_blank, _⟩ := (matches_more _).mp second
      obtain ⟨first, others, rfl⟩ := List.exists_cons_of_ne_nil some_blank
      have blank := all_blank first List.mem_cons_self
      have other := (inside first (by simp)).1
      rw [other] at blank
      contradiction
  rw [isRelativeExpression, search, absent]
  rfl

/-! ## Resolution of the forms -/

/-- The largest number of a unit: an `int` for the count, and for years 64 bits for the time. -/
def mostUnits (unit : Text) : Nat :=
  if unit.map lower = utf8 "year" then 292471208 else 2147483647

/-- The number of a unit of this name fits. -/
theorem fits_iff {digits unit : Text} {name : String} (known : name ∈ unitNames)
    (named : unit.map lower = utf8 name) :
    Decimal.value digits ≤ mostUnits unit ↔
      ∃ count offset, stoiDigits digits = .ok count ∧ offsetMs count (utf8 name) = .ok offset := by
  have days : name = "year" ∧ unitDays (utf8 name) = 365 ∧ mostUnits unit = 292471208 ∨
      0 ≤ unitDays (utf8 name) ∧ unitDays (utf8 name) ≤ 30 ∧ mostUnits unit = 2147483647 := by
    have each : ∀ name ∈ unitNames, name = "year" ∧ unitDays (utf8 name) = 365 ∨
        utf8 name ≠ utf8 "year" ∧ 0 ≤ unitDays (utf8 name) ∧ unitDays (utf8 name) ≤ 30 := by
      decide
    unfold mostUnits
    rw [named]
    rcases each name known with ⟨rfl, days⟩ | ⟨other, low, high⟩
    · left
      exact ⟨rfl, days, if_pos rfl⟩
    · right
      exact ⟨low, high, if_neg other⟩
  unfold stoiDigits offsetMs
  rcases days with ⟨_, days, most⟩ | ⟨low, high, most⟩
  · rw [days, most]
    constructor
    · intro small
      exact ⟨Decimal.value digits, _, if_pos (by omega), if_pos (by omega)⟩
    · rintro ⟨count, offset, read, scaled⟩
      split at read
      · obtain rfl := Except.ok.inj read
        split at scaled
        · omega
        · contradiction
      · contradiction
  · rw [most]
    constructor
    · intro small
      have product : (Decimal.value digits : Int) * unitDays (utf8 name) ≤ 2147483647 * 30 := by
        apply Int.mul_le_mul (by omega) high low (by omega)
      exact ⟨Decimal.value digits, _, if_pos small, if_pos (by omega)⟩
    · rintro ⟨count, offset, read, _⟩
      split at read
      · assumption
      · contradiction

/-- A number of units is no time before now. -/
theorem offset_nonneg {count offset : Int} {unit : Text} (positive : 0 ≤ count)
    (scaled : offsetMs count unit = .ok offset) : 0 ≤ offset := by
  have days : 0 ≤ unitDays unit := by
    unfold unitDays
    split_ifs <;> omega
  unfold offsetMs at scaled
  split at scaled
  · obtain rfl := Except.ok.inj scaled
    have product := Int.mul_nonneg positive days
    omega
  · contradiction

/-- A number that was read is not negative. -/
theorem stoi_nonneg {digits : Text} {count : Int} (read : stoiDigits digits = .ok count) :
    0 ≤ count := by
  unfold stoiDigits at read
  split at read
  · obtain rfl := Except.ok.inj read
    omega
  · contradiction

variable (formatIsoDate : Int → Text)

/-- A relative expression without white space around it is read as one. -/
theorem resolve_relative {date : Text} (tight : Tight date)
    (relative : isRelativeExpression date = true) (context : Int) :
    resolve formatIsoDate date context = parseRelative formatIsoDate date context := by
  unfold resolve
  simp only [tight.trim.1]
  rw [if_neg tight.trim.2, if_pos relative]

/-- An annotation is resolved, and not to a time after the context when it is relative. -/
def Resolves (date : Text) (context : Int) : Prop :=
  ∃ resolved, resolve formatIsoDate date context = .ok (some resolved) ∧
    (isRelativeExpression date = true → resolved.timestampMs ≤ context)

/-- A word is resolved. -/
theorem resolves_word {date : Text}
    (word : date.map lower = utf8 "yesterday" ∨ date.map lower = utf8 "today") (context : Int) :
    Resolves formatIsoDate date context := by
  have relative := resolve_relative formatIsoDate (tight_word word) (relative_word word) context
  unfold parseRelative at relative
  cases word with
  | inl same =>
    simp only [same, if_true] at relative
    exact ⟨_, relative, fun _ => by simp⟩
  | inr same =>
    have other : ¬ utf8 "today" = utf8 "yesterday" := by decide
    simp only [same, if_neg other, if_true] at relative
    exact ⟨_, relative, fun _ => le_refl context⟩

/-- A time counted back is no word. -/
theorem Lowered.not_word {text blanks digits gap plural : Text} {name : String}
    (parts : Lowered text blanks digits gap name plural) :
    text ≠ utf8 "yesterday" ∧ text ≠ utf8 "today" := by
  have first : text.head? = some 108 := by
    rw [parts.whole]
    rfl
  constructor
  · intro same
    rw [same] at first
    contradiction
  · intro same
    rw [same] at first
    contradiction

/-- A number with a gap behind it is resolved exactly when it fits; otherwise it throws. -/
theorem resolve_lastN {date word blanks digits gap unit plural : Text}
    (parts : Last date word blanks digits gap unit plural) (someDigit : digits ≠ [])
    (someGap : gap ≠ []) (context : Int) :
    (Decimal.value digits ≤ mostUnits unit → Resolves formatIsoDate date context) ∧
      (mostUnits unit < Decimal.value digits →
        ∃ thrown, resolve formatIsoDate date context = .error thrown) := by
  obtain ⟨name, named, lowered⟩ := parts.lowered
  have relative := resolve_relative formatIsoDate (Tight.of_lower lowered.tight)
    (relative_last parts) context
  have fits : Decimal.value digits ≤ mostUnits unit ↔ _ := fits_iff lowered.unit named
  obtain ⟨found, hit, count, unitRead⟩ := search_lastN lowered someDigit someGap
  unfold parseRelative at relative
  simp only [if_neg lowered.not_word.1, if_neg lowered.not_word.2, hit, count, unitRead] at relative
  constructor
  · intro small
    obtain ⟨number, offset, read, scaled⟩ := fits.mp small
    simp only [read, scaled, bind, Except.bind, pure, Except.pure] at relative
    have back := offset_nonneg (stoi_nonneg read) scaled
    exact ⟨_, relative, fun _ => by show context - offset ≤ context; omega⟩
  · intro large
    cases read : stoiDigits digits with
    | error thrown =>
      simp only [read, bind, Except.bind] at relative
      exact ⟨thrown, relative⟩
    | ok number =>
      cases scaled : offsetMs number (utf8 name) with
      | error thrown =>
        simp only [read, scaled, bind, Except.bind] at relative
        exact ⟨thrown, relative⟩
      | ok offset =>
        have small := fits.mpr ⟨number, offset, read, scaled⟩
        omega

/-- A time counted back without a gap behind a number, or without a number, is no reason to
throw. -/
theorem resolve_unit {date word blanks digits gap unit plural : Text}
    (parts : Last date word blanks digits gap unit plural) (missing : digits = [] ∨ gap = [])
    (context : Int) :
    (digits = [] ∧ unit.map lower ≠ utf8 "day" → Resolves formatIsoDate date context) ∧
      (digits ≠ [] ∨ unit.map lower = utf8 "day" →
        resolve formatIsoDate date context = .ok none) := by
  obtain ⟨name, named, lowered⟩ := parts.lowered
  have relative := resolve_relative formatIsoDate (Tight.of_lower lowered.tight)
    (relative_last parts) context
  unfold parseRelative at relative
  simp only [if_neg lowered.not_word.1, if_neg lowered.not_word.2,
    search_lastN_none lowered missing] at relative
  constructor
  · rintro ⟨rfl, longer⟩
    have other : name ≠ "day" := by
      intro same
      rw [same] at named
      exact longer named
    obtain ⟨found, hit, unitRead⟩ := search_lastUnit lowered other
    obtain ⟨offset, scaled⟩ : ∃ offset, offsetMs 1 (utf8 name) = .ok offset := by
      have each :
          ∀ name ∈ unitNames, 1 * unitDays (utf8 name) * 86400000 ≤ 9223372036854775807 := by
        decide
      exact ⟨_, if_pos (each name lowered.unit)⟩
    simp only [hit, unitRead, scaled, bind, Except.bind, pure, Except.pure] at relative
    have back := offset_nonneg (by omega) scaled
    exact ⟨_, relative, fun _ => by show context - offset ≤ context; omega⟩
  · intro other
    have day : digits ≠ [] ∨ name = "day" := by
      cases other with
      | inl number => exact Or.inl number
      | inr day =>
        right
        have each : ∀ name ∈ unitNames, utf8 name = utf8 "day" → name = "day" := by decide
        exact each name lowered.unit (named.symm.trans day)
    simp only [search_lastUnit_none lowered day, search_ago_none lowered] at relative
    exact relative

/-- The fields of a date. -/
theorem Iso.fields {date year month day : Text} (fields : Iso date year month day) :
    date.take 4 = year ∧ (date.drop 5).take 2 = month ∧ (date.drop 8).take 2 = day ∧
      date.length = 10 := by
  have dash : utf8 "-" = [45] := rfl
  obtain ⟨whole, ⟨yearSize, _⟩, ⟨monthSize, _⟩, ⟨daySize, _⟩⟩ := fields
  rw [whole, dash]
  match year, yearSize, month, monthSize, day, daySize with
  | [_, _, _, _], _, [_, _], _, [_, _], _ => exact ⟨rfl, rfl, rfl, rfl⟩

/-- The year is too long for a day in front. -/
theorem Iso.not_dmy {date year month day : Text} (fields : Iso date year month day)
    (groups : List (Nat × Text)) : ¬ dmyPattern.Matches date groups := by
  intro matched
  obtain ⟨first, _, _, _, whole, rfl, ⟨_, number, rfl⟩, behind⟩ := (matches_all_cons _ _).mp matched
  obtain ⟨_, _, others, _, rfl, rfl, ⟨⟨sign, rfl, dash⟩, _⟩, _⟩ := (matches_all_cons _ _).mp behind
  obtain ⟨_, _, _, _, rfl, _, ⟨⟨one, rfl, _⟩, _⟩, second⟩ := number
  have digits : ∀ byte ∈ year, (byte == 45 || byte == 47) = false := by
    have all : ∀ byte : UInt8, isDigit byte = true → (byte == 45 || byte == 47) = false :=
      every_byte (by decide)
    exact fun byte inside => all byte (fields.year.2 byte inside)
  have inside : sign ∈ year := by
    have begins := fields.fields.1
    rw [whole] at begins
    rw [← begins]
    cases second with
    | inl other =>
      obtain ⟨⟨two, rfl, _⟩, _⟩ := other
      simp
    | inr empty =>
      obtain ⟨rfl, _⟩ := empty
      simp
  exact Bool.noConfusion (dash.symm.trans (digits sign inside))

/-- No white space stands between the fields. -/
theorem Iso.not_mdy {date year month day : Text} (fields : Iso date year month day)
    (groups : List (Nat × Text)) : ¬ mdyPattern.Matches date groups := by
  intro matched
  obtain ⟨_, _, _, _, whole, rfl, _, behind⟩ := (matches_all_cons _ _).mp matched
  obtain ⟨blanks, _, _, _, rfl, rfl, spaces, _⟩ := (matches_all_cons _ _).mp behind
  obtain ⟨some_blank, all_blank, _⟩ := (matches_more _).mp spaces
  obtain ⟨first, others, rfl⟩ := List.exists_cons_of_ne_nil some_blank
  have blank := all_blank first List.mem_cons_self
  have plain := fields.bytes first (by rw [whole]; simp)
  rw [(plain_byte plain).1] at blank
  contradiction

/-- A date by its fields has no other form. -/
theorem parseToTm_iso {date year month day : Text} (fields : Iso date year month day) :
    parseToTm date = getTime date := by
  have iso : (fullMatch isoPattern date).isSome = true :=
    fullMatch_isSome (matches_iso.mpr ⟨⟨year, month, day, fields⟩, rfl⟩) rfl
  have dmy : fullMatch dmyPattern date = none := by
    cases found : fullMatch dmyPattern date with
    | none => rfl
    | some groups => exact absurd (fullMatch_matches found rfl) (fields.not_dmy groups)
  have mdy : fullMatch mdyPattern date = none := by
    cases found : fullMatch mdyPattern date with
    | none => rfl
    | some groups => exact absurd (fullMatch_matches found rfl) (fields.not_mdy groups)
  have plain : ¬ (date.length = 8 ∧ date.all isDigit = true) := by
    rw [fields.fields.2.2.2]
    omega
  unfold parseToTm
  simp only [iso, if_true, dmy, mdy, if_neg plain, Option.bind_none, Option.or_none]

/-- A date by its fields is resolved when the month and the day exist, and nothing is thrown. -/
theorem resolve_iso {date year month day : Text} (fields : Iso date year month day)
    (context : Int) :
    (1 ≤ Decimal.value month ∧ Decimal.value month ≤ 12 ∧ 1 ≤ Decimal.value day ∧
        Decimal.value day ≤ 31 → Resolves formatIsoDate date context) ∧
      (¬ (1 ≤ Decimal.value month ∧ Decimal.value month ≤ 12 ∧ 1 ≤ Decimal.value day ∧
        Decimal.value day ≤ 31) → resolve formatIsoDate date context = .ok none) := by
  have absolute := relative_iso fields
  have whole : resolve formatIsoDate date context = .ok ((parseToTm date).map fun tm =>
      ⟨tmToMs tm, formatIsoDate (tmToMs tm), false, none⟩) := by
    unfold resolve
    simp only [fields.tight.trim.1]
    rw [if_neg fields.tight.trim.2, if_neg (by simp [absolute])]
  rw [parseToTm_iso fields, getTime] at whole
  simp only [fields.fields.1, fields.fields.2.1, fields.fields.2.2.1] at whole
  constructor
  · intro inRange
    rw [if_pos inRange] at whole
    refine ⟨_, whole, fun relative => ?_⟩
    rw [absolute] at relative
    contradiction
  · intro outside
    rw [if_neg outside] at whole
    exact whole

/-! ## Annotations -/

/-- A number with a gap behind it fits. -/
def Countable (date : Text) : Prop :=
  ∀ word blanks digits gap unit plural, Last date word blanks digits gap unit plural →
    digits ≠ [] → gap ≠ [] → Decimal.value digits ≤ mostUnits unit

/-- What is resolved. -/
inductive Resolvable (date : Text) : Prop where
  /-- A month from 1 to 12, a day from 1 to 31. -/
  | iso {year month day : Text} (fields : Iso date year month day)
    (inRange : 1 ≤ Decimal.value month ∧ Decimal.value month ≤ 12 ∧ 1 ≤ Decimal.value day ∧
      Decimal.value day ≤ 31)
  /-- Yesterday and today. -/
  | word (word : date.map lower = utf8 "yesterday" ∨ date.map lower = utf8 "today")
  /-- A unit other than the day without a number. -/
  | unit {word blanks gap unit plural : Text} (parts : Last date word blanks [] gap unit plural)
    (longer : unit.map lower ≠ utf8 "day")
  /-- A number that fits, with a gap behind it. -/
  | last {word blanks digits gap unit plural : Text}
    (parts : Last date word blanks digits gap unit plural) (number : digits ≠ [])
    (separate : gap ≠ []) (fits : Decimal.value digits ≤ mostUnits unit)

/-- An accepted date is resolved exactly when it is one of the resolvable ones. -/
theorem resolves_iff {date : Text} (accepted : Accepted date) (context : Int) :
    Resolves formatIsoDate date context ↔ Resolvable date := by
  constructor
  · rintro ⟨resolved, whole, _⟩
    cases accepted with
    | @iso year month day fields =>
      by_cases inRange : 1 ≤ Decimal.value month ∧ Decimal.value month ≤ 12 ∧
          1 ≤ Decimal.value day ∧ Decimal.value day ≤ 31
      · exact .iso fields inRange
      · have none_there := (resolve_iso formatIsoDate fields context).2 inRange
        rw [whole] at none_there
        cases none_there
    | word word => exact .word word
    | @last word blanks digits gap unit plural parts =>
      by_cases missing : digits = [] ∨ gap = []
      · have alone := resolve_unit formatIsoDate parts missing context
        by_cases longer : digits = [] ∧ unit.map lower ≠ utf8 "day"
        · obtain ⟨rfl, longer⟩ := longer
          exact .unit parts longer
        · have none_there := alone.2 (by tauto)
          rw [whole] at none_there
          cases none_there
      · push Not at missing
        have counted := resolve_lastN formatIsoDate parts missing.1 missing.2 context
        by_cases small : Decimal.value digits ≤ mostUnits unit
        · exact .last parts missing.1 missing.2 small
        · obtain ⟨thrown, raised⟩ := counted.2 (by omega)
          rw [whole] at raised
          cases raised
  · intro resolvable
    cases resolvable with
    | iso fields inRange => exact (resolve_iso formatIsoDate fields context).1 inRange
    | word word => exact resolves_word formatIsoDate word context
    | unit parts longer =>
      exact (resolve_unit formatIsoDate parts (Or.inl rfl) context).1 ⟨rfl, longer⟩
    | last parts number separate fits =>
      exact (resolve_lastN formatIsoDate parts number separate context).1 fits

/-- An accepted date throws exactly when a number does not fit. -/
theorem resolve_returns_iff {date : Text} (accepted : Accepted date) (context : Int) :
    Returns (resolve formatIsoDate date context) ↔ Countable date := by
  constructor
  · rintro ⟨resolved, whole⟩ word blanks digits gap unit plural parts number separate
    by_contra large
    have counted := resolve_lastN formatIsoDate parts number separate context
    obtain ⟨thrown, raised⟩ := counted.2 (by omega)
    rw [whole] at raised
    cases raised
  · intro countable
    have of_resolves : Resolves formatIsoDate date context →
        Returns (resolve formatIsoDate date context) := by
      rintro ⟨resolved, whole, _⟩
      exact ⟨some resolved, whole⟩
    cases accepted with
    | @iso year month day fields =>
      by_cases inRange : 1 ≤ Decimal.value month ∧ Decimal.value month ≤ 12 ∧
          1 ≤ Decimal.value day ∧ Decimal.value day ≤ 31
      · exact of_resolves ((resolve_iso formatIsoDate fields context).1 inRange)
      · exact ⟨none, (resolve_iso formatIsoDate fields context).2 inRange⟩
    | word word => exact of_resolves (resolves_word formatIsoDate word context)
    | @last word blanks digits gap unit plural parts =>
      by_cases missing : digits = [] ∨ gap = []
      · have alone := resolve_unit formatIsoDate parts missing context
        by_cases longer : digits = [] ∧ unit.map lower ≠ utf8 "day"
        · exact of_resolves (alone.1 longer)
        · exact ⟨none, alone.2 (by tauto)⟩
      · push Not at missing
        have small := countable _ _ _ _ _ _ parts missing.1 missing.2
        have counted := resolve_lastN formatIsoDate parts missing.1 missing.2 context
        exact of_resolves (counted.1 small)

/-! ## Triplets -/

/-- The triplet of a `[TRIPLET]` line has its date from its object. -/
theorem lineTriplet_dated {groups : List (Nat × Text)} {triplet : Triplet}
    (made : lineTriplet groups = some triplet) :
    ∃ object, triplet.dateAnnotation = (extractDateFromObject object).2 := by
  unfold lineTriplet at made
  refine ⟨trimEnd (stripAnnotations (groupText groups 3)), ?_⟩
  generalize extractDateFromObject (trimEnd (stripAnnotations (groupText groups 3))) = split at made
  dsimp only at made
  split_ifs at made
  rw [← Option.some.inj made]

/-- The triplets of a text have their dates from their objects. -/
theorem parse_dated {stof : Text → Option Rat} {output : Text} {triplet : Triplet}
    (inside : triplet ∈ (parse stof output).triplets) :
    ∃ object, triplet.dateAnnotation = (extractDateFromObject object).2 := by
  rcases made_parse inside with ⟨type, line, there⟩ | ⟨groups, made⟩
  · obtain ⟨subject, object, rfl, _⟩ := triplet_of_line there
    exact ⟨object, rfl⟩
  · exact lineTriplet_dated made

/-- A triplet is dated without an exception when a number in its annotation fits. -/
theorem returns_dateTriplet {context : Int} (positive : 0 < context) {triplet : Triplet}
    {object : Text} (dated : triplet.dateAnnotation = (extractDateFromObject object).2) :
    Returns (dateTriplet formatIsoDate context triplet) ↔ Countable triplet.dateAnnotation := by
  unfold dateTriplet
  by_cases annotated : triplet.dateAnnotation = []
  · rw [if_neg (by simp [annotated])]
    constructor
    · intro _ word blanks digits gap unit plural parts
      rw [annotated] at parts
      have first := congrArg List.length parts.whole
      obtain ⟨some_blank, _⟩ := parts.blanks
      have size := List.length_pos_iff.mpr some_blank
      simp at first
      omega
    · exact fun _ => returns_ok _
  · rw [if_pos ⟨positive, annotated⟩, returns_bind]
    have accepted : Accepted triplet.dateAnnotation := by
      rw [dated] at annotated ⊢
      exact accepted_extract annotated
    rw [← resolve_returns_iff formatIsoDate accepted context]
    constructor
    · rintro ⟨resolved, here, _⟩
      exact ⟨resolved, here⟩
    · rintro ⟨resolved, here⟩
      exact ⟨resolved, here, returns_ok _⟩

/-- The learnings of a text are dated without an exception exactly when every number with a gap
behind it fits; an accepted date is resolved, the relative ones not later than the context, exactly
when it is one of the resolvable ones. -/
theorem dates_resolve_iff (context : Int) (positive : 0 < context) :
    (∀ stof output, Returns (parseWithContext formatIsoDate stof output context) ↔
      ∀ triplet ∈ (parse stof output).triplets, Countable triplet.dateAnnotation) ∧
    ∀ object, (extractDateFromObject object).2 ≠ [] →
      ((∃ resolved, resolve formatIsoDate (extractDateFromObject object).2 context =
          .ok (some resolved) ∧
        (isRelativeExpression (extractDateFromObject object).2 = true →
          resolved.timestampMs ≤ context)) ↔
        Resolvable (extractDateFromObject object).2) := by
  constructor
  · intro stof output
    have each : ∀ triplet ∈ (parse stof output).triplets,
        Returns (dateTriplet formatIsoDate context triplet) ↔
          Countable triplet.dateAnnotation := by
      intro triplet inside
      obtain ⟨object, dated⟩ := parse_dated inside
      exact returns_dateTriplet formatIsoDate positive dated
    rw [← returns_mapM each, parseWithContext, returns_bind]
    constructor
    · rintro ⟨triplets, here, _⟩
      exact ⟨triplets, here⟩
    · rintro ⟨triplets, here⟩
      exact ⟨triplets, here, returns_ok _⟩
  · intro object dated
    exact resolves_iff formatIsoDate (accepted_extract dated) context

/-- A triplet of yesterday is dated a day before the context, and numbers are not at issue. -/
theorem dates_resolve_yesterday :
    (parse (fun _ => none) (utf8 "[TRIPLET] a met b @yesterday")).triplets.map
        (fun triplet => triplet.dateAnnotation) = [utf8 "yesterday"] ∧
      (∀ triplet ∈ (parse (fun _ => none) (utf8 "[TRIPLET] a met b @yesterday")).triplets,
        Countable triplet.dateAnnotation) ∧
      ∃ resolved, resolve (fun _ => []) (utf8 "yesterday") 86400000 = .ok (some resolved) ∧
        (isRelativeExpression (utf8 "yesterday") = true → resolved.timestampMs ≤ 86400000) := by
  have both := dates_resolve_iff (fun _ => []) 86400000 (by decide)
  have dated : (extractDateFromObject (utf8 "b @yesterday")).2 = utf8 "yesterday" := by
    decide
  have resolvable := (both.2 (utf8 "b @yesterday") (by rw [dated]; decide)).mpr
    (.word (.inl (by rw [dated]; rfl)))
  rw [dated] at resolvable
  have returned : Returns (parseWithContext (fun _ => []) (fun _ => none)
      (utf8 "[TRIPLET] a met b @yesterday") 86400000) := ⟨_, rfl⟩
  exact ⟨by decide, (both.1 _ _).mp returned, resolvable⟩

/-- A number that no `int` holds throws, and the last day and a number without a gap behind it are
accepted and not resolved. -/
theorem accepted_unresolved :
    (parseWithContext (fun _ => []) (fun _ => none)
        (utf8 "[TRIPLET] a b c @last 2147483648 days") 1 = .error (.outOfRange "stoi")) ∧
      ((extractDateFromObject (utf8 "c @last day")).2 = utf8 "last day" ∧
        resolve (fun _ => []) (utf8 "last day") 1 = .ok none) ∧
      ((extractDateFromObject (utf8 "c @last 3weeks")).2 = utf8 "last 3weeks" ∧
        resolve (fun _ => []) (utf8 "last 3weeks") 1 = .ok none) ∧
      (extractDateFromObject (utf8 "c @2024-13-01")).2 = utf8 "2024-13-01" ∧
        resolve (fun _ => []) (utf8 "2024-13-01") 1 = .ok none := by
  refine ⟨rfl, ⟨?_, rfl⟩, ⟨?_, rfl⟩, ?_, rfl⟩ <;> decide

end Chitta.Ssl
