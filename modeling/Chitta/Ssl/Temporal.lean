import Chitta.Decimal
import Chitta.Json
import Chitta.Ssl.Parser

/-!
# Dates of facts

`TemporalResolver` turns the date expression of a triplet into a time. Relative expressions are
counted back from a context date, absolute ones are read by their fields. Times are in milliseconds
since 1970; the text of a date is a parameter.
-/
namespace Chitta.Ssl

open Bytes Regex Regex.Pattern

/-! ## Calendar -/

/-- The fields of `std::tm` that a date fills: the year, the month from 0 and the day from 1. -/
structure Tm where
  /-- `tm_year + 1900`. -/
  year : Int
  /-- `tm_mon`. -/
  month : Int
  /-- `tm_mday`. -/
  day : Int

/-- The days of the years before a year. -/
def daysBefore (year : Int) : Int :=
  365 * (year - 1) + (year - 1) / 4 - (year - 1) / 100 + (year - 1) / 400

/-- A year has a 29th of February. -/
def isLeap (year : Int) : Bool := year % 4 = 0 ∧ (year % 100 ≠ 0 ∨ year % 400 = 0)

/-- The days of the months before a month. -/
def daysBeforeMonth (year month : Int) : Int :=
  ([0, 31, 59, 90, 120, 151, 181, 212, 243, 273, 304, 334].getD month.toNat 0) +
    (if isLeap year ∧ 2 ≤ month then 1 else 0)

/-- `tm_to_ms`: `timegm` brings months and days into their ranges. -/
def tmToMs (tm : Tm) : Int :=
  let year := tm.year + tm.month / 12
  (daysBefore year - daysBefore 1970 + daysBeforeMonth year (tm.month % 12) + (tm.day - 1)) *
    86400000

/-- `months`. -/
def months : List (String × Int) :=
  [("january", 0), ("jan", 0), ("february", 1), ("feb", 1), ("march", 2), ("mar", 2), ("april", 3),
    ("apr", 3), ("may", 4), ("june", 5), ("jun", 5), ("july", 6), ("jul", 6), ("august", 7),
    ("aug", 7), ("september", 8), ("sep", 8), ("october", 9), ("oct", 9), ("november", 10),
    ("nov", 10), ("december", 11), ("dec", 11)]

/-- `month_name_to_index`, none for -1. -/
def monthNameToIndex (month : Text) : Option Int :=
  (months.find? fun entry => decide (utf8 entry.1 = month.map lower)).map (·.2)

/-! ## Patterns -/

/-- The units of time. -/
def unitNames : List String := ["day", "week", "month", "year"]

/-- `relative_pattern`. -/
def relativePattern : Pattern UInt8 :=
  oneOf [textNoCase "yesterday", textNoCase "today",
    all [textNoCase "last", more space, more (symbol isWord)],
    all [more digit, more space, oneOf (unitNames.map textNoCase), maybe (textNoCase "s"),
      more space, textNoCase "ago"]]

/-- `last_n_pattern`. -/
def lastNPattern : Pattern UInt8 :=
  all [text "last", more space, group 1 (more digit), more space,
    group 2 (oneOf (unitNames.map text)), maybe (text "s")]

/-- `last_unit_pattern`. -/
def lastUnitPattern : Pattern UInt8 :=
  all [text "last", more space, group 1 (oneOf (["week", "month", "year"].map text))]

/-- `ago_pattern`. -/
def agoPattern : Pattern UInt8 :=
  all [group 1 (more digit), more space, group 2 (oneOf (unitNames.map text)), maybe (text "s"),
    more space, text "ago"]

/-- `\d{4}-\d{2}-\d{2}`. -/
def isoPattern : Pattern UInt8 :=
  all [times 4 digit, text "-", times 2 digit, text "-", times 2 digit]

/-- A dash or a slash. -/
def dashOrSlash : Pattern UInt8 := symbol fun byte => byte == 45 || byte == 47

/-- `\d{1,2}`. -/
def oneOrTwoDigits : Pattern UInt8 := seq digit (maybe digit)

/-- `dmy_pattern`. -/
def dmyPattern : Pattern UInt8 :=
  all [group 1 oneOrTwoDigits, dashOrSlash, group 2 (more (symbol isWord)), dashOrSlash,
    group 3 (times 4 digit)]

/-- `mdy_pattern`. -/
def mdyPattern : Pattern UInt8 :=
  all [group 1 (more (symbol isWord)), more space, group 2 oneOrTwoDigits, maybe (text ","),
    many space, group 3 (times 4 digit)]

/-! ## Absolute dates -/

/-- `std::get_time` with `%Y-%m-%d` on a text of this form: the month and the day have ranges. -/
def getTime (date : Text) : Option Tm :=
  let month := Decimal.value ((date.drop 5).take 2)
  let day := Decimal.value ((date.drop 8).take 2)
  if 1 ≤ month ∧ month ≤ 12 ∧ 1 ≤ day ∧ day ≤ 31 then
    some ⟨Decimal.value (date.take 4), month - 1, day⟩
  else none

/-- The date of a day, a month's name and a year. -/
def namedDate (day month year : Text) : Option Tm :=
  (monthNameToIndex month).map fun index => ⟨Decimal.value year, index, Decimal.value day⟩

/-- `parse_to_tm`. -/
def parseToTm (date : Text) : Option Tm :=
  let iso := if (fullMatch isoPattern date).isSome then getTime date else none
  let dmy := (fullMatch dmyPattern date).bind fun groups =>
    namedDate (groupText groups 1) (groupText groups 2) (groupText groups 3)
  let mdy := (fullMatch mdyPattern date).bind fun groups =>
    namedDate (groupText groups 2) (groupText groups 1) (groupText groups 3)
  let plain := if date.length = 8 ∧ date.all isDigit then
      some (⟨Decimal.value (date.take 4), (Decimal.value ((date.drop 4).take 2) : Int) - 1,
        Decimal.value (date.drop 6)⟩ : Tm)
    else none
  ((iso.or dmy).or mdy).or plain

/-! ## Resolution -/

/-- `ResolvedDate`. -/
structure ResolvedDate where
  /-- The time. -/
  timestampMs : Int
  /-- The day as a text. -/
  dateStr : Text
  /-- The time stands for a range. -/
  isApproximate : Bool
  /-- The end of the range. -/
  rangeEndMs : Option Int

/-- `std::stoi` of digits. -/
def stoiDigits (digits : Text) : Except Thrown Int :=
  if Decimal.value digits ≤ 2147483647 then .ok (Decimal.value digits)
  else .error (.outOfRange "stoi")

/-- The days of a unit. -/
def unitDays (unit : Text) : Int :=
  if unit = utf8 "day" then 1
  else if unit = utf8 "week" then 7
  else if unit = utf8 "month" then 30
  else if unit = utf8 "year" then 365
  else 0

/-- `offset_ms`: a product that 64 bits do not hold is not defined. -/
def offsetMs (count : Int) (unit : Text) : Except Thrown Int :=
  if count * unitDays unit * 86400000 ≤ 9223372036854775807 then
    .ok (count * unitDays unit * 86400000)
  else .error .undefined

/-- `is_relative_expression`. -/
def isRelativeExpression (expr : Text) : Bool := (search relativePattern expr).isSome

variable (formatIsoDate : Int → Text)

/-- `parse_relative`. -/
def parseRelative (expr : Text) (contextDateMs : Int) : Except Thrown (Option ResolvedDate) :=
  let resolved (timestamp : Int) (approximate : Bool) (rangeEnd : Option Int) : ResolvedDate :=
    ⟨timestamp, formatIsoDate timestamp, approximate, rangeEnd⟩
  let lowered := expr.map lower
  if lowered = utf8 "yesterday" then
    .ok (some (resolved (contextDateMs - 86400000) true none))
  else if lowered = utf8 "today" then .ok (some (resolved contextDateMs false none))
  else
    match search lastNPattern lowered with
    | some found => do
      let count ← stoiDigits (groupText found.groups 1)
      let offset ← offsetMs count (groupText found.groups 2)
      return some (resolved (contextDateMs - offset) true (some contextDateMs))
    | none =>
      match search lastUnitPattern lowered with
      | some found => do
        let offset ← offsetMs 1 (groupText found.groups 1)
        return some (resolved (contextDateMs - offset) true (some contextDateMs))
      | none =>
        match search agoPattern lowered with
        | some found => do
          let count ← stoiDigits (groupText found.groups 1)
          let offset ← offsetMs count (groupText found.groups 2)
          return some (resolved (contextDateMs - offset) true none)
        | none => .ok none

/-- The expression without white space around it. -/
def trimExpression (expression : Text) : Text := trimEnd (expression.dropWhile isSpace)

/-- `TemporalResolver::resolve`. -/
def resolve (expression : Text) (contextDateMs : Int) : Except Thrown (Option ResolvedDate) :=
  let expr := trimExpression expression
  if expr = [] then .ok none
  else if isRelativeExpression expr then parseRelative formatIsoDate expr contextDateMs
  else
    .ok ((parseToTm expr).map fun tm => ⟨tmToMs tm, formatIsoDate (tmToMs tm), false, none⟩)

/-- A triplet with the time from which it holds. -/
structure DatedTriplet where
  /-- The triplet. -/
  triplet : Triplet
  /-- `valid_from_ms`; 0 when it is not resolved. -/
  validFromMs : Int

/-- The time of a triplet. -/
def dateTriplet (contextDateMs : Int) (triplet : Triplet) : Except Thrown DatedTriplet :=
  if 0 < contextDateMs ∧ triplet.dateAnnotation ≠ [] then do
    let resolved ← resolve formatIsoDate triplet.dateAnnotation contextDateMs
    return ⟨triplet, (resolved.map (·.timestampMs)).getD 0⟩
  else .ok ⟨triplet, 0⟩

/-- `parse_with_context`: the learnings and the dated triplets. -/
def parseWithContext (stof : Text → Option Rat) (output : Text) (contextDateMs : Int) :
    Except Thrown (List Learning × List DatedTriplet) := do
  let triplets ← (parse stof output).triplets.mapM (dateTriplet formatIsoDate contextDateMs)
  return ((parse stof output).learnings, triplets)

end Chitta.Ssl
