import Chitta.Regex.Language

/-!
# Texts of bytes

Texts as C programs have them, with the character classes of the C locale, the searches and
replacements of the standard library, and patterns over bytes.
-/
namespace Chitta.Bytes

open Regex Regex.Pattern

/-- A text. -/
abbrev Text := List UInt8

/-- The bytes of a text. -/
def utf8 (text : String) : Text := text.toUTF8.data.toList

/-- A line break. -/
def newline : UInt8 := 10

/-! ## Bytes and texts -/

/-- `std::isspace` and `\s`. -/
def isSpace (byte : UInt8) : Bool := (9 ≤ byte && byte ≤ 13) || byte == 32

/-- `\d`. -/
def isDigit (byte : UInt8) : Bool := 48 ≤ byte && byte ≤ 57

/-- A capital letter. -/
def isUpper (byte : UInt8) : Bool := 65 ≤ byte && byte ≤ 90

/-- A small letter. -/
def isLower (byte : UInt8) : Bool := 97 ≤ byte && byte ≤ 122

/-- `\w`. -/
def isWord (byte : UInt8) : Bool := isUpper byte || isLower byte || isDigit byte || byte == 95

/-- The letter in small. -/
def lower (byte : UInt8) : UInt8 := if isUpper byte then byte + 32 else byte

/-- The loops that remove trailing white space. -/
def trimEnd (text : Text) : Text := (text.reverse.dropWhile isSpace).reverse

/-- `find`: the parts before and after the first occurrence. -/
def cutAt (needle : Text) : Text → Option (Text × Text)
  | [] => if needle = [] then some ([], []) else none
  | byte :: rest =>
    if needle <+: byte :: rest then some ([], (byte :: rest).drop needle.length)
    else (cutAt needle rest).map fun parts => (byte :: parts.1, parts.2)

/-- The parts of a text between the occurrences of a text; there are at most `count` of them. -/
def splitFrom (needle : Text) : Nat → Text → List Text
  | 0, text => [text]
  | count + 1, text =>
    match cutAt needle text with
    | none => [text]
    | some (before, after) => before :: splitFrom needle count after

/-- The loop of `find` over a separator. -/
def splitOn (needle text : Text) : List Text := splitFrom needle text.length text

/-- The loop of `find` and `replace`. -/
def replaceText (needle replacement text : Text) : Text :=
  (splitOn needle text).intersperse replacement |>.flatten

/-- What holds of the bytes of a text, checked one after the other. -/
theorem forall_bytes {text : Text} {property : UInt8 → Prop} [DecidablePred property]
    (checked : text.all (fun byte => decide (property byte)) = true) :
    ∀ byte ∈ text, property byte :=
  fun byte inside => of_decide_eq_true (List.all_eq_true.mp checked byte inside)

/-- What holds of the eight bits of a byte, all 256 of them checked, holds of every byte. -/
theorem every_byte {property : UInt8 → Prop}
    (checked : ∀ bits : BitVec 8, property (.ofBitVec bits)) : ∀ byte, property byte :=
  fun byte => checked byte.toBitVec

/-- What is cut at an occurrence is a text around it. -/
theorem cutAt_eq {needle text before after : Text}
    (cut : cutAt needle text = some (before, after)) : text = before ++ needle ++ after := by
  induction text generalizing before with
  | nil =>
    rw [cutAt] at cut
    split at cut
    · rename_i empty
      obtain ⟨rfl, rfl⟩ := Prod.mk.inj (Option.some.inj cut)
      simp [empty]
    · contradiction
  | cons byte rest ih =>
    rw [cutAt] at cut
    split at cut
    · rename_i begins
      obtain ⟨tail, whole⟩ := begins
      obtain ⟨rfl, rfl⟩ := Prod.mk.inj (Option.some.inj cut)
      rw [← whole]
      simp
    · obtain ⟨⟨front, tail⟩, found, same⟩ := Option.map_eq_some_iff.mp cut
      obtain ⟨rfl, rfl⟩ := Prod.mk.inj same
      have inner := ih found
      rw [inner]
      simp

/-- A text that has an occurrence is cut. -/
theorem cutAt_isSome (needle front rest : Text) :
    (cutAt needle (front ++ (needle ++ rest))).isSome = true := by
  induction front with
  | nil =>
    rw [List.nil_append]
    cases whole : needle ++ rest with
    | nil => simp [cutAt, (List.append_eq_nil_iff.mp whole).1]
    | cons byte more =>
      have begins : needle <+: byte :: more := whole ▸ List.prefix_append needle rest
      simp [cutAt, begins]
  | cons byte more ih =>
    rw [List.cons_append, cutAt]
    split
    · rfl
    · rw [Option.isSome_map]
      exact ih

/-! ## Patterns -/

/-- The characters of a literal. -/
def text (characters : String) : Pattern UInt8 := literal (utf8 characters)

/-- The characters of a literal in capitals or small. -/
def textNoCase (characters : String) : Pattern UInt8 :=
  all ((utf8 characters).map fun byte => symbol fun read => lower read == lower byte)

/-- `.`. -/
def any : Pattern UInt8 := symbol fun byte => byte != 10 && byte != 13

/-- `\s`. -/
def space : Pattern UInt8 := symbol isSpace

/-- `\S`. -/
def visible : Pattern UInt8 := symbol fun byte => !isSpace byte

/-- `\d`. -/
def digit : Pattern UInt8 := symbol isDigit

/-- A literal has its bytes as its only text. -/
theorem matches_text (characters : String) {part : Text} {groups : List (Nat × Text)} :
    (text characters).Matches part groups ↔ part = utf8 characters ∧ groups = [] :=
  matches_literal (utf8 characters)

/-- A literal in capitals or small has the texts that are the same in small. -/
theorem matches_textNoCase (characters : String) {part : Text} {groups : List (Nat × Text)} :
    (textNoCase characters).Matches part groups ↔
      part.map lower = (utf8 characters).map lower ∧ groups = [] := by
  have each : ∀ (bytes part : Text) (groups : List (Nat × Text)),
      (all (bytes.map fun byte => symbol fun read => lower read == lower byte)).Matches
        part groups ↔
        part.map lower = bytes.map lower ∧ groups = [] := by
    intro bytes
    induction bytes with
    | nil =>
      intro part groups
      rw [List.map_nil, List.map_nil, List.map_eq_nil_iff]
      exact Iff.rfl
    | cons byte bytes ih =>
      intro part groups
      rw [List.map_cons, matches_all_cons, List.map_cons]
      constructor
      · rintro ⟨front, early, back, late, rfl, rfl, ⟨⟨read, rfl, same⟩, rfl⟩, others⟩
        obtain ⟨rest, rfl⟩ := (ih back late).mp others
        rw [List.map_append, rest, List.map_singleton, beq_iff_eq.mp same]
        exact ⟨rfl, rfl⟩
      · rintro ⟨whole, rfl⟩
        cases part with
        | nil => contradiction
        | cons read rest =>
          obtain ⟨same, others⟩ := List.cons.inj whole
          exact ⟨[read], [], rest, [], rfl, rfl, ⟨⟨read, rfl, beq_iff_eq.mpr same⟩, rfl⟩,
            (ih rest []).mpr ⟨others, rfl⟩⟩
  exact each (utf8 characters) part groups

/-- The front of a text that passes a test ends where the test first fails. -/
theorem takeWhile_front {test : UInt8 → Bool} {front rest : Text}
    (passes : ∀ byte ∈ front, test byte = true) (stops : ∀ byte ∈ rest.head?, test byte = false) :
    (front ++ rest).takeWhile test = front := by
  induction front with
  | nil =>
    cases rest with
    | nil => rfl
    | cons byte rest =>
      have stop := stops byte rfl
      simp [stop]
  | cons byte front ih =>
    have first := passes byte List.mem_cons_self
    have others := ih fun other inside => passes other (List.mem_cons_of_mem byte inside)
    rw [List.cons_append, List.takeWhile_cons, if_pos first, others]

/-- Two fronts of a text that end where a test first fails are the same. -/
theorem span_unique {test : UInt8 → Bool} {front other rest others : Text}
    (same : front ++ rest = other ++ others) (passes : ∀ byte ∈ front, test byte = true)
    (stops : ∀ byte ∈ rest.head?, test byte = false)
    (passesOther : ∀ byte ∈ other, test byte = true)
    (stopsOther : ∀ byte ∈ others.head?, test byte = false) : front = other ∧ rest = others := by
  have one := takeWhile_front passes stops
  have two := takeWhile_front passesOther stopsOther
  rw [same, two] at one
  rw [one] at same
  exact ⟨one.symm, List.append_cancel_left same⟩

end Chitta.Bytes
