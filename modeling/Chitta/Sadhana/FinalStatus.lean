import Chitta.Bracketed
import Chitta.Bytes
import Chitta.Json

/-!
# The status object at the end of an agent's output

An agent is asked to end its output with a JSON object that has a status and a summary. The end of
that object is the last closing brace of the output; its beginning is looked for backwards, by
counting braces, and the count does not tell a brace of the object from one in a string. When the
count goes wrong, what is cut out is no JSON and the status is lost: no other text that the scan can
cut out is an object. The position of the scan is an `int`.
-/
namespace Chitta.Sadhana

open Bytes Bracketed

/-- The byte of an opening brace. -/
def openBrace : UInt8 := 123

/-- The byte of a closing brace. -/
def closeBrace : UInt8 := 125

/-- The signs of a JSON text, as far as its objects and strings go. -/
def braces : Signs UInt8 where
  opening := openBrace
  closing := closeBrace
  quote := 34
  escape := 92
  -- The symbols that may follow a backslash: quote, backslash, slash and the letters bfnrtu.
  escapable byte := byte ∈ ([34, 92, 47, 98, 102, 110, 114, 116, 117] : Text)
  closing_ne := by decide
  quote_ne_opening := by decide
  quote_ne_closing := by decide
  escape_ne_opening := by decide
  escape_ne_closing := by decide
  escape_ne_quote := by decide
  opening_plain := by decide

/-- `json::parse`; none when it throws. -/
abbrev ParseText := Text → Option Json

/-- `rfind` of a byte. -/
def rfind (byte : UInt8) : Text → Option Nat
  | [] => none
  | first :: rest =>
    match rfind byte rest with
    | some index => some (index + 1)
    | none => if first = byte then some 0 else none

/-- The loop over the bytes from the last one back; the list holds them in that order, and the place
of a byte is the number of those behind it. -/
def scanBack : Text → Int → Option Nat
  | [], _ => none
  | byte :: before, depth =>
    if byte = closeBrace then scanBack before (depth + 1)
    else if byte = openBrace then
      if depth - 1 = 0 then some before.length else scanBack before (depth - 1)
    else scanBack before depth

/-- `static_cast<int>`. -/
def toInt (number : Nat) : Int := (number : Int).bmod (2 ^ 32)

/-- The number of bytes that the loop goes through: those up to the place of the last brace as an
`int`. -/
def scanned (last : Nat) : Nat := (toInt last + 1).toNat

/-- `extract_last_json` from the last closing brace on, with the bytes that the loop goes
through. -/
def extractUpTo (parse : ParseText) (text : Text) (last count : Nat) : Json :=
  match scanBack (text.take count).reverse 0 with
  | none => .null
  | some start =>
    match parse ((text.drop start).take (last - start + 1)) with
    | none => .null
    | some json => if json.contains "status" || json.contains "summary" then json else .null

/-- `extract_last_json`. -/
def extractLastJson (parse : ParseText) (text : Text) : Json :=
  match rfind closeBrace text with
  | none => .null
  | some last => extractUpTo parse text last (scanned last)

/-- The status and the summary of a cycle. -/
def cycleStatus (parse : ParseText) (exitCode : Int) (output : Text) :
    Except Thrown (String × String) := do
  let status := if exitCode = 10 then "achieved" else if exitCode = 20 then "blocked"
    else "progressed"
  let last := extractLastJson parse output
  if last.isNull then return (status, "")
  else
    let stated ← last.valueString "status" ""
    let summary ← last.valueString "summary" ""
    return (if stated = "" then status else stated, summary)

/-! ## The text of an object -/

/-- What the JSON library documents of a text that begins with a brace: it is read only when it is
an object, closed strings and objects in braces within it, and white space after it. -/
def ReadsObjects (parse : ParseText) : Prop :=
  ∀ text value, parse text = some value → text.head? = some openBrace →
    ∃ object blank, text = object ++ blank ∧ IsBracketed braces (fun _ => True) object ∧
      ∀ byte ∈ blank, isSpace byte = true

/-- A text of an object, without white space around it. -/
structure Serialises (parse : ParseText) (text : Text) (fields : List (String × Json)) : Prop where
  /-- It is read as the object. -/
  reads : parse text = some (.obj fields)
  /-- It begins with the opening brace. -/
  opens : text.head? = some openBrace
  /-- It ends with the closing brace. -/
  closes : text.getLast? = some closeBrace

/-- The keys of a status object. -/
def IsStatus (fields : List (String × Json)) : Prop :=
  (Json.obj fields).contains "status" = true ∨ (Json.obj fields).contains "summary" = true

/-- Counted from the end, strings included, as many braces are opened as closed at the first byte, a
brace, and at no brace before. -/
def Matched (text : Text) : Prop :=
  ∃ rest, text = openBrace :: rest ∧ excess braces rest = 1 ∧
    ∀ before after, rest = before ++ openBrace :: after → excess braces after ≠ 1

/-- The part of an object that the loop goes through: all of it in an output below 2 GiB. -/
def reached (lead text : Text) : Text :=
  text.take (scanned (lead.length + text.length - 1) - lead.length)

variable {parse : ParseText} {lead text trail : Text} {fields : List (String × Json)}

/-! ## The scan -/

/-- The last occurrence of a byte. -/
theorem rfind_append {byte : UInt8} {before after : Text} (absent : byte ∉ after) :
    rfind byte (before ++ byte :: after) = some before.length := by
  have behind : ∀ text : Text, byte ∉ text → rfind byte text = none := by
    intro text absent
    induction text with
    | nil => rfl
    | cons first rest ih =>
      simp only [List.mem_cons, not_or] at absent
      rw [rfind, ih absent.2]
      simp only
      rw [if_neg (Ne.symm absent.1)]
  induction before with
  | nil =>
    rw [List.nil_append, rfind, behind after absent]
    simp
  | cons first before ih =>
    rw [List.cons_append, rfind, ih]
    rfl

/-- The bytes behind a brace, read back from the end: the count comes out even at that brace, and at
no opening brace among them. -/
structure Even (depth : Int) (tail : Text) : Prop where
  /-- The count at the brace. -/
  last : depth + excess braces tail = 1
  /-- The counts at the opening braces before. -/
  first : ∀ after more, tail = after ++ openBrace :: more → depth + excess braces after ≠ 1

/-- One byte of the scan. -/
theorem even_cons {depth : Int} {byte : UInt8} {tail : Text} :
    Even depth (byte :: tail) ↔
      (byte = openBrace → depth ≠ 1) ∧ Even (depth + excess braces [byte]) tail := by
  have behind : ∀ text, excess braces (byte :: text) = excess braces [byte] + excess braces text :=
    fun text => excess_append [byte] text
  have nothing : excess braces [] = 0 := rfl
  constructor
  · intro even
    refine ⟨?_, ?_, ?_⟩
    · intro opening
      have stop := even.first [] tail (by rw [opening]; rfl)
      omega
    · have last := even.last
      have whole := behind tail
      omega
    · intro after more same
      have stop := even.first (byte :: after) more (by rw [same]; rfl)
      have part := behind after
      omega
  · intro ⟨opening, even⟩
    constructor
    · have last := even.last
      have whole := behind tail
      omega
    · intro after more same
      cases after with
      | nil =>
        have stop := opening (List.cons.inj same).1
        omega
      | cons head after =>
        obtain ⟨rfl, rest⟩ := List.cons.inj same
        have stop := even.first after more rest
        have part := behind after
        omega

/-- A closing brace of the scan. -/
theorem even_closing {depth : Int} {tail : Text} :
    Even depth (closeBrace :: tail) ↔ Even (depth + 1) tail := by
  rw [even_cons]
  exact and_iff_right fun opening => absurd opening (by decide)

/-- An opening brace of the scan. -/
theorem even_opening {depth : Int} {tail : Text} :
    Even depth (openBrace :: tail) ↔ depth ≠ 1 ∧ Even (depth - 1) tail := by
  rw [even_cons]
  exact and_congr_left fun _ => ⟨fun stop => stop rfl, fun stop _ => stop⟩

/-- Another byte of the scan. -/
theorem even_other {depth : Int} {byte : UInt8} {tail : Text} (closing : byte ≠ closeBrace)
    (opening : byte ≠ openBrace) : Even depth (byte :: tail) ↔ Even depth tail := by
  have level : excess braces [byte] = 0 :=
    excess_free (List.forall_mem_singleton.mpr ⟨opening, closing⟩)
  rw [even_cons, level, Int.add_zero]
  exact and_iff_right fun same => absurd same opening

/-- Where the scan stops. -/
theorem scanBack_eq_some {bytes : Text} {depth : Int} {start : Nat}
    (found : scanBack bytes depth = some start) :
    ∃ tail before, bytes = tail ++ openBrace :: before ∧ before.length = start ∧
      Even depth tail := by
  induction bytes generalizing depth with
  | nil => contradiction
  | cons byte bytes ih =>
    rw [scanBack] at found
    split at found
    · rename_i closing
      obtain ⟨tail, before, same, length, even⟩ := ih found
      subst closing
      exact ⟨closeBrace :: tail, before, by rw [same]; rfl, length, even_closing.mpr even⟩
    · rename_i closing
      split at found
      · rename_i opening
        subst opening
        split at found
        · rename_i zero
          have one : depth = 1 := by omega
          refine ⟨[], bytes, rfl, Option.some.inj found, ?_, by simp⟩
          rw [one]
          rfl
        · rename_i more
          obtain ⟨tail, before, same, length, even⟩ := ih found
          have stop : depth ≠ 1 := by omega
          exact ⟨openBrace :: tail, before, by rw [same]; rfl, length,
            even_opening.mpr ⟨stop, even⟩⟩
      · rename_i opening
        obtain ⟨tail, before, same, length, even⟩ := ih found
        exact ⟨byte :: tail, before, by rw [same]; rfl, length,
          (even_other closing opening).mpr even⟩

/-- The scan stops at the first brace where the count comes out even. -/
theorem scanBack_of_even {tail before : Text} {depth : Int} (even : Even depth tail) :
    scanBack (tail ++ openBrace :: before) depth = some before.length := by
  induction tail generalizing depth with
  | nil =>
    have one : depth = 1 := by
      have last := even.last
      have nothing : excess braces [] = 0 := rfl
      omega
    rw [List.nil_append, scanBack, if_neg (by decide), if_pos rfl, if_pos (by omega)]
  | cons byte tail ih =>
    rw [List.cons_append, scanBack]
    split
    · rename_i closing
      subst closing
      exact ih (even_closing.mp even)
    · rename_i closing
      split
      · rename_i opening
        subst opening
        have opened := even_opening.mp even
        have stop := opened.1
        rw [if_neg (by omega)]
        exact ih opened.2
      · rename_i opening
        exact ih ((even_other closing opening).mp even)

/-- The scan of a text stops at an opening brace of it. -/
theorem scanBack_start {text : Text} {depth : Int} {start : Nat}
    (found : scanBack text.reverse depth = some start) : text[start]? = some openBrace := by
  obtain ⟨tail, before, same, length, _⟩ := scanBack_eq_some found
  have whole : text = before.reverse ++ (openBrace :: tail.reverse) := by
    have back := congrArg List.reverse same
    rw [List.reverse_reverse] at back
    simpa using back
  have place : start = before.reverse.length := by
    rw [List.length_reverse, length]
  rw [whole, place, List.getElem?_append_right (Nat.le_refl _), Nat.sub_self]
  rfl

/-- The scan of two texts stops behind the first just when the second is matched. -/
theorem scanBack_matched (lead text : Text) :
    scanBack (lead ++ text).reverse 0 = some lead.length ↔ Matched text := by
  constructor
  · intro found
    obtain ⟨tail, before, same, length, even⟩ := scanBack_eq_some found
    have whole : lead ++ text = before.reverse ++ (openBrace :: tail.reverse) := by
      have back := congrArg List.reverse same
      rw [List.reverse_reverse] at back
      simpa using back
    have shape : text = openBrace :: tail.reverse :=
      (List.append_inj whole (by rw [List.length_reverse, length])).2
    refine ⟨tail.reverse, shape, ?_, ?_⟩
    · have last := even.last
      rw [excess_reverse]
      omega
    · intro earlier after split
      have back : tail = after.reverse ++ openBrace :: earlier.reverse := by
        have turned := congrArg List.reverse split
        rw [List.reverse_reverse] at turned
        simpa using turned
      have stop := even.first after.reverse earlier.reverse back
      rw [excess_reverse] at stop
      omega
  · rintro ⟨rest, rfl, last, first⟩
    have even : Even 0 rest.reverse := by
      constructor
      · rw [excess_reverse]
        omega
      · intro after more turned
        have back : rest = more.reverse ++ openBrace :: after.reverse := by
          have split := congrArg List.reverse turned
          rw [List.reverse_reverse] at split
          simpa using split
        have stop := first more.reverse after.reverse back
        rw [excess_reverse] at stop
        omega
    have stops : scanBack (rest.reverse ++ openBrace :: lead.reverse) 0 =
        some lead.reverse.length := scanBack_of_even even
    rw [List.length_reverse] at stops
    rw [← stops]
    simp

/-! ## The part that is cut out -/

/-- The loop goes through no byte behind the last brace. -/
theorem scanned_le (last : Nat) : scanned last ≤ last + 1 := by
  have within : toInt last ≤ last := by
    unfold toInt
    rw [Int.bmod_def]
    split <;> omega
  unfold scanned
  omega

/-- In an output below 2 GiB the loop goes through all bytes up to the last brace. -/
theorem scanned_eq {last : Nat} (short : last < 2 ^ 31) : scanned last = last + 1 := by
  have same : toInt last = last := by
    unfold toInt
    rw [Int.bmod_def]
    split <;> omega
  rw [scanned, same]
  omega

/-- A text that is read, begins with an opening brace and ends with a closing one stands in
braces. -/
theorem bracketed_of_read (reads : ReadsObjects parse) {value : Json}
    (parsed : parse text = some value) (opens : text.head? = some openBrace)
    (closes : text.getLast? = some closeBrace) : IsBracketed braces (fun _ => True) text := by
  obtain ⟨object, blank, rfl, bracketed, spaces⟩ := reads text value parsed opens
  cases List.eq_nil_or_concat blank with
  | inl nothing =>
    rw [nothing, List.append_nil]
    exact bracketed
  | inr more =>
    obtain ⟨init, last, rfl⟩ := more
    rw [List.concat_eq_append, ← List.append_assoc, List.getLast?_concat] at closes
    obtain rfl := Option.some.inj closes
    have space := spaces closeBrace (by simp)
    exact absurd space (by decide)

/-- The text of an object is the only end of the output that is read and begins with a brace. -/
theorem Serialises.only (serialised : Serialises parse text fields) (reads : ReadsObjects parse)
    {start : Nat} {value : Json} (parsed : parse ((lead ++ text).drop start) = some value)
    (opens : ((lead ++ text).drop start).head? = some openBrace) : start = lead.length := by
  have object := bracketed_of_read reads serialised.reads serialised.opens serialised.closes
  have nonempty : text ≠ [] := by
    intro empty
    have opens := serialised.opens
    rw [empty] at opens
    contradiction
  have more : ¬(lead ++ text).length ≤ start := by
    intro beyond
    rw [List.drop_eq_nil_of_le beyond] at opens
    contradiction
  have closes : ((lead ++ text).drop start).getLast? = some closeBrace := by
    rw [List.getLast?_drop, if_neg more, List.getLast?_append, serialised.closes]
    rfl
  have found := bracketed_of_read reads parsed opens closes
  cases Nat.le_total start lead.length with
  | inl before =>
    rw [List.drop_append_of_le_length before] at found
    have nothing := found.suffix_eq object
    have length := List.drop_eq_nil_iff.mp nothing
    omega
  | inr behind =>
    have split : (lead ++ text).drop start = text.drop (start - lead.length) := by
      rw [List.drop_append, List.drop_eq_nil_of_le behind, List.nil_append]
    rw [split] at found
    have whole := List.take_append_drop (start - lead.length) text
    have nothing := IsBracketed.suffix_eq (whole.symm ▸ object) found
    cases List.take_eq_nil_iff.mp nothing with
    | inl none => omega
    | inr empty => exact absurd empty nonempty

/-! ## The object is found -/

/-- The last closing brace of the output ends the object. -/
theorem rfind_output (serialised : Serialises parse text fields)
    (blank : ∀ byte ∈ trail, isSpace byte = true) :
    rfind closeBrace (lead ++ text ++ trail) = some (lead.length + text.length - 1) := by
  obtain ⟨init, rfl⟩ : ∃ init, text = init ++ [closeBrace] :=
    List.getLast?_eq_some_iff.mp serialised.closes
  have absent : closeBrace ∉ trail := fun inside => absurd (blank _ inside) (by decide)
  have whole : lead ++ (init ++ [closeBrace]) ++ trail =
      (lead ++ init) ++ closeBrace :: trail := by simp
  rw [whole, rfind_append absent]
  simp

/-- The loop over an output stops at the first byte of the object just when the part of it that the
loop goes through is matched. -/
theorem scanBack_output {count : Nat} (most : count ≤ lead.length + text.length) :
    scanBack ((lead ++ text ++ trail).take count).reverse 0 = some lead.length ↔
      Matched (text.take (count - lead.length)) := by
  have part : (lead ++ text ++ trail).take count =
      lead.take count ++ text.take (count - lead.length) := by
    rw [List.take_append_of_le_length (by rw [List.length_append]; omega), List.take_append]
  rw [part]
  by_cases all : lead.length ≤ count
  · rw [List.take_of_length_le all]
    exact scanBack_matched lead _
  · have nothing : text.take (count - lead.length) = [] := by
      rw [Nat.sub_eq_zero_of_le (by omega), List.take_zero]
    rw [nothing, List.append_nil]
    constructor
    · intro found
      obtain ⟨tail, before, same, length, _⟩ := scanBack_eq_some found
      have short := congrArg List.length same
      simp only [List.length_reverse, List.length_take, List.length_append,
        List.length_cons] at short
      omega
    · rintro ⟨rest, same, _⟩
      contradiction

/-- What is cut out from a place inside the output up to the last brace. -/
theorem cut_output {start : Nat} (inside : start < lead.length + text.length) :
    ((lead ++ text ++ trail).drop start).take (lead.length + text.length - 1 - start + 1) =
      (lead ++ text).drop start := by
  have size : lead.length + text.length - 1 - start + 1 = ((lead ++ text).drop start).length := by
    rw [List.length_drop, List.length_append]
    omega
  have ends : (lead ++ text ++ trail).drop start = (lead ++ text).drop start ++ trail :=
    List.drop_append_of_le_length (by rw [List.length_append]; omega)
  rw [size, ends, List.take_left]

/-- The object is returned just when the loop stops at its first byte and it is a status object. -/
theorem extractUpTo_iff (reads : ReadsObjects parse) (serialised : Serialises parse text fields)
    {count : Nat} (most : count ≤ lead.length + text.length) :
    extractUpTo parse (lead ++ text ++ trail) (lead.length + text.length - 1) count =
        .obj fields ↔
      IsStatus fields ∧
        scanBack ((lead ++ text ++ trail).take count).reverse 0 = some lead.length := by
  unfold extractUpTo
  cases found : scanBack ((lead ++ text ++ trail).take count).reverse 0 with
  | none => simp
  | some start =>
    have byte := scanBack_start found
    rw [List.getElem?_take] at byte
    split at byte
    · rename_i below
      have inside : start < lead.length + text.length := by omega
      have opens : ((lead ++ text).drop start).head? = some openBrace := by
        rw [List.head?_drop, ← byte]
        exact (List.getElem?_append_left (by rw [List.length_append]; exact inside)).symm
      dsimp only
      rw [cut_output inside]
      constructor
      · intro returned
        cases parsed : parse ((lead ++ text).drop start) with
        | none => simp [parsed] at returned
        | some value =>
          have place := serialised.only reads parsed opens
          rw [parsed] at returned
          dsimp only at returned
          split at returned
          · rename_i status
            rw [returned] at status
            exact ⟨by simpa [IsStatus] using status, by rw [place]⟩
          · contradiction
      · rintro ⟨status, place⟩
        obtain rfl := Option.some.inj place
        rw [List.drop_left, serialised.reads]
        dsimp only
        rw [if_pos (by simpa [IsStatus] using status)]
    · contradiction

/-- The output ends at the last brace of the object. -/
theorem extractLastJson_output (serialised : Serialises parse text fields)
    (blank : ∀ byte ∈ trail, isSpace byte = true) :
    extractLastJson parse (lead ++ text ++ trail) =
      extractUpTo parse (lead ++ text ++ trail) (lead.length + text.length - 1)
        (scanned (lead.length + text.length - 1)) := by
  unfold extractLastJson
  rw [rfind_output serialised blank]

/-- The loop goes through no byte behind the object. -/
theorem Serialises.scanned_le (serialised : Serialises parse text fields) :
    scanned (lead.length + text.length - 1) ≤ lead.length + text.length := by
  have nonempty : text ≠ [] := by
    intro empty
    have closes := serialised.closes
    rw [empty] at closes
    contradiction
  have length := List.length_pos_iff.mpr nonempty
  have most := Sadhana.scanned_le (lead.length + text.length - 1)
  omega

/-- In an output below 2 GiB the loop goes through the whole object. -/
theorem reached_eq (short : lead.length + text.length ≤ 2 ^ 31) : reached lead text = text := by
  have all : scanned (lead.length + text.length - 1) = lead.length + text.length - 1 + 1 :=
    scanned_eq (by omega)
  rw [reached, all]
  exact List.take_of_length_le (by omega)

/-- An object whose strings hold no brace is matched. -/
theorem matched_of_clean
    (clean : IsBracketed braces (fun byte => byte ≠ openBrace ∧ byte ≠ closeBrace) text) :
    Matched text := by
  obtain ⟨content, body, rfl⟩ := clean
  have rising : Rising braces content := body.rising fun _ allows => allows
  have closed := rising.excess_closed
  refine ⟨content ++ [closeBrace], rfl, closed.1, ?_⟩
  intro before after split
  have ends : openBrace :: after <:+ content ++ [closeBrace] := ⟨before, split.symm⟩
  have least : 1 ≤ excess braces (openBrace :: after) :=
    closed.2 _ ends (List.cons_ne_nil _ _)
  have opened : excess braces (openBrace :: after) = excess braces after - 1 := excess_opening after
  omega

/-- In an output below 2 GiB a status object whose strings hold no brace is returned. -/
theorem extract_clean (reads : ReadsObjects parse) (serialised : Serialises parse text fields)
    (blank : ∀ byte ∈ trail, isSpace byte = true) (status : IsStatus fields)
    (short : lead.length + text.length ≤ 2 ^ 31)
    (clean : IsBracketed braces (fun byte => byte ≠ openBrace ∧ byte ≠ closeBrace) text) :
    extractLastJson parse (lead ++ text ++ trail) = .obj fields := by
  have whole : Matched (reached lead text) := by
    rw [reached_eq short]
    exact matched_of_clean clean
  rw [extractLastJson_output serialised blank]
  apply (extractUpTo_iff reads serialised serialised.scanned_le).mpr
  exact ⟨status, (scanBack_output serialised.scanned_le).mpr whole⟩

/-- For every output that ends with the text of an object and white space, the object is returned
just when it has a status or a summary and the part of its text that the loop reaches is matched,
the braces in its strings counted. -/
theorem extract_last_json_iff (reads : ReadsObjects parse)
    (serialised : Serialises parse text fields) (blank : ∀ byte ∈ trail, isSpace byte = true) :
    extractLastJson parse (lead ++ text ++ trail) = .obj fields ↔
      IsStatus fields ∧ Matched (reached lead text) := by
  rw [extractLastJson_output serialised blank,
    extractUpTo_iff reads serialised serialised.scanned_le,
    scanBack_output serialised.scanned_le]
  rfl

/-! ## Two outputs -/

/-- A parser that knows one text only. -/
def knows (text : Text) (value : Json) : ParseText := fun read =>
  if read = text then some value else none

/-- Such a parser reads no object but that one. -/
theorem knows_reads {value : Json} (object : IsBracketed braces (fun _ => True) text) :
    ReadsObjects (knows text value) := by
  intro read found parsed _
  simp only [knows] at parsed
  split at parsed
  · rename_i same
    exact ⟨text, [], by rw [same, List.append_nil], object, by simp⟩
  · contradiction

/-- A key and a string, and what follows them. -/
def member (key value : String) (rest : Text) : Text :=
  34 :: utf8 key ++ 34 :: 58 :: (34 :: utf8 value ++ 34 :: rest)

/-- A member stands between braces. -/
theorem inside_member {allowed : UInt8 → Prop} {key value : String} {rest : Text}
    (plain : ∀ byte ∈ utf8 key ++ utf8 value, byte ≠ 34 ∧ byte ≠ 92)
    (allows : ∀ byte ∈ utf8 key ++ utf8 value, allowed byte)
    (more : Inside braces allowed rest) : Inside braces allowed (member key value rest) := by
  obtain ⟨plainKey, plainValue⟩ := List.forall_mem_append.mp plain
  obtain ⟨allowsKey, allowsValue⟩ := List.forall_mem_append.mp allows
  have second : Inside braces allowed (34 :: utf8 value ++ 34 :: rest) :=
    .quoted (.of_plain plainValue allowsValue) more
  have colon : Inside braces allowed (58 :: (34 :: utf8 value ++ 34 :: rest)) :=
    .plain (by decide) second
  exact .quoted (.of_plain plainKey allowsKey) colon

/-- An object with one member. -/
def achievedText : Text := openBrace :: member "status" "achieved" [] ++ [closeBrace]

/-- The object of that text. -/
def achievedFields : List (String × Json) := [("status", .str "achieved")]

/-- Its text stands in braces. -/
theorem achieved_bracketed {allowed : UInt8 → Prop}
    (allows : ∀ byte ∈ utf8 "status" ++ utf8 "achieved", allowed byte) :
    IsBracketed braces allowed achievedText :=
  ⟨_, inside_member (forall_bytes (by decide)) allows .nil, rfl⟩

/-- The object behind a line of text is returned. -/
theorem extract_last_json_achieved :
    extractLastJson (knows achievedText (.obj achievedFields))
      (utf8 "Done.\n" ++ achievedText ++ [newline]) = .obj achievedFields := by
  have clean : IsBracketed braces (fun byte => byte ≠ openBrace ∧ byte ≠ closeBrace)
      achievedText := achieved_bracketed (forall_bytes (by decide))
  have whole : reached (utf8 "Done.\n") achievedText = achievedText :=
    reached_eq (by decide)
  have serialised : Serialises (knows achievedText (.obj achievedFields)) achievedText
      achievedFields := ⟨by simp [knows], by decide, by decide⟩
  apply (extract_last_json_iff (knows_reads (achieved_bracketed (by simp))) serialised
    (forall_bytes (by decide))).mpr
  refine ⟨.inl (by decide), ?_⟩
  rw [whole]
  exact matched_of_clean clean

/-- An object whose summary speaks of a brace. -/
def unbalancedText : Text :=
  openBrace :: member "status" "achieved" (44 :: member "summary" "added the missing \x7d" []) ++
    [closeBrace]

/-- The object of that text. -/
def unbalancedFields : List (String × Json) :=
  [("status", .str "achieved"), ("summary", .str "added the missing \x7d")]

/-- Its text is read as the object, which has a status; yet the object is not returned, and the
cycle has progressed without a summary. -/
theorem extract_last_json_unbalanced :
    ReadsObjects (knows unbalancedText (.obj unbalancedFields)) ∧
      Serialises (knows unbalancedText (.obj unbalancedFields)) unbalancedText unbalancedFields ∧
      IsStatus unbalancedFields ∧
      extractLastJson (knows unbalancedText (.obj unbalancedFields)) unbalancedText = .null ∧
      cycleStatus (knows unbalancedText (.obj unbalancedFields)) 0 unbalancedText =
        .ok ("progressed", "") := by
  have members :
      Inside braces (fun _ => True) (44 :: member "summary" "added the missing \x7d" []) :=
    .plain (by decide) (inside_member (forall_bytes (by decide)) (by simp) .nil)
  have object : IsBracketed braces (fun _ => True) unbalancedText :=
    ⟨_, inside_member (forall_bytes (by decide)) (by simp) members, rfl⟩
  have lost : extractLastJson (knows unbalancedText (.obj unbalancedFields)) unbalancedText =
      .null := rfl
  refine ⟨knows_reads object, ⟨by simp [knows], by decide, by decide⟩,
    .inl (by decide), lost, ?_⟩
  rw [cycleStatus, lost]
  rfl

end Chitta.Sadhana
