import Mathlib.Algebra.Group.Nat.Defs
import Chitta.Utf8
import Chitta.Saddle.Unicode

/-!
# Shapes of commands

The shape of a command is its head in small letters with every run of digits as one sign and every
run of white space as one blank. Two shapes are similar when enough of their characters match. Texts
are lists of the numbers of characters. The names are those of the source.
-/
namespace Chitta.Saddle

open HookUnicode Bytes

/-- A text. -/
abbrev Text := List Nat

/-- White space. -/
def isSpace (c : Nat) : Bool := member c space

/-- A digit. -/
def isDecimal (c : Nat) : Bool := member c decimal

/-! ## Reading and writing texts -/

/-- What a first byte gives to a character, and how many bytes belong to it. -/
def lead (byte : UInt8) : Nat × Nat :=
  if 0xf0 ≤ byte then ((byte &&& 7).toNat, 3)
  else if 0xe0 ≤ byte then ((byte &&& 15).toNat, 2)
  else if 0xc0 ≤ byte then ((byte &&& 31).toNat, 1)
  else (byte.toNat, 0)

/-- The characters of some bytes; there are at most `count` of them. -/
def decodeFrom : Nat → List UInt8 → Text
  | 0, _ => []
  | _ + 1, [] => []
  | count + 1, byte :: rest =>
    (rest.take (lead byte).2).foldl (fun c next => c <<< 6 ||| (next &&& 63).toNat) (lead byte).1 ::
      decodeFrom count (rest.drop (lead byte).2)

/-- The characters of a text of bytes. -/
def decode (bytes : List UInt8) : Text := decodeFrom bytes.length bytes

/-- The text of some characters. -/
def encode (s : Text) : String := String.ofList (s.map Char.ofNat)

/-- A text without white space at its ends. -/
def strip (s : Text) : Text := ((s.dropWhile isSpace).reverse.dropWhile isSpace).reverse

/-- A text with one blank for white space between other characters. -/
def collapseFrom (started pending : Bool) : Text → Text
  | [] => []
  | c :: rest =>
    if isSpace c then collapseFrom started true rest
    else (if pending && started then [32, c] else [c]) ++ collapseFrom true false rest

/-- Every white space is one blank. -/
def collapse (s : Text) : Text := collapseFrom false false (strip s)

/-! ## Normalising -/

/-- Whether the next character that counts has a case. -/
def casedNext : Text → Bool
  | [] => false
  | p :: more => if member p ignorable then casedNext more else member p cased

/-- The small letter of a capital one. -/
def small (c : Nat) : Nat :=
  match lowercase.find? fun r => r.1 ≤ c && c ≤ r.2.1 && (c - r.1) % r.2.2.1 == 0 with
  | some r => (c + r.2.2.2).toNat
  | none => c

/-- A character in small letters; a sigma at the end of a word has its own form. -/
def lowerChar (before : Text) (c : Nat) (after : Text) : Text :=
  if c = 304 then [105, 775]
  else if c = 931 && (casedNext before && !casedNext after) then [962]
  else [small c]

/-- A text in small letters, behind the characters before it in reverse. -/
def lowerFrom (before : Text) : Text → Text
  | [] => []
  | c :: rest => lowerChar before c rest ++ lowerFrom (c :: before) rest

/-- A text with one sign for digits. -/
def digitsFrom (wasDigit : Bool) : Text → Text
  | [] => []
  | c :: rest =>
    if isDecimal c then (if wasDigit then [] else [35]) ++ digitsFrom true rest
    else c :: digitsFrom false rest

/-- `normalize`: the shape of a command. -/
def normalize (raw : List UInt8) : Text :=
  (collapse (digitsFrom false (lowerFrom [] (strip (decode raw))))).take 60

/-! ## Comparing shapes -/

/-- The longest part that two texts have in common. -/
structure Common where
  /-- Its length. -/
  best : Nat
  /-- Where it begins in the first text. -/
  ai : Nat
  /-- Where it begins in the second text. -/
  bi : Nat

/-- One character of the first text against the second one: the lengths of the common parts that end
there, after those that end before. -/
def scanRow (c i : Nat) : Nat → Text → List Nat → Common → List Nat × Common
  | j, d :: b, p :: prev, common =>
    let n := if c = d then p + 1 else 0
    let better := if common.best < n then ⟨n, i + 1 - n, j + 1 - n⟩ else common
    let rest := scanRow c i (j + 1) b prev better
    (n :: rest.1, rest.2)
  | _, _, _, common => ([], common)

/-- The characters of the first text against the second one. -/
def scanRows (b : Text) : Nat → Text → List Nat → Common → Common
  | _, [], _, common => common
  | i, c :: a, prev, common =>
    let row := scanRow c i 0 b prev common
    scanRows b (i + 1) a (0 :: row.1) row.2

/-- The first of the longest parts that two texts have in common. -/
def longest (a b : Text) : Common :=
  scanRows b 0 a (List.replicate (b.length + 1) 0) ⟨0, 0, 0⟩

/-- How many characters match, in and around the longest common part; there are at most `depth`
parts in one another. -/
def matchingFrom : Nat → Text → Text → Nat
  | 0, _, _ => 0
  | depth + 1, a, b =>
    let common := longest a b
    if common.best = 0 then 0
    else
      common.best +
        (if 0 < common.ai && 0 < common.bi then
          matchingFrom depth (a.take common.ai) (b.take common.bi)
        else 0) +
        (if common.ai + common.best < a.length && common.bi + common.best < b.length then
          matchingFrom depth (a.drop (common.ai + common.best)) (b.drop (common.bi + common.best))
        else 0)

/-- `matching`. -/
def matching (a b : Text) : Nat := matchingFrom a.length a b

/-- A common part that a row finds begins before the end of the row's character. -/
theorem scanRow_ai {c i : Nat} {bound : Nat} (inside : i < bound) (j : Nat) (b : Text)
    (prev : List Nat) {common : Common} (before : common.best = 0 ∨ common.ai < bound) :
    (scanRow c i j b prev common).2.best = 0 ∨ (scanRow c i j b prev common).2.ai < bound := by
  induction b generalizing j prev common with
  | nil =>
    unfold scanRow
    exact before
  | cons d b ih =>
    cases prev with
    | nil =>
      unfold scanRow
      exact before
    | cons p prev =>
      unfold scanRow
      apply ih
      by_cases more : common.best < if c = d then p + 1 else 0
      · rw [if_pos more]
        apply Or.inr
        show i + 1 - (if c = d then p + 1 else 0) < bound
        omega
      · rw [if_neg more]
        exact before

/-- A common part begins inside the first text. -/
theorem longest_ai (a b : Text) (some : (longest a b).best ≠ 0) :
    (longest a b).ai < a.length := by
  have all : ∀ (rest : Text) (i : Nat) (prev : List Nat) (common : Common),
      i + rest.length ≤ a.length → common.best = 0 ∨ common.ai < a.length →
      (scanRows b i rest prev common).best = 0 ∨ (scanRows b i rest prev common).ai < a.length := by
    intro rest
    induction rest with
    | nil => exact fun _ _ _ _ before => before
    | cons c rest ih =>
      intro i prev common fits before
      rw [List.length_cons] at fits
      unfold scanRows
      apply ih
      · omega
      · apply scanRow_ai _ _ _ _ before
        omega
  exact (all a 0 _ ⟨0, 0, 0⟩ (by omega) (.inl rfl)).resolve_left some

/-- The parts before and behind the longest common part. -/
theorem matchingFrom_succ (depth : Nat) (a b : Text) :
    matchingFrom (depth + 1) a b =
      if (longest a b).best = 0 then 0
      else
        (longest a b).best +
          (if 0 < (longest a b).ai && 0 < (longest a b).bi then
            matchingFrom depth (a.take (longest a b).ai) (b.take (longest a b).bi)
          else 0) +
          (if (longest a b).ai + (longest a b).best < a.length &&
              (longest a b).bi + (longest a b).best < b.length then
            matchingFrom depth (a.drop ((longest a b).ai + (longest a b).best))
              (b.drop ((longest a b).bi + (longest a b).best))
          else 0) := rfl

/-- More depth than the first text has characters changes nothing. -/
theorem matchingFrom_more (depth : Nat) (a b : Text) (enough : a.length ≤ depth) :
    matchingFrom (depth + 1) a b = matchingFrom depth a b := by
  induction depth generalizing a b with
  | zero =>
    have empty := List.length_eq_zero_iff.mp (Nat.le_zero.mp enough)
    rw [empty]
    rfl
  | succ depth ih =>
    rw [matchingFrom_succ (depth + 1) a b, matchingFrom_succ depth a b]
    by_cases none : (longest a b).best = 0
    · simp only [none, if_true]
    · have begins := longest_ai a b none
      have left : (a.take (longest a b).ai).length ≤ depth := by
        rw [List.length_take]
        omega
      have right : (a.drop ((longest a b).ai + (longest a b).best)).length ≤ depth := by
        rw [List.length_drop]
        omega
      simp only [if_neg none, ih _ _ left, ih _ _ right]

/-- The operations on doubles, which round. -/
structure Doubles where
  /-- A whole number. -/
  ofInt : Int → Rat
  /-- `2. * part / whole`. -/
  quotient : Nat → Nat → Rat
  /-- `now - minutes * 60000`. -/
  windowStart : Rat → Rat → Rat

/-- `similar`: whether enough of two shapes matches. -/
def similar (doubles : Doubles) (a b : Text) (threshold : Rat) : Bool :=
  if a = b then true
  else if doubles.quotient (min a.length b.length) (a.length + b.length) < threshold then false
  else threshold ≤ doubles.quotient (matching a b) (a.length + b.length)

/-- A shape is similar to itself. -/
theorem similar_self (doubles : Doubles) (a : Text) (threshold : Rat) :
    similar doubles a a threshold = true := if_pos rfl

/-! ## Runs of digits and white space -/

/-- Two texts that differ in runs of characters of some kinds only: a run stands where a run stands,
and every other character is the same. -/
inductive Rerun (kinds : List (Nat → Bool)) : Text → Text → Prop where
  /-- No characters. -/
  | nil : Rerun kinds [] []
  /-- The same character. -/
  | same (c : Nat) {s t : Text} (rest : Rerun kinds s t) : Rerun kinds (c :: s) (c :: t)
  /-- A run in the place of a run of its kind. -/
  | run {kind : Nat → Bool} (known : kind ∈ kinds) (d e : Nat) {ds es s t : Text}
      (left : ∀ c ∈ d :: ds, kind c = true) (right : ∀ c ∈ e :: es, kind c = true)
      (rest : Rerun kinds s t) : Rerun kinds (d :: ds ++ s) (e :: es ++ t)

variable {kinds : List (Nat → Bool)} {s t : Text}

/-- The same characters before two texts. -/
theorem Rerun.append_left (common : Text) (rerun : Rerun kinds s t) :
    Rerun kinds (common ++ s) (common ++ t) := by
  induction common with
  | nil => exact rerun
  | cons c common ih => exact .same c ih

/-- The same characters. -/
theorem Rerun.refl (s : Text) : Rerun kinds s s := by
  have all := (Rerun.nil : Rerun kinds [] []).append_left s
  rwa [List.append_nil] at all

/-- One pair of texts behind another. -/
theorem Rerun.append {s' t' : Text} (first : Rerun kinds s t) (second : Rerun kinds s' t') :
    Rerun kinds (s ++ s') (t ++ t') := by
  induction first with
  | nil => exact second
  | same c rest ih => exact .same c ih
  | run known d e left right rest ih =>
    rw [List.append_assoc, List.append_assoc]
    exact .run known d e left right ih

/-- A text of a run. -/
theorem run_reverse {kind : Nat → Bool} {d : Nat} {ds : Text}
    (all : ∀ c ∈ d :: ds, kind c = true) :
    ∃ e es, (d :: ds).reverse = e :: es ∧ ∀ c ∈ e :: es, kind c = true := by
  cases back : (d :: ds).reverse with
  | nil => simp at back
  | cons e es =>
    refine ⟨e, es, rfl, fun c inside => all c ?_⟩
    rw [← back] at inside
    exact List.mem_reverse.mp inside

/-- The texts backwards. -/
theorem Rerun.reverse (rerun : Rerun kinds s t) : Rerun kinds s.reverse t.reverse := by
  induction rerun with
  | nil => exact .nil
  | same c rest ih =>
    rw [List.reverse_cons, List.reverse_cons]
    exact ih.append (.refl [c])
  | run known d e left right rest ih =>
    rw [List.reverse_append, List.reverse_append]
    obtain ⟨d', ds', first, left'⟩ := run_reverse left
    obtain ⟨e', es', second, right'⟩ := run_reverse right
    have turned := Rerun.run known d' e' left' right' .nil
    rw [List.append_nil, List.append_nil] at turned
    rw [first, second]
    exact ih.append turned

/-! ### White space at the ends -/

/-- The kinds of runs are white space and others that have none. -/
def Clear (kinds : List (Nat → Bool)) : Prop :=
  ∀ kind ∈ kinds, kind = isSpace ∨ ∀ c, kind c = true → isSpace c = false

/-- A run of white space at the front goes. -/
theorem dropWhile_blanks {ds : Text} (blank : ∀ c ∈ ds, isSpace c = true) (s : Text) :
    (ds ++ s).dropWhile isSpace = s.dropWhile isSpace := by
  induction ds with
  | nil => rfl
  | cons d ds ih =>
    rw [List.cons_append, List.dropWhile_cons_of_pos (blank d List.mem_cons_self)]
    exact ih fun c inside => blank c (List.mem_cons_of_mem _ inside)

/-- White space at the front goes. -/
theorem Rerun.dropWhile (rerun : Rerun kinds s t) (clear : Clear kinds) :
    Rerun kinds (s.dropWhile isSpace) (t.dropWhile isSpace) := by
  induction rerun with
  | nil => exact .nil
  | @same c s t rest ih =>
    cases blank : isSpace c with
    | true =>
      rw [List.dropWhile_cons_of_pos blank, List.dropWhile_cons_of_pos blank]
      exact ih
    | false =>
      have visible : ¬isSpace c = true := by simp [blank]
      rw [List.dropWhile_cons_of_neg visible, List.dropWhile_cons_of_neg visible]
      exact .same c rest
  | run known d e left right rest ih =>
    cases clear _ known with
    | inl own =>
      subst own
      rw [dropWhile_blanks left, dropWhile_blanks right]
      exact ih
    | inr other =>
      have first : ¬isSpace d = true := by
        simp [other d (left d List.mem_cons_self)]
      have second : ¬isSpace e = true := by
        simp [other e (right e List.mem_cons_self)]
      rw [List.cons_append, List.cons_append, List.dropWhile_cons_of_neg first,
        List.dropWhile_cons_of_neg second]
      exact .run known d e left right rest

/-- White space at both ends goes. -/
theorem Rerun.strip (rerun : Rerun kinds s t) (clear : Clear kinds) :
    Rerun kinds (strip s) (strip t) :=
  ((rerun.dropWhile clear).reverse.dropWhile clear).reverse

/-! ### Small letters -/

/-- A digit or white space. -/
def Plain (c : Nat) : Prop := isDecimal c = true ∨ isSpace c = true

/-- A digit or white space counts and has no case. -/
theorem casedNext_plain {c : Nat} (plain : Plain c) (rest : Text) :
    casedNext (c :: rest) = false := by
  have counts : member c ignorable = false := by
    cases plain with
    | inl digit => exact not_member_of_apart decimal_ignorable digit
    | inr blank => exact not_member_of_apart space_ignorable blank
  have uncased : member c cased = false := by
    cases plain with
    | inl digit => exact not_member_of_apart decimal_cased digit
    | inr blank => exact not_member_of_apart space_cased blank
  rw [casedNext, counts, if_neg Bool.false_ne_true]
  exact uncased

/-- A digit or white space is its own small letter. -/
theorem lowerChar_plain {c : Nat} (plain : Plain c) (before after : Text) :
    lowerChar before c after = [c] := by
  have outside : ∀ other ∈ capitals, ¬(other.1 ≤ c ∧ c ≤ other.2) := by
    cases plain with
    | inl digit => exact not_between_of_apart decimal_capitals digit
    | inr blank => exact not_between_of_apart space_capitals blank
  have none : (lowercase.find? fun r => r.1 ≤ c && c ≤ r.2.1 && (c - r.1) % r.2.2.1 == 0) =
      none := by
    apply List.find?_eq_none.mpr
    intro r inside found
    have between := Bool.and_eq_true_iff.mp (Bool.and_eq_true_iff.mp found).1
    exact outside (r.1, r.2.1) (List.mem_map.mpr ⟨r, inside, rfl⟩)
      ⟨of_decide_eq_true between.1, of_decide_eq_true between.2⟩
  have dotted : c ≠ 304 := by
    intro own
    rw [own] at plain
    revert plain
    unfold Plain
    decide
  have sigma : c ≠ 931 := by
    intro own
    rw [own] at plain
    revert plain
    unfold Plain
    decide
  simp only [lowerChar, small, none, if_neg dotted, sigma, decide_false, Bool.false_and,
    Bool.false_eq_true, if_false]

/-- A run of digits or white space stays as it is. -/
theorem lowerFrom_run {ds : Text} (plain : ∀ c ∈ ds, Plain c) (before s : Text) :
    lowerFrom before (ds ++ s) = ds ++ lowerFrom (ds.reverse ++ before) s := by
  induction ds generalizing before with
  | nil => rfl
  | cons d ds ih =>
    rw [List.cons_append, lowerFrom, lowerChar_plain (plain d List.mem_cons_self),
      ih fun c inside => plain c (List.mem_cons_of_mem _ inside)]
    simp

/-- The kinds of runs are digits and white space. -/
def Familiar (kinds : List (Nat → Bool)) : Prop :=
  ∀ kind ∈ kinds, ∀ c, kind c = true → Plain c

/-- What comes next counts alike. -/
theorem Rerun.casedNext (rerun : Rerun kinds s t) (familiar : Familiar kinds) :
    casedNext s = casedNext t := by
  induction rerun with
  | nil => rfl
  | same c rest ih =>
    unfold Saddle.casedNext
    rw [ih]
  | run known d e left right rest ih =>
    rw [List.cons_append, List.cons_append,
      casedNext_plain (familiar _ known d (left d List.mem_cons_self)),
      casedNext_plain (familiar _ known e (right e List.mem_cons_self))]

/-- A run counts before what follows it, whatever it is. -/
theorem casedNext_run {d : Nat} {ds : Text} (plain : ∀ c ∈ d :: ds, Plain c) (before : Text) :
    casedNext ((d :: ds).reverse ++ before) = false := by
  cases back : (d :: ds).reverse with
  | nil => simp at back
  | cons e es =>
    apply casedNext_plain
    apply plain
    apply List.mem_reverse.mp
    rw [back]
    exact List.mem_cons_self

/-- Texts in small letters differ in runs as the texts do. -/
theorem Rerun.lowerFrom (rerun : Rerun kinds s t) (familiar : Familiar kinds)
    {before before' : Text}
    (alike : Saddle.casedNext before = Saddle.casedNext before') :
    Rerun kinds (lowerFrom before s) (lowerFrom before' t) := by
  induction rerun generalizing before before' with
  | nil => exact .nil
  | @same c s t rest ih =>
    have own : lowerChar before c s = lowerChar before' c t := by
      unfold lowerChar
      rw [alike, rest.casedNext familiar]
    rw [Saddle.lowerFrom, Saddle.lowerFrom, own]
    apply Rerun.append_left
    apply ih
    unfold Saddle.casedNext
    rw [alike]
  | run known d e left right rest ih =>
    have first := fun c inside => familiar _ known c (left c inside)
    have second := fun c inside => familiar _ known c (right c inside)
    rw [lowerFrom_run first, lowerFrom_run second]
    apply Rerun.run known d e left right
    apply ih
    rw [casedNext_run first, casedNext_run second]

/-! ### Digits and blanks -/

/-- A run of digits is one sign. -/
theorem digitsFrom_digits {d : Nat} {ds : Text} (digit : ∀ c ∈ d :: ds, isDecimal c = true)
    (was : Bool) (s : Text) :
    digitsFrom was (d :: ds ++ s) = (if was then [] else [35]) ++ digitsFrom true s := by
  have own := digit d List.mem_cons_self
  have others : ∀ rest : Text, (∀ c ∈ rest, isDecimal c = true) →
      digitsFrom true (rest ++ s) = digitsFrom true s := by
    intro rest all
    induction rest with
    | nil => rfl
    | cons c rest ih =>
      rw [List.cons_append, digitsFrom, if_pos (all c List.mem_cons_self)]
      exact ih fun c inside => all c (List.mem_cons_of_mem _ inside)
  rw [List.cons_append, digitsFrom, if_pos own,
    others ds fun c inside => digit c (List.mem_cons_of_mem _ inside)]

/-- White space is no digit. -/
theorem not_decimal {c : Nat} (blank : isSpace c = true) : isDecimal c = false := by
  cases digit : isDecimal c with
  | false => rfl
  | true =>
    have apart := not_member_of_apart decimal_space digit
    exact absurd (blank.symm.trans apart) nofun

/-- A run of white space stays as it is. -/
theorem digitsFrom_blanks {d : Nat} {ds : Text} (blank : ∀ c ∈ d :: ds, isSpace c = true)
    (was : Bool) (s : Text) : digitsFrom was (d :: ds ++ s) = d :: ds ++ digitsFrom false s := by
  induction ds generalizing d was with
  | nil =>
    have visible : ¬isDecimal d = true := by
      simp [not_decimal (blank d List.mem_cons_self)]
    rw [List.cons_append, digitsFrom, if_neg visible]
    rfl
  | cons c ds ih =>
    have visible : ¬isDecimal d = true := by
      simp [not_decimal (blank d List.mem_cons_self)]
    rw [List.cons_append, digitsFrom, if_neg visible]
    rw [ih fun other inside => blank other (List.mem_cons_of_mem _ inside)]
    rfl

/-- With one sign for digits, texts differ in runs of white space only. -/
theorem Rerun.digitsFrom (rerun : Rerun [isDecimal, isSpace] s t) (was : Bool) :
    Rerun [isSpace] (digitsFrom was s) (digitsFrom was t) := by
  induction rerun generalizing was with
  | nil => exact .nil
  | same c rest ih =>
    unfold Saddle.digitsFrom
    split
    · exact (ih true).append_left _
    · exact .same c (ih false)
  | run known d e left right rest ih =>
    cases List.mem_cons.mp known with
    | inl digit =>
      subst digit
      rw [digitsFrom_digits left, digitsFrom_digits right]
      exact (ih true).append_left _
    | inr blank =>
      have blank := List.mem_singleton.mp blank
      subst blank
      rw [digitsFrom_blanks left, digitsFrom_blanks right]
      exact .run List.mem_cons_self d e left right (ih false)

/-- A run of white space is remembered. -/
theorem collapseFrom_blanks {d : Nat} {ds : Text} (blank : ∀ c ∈ d :: ds, isSpace c = true)
    (started pending : Bool) (s : Text) :
    collapseFrom started pending (d :: ds ++ s) = collapseFrom started true s := by
  induction ds generalizing d pending with
  | nil =>
    rw [List.cons_append, collapseFrom, if_pos (blank d List.mem_cons_self)]
    rfl
  | cons c ds ih =>
    rw [List.cons_append, collapseFrom, if_pos (blank d List.mem_cons_self)]
    exact ih (fun other inside => blank other (List.mem_cons_of_mem _ inside)) true

/-- Texts that differ in runs of white space collapse to one text. -/
theorem Rerun.collapseFrom (rerun : Rerun [isSpace] s t) (started pending : Bool) :
    collapseFrom started pending s = collapseFrom started pending t := by
  induction rerun generalizing started pending with
  | nil => rfl
  | same c rest ih =>
    unfold Saddle.collapseFrom
    rw [ih started true, ih true false]
  | run known d e left right rest ih =>
    have blank := List.mem_singleton.mp known
    subst blank
    rw [collapseFrom_blanks left, collapseFrom_blanks right]
    exact ih started true

/-- Commands that differ in runs of digits and white space have one shape. -/
theorem normalize_rerun {raw other : List UInt8}
    (rerun : Rerun [isDecimal, isSpace] (decode raw) (decode other)) :
    normalize raw = normalize other := by
  have clear : Clear [isDecimal, isSpace] := by
    intro kind known
    cases List.mem_cons.mp known with
    | inl digit =>
      subst digit
      exact .inr fun c own => not_member_of_apart decimal_space own
    | inr blank => exact .inl (List.mem_singleton.mp blank)
  have blanks : Clear [isSpace] := fun kind known => .inl (List.mem_singleton.mp known)
  have familiar : Familiar [isDecimal, isSpace] := by
    intro kind known c own
    cases List.mem_cons.mp known with
    | inl digit =>
      subst digit
      exact .inl own
    | inr blank =>
      have blank := List.mem_singleton.mp blank
      subst blank
      exact .inr own
  have first : casedNext ([] : Text) = casedNext [] := rfl
  have lowered := (rerun.strip clear).lowerFrom familiar first
  have spaced := ((lowered.digitsFrom false).strip blanks).collapseFrom false false
  exact congrArg (List.take 60) spaced

end Chitta.Saddle
