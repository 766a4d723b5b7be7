/-!
# Texts in brackets with quoted parts

A text stands in brackets when it begins with an opening bracket, ends with the closing one that
belongs to it, and has in between quoted parts, texts in brackets and other symbols. Quoted parts
may hold brackets, and an escape sign with its symbol. A reader that walks through such a text from
its start knows at each symbol how deep it is and whether it is inside a quoted part. A reader that
starts inside a quoted part takes the quoted parts for the others and ends inside one, so no text in
brackets ends with a shorter text in brackets.
-/
namespace Chitta.Bracketed

/-- The signs of a kind of texts. -/
structure Signs (α : Type) where
  /-- The opening bracket. -/
  opening : α
  /-- The closing bracket. -/
  closing : α
  /-- The sign around a quoted part. -/
  quote : α
  /-- The sign before an escaped symbol. -/
  escape : α
  /-- The symbols that may be escaped. -/
  escapable : α → Bool
  /-- The brackets differ. -/
  closing_ne : closing ≠ opening
  /-- The quote is no opening bracket. -/
  quote_ne_opening : quote ≠ opening
  /-- The quote is no closing bracket. -/
  quote_ne_closing : quote ≠ closing
  /-- The escape sign is no opening bracket. -/
  escape_ne_opening : escape ≠ opening
  /-- The escape sign is no closing bracket. -/
  escape_ne_closing : escape ≠ closing
  /-- The escape sign is no quote. -/
  escape_ne_quote : escape ≠ quote
  /-- The opening bracket is not escaped. -/
  opening_plain : escapable opening = false

variable {α : Type} (signs : Signs α) (allowed : α → Prop)

/-- The content of a quoted part whose symbols are allowed there. -/
inductive Quoted : List α → Prop
  | nil : Quoted []
  | plain {symbol : α} {rest : List α} (quote : symbol ≠ signs.quote)
      (escape : symbol ≠ signs.escape) (allows : allowed symbol) (more : Quoted rest) :
      Quoted (symbol :: rest)
  | escaped {symbol : α} {rest : List α} (escapes : signs.escapable symbol = true)
      (allows : allowed symbol) (more : Quoted rest) : Quoted (signs.escape :: symbol :: rest)

/-- What stands between brackets. -/
inductive Inside : List α → Prop
  | nil : Inside []
  | plain {symbol : α} {rest : List α}
      (other : symbol ∉ [signs.opening, signs.closing, signs.quote, signs.escape])
      (more : Inside rest) : Inside (symbol :: rest)
  | quoted {content rest : List α} (body : Quoted signs allowed content) (more : Inside rest) :
      Inside (signs.quote :: content ++ signs.quote :: rest)
  | bracketed {content rest : List α} (body : Inside content) (more : Inside rest) :
      Inside (signs.opening :: content ++ signs.closing :: rest)

/-- A content without quotes and escape signs. -/
theorem Quoted.of_plain {signs : Signs α} {allowed : α → Prop} {content : List α}
    (plain : ∀ symbol ∈ content, symbol ≠ signs.quote ∧ symbol ≠ signs.escape)
    (allows : ∀ symbol ∈ content, allowed symbol) : Quoted signs allowed content := by
  induction content with
  | nil => exact .nil
  | cons symbol rest ih =>
    have first := plain symbol List.mem_cons_self
    have others := ih (fun other inside => plain other (List.mem_cons_of_mem _ inside))
      (fun other inside => allows other (List.mem_cons_of_mem _ inside))
    exact .plain first.1 first.2 (allows symbol List.mem_cons_self) others

/-- A text in brackets. -/
def IsBracketed (text : List α) : Prop :=
  ∃ content, Inside signs allowed content ∧ text = signs.opening :: content ++ [signs.closing]

/-! ## The reader -/

/-- What a reader knows. -/
inductive Reader where
  /-- It is outside the quoted parts. -/
  | outside (depth : Nat)
  /-- It is inside a quoted part. -/
  | quoted (depth : Nat)
  /-- It has read an escape sign. -/
  | escaped (depth : Nat)
  /-- It has met a symbol that cannot stand there. -/
  | stuck
deriving DecidableEq

namespace Reader

variable [DecidableEq α]

/-- One symbol. -/
def step : Reader → α → Reader
  | .outside depth, symbol =>
    if symbol = signs.opening then .outside (depth + 1)
    else if symbol = signs.closing then if depth = 0 then .stuck else .outside (depth - 1)
    else if symbol = signs.quote then .quoted depth
    else if symbol = signs.escape then .stuck
    else .outside depth
  | .quoted depth, symbol =>
    if symbol = signs.quote then .outside depth
    else if symbol = signs.escape then .escaped depth
    else .quoted depth
  | .escaped depth, symbol => if signs.escapable symbol then .quoted depth else .stuck
  | .stuck, _ => .stuck

/-- A text. -/
def read (reader : Reader) (text : List α) : Reader := text.foldl (step signs) reader

/-- The same reader below more brackets. -/
def lower (levels : Nat) : Reader → Reader
  | .outside depth => .outside (depth + levels)
  | .quoted depth => .quoted (depth + levels)
  | .escaped depth => .escaped (depth + levels)
  | .stuck => .stuck

variable {signs} {allowed}

/-- A reader reads one text after the other. -/
theorem read_append (reader : Reader) (first second : List α) :
    reader.read signs (first ++ second) = (reader.read signs first).read signs second :=
  List.foldl_append

/-- A symbol is read first. -/
theorem read_cons (reader : Reader) (symbol : α) (rest : List α) :
    reader.read signs (symbol :: rest) = (reader.step signs symbol).read signs rest := rfl

/-- A stuck reader stays stuck. -/
theorem read_stuck (text : List α) : Reader.stuck.read signs text = .stuck := by
  induction text with
  | nil => rfl
  | cons symbol rest ih => exact ih

/-- The first symbol that a reader does not stick at. -/
theorem not_stuck_of_cons {reader : Reader} {symbol : α} {rest : List α}
    (free : reader.read signs (symbol :: rest) ≠ .stuck) : reader.step signs symbol ≠ .stuck := by
  intro stuck
  rw [read_cons, stuck, read_stuck] at free
  contradiction

/-- The way to a reader that is not stuck has not been stuck. -/
theorem not_stuck_of_append {reader : Reader} {first second : List α}
    (free : reader.read signs (first ++ second) ≠ .stuck) : reader.read signs first ≠ .stuck := by
  intro stuck
  rw [read_append, stuck, read_stuck] at free
  contradiction

/-- Below more brackets a symbol is read alike. -/
theorem step_lower {reader : Reader} {symbol : α} (levels : Nat)
    (free : reader.step signs symbol ≠ .stuck) :
    (reader.lower levels).step signs symbol = (reader.step signs symbol).lower levels := by
  cases reader with
  | outside depth =>
    simp only [step, lower] at free ⊢
    split
    · simp only
      congr 1
      omega
    · split
      · rename_i closing
        by_cases zero : depth = 0
        · simp_all
        · rw [if_neg zero, if_neg (by omega)]
          simp only
          congr 1
          omega
      · split
        · rfl
        · split
          · rfl
          · rfl
  | quoted depth =>
    simp only [step, lower]
    split
    · rfl
    · split
      · rfl
      · rfl
  | escaped depth =>
    simp only [step, lower]
    split
    · rfl
    · rfl
  | stuck => rfl

/-- Below more brackets a text is read alike. -/
theorem read_lower {reader : Reader} {text : List α} (levels : Nat)
    (free : reader.read signs text ≠ .stuck) :
    (reader.lower levels).read signs text = (reader.read signs text).lower levels := by
  induction text generalizing reader with
  | nil => rfl
  | cons symbol rest ih =>
    rw [read_cons, read_cons, step_lower levels (not_stuck_of_cons free)]
    exact ih free

/-- Outside the quoted parts the quote begins one. -/
theorem outside_quote (depth : Nat) :
    (Reader.outside depth).step signs signs.quote = .quoted depth := by
  rw [step, if_neg signs.quote_ne_opening, if_neg signs.quote_ne_closing, if_pos rfl]

/-- Outside the quoted parts there is no escape sign. -/
theorem outside_escape (depth : Nat) :
    (Reader.outside depth).step signs signs.escape = .stuck := by
  rw [step, if_neg signs.escape_ne_opening, if_neg signs.escape_ne_closing,
    if_neg signs.escape_ne_quote, if_pos rfl]

/-- Outside the quoted parts any other symbol is read there, or stops the reader. -/
theorem outside_step (depth : Nat) {symbol : α} (quote : symbol ≠ signs.quote) :
    (∃ level, (Reader.outside depth).step signs symbol = .outside level) ∨
      (Reader.outside depth).step signs symbol = .stuck := by
  rw [step, if_neg quote]
  split
  · exact .inl ⟨_, rfl⟩
  · split
    · split
      · exact .inr rfl
      · exact .inl ⟨_, rfl⟩
    · split
      · exact .inr rfl
      · exact .inl ⟨_, rfl⟩

/-- A quoted part is read inside the quotes. -/
theorem read_quoted {content : List α} (body : Quoted signs allowed content) (depth : Nat) :
    (Reader.quoted depth).read signs content = .quoted depth := by
  induction body with
  | nil => rfl
  | plain quote escape _ _ ih => rw [read_cons, step, if_neg quote, if_neg escape, ih]
  | escaped escapes _ _ ih =>
    rw [read_cons, step, if_neg signs.escape_ne_quote, if_pos rfl, read_cons, step,
      if_pos escapes, ih]

/-- What stands between brackets is read at the same depth. -/
theorem read_inside {content : List α} (body : Inside signs allowed content) (depth : Nat) :
    (Reader.outside depth).read signs content = .outside depth := by
  induction body generalizing depth with
  | nil => rfl
  | plain other _ ih =>
    simp only [List.mem_cons, List.not_mem_nil, or_false, not_or] at other
    rw [read_cons, step, if_neg other.1, if_neg other.2.1, if_neg other.2.2.1,
      if_neg other.2.2.2, ih]
  | quoted body _ ih =>
    rw [List.cons_append, read_cons, step, if_neg signs.quote_ne_opening,
      if_neg signs.quote_ne_closing, if_pos rfl, read_append, read_quoted body, read_cons, step,
      if_pos rfl, ih]
  | bracketed _ _ first second =>
    rw [List.cons_append, read_cons, step, if_pos rfl, read_append, first, read_cons, step,
      if_neg signs.closing_ne, if_pos rfl, if_neg (Nat.succ_ne_zero depth),
      Nat.add_sub_cancel, second]

/-- A text in brackets is read at the same depth. -/
theorem read_bracketed {text : List α} (bracketed : IsBracketed signs allowed text)
    (depth : Nat) : (Reader.outside depth).read signs text = .outside depth := by
  obtain ⟨content, body, rfl⟩ := bracketed
  exact read_inside (.bracketed body .nil) depth

/-! ## Two readers -/

/-- What a reader knows that started inside a quoted part, against the reader that knows where the
quoted parts are. -/
inductive Swapped : Reader → Reader → Prop
  | inside (depth other : Nat) : Swapped (.outside depth) (.quoted other)
  | outside (depth other : Nat) : Swapped (.quoted depth) (.outside other)
  | lost (reader : Reader) : Swapped reader .stuck

/-- The two readers stay swapped: the second one meets an escape sign outside, and every quote ends
what the other one has begun. -/
theorem Swapped.step {reader other : Reader} (swapped : Swapped reader other) {symbol : α}
    (free : reader.step signs symbol ≠ .stuck) :
    Swapped (reader.step signs symbol) (other.step signs symbol) := by
  cases swapped with
  | lost reader => exact .lost _
  | inside depth other =>
    by_cases quote : symbol = signs.quote
    · rw [quote, outside_quote, Reader.step, if_pos rfl]
      exact .outside depth other
    · by_cases escape : symbol = signs.escape
      · rw [escape, outside_escape] at free
        contradiction
      · rw [Reader.step.eq_2, if_neg quote, if_neg escape]
        cases outside_step depth quote with
        | inl outside =>
          obtain ⟨level, outside⟩ := outside
          rw [outside]
          exact .inside level other
        | inr stuck => exact absurd stuck free
  | outside depth other =>
    by_cases quote : symbol = signs.quote
    · rw [quote, outside_quote, Reader.step, if_pos rfl]
      exact .inside depth other
    · by_cases escape : symbol = signs.escape
      · rw [escape, outside_escape]
        exact .lost _
      · rw [Reader.step.eq_2, if_neg quote, if_neg escape]
        cases outside_step other quote with
        | inl outside =>
          obtain ⟨level, outside⟩ := outside
          rw [outside]
          exact .outside depth level
        | inr stuck =>
          rw [stuck]
          exact .lost _

/-- Two swapped readers of a text stay swapped. -/
theorem Swapped.read {reader other : Reader} (swapped : Swapped reader other) {text : List α}
    (free : reader.read signs text ≠ .stuck) :
    Swapped (reader.read signs text) (other.read signs text) := by
  induction text generalizing reader other with
  | nil => exact swapped
  | cons symbol rest ih =>
    exact ih (swapped.step (not_stuck_of_cons free)) free

end Reader

/-! ## No shorter text in brackets at the end -/

variable {signs} {allowed} [DecidableEq α]

open Reader

/-- What stands between brackets stops no reader on its way. -/
theorem Inside.not_stuck {before rest : List α} (body : Inside signs allowed (before ++ rest)) :
    (Reader.outside 0).read signs before ≠ .stuck := by
  have read := read_inside body 0
  apply not_stuck_of_append
  rw [read]
  simp

/-- A reader that stands below a bracket does not come out of a text in brackets above it. -/
theorem IsBracketed.read_below {text : List α} (part : IsBracketed signs allowed text)
    (reader : Reader) : (reader.lower 1).read signs text ≠ .outside 0 := by
  have plain := read_bracketed part 0
  cases reader with
  | outside depth =>
    rw [lower, read_bracketed part]
    simp
  | quoted depth =>
    have free : (Reader.outside 0).read signs text ≠ .stuck := by simp [plain]
    have swapped := (Swapped.inside 0 (depth + 1)).read free
    rw [plain] at swapped
    rw [lower]
    intro out
    rw [out] at swapped
    cases swapped
  | escaped depth =>
    obtain ⟨content, body, rfl⟩ := part
    rw [lower, List.cons_append, read_cons, step, if_neg (by simp [signs.opening_plain]),
      read_stuck]
    simp
  | stuck =>
    rw [lower, read_stuck]
    simp

/-- A text in brackets that another one ends with is the whole of it. -/
theorem IsBracketed.suffix_eq {before text : List α}
    (whole : IsBracketed signs allowed (before ++ text)) (part : IsBracketed signs allowed text) :
    before = [] := by
  cases before with
  | nil => rfl
  | cons first before =>
    exfalso
    have read := read_bracketed whole 0
    obtain ⟨content, body, same⟩ := whole
    obtain ⟨inner, _, shape⟩ := id part
    obtain ⟨opening, rest⟩ := List.cons.inj same
    -- The reader in front of the part has read one bracket and a beginning of the content.
    have begins : before ++ (signs.opening :: inner) = content := by
      have ends : before ++ (signs.opening :: inner) ++ [signs.closing] =
          content ++ [signs.closing] := by
        have rest : before ++ text = content ++ [signs.closing] := rest
        rw [← rest, shape, List.append_assoc]
      exact List.append_cancel_right ends
    have free := Inside.not_stuck (begins ▸ body)
    have below : (Reader.outside 1).read signs before =
        ((Reader.outside 0).read signs before).lower 1 := read_lower 1 free
    have open_first : (Reader.outside 0).step signs first = .outside 1 := by
      rw [opening, step, if_pos rfl]
    rw [List.cons_append, read_cons, open_first, read_append, below] at read
    exact part.read_below _ read

/-! ## Brackets outside the quoted parts only -/

variable (signs) in
/-- How many more brackets are closed than opened, wherever they stand. -/
def excess (text : List α) : Int := text.count signs.closing - text.count signs.opening

/-- The excess of two texts. -/
theorem excess_append (first second : List α) :
    excess signs (first ++ second) = excess signs first + excess signs second := by
  simp only [excess, List.count_append]
  omega

/-- The excess of an opening bracket. -/
theorem excess_opening (rest : List α) :
    excess signs (signs.opening :: rest) = excess signs rest - 1 := by
  simp only [excess, List.count_cons_self, List.count_cons_of_ne signs.closing_ne.symm]
  omega

/-- The excess of a closing bracket. -/
theorem excess_closing (rest : List α) :
    excess signs (signs.closing :: rest) = excess signs rest + 1 := by
  simp only [excess, List.count_cons_self, List.count_cons_of_ne signs.closing_ne]
  omega

/-- The excess does not depend on the order. -/
theorem excess_reverse (text : List α) : excess signs text.reverse = excess signs text := by
  simp only [excess, List.count_reverse]

/-- The excess of a text without brackets. -/
theorem excess_free {text : List α}
    (free : ∀ symbol ∈ text, symbol ≠ signs.opening ∧ symbol ≠ signs.closing) :
    excess signs text = 0 := by
  have opening : text.count signs.opening = 0 :=
    List.count_eq_zero.mpr fun inside => (free _ inside).1 rfl
  have closing : text.count signs.closing = 0 :=
    List.count_eq_zero.mpr fun inside => (free _ inside).2 rfl
  rw [excess, opening, closing]
  rfl

variable (signs) in
/-- As many brackets close as open, and every end of the text closes at least as many as it
opens. -/
structure Rising (text : List α) : Prop where
  /-- The whole text. -/
  level : excess signs text = 0
  /-- The ends. -/
  ends : ∀ rest, rest <:+ text → 0 ≤ excess signs rest

/-- A text without brackets. -/
theorem Rising.free {text : List α}
    (free : ∀ symbol ∈ text, symbol ≠ signs.opening ∧ symbol ≠ signs.closing) :
    Rising signs text := by
  constructor
  · exact excess_free free
  · intro rest ends
    have level := excess_free fun symbol inside => free symbol (ends.mem inside)
    omega

omit [DecidableEq α] in
/-- An end of two texts is an end of the second, or that and an end of the first. -/
theorem suffix_append_cases {rest first second : List α} (ends : rest <:+ first ++ second) :
    rest <:+ second ∨ ∃ middle, middle <:+ first ∧ rest = middle ++ second := by
  obtain ⟨before, whole⟩ := ends
  cases List.append_eq_append_iff.mp whole with
  | inl longer =>
    obtain ⟨middle, same, rest_eq⟩ := longer
    exact .inr ⟨middle, ⟨before, same.symm⟩, rest_eq⟩
  | inr shorter =>
    obtain ⟨middle, same, second_eq⟩ := shorter
    exact .inl ⟨middle, second_eq.symm⟩

/-- One text after the other. -/
theorem Rising.append {first second : List α} (one : Rising signs first)
    (two : Rising signs second) : Rising signs (first ++ second) := by
  constructor
  · rw [excess_append, one.level, two.level]
    rfl
  · intro rest ends
    cases suffix_append_cases ends with
    | inl within => exact two.ends rest within
    | inr longer =>
      obtain ⟨middle, within, rfl⟩ := longer
      have first := one.ends middle within
      rw [excess_append, two.level]
      omega

/-- A text with its closing bracket closes one more than it opens, and so does every end. -/
theorem Rising.excess_closed {text : List α} (rising : Rising signs text) :
    excess signs (text ++ [signs.closing]) = 1 ∧
      ∀ rest, rest <:+ text ++ [signs.closing] → rest ≠ [] → 1 ≤ excess signs rest := by
  have last : excess signs [signs.closing] = 1 := by
    rw [excess_closing]
    simp [excess]
  constructor
  · rw [excess_append, rising.level, last]
    rfl
  · intro rest ends some
    cases suffix_append_cases ends with
    | inl within =>
      cases List.suffix_cons_iff.mp within with
      | inl whole =>
        rw [whole]
        exact Int.le_of_eq last.symm
      | inr nothing => exact absurd (List.suffix_nil.mp nothing) some
    | inr longer =>
      obtain ⟨middle, within, rfl⟩ := longer
      have first := rising.ends middle within
      rw [excess_append, last]
      omega

/-- A text in brackets. -/
theorem Rising.bracketed {text : List α} (rising : Rising signs text) :
    Rising signs (signs.opening :: text ++ [signs.closing]) := by
  have closed := rising.excess_closed
  have whole : excess signs (signs.opening :: text ++ [signs.closing]) = 0 := by
    rw [List.cons_append, excess_opening, closed.1]
    rfl
  constructor
  · exact whole
  · intro rest ends
    cases List.suffix_cons_iff.mp ends with
    | inl same =>
      rw [same]
      exact Int.le_of_eq whole.symm
    | inr within =>
      cases rest with
      | nil => simp [excess]
      | cons symbol rest =>
        have least := closed.2 _ within (List.cons_ne_nil symbol rest)
        omega

variable (clean : ∀ symbol, allowed symbol → symbol ≠ signs.opening ∧ symbol ≠ signs.closing)
include clean

omit [DecidableEq α] in
/-- A quoted part without brackets. -/
theorem Quoted.free {content : List α} (body : Quoted signs allowed content) :
    ∀ symbol ∈ content, symbol ≠ signs.opening ∧ symbol ≠ signs.closing := by
  induction body with
  | nil => simp
  | plain _ _ allows _ ih => exact List.forall_mem_cons.mpr ⟨clean _ allows, ih⟩
  | escaped _ allows _ ih =>
    have sign := And.intro signs.escape_ne_opening signs.escape_ne_closing
    exact List.forall_mem_cons.mpr ⟨sign, List.forall_mem_cons.mpr ⟨clean _ allows, ih⟩⟩

/-- What stands between brackets rises when the quoted parts hold no bracket. -/
theorem Inside.rising {content : List α} (body : Inside signs allowed content) :
    Rising signs content := by
  induction body with
  | nil => exact Rising.free (by simp)
  | @plain symbol rest other _ ih =>
    have first : Rising signs [symbol] := by
      apply Rising.free
      simp only [List.mem_cons, List.not_mem_nil, or_false, not_or] at other
      simp only [List.mem_singleton, forall_eq]
      exact ⟨other.1, other.2.1⟩
    exact first.append ih
  | @quoted content rest body _ ih =>
    have sign := And.intro signs.quote_ne_opening signs.quote_ne_closing
    have first : Rising signs (signs.quote :: content ++ [signs.quote]) := by
      have start : ∀ symbol ∈ signs.quote :: content,
          symbol ≠ signs.opening ∧ symbol ≠ signs.closing :=
        List.forall_mem_cons.mpr ⟨sign, body.free clean⟩
      have stop : ∀ symbol ∈ [signs.quote], symbol ≠ signs.opening ∧ symbol ≠ signs.closing :=
        List.forall_mem_singleton.mpr sign
      exact Rising.free (List.forall_mem_append.mpr ⟨start, stop⟩)
    have whole := first.append ih
    rwa [List.append_assoc] at whole
  | @bracketed content rest _ _ first second =>
    have whole := first.bracketed.append second
    rwa [List.append_assoc] at whole

end Chitta.Bracketed
