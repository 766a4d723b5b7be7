import Mathlib.Data.List.DropRight
import Chitta.Regex.Greedy
import Chitta.Regex.Language

/-!
# Patterns inside longer texts

A pattern without anchors goes the same way over a text when other text stands in front, and when
text follows whose first symbol it never reads. All matches in a text are therefore replaced part by
part between such symbols. White space that may come before a match is removed with it.
-/
namespace Chitta.Regex

open Pattern

variable {Symbol Result Other : Type} {pattern : Pattern Symbol}

/-! ## The way over a pattern -/

/-- What a pattern reads has every property that follows. -/
theorem Pattern.Reads.mono {property weaker : Symbol → Prop} (reads : pattern.Reads property)
    (follows : ∀ symbol, property symbol → weaker symbol) : pattern.Reads weaker := by
  induction pattern with
  | symbol test => exact fun read passes => follows read (reads read passes)
  | seq first second ihFirst ihSecond | either first second ihFirst ihSecond =>
    exact ⟨ihFirst reads.1, ihSecond reads.2⟩
  | repeated greedy body ih => exact ih reads
  | group number body ih => exact ih reads
  | nothing | atStart | atEnd => trivial

/-- A pattern behind which nothing succeeds leads nowhere. -/
theorem run_never (place : Place Symbol) :
    run pattern (fun _ => (none : Option Result)) place = none := by
  cases found : run pattern (fun _ => (none : Option Result)) place with
  | none => rfl
  | some result =>
    obtain ⟨after, _, impossible⟩ := run_moves found
    contradiction

/-- A pattern that reads a symbol on every way leads nowhere from a symbol that it never reads. -/
theorem run_unread {property : Symbol → Prop} (reading : pattern.reading = true)
    (reads : pattern.Reads property) {next : Place Symbol → Option Result} {place : Place Symbol}
    (unread : ∀ symbol ∈ place.rest.head?, ¬ property symbol) : run pattern next place = none := by
  cases found : run pattern next place with
  | none => rfl
  | some result =>
    obtain ⟨after, moves, _⟩ := run_moves found
    have shorter := moves.shorter reading
    obtain ⟨part, whole, each⟩ := moves.reads reads
    cases part with
    | nil =>
      rw [whole, List.nil_append] at shorter
      exact absurd shorter (Nat.lt_irrefl _)
    | cons symbol more =>
      have head : symbol ∈ place.rest.head? := by
        rw [whole]
        rfl
      exact absurd (each symbol List.mem_cons_self) (unread symbol head)

/-- A repetition at the end of the text leads to what follows it. -/
theorem again_ended {greedy : Bool} {next : Place Symbol → Option Result} {place : Place Symbol}
    (ended : place.rest.length = 0) (count : Nat) :
    again (fun next place => run pattern next place) greedy next count place = next place := by
  cases count with
  | zero => rfl
  | succ count =>
    simp only [again, ended, Nat.not_lt_zero, if_false, run_never]
    cases greedy <;> cases next place <;> rfl

/-- A repetition is tried often enough when it is tried once for each symbol that is left. -/
theorem again_enough {greedy : Bool} {next : Place Symbol → Option Result} {count other : Nat}
    {place : Place Symbol} (enough : place.rest.length ≤ count)
    (enoughOther : place.rest.length ≤ other) :
    again (fun next place => run pattern next place) greedy next count place =
      again (fun next place => run pattern next place) greedy next other place := by
  induction count generalizing other place with
  | zero =>
    have ended := Nat.le_zero.mp enough
    rw [again_ended ended, again_ended ended]
  | succ count ih =>
    cases other with
    | zero =>
      have ended := Nat.le_zero.mp enoughOther
      rw [again_ended ended, again_ended ended]
    | succ other =>
      have same : (fun after : Place Symbol => if after.rest.length < place.rest.length then
          again (fun next place => run pattern next place) greedy next count after else none) =
          fun after => if after.rest.length < place.rest.length then
          again (fun next place => run pattern next place) greedy next other after else none := by
        funext after
        split
        · apply ih
          · omega
          · omega
        · rfl
      simp only [again, same]

/-- A place further on in a text that goes on. -/
def Place.extend (more : List Symbol) (count : Nat) (place : Place Symbol) : Place Symbol :=
  { place with passed := place.passed + count, rest := place.rest ++ more }

/-- A recorded group is the same further on. -/
theorem record_extend (number : Nat) (more : List Symbol) (count : Nat)
    (start stop : Place Symbol) :
    (start.extend more count).record number (stop.extend more count) =
      (start.record number stop).extend more count := by
  have size : (start.rest ++ more).length - (stop.rest ++ more).length =
      start.rest.length - stop.rest.length := by
    rw [List.length_append, List.length_append]
    omega
  simp only [Place.record, Place.extend, size]
  rw [List.take_append_of_le_length (Nat.sub_le _ _)]

/-- The way over a pattern is the same further on in a text that goes on with a symbol that the
pattern never reads. -/
theorem run_extend (free : pattern.unanchored = true) {more : List Symbol} {count : Nat}
    (unread : ∀ symbol ∈ more.head?, pattern.Reads (· ≠ symbol))
    {next : Place Symbol → Option Result} {later : Place Symbol → Option Other}
    {change : Result → Other}
    (same : ∀ place, later (place.extend more count) = (next place).map change)
    (place : Place Symbol) :
    run pattern later (place.extend more count) = (run pattern next place).map change := by
  induction pattern generalizing next later place with
  | nothing => exact same place
  | symbol test =>
    obtain ⟨passed, rest, groups⟩ := place
    cases rest with
    | nil =>
      have ends : ∀ read ∈ more.head?, test read = false := by
        intro read head
        by_contra passes
        exact unread read head read (by simpa using passes) rfl
      exact run_symbol_stop ends
    | cons read rest =>
      have after := same ⟨passed + 1, rest, groups⟩
      simp only [Place.extend, Nat.add_right_comm passed 1 count] at after
      simp only [run, Place.extend, List.cons_append]
      split
      · exact after
      · rfl
  | seq first second ihFirst ihSecond =>
    rw [Pattern.unanchored, Bool.and_eq_true] at free
    have back := ihSecond free.2 (fun symbol head => (unread symbol head).2) same
    exact ihFirst free.1 (fun symbol head => (unread symbol head).1) back place
  | either first second ihFirst ihSecond =>
    rw [Pattern.unanchored, Bool.and_eq_true] at free
    have one := ihFirst free.1 (fun symbol head => (unread symbol head).1) same place
    have two := ihSecond free.2 (fun symbol head => (unread symbol head).2) same place
    simp only [run, one, two]
    cases run first next place <;> rfl
  | repeated greedy body ih =>
    have bounded : ∀ (tries : Nat) (place : Place Symbol),
        again (fun next place => run body next place) greedy later tries
            (place.extend more count) =
          (again (fun next place => run body next place) greedy next tries place).map change := by
      intro tries
      induction tries with
      | zero => exact same
      | succ tries ihTries =>
        intro place
        let onward := fun after : Place Symbol => if after.rest.length < place.rest.length then
          again (fun next place => run body next place) greedy next tries after else none
        let onwardLater := fun after : Place Symbol =>
          if after.rest.length < (place.extend more count).rest.length then
          again (fun next place => run body next place) greedy later tries after else none
        have bothOnward : ∀ after, onwardLater (after.extend more count) =
            (onward after).map change := by
          intro after
          have size :
              (after.extend more count).rest.length < (place.extend more count).rest.length ↔
              after.rest.length < place.rest.length := by
            simp only [Place.extend, List.length_append]
            omega
          simp only [onward, onwardLater, size]
          split
          · exact ihTries after
          · rfl
        have goesOn := ih free unread bothOnward place
        have ends := same place
        simp only [onward, onwardLater] at goesOn
        simp only [again, goesOn, ends]
        cases greedy with
        | true =>
          simp only [if_true]
          cases run body _ place <;> rfl
        | false =>
          simp only [Bool.false_eq_true, if_false]
          cases next place <;> rfl
    have size : place.rest.length ≤ (place.extend more count).rest.length := by
      simp only [Place.extend, List.length_append]
      omega
    rw [run, run, bounded, again_enough (Nat.le_refl place.rest.length) size]
  | group number body ih =>
    apply ih free unread
    intro after
    rw [record_extend]
    exact same (place.record number after)
  | atStart => contradiction
  | atEnd => contradiction

/-! ## Searches -/

/-- Without a way at the start of a text its match is the one behind its first symbol. -/
theorem searchFrom_of_fail {passed : Nat} {symbol : Symbol} {rest : List Symbol}
    (fails : run pattern some ⟨passed, symbol :: rest, []⟩ = none) :
    searchFrom pattern passed (symbol :: rest) =
      (searchFrom pattern (passed + 1) rest).map fun found =>
        { found with skipped := symbol :: found.skipped } := by
  simp [searchFrom, fails]

/-- An empty text has no match of a pattern that reads a symbol on every way. -/
theorem searchFrom_nil (reading : pattern.reading = true) (passed : Nat) :
    searchFrom pattern passed [] = none := by
  cases hit : searchFrom pattern passed [] with
  | none => rfl
  | some found =>
    obtain ⟨whole, _⟩ := searchFrom_found hit
    have empty := (List.append_eq_nil_iff.mp (List.append_eq_nil_iff.mp whole.symm).2).1
    exact absurd empty (matched_ne_nil hit reading)

/-- What is in front of all places where a match may begin is skipped by a search. -/
theorem searchFrom_skip {front rest : List Symbol} (passed : Nat)
    (fails : ∀ place part, part ≠ [] → part <:+ front →
      run pattern some ⟨place, part ++ rest, []⟩ = none) :
    searchFrom pattern passed (front ++ rest) =
      (searchFrom pattern (passed + front.length) rest).map fun found =>
        { found with skipped := front ++ found.skipped } := by
  induction front generalizing passed with
  | nil =>
    rw [List.nil_append, List.length_nil, Nat.add_zero]
    simp
  | cons symbol front ih =>
    have own : run pattern some ⟨passed, symbol :: (front ++ rest), []⟩ = none :=
      fails passed (symbol :: front) (by simp) (List.suffix_refl _)
    have inner := ih (passed + 1) fun place part some_symbol ends =>
      fails place part some_symbol (ends.trans (List.suffix_cons symbol front))
    have size : passed + 1 + front.length = passed + (symbol :: front).length := by
      rw [List.length_cons]
      omega
    rw [List.cons_append, searchFrom_of_fail own, inner, Option.map_map, size]
    rfl

/-- No match begins in front of the one that is found. -/
theorem searchFrom_leftmost {passed : Nat} {text : List Symbol} {found : Found Symbol}
    (hit : searchFrom pattern passed text = some found) {front part : List Symbol}
    (skipped : found.skipped = front ++ part) (some_symbol : part ≠ []) :
    run pattern some ⟨passed + front.length, part ++ (found.matched ++ found.rest), []⟩ = none := by
  induction front generalizing passed text found with
  | nil =>
    cases text with
    | nil =>
      obtain ⟨whole, _⟩ := searchFrom_found hit
      rw [skipped] at whole
      simp [some_symbol] at whole
    | cons symbol rest =>
      obtain ⟨whole, _⟩ := searchFrom_found hit
      rw [skipped, List.nil_append] at whole
      rw [List.length_nil, Nat.add_zero, ← whole]
      cases here : run pattern some ⟨passed, symbol :: rest, []⟩ with
      | none => rfl
      | some after =>
        rw [searchFrom_of_run here] at hit
        rw [← Option.some.inj hit] at skipped
        exact absurd skipped.symm some_symbol
  | cons symbol front ih =>
    cases text with
    | nil =>
      obtain ⟨whole, _⟩ := searchFrom_found hit
      rw [skipped] at whole
      simp at whole
    | cons first rest =>
      cases here : run pattern some ⟨passed, first :: rest, []⟩ with
      | some after =>
        rw [searchFrom_of_run here] at hit
        rw [← Option.some.inj hit] at skipped
        contradiction
      | none =>
        rw [searchFrom_of_fail here] at hit
        obtain ⟨inner, there, same⟩ := Option.map_eq_some_iff.mp hit
        rw [← same] at skipped
        obtain ⟨_, later⟩ := List.cons.inj skipped
        have fails := ih there later
        have place : passed + (symbol :: front).length = passed + 1 + front.length := by
          rw [List.length_cons]
          omega
        rw [place, ← same]
        exact fails

/-- A search in a text that goes on with a symbol that the pattern never reads: the match in the
text, or else the one in what follows. -/
theorem searchFrom_append (free : pattern.unanchored = true) (reading : pattern.reading = true)
    {more : List Symbol} (unread : ∀ symbol ∈ more.head?, pattern.Reads (· ≠ symbol))
    (passed count : Nat) (text : List Symbol) :
    searchFrom pattern (passed + count) (text ++ more) =
      match searchFrom pattern passed text with
      | some found => some { found with rest := found.rest ++ more }
      | none => (searchFrom pattern (passed + count + text.length) more).map fun found =>
          { found with skipped := text ++ found.skipped } := by
  induction text generalizing passed with
  | nil =>
    rw [searchFrom_nil reading, List.nil_append, List.length_nil, Nat.add_zero]
    simp
  | cons symbol rest ih =>
    have whole : ∀ place : Place Symbol,
        some (place.extend more count) = (some place).map (Place.extend more count) := fun _ => rfl
    have first := run_extend free unread whole ⟨passed, symbol :: rest, []⟩
    simp only [Place.extend, List.cons_append] at first
    rw [List.cons_append]
    cases here : run pattern some ⟨passed, symbol :: rest, []⟩ with
    | some after =>
      rw [here, Option.map_some] at first
      have size : (symbol :: (rest ++ more)).length - (after.rest ++ more).length =
          (symbol :: rest).length - after.rest.length := by
        simp only [List.length_cons, List.length_append]
        omega
      have part : (symbol :: (rest ++ more)).take ((symbol :: rest).length - after.rest.length) =
          (symbol :: rest).take ((symbol :: rest).length - after.rest.length) := by
        rw [← List.cons_append, List.take_append_of_le_length (Nat.sub_le _ _)]
      rw [searchFrom_of_run here, searchFrom_of_run first]
      simp only [Place.extend, size, part]
    | none =>
      rw [here, Option.map_none] at first
      have place : passed + count + 1 = passed + 1 + count := by omega
      have last : passed + 1 + count + rest.length = passed + count + (symbol :: rest).length := by
        rw [List.length_cons]
        omega
      rw [searchFrom_of_fail here, searchFrom_of_fail first, place, ih, last]
      cases searchFrom pattern (passed + 1) rest with
      | some found => rfl
      | none =>
        rw [Option.map_none, Option.map_map]
        rfl

/-- A search is the same wherever the text stands. -/
theorem searchFrom_place (free : pattern.unanchored = true) (reading : pattern.reading = true)
    (passed : Nat) (text : List Symbol) : searchFrom pattern passed text = search pattern text := by
  have unread : ∀ symbol ∈ ([] : List Symbol).head?, pattern.Reads (· ≠ symbol) := by simp
  have same := searchFrom_append free reading unread 0 passed text
  rw [List.append_nil, Nat.zero_add] at same
  rw [same, search]
  cases searchFrom pattern 0 text with
  | some found => simp
  | none => simp [searchFrom_nil reading]

/-! ## Replacements -/

/-- The matches in a text are found with as many attempts as it has symbols. -/
theorem findFrom_enough (free : pattern.unanchored = true) (reading : pattern.reading = true)
    {count other : Nat} (passed place : Nat) {text : List Symbol} (enough : text.length ≤ count)
    (enoughOther : text.length ≤ other) :
    findFrom pattern count passed text = findFrom pattern other place text := by
  have none_left : ∀ (tries place : Nat), findFrom pattern tries place [] = [] := by
    intro tries place
    cases tries with
    | zero => rfl
    | succ tries => rw [findFrom, searchFrom_nil reading]
  induction count generalizing other passed place text with
  | zero =>
    obtain rfl := List.eq_nil_of_length_eq_zero (Nat.le_zero.mp enough)
    rw [none_left, none_left]
  | succ count ih =>
    cases other with
    | zero =>
      obtain rfl := List.eq_nil_of_length_eq_zero (Nat.le_zero.mp enoughOther)
      rw [none_left, none_left]
    | succ other =>
      rw [findFrom, findFrom, searchFrom_place free reading, searchFrom_place free reading]
      cases hit : search pattern text with
      | none => rfl
      | some found =>
        obtain ⟨whole, _⟩ := searchFrom_found hit
        have size := congrArg List.length whole
        have some_symbol := List.length_pos_iff.mpr (matched_ne_nil hit reading)
        simp only [List.length_append] at size
        have others := ih (passed + found.skipped.length + found.matched.length)
          (place + found.skipped.length + found.matched.length)
          (show found.rest.length ≤ count by omega) (show found.rest.length ≤ other by omega)
        exact congrArg (found :: ·) others

/-- A text without a match stays. -/
theorem replaceAll_none {replacement text : List Symbol}
    (absent : search pattern text = none) : replaceAll pattern replacement text = text := by
  have empty : findAll pattern text = [] := by
    rw [findAll]
    cases text with
    | nil => rfl
    | cons symbol rest =>
      rw [search] at absent
      rw [List.length_cons, findFrom, absent]
  simp [replaceAll, empty]

/-- The first match is replaced, and then those in what follows. -/
theorem replaceAll_some (free : pattern.unanchored = true) (reading : pattern.reading = true)
    {replacement text : List Symbol} {found : Found Symbol}
    (hit : search pattern text = some found) :
    replaceAll pattern replacement text =
      found.skipped ++ (replacement ++ replaceAll pattern replacement found.rest) := by
  obtain ⟨whole, _⟩ := searchFrom_found hit
  have size := congrArg List.length whole
  have some_symbol := List.length_pos_iff.mpr (matched_ne_nil hit reading)
  simp only [List.length_append] at size
  obtain ⟨count, length⟩ : ∃ count, text.length = count + 1 := ⟨text.length - 1, by omega⟩
  have all : findAll pattern text = found :: findAll pattern found.rest := by
    rw [search] at hit
    rw [findAll, length, findFrom, hit]
    exact congrArg (found :: ·) (findFrom_enough free reading _ _ (by omega) (Nat.le_refl _))
  simp only [replaceAll, all, List.flatMap_cons, List.getLast?_cons, Option.map_some,
    Option.getD_some, List.append_assoc]
  rw [← Option.getD_map (fun found : Found Symbol => found.rest)]

/-- A text has no match, or a text behind its first match. -/
theorem search_induction (reading : pattern.reading = true) {motive : List Symbol → Prop}
    (absent : ∀ text, search pattern text = none → motive text)
    (hit : ∀ text found, search pattern text = some found → motive found.rest → motive text)
    (text : List Symbol) : motive text := by
  generalize bound : text.length = size
  induction size using Nat.strongRecOn generalizing text with
  | ind size ih =>
    cases first : search pattern text with
    | none => exact absent text first
    | some found =>
      obtain ⟨whole, _⟩ := searchFrom_found first
      have length := congrArg List.length whole
      have some_symbol := List.length_pos_iff.mpr (matched_ne_nil first reading)
      simp only [List.length_append] at length
      exact hit text found first (ih _ (by omega) found.rest rfl)

/-- A text that goes on with a symbol that the pattern never reads is replaced in two parts. -/
theorem replaceAll_append (free : pattern.unanchored = true) (reading : pattern.reading = true)
    {replacement more : List Symbol}
    (unread : ∀ symbol ∈ more.head?, pattern.Reads (· ≠ symbol)) (text : List Symbol) :
    replaceAll pattern replacement (text ++ more) =
      replaceAll pattern replacement text ++ replaceAll pattern replacement more := by
  have both (text : List Symbol) := searchFrom_append free reading unread 0 0 text
  simp only [searchFrom_place free reading] at both
  induction text using search_induction reading with
  | absent text none_here =>
    have whole := both text
    rw [none_here] at whole
    rw [replaceAll_none none_here]
    cases later : search pattern more with
    | none =>
      rw [later, Option.map_none] at whole
      rw [replaceAll_none whole, replaceAll_none later]
    | some found =>
      rw [later, Option.map_some] at whole
      rw [replaceAll_some free reading whole, replaceAll_some free reading later]
      simp
  | hit text found first ih =>
    have whole := both text
    rw [first] at whole
    rw [replaceAll_some free reading whole, replaceAll_some free reading first, ih]
    simp

/-- A symbol at which no match begins stays. -/
theorem replaceAll_skip (free : pattern.unanchored = true) (reading : pattern.reading = true)
    {replacement rest : List Symbol} {symbol : Symbol}
    (fails : run pattern some ⟨0, symbol :: rest, []⟩ = none) :
    replaceAll pattern replacement (symbol :: rest) =
      symbol :: replaceAll pattern replacement rest := by
  have behind : search pattern (symbol :: rest) = (search pattern rest).map fun found =>
      { found with skipped := symbol :: found.skipped } := by
    rw [search, searchFrom_of_fail fails, searchFrom_place free reading]
  cases hit : search pattern rest with
  | none =>
    rw [hit, Option.map_none] at behind
    rw [replaceAll_none behind, replaceAll_none hit]
  | some found =>
    rw [hit, Option.map_some] at behind
    rw [replaceAll_some free reading behind, replaceAll_some free reading hit]
    simp

/-- Symbols that the pattern never reads stay. -/
theorem replaceAll_unread (free : pattern.unanchored = true) (reading : pattern.reading = true)
    {replacement part : List Symbol} (unread : ∀ symbol ∈ part, pattern.Reads (· ≠ symbol))
    (more : List Symbol) :
    replaceAll pattern replacement (part ++ more) =
      part ++ replaceAll pattern replacement more := by
  induction part with
  | nil => rfl
  | cons symbol part ih =>
    obtain ⟨own, others⟩ := List.forall_mem_cons.mp unread
    have fails : run pattern some ⟨0, symbol :: (part ++ more), []⟩ = none :=
      run_unread reading own (by simp)
    rw [List.cons_append, replaceAll_skip free reading fails, ih others]
    rfl

/-! ## Symbols that may come before a match -/

/-- What passes is removed from the end. -/
theorem rdropWhile_append_passing {test : Symbol → Bool} {back : List Symbol}
    (passes : ∀ read ∈ back, test read = true) (front : List Symbol) :
    (front ++ back).rdropWhile test = front.rdropWhile test := by
  have reversed : ∀ read ∈ back.reverse, test read = true := by simpa using passes
  rw [List.rdropWhile, List.reverse_append, List.dropWhile_append_of_pos reversed]
  rfl

/-- Nothing is removed in front of an end of which something stays. -/
theorem rdropWhile_append_some {test : Symbol → Bool} {back : List Symbol}
    (stays : back.rdropWhile test ≠ []) (front : List Symbol) :
    (front ++ back).rdropWhile test = front ++ back.rdropWhile test := by
  have some_symbol : (back.reverse.dropWhile test).isEmpty = false := by
    cases rest : back.reverse.dropWhile test with
    | nil => exact absurd (congrArg List.reverse rest) stays
    | cons read more => rfl
  rw [List.rdropWhile, List.reverse_append, List.dropWhile_append, some_symbol]
  simp [List.rdropWhile]

section Blank

variable {test : Symbol → Bool}

/-- A repetition takes all that passes when the rest leads nowhere from a symbol that passes. -/
theorem run_many_all {next : Place Symbol → Option Result}
    (stops : ∀ place : Place Symbol, (∃ read ∈ place.rest.head?, test read = true) →
      next place = none)
    {front rest : List Symbol} (passes : ∀ read ∈ front, test read = true)
    (ends : ∀ read ∈ rest.head?, test read = false) (passed : Nat)
    (groups : List (Nat × List Symbol)) :
    run (many (.symbol test)) next ⟨passed, front ++ rest, groups⟩ =
      next ⟨passed + front.length, rest, groups⟩ := by
  have bounded : ∀ (front : List Symbol) (passed count : Nat), front.length ≤ count →
      (∀ read ∈ front, test read = true) →
      again (fun next place => run (.symbol test) next place) true next count
        ⟨passed, front ++ rest, groups⟩ = next ⟨passed + front.length, rest, groups⟩ := by
    intro front
    induction front with
    | nil =>
      intro passed count _ _
      cases count with
      | zero => rfl
      | succ count =>
        rw [List.nil_append, again]
        simp only [run_symbol_stop ends, if_true]
        rfl
    | cons read more ih =>
      intro passed count bound passes
      cases count with
      | zero => simp at bound
      | succ count =>
        obtain ⟨first, others⟩ := List.forall_mem_cons.mp passes
        have here : next ⟨passed, read :: (more ++ rest), groups⟩ = none :=
          stops _ ⟨read, rfl, first⟩
        have size : passed + 1 + more.length = passed + (read :: more).length := by
          rw [List.length_cons]
          omega
        have later := ih (passed + 1) count (by simp at bound; omega) others
        rw [List.cons_append, again]
        simp only [run_symbol first, if_true, List.length_cons, here]
        rw [if_pos (by omega), later, size]
        cases next ⟨passed + (read :: more).length, rest, groups⟩ <;> rfl
  exact bounded front passed _ (by simp) passes

/-- A pattern that can stand behind symbols that pass a test, and never reads one of them. -/
structure Apart (test : Symbol → Bool) (pattern : Pattern Symbol) : Prop where
  /-- It has no anchors. -/
  free : pattern.unanchored = true
  /-- It reads a symbol on every way. -/
  reading : pattern.reading = true
  /-- Its repetitions end. -/
  proper : pattern.proper = true
  /-- No symbol that it reads passes. -/
  reads : pattern.Reads fun symbol => test symbol = false

/-- The pattern behind any number of symbols that pass. -/
def behind (test : Symbol → Bool) (pattern : Pattern Symbol) : Pattern Symbol :=
  seq (many (.symbol test)) pattern

variable (apart : Apart test pattern)
include apart

/-- The pattern behind passing symbols has no anchors. -/
theorem Apart.free_behind : (behind test pattern).unanchored = true := by
  rw [behind, unanchored, apart.free]
  rfl

/-- The pattern behind passing symbols reads a symbol on every way. -/
theorem Apart.reading_behind : (behind test pattern).reading = true := by
  rw [behind, Pattern.reading, apart.reading, Bool.or_true]

/-- The repetitions of the pattern behind passing symbols end. -/
theorem Apart.proper_behind : (behind test pattern).proper = true := by
  rw [behind, Pattern.proper, apart.proper]
  rfl

/-- No match begins at a symbol that passes. -/
theorem Apart.run_passing {Result : Type} {next : Place Symbol → Option Result}
    {place : Place Symbol} (passes : ∃ read ∈ place.rest.head?, test read = true) :
    run pattern next place = none := by
  obtain ⟨read, head, pass⟩ := passes
  apply run_unread apart.reading apart.reads
  intro symbol here
  rw [Option.mem_unique here head, pass]
  simp

/-- What passes is skipped by a search. -/
theorem Apart.searchFrom_passing (passed : Nat) {front : List Symbol}
    (passes : ∀ read ∈ front, test read = true) (rest : List Symbol) :
    searchFrom pattern passed (front ++ rest) =
      (searchFrom pattern (passed + front.length) rest).map fun found =>
        { found with skipped := front ++ found.skipped } := by
  apply searchFrom_skip
  intro place part some_symbol ends
  cases part with
  | nil => contradiction
  | cons read part =>
    exact apart.run_passing ⟨read, rfl, passes read (ends.subset List.mem_cons_self)⟩

/-- Behind passing symbols a pattern is run from the last of them. -/
theorem Apart.run_behind {Result : Type} {next : Place Symbol → Option Result} (passed : Nat)
    {front rest : List Symbol} (passes : ∀ read ∈ front, test read = true)
    (ends : ∀ read ∈ rest.head?, test read = false) (groups : List (Nat × List Symbol)) :
    run (behind test pattern) next ⟨passed, front ++ rest, groups⟩ =
      run pattern next ⟨passed + front.length, rest, groups⟩ := by
  apply run_many_all
  · intro place passes
    exact apart.run_passing passes
  · exact passes
  · exact ends

/-- A symbol at which no match behind passing symbols begins does not pass when only such symbols
are between it and a match. -/
theorem Apart.not_passing {passed : Nat} {symbol : Symbol} {rest : List Symbol}
    {found : Found Symbol}
    (fails : run (behind test pattern) some ⟨passed, symbol :: rest, []⟩ = none)
    (hit : searchFrom pattern (passed + 1) rest = some found)
    (passes : ∀ read ∈ found.skipped, test read = true) : test symbol = false := by
  by_contra pass
  have each : ∀ read ∈ symbol :: found.skipped, test read = true :=
    List.forall_mem_cons.mpr ⟨by simpa using pass, passes⟩
  obtain ⟨split, stop, moves, _⟩ := searchFrom_found hit
  have lead := ((matches_many test).mpr ⟨each, rfl⟩).moves passed
    (found.matched ++ found.rest) []
  have size : passed + (symbol :: found.skipped).length = passed + 1 + found.skipped.length := by
    rw [List.length_cons]
    omega
  rw [List.cons_append, ← split, size] at lead
  have leads := run_of_moves apart.proper_behind some _ _ (.seq lead moves) rfl
  rw [fails] at leads
  contradiction

/-- The search for the pattern behind passing symbols finds the match of the pattern, with what
passes in front of it. -/
theorem Apart.searchFrom_behind (passed : Nat) (text : List Symbol) :
    match searchFrom pattern passed text with
    | none => searchFrom (behind test pattern) passed text = none
    | some found => ∃ wider, searchFrom (behind test pattern) passed text = some wider ∧
        wider.skipped = found.skipped.rdropWhile test ∧ wider.rest = found.rest := by
  induction text generalizing passed with
  | nil =>
    rw [searchFrom_nil apart.reading]
    exact searchFrom_nil apart.reading_behind passed
  | cons symbol rest ih =>
    have whole : (symbol :: rest).takeWhile test ++ (symbol :: rest).dropWhile test =
        symbol :: rest := List.takeWhile_append_dropWhile
    generalize front : (symbol :: rest).takeWhile test = passing at whole
    generalize back : (symbol :: rest).dropWhile test = others at whole
    have passes : ∀ read ∈ passing, test read = true := by
      intro read inside
      rw [← front] at inside
      exact List.mem_takeWhile_imp inside
    have ends : ∀ read ∈ others.head?, test read = false := by
      intro read head
      rw [← back] at head
      have first := List.head?_dropWhile_not test (symbol :: rest)
      rw [Option.mem_def.mp head] at first
      simpa using first
    have run_wider : run (behind test pattern) some ⟨passed, passing ++ others, []⟩ =
        run pattern some ⟨passed + passing.length, others, []⟩ :=
      apart.run_behind passed passes ends []
    rw [whole] at run_wider
    cases here : run pattern some ⟨passed + passing.length, others, []⟩ with
    | some after =>
      rw [here] at run_wider
      have found := searchFrom_of_run here
      have narrow := apart.searchFrom_passing passed passes others
      rw [whole, found, Option.map_some] at narrow
      rw [narrow, searchFrom_of_run run_wider]
      refine ⟨_, rfl, ?_, rfl⟩
      simp only [List.append_nil]
      exact (List.rdropWhile_eq_nil_iff.mpr passes).symm
    | none =>
      rw [here] at run_wider
      have fails : run pattern some ⟨passed, symbol :: rest, []⟩ = none := by
        cases pass : test symbol with
        | true => exact apart.run_passing ⟨symbol, rfl, pass⟩
        | false =>
          have none_passing : passing = [] := by
            rw [← front, List.takeWhile_cons, pass]
            rfl
          rw [none_passing, List.nil_append] at whole
          rw [none_passing, whole] at here
          exact here
      have later := ih (passed + 1)
      rw [searchFrom_of_fail fails, searchFrom_of_fail run_wider]
      cases hit : searchFrom pattern (passed + 1) rest with
      | none =>
        rw [hit] at later
        rw [later]
        rfl
      | some found =>
        rw [hit] at later
        obtain ⟨wider, there, skipped, same⟩ := later
        rw [there]
        refine ⟨_, rfl, ?_, same⟩
        have stays : found.skipped.rdropWhile test = [] → test symbol = false := fun empty =>
          apart.not_passing run_wider hit (List.rdropWhile_eq_nil_iff.mp empty)
        show symbol :: wider.skipped = (symbol :: found.skipped).rdropWhile test
        rw [skipped]
        by_cases empty : found.skipped.rdropWhile test = []
        · have pass := stays empty
          have all := List.rdropWhile_eq_nil_iff.mp empty
          have front := rdropWhile_append_passing all [symbol]
          rw [List.singleton_append] at front
          rw [empty, front, List.rdropWhile_singleton, pass]
          rfl
        · exact (rdropWhile_append_some empty [symbol]).symm

/-- A text without a match has none behind passing symbols, and stays. -/
theorem Apart.replaceAll_none {replacement text : List Symbol}
    (absent : search pattern text = none) :
    replaceAll (behind test pattern) replacement text = text := by
  have wider := apart.searchFrom_behind 0 text
  rw [← search, absent] at wider
  exact Regex.replaceAll_none wider

/-- The first match is replaced with what passes in front of it, and then those in what follows. -/
theorem Apart.replaceAll_some {replacement text : List Symbol} {found : Found Symbol}
    (hit : search pattern text = some found) :
    replaceAll (behind test pattern) replacement text = found.skipped.rdropWhile test ++
      (replacement ++ replaceAll (behind test pattern) replacement found.rest) := by
  have wider := apart.searchFrom_behind 0 text
  rw [← search, hit] at wider
  obtain ⟨found', there, skipped, same⟩ := wider
  rw [Regex.replaceAll_some apart.free_behind apart.reading_behind there, skipped, same]

/-- What passes at the end of a text stays. -/
theorem Apart.replaceAll_end (replacement : List Symbol) {back : List Symbol}
    (passes : ∀ read ∈ back, test read = true) (text : List Symbol) :
    replaceAll (behind test pattern) replacement (text ++ back) =
      replaceAll (behind test pattern) replacement text ++ back := by
  have unread : ∀ symbol ∈ back.head?, pattern.Reads (· ≠ symbol) := by
    intro symbol head
    apply apart.reads.mono
    rintro read fails rfl
    rw [passes read (List.mem_of_mem_head? head)] at fails
    contradiction
  have alone : search pattern back = none := by
    have skipped := apart.searchFrom_passing 0 passes []
    rw [List.append_nil, searchFrom_nil apart.reading] at skipped
    exact skipped
  have both (text : List Symbol) := searchFrom_append apart.free apart.reading unread 0 0 text
  simp only [searchFrom_place apart.free apart.reading] at both
  induction text using search_induction apart.reading with
  | absent text none_here =>
    have whole := both text
    rw [none_here, alone] at whole
    rw [apart.replaceAll_none whole, apart.replaceAll_none none_here]
  | hit text found first ih =>
    have whole := both text
    rw [first] at whole
    rw [apart.replaceAll_some whole, apart.replaceAll_some first, ih]
    simp

/-- What passes at the start of a text stays or is removed, whatever it is. -/
theorem Apart.replaceAll_front (replacement text : List Symbol) :
    (∀ front : List Symbol, (∀ read ∈ front, test read = true) →
      replaceAll (behind test pattern) replacement (front ++ text) =
        replaceAll (behind test pattern) replacement text) ∨
    ((∀ front : List Symbol, (∀ read ∈ front, test read = true) →
      replaceAll (behind test pattern) replacement (front ++ text) =
        front ++ replaceAll (behind test pattern) replacement text) ∧
      (replaceAll (behind test pattern) replacement text).head? = text.head?) := by
  have wider : ∀ front : List Symbol, (∀ read ∈ front, test read = true) →
      search pattern (front ++ text) = (search pattern text).map fun found =>
        { found with skipped := front ++ found.skipped } := by
    intro front passes
    rw [search, apart.searchFrom_passing 0 passes, searchFrom_place apart.free apart.reading]
  cases hit : search pattern text with
  | none =>
    right
    constructor
    · intro front passes
      have absent := wider front passes
      rw [hit] at absent
      rw [apart.replaceAll_none absent, apart.replaceAll_none hit]
    · rw [apart.replaceAll_none hit]
  | some found =>
    by_cases empty : found.skipped.rdropWhile test = []
    · left
      intro front passes
      have there := wider front passes
      rw [hit] at there
      have all := List.rdropWhile_eq_nil_iff.mp empty
      rw [apart.replaceAll_some there, apart.replaceAll_some hit, empty,
        rdropWhile_append_passing all, List.rdropWhile_eq_nil_iff.mpr passes]
    · right
      constructor
      · intro front passes
        have there := wider front passes
        rw [hit] at there
        rw [apart.replaceAll_some there, apart.replaceAll_some hit,
          rdropWhile_append_some empty, List.append_assoc]
      · obtain ⟨whole, _⟩ := searchFrom_found hit
        rw [apart.replaceAll_some hit]
        obtain ⟨removed, split⟩ := found.skipped.rdropWhile_prefix test
        generalize found.skipped.rdropWhile test = kept at empty split
        cases kept with
        | nil => contradiction
        | cons first more =>
          rw [whole, ← split]
          rfl

end Blank

end Chitta.Regex
