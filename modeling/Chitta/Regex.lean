/-!
# Patterns that are matched by backtracking

A pattern is tried at a place of a text. Where it can go on in several ways they are tried in a
fixed order, the first alternative before the second, a greedy repetition before its end; the first
way counts that also lets succeed what comes after the pattern. Groups record the parts of the text
that their bodies passed over. What a match passed over is described without the order of the
attempts by a relation; every match is one of its instances.
-/
namespace Chitta.Regex

/-- A pattern over symbols of any type. -/
inductive Pattern (Symbol : Type) where
  /-- Nothing is passed over. -/
  | nothing
  /-- One symbol that passes a test. -/
  | symbol (test : Symbol → Bool)
  /-- One pattern, then another. -/
  | seq (first second : Pattern Symbol)
  /-- The first pattern or, when that leads nowhere, the second. -/
  | either (first second : Pattern Symbol)
  /-- Any number of times, as often as possible when greedy, else as rarely as possible. -/
  | repeated (greedy : Bool) (body : Pattern Symbol)
  /-- The part that the body passes over is recorded. -/
  | group (number : Nat) (body : Pattern Symbol)
  /-- The start of the text. -/
  | atStart
  /-- The end of the text. -/
  | atEnd

/-- A place in a text. -/
structure Place (Symbol : Type) where
  /-- The number of symbols before it. -/
  passed : Nat
  /-- The symbols after it. -/
  rest : List Symbol
  /-- The recorded groups, the latest first. -/
  groups : List (Nat × List Symbol)

variable {Symbol Result : Type}

/-- A repetition of a body; an attempt that passes over nothing is not repeated. -/
def again (body : (Place Symbol → Option Result) → Place Symbol → Option Result) (greedy : Bool)
    (next : Place Symbol → Option Result) : Nat → Place Symbol → Option Result
  | 0, place => next place
  | count + 1, place =>
    let more := body fun after =>
      if after.rest.length < place.rest.length then again body greedy next count after else none
    if greedy then (more place).orElse fun _ => next place
    else (next place).orElse fun _ => more place

/-- The group that a body has passed over between two places. -/
def Place.record (number : Nat) (start stop : Place Symbol) : Place Symbol :=
  { stop with
    groups := (number, start.rest.take (start.rest.length - stop.rest.length)) :: stop.groups }

/-- The first way over the pattern after which `next` succeeds. -/
def run : Pattern Symbol → (Place Symbol → Option Result) → Place Symbol → Option Result
  | .nothing, next, place => next place
  | .symbol test, next, place =>
    match place.rest with
    | [] => none
    | symbol :: rest =>
      if test symbol then next { place with passed := place.passed + 1, rest } else none
  | .seq first second, next, place => run first (run second next) place
  | .either first second, next, place =>
    (run first next place).orElse fun _ => run second next place
  | .repeated greedy body, next, place =>
    again (fun next place => run body next place) greedy next place.rest.length place
  | .group number body, next, place =>
      run body (fun after => next (place.record number after)) place
  | .atStart, next, place => if place.passed = 0 then next place else none
  | .atEnd, next, place => if place.rest.isEmpty then next place else none

/-! ## Matching and searching -/

/-- The text of a group; empty when it was not recorded. -/
def groupText (groups : List (Nat × List Symbol)) (number : Nat) : List Symbol :=
  ((groups.find? fun group => group.1 == number).map (·.2)).getD []

/-- A match of the whole text: its groups. -/
def fullMatch (pattern : Pattern Symbol) (text : List Symbol) :
    Option (List (Nat × List Symbol)) :=
  run pattern (fun after => if after.rest.isEmpty then some after.groups else none) ⟨0, text, []⟩

/-- A match inside a text. -/
structure Found (Symbol : Type) where
  /-- What was passed by before the match. -/
  skipped : List Symbol
  /-- The match. -/
  matched : List Symbol
  /-- What comes after. -/
  rest : List Symbol
  /-- The groups. -/
  groups : List (Nat × List Symbol)

/-- The leftmost match, some symbols into a text. -/
def searchFrom (pattern : Pattern Symbol) (passed : Nat) (text : List Symbol) :
    Option (Found Symbol) :=
  match run pattern some ⟨passed, text, []⟩ with
  | some after =>
    some ⟨[], text.take (text.length - after.rest.length), after.rest, after.groups⟩
  | none =>
    match text with
    | [] => none
    | symbol :: rest =>
      (searchFrom pattern (passed + 1) rest).map fun found =>
        { found with skipped := symbol :: found.skipped }

/-- The leftmost match of a text. -/
def search (pattern : Pattern Symbol) (text : List Symbol) : Option (Found Symbol) :=
  searchFrom pattern 0 text

/-- The successive matches of a pattern that does not match nothing; there are at most `count`. -/
def findFrom (pattern : Pattern Symbol) : Nat → Nat → List Symbol → List (Found Symbol)
  | 0, _, _ => []
  | count + 1, passed, text =>
    match searchFrom pattern passed text with
    | none => []
    | some found =>
      found :: findFrom pattern count (passed + found.skipped.length + found.matched.length)
        found.rest

/-- The successive matches in a text. -/
def findAll (pattern : Pattern Symbol) (text : List Symbol) : List (Found Symbol) :=
  findFrom pattern text.length 0 text

/-- The text with other symbols in the place of every match. -/
def replaceAll (pattern : Pattern Symbol) (replacement text : List Symbol) : List Symbol :=
  let hits := findAll pattern text
  (hits.flatMap fun found => found.skipped ++ replacement) ++
    ((hits.getLast?.map (·.rest)).getD text)

/-! ## Common patterns -/

namespace Pattern

/-- These symbols in order. -/
def literal [DecidableEq Symbol] : List Symbol → Pattern Symbol
  | [] => nothing
  | head :: rest => seq (.symbol fun read => decide (read = head)) (literal rest)

/-- Patterns in order. -/
def all : List (Pattern Symbol) → Pattern Symbol
  | [] => nothing
  | [last] => last
  | first :: rest => seq first (all rest)

/-- The first of some patterns that leads on. -/
def oneOf : List (Pattern Symbol) → Pattern Symbol
  | [] => .symbol fun _ => false
  | [last] => last
  | first :: rest => either first (oneOf rest)

/-- Any number of times, as often as possible. -/
def many (body : Pattern Symbol) : Pattern Symbol := repeated true body

/-- Any number of times, as rarely as possible. -/
def few (body : Pattern Symbol) : Pattern Symbol := repeated false body

/-- At least once, as often as possible. -/
def more (body : Pattern Symbol) : Pattern Symbol := seq body (many body)

/-- Once if possible. -/
def maybe (body : Pattern Symbol) : Pattern Symbol := either body nothing

/-- A number of times. -/
def times : Nat → Pattern Symbol → Pattern Symbol
  | 0, _ => nothing
  | count + 1, body => seq body (times count body)

/-- At least a number of times, as often as possible. -/
def atLeast (count : Nat) (body : Pattern Symbol) : Pattern Symbol :=
  seq (times count body) (many body)

/-- At most a number of times, as often as possible. -/
def atMost : Nat → Pattern Symbol → Pattern Symbol
  | 0, _ => nothing
  | count + 1, body => maybe (seq body (atMost count body))

/-- No group is recorded. -/
def plain : Pattern Symbol → Bool
  | nothing | .symbol _ | atStart | atEnd => true
  | seq first second | either first second => plain first && plain second
  | repeated _ body => plain body
  | group _ _ => false

/-- Every symbol that a pattern reads has a property. -/
def Reads (property : Symbol → Prop) : Pattern Symbol → Prop
  | symbol test => ∀ read, test read = true → property read
  | seq first second | either first second => first.Reads property ∧ second.Reads property
  | repeated _ body | group _ body => body.Reads property
  | nothing | atStart | atEnd => True

/-- A pattern reads a symbol on every way over it. -/
def reading : Pattern Symbol → Bool
  | symbol _ => true
  | seq first second => first.reading || second.reading
  | either first second => first.reading && second.reading
  | group _ body => body.reading
  | nothing | repeated _ _ | atStart | atEnd => false

/-- The body of every repetition reads a symbol. -/
def proper : Pattern Symbol → Bool
  | seq first second | either first second => first.proper && second.proper
  | repeated _ body => body.reading && body.proper
  | group _ body => body.proper
  | nothing | symbol _ | atStart | atEnd => true

end Pattern

/-- A literal reads its symbols. -/
theorem reads_literal [DecidableEq Symbol] {property : Symbol → Prop} {text : List Symbol}
    (has : ∀ symbol ∈ text, property symbol) : (Pattern.literal text).Reads property := by
  induction text with
  | nil => trivial
  | cons head rest ih =>
    refine ⟨fun read same => ?_, ih fun other inside => has other (List.mem_cons_of_mem _ inside)⟩
    rw [of_decide_eq_true same]
    exact has head List.mem_cons_self

/-! ## What a match passes over -/

/-- A pattern leads from one place to another. -/
inductive Moves : Pattern Symbol → Place Symbol → Place Symbol → Prop
  | nothing (place : Place Symbol) : Moves .nothing place place
  | symbol {test : Symbol → Bool} {symbol : Symbol} (passed : Nat) (rest : List Symbol)
      (groups : List (Nat × List Symbol)) (passes : test symbol = true) :
      Moves (.symbol test) ⟨passed, symbol :: rest, groups⟩ ⟨passed + 1, rest, groups⟩
  | seq {first second : Pattern Symbol} {start middle stop : Place Symbol}
      (before : Moves first start middle) (after : Moves second middle stop) :
      Moves (.seq first second) start stop
  | first {first second : Pattern Symbol} {start stop : Place Symbol}
      (moves : Moves first start stop) : Moves (.either first second) start stop
  | second {first second : Pattern Symbol} {start stop : Place Symbol}
      (moves : Moves second start stop) : Moves (.either first second) start stop
  | done {greedy : Bool} {body : Pattern Symbol} (place : Place Symbol) :
      Moves (.repeated greedy body) place place
  | again {greedy : Bool} {body : Pattern Symbol} {start middle stop : Place Symbol}
      (once : Moves body start middle) (others : Moves (.repeated greedy body) middle stop) :
      Moves (.repeated greedy body) start stop
  | group {number : Nat} {body : Pattern Symbol} {start stop : Place Symbol}
      (moves : Moves body start stop) :
      Moves (.group number body) start (start.record number stop)
  | atStart (rest : List Symbol) (groups : List (Nat × List Symbol)) :
      Moves .atStart ⟨0, rest, groups⟩ ⟨0, rest, groups⟩
  | atEnd (passed : Nat) (groups : List (Nat × List Symbol)) :
      Moves .atEnd ⟨passed, [], groups⟩ ⟨passed, [], groups⟩

/-- A repetition that succeeds goes over its body a number of times. -/
theorem again_moves {greedy : Bool} {pattern : Pattern Symbol}
    {body : (Place Symbol → Option Result) → Place Symbol → Option Result}
    (sound : ∀ next place result, body next place = some result →
      ∃ after, Moves pattern place after ∧ next after = some result)
    {next : Place Symbol → Option Result} {count : Nat} {place : Place Symbol} {result : Result}
    (succeeds : again body greedy next count place = some result) :
    ∃ after, Moves (.repeated greedy pattern) place after ∧ next after = some result := by
  induction count generalizing place with
  | zero => exact ⟨place, .done place, succeeds⟩
  | succ count ih =>
    have ends : next place = some result →
        ∃ after, Moves (.repeated greedy pattern) place after ∧ next after = some result :=
      fun here => ⟨place, .done place, here⟩
    have continues : body (fun after => if after.rest.length < place.rest.length then
        again body greedy next count after else none) place = some result →
        ∃ after, Moves (.repeated greedy pattern) place after ∧ next after = some result := by
      intro goesOn
      obtain ⟨middle, once, later⟩ := sound _ _ _ goesOn
      split at later
      · obtain ⟨after, others, last⟩ := ih later
        exact ⟨after, .again once others, last⟩
      · contradiction
    simp only [again] at succeeds
    cases greedy with
    | true =>
      simp only [↓reduceIte] at succeeds
      rw [Option.orElse_eq_or] at succeeds
      rcases Option.or_eq_some_iff.mp succeeds with goesOn | ⟨_, here⟩
      · exact continues goesOn
      · exact ends here
    | false =>
      simp only [Bool.false_eq_true, ↓reduceIte] at succeeds
      rw [Option.orElse_eq_or] at succeeds
      rcases Option.or_eq_some_iff.mp succeeds with here | ⟨_, goesOn⟩
      · exact ends here
      · exact continues goesOn

/-- Every way that is found leads over the pattern. -/
theorem run_moves {pattern : Pattern Symbol} {next : Place Symbol → Option Result}
    {place : Place Symbol} {result : Result} (succeeds : run pattern next place = some result) :
    ∃ after, Moves pattern place after ∧ next after = some result := by
  induction pattern generalizing next place result with
  | nothing => exact ⟨place, .nothing place, succeeds⟩
  | symbol test =>
    obtain ⟨passed, rest, groups⟩ := place
    cases rest with
    | nil => contradiction
    | cons symbol rest =>
      simp only [run] at succeeds
      split at succeeds
      · rename_i passes
        exact ⟨_, .symbol passed rest groups passes, succeeds⟩
      · contradiction
  | seq first second ihFirst ihSecond =>
    obtain ⟨middle, before, later⟩ := ihFirst succeeds
    obtain ⟨after, behind, last⟩ := ihSecond later
    exact ⟨after, .seq before behind, last⟩
  | either first second ihFirst ihSecond =>
    rw [run, Option.orElse_eq_or] at succeeds
    rcases Option.or_eq_some_iff.mp succeeds with one | ⟨_, other⟩
    · obtain ⟨after, moves, last⟩ := ihFirst one
      exact ⟨after, .first moves, last⟩
    · obtain ⟨after, moves, last⟩ := ihSecond other
      exact ⟨after, .second moves, last⟩
  | repeated greedy body ih => exact again_moves (fun _ _ _ found => ih found) succeeds
  | group number body ih =>
    obtain ⟨after, moves, last⟩ := ih succeeds
    exact ⟨_, .group moves, last⟩
  | atStart =>
    obtain ⟨passed, rest, groups⟩ := place
    simp only [run] at succeeds
    split at succeeds
    · rename_i start
      subst start
      exact ⟨_, .atStart rest groups, succeeds⟩
    · contradiction
  | atEnd =>
    obtain ⟨passed, rest, groups⟩ := place
    simp only [run] at succeeds
    split at succeeds
    · rename_i stop
      obtain rfl := List.isEmpty_iff.mp stop
      exact ⟨_, .atEnd passed groups, succeeds⟩
    · contradiction

/-- A pattern passes over a first part of what is left. -/
theorem Moves.consumes {pattern : Pattern Symbol} {start stop : Place Symbol}
    (moves : Moves pattern start stop) : ∃ part, start.rest = part ++ stop.rest := by
  induction moves with
  | symbol => exact ⟨[_], rfl⟩
  | seq _ _ ihBefore ihAfter | again _ _ ihBefore ihAfter =>
    obtain ⟨part, before⟩ := ihBefore
    obtain ⟨others, after⟩ := ihAfter
    exact ⟨part ++ others, by rw [before, after, List.append_assoc]⟩
  | first _ ih => exact ih
  | second _ ih => exact ih
  | group _ ih => exact ih
  | _ => exact ⟨[], rfl⟩

/-- What a pattern passes over has the property of all that the pattern reads. -/
theorem Moves.reads {property : Symbol → Prop} {pattern : Pattern Symbol}
    {start stop : Place Symbol} (moves : Moves pattern start stop)
    (reads : pattern.Reads property) :
    ∃ part, start.rest = part ++ stop.rest ∧ ∀ symbol ∈ part, property symbol := by
  induction moves with
  | @symbol _ symbol _ _ _ passes => exact ⟨[symbol], rfl, by simpa using reads symbol passes⟩
  | seq _ _ ihBefore ihAfter =>
    obtain ⟨part, before, some_read⟩ := ihBefore reads.1
    obtain ⟨others, after, more_read⟩ := ihAfter reads.2
    exact ⟨part ++ others, by rw [before, after, List.append_assoc],
      List.forall_mem_append.mpr ⟨some_read, more_read⟩⟩
  | again _ _ ihBefore ihAfter =>
    obtain ⟨part, before, some_read⟩ := ihBefore reads
    obtain ⟨others, after, more_read⟩ := ihAfter reads
    exact ⟨part ++ others, by rw [before, after, List.append_assoc],
      List.forall_mem_append.mpr ⟨some_read, more_read⟩⟩
  | first _ ih => exact ih reads.1
  | second _ ih => exact ih reads.2
  | group _ ih => exact ih reads
  | _ => exact ⟨[], rfl, by simp⟩

/-- A pattern that reads a symbol on every way leaves less. -/
theorem Moves.shorter {pattern : Pattern Symbol} {start stop : Place Symbol}
    (moves : Moves pattern start stop) (reading : pattern.reading = true) :
    stop.rest.length < start.rest.length := by
  have no_longer {pattern : Pattern Symbol} {start stop : Place Symbol}
      (moves : Moves pattern start stop) : stop.rest.length ≤ start.rest.length := by
    obtain ⟨part, whole⟩ := moves.consumes
    rw [whole, List.length_append]
    exact Nat.le_add_left _ _
  induction moves with
  | symbol => exact Nat.lt_succ_self _
  | seq before after ihBefore ihAfter =>
    simp only [Pattern.reading, Bool.or_eq_true] at reading
    rcases reading with reading | reading
    · exact Nat.lt_of_le_of_lt (no_longer after) (ihBefore reading)
    · exact Nat.lt_of_lt_of_le (ihAfter reading) (no_longer before)
  | first _ ih =>
    simp only [Pattern.reading, Bool.and_eq_true] at reading
    exact ih reading.1
  | second _ ih =>
    simp only [Pattern.reading, Bool.and_eq_true] at reading
    exact ih reading.2
  | group _ ih => exact ih reading
  | done | again | nothing | atStart | atEnd => contradiction

/-- A repetition that leads on is found when the attempts of its body are. -/
theorem again_of_moves {greedy : Bool} {body : Pattern Symbol} {start stop : Place Symbol}
    (complete : ∀ (next : Place Symbol → Option Result) (place after : Place Symbol),
      Moves body place after → (next after).isSome = true → (run body next place).isSome = true)
    (reading : body.reading = true) (moves : Moves (.repeated greedy body) start stop)
    {next : Place Symbol → Option Result} (goesOn : (next stop).isSome = true) {count : Nat}
    (enough : start.rest.length ≤ count) :
    (again (fun next place => run body next place) greedy next count start).isSome = true := by
  generalize whole : Pattern.repeated greedy body = pattern at moves
  induction moves generalizing count with
  | done place =>
    cases count with
    | zero => exact goesOn
    | succ count =>
      rw [again]
      split
      · rw [Option.orElse_eq_or, Option.isSome_or, goesOn, Bool.or_true]
      · rw [Option.orElse_eq_or, Option.isSome_or, goesOn, Bool.true_or]
  | @again _ _ start middle stop once others _ ihOthers =>
    obtain ⟨rfl, rfl⟩ := Pattern.repeated.inj whole
    have less := once.shorter reading
    cases count with
    | zero => omega
    | succ count =>
      have rest := ihOthers goesOn (by omega : middle.rest.length ≤ count) rfl
      have more : (run body (fun after => if after.rest.length < start.rest.length then
          again (fun next place => run body next place) greedy next count after else none)
          start).isSome = true := by
        apply complete _ _ _ once
        rw [if_pos less]
        exact rest
      rw [again]
      split
      · rw [Option.orElse_eq_or, Option.isSome_or, more, Bool.true_or]
      · rw [Option.orElse_eq_or, Option.isSome_or, more, Bool.or_true]
  | _ => cases whole

/-- Where a pattern leads on, a way over it is found. -/
theorem run_of_moves {pattern : Pattern Symbol} (proper : pattern.proper = true)
    (next : Place Symbol → Option Result) (start stop : Place Symbol)
    (moves : Moves pattern start stop) (goesOn : (next stop).isSome = true) :
    (run pattern next start).isSome = true := by
  induction pattern generalizing next start stop with
  | nothing =>
    cases moves
    exact goesOn
  | symbol test =>
    cases moves with
    | symbol passed rest groups passes =>
      simp only [run, passes, ↓reduceIte]
      exact goesOn
  | seq first second ihFirst ihSecond =>
    rw [Pattern.proper, Bool.and_eq_true] at proper
    cases moves with
    | seq before after =>
      have later := ihSecond proper.2 next _ stop after goesOn
      exact ihFirst proper.1 _ start _ before later
  | either first second ihFirst ihSecond =>
    rw [Pattern.proper, Bool.and_eq_true] at proper
    rw [run, Option.orElse_eq_or, Option.isSome_or, Bool.or_eq_true]
    cases moves with
    | first moves => exact Or.inl (ihFirst proper.1 next start stop moves goesOn)
    | second moves => exact Or.inr (ihSecond proper.2 next start stop moves goesOn)
  | repeated greedy body ih =>
    rw [Pattern.proper, Bool.and_eq_true] at proper
    exact again_of_moves (fun next place after => ih proper.2 next place after) proper.1 moves
      goesOn (Nat.le_refl _)
  | group number body ih =>
    cases moves with
    | group moves => exact ih proper _ start _ moves goesOn
  | atStart =>
    cases moves
    exact goesOn
  | atEnd =>
    cases moves
    exact goesOn

/-- A whole text that a pattern leads over is matched. -/
theorem fullMatch_of_moves {pattern : Pattern Symbol} (proper : pattern.proper = true)
    {text : List Symbol} {stop : Place Symbol} (moves : Moves pattern ⟨0, text, []⟩ stop)
    (whole : stop.rest = []) : (fullMatch pattern text).isSome = true := by
  apply run_of_moves proper _ _ stop moves
  simp [whole]

/-- A text with a place from which a pattern leads on has a match. -/
theorem searchFrom_of_moves {pattern : Pattern Symbol} (proper : pattern.proper = true)
    {front rest : List Symbol} {passed : Nat} {stop : Place Symbol}
    (moves : Moves pattern ⟨passed + front.length, rest, []⟩ stop) :
    (searchFrom pattern passed (front ++ rest)).isSome = true := by
  induction front generalizing passed with
  | nil =>
    have found := run_of_moves proper some ⟨passed, rest, []⟩ stop moves rfl
    obtain ⟨after, here⟩ := Option.isSome_iff_exists.mp found
    rw [List.nil_append]
    cases rest <;> simp [searchFrom, here]
  | cons symbol front ih =>
    have place : passed + (symbol :: front).length = passed + 1 + front.length := by
      rw [List.length_cons]
      omega
    rw [place] at moves
    have later := ih moves
    rw [List.cons_append, searchFrom]
    split
    · rfl
    · rw [Option.isSome_map]
      exact later

/-- A match of the whole text leads over the pattern to its end. -/
theorem fullMatch_moves {pattern : Pattern Symbol} {text : List Symbol}
    {groups : List (Nat × List Symbol)} (found : fullMatch pattern text = some groups) :
    ∃ after, Moves pattern ⟨0, text, []⟩ after ∧ after.rest = [] ∧ after.groups = groups := by
  obtain ⟨after, moves, last⟩ := run_moves found
  split at last
  · rename_i stop
    exact ⟨after, moves, List.isEmpty_iff.mp stop, Option.some.inj last⟩
  · contradiction

/-- What is found inside a text is a part of it that leads over the pattern. -/
theorem searchFrom_found {pattern : Pattern Symbol} {passed : Nat} {text : List Symbol}
    {found : Found Symbol} (hit : searchFrom pattern passed text = some found) :
    text = found.skipped ++ (found.matched ++ found.rest) ∧
      ∃ stop, Moves pattern ⟨passed + found.skipped.length, found.matched ++ found.rest, []⟩ stop ∧
        stop.rest = found.rest ∧ stop.groups = found.groups := by
  have here {text : List Symbol} {passed : Nat} {stop : Place Symbol}
      (moves : Moves pattern ⟨passed, text, []⟩ stop) :
      text = text.take (text.length - stop.rest.length) ++ stop.rest := by
    obtain ⟨part, whole⟩ := moves.consumes
    simp only at whole
    rw [whole]
    simp
  induction text generalizing passed found with
  | nil =>
    rw [searchFrom] at hit
    split at hit
    · rename_i succeeds
      obtain rfl := Option.some.inj hit
      obtain ⟨stop, moves, last⟩ := run_moves succeeds
      obtain rfl := Option.some.inj last
      have whole := here moves
      rw [List.nil_append, ← whole]
      exact ⟨rfl, stop, moves, rfl, rfl⟩
    · contradiction
  | cons symbol rest ih =>
    rw [searchFrom] at hit
    split at hit
    · rename_i succeeds
      obtain rfl := Option.some.inj hit
      obtain ⟨stop, moves, last⟩ := run_moves succeeds
      obtain rfl := Option.some.inj last
      have whole := here moves
      rw [List.nil_append, ← whole]
      exact ⟨rfl, stop, moves, rfl, rfl⟩
    · obtain ⟨inner, there, same⟩ := Option.map_eq_some_iff.mp hit
      obtain ⟨whole, stop, moves, remains⟩ := ih there
      rw [← same]
      refine ⟨by rw [List.cons_append, ← whole], stop, ?_, remains⟩
      have place : passed + (inner.skipped.length + 1) = passed + 1 + inner.skipped.length := by
        omega
      simp only [List.length_cons]
      rw [place]
      exact moves

/-- A match inside a text leads over the pattern from some place of it. -/
theorem searchFrom_moves {pattern : Pattern Symbol} {passed : Nat} {text : List Symbol}
    {found : Found Symbol} (hit : searchFrom pattern passed text = some found) :
    ∃ count after, Moves pattern ⟨passed + count, text.drop count, []⟩ after := by
  obtain ⟨whole, stop, moves, _⟩ := searchFrom_found hit
  refine ⟨found.skipped.length, stop, ?_⟩
  rw [whole, List.drop_left]
  exact moves

/-- What is found has the property of all that the pattern reads. -/
theorem matched_reads {property : Symbol → Prop} {pattern : Pattern Symbol} {passed : Nat}
    {text : List Symbol} {found : Found Symbol}
    (hit : searchFrom pattern passed text = some found) (reads : pattern.Reads property) :
    ∀ symbol ∈ found.matched, property symbol := by
  obtain ⟨_, stop, moves, remains, _⟩ := searchFrom_found hit
  obtain ⟨part, whole, all⟩ := moves.reads reads
  rw [remains] at whole
  rw [List.append_cancel_right whole]
  exact all

/-- A match of a pattern that reads a symbol on every way is not empty. -/
theorem matched_ne_nil {pattern : Pattern Symbol} {passed : Nat} {text : List Symbol}
    {found : Found Symbol} (hit : searchFrom pattern passed text = some found)
    (reading : pattern.reading = true) : found.matched ≠ [] := by
  obtain ⟨_, stop, moves, remains, _⟩ := searchFrom_found hit
  have shorter := moves.shorter reading
  rw [remains, List.length_append] at shorter
  intro empty
  rw [empty, List.length_nil, Nat.zero_add] at shorter
  exact Nat.lt_irrefl _ shorter

/-- What a text and its replacement have in common: it holds when there is no match, and one
match more keeps it. -/
theorem replaceAll_rule {pattern : Pattern Symbol} {replacement : List Symbol}
    {common : List Symbol → List Symbol → Prop} (same : ∀ text, common text text)
    (match_more : ∀ text passed found out, searchFrom pattern passed text = some found →
      common found.rest out → common text (found.skipped ++ replacement ++ out))
    (text : List Symbol) : common text (replaceAll pattern replacement text) := by
  have rule (count passed : Nat) (text : List Symbol) :
      common text (((findFrom pattern count passed text).flatMap fun found =>
          found.skipped ++ replacement) ++
        (((findFrom pattern count passed text).getLast?.map (·.rest)).getD text)) := by
    induction count generalizing passed text with
    | zero => exact same text
    | succ count ih =>
      rw [findFrom]
      split
      · exact same text
      · rename_i found hit
        have later := match_more text passed found _ hit
          (ih (passed + found.skipped.length + found.matched.length) found.rest)
        rw [List.flatMap_cons, List.getLast?_cons, List.append_assoc, Option.map_some,
          Option.getD_some, ← Option.getD_map (fun found : Found Symbol => found.rest)]
        exact later
  exact rule text.length 0 text

/-- A pattern that records no group keeps the groups. -/
theorem Moves.groups_eq {pattern : Pattern Symbol} {start stop : Place Symbol}
    (moves : Moves pattern start stop) (plain : pattern.plain = true) :
    stop.groups = start.groups := by
  induction moves with
  | seq _ _ ihBefore ihAfter =>
    simp only [Pattern.plain, Bool.and_eq_true] at plain
    rw [ihAfter plain.2, ihBefore plain.1]
  | first _ ih =>
    simp only [Pattern.plain, Bool.and_eq_true] at plain
    exact ih plain.1
  | second _ ih =>
    simp only [Pattern.plain, Bool.and_eq_true] at plain
    exact ih plain.2
  | again _ _ ihOnce ihOthers => rw [ihOthers plain, ihOnce plain]
  | group => contradiction
  | _ => rfl

/-- A literal passes over its symbols and nothing else. -/
theorem Moves.literal [DecidableEq Symbol] {text : List Symbol} {start stop : Place Symbol}
    (moves : Moves (.literal text) start stop) :
    start.rest = text ++ stop.rest ∧ stop.groups = start.groups := by
  induction text generalizing start with
  | nil =>
    cases moves with
    | nothing => exact ⟨rfl, rfl⟩
  | cons symbol rest ih =>
    cases moves with
    | seq before after =>
      cases before with
      | symbol passed others groups passes =>
        obtain rfl := of_decide_eq_true passes
        obtain ⟨tail, same⟩ := ih after
        exact ⟨by simpa using tail, same⟩

/-- Patterns in order lead over the first one, then over the others. -/
theorem Moves.all_cons {first : Pattern Symbol} {rest : List (Pattern Symbol)}
    {start stop : Place Symbol} (moves : Moves (.all (first :: rest)) start stop) :
    ∃ middle, Moves first start middle ∧ Moves (.all rest) middle stop := by
  cases rest with
  | nil => exact ⟨stop, moves, .nothing stop⟩
  | cons second others =>
    cases moves with
    | seq before after => exact ⟨_, before, after⟩

/-- A group leads over its body and records what the body passed over. -/
theorem Moves.of_group {number : Nat} {body : Pattern Symbol} {start stop : Place Symbol}
    (moves : Moves (.group number body) start stop) :
    ∃ after part, Moves body start after ∧ start.rest = part ++ after.rest ∧
      stop.rest = after.rest ∧ stop.groups = (number, part) :: after.groups := by
  cases moves with
  | @group _ _ _ after within =>
    obtain ⟨part, passed⟩ := within.consumes
    refine ⟨after, part, within, passed, rfl, ?_⟩
    simp [Place.record, passed]

/-- The start of the text is its start. -/
theorem Moves.of_atStart {start stop : Place Symbol} (moves : Moves .atStart start stop) :
    start.passed = 0 ∧ stop = start := by
  cases moves with
  | atStart => exact ⟨rfl, rfl⟩

/-- A choice leads over one of its patterns. -/
theorem Moves.oneOf {patterns : List (Pattern Symbol)} {start stop : Place Symbol}
    (moves : Moves (.oneOf patterns) start stop) :
    ∃ pattern ∈ patterns, Moves pattern start stop := by
  induction patterns with
  | nil => cases moves with
    | symbol passed rest groups passes => contradiction
  | cons first rest ih =>
    cases rest with
    | nil => exact ⟨first, List.mem_cons_self, moves⟩
    | cons second others =>
      cases moves with
      | first moves => exact ⟨first, List.mem_cons_self, moves⟩
      | second moves =>
        obtain ⟨pattern, inside, moves⟩ := ih moves
        exact ⟨pattern, List.mem_cons_of_mem _ inside, moves⟩

end Chitta.Regex
