/-!
# Lexically normal paths

`lexically_normal` of the standard library on a POSIX system, over the characters of a path, and
the key under which the repository of a capsule is indexed.
-/
namespace Chitta.Ledger

/-- The names between the separators of a path, after the letters of a first name, which are
collected backwards; repeated separators count once. -/
def pathNames : List Char → List Char → List (List Char)
  | [], name => if name = [] then [] else [name.reverse]
  | char :: rest, name =>
    if char = '/' then
      if name = [] then pathNames rest [] else name.reverse :: pathNames rest []
    else pathNames rest (char :: name)

/-- The names that remain, the last one first, and whether the last name was taken away: `.` goes,
`..` goes with the name before it, and `..` goes at the root. -/
def normalNames (rooted : Bool) :
    List (List Char) → List (List Char) → Bool → List (List Char) × Bool
  | [], kept, taken => (kept, taken)
  | name :: rest, kept, _ =>
    if name = ['.'] then normalNames rooted rest kept true
    else if name = ['.', '.'] then
      match kept with
      | [] => normalNames rooted rest (if rooted then [] else [name]) rooted
      | last :: others =>
        if last = ['.', '.'] then normalNames rooted rest (name :: kept) false
        else normalNames rooted rest others true
    else normalNames rooted rest (name :: kept) false

/-- A path from its names, the last one first. A path ends with a separator unless it ends with
`..`. -/
def joinNames (rooted : Bool) (kept : List (List Char)) (ended : Bool) : List Char :=
  if kept = [] then if rooted then ['/'] else ['.']
  else
    (if rooted then ['/'] else []) ++ (kept.reverse.intersperse ['/']).flatten ++
      (if ended && kept.head? ≠ some ['.', '.'] then ['/'] else [])

/-- `path(text).lexically_normal().string()`. -/
def lexicallyNormal (text : List Char) : List Char :=
  if text = [] then []
  else
    let rooted : Bool := text.head? = some '/'
    let (kept, taken) := normalNames rooted (pathNames text []) [] false
    joinNames rooted kept (taken || text.getLast? = some '/')

/-- The prefix of a second name for the project file system. -/
def mapsPrefix : List Char := "/maps/projects/".toList

/-- `repository_key`, and `canonical_repository`, which has the same body. -/
def repositoryKey (path : String) : String :=
  let text := path.toList
  String.ofList (lexicallyNormal (if mapsPrefix.isPrefixOf text then text.drop 5 else text))

example : repositoryKey "/maps/projects/a/./b/../c/.git/" = "/projects/a/c/.git/" := by decide

/-! ## A normal path stays as it is -/

/-- A name between separators. -/
def Plain (name : List Char) : Prop := name ≠ [] ∧ '/' ∉ name

instance (name : List Char) : Decidable (Plain name) := inferInstanceAs (Decidable (_ ∧ _))

/-- The names that remain of a path, the last one first: none is `.`, and `..` stands only at the
beginning of a path without a root. -/
def Normal (rooted : Bool) : List (List Char) → Prop
  | [] => True
  | name :: others =>
    name ≠ ['.'] ∧ (name = ['.', '.'] → rooted = false ∧ ∀ other ∈ others, other = ['.', '.']) ∧
      Normal rooted others

/-- The letters of a name are collected. -/
theorem pathNames_append {name : List Char} (plain : '/' ∉ name) (rest before : List Char) :
    pathNames (name ++ rest) before = pathNames rest (name.reverse ++ before) := by
  induction name generalizing before with
  | nil => rfl
  | cons char others ih =>
    have apart : char ≠ '/' := fun same => plain (same ▸ List.mem_cons_self)
    have later : '/' ∉ others := fun inside => plain (List.mem_cons_of_mem _ inside)
    rw [List.cons_append, pathNames, if_neg apart, ih later, List.reverse_cons,
      List.append_assoc, List.singleton_append]

/-- A name before a separator. -/
theorem pathNames_name {name : List Char} (plain : Plain name) (rest : List Char) :
    pathNames (name ++ '/' :: rest) [] = name :: pathNames rest [] := by
  have some_letters : name.reverse ≠ [] := by simpa using plain.1
  rw [pathNames_append plain.2, List.append_nil, pathNames, if_pos rfl, if_neg some_letters,
    List.reverse_reverse]

/-- Names that are joined are found again, also with a separator at the end. -/
theorem pathNames_join {names : List (List Char)} (plain : ∀ name ∈ names, Plain name)
    {ending : List Char} (ends : ending = [] ∨ ending = ['/']) :
    pathNames ((names.intersperse ['/']).flatten ++ ending) [] = names := by
  induction names with
  | nil =>
    cases ends with
    | inl none_left => rw [none_left]; rfl
    | inr separator => rw [separator]; rfl
  | cons name rest ih =>
    obtain ⟨own, later⟩ := List.forall_mem_cons.mp plain
    cases rest with
    | nil =>
      have some_letters : name.reverse ≠ [] := by simpa using own.1
      cases ends with
      | inl none_left =>
        have found := pathNames_append own.2 [] []
        rw [List.append_nil, List.append_nil] at found
        simp [none_left, found, pathNames, own.1]
      | inr separator => 
        simpa [separator, pathNames] using pathNames_name own []
    | cons second others =>
      have shape : ((name :: second :: others).intersperse ['/']).flatten ++ ending =
          name ++ '/' :: (((second :: others).intersperse ['/']).flatten ++ ending) := by
        simp [List.intersperse_cons_cons]
      rw [shape, pathNames_name own, ih later]

/-- The names of a path are plain. -/
theorem pathNames_plain {text before : List Char} (plain : '/' ∉ before) :
    ∀ name ∈ pathNames text before, Plain name := by
  induction text generalizing before with
  | nil =>
    unfold pathNames
    split
    · simp
    · rename_i letters
      simp [Plain, letters, plain]
  | cons char rest ih =>
    unfold pathNames
    split
    · split
      · exact ih (by simp)
      · rename_i letters
        intro name inside
        cases List.mem_cons.mp inside with
        | inl own => exact own ▸ ⟨by simpa using letters, by simpa using plain⟩
        | inr later => exact ih (by simp) name later
    · rename_i apart
      exact ih (by simp [plain, Ne.symm apart])

/-- What remains of names is normal and consists of them. -/
theorem normalNames_normal {rooted : Bool} {names kept : List (List Char)} {taken : Bool}
    (normal : Normal rooted kept) :
    Normal rooted (normalNames rooted names kept taken).1 := by
  induction names generalizing kept taken with
  | nil => exact normal
  | cons name rest ih =>
    unfold normalNames
    split
    · exact ih normal
    · rename_i current
      split
      · rename_i parent
        split
        · apply ih
          cases rooted with
          | true => trivial
          | false => exact ⟨current, fun _ => ⟨rfl, by simp⟩, trivial⟩
        · rename_i last others
          have up := normal.2.1
          split
          · rename_i above
            apply ih
            refine ⟨current, fun _ => ⟨(up above).1, ?_⟩, normal⟩
            exact List.forall_mem_cons.mpr ⟨above, (up above).2⟩
          · exact ih normal.2.2
      · rename_i child
        exact ih ⟨current, fun parent => absurd parent child, normal⟩

/-- What remains of plain names is plain. -/
theorem normalNames_plain {rooted : Bool} {names kept : List (List Char)} {taken : Bool}
    (plain : ∀ name ∈ names, Plain name) (before : ∀ name ∈ kept, Plain name) :
    ∀ name ∈ (normalNames rooted names kept taken).1, Plain name := by
  induction names generalizing kept taken with
  | nil => exact before
  | cons name rest ih =>
    obtain ⟨own, later⟩ := List.forall_mem_cons.mp plain
    have longer : ∀ other ∈ name :: kept, Plain other := List.forall_mem_cons.mpr ⟨own, before⟩
    unfold normalNames
    split
    · exact ih later before
    · split
      · split
        · apply ih later
          cases rooted with
          | true => simp
          | false => simpa using own
        · split
          · exact ih later longer
          · exact ih later (List.forall_mem_cons.mp before).2
      · exact ih later longer

/-- Normal names remain. -/
theorem normalNames_reverse {rooted : Bool} {kept : List (List Char)} (normal : Normal rooted kept)
    (rest : List (List Char)) (taken : Bool) :
    normalNames rooted (kept.reverse ++ rest) [] taken =
      normalNames rooted rest kept (if kept = [] then taken else false) := by
  induction kept generalizing rest with
  | nil => rfl
  | cons name others ih =>
    obtain ⟨current, up, inner⟩ := normal
    rw [List.reverse_cons, List.append_assoc, List.singleton_append, ih inner,
      if_neg (List.cons_ne_nil name others)]
    generalize (if others = [] then taken else false) = before
    by_cases parent : name = ['.', '.']
    · obtain ⟨rootless, above⟩ := up parent
      cases others with
      | nil => simp [normalNames, parent, rootless]
      | cons last deeper => simp [normalNames, parent, above last List.mem_cons_self]
    · simp [normalNames, current, parent]

/-- The text of names neither starts nor ends with a separator. -/
theorem joined_ends {names : List (List Char)} (plain : ∀ name ∈ names, Plain name)
    (some_names : names ≠ []) :
    (names.intersperse ['/']).flatten ≠ [] ∧
      (names.intersperse ['/']).flatten.head? ≠ some '/' ∧
      (names.intersperse ['/']).flatten.getLast? ≠ some '/' := by
  induction names with
  | nil => contradiction
  | cons name rest ih =>
    obtain ⟨own, later⟩ := List.forall_mem_cons.mp plain
    have first : name.head? ≠ some '/' := fun found => own.2 (List.mem_of_head? found)
    have last : name.getLast? ≠ some '/' := fun found => own.2 (List.mem_of_getLast? found)
    cases rest with
    | nil => simpa using ⟨own.1, first, last⟩
    | cons second others =>
      obtain ⟨filled, _, ends⟩ := ih later (List.cons_ne_nil _ _)
      have shape : ((name :: second :: others).intersperse ['/']).flatten =
          name ++ '/' :: ((second :: others).intersperse ['/']).flatten := by
        simp [List.intersperse_cons_cons]
      rw [shape]
      generalize ((second :: others).intersperse ['/']).flatten = joined at filled ends
      refine ⟨by simp [own.1], ?_, ?_⟩
      · rw [List.head?_append, Option.or_of_isSome (by simpa using own.1)]
        exact first
      · rw [List.getLast?_append, Option.or_of_isSome (by simp)]
        rwa [List.getLast?_cons, List.getLast?_eq_some_getLast filled, Option.getD_some,
          ← List.getLast?_eq_some_getLast filled]

/-- The names of a path in its text. -/
theorem pathNames_joinNames {rooted ended : Bool} {kept : List (List Char)}
    (plain : ∀ name ∈ kept, Plain name) (some_names : kept ≠ []) :
    pathNames (joinNames rooted kept ended) [] = kept.reverse := by
  have others : ∀ name ∈ kept.reverse, Plain name := fun name inside =>
    plain name (List.mem_reverse.mp inside)
  have ends : (if (ended && decide (kept.head? ≠ some ['.', '.'])) = true then ['/'] else []) = [] ∨
      (if (ended && decide (kept.head? ≠ some ['.', '.'])) = true then ['/'] else []) = ['/'] := by
    split
    · exact .inr rfl
    · exact .inl rfl
  rw [joinNames, if_neg some_names]
  cases rooted with
  | false => exact pathNames_join others ends
  | true =>
    show pathNames (['/'] ++ _ ++ _) [] = _
    rw [List.append_assoc, List.singleton_append, pathNames, if_pos rfl, if_pos rfl]
    exact pathNames_join others ends

/-- The text of normal names is normal. -/
theorem lexicallyNormal_joinNames {rooted ended : Bool} {kept : List (List Char)}
    (plain : ∀ name ∈ kept, Plain name) (normal : Normal rooted kept) :
    lexicallyNormal (joinNames rooted kept ended) = joinNames rooted kept ended := by
  by_cases none_left : kept = []
  · subst none_left
    cases rooted with
    | true => rfl
    | false => rfl
  · have others : ∀ name ∈ kept.reverse, Plain name := fun name inside =>
      plain name (List.mem_reverse.mp inside)
    obtain ⟨filled, first, last⟩ := joined_ends others (by simpa using none_left)
    have names : pathNames (joinNames rooted kept ended) [] = kept.reverse :=
      pathNames_joinNames plain none_left
    have remain := normalNames_reverse normal [] false
    rw [List.append_nil, if_neg none_left] at remain
    have rest : normalNames rooted [] kept false = (kept, false) := rfl
    rw [rest] at remain
    have text : joinNames rooted kept ended =
        (if rooted = true then ['/'] else []) ++ (kept.reverse.intersperse ['/']).flatten ++
          (if (ended && decide (kept.head? ≠ some ['.', '.'])) = true then ['/'] else []) := by
      rw [joinNames, if_neg none_left]
    have root : decide ((joinNames rooted kept ended).head? = some '/') = rooted := by
      rw [text]
      generalize (kept.reverse.intersperse ['/']).flatten = joined at filled first
      cases rooted with
      | true => simp
      | false =>
        rw [List.head?_append, Option.or_of_isSome (by simpa using filled)]
        simpa using first
    have ends : decide ((joinNames rooted kept ended).getLast? = some '/') =
        (ended && decide (kept.head? ≠ some ['.', '.'])) := by
      rw [text]
      generalize (kept.reverse.intersperse ['/']).flatten = joined at filled last
      cases (ended && decide (kept.head? ≠ some ['.', '.'])) with
      | true => simp
      | false =>
        simpa [List.getLast?_append, filled] using last
    have long : joinNames rooted kept ended ≠ [] := by
      rw [text]
      simp [filled]
    unfold lexicallyNormal
    rw [if_neg long]
    simp only [root, names, remain, Bool.false_or, ends]
    rw [text, joinNames, if_neg none_left]
    simp

/-- A normal path is the text of normal names. -/
theorem lexicallyNormal_cases (text : List Char) : lexicallyNormal text = [] ∨
    ∃ rooted kept ended, lexicallyNormal text = joinNames rooted kept ended ∧
      (∀ name ∈ kept, Plain name) ∧ Normal rooted kept := by
  unfold lexicallyNormal
  split
  · exact .inl rfl
  · refine .inr ⟨_, _, _, rfl, ?_, normalNames_normal trivial⟩
    exact normalNames_plain (pathNames_plain (by simp)) (by simp)

/-- Normalizing twice is normalizing once. -/
theorem lexicallyNormal_again (text : List Char) :
    lexicallyNormal (lexicallyNormal text) = lexicallyNormal text := by
  cases lexicallyNormal_cases text with
  | inl empty => rw [empty]; rfl
  | inr names =>
    obtain ⟨rooted, kept, ended, same, plain, normal⟩ := names
    rw [same, lexicallyNormal_joinNames plain normal]

/-- The names above a name are normal. -/
theorem Normal.above {rooted : Bool} {kept : List (List Char)} {first : List Char}
    (normal : Normal rooted (kept ++ [first])) : Normal rooted kept := by
  induction kept with
  | nil => trivial
  | cons name others ih =>
    obtain ⟨current, up, inner⟩ := normal
    exact ⟨current, fun parent => ⟨(up parent).1, fun other inside =>
      (up parent).2 other (List.mem_append_left _ inside)⟩, ih inner⟩

/-- The text of names with a first one. -/
theorem joinNames_first {kept : List (List Char)} (some_names : kept ≠ []) (first : List Char)
    (ended : Bool) :
    joinNames true (kept ++ [first]) ended = '/' :: first ++ joinNames true kept ended := by
  have head : (kept ++ [first]).head? = kept.head? := by
    rw [List.head?_append, Option.or_of_isSome (by simpa using some_names)]
  obtain ⟨name, others, same⟩ := List.exists_cons_of_ne_nil
    (show kept.reverse ≠ [] by simpa using some_names)
  rw [joinNames, joinNames, if_neg some_names, if_neg (by simp), head, List.reverse_append, same]
  simp [List.intersperse_cons_cons]

/-- A normal path with two names at the root stays normal without the first one. -/
theorem lexicallyNormal_below {first second : List Char} (one : Plain first) (two : Plain second)
    {rest : List Char}
    (normal : lexicallyNormal ('/' :: first ++ '/' :: (second ++ '/' :: rest)) =
      '/' :: first ++ '/' :: (second ++ '/' :: rest)) :
    lexicallyNormal ('/' :: (second ++ '/' :: rest)) = '/' :: (second ++ '/' :: rest) := by
  generalize text_eq : '/' :: first ++ '/' :: (second ++ '/' :: rest) = text at normal
  have names : pathNames text [] = first :: second :: pathNames rest [] := by
    rw [← text_eq, List.cons_append, pathNames, if_pos rfl, if_pos rfl, pathNames_name one,
      pathNames_name two]
  cases lexicallyNormal_cases text with
  | inl empty =>
    rw [normal, ← text_eq] at empty
    contradiction
  | inr found =>
    obtain ⟨rooted, kept, ended, same, plain, inner⟩ := found
    rw [normal] at same
    have some_names : kept ≠ [] := by
      rintro rfl
      have short := congrArg (fun text => (pathNames text []).length) same
      cases rooted with
      | true => simp [names, joinNames, pathNames] at short
      | false => simp [names, joinNames, pathNames] at short
    rw [same, pathNames_joinNames plain some_names] at names
    have split : kept = (second :: pathNames rest []).reverse ++ [first] := by
      rw [← List.reverse_cons, ← names, List.reverse_reverse]
    have root : rooted = true := by
      cases rooted with
      | true => rfl
      | false =>
        have others : ∀ name ∈ kept.reverse, Plain name := fun name inside =>
          plain name (List.mem_reverse.mp inside)
        obtain ⟨filled, head, _⟩ := joined_ends others (by simpa using some_names)
        have start : text.head? = some '/' := by rw [← text_eq]; rfl
        rw [same, joinNames, if_neg some_names, if_neg Bool.false_ne_true, List.nil_append,
          List.head?_append, Option.or_of_isSome (by simpa using filled)] at start
        exact absurd start head
    subst root
    have filled : (second :: pathNames rest []).reverse ≠ [] := by simp
    have below := joinNames_first filled first ended
    rw [← split, ← same, ← text_eq] at below
    have tail : '/' :: (second ++ '/' :: rest) =
        joinNames true (second :: pathNames rest []).reverse ended := by
      simpa using below
    rw [tail]
    apply lexicallyNormal_joinNames
    · intro name inside
      exact plain name (by rw [split]; exact List.mem_append_left _ inside)
    · exact (split ▸ inner).above

/-- The prefix, by its names. -/
theorem mapsPrefix_eq : mapsPrefix =
    '/' :: ['m', 'a', 'p', 's'] ++ '/' :: (['p', 'r', 'o', 'j', 'e', 'c', 't', 's'] ++ ['/']) := by
  decide

/-- A normal path with the prefix stays normal without its first name. -/
theorem lexicallyNormal_drop {text : List Char} (normal : lexicallyNormal text = text)
    (has : mapsPrefix <+: text) :
    lexicallyNormal (text.drop 5) = text.drop 5 ∧ mapsPrefix.isPrefixOf (text.drop 5) = false := by
  obtain ⟨rest, same⟩ := has
  have names : text = '/' :: ['m', 'a', 'p', 's'] ++
      '/' :: (['p', 'r', 'o', 'j', 'e', 'c', 't', 's'] ++ '/' :: rest) := by
    rw [← same, mapsPrefix_eq]
    rfl
  constructor
  · rw [names] at normal ⊢
    exact lexicallyNormal_below (by decide) (by decide) normal
  · rw [names, mapsPrefix_eq]
    rfl

/-- A repository that was found through a normal path is its own key. -/
theorem repositoryKey_normal (path : List Char) :
    repositoryKey (repositoryKey (String.ofList (lexicallyNormal path))) =
      repositoryKey (String.ofList (lexicallyNormal path)) := by
  have normal := lexicallyNormal_again path
  generalize lexicallyNormal path = text at normal
  simp only [repositoryKey, String.toList_ofList]
  cases second : mapsPrefix.isPrefixOf text with
  | false => simp [normal, second]
  | true =>
    obtain ⟨below, first⟩ := lexicallyNormal_drop normal (List.isPrefixOf_iff_prefix.mp second)
    simp only [if_true, below, first, Bool.false_eq_true, if_false]

end Chitta.Ledger
