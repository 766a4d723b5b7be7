import Chitta.Gateway.Capsule

/-!
# The canonical repository of a capsule

A repository below `/maps/projects/` is one below `/projects/`. The prefix is cut before the path
is made normal, so a path that only its normal form shows to be below `/maps/projects/` is not
canonical yet: it changes when it is canonicalised again, and the copy of such a capsule has another
key than the capsule.
-/
namespace Chitta.Gateway

open Ledger (Library repositoryKey lexicallyNormal mapsPrefix pathNames normalNames joinNames Plain)

/-- `canonical_repository`. -/
def canonicalRepository (path : String) : String :=
  let text := path.toList
  String.ofList (lexicallyNormal (if mapsPrefix.isPrefixOf text then text.drop 5 else text))

/-- A path without the first name of its prefix. -/
def cutPath (path : List Char) : List Char :=
  if mapsPrefix.isPrefixOf path then path.drop 5 else path

/-- The first two names of the prefix. -/
def mapsNames : List (List Char) := ["maps".toList, "projects".toList]

/-- A path leads from the root through `maps` to something in `projects`: these are the first of
the names that remain when `.` and `..` are resolved. -/
def Reenters (path : List Char) : Prop :=
  let (kept, taken) := normalNames (path.head? = some '/') (pathNames path []) [] false
  path.head? = some '/' ∧ kept.reverse.take 2 = mapsNames ∧
    (2 < kept.length ∨ taken = true ∨ path.getLast? = some '/')

instance (path : List Char) : Decidable (Reenters path) :=
  inferInstanceAs (Decidable (_ ∧ _ ∧ _))

/-- The canonical repository of a path stays as it is, is the key of the index, and a capsule of
that repository has the key of its stored copy. -/
def Canonical (path : String) : Prop :=
  canonicalRepository (canonicalRepository path) = canonicalRepository path ∧
    repositoryKey path = canonicalRepository path ∧
    ∀ (library : Library) (input cap : Json) (revision : Nat) (now : Rat),
      str input "repository" = path → capsuleV2 library input revision now = .ok cap →
        capsuleKey cap = capsuleKey input

/-! ## Normal paths with the prefix -/

/-- The names of a path with the prefix. -/
theorem pathNames_mapsPrefix (rest : List Char) :
    pathNames (mapsPrefix ++ rest) [] = mapsNames ++ pathNames rest [] := by
  have maps : Plain "maps".toList := by decide
  have projects : Plain "projects".toList := by decide
  have shape : mapsPrefix ++ rest =
      '/' :: ("maps".toList ++ '/' :: ("projects".toList ++ '/' :: rest)) := by
    rw [Ledger.mapsPrefix_eq]
    rfl
  rw [shape, pathNames, if_pos rfl, if_pos rfl, Ledger.pathNames_name maps,
    Ledger.pathNames_name projects]
  rfl

/-- A normal path has the prefix exactly when its first names are those of the prefix and do not
end it. -/
theorem mapsPrefix_joinNames {rooted ended : Bool} {kept : List (List Char)}
    (plain : ∀ name ∈ kept, Plain name) :
    mapsPrefix <+: joinNames rooted kept ended ↔
      rooted = true ∧ kept.reverse.take 2 = mapsNames ∧ (2 < kept.length ∨ ended = true) := by
  constructor
  · rintro ⟨rest, same⟩
    have long : mapsPrefix.length ≤ (joinNames rooted kept ended).length := by
      rw [← same, List.length_append]
      omega
    have size : mapsPrefix.length = 15 := by decide
    have some_names : kept ≠ [] := by
      rintro rfl
      cases rooted with
      | true => simp [joinNames, size] at long
      | false => simp [joinNames, size] at long
    have names := @Ledger.pathNames_joinNames rooted ended kept plain some_names
    rw [← same, pathNames_mapsPrefix] at names
    have others : ∀ name ∈ kept.reverse, Plain name := fun name inside =>
      plain name (List.mem_reverse.mp inside)
    obtain ⟨filled, head, _⟩ := Ledger.joined_ends others (by simpa using some_names)
    have root : rooted = true := by
      cases rooted with
      | true => rfl
      | false =>
        have start : (joinNames false kept ended).head? = some '/' := by
          rw [← same, Ledger.mapsPrefix_eq]
          rfl
        rw [joinNames, if_neg some_names, if_neg Bool.false_ne_true, List.nil_append,
          List.head?_append, Option.or_of_isSome (by simpa using filled)] at start
        exact absurd start head
    refine ⟨root, ?_, ?_⟩
    · rw [← names]
      rfl
    · cases more : pathNames rest [] with
      | cons name further =>
        left
        rw [← List.length_reverse, ← names, more, List.length_append, List.length_cons]
        show 2 < 2 + _
        omega
      | nil =>
        right
        rw [more, List.append_nil] at names
        have both : kept = mapsNames.reverse := by
          rw [names, List.reverse_reverse]
        cases ended with
        | true => rfl
        | false =>
          rw [both, root, size] at long
          have short : (joinNames true mapsNames.reverse false).length = 14 := by decide
          omega
  · rintro ⟨rfl, first, more⟩
    have split : kept.reverse = mapsNames ++ kept.reverse.drop 2 := by
      rw [← first, List.take_append_drop]
    have length : kept.length = 2 + (kept.reverse.drop 2).length := by
      rw [← List.length_reverse, split, List.length_append]
      rfl
    have some_names : kept ≠ [] := by
      rintro rfl
      simp [mapsNames] at first
    cases rest : kept.reverse.drop 2 with
    | nil =>
      rw [rest, List.length_nil] at length
      have ends : ended = true := by
        cases more with
        | inl longer => omega
        | inr ends => exact ends
      rw [rest, List.append_nil] at split
      have both : kept = mapsNames.reverse := by
        rw [← split, List.reverse_reverse]
      rw [both, ends]
      decide
    | cons third others =>
      rw [rest] at split
      rw [joinNames, if_neg some_names, split, Ledger.mapsPrefix_eq]
      simp only [mapsNames, List.cons_append, List.nil_append, List.intersperse_cons_cons,
        List.flatten_cons, if_true]
      refine ⟨((third :: others).intersperse ['/']).flatten ++
        (if ended && decide (kept.head? ≠ some ['.', '.']) then ['/'] else []), ?_⟩
      simp

/-- The normal form of a path has the prefix exactly when the path leads there. -/
theorem mapsPrefix_lexicallyNormal (path : List Char) :
    mapsPrefix <+: lexicallyNormal path ↔ Reenters path := by
  by_cases empty : path = []
  · subst empty
    decide
  · have plain : ∀ name ∈ (normalNames (path.head? = some '/') (pathNames path []) [] false).1,
        Plain name := Ledger.normalNames_plain (Ledger.pathNames_plain (by simp)) (by simp)
    rw [lexicallyNormal, if_neg empty]
    show mapsPrefix <+: joinNames _ _ _ ↔ _
    rw [mapsPrefix_joinNames plain, decide_eq_true_iff, Bool.or_eq_true, decide_eq_true_iff]
    rfl

/-! ## Canonical repositories -/

/-- Canonicalising again cuts the prefix that the normal form has. -/
theorem canonicalRepository_again (path : String) :
    canonicalRepository (canonicalRepository path) = canonicalRepository path ↔
      ¬Reenters (cutPath path.toList) := by
  have once : canonicalRepository path = String.ofList (lexicallyNormal (cutPath path.toList)) :=
    rfl
  have normal := Ledger.lexicallyNormal_again (cutPath path.toList)
  rw [← mapsPrefix_lexicallyNormal, once, canonicalRepository, String.toList_ofList]
  generalize lexicallyNormal (cutPath path.toList) = text at normal
  constructor
  · intro same has
    have shorter := (Ledger.lexicallyNormal_drop normal has).1
    have letters := congrArg String.toList same
    rw [String.toList_ofList, String.toList_ofList, if_pos (List.isPrefixOf_iff_prefix.mpr has),
      shorter] at letters
    have long := has.length_le
    have size : mapsPrefix.length = 15 := by decide
    have lengths := congrArg List.length letters
    rw [List.length_drop] at lengths
    omega
  · intro without
    have uncut : mapsPrefix.isPrefixOf text = false := by
      rw [Bool.eq_false_iff]
      intro has
      exact without (List.isPrefixOf_iff_prefix.mp has)
    rw [uncut, if_neg Bool.false_ne_true, normal]

/-- A repository is canonical exactly when its path does not lead below the prefix again. -/
theorem repository_canonical (path : String) : Canonical path ↔
    ¬Reenters (cutPath path.toList) := by
  rw [← canonicalRepository_again]
  constructor
  · intro canonical
    exact canonical.1
  · intro again
    refine ⟨again, rfl, ?_⟩
    intro library input cap revision now named stored
    have stable : Stable input := by
      rw [Stable, named]
      exact again
    exact capsuleKey_congr (keyOf_capsuleV2 stored stable)

example : ¬Reenters (cutPath "/maps/projects/a/./b/../c/.git/".toList) := by decide

/-- A doubled separator hides the prefix until the path is made normal. -/
theorem repository_not_canonical :
    canonicalRepository "/maps//projects/a/.git/" = "/maps/projects/a/.git/" ∧
      canonicalRepository (canonicalRepository "/maps//projects/a/.git/") =
        "/projects/a/.git/" ∧ ¬Canonical "/maps//projects/a/.git/" := by
  have first : canonicalRepository "/maps//projects/a/.git/" = "/maps/projects/a/.git/" := by decide
  have second : canonicalRepository "/maps/projects/a/.git/" = "/projects/a/.git/" := by decide
  refine ⟨first, ?_, ?_⟩
  · rw [first, second]
  · intro canonical
    have same := canonical.1
    rw [first, second] at same
    exact absurd same (by decide)

end Chitta.Gateway
