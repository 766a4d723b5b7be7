import Mathlib.Data.Finset.Card
import Chitta.Ancestry
import Chitta.Ledger.Leases

/-!
# The lineage of an artifact

The daemon answers with at most a hundred artifacts of a lineage and the id that follows; the client
asks again from there until no id follows or an artifact comes up again. Each side guards against
cycles: the daemon within a page, the client across the pages.
-/
namespace Chitta.Ledger

open Ancestry

variable {library : Library} {ledger : TaskLedger}

/-! ## The client -/

/-- `_rpc` for a page: none when the daemon throws. -/
def lineagePage (ledger : TaskLedger) (id : String) : Option Json :=
  match artifactLineage ledger (.object [("artifact_id", .str id)]) with
  | .ok (.answer page) => some page
  | _ => none

/-- The rows of a page up to the first one that was seen, what is seen after them, and whether there
was such a row. -/
def takeRows : List String → List Json → Except Thrown (List Json × List String × Bool)
  | seen, [] => .ok ([], seen, false)
  | seen, row :: rest => do
    let id ← (← row.at "artifact_id").getString
    if id ∈ seen then return ([], seen, true)
    let (rows, after, repeated) ← takeRows (id :: seen) rest
    return (row :: rows, after, repeated)

/-- What the client takes from a page, and the id that follows. -/
def readPage (seen : List String) (page : Json) :
    Except Thrown (List Json × List String × Bool × String) := do
  match ← page.at "rows" with
  | .arr items => do
    let (rows, after, repeated) ← takeRows seen items
    let next ← page.valueString "next_id" ""
    return (rows, after, repeated, next)
  | _ => .error (.typeError 302)

/-- The loop of the client, with a bound on the number of its turns. -/
def lineageLoop (ledger : TaskLedger) :
    Nat → String → List String → List Json → Option (Except Thrown (List Json))
  | 0, _, _, _ => none
  | turns + 1, id, seen, rows =>
    if id = "" ∨ id ∈ seen then some (.ok rows)
    else
      match lineagePage ledger id with
      | none => some (.ok [])
      | some page =>
        match readPage seen page with
        | .error thrown => some (.error thrown)
        | .ok (taken, _, true, _) => some (.ok (rows ++ taken))
        | .ok (taken, after, false, next) => lineageLoop ledger turns next after (rows ++ taken)

/-- `artifact_lineage` of the client. -/
def clientLineage (ledger : TaskLedger) (turns : Nat) (id : String) :
    Option (Except Thrown (List Json)) :=
  lineageLoop ledger turns id [] []

/-! ## The graph of the parents -/

/-- The parent of a stored artifact. -/
def TaskLedger.parentOf (ledger : TaskLedger) (id : String) : Option (Option String) :=
  (Assoc.lookup id (ledger.tables .artifacts).rows).map fun row =>
    match row.find "parent_artifact_id" with
    | some (.str parent) => some parent
    | _ => none

/-- The same, when the empty id names no artifact. -/
def TaskLedger.namedParentOf (ledger : TaskLedger) (id : String) : Option (Option String) :=
  if id = "" then none else ledger.parentOf id

/-- The row of an artifact. -/
def TaskLedger.artifact (ledger : TaskLedger) (id : String) : Json :=
    (ledger.tables .artifacts).get id

/-- The parent of a stored artifact is a text or null. -/
theorem TaskLedger.Valid.parent (valid : ledger.Valid library) {id : String} {row : Json}
    (stored : ledger.Stored .artifacts id row) :
    ∃ next, ledger.parentOf id = some next ∧ Ledger.parentOf row = .ok (next.getD "") := by
  obtain ⟨present, checked⟩ := valid.checked .artifacts id row stored
  obtain ⟨value, found, fitting⟩ :=
    validateRow_fitting checked present
      (show "parent_artifact_id" ∈ TableName.artifacts.keys by decide)
  have read : row.field "parent_artifact_id" = .ok value := by
    cases row with
    | obj fields =>
      simp only [Json.find] at found
      simp [Json.field, found]
    | _ => contradiction
  have inside : ledger.parentOf id = some (match (some value : Option Json) with
      | some (.str parent) => some parent
      | _ => none) := by
    rw [TaskLedger.parentOf, show Assoc.lookup id _ = some row from stored, Option.map_some, found]
  cases value with
  | null =>
    refine ⟨none, inside, ?_⟩
    rw [Ledger.parentOf, read]
    rfl
  | str parent =>
    refine ⟨some parent, inside, ?_⟩
    rw [Ledger.parentOf, read]
    rfl
  | _ => simp [Fitting, Json.isNull, Json.isString, numeric] at fitting

/-- An artifact that is not stored has no parent. -/
theorem parentOf_absent {id : String} (absent : (ledger.artifact id).isNull = true)
    (valid : ledger.Valid library) : ledger.parentOf id = none := by
  cases found : Assoc.lookup id (ledger.tables .artifacts).rows with
  | none => simp [TaskLedger.parentOf, found]
  | some row =>
    have present := (valid.checked .artifacts id row found).1
    simp [TaskLedger.artifact, Table.get, found, present] at absent

/-! ## One page -/

/-- Where a walk goes on: the empty id stands for none. -/
def Follows (ledger : TaskLedger) (seen : List String) (id : String) (ids : List String) : Prop :=
  Chain ledger.namedParentOf seen (some id) ids

/-- Nothing follows the empty id. -/
theorem follows_empty {seen ids : List String} : Follows ledger seen "" ids ↔ ids = [] := by
  have absent : ledger.namedParentOf "" = none := by simp [TaskLedger.namedParentOf]
  constructor
  · exact fun chain => chain.of_missing absent
  · rintro rfl
    exact .missing absent

/-- What follows the parent of an artifact. -/
theorem Follows.parent {seen ids : List String} {next : Option String}
    (follows : Follows ledger seen (next.getD "") ids) :
    Chain ledger.namedParentOf seen next ids := by
  cases next with
  | none =>
    obtain rfl := follows_empty.mp follows
    exact .root
  | some parent => exact follows

/-- What the client makes of a page: it has the artifacts up to one that it has seen, or all of
them, and what follows the page completes the chain. -/
structure PageRead (ledger : TaskLedger) (seen : List String) (id : String) (rows : List Json)
    (last : String) where
  /-- The artifacts that are taken. -/
  ids : List String
  /-- One of the rows was seen. -/
  repeated : Bool
  /-- Their rows are taken. -/
  taken : takeRows seen rows = .ok (ids.map ledger.artifact, ids.reverse ++ seen, repeated)
  /-- A repetition ends the chain. -/
  ended : repeated = true → Follows ledger seen id ids
  /-- Otherwise the chain goes on behind the page. -/
  goesOn : repeated = false → ∀ rest, Follows ledger (ids.reverse ++ seen) last rest →
    Follows ledger seen id (ids ++ rest)
  /-- The first artifact is taken unless it was seen. -/
  first : rows ≠ [] → id ∉ seen → id ∈ ids

/-- The page of a walk. -/
theorem lineageRows_read (valid : ledger.Valid library) (limit : Nat) (id : String)
    (page seen : List String) (inside : ∀ earlier ∈ page, earlier ∈ seen) :
    ∃ rows last, lineageRows ledger limit id page = .ok (rows, last) ∧
      Nonempty (PageRead ledger seen id rows last) := by
  induction limit generalizing id page seen with
  | zero => exact ⟨[], id, rfl, ⟨⟨[], false, rfl, nofun, fun _ _ rest => rest, by simp⟩⟩⟩
  | succ limit ih =>
    rw [lineageRows]
    by_cases done : id = "" ∨ id ∈ page
    · rw [if_pos done]
      exact ⟨[], id, rfl, ⟨⟨[], false, rfl, nofun, fun _ _ rest => rest, by simp⟩⟩⟩
    · rw [if_neg done]
      obtain ⟨named, unseen⟩ := not_or.mp done
      by_cases absent : ((ledger.tables .artifacts).get id).isNull = true
      · rw [if_pos absent]
        have missing : ledger.namedParentOf id = none := by
          rw [TaskLedger.namedParentOf, if_neg named, parentOf_absent absent valid]
        refine ⟨[], "", rfl, ⟨⟨[], false, rfl, nofun, fun _ rest follows => ?_, by simp⟩⟩⟩
        obtain rfl := follows_empty.mp follows
        exact .missing missing
      · rw [if_neg absent]
        have stored : ledger.Stored .artifacts id (ledger.artifact id) :=
          stored_of_get (by simpa using absent)
        obtain ⟨next, known, read⟩ := valid.parent stored
        have known : ledger.namedParentOf id = some next := by
          rw [TaskLedger.namedParentOf, if_neg named, known]
        obtain ⟨rows, last, walked, ⟨⟨ids, repeated, taken, ended, goesOn, _⟩⟩⟩ :=
          ih (next.getD "") (id :: page) (id :: seen) (by
            intro earlier there
            rcases List.mem_cons.mp there with rfl | among
            · exact List.mem_cons_self
            · exact List.mem_cons_of_mem _ (inside earlier among))
        refine ⟨ledger.artifact id :: rows, last, ?_, ?_⟩
        · rw [TaskLedger.artifact] at read ⊢
          simp only [read, walked, bind, Except.bind]
          rfl
        · have key : ((ledger.artifact id).at "artifact_id") = .ok (.str id) :=
            Json.at_of_find (valid.key stored)
          by_cases before : id ∈ seen
          · refine ⟨⟨[], true, ?_, fun _ => .repeated before, nofun,
              fun _ fresh => absurd before fresh⟩⟩
            simp only [takeRows, key, Json.getString, before, bind, Except.bind, if_true]
            rfl
          · refine ⟨⟨id :: ids, repeated, ?_, ?_, ?_, fun _ _ => List.mem_cons_self⟩⟩
            · simp only [takeRows, key, Json.getString, before, taken, bind, Except.bind, if_false]
              simp [pure, Except.pure]
            · intro again
              exact .step before known (ended again).parent
            · intro fresh rest follows
              refine .step before known (goesOn fresh rest ?_).parent
              simpa using follows

/-! ## All pages -/

/-- The stored artifacts that the client has not seen. -/
def unseen (ledger : TaskLedger) (seen : List String) : Finset String :=
  ((ledger.tables .artifacts).rows.map (·.1)).toFinset \ seen.toFinset

/-- A page that begins with a stored artifact leaves fewer unseen. -/
theorem unseen_lt {id : String} {ids seen : List String} (stored : ledger.parentOf id ≠ none)
    (fresh : id ∉ seen) (taken : id ∈ ids) :
    (unseen ledger (ids.reverse ++ seen)).card < (unseen ledger seen).card := by
  apply Finset.card_lt_card
  rw [Finset.ssubset_iff_of_subset]
  · refine ⟨id, ?_, ?_⟩
    · cases found : Assoc.lookup id (ledger.tables .artifacts).rows with
      | none => simp [TaskLedger.parentOf, found] at stored
      | some row =>
        have inside := List.mem_map_of_mem (f := (·.1)) (Assoc.mem_of_lookup found)
        simpa [unseen, fresh] using inside
    · simp [unseen, taken]
  · intro other there
    simp only [unseen, List.toFinset_append, List.toFinset_reverse, Finset.mem_sdiff,
      Finset.mem_union, not_or] at there ⊢
    exact ⟨there.1, there.2.2⟩

/-- A page is empty only when nothing is stored under its id, and then no id follows. -/
theorem lineageRows_first (valid : ledger.Valid library) {limit : Nat} {id last : String}
    {rows : List Json} (named : id ≠ "")
    (walked : lineageRows ledger (limit + 1) id [] = .ok (rows, last)) :
    rows = [] ∧ last = "" ∨ rows ≠ [] ∧ ledger.parentOf id ≠ none := by
  rw [lineageRows, if_neg (by simp [named])] at walked
  by_cases absent : ((ledger.tables .artifacts).get id).isNull = true
  · rw [if_pos absent] at walked
    obtain ⟨rfl, rfl⟩ := Prod.mk.inj (Except.ok.inj walked)
    exact .inl ⟨rfl, rfl⟩
  · rw [if_neg absent] at walked
    obtain ⟨next, _, walked⟩ := bind_ok walked
    obtain ⟨later, _, walked⟩ := bind_ok walked
    obtain ⟨rfl, rfl⟩ := Prod.mk.inj (Except.ok.inj walked)
    obtain ⟨_, known, _⟩ := valid.parent (stored_of_get (by simpa using absent))
    exact .inr ⟨by simp, by simp [known]⟩

/-- The answer to a request, read by the client. -/
theorem lineagePage_read (valid : ledger.Valid library) (id : String) (seen : List String) :
    ∃ page rows last, lineagePage ledger id = some page ∧
      lineageRows ledger 100 id [] = .ok (rows, last) ∧
      ∃ read : PageRead ledger seen id rows last, readPage seen page =
        .ok (read.ids.map ledger.artifact, read.ids.reverse ++ seen, read.repeated, last) := by
  obtain ⟨rows, last, walked, ⟨read⟩⟩ := lineageRows_read valid 100 id [] seen (by simp)
  have answered : artifactLineage ledger (.object [("artifact_id", .str id)]) =
      .ok (.answer (.object [("rows", .arr rows), ("next_id", .str last)])) := by
    have asked : idarg (.object [("artifact_id", .str id)]) "artifact_id" = .ok id := rfl
    rw [artifactLineage, asked]
    simp only [walked, bind, Except.bind, pure, Except.pure]
  refine ⟨_, rows, last, by rw [lineagePage, answered], walked, read, ?_⟩
  have rowsRead : (Json.object [("rows", .arr rows), ("next_id", .str last)]).at "rows" =
      .ok (.arr rows) := Json.at_of_find (by rw [Json.find_object]; rfl)
  have nextRead : (Json.object [("rows", .arr rows), ("next_id", .str last)]).valueString
      "next_id" "" = .ok last := by
    have found : (Json.object [("rows", .arr rows), ("next_id", .str last)]).find "next_id" =
        some (.str last) := by
      rw [Json.find_object]
      rfl
    rw [Json.valueString, Json.valueWith_of_find found]
    rfl
  rw [readPage, rowsRead]
  simp only [read.taken, nextRead, bind, Except.bind, pure, Except.pure]

/-- With enough turns the loop returns and adds the chain. -/
theorem lineageLoop_chain (valid : ledger.Valid library) {turns : Nat} (id : String)
    (seen : List String) (rows : List Json) (enough : (unseen ledger seen).card + 2 ≤ turns) :
    ∃ ids, Follows ledger seen id ids ∧
      lineageLoop ledger turns id seen rows = some (.ok (rows ++ ids.map ledger.artifact)) := by
  induction turns generalizing id seen rows with
  | zero => omega
  | succ turns ih =>
    -- a page that leaves the loop going has taken an artifact that was unseen
    rw [lineageLoop]
    by_cases done : id = "" ∨ id ∈ seen
    · rw [if_pos done]
      refine ⟨[], ?_, by simp⟩
      rcases done with rfl | before
      · exact follows_empty.mpr rfl
      · exact .repeated before
    · rw [if_neg done]
      obtain ⟨named, fresh⟩ := not_or.mp done
      obtain ⟨page, items, last, answered, walked, read, client⟩ := lineagePage_read valid id seen
      rw [answered]
      dsimp only
      rw [client]
      cases repeated : read.repeated with
      | true => exact ⟨read.ids, read.ended repeated, rfl⟩
      | false =>
        dsimp only
        rcases lineageRows_first valid named walked with ⟨rfl, rfl⟩ | ⟨some_rows, stored⟩
        · have none_taken : read.ids = [] := by
            have taken := congrArg (Except.map (·.1)) read.taken
            have same := Except.ok.inj taken
            exact List.map_eq_nil_iff.mp same.symm
          obtain ⟨turns, rfl⟩ : ∃ fewer, turns = fewer + 1 := ⟨turns - 1, by omega⟩
          refine ⟨[], ?_, by rw [lineageLoop, none_taken]; simp⟩
          have follows := read.goesOn repeated [] (follows_empty.mpr rfl)
          rwa [none_taken] at follows
        · have fewer := unseen_lt stored fresh (read.first some_rows fresh)
          obtain ⟨rest, follows, returned⟩ := ih last (read.ids.reverse ++ seen)
            (rows ++ read.ids.map ledger.artifact) (by omega)
          refine ⟨read.ids ++ rest, read.goesOn repeated rest follows, ?_⟩
          rw [returned, List.map_append, List.append_assoc]

/-- The client returns, after finitely many pages, the rows of the chain of parents from the id:
each artifact once, up to a root, an id that names no stored artifact or an artifact that the chain
already has. The empty id names no artifact. -/
theorem lineage_exact (reached : (machine library).Reaches (Recorded library) ledger)
    (start : String) :
    ∃ ids, Chain ledger.namedParentOf [] (some start) ids ∧ ids.Nodup ∧
      ∃ enough, ∀ turns, enough ≤ turns →
        clientLineage ledger turns start = some (.ok (ids.map ledger.artifact)) := by
  have valid := valid_recorded reached
  obtain ⟨ids, chain, _⟩ := lineageLoop_chain valid start [] []
    (Nat.le_refl ((unseen ledger []).card + 2))
  refine ⟨ids, chain, chain.nodup.1, (unseen ledger []).card + 2, fun turns enough => ?_⟩
  obtain ⟨others, other, returned⟩ := lineageLoop_chain valid start [] [] enough
  rw [chain.unique other, clientLineage, returned, List.nil_append]

/-! ## A circle and an empty id -/

/-- The arguments of an artifact with a parent. -/
def artifactArguments (id : String) (parent : Json) : Json :=
  .object [("id", .str id), ("path", .str "notes.txt"), ("parent_artifact_id", parent)]

/-- Two artifacts, the second one made from the first. -/
def twoArtifacts (first second : String) : TaskLedger :=
  let before := performed .fresh "artifact_register" (artifactArguments first .null) 1
  performed before "artifact_register" (artifactArguments second (.str first)) 2

/-- Runs lead to them. -/
theorem twoArtifacts_reached (first second : String) :
    (machine emptyLibrary).Reaches (Recorded emptyLibrary) (twoArtifacts first second) :=
  reaches_performed (reaches_performed .initial trivial) trivial

/-- The two are linked into a circle. -/
def circle : TaskLedger :=
  performed (twoArtifacts "a-1" "a-2") "artifact_link"
    (.object [("child_id", .str "a-1"), ("parent_id", .str "a-2")]) 3

/-- The lineage of a circle has each of its artifacts once. -/
theorem lineage_exact_circle : ∃ enough, ∀ turns, enough ≤ turns →
    clientLineage circle turns "a-1" =
    some (.ok [circle.artifact "a-1", circle.artifact "a-2"]) := by
  have reached : (machine emptyLibrary).Reaches (Recorded emptyLibrary) circle :=
    reaches_performed (twoArtifacts_reached "a-1" "a-2") trivial
  obtain ⟨ids, chain, _, enough, returns⟩ := lineage_exact reached "a-1"
  have first : circle.namedParentOf "a-1" = some (some "a-2") := by decide +kernel
  have second : circle.namedParentOf "a-2" = some (some "a-1") := by decide +kernel
  have whole : Chain circle.namedParentOf [] (some "a-1") ["a-1", "a-2"] :=
    .step (by simp) first (.step (by decide) second (.repeated (by decide)))
  obtain rfl := chain.unique whole
  exact ⟨enough, returns⟩

/-- An artifact with the empty id is left out of the lineage of an artifact made from it. -/
theorem empty_id_left_out :
    ¬ ∀ (library : Library) (ledger : TaskLedger) (start : String),
      (machine library).Reaches (Recorded library) ledger →
      ∃ ids, Chain ledger.parentOf [] (some start) ids ∧
        ∃ enough, ∀ turns, enough ≤ turns →
          clientLineage ledger turns start = some (.ok (ids.map ledger.artifact)) := by
  intro claim
  obtain ⟨ids, chain, enough, returns⟩ :=
    claim emptyLibrary (twoArtifacts "" "a-2") "a-2" (twoArtifacts_reached "" "a-2")
  have child : (twoArtifacts "" "a-2").parentOf "a-2" = some (some "") := by decide
  have root : (twoArtifacts "" "a-2").parentOf "" = some none := by decide
  have whole : Chain (twoArtifacts "" "a-2").parentOf [] (some "a-2") ["a-2", ""] :=
    .step (by simp) child (.step (by decide) root .root)
  obtain rfl := chain.unique whole
  obtain ⟨others, other, returned⟩ := lineageLoop_chain
    (valid_recorded (twoArtifacts_reached "" "a-2")) "a-2" [] []
    (Nat.le_max_right enough ((unseen (twoArtifacts "" "a-2") []).card + 2))
  have named : (twoArtifacts "" "a-2").namedParentOf "a-2" = some (some "") := by decide
  have alone : Follows (twoArtifacts "" "a-2") [] "a-2" ["a-2"] :=
    .step (by simp) named (.missing (by simp [TaskLedger.namedParentOf]))
  obtain rfl := Chain.unique other alone
  have both := returns _ (Nat.le_max_left enough ((unseen (twoArtifacts "" "a-2") []).card + 2))
  rw [clientLineage, returned] at both
  simp at both

end Chitta.Ledger
