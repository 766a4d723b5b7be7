import Chitta.CodeNavigation.Path
import Mathlib.Data.List.Sort
import Mathlib.Order.Lex

/-!
# What a question selects

A question ranks the symbols of the scope that it matches, and the first of them are the seeds. Up
to eight symbols more are added that an edge joins to a seed, whichever way it points; an edge that
is only a reference does not count. A path without a question lists the symbols below it by their
lines. How a symbol is scored and what the file system says about paths come from outside, and the
text of the answer and the age of the index are left out. The names are those of the source.
-/
namespace Chitta.CodeNavigation

/-- What is asked of the graph. -/
structure Query where
  /-- The realm, the project and the path. -/
  «in» : Request
  /-- The question. -/
  question : String := ""
  /-- How many symbols are asked for. -/
  limit : Option Int := none
  /-- Whether the symbols beside the seeds are asked for. -/
  neighbors : Bool := true

/-- `file_mode`. -/
def Query.fileMode (asked : Query) : Bool := asked.question = "" && asked.in.path ≠ ""

/-- `limit`. -/
def Query.bound (asked : Query) : Nat :=
  (max 1 (min 40 (asked.limit.getD (if asked.fileMode then 20 else 8)))).toNat

/-! ## The ranking -/

/-- The order of `std::sort` on pairs of a key and a symbol. -/
def leads {Key : Type} [LinearOrder Key] (key : Nat → Key) (one other : Nat) : Prop :=
  key one < key other ∨ key one = key other ∧ one ≤ other

instance {Key : Type} [LinearOrder Key] (key : Nat → Key) : DecidableRel (leads key) :=
  fun _ _ => inferInstanceAs (Decidable (_ ∨ _))

section Select

variable {Score : Type} [LinearOrder Score] [Zero Score] (score : String → Nat → Score)
  (graph : Graph) (allowed : List Nat) (asked : Query)

/-- A symbol is ranked. -/
def Query.matches (place : Nat) : Bool := asked.fileMode || 0 < score asked.question place

/-- What comes first: the lower line of a listing, the higher score of a question. -/
def Query.before (one other : Nat) : Bool :=
  if asked.fileMode then leads (fun place => (node graph.nodes place).data.lineStart) one other
  else leads (fun place => OrderDual.toDual (score asked.question place)) one other

/-- `ranked`. -/
def ranked : List Nat :=
  (allowed.filter (asked.matches score)).insertionSort fun one other =>
    asked.before score graph one other

/-! ## The neighbours -/

/-- What the edges of a seed join to it. -/
def acrossEdges (seed : Nat) : List Nat :=
  (graph.incident seed).filterMap fun id => do
    let edge ← graph.edges[id]?
    let goal ← edge.to
    if edge.kind = "references" then none
    else some (if edge.from = seed then goal else edge.from)

/-- One step of the loop over the edges of the seeds. -/
def addNeighbor (room : Nat) (selected : List Nat) (neighbor : Nat) : List Nat :=
  if selected.length < room && allowed.contains neighbor && !selected.contains neighbor then
    selected ++ [neighbor]
  else selected

/-- `selected`, for given seeds. -/
def withNeighbors (seeds : List Nat) : List Nat :=
  if !asked.fileMode && asked.neighbors then
    (seeds.flatMap (acrossEdges graph)).foldl (addNeighbor allowed (asked.bound + 8)) seeds
  else seeds

/-! ## The answer -/

/-- An edge as it is listed with a symbol. -/
def listed (place : Nat) (edge : Edge) : String :=
  edge.kind ++ ":" ++
    (if edge.from = place then edge.surface else (node graph.nodes edge.from).data.name) ++
    "[" ++ edge.confidence ++ (if edge.resolution = "AMBIGUOUS" then ":AMBIGUOUS" else "") ++ "]"

/-- A symbol of the answer. -/
structure Rendered where
  /-- The symbol. -/
  place : Nat
  /-- The first edges that end at it. -/
  «in» : List String
  /-- The first edges that start at it. -/
  out : List String
deriving DecidableEq, Repr

/-- A symbol with its first two edges in each direction. -/
def renderSymbol (place : Nat) : Rendered :=
  let edges := (graph.incident place).filterMap fun id => graph.edges[id]?
  { place
    «in» := ((edges.filter fun edge => edge.from ≠ place).take 2).map (listed graph place)
    out := ((edges.filter fun edge => edge.from = place).take 2).map (listed graph place) }

/-- The edges among the selected symbols, the open ones included. -/
def keptEdges (selected : List Nat) : List Edge :=
  graph.edges.filter fun edge =>
    selected.contains edge.from && (edge.to.all fun goal => selected.contains goal)

/-- What is answered. -/
structure Found where
  /-- The symbols. -/
  symbols : List Rendered
  /-- The edges among them. -/
  edges : List Edge
  /-- There are more edges. -/
  edgesTruncated : Bool
  /-- The question. -/
  question : String
  /-- How many symbols match. -/
  «matched» : Nat
  /-- The scope has symbols. -/
  indexed : Bool
  /-- There are more matches than were asked for. -/
  truncated : Bool

/-- The symbols of an answer. -/
def Found.selected (found : Found) : List Nat := found.symbols.map (·.place)

/-- `render`, with the rest of the answer. -/
def render (selected : List Nat) («matched» : Nat) : Found where
  symbols := selected.map (renderSymbol graph)
  edges := (keptEdges graph selected).take 100
  edgesTruncated := 100 < (keptEdges graph selected).length
  question := asked.question
  «matched» := «matched»
  indexed := !allowed.isEmpty
  truncated := asked.bound < «matched»

/-- `query`, in a scope. -/
def queryIn : Found :=
  let inOrder := ranked score graph allowed asked
  render graph allowed asked (withNeighbors graph allowed asked (inOrder.take asked.bound))
    inOrder.length

end Select

/-- `query`. -/
def query {Score : Type} [LinearOrder Score] [Zero Score] (score : String → Nat → Score)
    (weaklyCanonical : String → String) (graph : Graph) (asked : Query) : Except String Found :=
  if asked.question = "" ∧ asked.fileMode = false then .error "question is required"
  else .ok (queryIn score graph (scope weaklyCanonical graph.nodes asked.in) asked)

/-! ## Orders -/

section Order

variable {Key : Type} [LinearOrder Key] {key : Nat → Key}

theorem leads_total (one other : Nat) : leads key one other ∨ leads key other one := by
  unfold leads
  rcases lt_trichotomy (key one) (key other) with less | same | more
  · exact .inl (.inl less)
  · rw [same]
    have ids := Nat.le_total one other
    simp [ids]
  · exact .inr (.inl more)

theorem leads_trans {one two three : Nat} (first : leads key one two)
    (second : leads key two three) :
    leads key one three := by
  unfold leads at *
  rcases first with less | ⟨same, first⟩
  · rcases second with later | ⟨equal, _⟩
    · exact .inl (less.trans later)
    · exact .inl (equal ▸ less)
  · rw [same]
    rcases second with later | ⟨equal, second⟩
    · exact .inl later
    · exact .inr ⟨equal, first.trans second⟩

end Order

section Select

variable {Score : Type} [LinearOrder Score] [Zero Score] {score : String → Nat → Score}
  {graph : Graph} {allowed seeds selected : List Nat} {asked : Query}

instance : Std.Total fun one other => asked.before score graph one other = true where
  total one other := by
    unfold Query.before
    cases asked.fileMode with
    | true => simpa using leads_total one other
    | false => simpa using leads_total one other

instance : IsTrans Nat fun one other => asked.before score graph one other = true where
  trans one two three first second := by
    unfold Query.before at *
    cases mode : asked.fileMode with
    | true =>
      rw [mode] at first second
      simp only [if_true, decide_eq_true_eq] at *
      exact leads_trans first second
    | false =>
      rw [mode] at first second
      simp only [Bool.false_eq_true, if_false, decide_eq_true_eq] at *
      exact leads_trans first second

/-! ## The seeds -/

/-- The first symbols of those that match. -/
structure Best (matching : List Nat) (before : Nat → Nat → Bool) (limit : Nat) (seeds : List Nat) :
    Prop where
  /-- None is there twice. -/
  distinct : seeds.Nodup
  /-- They match. -/
  inside : ∀ place ∈ seeds, place ∈ matching
  /-- They are not more than were asked for. -/
  bounded : seeds.length ≤ limit
  /-- They are in order. -/
  inOrder : seeds.Pairwise fun one other => before one other = true
  /-- What is left out comes behind them, and there is no room for it. -/
  ahead : ∀ other ∈ matching, other ∉ seeds →
    seeds.length = limit ∧ ∀ seed ∈ seeds, before seed other = true

/-- The first items of a sorted list. -/
theorem best_take {matching : List Nat} {before : Nat → Nat → Bool}
    [Std.Total fun one other => before one other = true]
    [IsTrans Nat fun one other => before one other = true] (limit : Nat)
    (distinct : matching.Nodup) :
    Best matching before limit
      ((matching.insertionSort fun one other => before one other).take limit) := by
  let sorted := matching.insertionSort fun one other => before one other
  have same : sorted.Perm matching := List.perm_insertionSort _ matching
  have ordered : sorted.Pairwise fun one other => before one other = true :=
    List.pairwise_insertionSort _ matching
  have split : sorted.take limit ++ sorted.drop limit = sorted := List.take_append_drop limit sorted
  constructor
  · exact (same.nodup_iff.mpr distinct).sublist (List.take_sublist _ _)
  · intro place chosen
    exact same.mem_iff.mp (List.mem_of_mem_take chosen)
  · exact List.length_take_le _ _
  · exact ordered.sublist (List.take_sublist _ _)
  · intro other inside out
    have there : other ∈ sorted.take limit ++ sorted.drop limit := by
      rw [split]
      exact same.mem_iff.mpr inside
    have later : other ∈ sorted.drop limit := (List.mem_append.mp there).resolve_left out
    have more : limit < sorted.length := by
      have some_left := List.length_pos_of_mem later
      rw [List.length_drop] at some_left
      omega
    rw [← split] at ordered
    exact ⟨List.length_take_of_le more.le, fun seed chosen =>
      (List.pairwise_append.mp ordered).2.2 seed chosen other later⟩

/-- A list without repetitions is longer than its front exactly when something is not in the
front. -/
theorem more_iff {items : List Nat} (limit : Nat) (distinct : items.Nodup) :
    limit < items.length ↔ ∃ place ∈ items, place ∉ items.take limit := by
  have split : items.take limit ++ items.drop limit = items := List.take_append_drop limit items
  constructor
  · intro more
    have there : items[limit] ∈ items.drop limit := by
      rw [List.drop_eq_getElem_cons more]
      exact List.mem_cons_self
    have apart := List.disjoint_of_nodup_append (split.symm ▸ distinct)
    exact ⟨items[limit], List.getElem_mem more, fun chosen => apart chosen there⟩
  · rintro ⟨place, inside, out⟩
    rw [← split] at inside
    have later := List.length_pos_of_mem ((List.mem_append.mp inside).resolve_left out)
    rw [List.length_drop] at later
    omega

/-! ## The loop over the neighbours -/

/-- What is selected while symbols near the seeds are looked at. -/
structure Extends (allowed : List Nat) (room : Nat) (seeds : List Nat) (near : Nat → Prop)
    (selected : List Nat) : Prop where
  /-- The seeds come first. -/
  front : seeds <+: selected
  /-- None is there twice. -/
  distinct : selected.Nodup
  /-- They are in the scope. -/
  inside : ∀ place ∈ selected, place ∈ allowed
  /-- They are not more than there is room for. -/
  bounded : selected.length ≤ room
  /-- What is not a seed is near one. -/
  joined : ∀ place ∈ selected, place ∉ seeds → near place
  /-- While there is room, nothing that is near is left out. -/
  complete : selected.length < room → ∀ place ∈ allowed, near place → place ∈ selected

/-- What one step does. -/
theorem addNeighbor_cases (room : Nat) (selected : List Nat) (neighbor : Nat) :
    (addNeighbor allowed room selected neighbor = selected ∧
        (selected.length < room → neighbor ∈ allowed → neighbor ∈ selected)) ∨
      (addNeighbor allowed room selected neighbor = selected ++ [neighbor] ∧
        selected.length < room ∧ neighbor ∈ allowed ∧ neighbor ∉ selected) := by
  unfold addNeighbor
  by_cases taken : (selected.length < room && allowed.contains neighbor &&
      !selected.contains neighbor) = true
  · rw [if_pos taken]
    right
    simpa [and_assoc] using taken
  · rw [if_neg taken]
    left
    simpa using taken

theorem Extends.step {room : Nat} {near : Nat → Prop}
    (sofar : Extends allowed room seeds near selected) (neighbor : Nat) :
    Extends allowed room seeds (fun place => near place ∨ place = neighbor)
      (addNeighbor allowed room selected neighbor) := by
  rcases @addNeighbor_cases allowed room selected neighbor with
    ⟨same, skipped⟩ | ⟨added, less, inside, new⟩
  · rw [same]
    exact
      { sofar with
        joined := fun place chosen out => .inl (sofar.joined place chosen out)
        complete := by
          rintro less place inside (near | rfl)
          · exact sofar.complete less place inside near
          · exact skipped less inside }
  · rw [added]
    constructor
    · exact sofar.front.trans (List.prefix_append _ _)
    · rw [List.nodup_append]
      refine ⟨sofar.distinct, List.nodup_singleton _, fun one before other now same => ?_⟩
      rw [List.mem_singleton.mp now] at same
      exact new (same ▸ before)
    · intro place chosen
      rcases List.mem_append.mp chosen with before | now
      · exact sofar.inside place before
      · rwa [List.mem_singleton.mp now]
    · rw [List.length_append, List.length_singleton]
      omega
    · intro place chosen out
      rcases List.mem_append.mp chosen with before | now
      · exact .inl (sofar.joined place before out)
      · exact .inr (List.mem_singleton.mp now)
    · intro room' place inside' joined
      rcases joined with near | same
      · exact List.mem_append_left _ (sofar.complete less place inside' near)
      · exact List.mem_append_right _ (List.mem_singleton.mpr same)

theorem Extends.run {room : Nat} {near : Nat → Prop}
    (sofar : Extends allowed room seeds near selected) (neighbors : List Nat) :
    Extends allowed room seeds (fun place => near place ∨ place ∈ neighbors)
      (neighbors.foldl (addNeighbor allowed room) selected) := by
  induction neighbors generalizing near selected with
  | nil => simpa using sofar
  | cons neighbor neighbors ih =>
    have later := ih (sofar.step neighbor)
    simpa only [List.foldl_cons, List.mem_cons, or_assoc] using later

/-- The seeds themselves. -/
theorem extends_seeds {room : Nat} (distinct : seeds.Nodup)
    (inside : ∀ place ∈ seeds, place ∈ allowed) (bounded : seeds.length ≤ room) :
    Extends allowed room seeds (fun _ => False) seeds where
  front := List.prefix_refl _
  distinct := distinct
  inside := inside
  bounded := bounded
  joined := fun _ chosen out => absurd chosen out
  complete := fun _ _ _ near => near.elim

/-- An edge other than a reference joins two symbols, in either direction. -/
def Linked (graph : Graph) (one other : Nat) : Prop :=
  ∃ edge ∈ graph.edges, edge.kind ≠ "references" ∧
    (edge.from = one ∧ edge.to = some other ∨ edge.from = other ∧ edge.to = some one)

/-- What the edges of a seed join to it. -/
theorem mem_acrossEdges (built : Built graph) {seed other : Nat} :
    other ∈ acrossEdges graph seed ↔ Linked graph seed other := by
  simp only [acrossEdges, List.mem_filterMap, Option.bind_eq_bind, Option.bind_eq_some_iff,
    built.incident]
  constructor
  · rintro ⟨id, ⟨edge, there, ends⟩, found, again, goal, to_goal, chosen⟩
    obtain rfl : edge = found := Option.some.inj (there.symm.trans again)
    have known : edge ∈ graph.edges := List.mem_of_getElem? there
    by_cases refers : edge.kind = "references"
    · rw [if_pos refers] at chosen
      contradiction
    · rw [if_neg refers, Option.some.injEq] at chosen
      by_cases started : edge.from = seed
      · rw [if_pos started] at chosen
        exact ⟨edge, known, refers, .inl ⟨started, chosen ▸ to_goal⟩⟩
      · rw [if_neg started] at chosen
        exact ⟨edge, known, refers, .inr ⟨chosen, ends.resolve_left started⟩⟩
  · rintro ⟨edge, known, refers, ends⟩
    obtain ⟨id, there⟩ := List.getElem?_of_mem known
    rcases ends with ⟨started, to_other⟩ | ⟨started, to_seed⟩
    · refine ⟨id, ⟨edge, there, .inl started⟩, edge, there, other, to_other, ?_⟩
      rw [if_neg refers, if_pos started]
    · refine ⟨id, ⟨edge, there, .inr to_seed⟩, edge, there, seed, to_seed, ?_⟩
      have apart : edge.from ≠ seed := by
        intro same
        exact built.loopless edge known (same ▸ to_seed)
      rw [if_neg refers, if_neg apart, started]

/-- The symbols that are selected for given seeds. -/
theorem extends_withNeighbors (built : Built graph) (distinct : seeds.Nodup)
    (inside : ∀ place ∈ seeds, place ∈ allowed) (bounded : seeds.length ≤ asked.bound)
    (listing : asked.fileMode = false) (wanted : asked.neighbors = true) :
    Extends allowed (asked.bound + 8) seeds (fun place => ∃ seed ∈ seeds, Linked graph seed place)
      (withNeighbors graph allowed asked seeds) := by
  have room : seeds.length ≤ asked.bound + 8 := by omega
  have run := (extends_seeds distinct inside room).run (seeds.flatMap (acrossEdges graph))
  unfold withNeighbors
  simpa only [listing, wanted, Bool.not_false, Bool.and_self, if_true, false_or, List.mem_flatMap,
    mem_acrossEdges built] using run

/-! ## The answer -/

/-- What an answer shows: the edges among the selected symbols, all of them if there are few. -/
structure Shows (graph : Graph) (found : Found) : Prop where
  /-- The edges end at selected symbols or are open. -/
  among : ∀ edge ∈ found.edges, edge ∈ graph.edges ∧ edge.from ∈ found.selected ∧
    ∀ goal, edge.to = some goal → goal ∈ found.selected
  /-- There are up to a hundred of them. -/
  few : found.edges.length ≤ 100
  /-- None is left out unless the answer says so. -/
  all : found.edgesTruncated = false → ∀ edge ∈ graph.edges, edge.from ∈ found.selected →
    (∀ goal, edge.to = some goal → goal ∈ found.selected) → edge ∈ found.edges

theorem mem_keptEdges {edge : Edge} : edge ∈ keptEdges graph selected ↔ edge ∈ graph.edges ∧
    edge.from ∈ selected ∧ ∀ goal, edge.to = some goal → goal ∈ selected := by
  simp [keptEdges, Option.all_eq_true]

@[simp] theorem selected_render («matched» : Nat) :
    (render graph allowed asked selected «matched»).selected = selected := by
  simp [render, Found.selected, renderSymbol, Function.comp_def]

theorem shows_render («matched» : Nat) :
    Shows graph (render graph allowed asked selected «matched») := by
  constructor
  · intro edge shown
    rw [selected_render]
    exact mem_keptEdges.mp (List.mem_of_mem_take shown)
  · exact List.length_take_le _ _
  · intro whole edge known starts ends
    rw [selected_render] at starts ends
    have few : (keptEdges graph selected).length ≤ 100 := by
      simpa [render] using whole
    show edge ∈ (keptEdges graph selected).take 100
    rw [List.take_of_length_le few]
    exact mem_keptEdges.mpr ⟨known, starts, ends⟩

theorem nodup_scope (weaklyCanonical : String → String) (nodes : List Node) (request : Request) :
    (scope weaklyCanonical nodes request).Nodup :=
  List.nodup_range.filter _

/-- An answer starts with the best of the symbols that match, no more than were asked for; it says
that it is truncated exactly when a symbol that matches is not among them. Behind them stand, each
once, symbols of the scope that an edge joins to one of them, up to eight more than were asked for
in all, and none is left out while there is room. A listing has the first symbols only. The edges
shown are those among the symbols of the answer. -/
theorem query_selects {Score : Type} [LinearOrder Score] [Zero Score] (score : String → Nat → Score)
    (weaklyCanonical : String → String) (paths : Paths) (files : Files) (asked : Query)
    {found : Found}
    (answered : query score weaklyCanonical (rebuild paths files) asked = .ok found) :
    let graph := rebuild paths files
    let allowed := scope weaklyCanonical graph.nodes asked.in
    ∃ seeds,
      Best (allowed.filter (asked.matches score)) (asked.before score graph) asked.bound seeds ∧
      (found.truncated = true ↔
        ∃ place ∈ allowed, asked.matches score place = true ∧ place ∉ seeds) ∧
      (asked.fileMode = false → asked.neighbors = true →
        Extends allowed (asked.bound + 8) seeds
          (fun place => ∃ seed ∈ seeds, Linked graph seed place) found.selected) ∧
      (asked.fileMode = true ∨ asked.neighbors = false → found.selected = seeds) ∧
      Shows graph found := by
  intro graph allowed
  unfold query at answered
  by_cases refused : asked.question = "" ∧ asked.fileMode = false
  · rw [if_pos refused] at answered
    contradiction
  rw [if_neg refused, Except.ok.injEq] at answered
  subst answered
  have distinct : (allowed.filter (asked.matches score)).Nodup := (nodup_scope _ _ _).filter _
  have best : Best _ (asked.before score graph) asked.bound
      ((ranked score graph allowed asked).take asked.bound) := best_take asked.bound distinct
  refine ⟨(ranked score graph allowed asked).take asked.bound, best, ?_, ?_, ?_, shows_render _⟩
  · have same : (ranked score graph allowed asked).Perm _ := List.perm_insertionSort _ _
    have more := more_iff asked.bound (same.nodup_iff.mpr distinct)
    simp only [same.mem_iff, List.mem_filter, and_assoc] at more
    have cut : (queryIn score graph allowed asked).truncated =
        decide (asked.bound < (ranked score graph allowed asked).length) := rfl
    rw [cut, decide_eq_true_iff]
    exact more
  · intro listing wanted
    rw [queryIn, selected_render]
    apply extends_withNeighbors (built_rebuild paths files) best.distinct _ best.bounded
      listing wanted
    exact fun place chosen => List.mem_of_mem_filter (best.inside place chosen)
  · intro plain
    rw [queryIn, selected_render, withNeighbors, if_neg]
    rcases plain with listing | unwanted
    · simp [listing]
    · simp [unwanted]

end Select

/-- A question that one symbol of the example matches. -/
def askedTarget : Query := { «in» := {}, question := "target", limit := some 1 }

/-- Whole scores. -/
def Points : Type := Nat

instance : LinearOrder Points := Nat.instLinearOrder

instance : Zero Points := ⟨Nat.zero⟩

/-- The score of that symbol. -/
def targetScore (_ : String) (place : Nat) : Points := if place = 1 then Nat.succ 2 else Nat.zero

/-- It is answered with that symbol, the one that calls it and the one that it calls. -/
theorem query_selects_calling :
    ∃ found seeds, query targetScore id (rebuild flat calling) askedTarget = .ok found ∧
      found.selected = [1, 0, 2] ∧
      Extends [0, 1, 2] 9 seeds
        (fun place => ∃ seed ∈ seeds, Linked (rebuild flat calling) seed place) found.selected ∧
      Shows (rebuild flat calling) found := by
  have answered : query targetScore id (rebuild flat calling) askedTarget =
      .ok (queryIn targetScore (rebuild flat calling) [0, 1, 2] askedTarget) := rfl
  obtain ⟨seeds, _, _, near, _, shows⟩ :=
    query_selects targetScore id flat calling askedTarget answered
  exact ⟨_, seeds, answered, by decide, near rfl rfl, shows⟩

end Chitta.CodeNavigation
