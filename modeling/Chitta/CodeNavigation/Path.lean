import Chitta.BreadthFirst
import Chitta.CodeNavigation.Graph

/-!
# The way from one symbol to another

The search for a path goes from symbol to symbol along the resolved edges, whichever way they point,
and stays among the symbols of a project and a directory. The names are those of the source.
-/
namespace Chitta.CodeNavigation

open BreadthFirst

/-- What is asked for. -/
structure Request where
  /-- The realm. -/
  realm : Option String := none
  /-- The project, when there is no realm. -/
  project : String := ""
  /-- The directory or file. -/
  path : String := ""
  /-- The symbol to start at. -/
  «from» : String := ""
  /-- The symbol to end at. -/
  «to» : String := ""

/-- `canonical`: the name of a project without what a realm has in front of it. -/
def canonical (project : String) : String :=
  if "project:".toList <+: project.toList then String.ofList (project.toList.drop 8) else project

/-- `under`: a path is a scope or inside of it. -/
def under (path scope : String) : Bool :=
  scope = "" || path = scope || scope.toList ++ ['/'] <+: path.toList

/-- `scope`: the symbols of the project and the directory; `weaklyCanonical` is what the file system
makes of a path. -/
def scope (weaklyCanonical : String → String) (nodes : List Node) (request : Request) : List Nat :=
  let project := canonical (request.realm.getD request.project)
  let path := if request.path = "" then "" else weaklyCanonical request.path
  (List.range nodes.length).filter fun place =>
    (project = "" || (node nodes place).project = project) && under (node nodes place).file path

/-- The symbols of the scope that an endpoint may mean, by id or by name. -/
def endpoints (nodes : List Node) (allowed : List Nat) (name : String) : List Nat :=
  allowed.filter fun place =>
    (node nodes place).data.id = name || (node nodes place).data.name = name

/-- The symbols of the scope that are joined to one by its edges. -/
def neighbours (graph : Graph) (allowed : List Nat) (place : Nat) : List Nat :=
  (graph.incident place).filterMap fun id => do
    let edge ← graph.edges[id]?
    let goal ← edge.to
    let next := if edge.from = place then goal else edge.from
    if next ∈ allowed then some next else none

/-- What is answered. -/
inductive Answer where
  /-- The endpoints do not resolve uniquely: how many symbols they may mean. -/
  | ambiguous (fromMatches toMatches : Nat)
  /-- No connection in the indexed graph. -/
  | notFound
  /-- The symbols on the way, the start first. -/
  | found (route : List Nat)
deriving DecidableEq, Repr

/-- `path`. -/
def path (weaklyCanonical : String → String) (graph : Graph) (request : Request) : Answer :=
  let allowed := scope weaklyCanonical graph.nodes request
  match endpoints graph.nodes allowed request.from, endpoints graph.nodes allowed request.to with
  | [start], [goal] =>
    let ended := search (neighbours graph allowed) goal allowed.length (initial start)
    if ended.known goal then
      .found (back ended.previous start ended.previous.length goal).reverse
    else .notFound
  | starts, goals => .ambiguous starts.length goals.length

/-! ## What joins two symbols -/

/-- Two symbols of a scope are joined by an edge, in either direction. -/
def Joined (graph : Graph) (allowed : List Nat) (one other : Nat) : Prop :=
  one ∈ allowed ∧ other ∈ allowed ∧
    ∃ edge ∈ graph.edges,
      edge.from = one ∧ edge.to = some other ∨ edge.from = other ∧ edge.to = some one

/-- Two symbols are in one component of a scope. -/
def Connected (graph : Graph) (allowed : List Nat) : Nat → Nat → Prop :=
  Relation.ReflTransGen (Joined graph allowed)

/-- A sequence of symbols from one to another in which each is joined to the next. -/
structure Connects (graph : Graph) (allowed : List Nat) (start goal : Nat) (route : List Nat) : Prop
    where
  /-- It starts at the start. -/
  starts : route.head? = some start
  /-- It ends at the goal. -/
  ends : route.getLast? = some goal
  /-- Each symbol is joined to the next inside of the scope. -/
  joined : route.IsChain (Joined graph allowed)

/-- The neighbours of a symbol of the scope are those that are joined to it. -/
theorem mem_neighbours {graph : Graph} (built : Built graph) {allowed : List Nat} {one other : Nat}
    (inside : one ∈ allowed) :
    other ∈ neighbours graph allowed one ↔ Joined graph allowed one other := by
  simp only [neighbours, List.mem_filterMap, Option.bind_eq_bind, Option.bind_eq_some_iff,
    built.incident]
  constructor
  · rintro ⟨id, ⟨edge, there, ends⟩, found, again, goal, to_goal, chosen⟩
    obtain rfl : edge = found := Option.some.inj (there.symm.trans again)
    have known : edge ∈ graph.edges := List.mem_of_getElem? there
    by_cases started : edge.from = one
    · rw [if_pos started] at chosen
      split at chosen
      · obtain rfl := Option.some.inj chosen
        exact ⟨inside, ‹_›, edge, known, .inl ⟨started, to_goal⟩⟩
      · contradiction
    · rw [if_neg started] at chosen
      split at chosen
      · obtain rfl := Option.some.inj chosen
        exact ⟨inside, ‹_›, edge, known, .inr ⟨rfl, ends.resolve_left started⟩⟩
      · contradiction
  · rintro ⟨_, allowed_other, edge, known, ends⟩
    obtain ⟨id, there⟩ := List.getElem?_of_mem known
    rcases ends with ⟨started, to_other⟩ | ⟨started, to_one⟩
    · refine ⟨id, ⟨edge, there, .inl started⟩, edge, there, other, to_other, ?_⟩
      rw [if_pos started, if_pos allowed_other]
    · refine ⟨id, ⟨edge, there, .inr to_one⟩, edge, there, one, to_one, ?_⟩
      have apart : edge.from ≠ one := by
        intro same
        exact built.loopless edge known (same ▸ to_one)
      rw [if_neg apart, started, if_pos allowed_other]

/-- The neighbours are in the scope. -/
theorem neighbours_allowed {graph : Graph} {allowed : List Nat} {one other : Nat}
    (joined : other ∈ neighbours graph allowed one) : other ∈ allowed := by
  simp only [neighbours, List.mem_filterMap, Option.bind_eq_bind, Option.bind_eq_some_iff] at joined
  obtain ⟨_, _, edge, _, goal, _, chosen⟩ := joined
  generalize (if edge.from = one then goal else edge.from) = next at chosen
  by_cases inside : next ∈ allowed
  · rw [if_pos inside] at chosen
    rwa [← Option.some.inj chosen]
  · rw [if_neg inside] at chosen
    contradiction

/-- A sequence of neighbours from a symbol of the scope is a sequence of joined symbols. -/
theorem isChain_joined {graph : Graph} (built : Built graph) {allowed : List Nat} {start : Nat}
    {route : List Nat} (inside : start ∈ allowed)
    (chain : (start :: route).IsChain fun one other => other ∈ neighbours graph allowed one) :
    (start :: route).IsChain (Joined graph allowed) := by
  induction route generalizing start with
  | nil => exact List.isChain_singleton _
  | cons next route ih =>
    obtain ⟨first, later⟩ := List.isChain_cons_cons.mp chain
    have joined := (mem_neighbours built inside).mp first
    exact List.isChain_cons_cons.mpr ⟨joined, ih joined.2.1 later⟩

/-- A sequence of symbols from a symbol of the scope is a route of the search. -/
theorem connects_iff {graph : Graph} (built : Built graph) {allowed : List Nat} {start goal : Nat}
    (inside : start ∈ allowed) (route : List Nat) :
    Connects graph allowed start goal route ↔
    Route (neighbours graph allowed) start goal route := by
  constructor
  · intro connects
    refine ⟨connects.starts, connects.ends, connects.joined.imp ?_⟩
    exact fun one other joined => (mem_neighbours built joined.1).mpr joined
  · intro route'
    refine ⟨route'.starts, route'.ends, ?_⟩
    obtain ⟨later, rfl⟩ := List.head?_eq_some_iff.mp route'.starts
    exact isChain_joined built inside route'.joined

/-- Symbols are reached from a symbol of the scope exactly in its component. -/
theorem connected_iff {graph : Graph} (built : Built graph) {allowed : List Nat} {start goal : Nat}
    (inside : start ∈ allowed) :
    Connected graph allowed start goal ↔
    ∃ steps, Reaches (neighbours graph allowed) start steps goal := by
  constructor
  · intro connected
    induction connected with
    | refl => exact ⟨0, .start⟩
    | tail _ joined ih =>
      obtain ⟨steps, reaches⟩ := ih
      exact ⟨steps + 1, reaches.step ((mem_neighbours built joined.1).mpr joined)⟩
  · rintro ⟨steps, reaches⟩
    have both : goal ∈ allowed ∧ Connected graph allowed start goal := by
      induction reaches with
      | start => exact ⟨inside, .refl⟩
      | step _ joined ih =>
        have step := (mem_neighbours built ih.1).mp joined
        exact ⟨step.2.1, ih.2.tail step⟩
    exact both.2

/-! ## The search finds the shortest -/

variable {weaklyCanonical : String → String} {graph : Graph} {request : Request} {start goal : Nat}

/-- What is answered when the endpoints resolve uniquely. -/
theorem path_eq
    (starts : endpoints graph.nodes (scope weaklyCanonical graph.nodes request) request.from =
      [start])
    (ends : endpoints graph.nodes (scope weaklyCanonical graph.nodes request) request.to = [goal]) :
    let allowed := scope weaklyCanonical graph.nodes request
    let ended := search (neighbours graph allowed) goal allowed.length (initial start)
    path weaklyCanonical graph request =
      if ended.known goal then
        .found (back ended.previous start ended.previous.length goal).reverse
      else .notFound := by
  intro allowed ended
  unfold path
  dsimp only
  rw [starts, ends]

/-- The answer of a search in a graph that was built, for endpoints that resolve uniquely: a
shortest sequence in one component, and nothing otherwise. -/
theorem path_searched (built : Built graph)
    (starts : endpoints graph.nodes (scope weaklyCanonical graph.nodes request) request.from =
      [start])
    (ends : endpoints graph.nodes (scope weaklyCanonical graph.nodes request) request.to = [goal]) :
    let allowed := scope weaklyCanonical graph.nodes request
    (∃ route, path weaklyCanonical graph request = .found route ∧
        Connects graph allowed start goal route ∧
        ∀ other, Connects graph allowed start goal other → route.length ≤ other.length) ∨
      (path weaklyCanonical graph request = .notFound ∧ ¬ Connected graph allowed start goal) := by
  have answer := path_eq starts ends
  intro allowed
  have inside : start ∈ allowed := by
    have among : start ∈ endpoints graph.nodes allowed request.from := by
      rw [starts]
      exact List.mem_cons_self
    exact List.mem_of_mem_filter among
  have closed : ∀ place ∈ allowed, ∀ other ∈ neighbours graph allowed place, other ∈ allowed :=
    fun _ _ _ joined => neighbours_allowed joined
  obtain ⟨depth, between⟩ := (between_initial inside).search closed goal allowed.length
  have finished := search_ends closed inside goal
  dsimp only at answer finished
  generalize search (neighbours graph allowed) goal allowed.length (initial start) = ended
    at answer between finished
  by_cases known : ended.known goal
  · left
    rw [if_pos known] at answer
    obtain ⟨route, length⟩ := between.back known (between.shallow goal known)
    refine ⟨_, answer, (connects_iff built inside _).mpr route, fun other connects => ?_⟩
    have reaches := ((connects_iff built inside other).mp connects).reaches
    have shortest := between.depth_le known reaches
    have some_place : 0 < other.length := by
      rw [List.length_pos_iff]
      rintro rfl
      exact absurd connects.starts (by simp)
    rw [List.length_reverse, length]
    omega
  · right
    rw [if_neg known] at answer
    refine ⟨answer, fun connected => ?_⟩
    obtain ⟨steps, reaches⟩ := (connected_iff built inside).mp connected
    rcases between.reaches reaches with ⟨there, _⟩ | ⟨other, queued, _⟩
    · exact known there
    · rw [finished.resolve_left known] at queued
      exact absurd queued List.not_mem_nil

/-- A sequence of joined symbols stays in one component. -/
theorem Connects.connected {allowed route : List Nat}
    (connects : Connects graph allowed start goal route) : Connected graph allowed start goal := by
  obtain ⟨later, rfl⟩ := List.head?_eq_some_iff.mp connects.starts
  have last : goal = (start :: later).getLast (List.cons_ne_nil _ _) := by
    have ends := connects.ends
    rw [List.getLast?_eq_some_getLast (List.cons_ne_nil _ _)] at ends
    exact (Option.some.inj ends).symm
  rw [last]
  exact List.relationReflTransGen_of_exists_isChain_cons later connects.joined rfl

/-- For endpoints that each match one symbol of the scope, a sequence is found exactly when the two
symbols are in one component of the scope, and it is a shortest of the sequences that go from one to
the other along edges in either direction inside of the scope. -/
theorem path_shortest (paths : Paths) (files : Files) (weaklyCanonical : String → String)
    (request : Request) (start goal : Nat) :
    let graph := rebuild paths files
    let allowed := scope weaklyCanonical graph.nodes request
    endpoints graph.nodes allowed request.from = [start] →
    endpoints graph.nodes allowed request.to = [goal] →
    (path weaklyCanonical graph request = .notFound ↔ ¬ Connected graph allowed start goal) ∧
      (Connected graph allowed start goal →
        ∃ route, path weaklyCanonical graph request = .found route ∧
          Connects graph allowed start goal route ∧
          ∀ other, Connects graph allowed start goal other → route.length ≤ other.length) := by
  intro graph allowed starts ends
  rcases path_searched (built_rebuild paths files) starts ends with
    ⟨route, found, connects, shortest⟩ | ⟨nothing, apart⟩
  · refine ⟨iff_of_false ?_ fun apart => apart connects.connected,
      fun _ => ⟨route, found, connects, shortest⟩⟩
    rw [found]
    exact Answer.noConfusion
  · exact ⟨iff_of_true nothing apart, fun connected => absurd connected apart⟩

/-- A file with a function that calls another one, which calls a third one. -/
def calling : Files :=
  [("a.py",
    { root := "/r", project := "p"
      symbols :=
        [{ id := "a.py:1:caller", name := "caller", kind := "function", parent := ""
           lineStart := 1, lineEnd := 2 },
         { id := "a.py:3:target", name := "target", kind := "function", parent := ""
           lineStart := 3, lineEnd := 4 },
         { id := "a.py:5:last", name := "last", kind := "function", parent := ""
           lineStart := 5, lineEnd := 6 }]
      edges :=
        [{ kind := "calls", target := "target", line := 2 },
         { kind := "calls", target := "last", line := 4 }] })]

/-- The way from the first function to the last one. -/
def callerToLast : Request := { «from» := "caller", «to» := "last" }

/-- It leads through the second one. -/
theorem path_shortest_calling :
    path id (rebuild flat calling) callerToLast = .found [0, 1, 2] ∧
    ∃ route, path id (rebuild flat calling) callerToLast = .found route ∧
      Connects (rebuild flat calling) (scope id (rebuild flat calling).nodes callerToLast) 0 2
        route ∧
      ∀ other,
        Connects (rebuild flat calling) (scope id (rebuild flat calling).nodes callerToLast) 0 2
          other → route.length ≤ other.length := by
  have joined : ∀ pair ∈ [(0, 1), (1, 2)], Joined (rebuild flat calling)
      (scope id (rebuild flat calling).nodes callerToLast) pair.1 pair.2 := by
    unfold Joined
    decide
  have connected := Relation.ReflTransGen.single (joined (0, 1) (by decide))
  refine ⟨by decide, (path_shortest flat calling id callerToLast 0 2 (by decide) (by decide)).2 ?_⟩
  exact connected.tail (joined (1, 2) (by decide))

end Chitta.CodeNavigation
