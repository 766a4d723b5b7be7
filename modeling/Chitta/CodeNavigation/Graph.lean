import Mathlib.Data.List.Dedup

/-!
# The graph of the code

Every indexed file has symbols and raw edges, which say what its symbols call, import, refer to and
inherit from by name. The graph is built from all files at once: the symbols are its nodes, and each
raw edge is resolved to a symbol, or left open when no symbol or more than one may be meant. What
the standard library and the parser say about paths comes from outside. The names are those of the
source.
-/
namespace Chitta.CodeNavigation

/-- A symbol of a file. -/
structure Symbol where
  /-- The id. -/
  id : String
  /-- The name. -/
  name : String
  /-- The kind. -/
  kind : String
  /-- The class or module around it, empty when there is none. -/
  parent : String
  /-- The first line. -/
  lineStart : Int
  /-- The last line. -/
  lineEnd : Int
deriving DecidableEq, Repr, Inhabited

/-- An edge of a file, before it is resolved. -/
structure RawEdge where
  /-- `calls`, `imports`, `inherits` or `references`. -/
  kind : String
  /-- The name that is meant. -/
  target : String
  /-- The line. -/
  line : Int := 1
  /-- The class that inherits. -/
  derived : String := ""
  /-- The producer of a channel. -/
  sourceName : String := ""
  /-- What a method is called on. -/
  receiver : String := ""
  /-- The qualifier of a name. -/
  scope : String := ""
  /-- The target is the path of a file. -/
  fileReference : Bool := false
deriving DecidableEq, Repr

/-- An indexed file. -/
structure File where
  /-- The root of the project. -/
  root : String
  /-- The project. -/
  project : String
  /-- The symbols. -/
  symbols : List Symbol
  /-- The raw edges. -/
  edges : List RawEdge
deriving DecidableEq, Repr

/-- The indexed files by their paths. -/
abbrev Files := List (String × File)

/-- What is known about paths. -/
structure Paths where
  /-- `language`: what files of one language have in common. -/
  language : String → String
  /-- The normal form of a path that is given from the directory of a file. -/
  beside : String → String → String
  /-- The normal form of a path that is given from a directory. -/
  below : String → String → String
  /-- A path as seen from a root. -/
  relative : String → String → String

/-- A symbol with what is known of its file. -/
structure Node where
  /-- The symbol. -/
  data : Symbol
  /-- The path of the file. -/
  file : String
  /-- The project. -/
  project : String
  /-- The root of the project. -/
  root : String
  /-- The language. -/
  lang : String
deriving DecidableEq, Repr, Inhabited

/-- An edge of the graph; an open one has no target. -/
structure Edge where
  /-- The node it starts at. -/
  «from» : Nat
  /-- The node it ends at. -/
  «to» : Option Nat
  /-- The kind. -/
  kind : String
  /-- The name that is meant. -/
  surface : String
  /-- `INFERRED` for a resolved edge and `EXTRACTED` for an open one. -/
  confidence : String
  /-- How it was resolved. -/
  resolution : String
  /-- The file that it was found in. -/
  evidenceFile : String
  /-- The line. -/
  line : Int
deriving DecidableEq, Repr

/-- The nodes of one file. -/
def nodesOf (paths : Paths) (item : String × File) : List Node :=
  item.2.symbols.map fun symbol =>
    { data := symbol, file := item.1, project := item.2.project, root := item.2.root,
      lang := paths.language item.1 }

/-- The nodes: the symbols of the files, one file after the other. -/
def nodesFrom (paths : Paths) (files : Files) : List Node := files.flatMap (nodesOf paths)

/-- What follows the last `::`. -/
def lastPart : List Char → Option (List Char)
  | [] => none
  | letter :: rest =>
    match lastPart rest with
    | some part => some part
    | none => if letter = ':' ∧ rest.head? = some ':' then some rest.tail else none

/-- A symbol is found under its name and under what follows the last `::` in it. -/
def Symbol.answers (symbol : Symbol) (name : String) : Bool :=
  symbol.name = name || lastPart symbol.name.toList = some name.toList

/-! ## Looking up -/

section Resolve

variable (paths : Paths) (nodes : List Node)

/-- A node by its place. -/
def node (place : Nat) : Node := nodes.getD place default

/-- `names`: the symbols that are found under a name. -/
def named (name : String) : List Nat :=
  (List.range nodes.length).filter fun place => (node nodes place).data.answers name

/-- `by_file`: the symbols of a file. -/
def byFile (file : String) : List Nat :=
  (List.range nodes.length).filter fun place => (node nodes place).file = file

/-- The files that have symbols, with the first and the last of them. -/
def filed : List (String × Nat × Nat) :=
  ((nodes.map (·.file)).dedup).filterMap fun file =>
    match (byFile nodes file).head?, (byFile nodes file).getLast? with
    | some front, some back => some (file, front, back)
    | _, _ => none

/-- One symbol of the loop of `enclosing`: the best so far and its span. -/
def narrower (line : Int) (best : Option Nat × Int) (place : Nat) : Option Nat × Int :=
  let symbol := (node nodes place).data
  if symbol.lineStart ≤ line ∧ line ≤ symbol.lineEnd ∧
    symbol.lineEnd - symbol.lineStart < best.2 then
    (some place, symbol.lineEnd - symbol.lineStart)
  else best

/-- `enclosing`: the smallest symbol of a file around a line. -/
def enclosing (file : String) (line : Int) : Option Nat :=
  ((byFile nodes file).foldl (narrower nodes line) (none, 2147483647)).1

/-- The only item of a list. -/
def single : List Nat → Option Nat
  | [place] => some place
  | _ => none

/-- The class that inherits, when it is not the symbol around the line. -/
def derivedSource (file : String) (raw : RawEdge) (source : Nat) : Nat :=
  if raw.kind = "inherits" ∧ raw.derived ≠ "" ∧ (node nodes source).data.name ≠ raw.derived then
    (single ((named nodes raw.derived).filter fun place => (node nodes place).file = file)).getD
      source
  else source

/-- The kinds of symbols that a channel may come from. -/
def producers : List String := ["process", "workflow", "rule", "checkpoint", "target"]

/-- The producer of a channel, when one is named; it must be the only one. -/
def channelSource (raw : RawEdge) (source : Nat) : Option Nat :=
  if raw.sourceName = "" then some source
  else
    single ((named nodes raw.sourceName).filter fun place =>
      (node nodes place).root = (node nodes source).root &&
        (node nodes place).lang = (node nodes source).lang &&
        (node nodes place).data.kind ∈ producers)

/-! ## Candidates -/

/-- The files that an import may mean, by their last symbols. -/
def importedFiles (source : Nat) (target : String) : List Nat :=
  let module := String.ofList (target.toList.map fun letter => if letter = '.' then '/' else letter)
  (filed nodes).filterMap fun entry =>
    if (node nodes entry.2.1).root ≠ (node nodes source).root then none
    else
      let rel := paths.relative (node nodes source).root entry.1
      if rel = target ∨ (node nodes source).lang = "python" ∧
          (rel = module ++ ".py" ∨ rel = module ++ "/__init__.py") then
        some entry.2.2
      else none

/-- The candidates of an import: a file, the files that fit, or else the modules of the name. -/
def importCandidates (file : String) (source : Nat) (target : String) : List Nat :=
  let found :=
    match (byFile nodes (paths.beside file target)).getLast? with
    | some place => [place]
    | none => importedFiles paths nodes source target
  if found.isEmpty then
    (named nodes target).filter fun place =>
      (node nodes place).root = (node nodes source).root &&
        (node nodes place).lang = (node nodes source).lang &&
        (node nodes place).data.kind = "module"
  else found

/-- The candidate of a path: the file beside the file, or below the root, of the same project. -/
def pathCandidates (file : String) (source : Nat) (target : String) : List Nat :=
  let root := (node nodes source).root
  let bases := [paths.beside file target, paths.below root target]
  (bases.findSome? fun relative =>
    match (byFile nodes relative).getLast? with
    | some place => if (node nodes place).root = root then some place else none
    | none => none).toList

/-- The kinds whose members are found from outside. -/
def typeKinds : List String := ["class", "struct"]

/-- A symbol may be what a name means. -/
def eligible (source : Nat) (raw : RawEdge) (place : Nat) : Bool :=
  let caller := node nodes source
  let candidate := node nodes place
  let parent := candidate.data.parent
  let callerParent := caller.data.parent
  if candidate.root ≠ caller.root ∨ candidate.lang ≠ caller.lang then false
  else if raw.kind = "calls" ∧ raw.receiver ≠ "" ∧
      ((raw.receiver ≠ "self" ∧ raw.receiver ≠ "this") ∨ callerParent = "" ∨
        parent ≠ callerParent) then
    false
  else if raw.kind = "calls" ∧ raw.receiver = "" ∧ raw.scope = "" ∧ parent ≠ "" ∧
      parent ≠ callerParent ∧ candidate.data.kind ∉ typeKinds then
    false
  else if raw.kind = "calls" ∧ raw.scope ≠ "" ∧ parent ≠ raw.scope ∧
      ¬ (raw.scope ++ "::").toList <+: candidate.data.name.toList then
    false
  else if raw.kind = "references" then
    if raw.target.utf8ByteSize ≤ 3 then false
    else if (candidate.data.kind = "variable" ∧ candidate.lang ≠ "hcl") ∨
        candidate.data.kind = "file" then
      false
    else if parent ≠ "" ∧ parent ≠ callerParent ∧ candidate.data.kind ∉ typeKinds then false
    else true
  else true

/-- The candidates of a name; those of the file itself are preferred. -/
def namedCandidates (file : String) (source : Nat) (raw : RawEdge) : List Nat :=
  let candidates := (named nodes raw.target).filter (eligible nodes source raw)
  let here := candidates.filter fun place => (node nodes place).file = file
  if here.isEmpty then candidates else here

/-- The node that an edge starts at and its candidates. -/
def candidatesOf (file : String) (source : Nat) (raw : RawEdge) : Nat × List Nat :=
  if raw.kind = "imports" then
    let back := (byFile nodes file).getLast?.getD source
    (back, importCandidates paths nodes file back raw.target)
  else if raw.kind = "references" ∧ raw.fileReference = true then
    (source, pathCandidates paths nodes file source raw.target)
  else (source, namedCandidates nodes file source raw)

/-- The edge that is added for a raw edge, none when it is passed over. The candidates are compared
with their number only, so their order does not matter. -/
def resolve (file : String) (raw : RawEdge) : Option Edge := do
  let around ← enclosing nodes file raw.line
  let source ← channelSource nodes raw (derivedSource nodes file raw around)
  let (start, candidates) := candidatesOf paths nodes file source raw
  let only := single candidates.dedup
  if raw.kind = "references" ∧ only = none then none
  else
    some
      { «from» := start, «to» := only, kind := raw.kind, surface := raw.target,
        confidence := if only = none then "EXTRACTED" else "INFERRED",
        resolution :=
          if only ≠ none then "unique_name"
          else if candidates.isEmpty then "unresolved"
          else "AMBIGUOUS",
        evidenceFile := file, line := raw.line }

end Resolve

/-! ## Building -/

/-- `seen`: what makes two edges the same. -/
def Edge.key (edge : Edge) : Nat × Option Nat × String × String :=
  (edge.from, edge.to, edge.kind, edge.surface)

/-- The graph: the nodes, the edges, and the edges of every node. -/
structure Graph where
  /-- The nodes. -/
  nodes : List Node
  /-- The edges. -/
  edges : List Edge
  /-- The places of the edges at a node. -/
  incident : Nat → List Nat

/-- An edge is noted at a node. -/
def note (incident : Nat → List Nat) (place id : Nat) : Nat → List Nat := fun other =>
  if other = place then incident other ++ [id] else incident other

/-- `add`: an edge from a node to itself is left out, and so is one that is there. -/
def add (graph : Graph) (edge : Edge) : Graph :=
  if edge.to = some edge.from then graph
  else if edge.key ∈ graph.edges.map Edge.key then graph
  else
    let id := graph.edges.length
    let started := note graph.incident edge.from id
    { graph with
      edges := graph.edges ++ [edge]
      incident :=
        match edge.to with
        | none => started
        | some goal => note started goal id }

/-- The edges that are added for the raw edges of all files, one file after the other. -/
def attempts (paths : Paths) (files : Files) : List Edge :=
  files.flatMap fun item => item.2.edges.filterMap (resolve paths (nodesFrom paths files) item.1)

/-- `rebuild`. -/
def rebuild (paths : Paths) (files : Files) : Graph :=
  (attempts paths files).foldl add
    { nodes := nodesFrom paths files, edges := [], incident := fun _ => [] }

/-! ## What is built -/

/-- What is true of a graph while edges are added. -/
structure Built (graph : Graph) : Prop where
  /-- The edges at a node are those that start or end there. -/
  incident : ∀ place id, id ∈ graph.incident place ↔
    ∃ edge, graph.edges[id]? = some edge ∧ (edge.from = place ∨ edge.to = some place)
  /-- No edge goes from a node to itself. -/
  loopless : ∀ edge ∈ graph.edges, edge.to ≠ some edge.from
  /-- No two edges are the same. -/
  distinct : (graph.edges.map Edge.key).Nodup

@[simp] theorem mem_note {incident : Nat → List Nat} {place id other one : Nat} :
    one ∈ note incident place id other ↔ one ∈ incident other ∨ other = place ∧ one = id := by
  unfold note
  split <;> simp_all

/-- What an added edge changes. -/
theorem add_cases (graph : Graph) (edge : Edge) :
    add graph edge = graph ∨
      edge.to ≠ some edge.from ∧ edge.key ∉ graph.edges.map Edge.key ∧
        (add graph edge).nodes = graph.nodes ∧ (add graph edge).edges = graph.edges ++ [edge] ∧
        ∀ place id, id ∈ (add graph edge).incident place ↔
          id ∈ graph.incident place ∨
            (edge.from = place ∨ edge.to = some place) ∧ id = graph.edges.length := by
  unfold add
  split
  · exact .inl rfl
  · split
    · exact .inl rfl
    · refine .inr ⟨‹_›, ‹_›, rfl, rfl, fun place id => ?_⟩
      dsimp only
      cases edge.to with
      | none =>
        simp only [mem_note, reduceCtorEq, or_false]
        rw [eq_comm]
      | some goal =>
        simp only [mem_note, Option.some.injEq, or_assoc, or_and_right]
        rw [@eq_comm _ place edge.from, @eq_comm _ place goal]

theorem Built.add {graph : Graph} (built : Built graph) (edge : Edge) :
    Built (CodeNavigation.add graph edge) := by
  rcases add_cases graph edge with same | ⟨apart, new, _, edges, incident⟩
  · rwa [same]
  · refine ⟨fun place id => ?_, fun other inside => ?_, ?_⟩
    · rw [incident, built.incident, edges]
      constructor
      · rintro (⟨other, there, ends⟩ | ⟨ends, rfl⟩)
        · have before := (List.getElem?_eq_some_iff.mp there).1
          exact ⟨other, by rwa [List.getElem?_append_left before], ends⟩
        · exact ⟨edge, List.getElem?_concat_length, ends⟩
      · rintro ⟨other, there, ends⟩
        rcases Nat.lt_trichotomy id graph.edges.length with before | same | behind
        · rw [List.getElem?_append_left before] at there
          exact .inl ⟨other, there, ends⟩
        · rw [same, List.getElem?_concat_length, Option.some.injEq] at there
          exact .inr ⟨there ▸ ends, same⟩
        · rw [List.getElem?_eq_none (by rw [List.length_append]; exact behind)] at there
          contradiction
    · rw [edges] at inside
      rcases List.mem_append.mp inside with before | now
      · exact built.loopless other before
      · rwa [List.mem_singleton.mp now]
    · rw [edges, List.map_append, List.map_singleton, List.nodup_append]
      refine ⟨built.distinct, List.nodup_singleton _, fun one first other second same => ?_⟩
      rw [List.mem_singleton.mp second] at same
      exact new (same ▸ first)

theorem Built.add_all {graph : Graph} (built : Built graph) (edges : List Edge) :
    Built (edges.foldl CodeNavigation.add graph) := by
  induction edges generalizing graph with
  | nil => exact built
  | cons edge edges ih => exact ih (built.add edge)

/-- The graph of the files is built. -/
theorem built_rebuild (paths : Paths) (files : Files) : Built (rebuild paths files) := by
  apply Built.add_all
  exact ⟨fun _ _ => by simp, fun _ inside => absurd inside List.not_mem_nil, List.nodup_nil⟩

/-- The nodes stay as they are when edges are added. -/
theorem nodes_add_all (edges : List Edge) (graph : Graph) :
    (edges.foldl add graph).nodes = graph.nodes := by
  induction edges generalizing graph with
  | nil => rfl
  | cons edge edges ih =>
    rw [List.foldl_cons, ih]
    rcases add_cases graph edge with same | ⟨_, _, nodes, _⟩
    · rw [same]
    · exact nodes

@[simp] theorem nodes_rebuild (paths : Paths) (files : Files) :
    (rebuild paths files).nodes = nodesFrom paths files := nodes_add_all _ _

/-- Of the edges that are the same, the first that is no loop is in the graph. -/
theorem find_add_all (edges : List Edge) (graph : Graph)
    (key : Nat × Option Nat × String × String) :
    (edges.foldl add graph).edges.find? (·.key = key) =
      (graph.edges.find? (·.key = key)).or
        (edges.find? fun edge => edge.key = key ∧ edge.to ≠ some edge.from) := by
  induction edges generalizing graph with
  | nil => simp
  | cons edge edges ih =>
    rw [List.foldl_cons, ih, List.find?_cons]
    unfold add
    by_cases loop : edge.to = some edge.from
    · rw [if_pos loop]
      simp [loop]
    · rw [if_neg loop]
      by_cases there : edge.key ∈ graph.edges.map Edge.key
      · rw [if_pos there]
        by_cases same : edge.key = key
        · obtain ⟨other, inside, equal⟩ := List.mem_map.mp there
          have found : (graph.edges.find? (·.key = key)).isSome := by
            rw [List.find?_isSome]
            exact ⟨other, inside, by simpa [equal] using same⟩
          obtain ⟨first, found⟩ := Option.isSome_iff_exists.mp found
          rw [found, Option.some_or, Option.some_or]
        · simp [same]
      · rw [if_neg there]
        dsimp only
        rw [List.find?_append, Option.or_assoc]
        by_cases same : edge.key = key
        · simp [same, loop]
        · simp [same]

/-- Every edge of the graph was added. -/
theorem mem_add_all {edges : List Edge} {graph : Graph} {edge : Edge}
    (inside : edge ∈ (edges.foldl add graph).edges) : edge ∈ graph.edges ∨ edge ∈ edges := by
  induction edges generalizing graph with
  | nil => exact .inl inside
  | cons first edges ih =>
    rcases ih inside with before | later
    · rcases add_cases graph first with same | ⟨_, _, _, added, _⟩
      · rw [same] at before
        exact .inl before
      · rw [added] at before
        rcases List.mem_append.mp before with old | new
        · exact .inl old
        · exact .inr (List.mem_singleton.mp new ▸ List.mem_cons_self)
    · exact .inr (List.mem_cons_of_mem _ later)

/-- Every edge of the graph comes from a raw edge. -/
theorem mem_rebuild {paths : Paths} {files : Files} {edge : Edge}
    (inside : edge ∈ (rebuild paths files).edges) : edge ∈ attempts paths files := by
  rcases mem_add_all inside with before | added
  · exact absurd before List.not_mem_nil
  · exact added

/-- An edge with a property is in the graph exactly when the first of the added ones that are the
same has it. -/
theorem recorded_iff {paths : Paths} {files : Files} {start : Nat} {goal : Option Nat}
    (apart : goal ≠ some start) {kind surface : String} (property : Edge → Prop) :
    (∃ edge ∈ (rebuild paths files).edges, edge.key = (start, goal, kind, surface) ∧
      property edge) ↔
      ∃ edge, (attempts paths files).find? (·.key = (start, goal, kind, surface)) = some edge ∧
        property edge := by
  have built := built_rebuild paths files
  have no_loop (edge : Edge) (equal : edge.key = (start, goal, kind, surface)) :
      edge.to ≠ some edge.from := by
    have first : edge.from = start := congrArg Prod.fst equal
    have second : edge.to = goal := congrArg (·.2.1) equal
    rwa [first, second]
  have found : (rebuild paths files).edges.find? (·.key = (start, goal, kind, surface)) =
      (attempts paths files).find? (·.key = (start, goal, kind, surface)) := by
    rw [rebuild, find_add_all]
    have same : (fun edge : Edge => decide (edge.key = (start, goal, kind, surface) ∧
        edge.to ≠ some edge.from)) =
          fun edge => decide (edge.key = (start, goal, kind, surface)) := by
      funext edge
      exact decide_eq_decide.mpr ⟨And.left, fun equal => ⟨equal, no_loop edge equal⟩⟩
    rw [same, List.find?_nil, Option.none_or]
  rw [← found]
  constructor
  · rintro ⟨edge, inside, equal, holds⟩
    obtain ⟨first, there⟩ : ∃ first,
        (rebuild paths files).edges.find? (·.key = (start, goal, kind, surface)) = some first := by
      rw [← Option.isSome_iff_exists, List.find?_isSome]
      exact ⟨edge, inside, decide_eq_true equal⟩
    have passes := List.find?_some there
    have key : first.key = edge.key := (of_decide_eq_true passes).trans equal.symm
    have only : first = edge :=
      List.inj_on_of_nodup_map built.distinct (List.mem_of_find?_eq_some there) inside key
    exact ⟨edge, only ▸ there, holds⟩
  · rintro ⟨edge, there, holds⟩
    have passes := List.find?_some there
    exact ⟨edge, List.mem_of_find?_eq_some there, of_decide_eq_true passes, holds⟩

/-! ## The ends of an edge are nodes -/

section Range

variable {paths : Paths} {nodes : List Node} {file : String} {raw : RawEdge}

theorem single_mem {items : List Nat} {place : Nat} (only : single items = some place) :
    place ∈ items := by
  match items with
  | [_] =>
    obtain rfl := Option.some.inj only
    exact List.mem_cons_self

theorem named_lt {name : String} {place : Nat} (found : place ∈ named nodes name) :
    place < nodes.length := List.mem_range.mp (List.mem_of_mem_filter found)

theorem byFile_lt {place : Nat} (found : place ∈ byFile nodes file) : place < nodes.length :=
  List.mem_range.mp (List.mem_of_mem_filter found)

/-- The symbol around a line is one of the file. -/
theorem enclosing_mem {line : Int} {place : Nat} (found : enclosing nodes file line = some place) :
    place ∈ byFile nodes file := by
  have each : ∀ (places : List Nat) (best : Option Nat × Int),
      (∀ other, best.1 = some other → other ∈ byFile nodes file) →
      (∀ other ∈ places, other ∈ byFile nodes file) →
      ∀ other, (places.foldl (narrower nodes line) best).1 = some other →
        other ∈ byFile nodes file := by
    intro places
    induction places with
    | nil => exact fun best known _ => known
    | cons first places ih =>
      intro best known inside
      obtain ⟨here, later⟩ := List.forall_mem_cons.mp inside
      refine ih _ (fun other chosen => ?_) later
      unfold narrower at chosen
      dsimp only at chosen
      split at chosen
      · exact Option.some.inj chosen ▸ here
      · exact known other chosen
  exact each _ _ (fun _ none_yet => absurd none_yet (by simp)) (fun _ inside => inside) place found

theorem derivedSource_lt {source : Nat} (inside : source < nodes.length) :
    derivedSource nodes file raw source < nodes.length := by
  unfold derivedSource
  split
  · cases only :
      single ((named nodes raw.derived).filter fun place => (node nodes place).file = file) with
    | none => exact inside
    | some place => exact named_lt (List.mem_of_mem_filter (single_mem only))
  · exact inside

theorem channelSource_lt {source found : Nat} (inside : source < nodes.length)
    (only : channelSource nodes raw source = some found) : found < nodes.length := by
  unfold channelSource at only
  split at only
  · exact Option.some.inj only ▸ inside
  · exact named_lt (List.mem_of_mem_filter (single_mem only))

theorem filed_lt {entry : String × Nat × Nat} (found : entry ∈ filed nodes) :
    entry.2.2 < nodes.length := by
  obtain ⟨path, _, made⟩ := List.mem_filterMap.mp found
  split at made
  · rename_i front back _ last
    obtain rfl := Option.some.inj made
    exact byFile_lt (List.mem_of_getLast? last)
  · contradiction

theorem importedFiles_lt {source : Nat} {target : String} {place : Nat}
    (found : place ∈ importedFiles paths nodes source target) : place < nodes.length := by
  obtain ⟨entry, inside, chosen⟩ := List.mem_filterMap.mp found
  split at chosen
  · contradiction
  · dsimp only at chosen
    split at chosen
    · exact Option.some.inj chosen ▸ filed_lt inside
    · contradiction

theorem importCandidates_lt {source : Nat} {target : String} {place : Nat}
    (found : place ∈ importCandidates paths nodes file source target) : place < nodes.length := by
  unfold importCandidates at found
  cases last : (byFile nodes (paths.beside file target)).getLast? with
  | some only =>
    have same : place = only := by simpa [last] using found
    rw [same]
    exact byFile_lt (List.mem_of_getLast? last)
  | none =>
    simp only [last] at found
    split at found
    · exact named_lt (List.mem_of_mem_filter found)
    · exact importedFiles_lt found

theorem pathCandidates_lt {source : Nat} {target : String} {place : Nat}
    (found : place ∈ pathCandidates paths nodes file source target) : place < nodes.length := by
  unfold pathCandidates at found
  dsimp only at found
  obtain ⟨base, _, chosen⟩ := List.exists_of_findSome?_eq_some (Option.mem_toList.mp found)
  split at chosen
  · rename_i last
    split at chosen
    · exact Option.some.inj chosen ▸ byFile_lt (List.mem_of_getLast? last)
    · contradiction
  · contradiction

theorem namedCandidates_lt {source place : Nat}
    (found : place ∈ namedCandidates nodes file source raw) : place < nodes.length := by
  unfold namedCandidates at found
  dsimp only at found
  split at found
  · exact named_lt (List.mem_of_mem_filter found)
  · exact named_lt (List.mem_of_mem_filter (List.mem_of_mem_filter found))

/-- The start of an edge and its candidates are nodes. -/
theorem candidatesOf_lt {source : Nat} (inside : source < nodes.length) :
    (candidatesOf paths nodes file source raw).1 < nodes.length ∧
      ∀ place ∈ (candidatesOf paths nodes file source raw).2, place < nodes.length := by
  unfold candidatesOf
  split
  · refine ⟨?_, fun place => importCandidates_lt⟩
    dsimp only
    cases last : (byFile nodes file).getLast? with
    | none => exact inside
    | some place => exact byFile_lt (List.mem_of_getLast? last)
  · split
    · exact ⟨inside, fun place => pathCandidates_lt⟩
    · exact ⟨inside, fun place => namedCandidates_lt⟩

/-- The ends of a resolved edge are nodes. -/
theorem resolve_lt {edge : Edge} (resolved : resolve paths nodes file raw = some edge) :
    edge.from < nodes.length ∧ ∀ goal, edge.to = some goal → goal < nodes.length := by
  unfold resolve at resolved
  simp only [Option.bind_eq_bind, Option.bind_eq_some_iff] at resolved
  obtain ⟨around, enclosed, source, channel, made⟩ := resolved
  have bounds := @candidatesOf_lt paths nodes file raw source
    (channelSource_lt (derivedSource_lt (byFile_lt (enclosing_mem enclosed))) channel)
  split at made
  · contradiction
  · obtain rfl := Option.some.inj made
    exact ⟨bounds.1, fun goal only => bounds.2 goal (List.mem_dedup.mp (single_mem only))⟩

end Range

/-- The ends of the edges of the graph are nodes. -/
theorem rebuild_lt {paths : Paths} {files : Files} {edge : Edge}
    (inside : edge ∈ (rebuild paths files).edges) :
    edge.from < (rebuild paths files).nodes.length ∧
      ∀ goal, edge.to = some goal → goal < (rebuild paths files).nodes.length := by
  obtain ⟨_, _, made⟩ := List.mem_flatMap.mp (mem_rebuild inside)
  obtain ⟨_, _, resolved⟩ := List.mem_filterMap.mp made
  rw [nodes_rebuild]
  exact resolve_lt resolved

/-- Paths of files that lie beside each other, all in one language. -/
def flat : Paths where
  language _ := "python"
  beside _ target := target
  below _ target := target
  relative _ file := file

end Chitta.CodeNavigation
