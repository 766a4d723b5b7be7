import Mathlib.Data.List.Sort
import Mathlib.Logic.Function.Iterate
import Mathlib.Logic.Relation
import Chitta.CodeNavigation.Graph

/-!
# Communities

Every symbol begins with its own label and takes, in each of six rounds, the label that most of the
symbols have that it is joined to by a resolved call. All labels of a round are taken from the round
before. The names are those of the source.
-/
namespace Chitta.CodeNavigation

variable (graph : Graph)

/-- The labels that the calls of a symbol vote for. -/
def ballots (labels : List Nat) (place : Nat) : List Nat :=
  (graph.incident place).filterMap fun id => do
    let edge ← graph.edges[id]?
    let goal ← edge.to
    if edge.kind = "calls" then some (labels.getD (if edge.from = place then goal else edge.from) 0)
    else none

/-- `votes`: the labels in their order, with the number of votes for each. -/
def votes (ballots : List Nat) : List (Nat × Nat) :=
  (ballots.dedup.mergeSort (· ≤ ·)).map fun label => (label, ballots.count label)

/-- One label of the loop over the votes: the most votes so far and the label that has them. -/
def ahead (best : Nat × Nat) (vote : Nat × Nat) : Nat × Nat :=
  if best.1 < vote.2 then (vote.2, vote.1) else best

/-- The label of a symbol after a round: the first of those with the most votes, or its own when
there are none. -/
def elected (labels : List Nat) (place : Nat) : Nat :=
  ((votes (ballots graph labels place)).foldl ahead (0, labels.getD place 0)).2

/-- One round. -/
def propagate (labels : List Nat) : List Nat :=
  (List.range graph.nodes.length).map (elected graph labels)

/-- The labels after a number of rounds. -/
def labelsAfter (rounds : Nat) : List Nat :=
  (propagate graph)^[rounds] (List.range graph.nodes.length)

/-- `labels`. -/
def labels : List Nat := labelsAfter graph 6

/-! ## Components -/

variable {graph}

/-- Two symbols are joined by a resolved call, in either direction. -/
def Calls (graph : Graph) (one other : Nat) : Prop :=
  ∃ edge ∈ graph.edges, edge.kind = "calls" ∧
    (edge.from = one ∧ edge.to = some other ∨ edge.from = other ∧ edge.to = some one)

/-- Two symbols are in one component of the resolved calls. -/
def SameComponent (graph : Graph) : Nat → Nat → Prop := Relation.ReflTransGen (Calls graph)

/-- Calls join both ways. -/
theorem Calls.symm {one other : Nat} (calls : Calls graph one other) : Calls graph other one := by
  obtain ⟨edge, inside, kind, ends⟩ := calls
  exact ⟨edge, inside, kind, ends.symm⟩

/-- Being in one component goes both ways. -/
theorem SameComponent.symm {one other : Nat} (same : SameComponent graph one other) :
    SameComponent graph other one := by
  induction same with
  | refl => exact .refl
  | tail _ step ih => exact .head step.symm ih

/-- A vote is for the label of a symbol that a call joins to this one. -/
theorem mem_ballots (built : Built graph) {labels : List Nat} {place label : Nat}
    (vote : label ∈ ballots graph labels place) :
    ∃ other, Calls graph place other ∧ label = labels.getD other 0 := by
  simp only [ballots, List.mem_filterMap, Option.bind_eq_bind, Option.bind_eq_some_iff] at vote
  obtain ⟨id, at_place, edge, there, goal, to_goal, chosen⟩ := vote
  obtain ⟨found, again, ends⟩ := (built.incident place id).mp at_place
  obtain rfl : found = edge := Option.some.inj (again.symm.trans there)
  have inside : found ∈ graph.edges := List.mem_of_getElem? there
  split at chosen
  · rename_i kind
    have taken := (Option.some.inj chosen).symm
    by_cases started : found.from = place
    · rw [if_pos started] at taken
      exact ⟨goal, ⟨found, inside, kind, .inl ⟨started, to_goal⟩⟩, taken⟩
    · rw [if_neg started] at taken
      exact ⟨found.from, ⟨found, inside, kind, .inr ⟨rfl, ends.resolve_left started⟩⟩, taken⟩
  · contradiction

/-- The label that is chosen is the one before or one that has votes. -/
theorem mem_ahead (candidates : List (Nat × Nat)) (best : Nat × Nat) :
    (candidates.foldl ahead best).2 = best.2 ∨
      ∃ vote ∈ candidates, (candidates.foldl ahead best).2 = vote.1 := by
  induction candidates generalizing best with
  | nil => exact .inl rfl
  | cons vote candidates ih =>
    rcases ih (ahead best vote) with same | ⟨other, inside, chosen⟩
    · rw [List.foldl_cons, same]
      unfold ahead
      split
      · exact .inr ⟨vote, List.mem_cons_self, rfl⟩
      · exact .inl rfl
    · exact .inr ⟨other, List.mem_cons_of_mem _ inside, chosen⟩

/-- A symbol keeps its label or takes that of a symbol that a call joins to it. -/
theorem elected_cases (built : Built graph) (labels : List Nat) (place : Nat) :
    elected graph labels place = labels.getD place 0 ∨
      ∃ other, Calls graph place other ∧ elected graph labels place = labels.getD other 0 := by
  rcases mem_ahead (votes (ballots graph labels place)) (0, labels.getD place 0) with
    same | ⟨vote, inside, chosen⟩
  · exact .inl same
  · right
    obtain ⟨label, voted, rfl⟩ := List.mem_map.mp inside
    rw [List.mem_mergeSort, List.mem_dedup] at voted
    obtain ⟨other, calls, label_of⟩ := mem_ballots built voted
    exact ⟨other, calls, chosen.trans label_of⟩

/-! ## What the rounds keep -/

/-- Every label is that of a symbol of the same component. -/
structure Labelled (graph : Graph) (labels : List Nat) : Prop where
  /-- Every symbol has a label. -/
  length : labels.length = graph.nodes.length
  /-- The label is a symbol of its component. -/
  component : ∀ place < graph.nodes.length, SameComponent graph place (labels.getD place 0)

/-- The ends of a call are symbols. -/
theorem Calls.lt {paths : Paths} {files : Files} {one other : Nat}
    (calls : Calls (rebuild paths files) one other) :
    other < (rebuild paths files).nodes.length := by
  obtain ⟨edge, inside, _, ⟨_, to_other⟩ | ⟨started, _⟩⟩ := calls
  · exact (rebuild_lt inside).2 other to_other
  · exact started ▸ (rebuild_lt inside).1

/-- A component has symbols only, when one of them is a symbol. -/
theorem SameComponent.lt {paths : Paths} {files : Files} {one other : Nat}
    (same : SameComponent (rebuild paths files) one other)
    (inside : one < (rebuild paths files).nodes.length) :
    other < (rebuild paths files).nodes.length := by
  cases same with
  | refl => exact inside
  | tail _ step => exact step.lt

theorem getD_range {count place : Nat} (inside : place < count) :
    (List.range count).getD place 0 = place := by
  simp [List.getD, List.getElem?_range inside]

theorem getD_propagate {labels : List Nat} {place : Nat} (inside : place < graph.nodes.length) :
    (propagate graph labels).getD place 0 = elected graph labels place := by
  simp [propagate, List.getD, List.getElem?_range inside]

/-- At first every symbol has its own label. -/
theorem labelled_range : Labelled graph (List.range graph.nodes.length) where
  length := List.length_range
  component place inside := by
    rw [getD_range inside]
    exact .refl

variable {paths : Paths} {files : Files}

/-- A round keeps the labels in their components. -/
theorem Labelled.propagate {labels : List Nat} (labelled : Labelled (rebuild paths files) labels) :
    Labelled (rebuild paths files) (propagate (rebuild paths files) labels) where
  length := by rw [CodeNavigation.propagate, List.length_map, List.length_range]
  component place inside := by
    rw [getD_propagate inside]
    rcases elected_cases (built_rebuild paths files) labels place with same | ⟨other, calls, taken⟩
    · rw [same]
      exact labelled.component place inside
    · rw [taken]
      exact .head calls (labelled.component other calls.lt)

/-- Any number of rounds keeps the labels in their components. -/
theorem labelled_rounds (paths : Paths) (files : Files) (rounds : Nat) :
    Labelled (rebuild paths files) (labelsAfter (rebuild paths files) rounds) := by
  induction rounds with
  | zero => exact labelled_range
  | succ rounds ih =>
    rw [labelsAfter, Function.iterate_succ_apply']
    exact ih.propagate

/-- A symbol without a call is alone in its component. -/
theorem SameComponent.alone {one other : Nat} (same : SameComponent graph one other)
    (alone : ∀ other, ¬ Calls graph one other) : other = one := by
  rcases Relation.ReflTransGen.cases_head same with rfl | ⟨next, step, _⟩
  · rfl
  · exact absurd step (alone next)

/-- After every round the label of a symbol is a symbol of the same component of the resolved calls,
a symbol without such a call has its own, and two symbols with equal labels are in one component. -/
theorem communities_in_components (paths : Paths) (files : Files) (rounds : Nat) :
    let graph := rebuild paths files
    let labels := labelsAfter graph rounds
    (∀ place < graph.nodes.length,
        labels.getD place 0 < graph.nodes.length ∧
          SameComponent graph place (labels.getD place 0)) ∧
      (∀ place < graph.nodes.length, (∀ other, ¬ Calls graph place other) →
        labels.getD place 0 = place) ∧
      ∀ one < graph.nodes.length, ∀ other < graph.nodes.length,
        labels.getD one 0 = labels.getD other 0 → SameComponent graph one other := by
  intro graph labels
  have labelled : Labelled graph labels := labelled_rounds paths files rounds
  refine ⟨fun place inside => ?_, fun place inside alone => ?_,
    fun one first other second equal => ?_⟩
  · have same := labelled.component place inside
    exact ⟨same.lt inside, same⟩
  · exact (labelled.component place inside).alone alone
  · have here := labelled.component one first
    rw [equal] at here
    exact here.trans (labelled.component other second).symm

end Chitta.CodeNavigation
