import Mathlib.Data.List.Chain
import Mathlib.Data.List.Induction
import Mathlib.Data.List.Nodup
import Mathlib.Data.List.Perm.Subperm

/-!
# Breadth-first search

A search keeps, for every place it has reached, the place it came from, and a queue of the places
whose neighbours it has not looked at. The depth of a place is the number of steps back to the
start. The queue is in order of depth, and no place is deeper by more than one than what is in the
queue, so every place is reached by a shortest way.
-/
namespace Chitta.BreadthFirst

variable {V : Type} [DecidableEq V]

/-- The places that were reached with those they were reached from, the latest first, and the
queue. -/
structure State (V : Type) where
  /-- Where each place was reached from; the start stands for itself. -/
  previous : List (V × V)
  /-- The places whose neighbours have not been looked at. -/
  queue : List V

/-- A place has been reached. -/
def State.known (state : State V) (place : V) : Prop := place ∈ state.previous.map Prod.fst

instance (state : State V) (place : V) : Decidable (state.known place) :=
  inferInstanceAs (Decidable (place ∈ state.previous.map Prod.fst))

/-- A neighbour is reached from a place and queued. -/
def State.reach (state : State V) (place neighbour : V) : State V where
  previous := (neighbour, place) :: state.previous
  queue := state.queue ++ [neighbour]

/-- A neighbour is visited: it is reached unless it was reached before. -/
def visit (place : V) (state : State V) (neighbour : V) : State V :=
  if state.known neighbour then state else state.reach place neighbour

/-- The search: it ends with an empty queue or when the goal is reached. -/
def search (next : V → List V) (goal : V) : Nat → State V → State V
  | 0, state => state
  | fuel + 1, state =>
    if state.known goal then state
    else
      match state.queue with
      | [] => state
      | place :: rest =>
        search next goal fuel ((next place).foldl (visit place) { state with queue := rest })

/-- Where the search begins. -/
def initial (start : V) : State V := { previous := [(start, start)], queue := [start] }

/-- The way back from a place, by the places it was reached from. -/
def back (previous : List (V × V)) (start : V) : Nat → V → List V
  | 0, _ => []
  | fuel + 1, place =>
    if place = start then [place]
    else
      match previous.find? (·.1 = place) with
      | some found => place :: back previous start fuel found.2
      | none => [place]

/-- A place that is reached in a number of steps. -/
inductive Reaches (next : V → List V) (start : V) : Nat → V → Prop where
  /-- The start. -/
  | start : Reaches next start 0 start
  /-- One step further. -/
  | step {steps : Nat} {place neighbour : V} : Reaches next start steps place →
      neighbour ∈ next place → Reaches next start (steps + 1) neighbour

omit [DecidableEq V] in
/-- What has been reached after one more place. -/
@[simp] theorem known_reach (state : State V) (place neighbour other : V) :
    (state.reach place neighbour).known other ↔ other = neighbour ∨ state.known other := by
  simp [State.known, State.reach]

/-! ## What a search keeps -/

/-- The places that were reached, with their depths: `places` are all that there are. -/
structure Tree (next : V → List V) (places : List V) (start : V) (depth : V → Nat)
    (state : State V) :
    Prop where
  /-- The start was reached. -/
  start_known : state.known start
  /-- It is at depth zero. -/
  start_depth : depth start = 0
  /-- Every other place was reached from a neighbour of less depth. -/
  source : ∀ place, state.known place → place ≠ start →
    ∃ found, state.previous.find? (·.1 = place) = some found ∧ state.known found.2 ∧
      place ∈ next found.2 ∧ depth place = depth found.2 + 1
  /-- No place is deeper than the number of the others. -/
  shallow : ∀ place, state.known place → depth place < state.previous.length
  /-- No place was reached twice. -/
  once : (state.previous.map Prod.fst).Nodup
  /-- There are no other places. -/
  inside : ∀ place, state.known place → place ∈ places
  /-- What is in the queue was reached. -/
  queued : ∀ place ∈ state.queue, state.known place
  /-- The queue is in order of depth. -/
  sorted : state.queue.Pairwise fun one other => depth one ≤ depth other

/-- What is true between the steps of a search. -/
structure Between (next : V → List V) (places : List V) (start : V) (depth : V → Nat)
    (state : State V) : Prop extends Tree next places start depth state where
  /-- No place is deeper by more than one than what is in the queue. -/
  near : ∀ place, state.known place → ∀ other ∈ state.queue, depth place ≤ depth other + 1
  /-- The neighbours of a place that is not in the queue were reached. -/
  done : ∀ place, state.known place → place ∉ state.queue →
    ∀ neighbour ∈ next place, state.known neighbour ∧ depth neighbour ≤ depth place + 1

/-- What is true while the neighbours of a place are visited, some of which were. -/
structure Visiting (next : V → List V) (places : List V) (start : V) (place : V) (visited : List V)
    (depth : V → Nat) (state : State V) : Prop extends Tree next places start depth state where
  /-- The place was reached. -/
  here : state.known place
  /-- No place is deeper by more than one. -/
  near : ∀ other, state.known other → depth other ≤ depth place + 1
  /-- What is in the queue is as deep at least. -/
  behind : ∀ other ∈ state.queue, depth place ≤ depth other
  /-- The neighbours of another place that is not in the queue were reached. -/
  done : ∀ other, state.known other → other ∉ state.queue → other ≠ place →
    ∀ neighbour ∈ next other, state.known neighbour ∧ depth neighbour ≤ depth other + 1
  /-- The visited neighbours were reached. -/
  looked : ∀ neighbour ∈ visited, state.known neighbour

variable {next : V → List V} {places : List V} {start place goal : V} {visited : List V}
variable {depth : V → Nat} {state : State V}

/-- A search begins with the start at depth zero. -/
theorem between_initial (inside : start ∈ places) :
    Between next places start (fun _ => 0) (initial start) := by
  have only : ∀ place, (initial start).known place ↔ place = start := by
    intro place
    simp [State.known, initial]
  refine ⟨⟨(only start).mpr rfl, rfl, ?_, ?_, ?_, ?_, ?_, ?_⟩, ?_, ?_⟩
  · intro place known other
    exact absurd ((only place).mp known) other
  · exact fun _ _ => Nat.one_pos
  · simp [initial]
  · intro place known
    rwa [(only place).mp known]
  · intro place queued
    exact (only place).mpr (List.mem_singleton.mp queued)
  · exact List.pairwise_singleton _ _
  · intro _ _ _ _
    exact Nat.zero_le _
  · intro place known free
    exact absurd (List.mem_singleton.mpr ((only place).mp known)) free

/-- The neighbours of the first place of the queue are visited next. -/
theorem Between.pop {rest : List V} (between : Between next places start depth state)
    (queue : state.queue = place :: rest) :
    Visiting next places start place [] depth { state with queue := rest } := by
  have queued : ∀ other ∈ rest, other ∈ state.queue := by
    intro other inside
    rw [queue]
    exact List.mem_cons_of_mem _ inside
  have first : place ∈ state.queue := by
    rw [queue]
    exact List.mem_cons_self
  have sorted := between.sorted
  rw [queue, List.pairwise_cons] at sorted
  refine ⟨⟨between.start_known, between.start_depth, between.source, between.shallow,
    between.once, between.inside, fun other inside =>
      between.queued other (queued other inside), sorted.2⟩,
    between.queued place first, fun other known => between.near other known place first,
    sorted.1, ?_, fun _ inside => absurd inside List.not_mem_nil⟩
  intro other known free apart
  apply between.done other known
  rw [queue, List.mem_cons]
  exact fun inside => inside.elim apart free

/-- One neighbour is visited. -/
theorem Visiting.visit {neighbour : V}
    (visiting : Visiting next places start place visited depth state)
    (joined : neighbour ∈ next place) (allowed : neighbour ∈ places) :
    ∃ depth', Visiting next places start place (visited ++ [neighbour]) depth'
      (visit place state neighbour) := by
  unfold BreadthFirst.visit
  by_cases known : state.known neighbour
  · rw [if_pos known]
    refine ⟨depth, { visiting with looked := ?_ }⟩
    intro other inside
    rcases List.mem_append.mp inside with before | now
    · exact visiting.looked other before
    · rwa [List.mem_singleton.mp now]
  · rw [if_neg known]
    -- The new place is one step deeper than the one it is reached from.
    refine ⟨Function.update depth neighbour (depth place + 1), ?_⟩
    have other_place {other : V} (there : state.known other) : other ≠ neighbour := by
      rintro rfl
      exact known there
    have old {other : V} (there : state.known other) :
        Function.update depth neighbour (depth place + 1) other = depth other :=
      Function.update_of_ne (other_place there) _ _
    have new : Function.update depth neighbour (depth place + 1) neighbour = depth place + 1 :=
      Function.update_self _ _ _
    have tree : Tree next places start (Function.update depth neighbour (depth place + 1))
        (state.reach place neighbour) := by
      refine ⟨?_, ?_, ?_, ?_, ?_, ?_, ?_, ?_⟩
      · exact (known_reach _ _ _ _).mpr (.inr visiting.start_known)
      · rw [old visiting.start_known, visiting.start_depth]
      · intro other there apart
        rcases (known_reach _ _ _ _).mp there with rfl | before
        · refine ⟨(other, place), ?_, ?_, joined, ?_⟩
          · simp [State.reach]
          · exact (known_reach _ _ _ _).mpr (.inr visiting.here)
          · rw [new, old visiting.here]
        · obtain ⟨found, found_there, from_known, neighbouring, deeper⟩ :=
            visiting.source other before apart
          refine ⟨found, ?_, ?_, neighbouring, ?_⟩
          · simp [State.reach, (other_place before).symm, found_there]
          · exact (known_reach _ _ _ _).mpr (.inr from_known)
          · rw [old before, old from_known, deeper]
      · intro other there
        show _ < state.previous.length + 1
        rcases (known_reach _ _ _ _).mp there with rfl | before
        · rw [new]
          exact Nat.succ_lt_succ (visiting.shallow place visiting.here)
        · rw [old before]
          exact Nat.lt_succ_of_lt (visiting.shallow other before)
      · exact List.nodup_cons.mpr ⟨known, visiting.once⟩
      · intro other there
        rcases (known_reach _ _ _ _).mp there with rfl | before
        · exact allowed
        · exact visiting.inside other before
      · intro other queued
        rcases List.mem_append.mp queued with before | now
        · exact (known_reach _ _ _ _).mpr (.inr (visiting.queued other before))
        · exact (known_reach _ _ _ _).mpr (.inl (List.mem_singleton.mp now))
      · refine List.pairwise_append.mpr ⟨?_, List.pairwise_singleton _ _, ?_⟩
        · refine visiting.sorted.imp_of_mem ?_
          intro one other first second shallower
          rwa [old (visiting.queued one first), old (visiting.queued other second)]
        · intro one first other second
          rw [List.mem_singleton.mp second, new, old (visiting.queued one first)]
          exact visiting.near one (visiting.queued one first)
    refine { tree with here := ?_, near := ?_, behind := ?_, done := ?_, looked := ?_ }
    · exact (known_reach _ _ _ _).mpr (.inr visiting.here)
    · intro other there
      rw [old visiting.here]
      rcases (known_reach _ _ _ _).mp there with rfl | before
      · exact Nat.le_of_eq new
      · rw [old before]
        exact visiting.near other before
    · intro other queued
      rw [old visiting.here]
      rcases List.mem_append.mp queued with before | now
      · rw [old (visiting.queued other before)]
        exact visiting.behind other before
      · rw [List.mem_singleton.mp now, new]
        exact Nat.le_succ _
    · intro other there free apart one joined'
      have before : state.known other := by
        rcases (known_reach _ _ _ _).mp there with rfl | before
        · exact absurd (List.mem_append_right _ List.mem_cons_self) free
        · exact before
      have close := visiting.done other before
        (fun inside => free (List.mem_append_left _ inside)) apart one joined'
      rw [old before, old close.1]
      exact ⟨(known_reach _ _ _ _).mpr (.inr close.1), close.2⟩
    · intro other inside
      rcases List.mem_append.mp inside with before | now
      · exact (known_reach _ _ _ _).mpr (.inr (visiting.looked other before))
      · exact (known_reach _ _ _ _).mpr (.inl (List.mem_singleton.mp now))

/-- All neighbours are visited. -/
theorem Visiting.visit_all {neighbours : List V}
    (visiting : Visiting next places start place visited depth state)
    (joined : ∀ neighbour ∈ neighbours, neighbour ∈ next place ∧ neighbour ∈ places) :
    ∃ depth', Visiting next places start place (visited ++ neighbours) depth'
      (neighbours.foldl (BreadthFirst.visit place) state) := by
  induction neighbours generalizing visited depth state with
  | nil =>
    rw [List.append_nil]
    exact ⟨depth, visiting⟩
  | cons neighbour neighbours ih =>
    obtain ⟨here, later⟩ := List.forall_mem_cons.mp joined
    obtain ⟨_, one⟩ := visiting.visit here.1 here.2
    have all := ih one later
    rwa [List.append_assoc, List.singleton_append] at all

/-- When all its neighbours were visited, a place is done. -/
theorem Visiting.close (visiting : Visiting next places start place (next place) depth state) :
    Between next places start depth state := by
  refine { visiting.toTree with near := ?_, done := ?_ }
  · intro other known queued inside
    have one := visiting.near other known
    have two := visiting.behind queued inside
    omega
  · intro other known free
    by_cases same : other = place
    · subst same
      intro neighbour joined
      have there := visiting.looked neighbour joined
      exact ⟨there, visiting.near neighbour there⟩
    · exact visiting.done other known free same

/-- The search keeps what is true between its steps. -/
theorem Between.search (closed : ∀ place ∈ places, ∀ neighbour ∈ next place, neighbour ∈ places)
    (between : Between next places start depth state) (goal : V) (fuel : Nat) :
    ∃ depth', Between next places start depth' (search next goal fuel state) := by
  induction fuel generalizing depth state with
  | zero => exact ⟨depth, between⟩
  | succ fuel ih =>
    unfold BreadthFirst.search
    split
    · exact ⟨depth, between⟩
    · split
      · exact ⟨depth, between⟩
      · rename_i place rest queue
        have first := between.pop queue
        have inside := between.inside place first.here
        obtain ⟨_, all⟩ := first.visit_all fun neighbour joined =>
          ⟨joined, closed place inside neighbour joined⟩
        exact ih all.close

/-! ## The search ends -/

/-- A visit adds as many places as it queues. -/
theorem length_visit (place : V) (neighbours : List V) (state : State V) {finished : Nat}
    (counted : state.previous.length = finished + state.queue.length) :
    let after := neighbours.foldl (visit place) state
    after.previous.length = finished + after.queue.length := by
  induction neighbours generalizing state with
  | nil => exact counted
  | cons neighbour neighbours ih =>
    apply ih
    unfold visit
    split
    · exact counted
    · simp only [State.reach, List.length_cons, List.length_append, List.length_nil]
      omega

/-- A search that has not ended has taken a place from the queue with each step. -/
theorem length_search (next : V → List V) (goal : V) (fuel : Nat) (state : State V) {finished : Nat}
    (counted : state.previous.length = finished + state.queue.length) :
    let after := search next goal fuel state
    after.known goal ∨ after.queue = [] ∨
      after.previous.length = finished + fuel + after.queue.length := by
  induction fuel generalizing state finished with
  | zero => exact .inr (.inr counted)
  | succ fuel ih =>
    unfold search
    split
    · exact .inl ‹_›
    · split
      · exact .inr (.inl ‹_›)
      · rename_i place rest queue
        have taken : state.previous.length = finished + 1 + rest.length := by
          rw [counted, queue, List.length_cons]
          omega
        have after := ih _ (length_visit place (next place) { state with queue := rest } taken)
        have regroup : finished + 1 + fuel = finished + (fuel + 1) := by omega
        rwa [regroup] at after

/-- With a step for every place the search ends. -/
theorem search_ends (closed : ∀ place ∈ places, ∀ neighbour ∈ next place, neighbour ∈ places)
    (inside : start ∈ places) (goal : V) :
    let after := search next goal places.length (initial start)
    after.known goal ∨ after.queue = [] := by
  have counted := length_search next goal places.length (initial start)
    (show (initial start).previous.length = 0 + (initial start).queue.length from rfl)
  obtain ⟨_, between⟩ := (between_initial inside).search closed goal places.length
  generalize search next goal places.length (initial start) = after at counted between
  rcases counted with reached | empty | long
  · exact .inl reached
  · exact .inr empty
  · right
    have few : after.previous.length ≤ places.length := by
      have fits := (between.once.subperm between.inside).length_le
      rwa [List.length_map] at fits
    exact List.length_eq_zero_iff.mp (by omega)

/-! ## What it has found -/

/-- A place was reached as deep as the number of steps to it, or something that is less deep is in
the queue. -/
theorem Between.reaches (between : Between next places start depth state) {steps : Nat}
    (reaches : Reaches next start steps place) :
    (state.known place ∧ depth place ≤ steps) ∨ ∃ other ∈ state.queue, depth other + 1 ≤ steps := by
  induction reaches with
  | start => exact .inl ⟨between.start_known, Nat.le_of_eq between.start_depth⟩
  | @step steps place neighbour _ joined ih =>
    rcases ih with ⟨known, shallow⟩ | ⟨other, queued, shallow⟩
    · by_cases queued : place ∈ state.queue
      · exact .inr ⟨place, queued, by omega⟩
      · obtain ⟨there, close⟩ := between.done place known queued neighbour joined
        exact .inl ⟨there, by omega⟩
    · exact .inr ⟨other, queued, by omega⟩

/-- A place that was reached is no deeper than the number of steps to it. -/
theorem Between.depth_le (between : Between next places start depth state)
    (known : state.known place) {steps : Nat} (reaches : Reaches next start steps place) :
    depth place ≤ steps := by
  rcases between.reaches reaches with ⟨_, shallow⟩ | ⟨other, queued, shallow⟩
  · exact shallow
  · have near := between.near place known other queued
    omega

/-- A route from one place to another. -/
structure Route (next : V → List V) (start goal : V) (route : List V) : Prop where
  /-- It starts at the start. -/
  starts : route.head? = some start
  /-- It ends at the goal. -/
  ends : route.getLast? = some goal
  /-- Each place is a neighbour of the one before. -/
  joined : route.IsChain fun one other => other ∈ next one

omit [DecidableEq V] in
/-- One step more. -/
theorem Route.snoc {route : List V} {other : V} (to_place : Route next start place route)
    (joined : other ∈ next place) : Route next start other (route ++ [other]) := by
  refine ⟨?_, List.getLast?_concat, ?_⟩
  · rw [List.head?_append, to_place.starts]
    rfl
  · refine List.isChain_append.mpr ⟨to_place.joined, List.isChain_singleton _, ?_⟩
    intro last found first same
    rw [to_place.ends, Option.mem_some_iff] at found
    rw [List.head?_cons, Option.mem_some_iff] at same
    rwa [← found, ← same]

omit [DecidableEq V] in
/-- A route has as many steps as places behind the start. -/
theorem Route.reaches {route : List V} (to_goal : Route next start goal route) :
    Reaches next start (route.length - 1) goal := by
  induction route using List.reverseRecOn generalizing goal with
  | nil => exact absurd to_goal.starts (by simp)
  | append_singleton route last ih =>
    have same : last = goal := by simpa using to_goal.ends
    subst same
    cases before : route.getLast? with
    | none =>
      rw [List.getLast?_eq_none_iff] at before
      subst before
      have same : last = start := by simpa using to_goal.starts
      rw [same]
      exact .start
    | some middle =>
      have chain := List.isChain_append.mp to_goal.joined
      have some_place : route ≠ [] := by
        rintro rfl
        contradiction
      have first : route.head? = some start := by
        have whole := to_goal.starts
        rwa [List.head?_append_of_ne_nil _ some_place] at whole
      have shorter := ih ⟨first, before, chain.1⟩
      have positive : 0 < route.length := List.length_pos_iff.mpr some_place
      have steps : (route ++ [last]).length - 1 = route.length - 1 + 1 := by
        rw [List.length_append, List.length_singleton]
        omega
      rw [steps]
      exact .step shorter (chain.2.2 middle before last rfl)

/-- The way back from a place that was reached is a route, in the other order. -/
theorem Tree.back (tree : Tree next places start depth state) (known : state.known place)
    {fuel : Nat} (enough : depth place < fuel) :
    Route next start place (back state.previous start fuel place).reverse ∧
      (BreadthFirst.back state.previous start fuel place).length = depth place + 1 := by
  induction fuel generalizing place with
  | zero => exact absurd enough (Nat.not_lt_zero _)
  | succ fuel ih =>
    unfold BreadthFirst.back
    by_cases same : place = start
    · rw [if_pos same, same, tree.start_depth]
      exact ⟨⟨rfl, rfl, List.isChain_singleton _⟩, rfl⟩
    · obtain ⟨found, found_there, from_known, joined, deeper⟩ := tree.source place known same
      rw [if_neg same, found_there]
      obtain ⟨route, length⟩ := ih from_known (by omega)
      dsimp only
      rw [List.reverse_cons, List.length_cons, length, deeper]
      exact ⟨route.snoc joined, rfl⟩

end Chitta.BreadthFirst
