/-!
# Labelled machines and guarded runs

A machine is an initial state and a partial step function of labelled actions, so a run is a
list of actions and can be evaluated. `Reaches allowed` collects the states of the runs whose
every step a predicate accepts; the predicate reads the state before the step and the action.
The induction over a run is done once, in `Reaches.invariant`; a system proves what one step
preserves and derives what a whole run preserves.
-/

/-- A deterministic transition system over labelled actions. -/
structure Machine (State Action : Type) where
  /-- The state every run starts from. -/
  initial : State
  /-- The state after an action, `none` when the action is not enabled. -/
  step : State → Action → Option State

namespace Machine

variable {State Action : Type} {machine : Machine State Action}
variable {allowed : State → Action → Prop}

/-- Replay actions in order; a disabled action ends the replay. -/
def run (machine : Machine State Action) : State → List Action → Option State
  | state, [] => some state
  | state, action :: rest =>
    match machine.step state action with
    | none => none
    | some next => machine.run next rest

/-- The states of the runs whose every step the predicate accepts. -/
inductive Reaches (machine : Machine State Action) (allowed : State → Action → Prop) :
    State → Prop
  | initial : Reaches machine allowed machine.initial
  | step {state next : State} (action : Action) (reached : Reaches machine allowed state)
      (permitted : allowed state action) (taken : machine.step state action = some next) :
      Reaches machine allowed next

/-- The states of all runs. -/
abbrev Reachable (machine : Machine State Action) : State → Prop :=
  machine.Reaches fun _ _ => True

/-- A property of the initial state that every accepted step keeps holds in every state
reached. -/
theorem Reaches.invariant {property : State → Prop} (base : property machine.initial)
    (keep : ∀ state action next, property state → allowed state action →
      machine.step state action = some next → property next)
    {state : State} (reached : machine.Reaches allowed state) : property state := by
  induction reached with
  | initial => exact base
  | step action _ permitted taken ih => exact keep _ action _ ih permitted taken

/-- Accepting more steps reaches at least the same states. -/
theorem Reaches.mono {wider : State → Action → Prop}
    (wide : ∀ state action, allowed state action → wider state action) {state : State}
    (reached : machine.Reaches allowed state) : machine.Reaches wider state := by
  induction reached with
  | initial => exact .initial
  | step action _ permitted taken ih => exact .step action ih (wide _ action permitted) taken

/-- A state leads to another one through steps that the predicate accepts. -/
inductive Leads (machine : Machine State Action) (allowed : State → Action → Prop)
    (first : State) : State → Prop
  | refl : Leads machine allowed first first
  | step {state next : State} (action : Action) (led : Leads machine allowed first state)
      (permitted : allowed state action) (taken : machine.step state action = some next) :
      Leads machine allowed first next

/-- What is led to from a reached state through steps that are accepted there is reached. -/
theorem Reaches.leads {wider : State → Action → Prop}
    (wide : ∀ state action, allowed state action → wider state action) {first last : State}
    (reached : machine.Reaches wider first) (led : machine.Leads allowed first last) :
    machine.Reaches wider last := by
  induction led with
  | refl => exact reached
  | step action _ permitted taken ih => exact ih.step action (wide _ action permitted) taken

/-- A property that every step keeps holds at the end of a replay. -/
theorem run_invariant (property : State → Prop)
    (keep : ∀ state action next, property state → machine.step state action = some next →
      property next) (actions : List Action) {state last : State} (start : property state)
    (replayed : machine.run state actions = some last) : property last := by
  induction actions generalizing state with
  | nil => exact Option.some.inj replayed ▸ start
  | cons action rest ih =>
    simp only [run] at replayed
    split at replayed
    · contradiction
    · rename_i next taken
      exact ih (keep _ action _ start taken) replayed

/-- A replay all of whose steps the predicate accepts, checked step by step. -/
def runAllowed (machine : Machine State Action) (allowed : State → Action → Prop)
    [∀ state action, Decidable (allowed state action)] : State → List Action → Option State
  | state, [] => some state
  | state, action :: rest =>
    if allowed state action then
      match machine.step state action with
      | none => none
      | some next => machine.runAllowed allowed next rest
    else none

/-- A checked replay from a reached state ends in a reached state. -/
theorem Reaches.of_runAllowed [∀ state action, Decidable (allowed state action)]
    (actions : List Action) {state last : State} (reached : machine.Reaches allowed state)
    (replayed : machine.runAllowed allowed state actions = some last) :
    machine.Reaches allowed last := by
  induction actions generalizing state with
  | nil => exact Option.some.inj replayed ▸ reached
  | cons action rest ih =>
    simp only [runAllowed] at replayed
    split at replayed
    · rename_i permitted
      split at replayed
      · contradiction
      · rename_i next taken
        exact ih (reached.step action permitted taken) replayed
    · contradiction

/-- A replay of actions that are always accepted ends in a reached state. -/
theorem Reaches.of_run_always (actions : List Action)
    (always : ∀ action ∈ actions, ∀ state, allowed state action) {state last : State}
    (reached : machine.Reaches allowed state) (replayed : machine.run state actions = some last) :
    machine.Reaches allowed last := by
  induction actions generalizing state with
  | nil => exact Option.some.inj replayed ▸ reached
  | cons action rest ih =>
    simp only [run] at replayed
    split at replayed
    · contradiction
    · rename_i next taken
      have first := always action List.mem_cons_self state
      exact ih (fun other inside => always other (List.mem_cons_of_mem _ inside))
        (reached.step action first taken) replayed

/-- An unguarded replay from a reached state ends in a reached state. -/
theorem Reaches.of_run (actions : List Action) {state last : State}
    (reached : machine.Reachable state) (replayed : machine.run state actions = some last) :
    machine.Reachable last :=
  of_run_always actions (fun _ _ _ => trivial) reached replayed

end Machine
