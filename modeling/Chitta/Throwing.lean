/-!
# Computations that throw and keep what they have changed

A computation reads and changes a state and may throw; what it has changed before it throws stays.
`Keeps` is a property of the state that a computation does not break, `Ensures` one of the values
that it returns, and the rules of `bind` split a run of a sequence where its first part ends.
-/
namespace Chitta

/-- A computation on a state: its result, which may be an exception, and the state afterwards. -/
def Throwing (State Thrown α : Type) := State → Except Thrown α × State

namespace Throwing

variable {State Thrown α β : Type}

instance : Monad (Throwing State Thrown) where
  pure value := fun state => (.ok value, state)
  bind first second := fun state =>
    match first state with
    | (.ok value, next) => second value next
    | (.error thrown, next) => (.error thrown, next)

instance : MonadLift (Except Thrown) (Throwing State Thrown) where
  monadLift result := fun state => (result, state)

/-- A result leaves the state alone. -/
@[simp] theorem lift_apply (result : Except Thrown α) (state : State) :
    (liftM result : Throwing State Thrown α) state = (result, state) := rfl

/-- An exception. -/
def fail (thrown : Thrown) : Throwing State Thrown α := fun state => (.error thrown, state)

/-- A computation keeps a property, also when it throws. -/
def Keeps (property : State → Prop) (program : Throwing State Thrown α) : Prop :=
  ∀ state, property state → property (program state).2

variable {property : State → Prop} {first : Throwing State Thrown α}
variable {second : α → Throwing State Thrown β} {state : State}

/-- A sequence whose first part returns goes on. -/
theorem bind_of_ok {value : α} {next : State} (done : first state = (.ok value, next)) :
    (first >>= second) state = second value next := by
  show (match first state with
    | (.ok value, next) => second value next
    | (.error thrown, next) => (.error thrown, next)) = _
  rw [done]

/-- A value goes on. -/
theorem pure_then (value : α) : ((pure value : Throwing State Thrown α) >>= second) =
    second value := rfl

/-- A sequence whose first part throws ends there. -/
theorem bind_of_error {thrown : Thrown} {next : State}
    (failed : first state = (.error thrown, next)) :
    (first >>= second) state = (.error thrown, next) := by
  show (match first state with
    | (.ok value, next) => second value next
    | (.error thrown, next) => (.error thrown, next)) = _
  rw [failed]

/-- A sequence goes on behind a result. -/
theorem bind_lift {result : Except Thrown α} {value : α} (read : result = .ok value) :
    (liftM result >>= second) state = second value state := by
  rw [read]
  rfl

/-- A sequence throws with a result. -/
theorem bind_lift_error {result : Except Thrown α} {thrown : Thrown}
    (failed : result = .error thrown) :
    (liftM result >>= second) state = (.error thrown, state) := by
  rw [failed]
  rfl

/-- Sequences of three parts. -/
theorem then_assoc {γ : Type} {third : β → Throwing State Thrown γ} :
    (first >>= second >>= third) = (first >>= fun value => second value >>= third) := by
  funext state
  show (match (match first state with
      | (.ok value, next) => second value next
      | (.error thrown, next) => (.error thrown, next)) with
    | (.ok value, next) => third value next
    | (.error thrown, next) => (.error thrown, next)) =
    (match first state with
    | (.ok value, next) => (second value >>= third) next
    | (.error thrown, next) => (.error thrown, next))
  generalize first state = ended
  obtain ⟨result, next⟩ := ended
  cases result with
  | ok value => rfl
  | error thrown => rfl

/-- A result that is made in two steps. -/
theorem lift_then {γ : Type} {one : Except Thrown γ} {two : γ → Except Thrown α} :
    ((liftM (one >>= two) : Throwing State Thrown α) >>= second) =
      (liftM one >>= fun value => liftM (two value) >>= second) := by
  funext state
  cases one with
  | ok value => rfl
  | error thrown => rfl

/-- A result that is chosen. -/
theorem lift_choice {condition : Prop} [Decidable condition] {yes no : Except Thrown α} :
    ((liftM (if condition then yes else no) : Throwing State Thrown α) >>= second) =
      if condition then liftM yes >>= second else liftM no >>= second := by
  by_cases holds : condition
  · rw [if_pos holds, if_pos holds]
  · rw [if_neg holds, if_neg holds]

/-- What a computation returns is changed. -/
theorem bind_pure_eq (program : Throwing State Thrown α) (change : α → β) (state : State) :
    (program >>= fun value => pure (change value)) state =
      ((program state).1.map change, (program state).2) := by
  show (match program state with
    | (.ok value, next) => (.ok (change value), next)
    | (.error thrown, next) => (.error thrown, next) : Except Thrown β × State) = _
  generalize program state = ended
  obtain ⟨result, next⟩ := ended
  cases result with
  | ok value => rfl
  | error thrown => rfl

/-- A sequence ends where its first part throws, or where its second part ends. -/
theorem bind_cases (post : Except Thrown β × State → Prop)
    (failed : ∀ thrown next, first state = (.error thrown, next) → post (.error thrown, next))
    (continued : ∀ value next, first state = (.ok value, next) → post (second value next)) :
    post ((first >>= second) state) := by
  show post (match first state with
    | (.ok value, next) => second value next
    | (.error thrown, next) => (.error thrown, next))
  cases ended : first state with
  | mk result next =>
    cases result with
    | ok value => exact continued value next ended
    | error thrown => exact failed thrown next ended

/-- A sequence whose first part leaves the state alone. -/
theorem lift_cases {result : Except Thrown α} (post : Except Thrown β × State → Prop)
    (failed : ∀ thrown, result = .error thrown → post (.error thrown, state))
    (continued : ∀ value, result = .ok value → post (second value state)) :
    post ((liftM result >>= second) state) := by
  cases result with
  | ok value => exact continued value rfl
  | error thrown => exact failed thrown rfl

/-- A guard throws or is passed. -/
theorem guard_cases (post : Except Thrown β × State → Prop) {condition : Prop}
    [Decidable condition] {thrown : Thrown} {rest : PUnit → Throwing State Thrown β}
    (failed : post (.error thrown, state)) (passed : ¬condition → post (rest ⟨⟩ state)) :
    post ((if condition then Throwing.fail thrown >>= rest else rest ⟨⟩) state) := by
  by_cases met : condition
  · rw [if_pos met]
    exact failed
  · rw [if_neg met]
    exact passed met

/-- The parts of a sequence that returns. -/
theorem of_bind {result : β} {last : State}
    (returned : (first >>= second) state = (.ok result, last)) :
    ∃ value next, first state = (.ok value, next) ∧ second value next = (.ok result, last) := by
  revert returned
  refine bind_cases (fun outcome => outcome = (.ok result, last) → _) ?_ ?_
  · intro thrown next _ returned
    simp at returned
  · intro value next ended returned
    exact ⟨value, next, ended, returned⟩

/-- The parts of a sequence that returns after a result. -/
theorem of_lift {result : Except Thrown α} {value : β} {last : State}
    (returned : (liftM result >>= second) state = (.ok value, last)) :
    ∃ middle, result = .ok middle ∧ second middle state = (.ok value, last) := by
  revert returned
  refine lift_cases (fun outcome => outcome = (.ok value, last) → _) ?_ ?_
  · intro thrown _ returned
    simp at returned
  · intro middle read returned
    exact ⟨middle, read, returned⟩

/-- An exception does not return. -/
theorem fail_ne {thrown : Thrown} {value : β} {last : State} :
    (Throwing.fail thrown : Throwing State Thrown β) state ≠ (.ok value, last) := by
  simp [Throwing.fail]

/-- A check that does not throw. -/
theorem of_check {condition : Prop} [Decidable condition] {thrown : Thrown} {value : β}
    {rest : Throwing State Thrown β} {last : State}
    (returned : (if condition then Throwing.fail thrown else rest) state = (.ok value, last)) :
    ¬condition ∧ rest state = (.ok value, last) := by
  by_cases holds : condition
  · rw [if_pos holds] at returned
    exact absurd returned fail_ne
  · rw [if_neg holds] at returned
    exact ⟨holds, returned⟩

/-- A guard that does not throw. -/
theorem of_guard {condition : Prop} [Decidable condition] {thrown : Thrown} {value : β}
    {rest : PUnit → Throwing State Thrown β} {last : State}
    (returned : (if condition then Throwing.fail thrown >>= rest else rest ⟨⟩) state =
      (.ok value, last)) : ¬condition ∧ rest ⟨⟩ state = (.ok value, last) := by
  by_cases holds : condition
  · rw [if_pos holds] at returned
    obtain ⟨_, _, failed, _⟩ := of_bind returned
    exact absurd failed fail_ne
  · rw [if_neg holds] at returned
    exact ⟨holds, returned⟩

namespace Keeps

/-- A value. -/
theorem pure (value : α) : Keeps property (Pure.pure value : Throwing State Thrown α) :=
  fun _ holds => holds

/-- A result. -/
theorem lift (result : Except Thrown α) :
    Keeps property (liftM result : Throwing State Thrown α) :=
  fun _ holds => holds

/-- An exception. -/
theorem fail (thrown : Thrown) : Keeps property (Throwing.fail thrown : Throwing State Thrown α) :=
  fun _ holds => holds

/-- A sequence after a result, which is known to be the one that was returned. -/
theorem lift_bind {result : Except Thrown α}
    (two : ∀ value, result = .ok value → Keeps property (second value)) :
    Keeps property (liftM result >>= second) := by
  intro state holds
  exact lift_cases (fun outcome => property outcome.2) (fun _ _ => holds) fun value returned =>
    two value returned state holds

/-- Both parts of a sequence. -/
theorem bind (one : Keeps property first) (two : ∀ value, Keeps property (second value)) :
    Keeps property (first >>= second) := by
  intro state holds
  have kept := one state holds
  refine bind_cases (fun outcome => property outcome.2) ?_ ?_
  · intro thrown next ended
    rwa [ended] at kept
  · intro value next ended
    rw [ended] at kept
    exact two value next kept

/-- Both branches. -/
theorem ite {condition : Prop} [Decidable condition] {yes no : Throwing State Thrown α}
    (one : Keeps property yes) (two : Keeps property no) :
    Keeps property (if condition then yes else no) := by
  split
  · exact one
  · exact two

/-- A guard that throws. -/
theorem guard {condition : Prop} [Decidable condition] {thrown : Thrown}
    {rest : PUnit → Throwing State Thrown α}
    (passed : ¬condition → Keeps property (rest ⟨⟩)) :
    Keeps property (if condition then Throwing.fail thrown >>= rest else rest ⟨⟩) :=
  fun state holds => guard_cases (fun outcome => property outcome.2) holds fun met =>
    passed met state holds

end Keeps

/-- Every value that a computation can return has a property. -/
def Ensures (post : α → Prop) (program : Throwing State Thrown α) : Prop :=
  ∀ state value, (program state).1 = .ok value → post value

namespace Ensures

variable {post : β → Prop}

/-- A value. -/
theorem pure {value : β} (holds : post value) :
    Ensures post (Pure.pure value : Throwing State Thrown β) := by
  intro state other returned
  obtain rfl := Except.ok.inj returned
  exact holds

/-- The second part of a sequence. -/
theorem bind (two : ∀ value, Ensures post (second value)) : Ensures post (first >>= second) := by
  intro state
  refine bind_cases (fun outcome => ∀ value, outcome.1 = .ok value → post value) ?_ ?_
  · intro thrown next _ value returned
    contradiction
  · intro value next _ result returned
    exact two value next result returned

/-- Both branches, each under its condition. -/
theorem ite {condition : Prop} [Decidable condition] {yes no : Throwing State Thrown β}
    (one : condition → Ensures post yes) (two : ¬condition → Ensures post no) :
    Ensures post (if condition then yes else no) := by
  split
  · rename_i holds
    exact one holds
  · rename_i fails
    exact two fails

end Ensures

/-- A computation returns a value with a property. -/
def Yields (post : α → Prop) (program : Throwing State Thrown α) (state : State) : Prop :=
  ∃ value, (program state).1 = .ok value ∧ post value

namespace Yields

variable {post : β → Prop}

/-- A value. -/
theorem pure_iff {value : β} :
    Yields post (Pure.pure value : Throwing State Thrown β) state ↔ post value := by
  constructor
  · rintro ⟨other, same, holds⟩
    obtain rfl := Except.ok.inj same
    exact holds
  · exact fun holds => ⟨value, rfl, holds⟩

/-- A computation returns. -/
theorem returns_iff {program : Throwing State Thrown β} :
    Yields (fun _ => True) program state ↔ ∃ value, (program state).1 = .ok value := by
  simp only [Yields, and_true]

/-- Both parts of a sequence. -/
theorem bind_iff : Yields post (first >>= second) state ↔
    ∃ value, (first state).1 = .ok value ∧ Yields post (second value) (first state).2 := by
  cases ended : first state with
  | mk result next =>
    cases result with
    | ok value =>
      rw [Yields, bind_of_ok ended]
      constructor
      · exact fun yields => ⟨value, rfl, yields⟩
      · rintro ⟨other, same, yields⟩
        obtain rfl := Except.ok.inj same
        exact yields
    | error thrown =>
      rw [Yields, bind_of_error ended]
      constructor
      · rintro ⟨_, returned, _⟩
        contradiction
      · rintro ⟨_, returned, _⟩
        contradiction

/-- A result. -/
theorem result_iff {result : Except Thrown β} :
    Yields post (liftM result : Throwing State Thrown β) state ↔
      ∃ value, result = .ok value ∧ post value :=
  Iff.rfl

end Yields

end Throwing

end Chitta
