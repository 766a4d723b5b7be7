import Mathlib.Logic.Function.Basic
import Mathlib.Data.List.Nodup

/-!
# Registers kept as the latest of many cells

Each owner has a cell with at most one value, and a value has a key and a revision. The register
of a key is its value with the greatest revision, in whatever cell it is. A write puts a value
with the next revision into the writer's own cell. It must not take the cell away from another
key: the value that is lost could be the latest of that key.
-/
namespace Chitta.MaxRegister

variable {Owner Key Value : Type} [DecidableEq Key] (key : Value → Key) (revision : Value → Nat)

/-- The values of a key. -/
def ofKey (name : Key) (log : List Value) : List Value := log.filter fun value => key value = name

/-- The value with the greatest revision, the first of several; a value without a positive revision
is never taken. -/
def latest : List Value → Option Value → Option Value
  | [], best => best
  | value :: rest, best =>
    if (best.map revision).getD 0 < revision value then latest rest (some value)
    else latest rest best

/-- The cells hold the latest values of a log that numbers the values of every key from one on. -/
structure Exact (cells : Owner → Option Value) (log : List Value) : Prop where
  /-- The revisions of a key. -/
  numbered : ∀ name, (ofKey key name log).map revision =
    List.range' 1 (ofKey key name log).length
  /-- What a cell holds was written. -/
  logged : ∀ owner value, cells owner = some value → value ∈ log
  /-- The last value of a key is held. -/
  held : ∀ name value, (ofKey key name log).getLast? = some value →
    ∃ owner, cells owner = some value

variable {key revision} {cells : Owner → Option Value} {log : List Value}

/-- Empty cells are those of an empty log. -/
theorem exact_empty : Exact key revision (fun _ : Owner => none) [] where
  numbered _ := rfl
  logged _ _ found := by contradiction
  held _ _ found := by contradiction

/-- The values of a key after a write. -/
theorem ofKey_append (name : Key) (value : Value) :
    ofKey key name (log ++ [value]) =
      ofKey key name log ++ if key value = name then [value] else [] := by
  by_cases own : key value = name
  · simp [ofKey, own]
  · simp [ofKey, own]

/-- A write with the next revision into a cell that holds no other key keeps the cells exact. -/
theorem Exact.write [DecidableEq Owner] (exact : Exact key revision cells log) {owner : Owner}
    {value : Value} (keeps : ∀ old, cells owner = some old → key old = key value)
    (follows : revision value = (ofKey key (key value) log).length + 1) :
    Exact key revision (Function.update cells owner (some value)) (log ++ [value]) where
  numbered name := by
    rw [ofKey_append]
    by_cases own : key value = name
    · subst own
      rw [if_pos rfl, List.map_append, exact.numbered, List.length_append, List.length_singleton,
        List.range'_concat, List.map_singleton, follows, Nat.one_mul, Nat.add_comm 1]
    · rw [if_neg own, List.append_nil]
      exact exact.numbered name
  logged other found present := by
    by_cases own : other = owner
    · subst own
      rw [Function.update_self, Option.some.injEq] at present
      simp [present]
    · rw [Function.update_of_ne own] at present
      exact List.mem_append_left _ (exact.logged other found present)
  held name last found := by
    rw [ofKey_append] at found
    by_cases own : key value = name
    · rw [if_pos own, List.getLast?_concat] at found
      exact ⟨owner, by rw [Function.update_self, found]⟩
    · rw [if_neg own, List.append_nil] at found
      obtain ⟨holder, present⟩ := exact.held name last found
      -- The holder is not the writer: the writer's old value has another key.
      have apart : holder ≠ owner := by
        intro same
        have inside : last ∈ ofKey key name log := List.mem_of_getLast? found
        have named : key last = name := by simpa using (List.mem_filter.mp inside).2
        exact own ((keeps last (same ▸ present)).symm.trans named)
      exact ⟨holder, by rw [Function.update_of_ne apart, present]⟩

/-- The revision of a value is its place among the values of its key. -/
theorem Exact.revision_le (exact : Exact key revision cells log) {name : Key} {value : Value}
    (inside : value ∈ ofKey key name log) :
    1 ≤ revision value ∧ revision value ≤ (ofKey key name log).length := by
  have mapped := List.mem_map_of_mem (f := revision) inside
  rw [exact.numbered, List.mem_range'_1] at mapped
  omega

/-- The last value of a key has the last revision. -/
theorem Exact.revision_last (exact : Exact key revision cells log) {name : Key} {last : Value}
    (final : (ofKey key name log).getLast? = some last) :
    revision last = (ofKey key name log).length := by
  have there := List.mem_of_getLast? final
  have some_left : (ofKey key name log).length ≠ 0 := Nat.ne_of_gt (List.length_pos_of_mem there)
  have mapped := congrArg (Option.map revision) final
  rw [← List.getLast?_map, exact.numbered, List.getLast?_range', if_neg some_left,
    Option.map_some, Option.some.injEq] at mapped
  omega

/-- Only the last value of a key has the last revision. -/
theorem Exact.eq_last (exact : Exact key revision cells log) {name : Key} {value last : Value}
    (inside : value ∈ ofKey key name log) (final : (ofKey key name log).getLast? = some last)
    (greatest : (ofKey key name log).length ≤ revision value) : value = last := by
  have distinct : ((ofKey key name log).map revision).Nodup := by
    rw [exact.numbered]
    exact List.nodup_range'
  have there := List.mem_of_getLast? final
  have ends := exact.revision_last final
  have below := (exact.revision_le inside).2
  exact List.inj_on_of_nodup_map distinct inside there (by omega)

/-- A search that meets the value with the greatest revision, and no other value of that
revision, finds it. -/
theorem latest_eq {values : List Value} {last : Value} {best : Option Value}
    (below : ∀ value ∈ values, value = last ∨ revision value < revision last)
    (start : best = some last ∨ (best.map revision).getD 0 < revision last)
    (met : best = some last ∨ last ∈ values) : latest revision values best = some last := by
  induction values generalizing best with
  | nil =>
    cases met with
    | inl here => exact here
    | inr there => contradiction
  | cons value rest ih =>
    obtain ⟨own, later⟩ := List.forall_mem_cons.mp below
    unfold latest
    cases start with
    | inl found =>
      have kept : ¬ (best.map revision).getD 0 < revision value := by
        rw [found]
        cases own with
        | inl same => simp [same]
        | inr less => simpa using Nat.le_of_lt less
      rw [if_neg kept]
      exact ih later (.inl found) (.inl found)
    | inr behind =>
      have ahead : best = some last ∨ last ∈ rest ∨ value = last := by
        cases met with
        | inl here => exact .inl here
        | inr there =>
          cases List.mem_cons.mp there with
          | inl same => exact .inr (.inr same.symm)
          | inr inside => exact .inr (.inl inside)
      by_cases same : value = last
      · rw [same, if_pos behind]
        exact ih later (.inl rfl) (.inl rfl)
      · have less : revision value < revision last := own.resolve_left same
        have met' : best = some last ∨ last ∈ rest := by
          simpa only [same, or_false] using ahead
        have inside : last ∈ rest := by
          refine met'.resolve_left fun found => ?_
          rw [found] at behind
          exact Nat.lt_irrefl _ behind
        split
        · exact ih later (.inr less) (.inr inside)
        · exact ih later (.inr behind) (.inr inside)

end Chitta.MaxRegister
