import Mathlib.Algebra.Order.Field.Basic
import Mathlib.Tactic.Linarith
import Mathlib.Tactic.Ring

/-!
# Token buckets

A bucket fills with time up to its size. Tokens are taken from it while it is not overdrawn, which
may overdraw it by one use, and tokens that were not needed are given back. What is taken in an
interval, less what is given back, is at most what flows in, the size and the largest use.
-/
namespace Chitta.TokenBucket

variable {F : Type} [Field F] [LinearOrder F]

/-- A bucket. -/
structure Bucket (F : Type) where
  /-- Its tokens, negative when it is overdrawn. -/
  level : F
  /-- When they were counted. -/
  counted : F

/-- A use of a bucket. -/
structure Use (F : Type) where
  /-- When. -/
  time : F
  /-- The tokens that were taken, negative when they were given back. -/
  amount : F

/-- The tokens are counted at a later time. -/
def Bucket.fill (rate size now : F) (bucket : Bucket F) : Bucket F where
  level := min size (bucket.level + (now - bucket.counted) * rate)
  counted := now

/-- The uses of an interval. -/
def within (start stop : F) (uses : List (Use F)) : List (Use F) :=
  uses.filter fun use => decide (start ≤ use.time ∧ use.time ≤ stop)

/-- What was taken less what was given back. -/
def net (uses : List (Use F)) : F := (uses.map (·.amount)).sum

/-- The largest use. -/
def largest (uses : List (Use F)) : F := uses.foldr (fun use most => max use.amount most) 0

/-- The buckets that were full once, with the uses since then. -/
inductive Runs (rate size : F) : Bucket F → List (Use F) → Prop where
  /-- A full bucket. -/
  | full (now : F) : Runs rate size ⟨size, now⟩ []
  /-- The tokens are counted. -/
  | count {bucket : Bucket F} {uses : List (Use F)} (now : F) (run : Runs rate size bucket uses)
      (later : bucket.counted ≤ now) : Runs rate size (bucket.fill rate size now) uses
  /-- Tokens are taken from a bucket that has just been counted and is not overdrawn. -/
  | take {bucket : Bucket F} {uses : List (Use F)} (amount : F) (run : Runs rate size bucket uses)
      (sound : 0 ≤ bucket.level) (positive : 0 ≤ amount) :
      Runs rate size ⟨bucket.level - amount, bucket.counted⟩ (uses ++ [⟨bucket.counted, amount⟩])
  /-- Tokens are given back to a bucket that has just been counted. -/
  | give {bucket : Bucket F} {uses : List (Use F)} (amount : F) (run : Runs rate size bucket uses)
      (positive : 0 ≤ amount) :
      Runs rate size ⟨min size (bucket.level + amount), bucket.counted⟩
        (uses ++ [⟨bucket.counted, -amount⟩])

variable {rate size start stop : F} {bucket : Bucket F} {uses : List (Use F)}

/-! ## Uses -/

omit [Field F] in
/-- A use after others. -/
theorem within_append_single (start stop : F) (uses : List (Use F)) (use : Use F) :
    within start stop (uses ++ [use]) =
      within start stop uses ++ if start ≤ use.time ∧ use.time ≤ stop then [use] else [] := by
  unfold within
  rw [List.filter_append]
  by_cases inside : start ≤ use.time ∧ use.time ≤ stop <;> simp [inside]

omit [LinearOrder F] in
/-- The amounts of uses and of one more. -/
theorem net_append_single (uses : List (Use F)) (use : Use F) :
    net (uses ++ [use]) = net uses + use.amount := by
  simp [net]

/-- The largest use is not negative. -/
theorem zero_le_largest (uses : List (Use F)) : 0 ≤ largest uses := by
  induction uses with
  | nil => exact le_refl 0
  | cons use rest ih => exact le_max_of_le_right ih

/-- One more use does not make the largest smaller. -/
theorem largest_le_append (uses : List (Use F)) (use : Use F) :
    largest uses ≤ largest (uses ++ [use]) := by
  induction uses with
  | nil => exact zero_le_largest _
  | cons first rest ih => exact max_le_max (le_refl _) ih

/-- The largest use is at least the last one. -/
theorem amount_le_largest (uses : List (Use F)) (use : Use F) :
    use.amount ≤ largest (uses ++ [use]) := by
  induction uses with
  | nil => exact le_max_left _ _
  | cons first rest ih => exact le_max_of_le_right ih

/-- Uses are not after the time at which the tokens were counted. -/
theorem Runs.time_le (run : Runs rate size bucket uses) :
    ∀ use ∈ uses, use.time ≤ bucket.counted := by
  induction run with
  | full now => nofun
  | count now run later ih => exact fun use inside => le_trans (ih use inside) later
  | take amount run sound positive ih =>
    intro use inside
    cases List.mem_append.mp inside with
    | inl before => exact ih use before
    | inr last => rw [List.mem_singleton.mp last]
  | give amount run positive ih =>
    intro use inside
    cases List.mem_append.mp inside with
    | inl before => exact ih use before
    | inr last => rw [List.mem_singleton.mp last]

/-- No use is in an interval that begins after the last one. -/
theorem Runs.within_early (run : Runs rate size bucket uses) (early : bucket.counted < start) :
    within start stop uses = [] := by
  apply List.filter_eq_nil_iff.mpr
  intro use inside
  have last := run.time_le use inside
  have apart : ¬start ≤ use.time := not_le.mpr (lt_of_le_of_lt last early)
  simp [apart]

/-! ## Levels -/

variable [IsStrictOrderedRing F]

/-- A bucket does not have more tokens than its size. -/
theorem Runs.level_le (run : Runs rate size bucket uses) : bucket.level ≤ size := by
  induction run with
  | full now => exact le_refl size
  | count now run later ih => exact min_le_left _ _
  | take amount run sound positive ih =>
    show _ - amount ≤ size
    linarith only [ih, positive]
  | give amount run positive ih => exact min_le_left _ _

/-! ## The accounts of an interval -/

/-- The uses of an interval against the level of the bucket. -/
structure Accounts (rate size start stop : F) (bucket : Bucket F) (uses : List (Use F)) :
    Prop where
  /-- Inside the interval, what was taken is missing from what the bucket may have. -/
  level : start ≤ bucket.counted → bucket.counted ≤ stop →
    bucket.level + net (within start stop uses) ≤ size + rate * (bucket.counted - start)
  /-- The bucket is overdrawn by one use at most, unless more was given back than taken. -/
  overdrawn : start ≤ bucket.counted → bucket.counted ≤ stop →
    net (within start stop uses) ≤ 0 ∨ -largest (within start stop uses) ≤ bucket.level
  /-- The bound. -/
  bound : net (within start stop uses) ≤
    rate * (stop - start) + size + largest (within start stop uses)

/-- The bound follows from the accounts inside the interval. -/
theorem bound_of_level (flowing : 0 ≤ rate) (room : 0 ≤ size) {level counted total most : F}
    (first : start ≤ counted) (last : counted ≤ stop) (positive : 0 ≤ most)
    (account : level + total ≤ size + rate * (counted - start))
    (overdrawn : total ≤ 0 ∨ -most ≤ level) : total ≤ rate * (stop - start) + size + most := by
  have more : rate * (counted - start) ≤ rate * (stop - start) :=
    mul_le_mul_of_nonneg_left (by linarith only [last]) flowing
  have inflow : 0 ≤ rate * (counted - start) := mul_nonneg flowing (by linarith only [first])
  cases overdrawn with
  | inl little => linarith only [little, positive, room, more, inflow]
  | inr low => linarith only [low, account, more]

/-- No use is in the interval yet. -/
theorem accounts_nil (flowing : 0 ≤ rate) (room : 0 ≤ size) (order : start ≤ stop)
    (full : bucket.level ≤ size) (none : within start stop uses = []) :
    Accounts rate size start stop bucket uses where
  level first _ := by
    have inflow : 0 ≤ rate * (bucket.counted - start) :=
      mul_nonneg flowing (by linarith only [first])
    rw [none]
    show bucket.level + 0 ≤ _
    linarith only [full, inflow]
  overdrawn _ _ := by
    rw [none]
    exact .inl (le_refl 0)
  bound := by
    have inflow : 0 ≤ rate * (stop - start) := mul_nonneg flowing (by linarith only [order])
    rw [none]
    show 0 ≤ _ + size + 0
    linarith only [room, inflow]

/-- Counting the tokens keeps the accounts. -/
theorem Accounts.count (accounts : Accounts rate size start stop bucket uses) (flowing : 0 ≤ rate)
    (room : 0 ≤ size) (order : start ≤ stop) (run : Runs rate size bucket uses) {now : F}
    (later : bucket.counted ≤ now) :
    Accounts rate size start stop (bucket.fill rate size now) uses := by
  by_cases early : bucket.counted < start
  · exact accounts_nil flowing room order (min_le_left _ _) (run.within_early early)
  · have first : start ≤ bucket.counted := not_lt.mp early
    have grown : 0 ≤ (now - bucket.counted) * rate :=
      mul_nonneg (by linarith only [later]) flowing
    refine ⟨fun _ last => ?_, fun _ last => ?_, accounts.bound⟩
    · have before := accounts.level first (le_trans later last)
      have filled : (bucket.fill rate size now).level ≤
          bucket.level + (now - bucket.counted) * rate := min_le_right _ _
      have split : rate * (now - start) =
          rate * (bucket.counted - start) + (now - bucket.counted) * rate := by ring
      show _ ≤ size + rate * (now - start)
      linarith only [before, filled, split]
    · apply (accounts.overdrawn first (le_trans later last)).imp_right
      intro low
      apply le_min
      · have most := zero_le_largest (within start stop uses)
        linarith only [most, room]
      · linarith only [low, grown]

/-- The uses of an interval after one more use. -/
theorem Accounts.use (accounts : Accounts rate size start stop bucket uses) (flowing : 0 ≤ rate)
    (room : 0 ≤ size) {level amount : F} (spent : level + amount ≤ bucket.level)
    (overdrawn : amount ≤ 0 ∧ bucket.level ≤ level ∨ -amount ≤ level) :
    Accounts rate size start stop ⟨level, bucket.counted⟩ (uses ++ [⟨bucket.counted, amount⟩]) := by
  by_cases inside : start ≤ bucket.counted ∧ bucket.counted ≤ stop
  · have account := accounts.level inside.1 inside.2
    have after : within start stop (uses ++ [⟨bucket.counted, amount⟩]) =
        within start stop uses ++ [⟨bucket.counted, amount⟩] := by
      rw [within_append_single, if_pos inside]
    have total := net_append_single (within start stop uses) ⟨bucket.counted, amount⟩
    have most := largest_le_append (within start stop uses) ⟨bucket.counted, amount⟩
    have own := amount_le_largest (within start stop uses) ⟨bucket.counted, amount⟩
    have level' : level + net (within start stop (uses ++ [⟨bucket.counted, amount⟩])) ≤
        size + rate * (bucket.counted - start) := by
      rw [after, total]
      show level + (_ + amount) ≤ _
      linarith only [account, spent]
    have overdrawn' : net (within start stop (uses ++ [⟨bucket.counted, amount⟩])) ≤ 0 ∨
        -largest (within start stop (uses ++ [⟨bucket.counted, amount⟩])) ≤ level := by
      rw [after, total]
      cases overdrawn with
      | inr taken => exact .inr (le_trans (neg_le_neg own) taken)
      | inl given =>
        cases accounts.overdrawn inside.1 inside.2 with
        | inl little => exact .inl (add_nonpos little given.1)
        | inr low => exact .inr (le_trans (neg_le_neg most) (le_trans low given.2))
    exact ⟨fun _ _ => level', fun _ _ => overdrawn',
      bound_of_level flowing room inside.1 inside.2 (zero_le_largest _) level' overdrawn'⟩
  · have same :
        within start stop (uses ++ [⟨bucket.counted, amount⟩]) = within start stop uses := by
      rw [within_append_single, if_neg inside, List.append_nil]
    refine ⟨fun first last => absurd ⟨first, last⟩ inside,
      fun first last => absurd ⟨first, last⟩ inside, ?_⟩
    rw [same]
    exact accounts.bound

/-- The accounts of an interval hold throughout a run. -/
theorem Runs.accounts (run : Runs rate size bucket uses) (flowing : 0 ≤ rate) (room : 0 ≤ size)
    (order : start ≤ stop) : Accounts rate size start stop bucket uses := by
  induction run with
  | full now => exact accounts_nil flowing room order (le_refl size) rfl
  | count now run later ih => exact ih.count flowing room order run later
  | @take bucket uses amount run sound positive ih =>
    apply ih.use flowing room
    · linarith only
    · apply Or.inr
      linarith only [sound]
  | @give bucket uses amount run positive ih =>
    have full := run.level_le
    have more : min size (bucket.level + amount) ≤ bucket.level + amount := min_le_right _ _
    have least : bucket.level ≤ min size (bucket.level + amount) :=
      le_min full (by linarith only [positive])
    apply ih.use flowing room
    · linarith only [more]
    · exact .inl ⟨by linarith only [positive], least⟩

/-- What is taken in an interval, less what is given back, is at most what flows in, the size and
the largest use. -/
theorem Runs.net_le (run : Runs rate size bucket uses) (flowing : 0 ≤ rate) (room : 0 ≤ size)
    (order : start ≤ stop) : net (within start stop uses) ≤
      rate * (stop - start) + size + largest (within start stop uses) :=
  (run.accounts flowing room order).bound

end Chitta.TokenBucket
