/-!
# Frames that a separator ends

A stream carries frames one after another, each followed by a separator that no frame contains. A
reader that has received a part of the stream takes the first frame as soon as its separator is
there; what it gets does not depend on where the parts were cut.
-/
namespace Chitta.Framing

variable {α : Type} [DecidableEq α] (stop : α)

/-- The first complete frame and what follows it. -/
def first : List α → Option (List α × List α)
  | [] => none
  | item :: rest =>
    if item = stop then some ([], rest)
    else (first rest).map fun (frame, after) => (item :: frame, after)

/-- The stream of some frames. -/
def join (frames : List (List α)) : List α := frames.flatMap (· ++ [stop])

variable {stop}

/-- A frame before its separator is the first one. -/
theorem first_frame {frame : List α} (clean : stop ∉ frame) (rest : List α) :
    first stop (frame ++ stop :: rest) = some (frame, rest) := by
  induction frame with
  | nil => simp [first]
  | cons item frame ih =>
    have apart : item ≠ stop := fun same => clean (same ▸ List.mem_cons_self)
    have inner := ih fun inside => clean (List.mem_cons_of_mem _ inside)
    simp [first, apart, inner]

/-- The first frame stands before a separator. -/
theorem eq_of_first {stream frame rest : List α} (found : first stop stream = some (frame, rest)) :
    stream = frame ++ stop :: rest ∧ stop ∉ frame := by
  induction stream generalizing frame with
  | nil => contradiction
  | cons item stream ih =>
    rw [first] at found
    split at found
    · rename_i same
      cases found
      exact ⟨by rw [same]; rfl, by simp⟩
    · rename_i apart
      obtain ⟨⟨inner, after⟩, there, same⟩ := Option.map_eq_some_iff.mp found
      cases same
      obtain ⟨rest, clean⟩ := ih there
      refine ⟨by rw [rest]; rfl, fun inside => ?_⟩
      cases inside with
      | head => exact apart rfl
      | tail _ later => exact clean later

/-- The first frame of a part is the first frame of the stream. -/
theorem first_of_part {part more frame rest first_ after : List α} (clean : stop ∉ frame)
    (stream : part ++ more = frame ++ stop :: rest)
    (found : first stop part = some (first_, after)) :
    first_ = frame ∧ after ++ more = rest := by
  obtain ⟨split, apart⟩ := eq_of_first found
  have whole : first stop (part ++ more) = some (first_, after ++ more) := by
    rw [split, List.append_assoc]
    exact first_frame apart (after ++ more)
  rw [stream, first_frame clean] at whole
  cases whole
  exact ⟨rfl, rfl⟩

/-- Without a separator there is no frame. -/
theorem first_eq_none {stream : List α} : first stop stream = none ↔ stop ∉ stream := by
  induction stream with
  | nil => simp [first]
  | cons item stream ih =>
    by_cases same : item = stop
    · simp [first, same]
    · simp [first, same, ih, Ne.symm same]

variable (stop) in
/-- A stream, its frames and what follows the last one. -/
structure Splits (stream : List α) (frames : List (List α)) (rest : List α) : Prop where
  /-- The frames and the rest make the stream. -/
  stream : stream = join stop frames ++ rest
  /-- A frame has no separator. -/
  frames : ∀ frame ∈ frames, stop ∉ frame
  /-- The rest has none either. -/
  rest : stop ∉ rest

omit [DecidableEq α] in
/-- A stream that goes on splits into its frames and those of the rest with what is added. -/
theorem Splits.append {stream rest more after : List α} {frames others : List (List α)}
    (one : Splits stop stream frames rest) (other : Splits stop (rest ++ more) others after) :
    Splits stop (stream ++ more) (frames ++ others) after where
  stream := by
    have whole := other.stream
    rw [one.stream, List.append_assoc, whole]
    simp [join]
  frames frame inside := (List.mem_append.mp inside).elim (one.frames frame) (other.frames frame)
  rest := other.rest

omit [DecidableEq α] in
/-- The rest with what is added splits into the further frames. -/
theorem Splits.of_append {stream rest more after : List α} {frames others : List (List α)}
    (one : Splits stop stream frames rest)
    (both : Splits stop (stream ++ more) (frames ++ others) after) :
    Splits stop (rest ++ more) others after where
  stream := by
    have whole := both.stream
    rw [one.stream, join, join, List.flatMap_append, List.append_assoc, List.append_assoc] at whole
    exact List.append_cancel_left whole
  frames frame inside := both.frames frame (List.mem_append_right _ inside)
  rest := both.rest

end Chitta.Framing
