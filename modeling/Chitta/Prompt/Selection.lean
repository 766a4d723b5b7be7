import Chitta.Prompt.Admission

/-!
# The choice among the lanes

The nested loops of the choice admit the first three rows of the rotation: the lanes take turns in
their fixed order, and each gives its rows in theirs.
-/
namespace Chitta.Prompt

open Rotation

/-- Every lane has its turn. -/
theorem mem_turnLanes (lane : Lane) : lane ∈ turnLanes := by
  cases lane <;> decide

/-- The first rows of the lanes. -/
def heads (lanes : List Lane) (left : List Candidate) : List Candidate :=
  lanes.filterMap fun lane => (queue Candidate.lane left lane).head?

/-- The first round is made of the first rows. -/
theorem turn_zero (lanes : List Lane) (left : List Candidate) :
    turn lanes (queue Candidate.lane left) 0 = heads lanes left := by
  simp only [turn, heads, List.head?_eq_getElem?]

/-- Lanes that a choice has not touched have the same first rows. -/
theorem heads_congr {lanes : List Lane} {left others : List Candidate}
    (same : ∀ lane ∈ lanes, queue Candidate.lane left lane = queue Candidate.lane others lane) :
    heads lanes left = heads lanes others :=
  List.filterMap_congr fun lane inside => by rw [same lane inside]

/-- A round admits the first rows of the lanes, as many as there is room for. When there is room
for all, each lane has lost its first row and nothing else has changed. -/
theorem selectRound_spec {count : Nat} {lanes : List Lane} (left : List Candidate)
    (room : count < maxAdmitted) (distinct : lanes.Nodup) :
    (selectRound count lanes left).1 = (heads lanes left).take (maxAdmitted - count) ∧
      ((selectRound count lanes left).1.length < maxAdmitted - count →
        (selectRound count lanes left).1 = heads lanes left ∧
        (∀ lane ∈ lanes, queue Candidate.lane (selectRound count lanes left).2 lane =
          (queue Candidate.lane left lane).tail) ∧
        ∀ lane, lane ∉ lanes → queue Candidate.lane (selectRound count lanes left).2 lane =
          queue Candidate.lane left lane) := by
  induction lanes generalizing count left with
  | nil => simp [selectRound, heads]
  | cons lane lanes ih =>
    obtain ⟨apart, others_distinct⟩ := List.nodup_cons.mp distinct
    rw [selectRound]
    cases found : extract (fun candidate => decide (candidate.lane = lane)) left with
    | none =>
      have empty := extract_none found
      have same : heads (lane :: lanes) left = heads lanes left := by
        simp [heads, empty]
      obtain ⟨picked, rest⟩ := ih left room others_distinct
      refine ⟨by rw [same]; exact picked, fun short => ?_⟩
      obtain ⟨whole, popped, kept⟩ := rest short
      refine ⟨by rw [same]; exact whole, fun other inside => ?_, fun other outside => ?_⟩
      · rcases List.mem_cons.mp inside with rfl | later
        · simp only [kept other apart, empty, List.tail_nil]
        · exact popped other later
      · exact kept other fun later => outside (List.mem_cons_of_mem _ later)
    | some taken =>
      obtain ⟨candidate, others⟩ := taken
      obtain ⟨own, foreign⟩ := extract_some found
      have first : heads (lane :: lanes) left = candidate :: heads lanes others := by
        have tails : heads lanes left = heads lanes others := by
          apply heads_congr
          intro other inside
          exact (foreign other fun same => apart (same ▸ inside)).symm
        rw [← tails]
        simp [heads, own]
      by_cases last : count + 1 = maxAdmitted
      · have one : maxAdmitted - count = 1 := by omega
        simp [last, first, one]
      · have more : count + 1 < maxAdmitted := by omega
        obtain ⟨picked, rest⟩ := ih others more others_distinct
        have room_left : maxAdmitted - count = maxAdmitted - (count + 1) + 1 := by omega
        simp only [last, ↓reduceIte]
        refine ⟨by rw [first, room_left, List.take_succ_cons, picked], fun short => ?_⟩
        have short_rest : (selectRound (count + 1) lanes others).1.length <
            maxAdmitted - (count + 1) := by
          simp only [List.length_cons] at short
          omega
        obtain ⟨whole, popped, kept⟩ := rest short_rest
        refine ⟨by rw [first, whole], fun other inside => ?_, fun other outside => ?_⟩
        · rcases List.mem_cons.mp inside with rfl | later
          · rw [kept other apart, own, List.tail_cons]
          · have differ : other ≠ lane := fun same => apart (same ▸ later)
            rw [popped other later, foreign other differ]
        · have differ : other ≠ lane := fun same => outside (same ▸ List.mem_cons_self)
          rw [kept other fun later => outside (List.mem_cons_of_mem _ later), foreign other differ]

/-- The rounds admit what comes up first, as much as there is room for. -/
theorem selectFrom_eq {rounds_left : Nat} (count size : Nat) {left : List Candidate}
    (enough : maxAdmitted - count ≤ rounds_left)
    (bound : ∀ lane, (queue Candidate.lane left lane).length ≤ size) :
    selectFrom rounds_left count left =
      (rounds turnLanes (queue Candidate.lane left) size).take (maxAdmitted - count) := by
  induction rounds_left generalizing count size left with
  | zero =>
    have full : maxAdmitted - count = 0 := by omega
    simp [selectFrom, full]
  | succ rounds_left ih =>
    rw [selectFrom]
    by_cases room : count < maxAdmitted
    · obtain ⟨picked, rest⟩ := selectRound_spec left room (by decide : turnLanes.Nodup)
      rw [if_pos room]
      dsimp only
      by_cases none_picked : (selectRound count turnLanes left).1 = []
      · -- nothing is left in any lane
        have empty : turn turnLanes (queue Candidate.lane left) 0 = [] := by
          rw [turn_zero]
          have some_room : 0 < maxAdmitted - count := by omega
          rw [none_picked] at picked
          rcases List.take_eq_nil_iff.mp picked.symm with full | none_there
          · omega
          · exact none_there
        simp [none_picked, rounds_empty empty]
      · have some_picked : (selectRound count turnLanes left).1.isEmpty = false := by
          simpa using none_picked
        simp only [some_picked, Bool.false_eq_true, ↓reduceIte]
        have length := congrArg List.length picked
        rw [List.length_take] at length
        have positive : 0 < (selectRound count turnLanes left).1.length :=
          List.length_pos_iff.mpr none_picked
        -- a lane that gave a row is not empty, so there is a round to come
        have rounds_left_some : 0 < size := by
          by_contra none_left
          have empty : heads turnLanes left = [] := by
            rw [heads, List.filterMap_eq_nil_iff]
            intro lane _
            have short := bound lane
            have nothing : queue Candidate.lane left lane = [] :=
              List.eq_nil_of_length_eq_zero (by omega)
            rw [nothing]
            rfl
          rw [empty] at length
          simp at length
          exact none_picked length
        obtain ⟨size, rfl⟩ :=
          Nat.exists_eq_succ_of_ne_zero (Nat.pos_iff_ne_zero.mp rounds_left_some)
        rw [rounds_succ, turn_zero, List.take_append]
        by_cases short : (selectRound count turnLanes left).1.length < maxAdmitted - count
        · obtain ⟨whole, popped, _⟩ := rest short
          have smaller : ∀ lane, (queue Candidate.lane
              (selectRound count turnLanes left).2 lane).length ≤ size := by
            intro lane
            have before := bound lane
            rw [popped lane (mem_turnLanes lane), List.length_tail]
            omega
          have later := ih (count + (selectRound count turnLanes left).1.length) size
            (by omega) smaller
          rw [later, ← picked, rounds_congr (fun lane inside => popped lane inside) size]
          congr 2
          rw [← whole]
          omega
        · have full : maxAdmitted - (count + (selectRound count turnLanes left).1.length) = 0 := by
            omega
          have beyond : maxAdmitted - count - (heads turnLanes left).length = 0 := by omega
          have ends : selectFrom rounds_left (count + (selectRound count turnLanes left).1.length)
              (selectRound count turnLanes left).2 = [] := by
            rw [ih _ (selectRound count turnLanes left).2.length (by omega)
              (length_queue_le _), full, List.take_zero]
          rw [ends, beyond, List.take_zero, picked]
    · have full : maxAdmitted - count = 0 := by omega
      simp [room, full]

/-- The admitted rows are the first three that come up when the lanes take turns. -/
theorem select_eq (candidates : List Candidate) :
    select candidates = (rotation Candidate.lane turnLanes candidates).take maxAdmitted :=
  selectFrom_eq 0 candidates.length (Nat.le_refl _) (length_queue_le candidates)

end Chitta.Prompt
