import Chitta.Bytes
import Chitta.Lines
import Chitta.Machine

/-!
# Lines that are appended to a queue

`append_line_atomic` opens a file for appending and writes a line until all of it is written. Any
number of calls append to one file, and their writes come in any order; a write may take only
the first bytes of what is left, and a call may fail or its process die anywhere. The bytes of a
call stay in order, and all of them are in the file if it returns true. When no write is cut short
the lines in the file are whole.
-/
namespace Chitta.Queue.Append

open Bytes

/-- How far a call is. -/
inductive Progress where
  /-- `remaining` bytes are to be written. -/
  | writing (remaining : Text)
  /-- It returned true. -/
  | appended
  /-- It returned false, or its process died, before all was written. -/
  | failed
  /-- Its process died when all was written. -/
  | lost
deriving DecidableEq

/-- Whether all was written. -/
def Progress.wrote : Progress → Bool
  | .writing remaining => remaining.isEmpty
  | .appended => true
  | .failed => false
  | .lost => true

/-- A call. -/
structure Call where
  /-- `line`. -/
  line : Text
  /-- How far it is. -/
  progress : Progress
deriving DecidableEq

/-- `buf`: the line and a line break behind it. -/
def buf (line : Text) : Text :=
  if line.getLast? = some newline then line else line ++ [newline]

/-- The calls and the file. -/
structure World where
  /-- The file at first. -/
  initial : Text
  /-- The calls, the earliest first. -/
  calls : List Call
  /-- What was written behind, and by which call. -/
  blocks : List (Nat × Text)
deriving DecidableEq

/-- What is in the file. -/
def World.content (world : World) : Text := world.initial ++ world.blocks.flatMap Prod.snd

/-- The bytes of a call in the file. -/
def World.share (world : World) (call : Nat) : Text :=
  (world.blocks.filter fun block => block.1 = call).flatMap Prod.snd

/-- A call goes on. -/
def World.set (world : World) (call : Nat) (line : Text) (progress : Progress) : World :=
  { world with calls := world.calls.set call ⟨line, progress⟩ }

/-- What happens. -/
inductive Action where
  /-- A call opens the file. -/
  | opens (line : Text) (succeeds : Bool)
  /-- A `write` takes some bytes. -/
  | write (call : Nat) (count : Nat)
  /-- A call returns true. -/
  | returns (call : Nat)
  /-- A `write` fails, or the process of a call dies. -/
  | fails (call : Nat)
deriving DecidableEq

/-- One step; a `write` that is interrupted changes nothing. -/
def step (world : World) : Action → Option World
  | .opens line succeeds =>
    let progress := if succeeds then .writing (buf line) else .failed
    some { world with calls := world.calls ++ [⟨line, progress⟩] }
  | .write call count =>
    match world.calls[call]? with
    | some ⟨line, .writing remaining⟩ =>
      if 0 < count ∧ count ≤ remaining.length then
        some { world.set call line (.writing (remaining.drop count)) with
          blocks := world.blocks ++ [(call, remaining.take count)] }
      else none
    | _ => none
  | .returns call =>
    match world.calls[call]? with
    | some ⟨line, .writing []⟩ => some (world.set call line .appended)
    | _ => none
  | .fails call =>
    match world.calls[call]? with
    | some ⟨line, .writing remaining⟩ =>
      some (world.set call line (if remaining = [] then .lost else .failed))
    | _ => none

/-- The calls on a file. -/
def system (initial : Text) : Machine World Action where
  initial := ⟨initial, [], []⟩
  step := step

/-- What a call has still to write. -/
def World.left (world : World) (call : Nat) : Option Text :=
  match world.calls[call]? with
  | some ⟨_, .writing remaining⟩ => some remaining
  | _ => none

/-- No `write` is cut short. -/
def Whole (world : World) : Action → Prop
  | .write call count => ∀ remaining ∈ world.left call, count = remaining.length
  | _ => True

instance (world : World) (action : Action) : Decidable (Whole world action) :=
  match action with
  | .write call count =>
    inferInstanceAs (Decidable (∀ remaining ∈ world.left call, count = remaining.length))
  | .opens _ _ => isTrue trivial
  | .returns _ => isTrue trivial
  | .fails _ => isTrue trivial

/-! ## Every run -/

/-- What a call has in the file. -/
def Holds (world : World) (index : Nat) (call : Call) : Prop :=
  match call.progress with
  | .writing remaining => world.share index ++ remaining = buf call.line
  | .appended => world.share index = buf call.line
  | .failed => world.share index <+: buf call.line
  | .lost => world.share index = buf call.line

/-- What holds at every moment. -/
structure Invariant (world : World) : Prop where
  /-- What each call has in the file. -/
  holds : ∀ index call, world.calls[index]? = some call → Holds world index call
  /-- Every byte behind the beginning is of a call. -/
  owned : ∀ block ∈ world.blocks, block.1 < world.calls.length

variable {initial : Text} {world next : World}

/-- A block adds its bytes to those of its call. -/
theorem share_append (world : World) (calls : List Call) (call index : Nat) (bytes : Text) :
    World.share { world with calls, blocks := world.blocks ++ [(call, bytes)] } index =
      world.share index ++ if call = index then bytes else [] := by
  rw [World.share, World.share, List.filter_append, List.flatMap_append]
  by_cases same : call = index
  · simp [same]
  · simp [same]

/-- The calls after one of them went on. -/
theorem found_set {calls : List Call} {call index : Nat} {new other : Call}
    (found : (calls.set call new)[index]? = some other) :
    (index = call ∧ other = new) ∨ (call ≠ index ∧ calls[index]? = some other) := by
  by_cases same : call = index
  · subst same
    have room := (List.getElem?_eq_some_iff.mp found).1
    rw [List.length_set] at room
    rw [List.getElem?_set_self room] at found
    exact .inl ⟨rfl, (Option.some.inj found).symm⟩
  · rw [List.getElem?_set_ne same] at found
    exact .inr ⟨same, found⟩

/-- A call that was not begun has nothing in the file. -/
theorem Invariant.share_new (invariant : Invariant world) :
    world.share world.calls.length = [] := by
  rw [World.share, List.filter_eq_nil_iff.mpr]
  · rfl
  · intro block inside
    have small := invariant.owned block inside
    rw [decide_eq_true_iff]
    omega

/-- A call goes on and writes nothing. -/
theorem Invariant.goes (invariant : Invariant world) {call : Nat} {line : Text}
    {progress : Progress} (holds : Holds (world.set call line progress) call ⟨line, progress⟩) :
    Invariant (world.set call line progress) := by
  constructor
  · intro index other there
    rcases found_set there with ⟨rfl, rfl⟩ | ⟨-, there⟩
    · exact holds
    · exact invariant.holds index other there
  · intro block inside
    show block.1 < (world.calls.set call _).length
    rw [List.length_set]
    exact invariant.owned block inside

/-- One step keeps the invariant. -/
theorem Invariant.step (invariant : Invariant world) {action : Action}
    (taken : Append.step world action = some next) : Invariant next := by
  cases action with
  | opens line succeeds =>
    obtain rfl := Option.some.inj taken
    constructor
    · intro index call found
      replace found : (world.calls ++ [_])[index]? = some call := found
      rw [List.getElem?_append] at found
      split at found
      · exact invariant.holds index call found
      · rw [List.getElem?_singleton] at found
        split at found
        · have last : index = world.calls.length := by omega
          obtain rfl := Option.some.inj found
          have empty := invariant.share_new
          rw [← last] at empty
          cases succeeds with
          | true => exact (congrArg (· ++ buf line) empty).trans (List.nil_append _)
          | false =>
            show world.share index <+: buf line
            rw [empty]
            exact List.nil_prefix
        · contradiction
    · intro block inside
      show block.1 < (world.calls ++ [_]).length
      rw [List.length_append]
      exact Nat.lt_add_right _ (invariant.owned block inside)
  | write call count =>
    rw [Append.step] at taken
    split at taken
    · rename_i line remaining found
      split at taken
      · obtain rfl := Option.some.inj taken
        have before : world.share call ++ remaining = buf line := invariant.holds call _ found
        have room := (List.getElem?_eq_some_iff.mp found).1
        constructor
        · intro index other there
          rcases found_set there with ⟨rfl, rfl⟩ | ⟨apart, there⟩
          · show World.share { world with calls := _, blocks := _ } index ++ _ = buf line
            rw [share_append, if_pos rfl, List.append_assoc, List.take_append_drop]
            exact before
          · have holds := invariant.holds index other there
            rw [Holds] at holds ⊢
            simpa only [World.set, share_append, if_neg apart, List.append_nil] using holds
        · intro block inside
          show block.1 < (world.calls.set call _).length
          rw [List.length_set]
          rcases List.mem_append.mp inside with old | new
          · exact invariant.owned block old
          · rw [List.mem_singleton.mp new]
            exact room
      · contradiction
    · contradiction
  | returns call =>
    rw [Append.step] at taken
    split at taken
    · rename_i line found
      obtain rfl := Option.some.inj taken
      have before : world.share call ++ [] = buf line := invariant.holds call _ found
      rw [List.append_nil] at before
      exact invariant.goes before
    · contradiction
  | fails call =>
    rw [Append.step] at taken
    split at taken
    · rename_i line remaining found
      obtain rfl := Option.some.inj taken
      have before : world.share call ++ remaining = buf line := invariant.holds call _ found
      refine invariant.goes ?_
      split
      · rename_i all
        rwa [all, List.append_nil] at before
      · show world.share call <+: buf line
        rw [← before]
        exact List.prefix_append _ _
    · contradiction

/-- The invariant holds in every run. -/
theorem invariant_of_reachable (reached : (system initial).Reachable world) : Invariant world := by
  refine reached.invariant ?_ fun _ action _ invariant _ taken => invariant.step taken
  constructor
  · intro index call found
    contradiction
  · intro block inside
    contradiction

/-- In every interleaving, with writes of any length, the bytes that a call has in the file are the
first bytes of its line in their order, all of them if it returned true; and every byte behind
the beginning of the file is of a call. -/
theorem append_keeps_order (reached : (system initial).Reachable world) :
    (∀ (index : Nat) call, world.calls[index]? = some call → world.share index <+: buf call.line ∧
      (call.progress = .appended → world.share index = buf call.line)) ∧
    ∀ block ∈ world.blocks, block.1 < world.calls.length := by
  have invariant := invariant_of_reachable reached
  refine ⟨fun index call found => ?_, invariant.owned⟩
  obtain ⟨line, progress⟩ := call
  have holds := invariant.holds index _ found
  cases progress with
  | writing remaining =>
    refine ⟨⟨remaining, holds⟩, fun done => ?_⟩
    contradiction
  | appended => exact ⟨⟨[], (List.append_nil _).trans holds⟩, fun _ => holds⟩
  | failed =>
    refine ⟨holds, fun done => ?_⟩
    contradiction
  | lost =>
    refine ⟨⟨[], (List.append_nil _).trans holds⟩, fun done => ?_⟩
    contradiction

/-- Two calls, whose bytes get mixed because the first writes one byte at a time. -/
theorem append_keeps_order_mixed : ∃ world,
    (system []).run (system []).initial [.opens [97] true, .opens [98] true, .write 0 1, .write 1 2,
      .write 0 1, .returns 0, .returns 1] = some world ∧ world.content = [97, 98, 10, 10] ∧
    (∀ (index : Nat) call, world.calls[index]? = some call → world.share index <+: buf call.line ∧
      (call.progress = .appended → world.share index = buf call.line)) ∧
    ∀ block ∈ world.blocks, block.1 < world.calls.length :=
  ⟨_, rfl, rfl, append_keeps_order (.of_run [.opens [97] true, .opens [98] true, .write 0 1,
    .write 1 2, .write 0 1, .returns 0, .returns 1] .initial rfl)⟩

/-! ## Runs in which no write is cut short -/

/-- What holds at every moment when no write is cut short. -/
structure Unbroken (world : World) : Prop where
  /-- What is written is the whole line of a call. -/
  whole : ∀ block ∈ world.blocks, ∃ call, world.calls[block.1]? = some call ∧
    call.progress.wrote = true ∧ block.2 = buf call.line
  /-- A call that goes on has written nothing or all. -/
  fresh : ∀ (index : Nat) line remaining, world.calls[index]? = some ⟨line, .writing remaining⟩ →
    remaining = [] ∨ remaining = buf line
  /-- A call that has written all has written. -/
  wrote : ∀ (index : Nat) call, world.calls[index]? = some call → call.progress.wrote = true →
    index ∈ world.blocks.map Prod.fst
  /-- No call has written twice. -/
  once : (world.blocks.map Prod.fst).Nodup

/-- There is always something to write. -/
theorem buf_ne_nil (line : Text) : buf line ≠ [] := by
  rw [buf]
  split
  · rintro rfl
    contradiction
  · exact List.append_ne_nil_of_right_ne_nil _ (List.cons_ne_nil _ _)

/-- A new call has not written all. -/
theorem opened_wrote (line : Text) (succeeds : Bool) :
    (if succeeds then Progress.writing (buf line) else .failed).wrote = false := by
  cases succeeds with
  | true => exact List.isEmpty_eq_false_iff.mpr (buf_ne_nil line)
  | false => rfl

/-- A call goes on and writes nothing. -/
theorem Unbroken.goes (unbroken : Unbroken world) {call : Nat} {line : Text}
    {progress new : Progress} (found : world.calls[call]? = some ⟨line, progress⟩)
    (same : new.wrote = progress.wrote) (ended : ∀ remaining, new ≠ .writing remaining) :
    Unbroken (world.set call line new) := by
  have room := (List.getElem?_eq_some_iff.mp found).1
  refine ⟨fun block inside => ?_, fun index text remaining there => ?_,
    fun index other there wrote => ?_, unbroken.once⟩
  · obtain ⟨other, there, wrote, own⟩ := unbroken.whole block inside
    by_cases equal : call = block.1
    · subst equal
      obtain rfl := Option.some.inj (found.symm.trans there)
      exact ⟨_, List.getElem?_set_self room, same.trans wrote, own⟩
    · exact ⟨other, (List.getElem?_set_ne equal).trans there, wrote, own⟩
  · rcases found_set there with ⟨-, new⟩ | ⟨-, old⟩
    · exact absurd (Call.mk.inj new).2.symm (ended remaining)
    · exact unbroken.fresh index text remaining old
  · rcases found_set there with ⟨rfl, rfl⟩ | ⟨-, old⟩
    · exact unbroken.wrote index _ found (same.symm.trans wrote)
    · exact unbroken.wrote index other old wrote

/-- One step without a short write keeps the lines whole. -/
theorem Unbroken.step (unbroken : Unbroken world) {action : Action} (allowed : Whole world action)
    (taken : Append.step world action = some next) : Unbroken next := by
  cases action with
  | opens line succeeds =>
    obtain rfl := Option.some.inj taken
    have found_append {index : Nat} {call new : Call}
        (found : (world.calls ++ [new])[index]? = some call) :
        world.calls[index]? = some call ∨ call = new := by
      rw [List.getElem?_append] at found
      split at found
      · exact .inl found
      · exact .inr (List.mem_singleton.mp (List.mem_of_getElem? found))
    refine ⟨?_, ?_, ?_, unbroken.once⟩
    · intro block inside
      obtain ⟨call, found, same⟩ := unbroken.whole block inside
      have room := (List.getElem?_eq_some_iff.mp found).1
      exact ⟨call, (List.getElem?_append_left room).trans found, same⟩
    · intro index text remaining found
      rcases found_append found with old | new
      · exact unbroken.fresh index text remaining old
      · cases succeeds with
        | true =>
          obtain ⟨rfl, progress⟩ := Call.mk.inj new
          exact .inr (Progress.writing.inj progress)
        | false => exact Progress.noConfusion (Call.mk.inj new).2
    · intro index call found wrote
      rcases found_append found with old | rfl
      · exact unbroken.wrote index call old wrote
      · rw [opened_wrote] at wrote
        contradiction
  | write call count =>
    rw [Append.step] at taken
    split at taken
    · rename_i line remaining found
      split at taken
      · rename_i some
        obtain rfl := Option.some.inj taken
        have all : count = remaining.length := allowed remaining (by rw [World.left, found]; rfl)
        have left : remaining ≠ [] := by
          rintro rfl
          exact absurd some.1 (by rw [all]; exact Nat.lt_irrefl 0)
        have same : remaining = buf line :=
          (unbroken.fresh call line remaining found).resolve_left left
        have room := (List.getElem?_eq_some_iff.mp found).1
        have taken_all : remaining.take count = buf line := by
          rw [List.take_of_length_le (Nat.le_of_eq all.symm), same]
        have unwritten : call ∉ world.blocks.map Prod.fst := by
          intro inside
          obtain ⟨block, there, own⟩ := List.mem_map.mp inside
          obtain ⟨other, appended, wrote, -⟩ := unbroken.whole block there
          rw [own, found] at appended
          obtain rfl := Option.some.inj appended
          exact left (List.isEmpty_iff.mp wrote)
        rw [taken_all, List.drop_of_length_le (Nat.le_of_eq all.symm)]
        refine ⟨?_, ?_, ?_, ?_⟩
        · intro block inside
          show ∃ other, (world.calls.set call ⟨line, .writing []⟩)[block.1]? = _ ∧ _
          rcases List.mem_append.mp inside with old | new
          · obtain ⟨other, appended, own⟩ := unbroken.whole block old
            have apart : call ≠ block.1 := fun equal =>
              unwritten (equal ▸ List.mem_map_of_mem old)
            exact ⟨other, (List.getElem?_set_ne apart).trans appended, own⟩
          · rw [List.mem_singleton.mp new]
            exact ⟨_, List.getElem?_set_self room, rfl, rfl⟩
        · intro index text rest there
          rcases found_set there with ⟨-, new⟩ | ⟨-, old⟩
          · exact .inl (Progress.writing.inj (Call.mk.inj new).2)
          · exact unbroken.fresh index text rest old
        · intro index other there wrote
          show index ∈ (world.blocks ++ [(call, buf line)]).map Prod.fst
          rw [List.map_append]
          rcases found_set there with ⟨rfl, -⟩ | ⟨-, old⟩
          · exact List.mem_append_right _ List.mem_cons_self
          · exact List.mem_append_left _ (unbroken.wrote index other old wrote)
        · show ((world.blocks ++ [(call, buf line)]).map Prod.fst).Nodup
          rw [List.map_append]
          refine List.nodup_append.mpr
            ⟨unbroken.once, List.nodup_cons.mpr ⟨List.not_mem_nil, List.nodup_nil⟩, ?_⟩
          intro first inside second own equal
          have same : second = call := List.mem_singleton.mp own
          exact unwritten (equal.trans same ▸ inside)
      · contradiction
    · contradiction
  | returns call =>
    rw [Append.step] at taken
    split at taken
    · rename_i line found
      obtain rfl := Option.some.inj taken
      exact unbroken.goes found rfl fun _ => Progress.noConfusion
    · contradiction
  | fails call =>
    rw [Append.step] at taken
    split at taken
    · rename_i line remaining found
      obtain rfl := Option.some.inj taken
      split
      · rename_i all
        subst all
        exact unbroken.goes found rfl fun _ => Progress.noConfusion
      · rename_i left
        exact unbroken.goes found (List.isEmpty_eq_false_iff.mpr left).symm
          fun _ => Progress.noConfusion
    · contradiction

/-- What a call appends ends with a line break. -/
theorem unfinished_buf (line : Text) : Lines.unfinished newline (buf line) = [] := by
  rw [buf]
  split
  · rename_i last
    obtain ⟨front, rfl⟩ := List.getLast?_eq_some_iff.mp last
    exact Lines.unfinished_break front
  · exact Lines.unfinished_break line

/-- The beginning of the file stays. -/
theorem step_initial {action : Action} (taken : Append.step world action = some next) :
    next.initial = world.initial := by
  cases action with
  | opens line succeeds =>
    obtain rfl := Option.some.inj taken
    rfl
  | write call count =>
    rw [Append.step] at taken
    split at taken
    · split at taken
      · obtain rfl := Option.some.inj taken
        rfl
      · contradiction
    · contradiction
  | returns call | fails call =>
    rw [Append.step] at taken
    split at taken
    · obtain rfl := Option.some.inj taken
      rfl
    · contradiction

/-- The line of a call. -/
def World.lineOf (world : World) (index : Nat) : Text := (world.calls[index]?).elim [] Call.line

/-- When no write is cut short and the file ends with a line break at first, the lines in it are
those of the beginning and behind them the lines of the calls that have written all, each call once
and unbroken. These are the calls that returned true, those that are about to and those whose
process died before; a call that returned false has left nothing. -/
theorem append_lines (reached : (system initial).Reaches Whole world)
    (ended : Lines.unfinished newline initial = []) :
    ∃ order : List Nat, order.Nodup ∧
      (∀ index : Nat, index ∈ order ↔
        ∃ call, world.calls[index]? = some call ∧ call.progress.wrote = true) ∧
      Lines.lines newline world.content = Lines.lines newline initial ++
        order.flatMap fun index => Lines.lines newline (buf (world.lineOf index)) := by
  have kept : Unbroken world ∧ world.initial = initial := by
    refine @Machine.Reaches.invariant _ _ _ _
      (fun world => Unbroken world ∧ world.initial = initial) ?_
      (fun _ _ _ both allowed taken =>
        ⟨both.1.step allowed taken, (step_initial taken).trans both.2⟩) _ reached
    refine ⟨⟨?_, ?_, ?_, List.nodup_nil⟩, rfl⟩
    · intro block inside
      contradiction
    · intro index line remaining found
      contradiction
    · intro index call found
      contradiction
  obtain ⟨unbroken, rfl⟩ := kept
  refine ⟨world.blocks.map Prod.fst, unbroken.once, fun index => ⟨fun inside => ?_, ?_⟩, ?_⟩
  · obtain ⟨block, there, rfl⟩ := List.mem_map.mp inside
    obtain ⟨call, found, wrote, -⟩ := unbroken.whole block there
    exact ⟨call, found, wrote⟩
  · rintro ⟨call, found, wrote⟩
    exact unbroken.wrote index call found wrote
  · rw [World.content, List.flatMap_map]
    have each : ∀ block ∈ world.blocks, block.2 = buf (world.lineOf block.1) := by
      intro block inside
      obtain ⟨call, found, -, same⟩ := unbroken.whole block inside
      rw [same, World.lineOf, found]
      rfl
    rw [Lines.lines_append_ended ended]
    congr 1
    revert each
    generalize world.blocks = blocks
    intro each
    induction blocks with
    | nil => rfl
    | cons block rest ih =>
      have own := each block List.mem_cons_self
      rw [List.flatMap_cons, List.flatMap_cons, own, Lines.lines_append_ended (unfinished_buf _),
        ih fun other inside => each other (List.mem_cons_of_mem _ inside)]

/-- Of three calls on a file with a line the second one has written and returned, the first one has
died after its write, and the third one could not write. -/
def threeCalls : List Action :=
  [.opens [97] true, .opens [98] true, .opens [99] true, .write 1 2, .write 0 2, .returns 1,
    .fails 0, .fails 2]

/-- The lines of the second call and of the first one are behind the line that was there. -/
theorem append_lines_three : ∃ world, (system [100, 10]).runAllowed Whole (system [100, 10]).initial
      threeCalls = some world ∧ world.content = [100, 10, 98, 10, 97, 10] ∧
    ∃ order : List Nat, order.Nodup ∧
      (∀ index : Nat, index ∈ order ↔
        ∃ call, world.calls[index]? = some call ∧ call.progress.wrote = true) ∧
      Lines.lines newline world.content = Lines.lines newline [100, 10] ++
        order.flatMap fun index => Lines.lines newline (buf (world.lineOf index)) :=
  ⟨_, rfl, rfl, append_lines (.of_runAllowed threeCalls .initial rfl) (by decide)⟩

end Chitta.Queue.Append
