import Chitta.Machine
import Chitta.Provenance

/-!
# Saving a file by renaming it

`safe_save` writes a temporary file whose name has the number of the process, brings it to the disk
and renames it. Any number of processes save the same path, each one save at a time; a save may fail
or its process die anywhere, and the machine may crash. A crash leaves of a file that was
not brought to the disk anything, and of the names those of any moment since they were last
brought to the disk. At every moment the path leads to a whole content.
-/
namespace Chitta.SafeSave

open Bytes

/-- The number of a process. -/
abbrev Pid := Nat

/-- The names in the directory and the files that they lead to. -/
structure Dir where
  /-- `path`. -/
  target : Option Nat
  /-- `tmp` of a process. -/
  tmp : Pid → Option Nat

/-- Where the save of a process is. -/
inductive Pc where
  /-- There is none. -/
  | idle
  /-- `write_fn`. -/
  | writing (fd : Nat) (content : Text)
  /-- Behind `fsync`. -/
  | synced (fd : Nat) (content : Text)
  /-- Behind `rename`. -/
  | renamed
deriving DecidableEq

/-- The files and the processes. -/
structure World where
  /-- The names. -/
  dir : Dir
  /-- The names that the disk may have, among them those of now. -/
  past : List Dir
  /-- What is in the files. -/
  data : Nat → Text
  /-- A file is on the disk as it is. -/
  kept : Nat → Bool
  /-- The number of files that were made. -/
  made : Nat
  /-- The saves. -/
  pc : Pid → Pc
  /-- The contents whose save was begun. -/
  asked : List Text

/-- A function with another value at a place. -/
def put {α : Type} (values : Nat → α) (place : Nat) (value : α) : Nat → α :=
  fun other => if other = place then value else values other

/-- The names change. -/
def World.rename (world : World) (dir : Dir) : World :=
  { world with dir, past := dir :: world.past }

/-- The process that saves goes on. -/
def World.goto (world : World) (pid : Pid) (pc : Pc) : World :=
    { world with pc := put world.pc pid pc }

/-- `fopen` with `"wb"`: a file that is there is emptied, else a new one is made. -/
def World.fopen (world : World) (pid : Pid) : Nat × World :=
  match world.dir.tmp pid with
  | some fd => (fd, { world with data := put world.data fd [], kept := put world.kept fd false })
  | none => (world.made,
      { world.rename { world.dir with tmp := put world.dir.tmp pid (some world.made) } with
      data := put world.data world.made [], kept := put world.kept world.made false
      made := world.made + 1 })

/-- `remove` of the temporary file. -/
def World.remove (world : World) (pid : Pid) : World :=
  world.rename { world.dir with tmp := put world.dir.tmp pid none }

/-- What happens. -/
inductive Action where
  /-- A process begins to save a content. -/
  | save (pid : Pid) (content : Text)
  /-- Some more bytes are written. -/
  | write (pid : Pid) (count : Nat)
  /-- Everything is written and brought to the disk. -/
  | fsync (pid : Pid)
  /-- A call fails; the temporary file is removed. -/
  | fail (pid : Pid)
  /-- `rename`. -/
  | rename (pid : Pid)
  /-- `fsync_dir`, which may fail. -/
  | fsyncDir (pid : Pid) (succeeds : Bool)
  /-- The process dies. -/
  | die (pid : Pid)
  /-- The machine crashes: the names that the disk has, and what is left of the files. -/
  | crash (names : Nat) (left : Nat → Text)

/-- One step. -/
def step (world : World) : Action → Option World
  | .save pid content =>
    if world.pc pid = .idle then
      let (fd, opened) := world.fopen pid
      some ({ opened with asked := content :: opened.asked }.goto pid (.writing fd content))
    else none
  | .write pid count =>
    match world.pc pid with
    | .writing fd content =>
      let more := (content.drop (world.data fd).length).take count
      some { world with data := put world.data fd (world.data fd ++ more)
                        kept := put world.kept fd false }
    | _ => none
  | .fsync pid =>
    match world.pc pid with
    | .writing fd content =>
      if world.data fd = content then
        some ({ world with kept := put world.kept fd true }.goto pid (.synced fd content))
      else none
    | _ => none
  | .fail pid =>
    match world.pc pid with
    | .writing _ _ | .synced _ _ => some ((world.remove pid).goto pid .idle)
    | _ => none
  | .rename pid =>
    match world.pc pid with
    | .synced _ _ =>
      some ((world.rename ⟨world.dir.tmp pid, put world.dir.tmp pid none⟩).goto pid .renamed)
    | _ => none
  | .fsyncDir pid succeeds =>
    match world.pc pid with
    | .renamed =>
      some ({ world with past := if succeeds then [world.dir] else world.past }.goto pid .idle)
    | _ => none
  | .die pid => some (world.goto pid .idle)
  | .crash names left =>
    (world.past[names]?).map fun dir =>
      { world with dir, past := [dir], pc := fun _ => .idle
                   data := fun fd => if world.kept fd then world.data fd else left fd }

/-- The processes that save a path with a content, if it is there. -/
def system (initial : Option Text) : Machine World Action where
  initial :=
    let dir : Dir := ⟨initial.map fun _ => 0, fun _ => none⟩
    { dir, past := [dir], data := fun _ => initial.getD [], kept := fun _ => true, made := 1
      pc := fun _ => .idle, asked := [] }
  step := step

/-- What is read at the path. -/
def World.read (world : World) : Option Text := world.dir.target.map world.data

/-! ## The invariant -/

/-- A content that the path may have. -/
def Known (initial : Option Text) (world : World) (content : Text) : Prop :=
  initial = some content ∨ content ∈ world.asked

/-- What a save that is under way has. -/
def Works (initial : Option Text) (world : World) (pid : Pid) : Pc → Prop
  | .writing fd content => world.dir.tmp pid = some fd ∧ Known initial world content
  | .synced fd content => world.dir.tmp pid = some fd ∧ Known initial world content ∧
      world.kept fd = true ∧ world.data fd = content
  | _ => True

/-- Names that the disk may have, beside those of now. -/
structure Names (initial : Option Text) (world : World) (dir : Dir) : Prop where
  /-- The path leads to a whole content on the disk. -/
  whole : ∀ fd, dir.target = some fd →
    world.kept fd = true ∧ Known initial world (world.data fd) ∧ fd < world.made
  /-- The path leads to a file if it did at first. -/
  there : dir.target = none → initial = none
  /-- The file at the path has no temporary name. -/
  apart : ∀ fd, dir.target = some fd → ∀ pid, dir.tmp pid ≠ some fd ∧ world.dir.tmp pid ≠ some fd
  /-- No file has two temporary names. -/
  distinct : ∀ first second fd, dir.tmp first = some fd → dir.tmp second = some fd → first = second
  /-- Temporary files were made. -/
  made : ∀ pid fd, dir.tmp pid = some fd → fd < world.made

/-- What holds at every moment. -/
structure Invariant (initial : Option Text) (world : World) : Prop where
  /-- The disk may have the names of now. -/
  now : world.dir ∈ world.past
  /-- All names that the disk may have are in order. -/
  names : ∀ dir ∈ world.past, Names initial world dir
  /-- The saves that are under way have their files. -/
  works : ∀ pid, Works initial world pid (world.pc pid)

variable {initial : Option Text} {world next : World} {pid : Pid}

/-- A value at its place and at others. -/
theorem put_self {α : Type} (values : Nat → α) (place : Nat) (value : α) :
    put values place value place = value := if_pos rfl

/-- The other values stay. -/
theorem put_other {α : Type} (values : Nat → α) {place other : Nat} (value : α)
    (apart : other ≠ place) : put values place value other = values other := if_neg apart

/-- A save that goes on elsewhere leaves the files alone. -/
theorem Invariant.goto (invariant : Invariant initial world) {pc : Pc}
    (works : Works initial world pid pc) : Invariant initial (world.goto pid pc) := by
  refine ⟨invariant.now, fun dir inside => ?_, fun other => ?_⟩
  · obtain ⟨whole, there, apart, distinct, made⟩ := invariant.names dir inside
    exact ⟨whole, there, apart, distinct, made⟩
  · show Works initial (world.goto pid pc) other (put world.pc pid pc other)
    by_cases same : other = pid
    · rw [same, put_self]
      cases pc <;> exact works
    · rw [put_other _ _ same]
      have before := invariant.works other
      generalize world.pc other = there at before ⊢
      cases there <;> exact before

/-- What is begun to be saved is known. -/
theorem Invariant.ask (invariant : Invariant initial world) (content : Text) :
    Invariant initial { world with asked := content :: world.asked } := by
  have wider {text : Text} (known : Known initial world text) :
      Known initial { world with asked := content :: world.asked } text :=
    known.imp_right (List.mem_cons_of_mem _)
  refine ⟨invariant.now, fun dir inside => ?_, fun other => ?_⟩
  · obtain ⟨whole, there, apart, distinct, made⟩ := invariant.names dir inside
    refine ⟨fun fd leads => ?_, there, apart, distinct, made⟩
    obtain ⟨kept, known, small⟩ := whole fd leads
    exact ⟨kept, wider known, small⟩
  · have before := invariant.works other
    show Works _ _ other (world.pc other)
    generalize world.pc other = there at before ⊢
    cases there with
    | writing fd text => exact ⟨before.1, wider before.2⟩
    | synced fd text => exact ⟨before.1, wider before.2.1, before.2.2⟩
    | _ => trivial

/-- The temporary file of a process changes; nobody else sees it. -/
theorem Invariant.touch (invariant : Invariant initial world) {fd : Nat}
    (own : world.dir.tmp pid = some fd) (text : Text) (flag : Bool)
    (works : Works initial
      { world with data := put world.data fd text, kept := put world.kept fd flag }
      pid (world.pc pid)) :
    Invariant initial
      { world with data := put world.data fd text, kept := put world.kept fd flag } := by
  refine ⟨invariant.now, fun dir inside => ?_, fun other => ?_⟩
  · obtain ⟨whole, there, apart, distinct, made⟩ := invariant.names dir inside
    refine ⟨fun file leads => ?_, there, apart, distinct, made⟩
    have elsewhere : file ≠ fd := fun same => (apart file leads pid).2 (same ▸ own)
    show put world.kept fd flag file = true ∧ Known initial world (put world.data fd text file) ∧ _
    rw [put_other _ _ elsewhere, put_other _ _ elsewhere]
    exact whole file leads
  · by_cases same : other = pid
    · rw [same]
      exact works
    · have before := invariant.works other
      show Works _ _ other (world.pc other)
      generalize world.pc other = there at before ⊢
      cases there with
      | writing file content => exact before
      | synced file content =>
        obtain ⟨leads, known, kept, written⟩ := before
        have elsewhere : file ≠ fd := fun equal =>
          same ((invariant.names _ invariant.now).distinct other pid fd (equal ▸ leads) own)
        refine ⟨leads, known, ?_, ?_⟩
        · show put world.kept fd flag file = true
          rwa [put_other _ _ elsewhere]
        · show put world.data fd text file = content
          rwa [put_other _ _ elsewhere]
      | _ => trivial

/-- Names that the disk may have, when fewer temporary names are there now. -/
theorem Names.fewer {dir : Dir} (names : Names initial world dir) (tmp : Pid → Option Nat)
    (fewer : ∀ pid fd, tmp pid = some fd → world.dir.tmp pid = some fd) (target : Option Nat)
    (past : List Dir) (pc : Pid → Pc) :
    Names initial { world with dir := ⟨target, tmp⟩, past, pc } dir := by
  obtain ⟨whole, there, apart, distinct, made⟩ := names
  refine ⟨whole, there, fun fd leads pid => ⟨(apart fd leads pid).1, fun now => ?_⟩, distinct, made⟩
  exact (apart fd leads pid).2 (fewer pid fd now)

/-- A temporary name that is taken away. -/
theorem put_none {tmp : Pid → Option Nat} {other : Pid} {fd : Nat}
    (there : put tmp pid none other = some fd) : tmp other = some fd ∧ other ≠ pid := by
  by_cases same : other = pid
  · rw [same, put_self] at there
    contradiction
  · rw [put_other _ _ same] at there
    exact ⟨there, same⟩

/-- A process loses its temporary name, and the path leads where it did or to that file. -/
theorem Invariant.drop (invariant : Invariant initial world) (target : Option Nat) (pc : Pc)
    (idle : ∀ world : World, Works initial world pid pc)
    (leads : target = world.dir.target ∨ ∃ fd, target = some fd ∧ world.dir.tmp pid = some fd ∧
      world.kept fd = true ∧ Known initial world (world.data fd)) :
    Invariant initial ((world.rename ⟨target, put world.dir.tmp pid none⟩).goto pid pc) := by
  have now := invariant.names _ invariant.now
  have fewer : ∀ other fd, put world.dir.tmp pid none other = some fd →
      world.dir.tmp other = some fd := fun other fd there => (put_none there).1
  refine ⟨List.mem_cons_self, ?_, fun other => ?_⟩
  · intro dir inside
    rcases List.mem_cons.mp inside with rfl | before
    · refine ⟨?_, ?_, ?_, ?_, ?_⟩
      · intro fd there
        rcases leads with same | ⟨file, new, own, kept, known⟩
        · exact now.whole fd (same ▸ there)
        · obtain rfl := Option.some.inj (new.symm.trans there)
          exact ⟨kept, known, now.made pid _ own⟩
      · intro missing
        rcases leads with same | ⟨file, new, -⟩
        · exact now.there (same ▸ missing)
        · exact absurd (new.symm.trans missing) (Option.some_ne_none file)
      · intro fd there other
        refine and_self_iff.mpr fun tmp => ?_
        obtain ⟨old, apart⟩ := put_none tmp
        rcases leads with same | ⟨file, new, own, -⟩
        · exact (now.apart fd (same ▸ there) other).1 old
        · obtain rfl := Option.some.inj (new.symm.trans there)
          exact apart (now.distinct other pid _ old own)
      · intro first second fd here there
        exact now.distinct first second fd (fewer first fd here) (fewer second fd there)
      · intro other fd there
        exact now.made other fd (fewer other fd there)
    · exact (invariant.names dir before).fewer _ fewer target _ _
  · show Works _ _ other (put world.pc pid pc other)
    by_cases same : other = pid
    · rw [same, put_self]
      exact idle _
    · rw [put_other _ _ same]
      have before := invariant.works other
      have stays (fd : Nat) (there : world.dir.tmp other = some fd) :
          put world.dir.tmp pid none other = some fd := (put_other _ _ same).trans there
      generalize world.pc other = there at before ⊢
      cases there with
      | writing fd text => exact ⟨stays fd before.1, before.2⟩
      | synced fd text => exact ⟨stays fd before.1, before.2⟩
      | _ => trivial

/-- A process that opens its temporary file has it, and the others do not see it. -/
theorem Invariant.fopen (invariant : Invariant initial world) (idle : world.pc pid = .idle) :
    Invariant initial (world.fopen pid).2 ∧
      (world.fopen pid).2.dir.tmp pid = some (world.fopen pid).1 := by
  rw [World.fopen]
  cases own : world.dir.tmp pid with
  | some fd =>
    refine ⟨invariant.touch own [] false ?_, own⟩
    rw [idle]
    trivial
  | none =>
    have now := invariant.names _ invariant.now
    have older {fd : Nat} (small : fd < world.made) : fd ≠ world.made := Nat.ne_of_lt small
    have back {other : Pid} {fd : Nat} (small : fd ≠ world.made)
        (there : put world.dir.tmp pid (some world.made) other = some fd) :
        world.dir.tmp other = some fd := by
      by_cases same : other = pid
      · rw [same, put_self] at there
        exact absurd (Option.some.inj there).symm small
      · rwa [put_other _ _ same] at there
    have whole {dir : Dir} (names : Names initial world dir) (fd : Nat)
        (leads : dir.target = some fd) :
        put world.kept world.made false fd = true ∧
          Known initial world (put world.data world.made [] fd) ∧ fd < world.made + 1 := by
      obtain ⟨kept, known, small⟩ := names.whole fd leads
      rw [put_other _ _ (older small), put_other _ _ (older small)]
      exact ⟨kept, known, Nat.lt_succ_of_lt small⟩
    refine ⟨⟨List.mem_cons_self, ?_, fun other => ?_⟩, put_self _ _ _⟩
    · intro dir inside
      rcases List.mem_cons.mp inside with rfl | before
      · refine ⟨fun fd leads => whole now fd leads, now.there, ?_, ?_, ?_⟩
        · intro fd leads other
          refine and_self_iff.mpr fun tmp => ?_
          exact (now.apart fd leads other).1 (back (older (now.whole fd leads).2.2) tmp)
        · intro first second fd here there
          by_cases new : fd = world.made
          · have only (other : Pid)
                (tmp : put world.dir.tmp pid (some world.made) other = some fd) : other = pid := by
              by_contra apart
              rw [put_other _ _ apart] at tmp
              exact older (now.made other fd tmp) new
            rw [only first here, only second there]
          · exact now.distinct first second fd (back new here) (back new there)
        · intro other fd tmp
          show fd < world.made + 1
          by_cases new : fd = world.made
          · omega
          · exact Nat.lt_succ_of_lt (now.made other fd (back new tmp))
      · have names := invariant.names dir before
        refine ⟨whole names, names.there, ?_, names.distinct, ?_⟩
        · intro fd leads other
          refine ⟨(names.apart fd leads other).1, fun tmp => ?_⟩
          exact (names.apart fd leads other).2 (back (older (names.whole fd leads).2.2) tmp)
        · intro other fd tmp
          exact Nat.lt_succ_of_lt (names.made other fd tmp)
    · have before := invariant.works other
      show Works _ _ other (world.pc other)
      by_cases same : other = pid
      · rw [same, idle]
        trivial
      · have stays (fd : Nat) (there : world.dir.tmp other = some fd) :
            put world.dir.tmp pid (some world.made) other = some fd :=
          (put_other _ _ same).trans there
        generalize world.pc other = there at before ⊢
        cases there with
        | writing fd text => exact ⟨stays fd before.1, before.2⟩
        | synced fd text =>
          have apart := older (now.made other fd before.1)
          refine ⟨stays fd before.1, before.2.1, ?_, ?_⟩
          · show put world.kept world.made false fd = true
            rw [put_other _ _ apart]
            exact before.2.2.1
          · show put world.data world.made [] fd = text
            rw [put_other _ _ apart]
            exact before.2.2.2
        | _ => trivial

/-- One step keeps the invariant. -/
theorem Invariant.step (invariant : Invariant initial world) {action : Action}
    (taken : SafeSave.step world action = some next) : Invariant initial next := by
  cases action with
  | save pid content =>
    replace taken : (if world.pc pid = .idle then _ else none) = some next := taken
    split at taken
    · rename_i idle
      obtain rfl := Option.some.inj taken
      obtain ⟨opened, own⟩ := invariant.fopen idle
      have works : Works initial
          { (world.fopen pid).2 with asked := content :: (world.fopen pid).2.asked } pid
          (.writing (world.fopen pid).1 content) := ⟨own, .inr List.mem_cons_self⟩
      exact (opened.ask content).goto works
    · contradiction
  | write pid count =>
    have works := invariant.works pid
    rw [SafeSave.step] at taken
    split at taken
    · rename_i fd content at_work
      rw [at_work] at works
      obtain rfl := Option.some.inj taken
      refine invariant.touch works.1 _ false ?_
      rw [at_work]
      exact works
    · contradiction
  | fsync pid =>
    have works := invariant.works pid
    rw [SafeSave.step] at taken
    split at taken
    · rename_i fd content at_work
      rw [at_work] at works
      split at taken
      · rename_i complete
        obtain rfl := Option.some.inj taken
        -- the bytes stay as they are and are now on the disk
        have same : put world.data fd (world.data fd) = world.data := by
          funext other
          by_cases here : other = fd
          · rw [here, put_self]
          · exact put_other _ _ here
        have touched := invariant.touch works.1 (world.data fd) true (by rw [at_work]; exact works)
        rw [same] at touched
        exact touched.goto ⟨works.1, works.2, put_self _ _ _, complete⟩
      · contradiction
    · contradiction
  | fail pid =>
    rw [SafeSave.step] at taken
    split at taken
    · obtain rfl := Option.some.inj taken
      exact invariant.drop _ _ (fun _ => trivial) (.inl rfl)
    · obtain rfl := Option.some.inj taken
      exact invariant.drop _ _ (fun _ => trivial) (.inl rfl)
    · contradiction
  | rename pid =>
    have works := invariant.works pid
    rw [SafeSave.step] at taken
    split at taken
    · rename_i fd content at_work
      rw [at_work] at works
      obtain ⟨own, known, kept, written⟩ := works
      obtain rfl := Option.some.inj taken
      refine invariant.drop _ _ (fun _ => trivial) (.inr ⟨fd, own, own, kept, ?_⟩)
      rw [written]
      exact known
    · contradiction
  | fsyncDir pid succeeds =>
    rw [SafeSave.step] at taken
    split at taken
    · obtain rfl := Option.some.inj taken
      refine Invariant.goto ?_ trivial
      cases succeeds with
      | false => exact invariant
      | true =>
        refine ⟨List.mem_cons_self, fun dir inside => ?_, invariant.works⟩
        obtain rfl := List.mem_singleton.mp inside
        obtain ⟨whole, there, apart, distinct, made⟩ := invariant.names _ invariant.now
        exact ⟨whole, there, apart, distinct, made⟩
    · contradiction
  | die pid =>
    obtain rfl := Option.some.inj taken
    exact invariant.goto trivial
  | crash names left =>
    obtain ⟨dir, found, rfl⟩ := Option.map_eq_some_iff.mp taken
    obtain ⟨whole, there, apart, distinct, made⟩ :=
      invariant.names dir (List.mem_of_getElem? found)
    refine ⟨List.mem_cons_self, fun other inside => ?_, fun _ => trivial⟩
    obtain rfl := List.mem_singleton.mp inside
    refine ⟨fun fd leads => ?_, there, fun fd leads pid => ?_, distinct, made⟩
    · obtain ⟨kept, known, small⟩ := whole fd leads
      refine ⟨kept, ?_, small⟩
      show Known _ _ (if world.kept fd = true then world.data fd else left fd)
      rw [if_pos kept]
      exact known
    · exact and_self_iff.mpr (apart fd leads pid).1

/-- The invariant holds in every run. -/
theorem invariant_of_reachable (reached : (system initial).Reachable world) :
    Invariant initial world := by
  refine reached.invariant ?_ fun _ action _ invariant _ taken => invariant.step taken
  refine ⟨List.mem_cons_self, fun dir inside => ?_, fun _ => trivial⟩
  obtain rfl := List.mem_singleton.mp inside
  refine ⟨fun fd leads => ?_, fun missing => Option.map_eq_none_iff.mp missing, fun fd _ pid => ?_,
    fun first second fd here => ?_, fun pid fd here => ?_⟩
  · obtain ⟨content, first, rfl⟩ := Option.map_eq_some_iff.mp leads
    refine ⟨rfl, .inl ?_, Nat.zero_lt_one⟩
    show initial = some (initial.getD [])
    rw [first]
    rfl
  · exact ⟨(Option.some_ne_none fd).symm, (Option.some_ne_none fd).symm⟩
  · contradiction
  · contradiction

/-! ## What is read -/

/-- At every moment of every run, with any saves at the same time and after any crash, what is read
at the path is the content of the beginning or one that was to be saved, and all of it; and a file
that was there stays. -/
theorem read_whole (reached : (system initial).Reachable world) :
    (∀ content, world.read = some content → initial = some content ∨ content ∈ world.asked) ∧
      (world.read = none → initial = none) := by
  have names := (invariant_of_reachable reached).names _ (invariant_of_reachable reached).now
  constructor
  · intro content here
    obtain ⟨fd, leads, rfl⟩ := Option.map_eq_some_iff.mp here
    exact (names.whole fd leads).2.1
  · intro missing
    exact names.there (Option.map_eq_none_iff.mp missing)

open Spine in
/-- A spine that is saved by any processes, any number of times and with any crashes, is loaded as
one of those that were to be saved, if the loader accepts each of them. -/
theorem load_after_crash {first : Provenances} (memory : Provenances)
    (reached : (system (some (save first))).Reachable world) (spines : List Provenances)
    (asked : ∀ content ∈ world.asked, ∃ spine ∈ spines, content = save spine)
    (accepted : ∀ spine ∈ first :: spines, spine.entries.length ≤ 100000000 ∧
      ∀ entry ∈ spine.entries, entry.2.Small) :
    ∃ spine ∈ first :: spines, (load world.read memory).1 = true ∧
      (load world.read memory).2.entries.Perm spine.entries := by
  obtain ⟨known, there⟩ := read_whole reached
  cases here : world.read with
  | none => exact absurd (there here) (Option.some_ne_none _)
  | some content =>
    have one : ∃ spine ∈ first :: spines, content = save spine := by
      rcases known content here with begun | later
      · exact ⟨first, List.mem_cons_self, (Option.some.inj begun).symm⟩
      · obtain ⟨spine, inside, same⟩ := asked content later
        exact ⟨spine, List.mem_cons_of_mem _ inside, same⟩
    obtain ⟨spine, inside, rfl⟩ := one
    obtain ⟨succeeds, same⟩ := (restores_iff spine memory).mpr (accepted spine inside)
    exact ⟨spine, inside, succeeds, same⟩

open Spine in
/-- A spine is saved in two parts over the empty one, and the machine crashes before the second
part: the empty one is loaded. -/
theorem load_after_crash_early : ∃ world,
    (system (some (save ∅))).run (system (some (save ∅))).initial
      [.save 7 (save (inSession [97])), .write 7 20, .crash 0 fun _ => [0]] = some world ∧
    ∃ spine ∈ [∅, inSession [97]], (load world.read ∅).1 = true ∧
      (load world.read ∅).2.entries.Perm spine.entries := by
  refine ⟨_, rfl, load_after_crash ∅ (.of_run [.save 7 (save (inSession [97])), .write 7 20,
    .crash 0 fun _ => [0]] .initial rfl) [inSession [97]] ?_ ?_⟩
  · intro content inside
    exact ⟨inSession [97], List.mem_cons_self, List.mem_singleton.mp inside⟩
  · intro spine inside
    rcases List.mem_cons.mp inside with rfl | later
    · exact ⟨Nat.zero_le _, fun entry there => absurd there List.not_mem_nil⟩
    · obtain rfl := List.mem_singleton.mp later
      exact (restores_iff _ ∅).mp ((restores_inSession [97] ∅).mpr (by decide))

end Chitta.SafeSave
