import Mathlib.Data.List.GetD
import Chitta.CodeNavigation.Graph

/-!
# One more file

The nodes of a file that is added stand between those of the files before and behind it, so the
others are numbered anew. What a call may mean can only become more, and the symbols of its own file
come first, so a call is resolved as before or becomes ambiguous.
-/
namespace Chitta.CodeNavigation

section Places

variable (front added behind : List Node)

/-- The new number of a node when others are put in after the front. -/
def moved (place : Nat) : Nat := if place < front.length then place else place + added.length

/-- Different nodes have different new numbers. -/
theorem moved_injective : Function.Injective (moved front added) := by
  intro one other same
  unfold moved at same
  split at same <;> split at same <;> omega

/-- A node has the same data under its new number. -/
theorem node_moved (place : Nat) :
    node (front ++ (added ++ behind)) (moved front added place) = node (front ++ behind) place := by
  unfold moved node
  split
  · rename_i before
    rw [List.getD_append _ _ _ _ before, List.getD_append _ _ _ _ before]
  · rename_i later
    rw [List.getD_append_right _ _ _ _ (by omega), List.getD_append_right _ _ _ _ (by omega),
      List.getD_append_right _ _ _ _ (by omega)]
    congr 1
    omega

/-- A number is a new number, or that of a node that was put in. -/
theorem moved_or_added {place : Nat} (inside : place < (front ++ (added ++ behind)).length) :
    (∃ old < (front ++ behind).length, place = moved front added old) ∨
      node (front ++ (added ++ behind)) place ∈ added := by
  simp only [List.length_append] at inside
  rcases Nat.lt_or_ge place front.length with before | later
  · left
    refine ⟨place, by rw [List.length_append]; omega, ?_⟩
    rw [moved, if_pos before]
  · rcases Nat.lt_or_ge place (front.length + added.length) with among | after
    · right
      rw [node, List.getD_append_right _ _ _ _ later, List.getD_append _ _ _ _ (by omega)]
      rw [List.getD_eq_getElem _ _ (by omega)]
      exact List.getElem_mem _
    · left
      refine ⟨place - added.length, by rw [List.length_append]; omega, ?_⟩
      rw [moved, if_neg (by omega)]
      omega

/-- A new number is that of a node exactly when the old one is. -/
theorem moved_lt (place : Nat) :
    moved front added place < (front ++ (added ++ behind)).length ↔
      place < (front ++ behind).length := by
  simp only [List.length_append]
  unfold moved
  split <;> omega

/-- The nodes that pass a test, when none of those that were put in does. -/
theorem filter_moved {test old : Nat → Bool}
    (same : ∀ place, test (moved front added place) = old place)
    (none_added : ∀ place, place < (front ++ (added ++ behind)).length →
      node (front ++ (added ++ behind)) place ∈ added → test place = false) :
    (List.range (front ++ (added ++ behind)).length).filter test =
      ((List.range (front ++ behind).length).filter old).map (moved front added) := by
  have first : (List.range front.length).filter test =
      ((List.range front.length).filter old).map (moved front added) := by
    have fixed : ∀ place ∈ List.range front.length, moved front added place = place := by
      intro place inside
      rw [moved, if_pos (List.mem_range.mp inside)]
    have equal : (List.range front.length).filter test = (List.range front.length).filter old := by
      refine List.filter_congr fun place inside => ?_
      rw [← same, fixed place inside]
    have unchanged : ((List.range front.length).filter old).map (moved front added) =
        ((List.range front.length).filter old).map id :=
      List.map_congr_left fun place inside => fixed place (List.mem_of_mem_filter inside)
    rw [equal, unchanged, List.map_id]
  have middle : ((List.range added.length).map (front.length + ·)).filter test = [] := by
    refine List.filter_eq_nil_iff.mpr fun place inside => ?_
    obtain ⟨offset, small, rfl⟩ := List.mem_map.mp inside
    have small := List.mem_range.mp small
    rw [Bool.not_eq_true]
    refine none_added _ (by simp only [List.length_append]; omega) ?_
    rw [node, List.getD_append_right _ _ _ _ (by omega), List.getD_append _ _ _ _ (by omega),
      List.getD_eq_getElem _ _ (by omega)]
    exact List.getElem_mem _
  have last : ((List.range behind.length).map (front.length + added.length + ·)).filter test =
      (((List.range behind.length).map (front.length + ·)).filter old).map (moved front added) := by
    rw [List.filter_map, List.filter_map, List.map_map]
    have later : ∀ offset, moved front added (front.length + offset) =
        front.length + added.length + offset := by
      intro offset
      rw [moved, if_neg (by omega)]
      omega
    have equal : (List.range behind.length).filter (test ∘ (front.length + added.length + ·)) =
        (List.range behind.length).filter (old ∘ (front.length + ·)) := by
      refine List.filter_congr fun offset _ => ?_
      show test (front.length + added.length + offset) = old (front.length + offset)
      rw [← same, later]
    rw [equal]
    exact List.map_congr_left fun offset _ => (later offset).symm
  simp only [List.length_append, ← Nat.add_assoc, List.range_add, List.filter_append,
    List.map_append,
    first, middle, last, List.append_nil]

end Places

/-! ## A call before and after -/

section Calls

variable {front added behind : List Node} {file : String} {raw : RawEdge}

theorem single_some {places : List Nat} {place : Nat} :
    single places = some place ↔ places = [place] := by
  unfold single
  split <;> simp_all

theorem single_none {places : List Nat} : single places = none ↔ places.length ≠ 1 := by
  unfold single
  split <;> simp_all [List.length_eq_one_iff]

/-- The node that a list leaves, when it is the only one. -/
theorem single_dedup {places : List Nat} {place : Nat} :
    single places.dedup = some place ↔ ∀ other, other ∈ places ↔ other = place := by
  constructor
  · intro only other
    have whole : places.dedup = [place] := by
      match equal : places.dedup with
      | [] => rw [equal] at only; contradiction
      | [one] =>
        rw [equal] at only
        rw [Option.some.inj only]
      | _ :: _ :: _ => rw [equal] at only; contradiction
    rw [← List.mem_dedup, whole, List.mem_singleton]
  · intro only
    have whole : places.dedup = [place] := by
      apply List.perm_singleton.mp
      refine (List.perm_ext_iff_of_nodup (List.nodup_dedup _) (List.nodup_singleton _)).mpr ?_
      intro other
      rw [List.mem_dedup, only, List.mem_singleton]
    rw [whole]
    rfl

/-- The symbols of a file that was there. -/
theorem byFile_moved (other : ∀ one ∈ added, one.file ≠ file) :
    byFile (front ++ (added ++ behind)) file =
      (byFile (front ++ behind) file).map (moved front added) := by
  refine filter_moved front added behind (fun place => ?_) fun place _ inside => ?_
  · rw [node_moved]
  · exact decide_eq_false (other _ inside)

/-- The symbol around a line of a file that was there. -/
theorem enclosing_moved (other : ∀ one ∈ added, one.file ≠ file) (line : Int) :
    enclosing (front ++ (added ++ behind)) file line =
      (enclosing (front ++ behind) file line).map (moved front added) := by
  have each : ∀ (places : List Nat) (best : Option Nat × Int),
      ((places.map (moved front added)).foldl (narrower (front ++ (added ++ behind)) line)
        (best.1.map (moved front added), best.2)).1 =
      (places.foldl (narrower (front ++ behind) line) best).1.map (moved front added) := by
    intro places
    induction places with
    | nil => exact fun _ => rfl
    | cons place places ih =>
      intro best
      rw [List.map_cons, List.foldl_cons, List.foldl_cons, ← ih]
      congr 2
      unfold narrower
      rw [node_moved]
      dsimp only
      split
      · rfl
      · rfl
  rw [enclosing, enclosing, byFile_moved other, ← each]
  rfl

/-- A symbol is found under a name as before. -/
theorem named_moved {name : String} {place : Nat} :
    moved front added place ∈ named (front ++ (added ++ behind)) name ↔
      place ∈ named (front ++ behind) name := by
  simp only [named, List.mem_filter, List.mem_range, moved_lt, node_moved]

/-- A symbol may be meant as before. -/
theorem eligible_moved {source place : Nat} :
    eligible (front ++ (added ++ behind)) (moved front added source) raw (moved front added place) =
      eligible (front ++ behind) source raw place := by
  simp only [eligible, node_moved]

/-- The symbols that a name may mean, before those of the file itself are preferred. -/
def meant (nodes : List Node) (source : Nat) (raw : RawEdge) : List Nat :=
  (named nodes raw.target).filter (eligible nodes source raw)

/-- The old symbols that may be meant are the same ones when a file is new. -/
theorem meant_moved {source place : Nat} :
    moved front added place ∈ meant (front ++ (added ++ behind)) (moved front added source) raw ↔
      place ∈ meant (front ++ behind) source raw := by
  simp only [meant, List.mem_filter, named_moved, eligible_moved]

/-- What may be meant is an old symbol or one of the new file. -/
theorem meant_cases {source place : Nat}
    (inside : place ∈ meant (front ++ (added ++ behind)) source raw) :
    (∃ old, place = moved front added old) ∨ node (front ++ (added ++ behind)) place ∈ added := by
  rcases moved_or_added front added behind (named_lt (List.mem_of_mem_filter inside)) with
    ⟨old, _, same⟩ | new
  · exact .inl ⟨old, same⟩
  · exact .inr new

/-- A call has a candidate in its own file. -/
def Own (nodes : List Node) (file : String) (source : Nat) (raw : RawEdge) : Prop :=
  ∃ place ∈ meant nodes source raw, (node nodes place).file = file

instance (nodes : List Node) (file : String) (source : Nat) (raw : RawEdge) :
    Decidable (Own nodes file source raw) :=
  inferInstanceAs (Decidable (∃ place ∈ meant nodes source raw, (node nodes place).file = file))

/-- The candidates of a call: those of its own file when there are any. -/
theorem mem_namedCandidates {nodes : List Node} {source place : Nat} :
    place ∈ namedCandidates nodes file source raw ↔
      place ∈ meant nodes source raw ∧
        (Own nodes file source raw → (node nodes place).file = file) := by
  unfold namedCandidates
  dsimp only
  rw [← meant]
  by_cases own : Own nodes file source raw
  · obtain ⟨one, inside, here⟩ := own
    have some_here : ((meant nodes source raw).filter fun place =>
        (node nodes place).file = file).isEmpty = false := by
      rw [List.isEmpty_eq_false_iff_exists_mem]
      exact ⟨one, List.mem_filter.mpr ⟨inside, decide_eq_true here⟩⟩
    rw [some_here, if_neg Bool.false_ne_true, List.mem_filter, decide_eq_true_eq]
    exact and_congr_right fun _ => ⟨fun same _ => same, fun same => same ⟨one, inside, here⟩⟩
  · have none_here : ((meant nodes source raw).filter fun place =>
        (node nodes place).file = file).isEmpty = true := by
      rw [List.isEmpty_iff, List.filter_eq_nil_iff]
      intro one inside here
      exact own ⟨one, inside, of_decide_eq_true here⟩
    rw [none_here, if_pos rfl]
    exact ⟨fun inside => ⟨inside, fun there => absurd there own⟩, fun both => both.1⟩

/-- A call has a candidate in its own file as before. -/
theorem own_moved (other : ∀ one ∈ added, one.file ≠ file) {source : Nat} :
    Own (front ++ (added ++ behind)) file (moved front added source) raw ↔
      Own (front ++ behind) file source raw := by
  constructor
  · rintro ⟨place, inside, here⟩
    rcases meant_cases inside with ⟨old, rfl⟩ | new
    · rw [node_moved] at here
      exact ⟨old, meant_moved.mp inside, here⟩
    · exact absurd here (other _ new)
  · rintro ⟨place, inside, here⟩
    exact ⟨moved front added place, meant_moved.mpr inside, by rwa [node_moved]⟩

/-- An old candidate is one as before. -/
theorem candidates_moved (other : ∀ one ∈ added, one.file ≠ file) {source place : Nat} :
    moved front added place ∈
        namedCandidates (front ++ (added ++ behind)) file (moved front added source) raw ↔
      place ∈ namedCandidates (front ++ behind) file source raw := by
  rw [mem_namedCandidates, mem_namedCandidates, meant_moved, own_moved other, node_moved]

/-- A call with a candidate in its own file has the candidates it had. -/
theorem candidates_own (other : ∀ one ∈ added, one.file ≠ file) {source place : Nat}
    (own : Own (front ++ behind) file source raw) :
    place ∈ namedCandidates (front ++ (added ++ behind)) file (moved front added source) raw ↔
      ∃ old ∈ namedCandidates (front ++ behind) file source raw, place = moved front added old := by
  constructor
  · intro inside
    obtain ⟨among, here⟩ := mem_namedCandidates.mp inside
    rcases meant_cases among with ⟨old, rfl⟩ | new
    · exact ⟨old, (candidates_moved other).mp inside, rfl⟩
    · exact absurd (here ((own_moved other).mpr own)) (other _ new)
  · rintro ⟨old, inside, rfl⟩
    exact (candidates_moved other).mpr inside

/-! ## How a call is resolved -/

/-- The symbol that a raw edge starts at. -/
def callerOf (nodes : List Node) (file : String) (raw : RawEdge) : Option Nat :=
  (enclosing nodes file raw.line).bind fun around =>
    channelSource nodes raw (derivedSource nodes file raw around)

/-- The edge of a call, once the symbol around it is known. -/
def callEdge (nodes : List Node) (file : String) (raw : RawEdge) (source : Nat) : Edge :=
  let candidates := namedCandidates nodes file source raw
  let only := single candidates.dedup
  { «from» := source, «to» := only, kind := raw.kind, surface := raw.target,
    confidence := if only = none then "EXTRACTED" else "INFERRED",
    resolution :=
      if only ≠ none then "unique_name"
      else if candidates.isEmpty then "unresolved"
      else "AMBIGUOUS",
    evidenceFile := file, line := raw.line }

/-- A call goes from its symbol to its candidates. -/
theorem resolve_call (paths : Paths) (nodes : List Node) (kind : raw.kind = "calls") :
    resolve paths nodes file raw = (callerOf nodes file raw).map (callEdge nodes file raw) := by
  unfold resolve callerOf
  cases enclosing nodes file raw.line with
  | none => rfl
  | some around =>
    simp only [Option.bind_eq_bind, Option.bind_some]
    cases channelSource nodes raw (derivedSource nodes file raw around) with
    | none => rfl
    | some source => simp [candidatesOf, callEdge, kind]

/-- A call starts at the symbol around it. -/
theorem callerOf_direct (nodes : List Node) (kind : raw.kind = "calls")
    (direct : raw.sourceName = "") : callerOf nodes file raw = enclosing nodes file raw.line := by
  simp [callerOf, derivedSource, channelSource, kind, direct]

/-- An edge has the kind of its raw edge. -/
theorem kind_resolve {paths : Paths} {nodes : List Node} {edge : Edge}
    (resolved : resolve paths nodes file raw = some edge) : edge.kind = raw.kind := by
  unfold resolve at resolved
  simp only [Option.bind_eq_bind, Option.bind_eq_some_iff] at resolved
  obtain ⟨_, _, _, _, made⟩ := resolved
  split at made
  · contradiction
  · obtain rfl := Option.some.inj made
    rfl

/-- A call is ambiguous when it has candidates and none of them is the only one. -/
theorem ambiguous_iff {nodes : List Node} {source : Nat} :
    (callEdge nodes file raw source).resolution = "AMBIGUOUS" ↔
      (callEdge nodes file raw source).to = none ∧
        ∃ place, place ∈ namedCandidates nodes file source raw := by
  unfold callEdge
  dsimp only
  cases single (namedCandidates nodes file source raw).dedup with
  | some place => simp
  | none =>
    cases namedCandidates nodes file source raw with
    | nil => simp
    | cons place others => simp

variable {source : Nat}

/-- A resolved call that is resolved afterwards is resolved to the same symbol. -/
theorem to_moved (other : ∀ one ∈ added, one.file ≠ file) {goal later : Nat}
    (before : (callEdge (front ++ behind) file raw source).to = some goal)
    (after : (callEdge (front ++ (added ++ behind)) file raw (moved front added source)).to =
      some later) : later = moved front added goal := by
  have here := (single_dedup.mp before goal).mpr rfl
  exact ((single_dedup.mp after _).mp ((candidates_moved other).mpr here)).symm

/-- An ambiguous call stays open. -/
theorem open_moved (other : ∀ one ∈ added, one.file ≠ file)
    (before : (callEdge (front ++ behind) file raw source).resolution = "AMBIGUOUS") :
    (callEdge (front ++ (added ++ behind)) file raw (moved front added source)).to = none := by
  obtain ⟨several, place, inside⟩ := ambiguous_iff.mp before
  cases after : (callEdge (front ++ (added ++ behind)) file raw (moved front added source)).to with
  | none => rfl
  | some later =>
    -- The only candidate afterwards would have been the only one before.
    have only := single_dedup.mp after
    have one : moved front added place = later := (only _).mp ((candidates_moved other).mpr inside)
    have before_only : (callEdge (front ++ behind) file raw source).to = some place := by
      refine single_dedup.mpr fun second => ⟨fun there => ?_, fun same => same ▸ inside⟩
      have two : moved front added second = later :=
        (only _).mp ((candidates_moved other).mpr there)
      exact moved_injective front added (two.trans one.symm)
    rw [several] at before_only
    contradiction

/-- A call with a candidate in its own file is resolved as before. -/
theorem own_resolved (other : ∀ one ∈ added, one.file ≠ file)
    (own : Own (front ++ behind) file source raw) :
    (callEdge (front ++ (added ++ behind)) file raw (moved front added source)).to =
        (callEdge (front ++ behind) file raw source).to.map (moved front added) ∧
      (callEdge (front ++ (added ++ behind)) file raw (moved front added source)).resolution =
        (callEdge (front ++ behind) file raw source).resolution := by
  have some_place : ∃ place, place ∈ namedCandidates (front ++ behind) file source raw := by
    obtain ⟨place, inside, here⟩ := own
    exact ⟨place, mem_namedCandidates.mpr ⟨inside, fun _ => here⟩⟩
  obtain ⟨place, inside⟩ := some_place
  have still := (candidates_moved other).mpr inside
  cases before : (callEdge (front ++ behind) file raw source).to with
  | some goal =>
    have only := single_dedup.mp before
    have after : (callEdge (front ++ (added ++ behind)) file raw (moved front added source)).to =
        some (moved front added goal) := by
      refine single_dedup.mpr fun second => ?_
      rw [candidates_own other own]
      constructor
      · rintro ⟨old, there, rfl⟩
        rw [(only old).mp there]
      · intro same
        exact ⟨goal, (only goal).mpr rfl, same⟩
    refine ⟨after, ?_⟩
    unfold callEdge at before after ⊢
    dsimp only at before after ⊢
    rw [before, after]
    rfl
  | none =>
    have was := ambiguous_iff.mpr ⟨before, place, inside⟩
    have stays := open_moved other was
    exact ⟨stays, (ambiguous_iff.mpr ⟨stays, _, still⟩).trans was.symm⟩

end Calls

/-! ## What is promised of a call -/

section Growth

variable (paths : Paths) (front : Files) (added : String × File) (behind : Files)

/-- The new number of a node when a file is added. -/
def renumbered (place : Nat) : Nat := moved (nodesFrom paths front) (nodesOf paths added) place

/-- The edge of a call among some files. -/
def callIn (files : Files) (item : String × File) (raw : RawEdge) : Option Edge :=
  resolve paths (nodesFrom paths files) item.1 raw

/-- What is promised of a call of a file that was there. -/
structure Stable (item : String × File) (raw : RawEdge) : Prop where
  /-- An edge to a symbol is still there or is marked as ambiguous. -/
  kept : ∀ edge ∈ callIn paths (front ++ behind) item raw, ∀ goal, edge.to = some goal →
    goal ≠ edge.from →
    (∃ later ∈ (rebuild paths (front ++ added :: behind)).edges,
      later.key = (renumbered paths front added edge.from, some (renumbered paths front added goal),
        "calls", raw.target)) ∨
    ∃ later ∈ (rebuild paths (front ++ added :: behind)).edges,
      later.key = (renumbered paths front added edge.from, none, "calls", raw.target) ∧
        later.resolution = "AMBIGUOUS"
  /-- A call is not resolved to another symbol. -/
  directed : ∀ edge ∈ callIn paths (front ++ behind) item raw, ∀ goal, edge.to = some goal →
    ∀ later ∈ callIn paths (front ++ added :: behind) item raw, ∀ other, later.to = some other →
      other = renumbered paths front added goal
  /-- An ambiguous call is not resolved. -/
  stays : ∀ edge ∈ callIn paths (front ++ behind) item raw, edge.resolution = "AMBIGUOUS" →
    ∀ later ∈ callIn paths (front ++ added :: behind) item raw, later.to = none
  /-- A call with a candidate in its own file is resolved as before. -/
  own : ∀ edge ∈ callIn paths (front ++ behind) item raw,
    Own (nodesFrom paths (front ++ behind)) item.1 edge.from raw →
    ∃ later ∈ callIn paths (front ++ added :: behind) item raw,
      later.from = renumbered paths front added edge.from ∧
        later.to = edge.to.map (renumbered paths front added) ∧ later.resolution = edge.resolution

/-- The calls of a name from a symbol, with their files. -/
def callsFrom (files : Files) (source : Nat) (name : String) : List (String × RawEdge) :=
  files.flatMap fun item => (item.2.edges.filter fun raw => raw.kind = "calls" ∧
    raw.target = name ∧ callerOf (nodesFrom paths files) item.1 raw = some source).map (item.1, ·)

/-- The candidates of a call. -/
def candidatesIn (files : Files) (source : Nat) (call : String × RawEdge) : List Nat :=
  (namedCandidates (nodesFrom paths files) call.1 source call.2).dedup

/-- One of the calls of a name from a symbol has only this candidate, or the first of them without
an only candidate has several, not none. -/
def Heard (files : Files) (source : Nat) (name : String) (goal : Nat) : Prop :=
  (∃ call ∈ callsFrom paths files source name, candidatesIn paths files source call = [goal]) ∨
    ∃ call, (callsFrom paths files source name).find? (fun call =>
        (candidatesIn paths files source call).length ≠ 1) = some call ∧
      candidatesIn paths files source call ≠ []

/-- When a call loses its only candidate to several, the calls of its name from its symbol still say
so. -/
def Noted (item : String × File) (raw : RawEdge) : Prop :=
  ∀ source, enclosing (nodesFrom paths (front ++ behind)) item.1 raw.line = some source →
    ∀ goal, goal ≠ source → candidatesIn paths (front ++ behind) source (item.1, raw) = [goal] →
      candidatesIn paths (front ++ added :: behind) (renumbered paths front added source)
          (item.1, raw) ≠ [renumbered paths front added goal] →
      Heard paths (front ++ added :: behind) (renumbered paths front added source) raw.target
        (renumbered paths front added goal)

variable {paths front added behind}

/-- The nodes of the files with the new one. -/
theorem nodesFrom_added : nodesFrom paths (front ++ added :: behind) =
    nodesFrom paths front ++ (nodesOf paths added ++ nodesFrom paths behind) := by
  rw [nodesFrom, List.flatMap_append, List.flatMap_cons]
  rfl

/-- The nodes of the files without it. -/
theorem nodesFrom_without : nodesFrom paths (front ++ behind) =
    nodesFrom paths front ++ nodesFrom paths behind := List.flatMap_append

/-- A node of a file has its path. -/
theorem file_of_mem {item : String × File} {one : Node} (inside : one ∈ nodesOf paths item) :
    one.file = item.1 := by
  obtain ⟨symbol, _, rfl⟩ := List.mem_map.mp inside
  rfl

/-- A call of a file that was there has the same symbol around it, under its new number. -/
theorem callIn_cases {item : String × File} {raw : RawEdge} (fresh : item.1 ≠ added.1)
    (kind : raw.kind = "calls") (direct : raw.sourceName = "") :
    (enclosing (nodesFrom paths (front ++ behind)) item.1 raw.line = none ∧
        callIn paths (front ++ behind) item raw = none) ∨
      ∃ source,
        enclosing (nodesFrom paths (front ++ behind)) item.1 raw.line = some source ∧
          callIn paths (front ++ behind) item raw =
            some (callEdge (nodesFrom paths front ++ nodesFrom paths behind) item.1 raw source) ∧
          callerOf (nodesFrom paths (front ++ added :: behind)) item.1 raw =
            some (renumbered paths front added source) ∧
          callIn paths (front ++ added :: behind) item raw =
            some (callEdge
                (nodesFrom paths front ++ (nodesOf paths added ++ nodesFrom paths behind))
              item.1 raw (renumbered paths front added source)) := by
  have other : ∀ one ∈ nodesOf paths added, one.file ≠ item.1 := by
    intro one inside same
    exact fresh (same.symm.trans (file_of_mem inside))
  rw [callIn, callIn, resolve_call paths _ kind, resolve_call paths _ kind,
    callerOf_direct _ kind direct, callerOf_direct _ kind direct,
    nodesFrom_added, nodesFrom_without, enclosing_moved other]
  cases enclosing (nodesFrom paths front ++ nodesFrom paths behind) item.1 raw.line with
  | none => exact .inl ⟨rfl, rfl⟩
  | some source => exact .inr ⟨source, rfl, rfl, rfl, rfl⟩

/-- A call is among the calls of its name from its symbol. -/
theorem mem_callsFrom {files : Files} {item : String × File} {raw : RawEdge} {source : Nat}
    (inside : item ∈ files) (listed : raw ∈ item.2.edges) (kind : raw.kind = "calls")
    (caller : callerOf (nodesFrom paths files) item.1 raw = some source) :
    (item.1, raw) ∈ callsFrom paths files source raw.target := by
  refine List.mem_flatMap.mpr ⟨item, inside, List.mem_map.mpr ⟨raw, ?_, rfl⟩⟩
  exact List.mem_filter.mpr ⟨listed, decide_eq_true ⟨kind, rfl, caller⟩⟩

/-- The edges of the calls of a name from a symbol. -/
theorem filter_attempts (files : Files) (source : Nat) (name : String) :
    ((attempts paths files).filter fun edge =>
        edge.from = source ∧ edge.kind = "calls" ∧ edge.surface = name) =
      (callsFrom paths files source name).map fun call =>
        callEdge (nodesFrom paths files) call.1 call.2 source := by
  unfold attempts callsFrom
  rw [List.filter_flatMap, List.map_flatMap]
  congr 1
  funext item
  rw [List.map_map]
  induction item.2.edges with
  | nil => rfl
  | cons raw rest ih =>
    rw [List.filterMap_cons, List.filter_cons]
    by_cases kind : raw.kind = "calls"
    · rw [resolve_call paths _ kind]
      cases callerOf (nodesFrom paths files) item.1 raw with
      | none => simpa [kind] using ih
      | some start =>
        by_cases own : start = source ∧ raw.target = name
        · obtain ⟨rfl, rfl⟩ := own
          simpa [callEdge, kind] using ih
        · have other : ¬(raw.target = name ∧ start = source) := fun both => own both.symm
          simpa [callEdge, kind, own, other] using ih
    · cases made : resolve paths (nodesFrom paths files) item.1 raw with
      | none => simpa [kind] using ih
      | some edge => simpa [kind, kind_resolve made] using ih

/-- Of the edges of these calls that are the same, the first is in the graph. -/
theorem recorded_calls {files : Files} {source : Nat} {name : String} {goal : Option Nat}
    (apart : goal ≠ some source) (property : Edge → Prop) :
    (∃ edge ∈ (rebuild paths files).edges, edge.key = (source, goal, "calls", name) ∧
        property edge) ↔
      ∃ call, (callsFrom paths files source name).find? (fun call =>
          single (candidatesIn paths files source call) = goal) = some call ∧
        property (callEdge (nodesFrom paths files) call.1 call.2 source) := by
  have found : (attempts paths files).find? (·.key = (source, goal, "calls", name)) =
      ((callsFrom paths files source name).find? fun call =>
        single (candidatesIn paths files source call) = goal).map fun call =>
          callEdge (nodesFrom paths files) call.1 call.2 source := by
    have key : (fun edge : Edge => decide (edge.key = (source, goal, "calls", name))) =
        fun edge => decide (decide (edge.from = source ∧ edge.kind = "calls" ∧
          edge.surface = name) = true ∧ decide (edge.to = goal) = true) := by
      funext edge
      grind [Edge.key]
    rw [key, ← List.find?_filter, filter_attempts, List.find?_map]
    rfl
  rw [recorded_iff apart, found]
  constructor
  · rintro ⟨edge, there, holds⟩
    obtain ⟨call, first, rfl⟩ := Option.map_eq_some_iff.mp there
    exact ⟨call, first, holds⟩
  · rintro ⟨call, first, holds⟩
    exact ⟨_, Option.map_eq_some_iff.mpr ⟨call, first, rfl⟩, holds⟩

/-- The graph has an edge to a symbol, or one that is marked, exactly when the calls say so. -/
theorem heard_iff {files : Files} {source goal : Nat} {name : String} (apart : goal ≠ source) :
    Heard paths files source name goal ↔
      (∃ edge ∈ (rebuild paths files).edges, edge.key = (source, some goal, "calls", name)) ∨
      ∃ edge ∈ (rebuild paths files).edges, edge.key = (source, none, "calls", name) ∧
        edge.resolution = "AMBIGUOUS" := by
  have kept := @recorded_calls paths files source name (some goal)
    (fun same => apart (Option.some.inj same)) fun _ => True
  simp only [and_true, single_some] at kept
  rw [kept, recorded_calls (by simp), ← Option.isSome_iff_exists, List.find?_isSome]
  simp only [decide_eq_true_eq, single_none]
  refine or_congr Iff.rfl (exists_congr fun call => and_congr_right fun first => ?_)
  have passes := List.find?_some first
  have lone : (callEdge (nodesFrom paths files) call.1 call.2 source).to = none :=
    single_none.mpr (of_decide_eq_true passes)
  rw [ambiguous_iff, and_iff_right lone]
  constructor
  · intro several
    obtain ⟨place, inside⟩ := List.exists_mem_of_ne_nil _ several
    exact ⟨place, List.mem_dedup.mp inside⟩
  · rintro ⟨place, inside⟩
    exact List.ne_nil_of_mem (List.mem_dedup.mpr inside)

/-- The new numbers of different nodes are different. -/
theorem renumbered_apart {one other : Nat} (apart : one ≠ other) :
    renumbered paths front added one ≠ renumbered paths front added other :=
  fun same => apart (moved_injective _ _ same)

/-- What is promised of a call holds exactly when it is noted. -/
theorem stable_call {item : String × File} {raw : RawEdge} (inside : item ∈ front ++ behind)
    (fresh : item.1 ≠ added.1) (listed : raw ∈ item.2.edges) (kind : raw.kind = "calls")
    (direct : raw.sourceName = "") :
    Stable paths front added behind item raw ↔ Noted paths front added behind item raw := by
  have other : ∀ one ∈ nodesOf paths added, one.file ≠ item.1 := by
    intro one among same
    exact fresh (same.symm.trans (file_of_mem among))
  have still : item ∈ front ++ added :: behind := by
    rcases List.mem_append.mp inside with before | later
    · exact List.mem_append_left _ before
    · exact List.mem_append_right _ (List.mem_cons_of_mem _ later)
  rcases @callIn_cases paths front added behind item raw fresh kind direct with
    ⟨none_around, before⟩ | ⟨source, around, before, caller, after⟩
  · constructor
    · intro _ source around
      rw [none_around] at around
      contradiction
    · intro _
      constructor
      all_goals
        intro edge found
        rw [before] at found
        contradiction
  · constructor
    · intro stable start same goal apart only _
      obtain rfl := Option.some.inj (around.symm.trans same)
      rw [candidatesIn, nodesFrom_without] at only
      exact (heard_iff (renumbered_apart apart)).mpr
        (stable.kept _ before goal (single_some.mpr only) apart)
    · intro noted
      constructor
      · intro edge found goal to_goal apart
        obtain rfl := Option.some.inj (before.symm.trans found)
        refine (heard_iff (renumbered_apart apart)).mp ?_
        have heard := noted source around goal apart
          (by rw [candidatesIn, nodesFrom_without]; exact single_some.mp to_goal)
        by_cases same : candidatesIn paths (front ++ added :: behind)
            (renumbered paths front added source) (item.1, raw) =
              [renumbered paths front added goal]
        · exact .inl ⟨(item.1, raw), mem_callsFrom still listed kind caller, same⟩
        · exact heard same
      · intro edge found goal to_goal later found_later place to_place
        obtain rfl := Option.some.inj (before.symm.trans found)
        obtain rfl := Option.some.inj (after.symm.trans found_later)
        exact to_moved other to_goal to_place
      · intro edge found ambiguous later found_later
        obtain rfl := Option.some.inj (before.symm.trans found)
        obtain rfl := Option.some.inj (after.symm.trans found_later)
        exact open_moved other ambiguous
      · intro edge found own
        obtain rfl := Option.some.inj (before.symm.trans found)
        rw [nodesFrom_without] at own
        exact ⟨_, after, rfl, own_resolved other own⟩

variable (paths front added behind)

/-- Whatever file is added, every promise holds of every call of the other files exactly when the
calls that become ambiguous are noted: none of them stands behind a call of the same name from the
same symbol that is left open for want of a candidate, unless another call of the name is still
resolved. -/
theorem stable_iff (fresh : ∀ item ∈ front ++ behind, item.1 ≠ added.1) :
    (∀ item ∈ front ++ behind, ∀ raw ∈ item.2.edges, raw.kind = "calls" → raw.sourceName = "" →
        Stable paths front added behind item raw) ↔
      ∀ item ∈ front ++ behind, ∀ raw ∈ item.2.edges, raw.kind = "calls" → raw.sourceName = "" →
        Noted paths front added behind item raw := by
  constructor
  · intro stable item inside raw listed kind direct
    exact (stable_call inside (fresh item inside) listed kind direct).mp
      (stable item inside raw listed kind direct)
  · intro noted item inside raw listed kind direct
    exact (stable_call inside (fresh item inside) listed kind direct).mpr
      (noted item inside raw listed kind direct)

end Growth

/-! ## An edge that is lost -/

/-- A file with one function. -/
def defining (path name : String) : String × File :=
  (path,
    { root := "/r", project := "p"
      symbols :=
        [{ id := path ++ ":1:" ++ name, name, kind := "function", parent := "", lineStart := 1,
            lineEnd := 4 }]
      edges := [] })

/-- A function that calls a method of an unknown object and a function of the same name. -/
def callingTwice : String × File :=
  let file := defining "a.py" "caller"
  (file.1,
    { file.2 with
      edges :=
        [{ kind := "calls", target := "foo", line := 2, receiver := "obj" },
          { kind := "calls", target := "foo", line := 3 }] })

/-- What is promised of the calls while a second definition is added. -/
theorem stable_iff_twice :
    (∀ item ∈ [callingTwice, defining "b.py" "foo"] ++ [], ∀ raw ∈ item.2.edges,
        raw.kind = "calls" → raw.sourceName = "" →
          Stable flat [callingTwice, defining "b.py" "foo"] (defining "c.py" "foo") [] item raw) ↔
      ∀ item ∈ [callingTwice, defining "b.py" "foo"] ++ [], ∀ raw ∈ item.2.edges,
        raw.kind = "calls" → raw.sourceName = "" →
          Noted flat [callingTwice, defining "b.py" "foo"] (defining "c.py" "foo") [] item raw :=
  stable_iff flat [callingTwice, defining "b.py" "foo"] (defining "c.py" "foo") [] (by decide)

/-- With one definition of the function its call is resolved. With a second one it is ambiguous, but
the edge that is there says that the method is unresolved, and nothing is said of the call. -/
theorem stable_refuted :
    ¬ ∀ item ∈ [callingTwice, defining "b.py" "foo"] ++ [], ∀ raw ∈ item.2.edges,
      raw.kind = "calls" → raw.sourceName = "" →
        Stable flat [callingTwice, defining "b.py" "foo"] (defining "c.py" "foo") [] item raw := by
  intro stable
  have promised := (stable callingTwice (by decide) { kind := "calls", target := "foo", line := 3 }
    (by decide) rfl rfl).kept
  have resolved : callIn flat ([callingTwice, defining "b.py" "foo"] ++ []) callingTwice
      { kind := "calls", target := "foo", line := 3 } =
      some
        { «from» := 0, «to» := some 1, kind := "calls", surface := "foo", confidence := "INFERRED",
          resolution := "unique_name", evidenceFile := "a.py", line := 3 } := by
    decide
  rcases promised _ resolved 1 rfl (by decide) with kept | marked
  · revert kept
    decide
  · revert marked
    decide

end Chitta.CodeNavigation
