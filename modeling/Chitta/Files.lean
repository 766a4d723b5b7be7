import Chitta.Bytes
import Chitta.Lines

/-!
# Paths in a file system

A file system is a tree of nodes by their places; a link leads on to another path. `stat` follows
the steps of a path until one is not there. `realpath -m` goes on by names where nothing is there.
`weakly_canonical` takes the longest front of the path that is there and appends the other steps by
their names.
-/
namespace Chitta.Files

open Bytes

/-- What a name stands for. -/
inductive Node where
  /-- A directory. -/
  | directory
  /-- Anything that is neither a directory nor a link. -/
  | file
  /-- A symbolic link. -/
  | link (target : Text)
deriving DecidableEq

/-- A place: the names on the way up to the root, without links. -/
abbrev Place := List Text

/-- A file system as a process sees it. -/
structure FileSystem where
  /-- The node at a place. -/
  node : Place → Option Node
  /-- The working directory. -/
  cwd : Place
  /-- The number of links that one resolution follows. -/
  links : Nat
  /-- The root is a directory. -/
  root : node [] = some .directory
  /-- The working directory is one. -/
  working : node cwd = some .directory
  /-- A node stands in a directory. -/
  parent : ∀ name place, node (name :: place) ≠ none → node place = some .directory

/-! ## Paths -/

/-- A path begins with a slash. -/
def isAbsolute (path : Text) : Bool := path.head? == some 47

/-- The step to the place itself. -/
def dot : Text := utf8 "."

/-- The step up. -/
def dotDot : Text := utf8 ".."

/-- The steps of a path; a slash at its end is a step to the place itself. -/
def steps (path : Text) : List Text :=
  (Lines.lines 47 path).filter (fun name => !name.isEmpty) ++
    if path.getLast? = some 47 then [dot] else []

/-- A step by its name. -/
def byName (place : Place) (step : Text) : Place :=
  if step = dot then place else if step = dotDot then place.tail else step :: place

/-- Steps by their names. -/
def byNames (place : Place) (steps : List Text) : Place := steps.foldl byName place

/-- The absolute path of a place. -/
def placeText (place : Place) : Text :=
  if place = [] then utf8 "/" else place.reverse.flatMap (47 :: ·)

/-- The last step names no entry. -/
def dotted (steps : List Text) : Bool :=
  decide (steps.getLast? = some dot ∨ steps.getLast? = some dotDot)

/-- `lexically_normal` of the path of a place with steps behind it. -/
def normalAbsolute (place : Place) (steps : List Text) : Text :=
  let stop := byNames place steps
  placeText stop ++ if dotted steps = true ∧ stop ≠ [] then utf8 "/" else []

/-- A step on the names of a relative path. -/
def relativeStep (names : List Text) (step : Text) : List Text :=
  if step = dot then names
  else if step = dotDot then
    match names with
    | [] => [dotDot]
    | top :: below => if top = dotDot then dotDot :: top :: below else below
  else step :: names

/-- `lexically_normal` of a relative path with these steps. -/
def normalRelative (steps : List Text) : Text :=
  let names := steps.foldl relativeStep []
  if names = [] then dot
  else
    (names.reverse.intersperse (utf8 "/")).flatten ++
      if dotted steps = true ∧ names.head? ≠ some dotDot then utf8 "/" else []

/-! ## Resolution -/

/-- What is known of a path. -/
inductive Status where
  /-- It leads to a place. -/
  | found (place : Place)
  /-- A part of it is not there or is no directory. -/
  | missing
  /-- It leads over too many links. -/
  | loops
deriving DecidableEq

namespace FileSystem

variable (fs : FileSystem)

/-- Where a path begins. -/
def start (path : Text) : Place := if isAbsolute path then [] else fs.cwd

/-- The link that a step meets. -/
def linkAt (place : Place) (step : Text) : Option Text :=
  if step = dot ∨ step = dotDot then none
  else
    match fs.node (step :: place) with
    | some (.link target) => some target
    | _ => none

/-- Where the target of a link in a place begins. -/
def linkStart (place : Place) (target : Text) : Place := if isAbsolute target then [] else place

/-- The steps of a path from a place, as `stat` takes them; `follow` goes on behind a link. -/
def statSteps (follow : Place → List Text → Status) : Place → List Text → Status
  | place, [] => .found place
  | place, step :: rest =>
    if fs.node place ≠ some .directory then .missing
    else
      match fs.linkAt place step with
      | some target => follow (linkStart place target) (steps target ++ rest)
      | none =>
        if (fs.node (byName place step)).isNone then .missing
        else statSteps follow (byName place step) rest

/-- `stat` over at most this many links. -/
def stat : Nat → Place → List Text → Status
  | 0 => fs.statSteps fun _ _ => .loops
  | links + 1 => fs.statSteps (stat links)

/-- The steps of a path from a place, as `realpath -m` takes them. -/
def realSteps (follow : Place → List Text → Option Place) : Place → List Text → Option Place
  | place, [] => some place
  | place, step :: rest =>
    match fs.linkAt place step with
    | some target => follow (linkStart place target) (steps target ++ rest)
    | none => realSteps follow (byName place step) rest

/-- `realpath -m` over at most this many links. -/
def real : Nat → Place → List Text → Option Place
  | 0 => fs.realSteps fun _ _ => none
  | links + 1 => fs.realSteps (real links)

/-- `realpath -m`. -/
def realpathMissing (path : Text) : Option Text :=
  (fs.real fs.links (fs.start path) (steps path)).map placeText

/-- The leading steps that are there, and the others; nothing when `status` throws. -/
def leading (base : Place) : List Text → List Text → Option (List Text × List Text)
  | done, [] => some (done, [])
  | done, step :: rest =>
    match fs.stat fs.links base (done ++ [step]) with
    | .found _ => leading base (done ++ [step]) rest
    | .missing => some (done, step :: rest)
    | .loops => none

/-- `std::filesystem::weakly_canonical`; nothing when it throws. -/
def weaklyCanonical (path : Text) : Option Text :=
  match fs.stat fs.links (fs.start path) (steps path) with
  | .found place => some (placeText place)
  | .loops => none
  | .missing =>
    match fs.leading (fs.start path) [] (steps path) with
    | none => none
    | some (front, rest) =>
      if front = [] ∧ isAbsolute path = false then some (normalRelative rest)
      else
        match fs.stat fs.links (fs.start path) front with
        | .found place => some (normalAbsolute place rest)
        | _ => none

/-! ## What is there -/

/-- No step from a place meets a link. -/
def Linkless : Place → List Text → Prop
  | _, [] => True
  | place, step :: rest => fs.linkAt place step = none ∧ Linkless (byName place step) rest

variable {fs}

/-- Without links only the names count. -/
theorem realSteps_linkless (follow : Place → List Text → Option Place) {place : Place}
    {rest : List Text} (linkless : fs.Linkless place rest) :
    fs.realSteps follow place rest = some (byNames place rest) := by
  induction rest generalizing place with
  | nil => rfl
  | cons step rest ih =>
    obtain ⟨none_here, later⟩ := linkless
    rw [realSteps, none_here]
    exact ih later

/-- Behind a front that is there `realpath -m` goes on from its place. -/
theorem real_of_found {links : Nat} {base place : Place} {front rest : List Text}
    (there : fs.stat links base front = .found place) (linkless : fs.Linkless place rest) :
    fs.real links base (front ++ rest) = some (byNames place rest) := by
  have along : ∀ (stop : Place → List Text → Status) (follow : Place → List Text → Option Place),
      (∀ base front, stop base front = .found place →
        follow base (front ++ rest) = some (byNames place rest)) →
      ∀ (front : List Text) (base : Place), fs.statSteps stop base front = .found place →
        fs.realSteps follow base (front ++ rest) = some (byNames place rest) := by
    intro stop follow later front
    induction front with
    | nil =>
      intro base there
      obtain rfl := Status.found.inj there
      exact realSteps_linkless follow linkless
    | cons step front ih =>
      intro base there
      rw [statSteps] at there
      split at there
      · contradiction
      · rw [List.cons_append, realSteps]
        split at there
        · rw [← List.append_assoc]
          exact later _ _ there
        · split at there
          · contradiction
          · exact ih _ there
  induction links generalizing base front with
  | zero => exact along _ _ (fun _ _ never => by contradiction) front base there
  | succ links ih => exact along _ _ (fun _ _ found => ih found) front base there

/-- A path whose front is not there is not there. -/
theorem stat_missing {links : Nat} {base : Place} {front : List Text} (rest : List Text)
    (absent : fs.stat links base front = .missing) :
    fs.stat links base (front ++ rest) = .missing := by
  have along : ∀ stop : Place → List Text → Status,
      (∀ base front, stop base front = .missing → stop base (front ++ rest) = .missing) →
      ∀ (front : List Text) (base : Place), fs.statSteps stop base front = .missing →
        fs.statSteps stop base (front ++ rest) = .missing := by
    intro stop later front
    induction front with
    | nil => exact fun base never => by contradiction
    | cons step front ih =>
      intro base absent
      rw [statSteps] at absent
      rw [List.cons_append, statSteps]
      split at absent
      · rename_i directory
        rw [if_pos directory]
      · rename_i directory
        rw [if_neg directory]
        split at absent
        · rw [← List.append_assoc]
          exact later _ _ absent
        · split at absent
          · rename_i here
            rw [if_pos here]
          · rename_i here
            rw [if_neg here]
            exact ih _ absent
  induction links generalizing base front with
  | zero => exact along _ (fun _ _ never => by contradiction) front base absent
  | succ links ih =>
    exact along _ (fun base front missing => @ih base front missing) front base absent

/-- The leading steps are a front of the path, and the next step is not there. -/
theorem leading_spec {base : Place} {done rest front others : List Text}
    (led : fs.leading base done rest = some (front, others)) :
    done ++ rest = front ++ others ∧
      ∀ step more, others = step :: more → fs.stat fs.links base (front ++ [step]) = .missing := by
  induction rest generalizing done with
  | nil =>
    obtain ⟨rfl, rfl⟩ := Prod.mk.inj (Option.some.inj led)
    exact ⟨rfl, fun step more never => by contradiction⟩
  | cons step rest ih =>
    rw [leading] at led
    split at led
    · obtain ⟨whole, next⟩ := ih led
      rw [List.append_assoc] at whole
      exact ⟨whole, next⟩
    · rename_i absent
      obtain ⟨rfl, rfl⟩ := Prod.mk.inj (Option.some.inj led)
      refine ⟨rfl, fun other more same => ?_⟩
      obtain ⟨rfl, _⟩ := List.cons.inj same
      exact absent
    · contradiction

/-- Both resolutions of a path that is there return its place. -/
theorem canonical_of_found {path : Text} {place : Place}
    (there : fs.stat fs.links (fs.start path) (steps path) = .found place) :
    fs.realpathMissing path = some (placeText place) ∧
      fs.weaklyCanonical path = some (placeText place) := by
  constructor
  · have linkless : fs.Linkless place [] := trivial
    have names := real_of_found there linkless
    rw [List.append_nil] at names
    rw [realpathMissing, names]
    rfl
  · rw [weaklyCanonical, there]

/-- What both resolutions return when the steps behind the leading ones meet no link. -/
theorem canonical_of_leading {path : Text} {place : Place} {front rest : List Text}
    (led : fs.leading (fs.start path) [] (steps path) = some (front, rest))
    (there : fs.stat fs.links (fs.start path) front = .found place)
    (linkless : fs.Linkless place rest) (some_step : rest ≠ []) :
    fs.realpathMissing path = some (placeText (byNames place rest)) ∧
      fs.weaklyCanonical path =
        some (if front = [] ∧ isAbsolute path = false then normalRelative rest
          else normalAbsolute place rest) := by
  obtain ⟨whole, next⟩ := leading_spec led
  rw [List.nil_append] at whole
  constructor
  · have names := real_of_found there linkless
    rw [realpathMissing, whole, names]
    rfl
  · obtain ⟨step, more, rfl⟩ := List.exists_cons_of_ne_nil some_step
    have absent := stat_missing more (next step more rfl)
    rw [List.append_assoc] at absent
    have missing : fs.stat fs.links (fs.start path) (steps path) = .missing := by
      rw [whole]
      exact absent
    rw [weaklyCanonical, missing, led]
    dsimp only
    rw [there]
    split <;> rfl

end FileSystem

/-! ## Texts -/

/-- The path of a place begins with a slash. -/
theorem head_placeText (place : Place) : (placeText place).head? = some 47 := by
  unfold placeText
  split
  · rfl
  · rename_i some_name
    cases whole : place.reverse with
    | nil => exact absurd (List.reverse_eq_nil_iff.mp whole) some_name
    | cons name names => rfl

/-- The steps of a path are not empty and have no slash. -/
theorem mem_steps {path step : Text} (inside : step ∈ steps path) : step ≠ [] ∧ 47 ∉ step := by
  rcases List.mem_append.mp inside with named | last
  · obtain ⟨there, filled⟩ := List.mem_filter.mp named
    exact ⟨by simpa using filled, Lines.not_mem_lines path step there⟩
  · split at last
    · rw [List.mem_singleton.mp last]
      decide
    · contradiction

/-- The normal form of a relative path begins with no slash. -/
theorem head_normalRelative {rest : List Text} (proper : ∀ step ∈ rest, step ≠ [] ∧ 47 ∉ step) :
    (normalRelative rest).head? ≠ some 47 := by
  have kept : ∀ (steps names : List Text), (∀ step ∈ steps, step ≠ [] ∧ 47 ∉ step) →
      (∀ name ∈ names, name ≠ [] ∧ (47 : UInt8) ∉ name) →
      ∀ name ∈ steps.foldl relativeStep names, name ≠ [] ∧ (47 : UInt8) ∉ name := by
    intro steps
    induction steps with
    | nil => exact fun names _ own => own
    | cons step steps ih =>
      intro names proper own
      obtain ⟨first, others⟩ := List.forall_mem_cons.mp proper
      apply ih _ others
      unfold relativeStep
      split
      · exact own
      · split
        · cases names with
          | nil => simp [dotDot]; decide
          | cons top below =>
            obtain ⟨topOwn, belowOwn⟩ := List.forall_mem_cons.mp own
            dsimp only
            split
            · exact List.forall_mem_cons.mpr ⟨by decide, own⟩
            · exact belowOwn
        · exact List.forall_mem_cons.mpr ⟨first, own⟩
  unfold normalRelative
  have all := kept rest [] proper (by simp)
  generalize rest.foldl relativeStep [] = names at all
  dsimp only
  split
  · decide
  · rename_i some_name
    cases turned : names.reverse with
    | nil => exact absurd (List.reverse_eq_nil_iff.mp turned) some_name
    | cons name more =>
      have own := all name (by rw [← List.mem_reverse, turned]; exact List.mem_cons_self)
      obtain ⟨byte, letters, same⟩ := List.exists_cons_of_ne_nil own.1
      rw [same] at own ⊢
      intro slash
      have first : byte = 47 := by
        cases more <;> simpa [List.intersperse] using slash
      exact own.2 (first ▸ List.mem_cons_self)

end Chitta.Files
