import Mathlib.Data.List.Nodup
import Mathlib.Data.List.Range

/-!
# Taking turns

Items wait in lanes. In a round every lane gives its next item, in a fixed order of the lanes; a
lane without items is passed over. The rotation is the order in which the items come up when the
rounds follow each other, each item once.
-/
namespace Chitta.Rotation

variable {Item Lane : Type}

/-- The first item that is wanted, and the others. -/
def extract (wanted : Item → Bool) : List Item → Option (Item × List Item)
  | [] => none
  | item :: rest =>
    if wanted item then some (item, rest)
    else (extract wanted rest).map fun found => (found.1, item :: found.2)

/-- What the lanes give in a round. -/
def turn (lanes : List Lane) (queues : Lane → List Item) (round : Nat) : List Item :=
  lanes.filterMap fun lane => (queues lane)[round]?

/-- The rounds up to a number. -/
def rounds (lanes : List Lane) (queues : Lane → List Item) (count : Nat) : List Item :=
  (List.range count).flatMap (turn lanes queues)

/-- The rounds after the first are those of the lanes without their first items. -/
theorem rounds_succ (lanes : List Lane) (queues : Lane → List Item) (count : Nat) :
    rounds lanes queues (count + 1) =
      turn lanes queues 0 ++ rounds lanes (fun lane => (queues lane).tail) count := by
  have later : ∀ round, turn lanes queues (round + 1) =
      turn lanes (fun lane => (queues lane).tail) round := by
    intro round
    simp only [turn, List.getElem?_tail]
  rw [rounds, rounds, List.range_succ_eq_map, List.flatMap_cons, List.flatMap_map]
  simp only [later]

/-- Lanes without items give nothing in any number of rounds. -/
theorem rounds_empty {lanes : List Lane} {queues : Lane → List Item}
    (empty : turn lanes queues 0 = []) (count : Nat) : rounds lanes queues count = [] := by
  have nothing : ∀ lane ∈ lanes, queues lane = [] := by
    intro lane inside
    have head := List.filterMap_eq_nil_iff.mp empty lane inside
    simpa using head
  rw [rounds, List.flatMap_eq_nil_iff]
  intro round _
  rw [turn, List.filterMap_eq_nil_iff]
  intro lane inside
  simp [nothing lane inside]

/-- The rounds of equal lanes are equal. -/
theorem rounds_congr {lanes : List Lane} {queues others : Lane → List Item}
    (same : ∀ lane ∈ lanes, queues lane = others lane) (count : Nat) :
    rounds lanes queues count = rounds lanes others count := by
  have turns : ∀ round, turn lanes queues round = turn lanes others round := by
    intro round
    exact List.filterMap_congr fun lane inside => by rw [same lane inside]
  rw [rounds, rounds, funext turns]

/-- One item is taken out. -/
theorem extract_length {wanted : Item → Bool} {items others : List Item} {item : Item}
    (found : extract wanted items = some (item, others)) : others.length + 1 = items.length := by
  induction items generalizing others with
  | nil => contradiction
  | cons first rest ih =>
    rw [extract] at found
    split at found
    · obtain ⟨rfl, rfl⟩ := Prod.mk.inj (Option.some.inj found)
      rfl
    · obtain ⟨⟨inner, left⟩, there, same⟩ := Option.map_eq_some_iff.mp found
      obtain ⟨rfl, rfl⟩ := Prod.mk.inj same
      have shorter := ih there
      simp only [List.length_cons]
      omega

/-- An item of a turn is the next one of its lane, and no earlier item of the turn is of this
lane. -/
theorem turn_split {lanes : List Lane} {queues : Lane → List Item} {round : Nat}
    {before after : List Item} {item : Item}
    (split : turn lanes queues round = before ++ item :: after)
    (distinct : lanes.Nodup) {laneOf : Item → Lane}
    (own : ∀ lane, ∀ item ∈ queues lane, laneOf item = lane) :
    (queues (laneOf item))[round]? = some item ∧ ∀ earlier ∈ before,
    laneOf earlier ≠ laneOf item := by
  induction lanes generalizing before with
  | nil =>
    have empty := congrArg List.length split
    simp [turn] at empty
  | cons lane lanes ih =>
    obtain ⟨apart, others⟩ := List.nodup_cons.mp distinct
    rw [turn, List.filterMap_cons] at split
    cases given : (queues lane)[round]? with
    | none =>
      rw [given] at split
      exact ih split others
    | some first =>
      rw [given] at split
      have lane_first : laneOf first = lane := own lane first (List.mem_of_getElem? given)
      cases before with
      | nil =>
        obtain ⟨rfl, _⟩ := List.cons.inj split
        rw [lane_first]
        exact ⟨given, by simp⟩
      | cons head before =>
        obtain ⟨rfl, rest⟩ := List.cons.inj split
        obtain ⟨next, unlike⟩ := ih rest others
        refine ⟨next, fun earlier inside => ?_⟩
        cases inside with
        | tail _ later => exact unlike earlier later
        | head =>
          -- The item comes from one of the other lanes.
          have member : item ∈ turn lanes queues round := by
            rw [turn, rest]
            exact List.mem_append_right before List.mem_cons_self
          obtain ⟨other, inside, there⟩ := List.mem_filterMap.mp member
          have lane_item := own other item (List.mem_of_getElem? there)
          rw [lane_first, lane_item]
          intro same
          exact apart (same ▸ inside)

variable [DecidableEq Lane]

/-- A turn has one item of a lane that has one to give. -/
theorem turn_count {lanes : List Lane} {queues : Lane → List Item} {round : Nat} {lane : Lane}
    {item : Item} (inside : lane ∈ lanes) (distinct : lanes.Nodup)
    (given : (queues lane)[round]? = some item) {laneOf : Item → Lane}
    (own : ∀ lane, ∀ item ∈ queues lane, laneOf item = lane) :
    (turn lanes queues round).countP (fun item => decide (laneOf item = lane)) = 1 := by
  induction lanes with
  | nil => contradiction
  | cons first lanes ih =>
    obtain ⟨apart, others⟩ := List.nodup_cons.mp distinct
    have elsewhere : lane ∉ lanes →
        (turn lanes queues round).countP (fun item => decide (laneOf item = lane)) = 0 := by
      intro outside
      rw [List.countP_eq_zero]
      intro other member
      obtain ⟨source, there, taken⟩ := List.mem_filterMap.mp member
      have lane_other := own source other (List.mem_of_getElem? taken)
      rw [lane_other]
      have unlike : source ≠ lane := fun same => outside (same ▸ there)
      simpa using unlike
    rw [turn, List.filterMap_cons]
    by_cases here : first = lane
    · have lane_item := own lane item (List.mem_of_getElem? given)
      have none_later := elsewhere (here ▸ apart)
      rw [turn] at none_later
      rw [here, given]
      simp only
      rw [List.countP_cons, none_later, lane_item]
      simp
    · have later : lane ∈ lanes := by
        cases inside with
        | head => exact absurd rfl here
        | tail _ there => exact there
      have one := ih later others
      rw [turn] at one
      cases taken : (queues first)[round]? with
      | none => exact one
      | some other =>
        have lane_other := own first other (List.mem_of_getElem? taken)
        simp only
        rw [List.countP_cons, one, lane_other]
        simp [here]

/-- Every item of the rounds is the first of its lane that has not come up before. -/
theorem rounds_split {lanes : List Lane} {queues : Lane → List Item} {count : Nat}
    {before after : List Item} {item : Item}
    (split : rounds lanes queues count = before ++ item :: after) (distinct : lanes.Nodup)
    (all : ∀ lane, lane ∈ lanes) {laneOf : Item → Lane}
    (own : ∀ lane, ∀ item ∈ queues lane, laneOf item = lane) :
    (queues (laneOf item))[before.countP fun earlier => decide (laneOf earlier = laneOf item)]? =
      some item := by
  induction count generalizing queues before with
  | zero =>
    have empty := congrArg List.length split
    simp [rounds] at empty
  | succ count ih =>
    rw [rounds_succ] at split
    have tails : ∀ lane, ∀ item ∈ (queues lane).tail, laneOf item = lane :=
      fun lane item inside => own lane item (List.mem_of_mem_tail inside)
    -- In a later round each lane has given one item before.
    have behind :
        ∀ part, rounds lanes (fun lane => (queues lane).tail) count = part ++ item :: after →
        (queues (laneOf item))[(turn lanes queues 0 ++ part).countP fun earlier =>
          decide (laneOf earlier = laneOf item)]? = some item := by
      intro part rest
      have later := ih rest tails
      rw [List.getElem?_tail] at later
      have positive : (queues (laneOf item))[0]? ≠ none := by
        intro short
        have empty : queues (laneOf item) = [] := by simpa using short
        rw [empty] at later
        contradiction
      obtain ⟨head, given⟩ := Option.ne_none_iff_exists'.mp positive
      have one := turn_count (all (laneOf item)) distinct given own
      rw [List.countP_append, one, Nat.add_comm]
      exact later
    rcases List.append_eq_append_iff.mp split with ⟨part, rfl, rest⟩ | ⟨part, first, rest⟩
    · exact behind part rest
    · cases part with
      | nil =>
        have whole := behind [] rest.symm
        rw [List.append_nil] at first whole
        rw [← first]
        exact whole
      | cons other part =>
        obtain ⟨rfl, _⟩ := List.cons.inj rest
        obtain ⟨next, unlike⟩ := turn_split first distinct own
        have none_before : before.countP (fun earlier => decide (laneOf earlier = laneOf item)) =
            0 := by
          rw [List.countP_eq_zero]
          intro earlier inside
          simpa using unlike earlier inside
        rw [none_before]
        exact next

variable (laneOf : Item → Lane)

/-- The items of a lane, in their order. -/
def queue (items : List Item) (lane : Lane) : List Item :=
  items.filter fun item => decide (laneOf item = lane)

/-- The order in which the items come up. -/
def rotation (lanes : List Lane) (items : List Item) : List Item :=
  rounds lanes (queue laneOf items) items.length

variable {laneOf}

/-- The items of a lane with one more item at their start. -/
theorem queue_cons (item : Item) (rest : List Item) (lane : Lane) :
    queue laneOf (item :: rest) lane =
      if laneOf item = lane then item :: queue laneOf rest lane else queue laneOf rest lane := by
  simp [queue, List.filter_cons]

/-- Nothing is extracted for a lane without items. -/
theorem extract_none {items : List Item} {lane : Lane}
    (absent : extract (fun item => decide (laneOf item = lane)) items = none) :
    queue laneOf items lane = [] := by
  induction items with
  | nil => rfl
  | cons item rest ih =>
    rw [extract] at absent
    split at absent
    · contradiction
    · rename_i other
      rw [queue_cons, if_neg (by simpa using other)]
      exact ih (Option.map_eq_none_iff.mp absent)

/-- The extracted item is the first one of its lane, and nothing else is taken. -/
theorem extract_some {items others : List Item} {item : Item} {lane : Lane}
    (found : extract (fun item => decide (laneOf item = lane)) items = some (item, others)) :
    queue laneOf items lane = item :: queue laneOf others lane ∧
      ∀ other, other ≠ lane → queue laneOf others other = queue laneOf items other := by
  induction items generalizing others with
  | nil => contradiction
  | cons first rest ih =>
    rw [extract] at found
    split at found
    · rename_i own
      have own : laneOf first = lane := by simpa using own
      obtain ⟨rfl, rfl⟩ := Prod.mk.inj (Option.some.inj found)
      refine ⟨by rw [queue_cons, if_pos own], fun other apart => ?_⟩
      rw [queue_cons, if_neg fun there => apart (there.symm.trans own)]
    · rename_i foreign
      have foreign : laneOf first ≠ lane := by simpa using foreign
      obtain ⟨⟨inner, left⟩, there, same⟩ := Option.map_eq_some_iff.mp found
      obtain ⟨rfl, rfl⟩ := Prod.mk.inj same
      obtain ⟨first_own, unchanged⟩ := ih there
      constructor
      · rw [queue_cons, if_neg foreign, queue_cons, if_neg foreign]
        exact first_own
      · intro other apart
        rw [queue_cons, queue_cons, unchanged other apart]

/-- Every item of the rotation is one of the items. -/
theorem mem_of_mem_rotation {lanes : List Lane} {items : List Item} {item : Item}
    (member : item ∈ rotation laneOf lanes items) : item ∈ items := by
  obtain ⟨round, _, given⟩ := List.mem_flatMap.mp member
  obtain ⟨lane, _, here⟩ := List.mem_filterMap.mp given
  exact (List.mem_filter.mp (List.mem_of_getElem? here)).1

/-- A lane has at most as many items as there are. -/
theorem length_queue_le (items : List Item) (lane : Lane) :
    (queue laneOf items lane).length ≤ items.length := List.length_filter_le _ items

/-- Every item of the rotation is the first of its lane that has not come up before. -/
theorem rotation_split {lanes : List Lane} {items before after : List Item} {item : Item}
    (split : rotation laneOf lanes items = before ++ item :: after) (distinct : lanes.Nodup)
    (all : ∀ lane, lane ∈ lanes) :
    (queue laneOf items (laneOf item))[before.countP fun earlier =>
      decide (laneOf earlier = laneOf item)]? = some item := by
  apply rounds_split split distinct all
  intro lane item inside
  simpa using (List.mem_filter.mp inside).2

/-- Items with different keys come up with different keys. -/
theorem nodup_rotation {Key : Type} {key : Item → Key} {lanes : List Lane} {items : List Item}
    (apart : (items.map key).Nodup) (distinct : lanes.Nodup) (all : ∀ lane, lane ∈ lanes) :
    ((rotation laneOf lanes items).map key).Nodup := by
  apply List.pairwise_map.mpr
  refine List.pairwise_iff_forall_sublist.mpr fun {one other} both same => ?_
  obtain ⟨front, back, parts, inFront, behind⟩ := List.cons_sublist_iff.mp both
  obtain ⟨before, middle, rfl⟩ := List.append_of_mem inFront
  obtain ⟨between, after, rfl⟩ := List.append_of_mem (List.singleton_sublist.mp behind)
  have first := rotation_split (parts.trans (List.append_assoc ..)) distinct all
  have second := rotation_split (parts.trans (List.append_assoc ..).symm) distinct all
  have own {item : Item} {place : Nat}
      (given : (queue laneOf items (laneOf item))[place]? = some item) : item ∈ items :=
    (List.mem_filter.mp (List.mem_of_getElem? given)).1
  obtain rfl := List.inj_on_of_nodup_map apart (own first) (own second) same
  obtain ⟨inside, -⟩ := List.getElem?_eq_some_iff.mp first
  have once : (queue laneOf items (laneOf one)).Nodup := apart.of_map.filter _
  have places := (List.getElem?_inj inside once).mp (first.trans second.symm)
  simp only [List.countP_append, List.countP_cons, decide_true, if_true] at places
  omega

end Chitta.Rotation
