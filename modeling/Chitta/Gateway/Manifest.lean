import Chitta.Gateway.Capsule
import Chitta.Ledger.Atomicity
import Mathlib.Control.Monad.Basic
import Mathlib.Data.Finset.Card

/-!
# The manifest of a repository's capsules

The manifest lists the latest capsule of every key of a repository as far as its text stays short,
and counts the ones that it leaves out. A capsule is listed when the whole manifest with it, and
with the smaller count, still fits.
-/
namespace Chitta.Gateway

open Ledger (Library repositoryKey)

/-- The fields of a capsule that are listed. -/
def manifestFields : List String :=
  ["stream_id", "session_id", "branch", "code_head", "state", "revision", "next_action"]

/-- The most bytes of a manifest that lists anything. -/
def manifestLimit : Nat := 450

/-- The loop over the fields. -/
def copyFields (cap : Json) : List String → Json → Except Thrown Json
  | [], row => .ok row
  | field :: rest, row => do
    let value ← cap.at field
    let row ← row.set field value
    copyFields cap rest row

/-- The row of a capsule. -/
def manifestRow (cap : Json) : Except Thrown Json := copyFields cap manifestFields .null

/-- The value that is built. -/
structure Manifest where
  /-- `streams`. -/
  streams : List Json
  /-- `omitted`. -/
  omitted : Nat

/-- The value as it is dumped. -/
def Manifest.json (manifest : Manifest) : Json :=
  .object [("streams", .arr manifest.streams), ("omitted", .int manifest.omitted)]

variable (library : Library)

/-- The loop over the rows: the latest capsule of every key. -/
def latestOfKeys (repository : String) :
    List Json → List (String × Json) → Except Thrown (List (String × Json))
  | [], latest => .ok latest
  | row :: rest, latest => do
    let cap ← handoff library row
    if (← version cap) ≠ 2 ∨ str cap "repository" ≠ repositoryKey repository then
      latestOfKeys repository rest latest
    else
      match Assoc.lookup (capsuleKey cap) latest with
      | none => latestOfKeys repository rest (Assoc.assign (capsuleKey cap) cap latest)
      | some known =>
        if (← revision known) < (← revision cap) then
          latestOfKeys repository rest (Assoc.assign (capsuleKey cap) cap latest)
        else latestOfKeys repository rest latest

/-- The loop over the latest capsules. -/
def admitRows : List (String × Json) → Manifest → Except Thrown Manifest
  | [], result => .ok result
  | (_, cap) :: rest, result => do
    let row ← manifestRow cap
    let candidate : Manifest := ⟨result.streams ++ [row], result.omitted - 1⟩
    if (library.dump candidate.json).utf8ByteSize ≤ manifestLimit then admitRows rest candidate
    else admitRows rest result

/-- `capsule_manifest`. -/
def capsuleManifest (rows : List Json) (repository : String) : Except Thrown Json := do
  let latest ← latestOfKeys library repository rows []
  let result ← admitRows library latest ⟨[], latest.length⟩
  return result.json

/-! ## What the manifest promises -/

/-- A capsule that `capsule_v2` has made. -/
def IsCapsule (cap : Json) : Prop :=
  ∃ input revision now, capsuleV2 library input revision now = .ok cap

/-- The capsules of a repository in rows. -/
def capsulesOf (repository : String) (rows : List Json) : List Json :=
  (rows.filterMap (capsuleIn library)).filter fun cap =>
    str cap "repository" = repositoryKey repository

/-- The number of keys of a repository in rows. -/
def keyCount (repository : String) (rows : List Json) : Nat :=
  ((capsulesOf library repository rows).map capsuleKey).toFinset.card

/-- The manifest accounts for the keys of a repository. -/
structure Accounts (rows : List Json) (repository : String) (manifest : Manifest) : Prop where
  /-- It is short if its empty form is. -/
  short : (library.dump (Manifest.mk [] (keyCount library repository rows)).json).utf8ByteSize ≤
      manifestLimit → (library.dump manifest.json).utf8ByteSize ≤ manifestLimit
  /-- No stream or session is listed twice. -/
  once : (manifest.streams.map fun row => (keyOf row).slot).Nodup
  /-- What is listed is the latest capsule of its key. -/
  latest : ∀ row ∈ manifest.streams, ∃ cap ∈ capsulesOf library repository rows,
    manifestRow cap = .ok row ∧ ∀ other ∈ capsulesOf library repository rows,
      capsuleKey other = capsuleKey cap → revisionOf other ≤ revisionOf cap
  /-- What is listed and what is left out are all keys. -/
  counted : manifest.streams.length + manifest.omitted = keyCount library repository rows

variable {library}

/-! ## The row of a capsule -/

/-- A row takes the fields of a capsule that has them. -/
theorem copyFields_ok {cap : Json} {fields : List String} {row : Json}
    (there : ∀ field ∈ fields, (cap.find field).isSome)
    (starts : row.isNull = true ∨ row.isObject = true) :
    ∃ result, copyFields cap fields row = .ok result ∧ ∀ name,
      result.find name = if name ∈ fields then cap.find name else row.find name := by
  induction fields generalizing row with
  | nil => exact ⟨row, rfl, fun name => by simp⟩
  | cons field rest ih =>
    obtain ⟨first, others⟩ := List.forall_mem_cons.mp there
    obtain ⟨value, found⟩ := Option.isSome_iff_exists.mp first
    have settable : ∃ next, row.set field value = .ok next := by
      cases row with
      | null => exact ⟨_, rfl⟩
      | obj fields => exact ⟨_, rfl⟩
      | _ => simp [Json.isNull, Json.isObject] at starts
    obtain ⟨next, set⟩ := settable
    obtain ⟨result, copied, finds⟩ := ih others (.inr (Json.isObject_set set))
    refine ⟨result, ?_, fun name => ?_⟩
    · rw [copyFields, Json.at_of_find found]
      simp only [bind, Except.bind, set]
      exact copied
    · rw [finds, Json.find_set set]
      by_cases own : name = field
      · subst own
        simp [found]
      · simp [own]

theorem isSome_set {json result value : Json} {key name : String}
    (done : json.set key value = .ok result) (there : (json.find name).isSome) :
    (result.find name).isSome := by
  rw [Json.find_set done]
  split
  · rfl
  · exact there

theorem isSome_copyArrays {input out result : Json} {fields : List (String × Nat × Nat)}
    {name : String} (done : copyArrays input fields out = .ok result)
    (there : (out.find name).isSome) : (result.find name).isSome := by
  induction fields generalizing out with
  | nil => exact Except.ok.inj done ▸ there
  | cons field rest ih =>
    obtain ⟨value, _, done⟩ := bind_ok done
    cases value with
    | arr items =>
      dsimp only at done
      split at done
      · contradiction
      · obtain ⟨_, _, done⟩ := bind_ok done
        obtain ⟨middle, set, done⟩ := bind_ok done
        exact ih done (isSome_set set there)
    | _ => contradiction

/-- A capsule has the fields that are listed. -/
theorem IsCapsule.fields {cap : Json} (made : IsCapsule library cap) :
    ∀ field ∈ manifestFields, (cap.find field).isSome := by
  obtain ⟨input, revision, now, done⟩ := made
  obtain ⟨texts, named, state, stated, listed, gates, gated, jobs, copied, first, second, arrays,
    third, fourth⟩ := capsuleV2_steps done
  have later (name : String) (there : (stated.find name).isSome) :
      (cap.find name).isSome :=
    isSome_set fourth (isSome_set third (isSome_copyArrays arrays there))
  have start (name : String) (there : (texts.find name).isSome) :
      (cap.find name).isSome :=
    later name (isSome_set second (isSome_set first there))
  have text (name : String) (inside : name ∈ textFields.map (·.1)) :
      (texts.find name).isSome := by
    rw [copyTexts_find copied, if_pos inside]
    rfl
  intro field inside
  simp only [manifestFields, List.mem_cons, List.not_mem_nil, or_false] at inside
  rcases inside with rfl | rfl | rfl | rfl | rfl | rfl | rfl
  · exact start _ (text _ (by decide))
  · exact start _ (text _ (by decide))
  · exact start _ (text _ (by decide))
  · exact start _ (text _ (by decide))
  · refine later _ ?_
    rw [Json.find_set second, if_pos rfl]
    rfl
  · refine start _ ?_
    rw [copyTexts_find copied, if_neg (by decide)]
    simp [Json.find_object, Assoc.lookup]
  · exact start _ (text _ (by decide))

/-- The row of a capsule has the slot of the capsule. -/
theorem IsCapsule.row {cap : Json} (made : IsCapsule library cap) :
    ∃ row, manifestRow cap = .ok row ∧ (keyOf row).slot = (keyOf cap).slot := by
  have empty : Json.null.isNull = true ∨ Json.null.isObject = true := .inl rfl
  obtain ⟨row, copied, finds⟩ := copyFields_ok made.fields empty
  refine ⟨row, copied, ?_⟩
  have text (name : String) (inside : name ∈ manifestFields) : str row name = str cap name := by
    rw [str, str, finds, if_pos inside]
  simp only [keyOf, text "stream_id" (by decide), text "session_id" (by decide)]

/-- A capsule that was made has the version 2. -/
theorem IsCapsule.version_eq {cap : Json} (made : IsCapsule library cap) :
    version cap = .ok 2 := by
  obtain ⟨input, number, now, done⟩ := made
  exact version_of_find (capsuleV2_find done).1

/-- Its revision is read. -/
theorem IsCapsule.revision_eq {cap : Json} (made : IsCapsule library cap) :
    revision cap = .ok (revisionOf cap) := by
  obtain ⟨input, number, now, done⟩ := made
  exact revision_of_find (capsuleV2_find done).2.1

/-! ## The latest capsule of every key -/

/-- The entries are the latest capsules of all keys among those that were seen. -/
structure Latest (seen : List Json) (entries : List (String × Json)) : Prop where
  /-- They are in the order of their keys. -/
  sorted : Assoc.Sorted entries
  /-- An entry was seen, and no capsule of its key with a greater revision. -/
  greatest : ∀ key cap, Assoc.lookup key entries = some cap →
    cap ∈ seen ∧ capsuleKey cap = key ∧
      ∀ other ∈ seen, capsuleKey other = key → revisionOf other ≤ revisionOf cap
  /-- Every key has an entry. -/
  complete : ∀ cap ∈ seen, (Assoc.lookup (capsuleKey cap) entries).isSome

theorem latest_empty : Latest [] [] where
  sorted := List.Pairwise.nil
  greatest _ _ found := by contradiction
  complete := by simp

/-- A capsule with a greater revision than the entry of its key takes its place. -/
theorem Latest.newer {seen : List Json} {entries : List (String × Json)} {cap : Json}
    (latest : Latest seen entries)
    (above : ∀ known, Assoc.lookup (capsuleKey cap) entries = some known →
      revisionOf known < revisionOf cap) :
    Latest (seen ++ [cap]) (Assoc.assign (capsuleKey cap) cap entries) where
  sorted := latest.sorted.assign _ _
  greatest key found present := by
    by_cases own : key = capsuleKey cap
    · subst own
      rw [Assoc.lookup_assign_self, Option.some.injEq] at present
      subst present
      refine ⟨by simp, rfl, fun other inside same => ?_⟩
      rcases List.mem_append.mp inside with old | new
      · obtain ⟨known, entry⟩ := Option.isSome_iff_exists.mp (latest.complete other old)
        rw [same] at entry
        have below := (latest.greatest _ known entry).2.2 other old same
        exact Nat.le_trans below (Nat.le_of_lt (above known entry))
      · rw [List.mem_singleton.mp new]
    · rw [Assoc.lookup_assign_other own] at present
      obtain ⟨inside, named, below⟩ := latest.greatest key found present
      refine ⟨List.mem_append_left _ inside, named, fun other there same => ?_⟩
      rcases List.mem_append.mp there with old | new
      · exact below other old same
      · rw [List.mem_singleton.mp new] at same
        exact absurd same.symm own
  complete other inside := by
    rcases List.mem_append.mp inside with old | new
    · exact Assoc.lookup_assign_isSome (latest.complete other old)
    · rw [List.mem_singleton.mp new, Assoc.lookup_assign_self]
      rfl

/-- A capsule without a greater revision leaves the entries. -/
theorem Latest.older {seen : List Json} {entries : List (String × Json)} {cap known : Json}
    (latest : Latest seen entries)
    (entry : Assoc.lookup (capsuleKey cap) entries = some known)
    (below : revisionOf cap ≤ revisionOf known) : Latest (seen ++ [cap]) entries where
  sorted := latest.sorted
  greatest key found present := by
    obtain ⟨inside, named, greatest⟩ := latest.greatest key found present
    refine ⟨List.mem_append_left _ inside, named, fun other there same => ?_⟩
    rcases List.mem_append.mp there with old | new
    · exact greatest other old same
    · rw [List.mem_singleton.mp new] at same ⊢
      rw [← same, entry, Option.some.injEq] at present
      rw [← present]
      exact below
  complete other inside := by
    rcases List.mem_append.mp inside with old | new
    · exact latest.complete other old
    · rw [List.mem_singleton.mp new, entry]
      rfl

/-- Rows whose capsules can be read and are capsules of version 2 if they say so. -/
def HoldsCapsules (library : Library) (rows : List Json) : Prop :=
  ∀ row ∈ rows, Readable library row ∧
    ∀ cap, capsuleIn library row = some cap → IsCapsule library cap

/-- The loop over the rows keeps the latest capsules. -/
theorem latestOfKeys_ok {repository : String} {rows seen : List Json}
    {entries : List (String × Json)} (holds : HoldsCapsules library rows)
    (latest : Latest seen entries) (made : ∀ cap ∈ seen, IsCapsule library cap) :
    ∃ result, latestOfKeys library repository rows entries = .ok result ∧
      Latest (seen ++ capsulesOf library repository rows) result := by
  induction rows generalizing seen entries with
  | nil => exact ⟨entries, rfl, by simpa [capsulesOf] using latest⟩
  | cons row rest ih =>
    obtain ⟨⟨⟨cap, number, found, read⟩, own⟩, others⟩ := List.forall_mem_cons.mp holds
    rw [latestOfKeys, found]
    simp only [bind, Except.bind, read]
    by_cases other : number ≠ 2 ∨ str cap "repository" ≠ repositoryKey repository
    · have skipped : capsulesOf library repository (row :: rest) =
          capsulesOf library repository rest := by
        by_cases two : number = 2
        · have taken : capsuleIn library row = some cap := by
            simp only [capsuleIn, found, read, two]
          have elsewhere := other.resolve_left (not_not.mpr two)
          simp [capsulesOf, taken, elsewhere]
        · have absent : capsuleIn library row = none := by
            simp only [capsuleIn, found, read]
            split
            · rename_i equal
              exact absurd (Except.ok.inj equal) two
            · rfl
          simp [capsulesOf, absent]
      rw [if_pos other, skipped]
      exact ih others latest made
    · rw [if_neg other]
      simp only [not_or, not_not] at other
      have taken : capsuleIn library row = some cap := by
        simp only [capsuleIn, found, read, other.1]
      have among : capsulesOf library repository (row :: rest) =
          cap :: capsulesOf library repository rest := by
        simp [capsulesOf, taken, other.2]
      have capsule := own cap taken
      have made' : ∀ other ∈ seen ++ [cap], IsCapsule library other :=
        List.forall_mem_append.mpr ⟨made, by simpa using capsule⟩
      have split_ : seen ++ capsulesOf library repository (row :: rest) =
          (seen ++ [cap]) ++ capsulesOf library repository rest := by
        rw [among, List.append_assoc, List.singleton_append]
      rw [split_]
      cases entry : Assoc.lookup (capsuleKey cap) entries with
      | none =>
        exact ih others
          (latest.newer fun known there => by rw [entry] at there; contradiction) made'
      | some known =>
        have held := made known (latest.greatest _ known entry).1
        simp only [held.revision_eq, capsule.revision_eq]
        split
        · rename_i above
          refine ih others (latest.newer fun other there => ?_) made'
          rw [entry, Option.some.injEq] at there
          exact there ▸ above
        · rename_i below
          exact ih others (latest.older entry (Nat.not_lt.mp below)) made'

/-! ## The greedy admission -/

/-- What the loop over the latest capsules does: some of them are listed in their order, the others
stay counted, and the manifest stays short if it was. -/
theorem admitRows_ok {entries : List (String × Json)} {result : Manifest}
    (made : ∀ entry ∈ entries, IsCapsule library entry.2)
    (room : entries.length ≤ result.omitted) :
    ∃ final, admitRows library entries result = .ok final ∧
      ((library.dump result.json).utf8ByteSize ≤ manifestLimit →
        (library.dump final.json).utf8ByteSize ≤ manifestLimit) ∧
      final.streams.length + final.omitted = result.streams.length + result.omitted ∧
      (final.streams.map fun row => (keyOf row).slot).Sublist
        ((result.streams.map fun row => (keyOf row).slot) ++
          entries.map fun entry => (keyOf entry.2).slot) ∧
      ∀ row ∈ final.streams, row ∈ result.streams ∨
        ∃ entry ∈ entries, manifestRow entry.2 = .ok row := by
  induction entries generalizing result with
  | nil => exact ⟨result, rfl, id, rfl, by simp, fun row inside => .inl inside⟩
  | cons entry rest ih =>
    obtain ⟨key, cap⟩ := entry
    obtain ⟨own, others⟩ := List.forall_mem_cons.mp made
    obtain ⟨row, copied, slot⟩ := own.row
    rw [List.length_cons] at room
    rw [admitRows, copied]
    simp only [bind, Except.bind]
    split
    · rename_i fits
      have next_room :
          rest.length ≤ (Manifest.mk (result.streams ++ [row]) (result.omitted - 1)).omitted :=
        Nat.le_sub_one_of_lt room
      obtain ⟨final, admitted, short, counted, listed, sources⟩ := ih others next_room
      refine ⟨final, admitted, fun _ => short fits, ?_, ?_, ?_⟩
      · simp only [List.length_append, List.length_singleton] at counted
        omega
      · simpa [slot] using listed
      · intro other inside
        rcases sources other inside with before | ⟨entry, there, same⟩
        · rcases List.mem_append.mp before with old | new
          · exact .inl old
          · rw [List.mem_singleton.mp new]
            exact .inr ⟨_, List.mem_cons_self, copied⟩
        · exact .inr ⟨entry, List.mem_cons_of_mem _ there, same⟩
    · have same_room : rest.length ≤ result.omitted := Nat.le_of_succ_le room
      obtain ⟨final, admitted, short, counted, listed, sources⟩ := ih others same_room
      refine ⟨final, admitted, short, counted, ?_, ?_⟩
      · exact listed.trans ((List.Sublist.refl _).append (List.sublist_cons_self _ _))
      · intro other inside
        rcases sources other inside with before | ⟨entry, there, same⟩
        · exact .inl before
        · exact .inr ⟨entry, List.mem_cons_of_mem _ there, same⟩

/-- Entries with different keys in one repository have different slots. -/
theorem slots_nodup {seen : List Json} {entries : List (String × Json)} {path : String}
    (latest : Latest seen entries) (one : ∀ cap ∈ seen, str cap "repository" = path) :
    (entries.map fun entry => (keyOf entry.2).slot).Nodup := by
  have held (entry : String × Json) (inside : entry ∈ entries) :
      entry.1 = capsuleKey entry.2 ∧ str entry.2 "repository" = path := by
    obtain ⟨there, named, _⟩ := latest.greatest entry.1 entry.2 (latest.sorted.mem_iff.mp inside)
    exact ⟨named.symm, one _ there⟩
  refine List.pairwise_map.mpr (latest.sorted.imp_of_mem ?_)
  intro left right leftInside rightInside less same
  have keys : keyOf left.2 = keyOf right.2 := by
    have whole (cap : Json) :
        keyOf cap = ⟨repositoryKey (str cap "repository"), (keyOf cap).slot⟩ := rfl
    rw [whole left.2, whole right.2, same, (held left leftInside).2, (held right rightInside).2]
  rw [(held left leftInside).1, (held right rightInside).1, capsuleKey_congr keys] at less
  exact String.lt_irrefl _ less

/-- The entries are as many as the keys that were seen. -/
theorem length_latest {seen : List Json} {entries : List (String × Json)}
    (latest : Latest seen entries) : entries.length = (seen.map capsuleKey).toFinset.card := by
  have keys : (entries.map (·.1)).toFinset = (seen.map capsuleKey).toFinset := by
    ext key
    simp only [List.mem_toFinset, List.mem_map]
    constructor
    · rintro ⟨entry, inside, rfl⟩
      obtain ⟨there, named, _⟩ := latest.greatest _ _ (latest.sorted.mem_iff.mp inside)
      exact ⟨entry.2, there, named⟩
    · rintro ⟨cap, inside, rfl⟩
      obtain ⟨known, entry⟩ := Option.isSome_iff_exists.mp (latest.complete cap inside)
      exact ⟨_, Assoc.mem_of_lookup entry, rfl⟩
  have distinct : (entries.map (·.1)).Nodup := by
    refine List.pairwise_map.mpr (latest.sorted.imp ?_)
    intro left right less same
    rw [same] at less
    exact String.lt_irrefl _ less
  rw [← keys, List.toFinset_card_of_nodup distinct, List.length_map]

/-- The manifest of rows with valid capsules stays short, lists no key twice and the latest capsule
of each, and accounts for all keys. -/
theorem capsuleManifest_accounts (library : Library) (rows : List Json) (repository : String)
    (holds : HoldsCapsules library rows) :
    ∃ manifest, capsuleManifest library rows repository = .ok manifest.json ∧
      Accounts library rows repository manifest := by
  obtain ⟨entries, found, latest⟩ := @latestOfKeys_ok library repository rows [] [] holds
    latest_empty (by simp)
  rw [List.nil_append] at latest
  have sources (cap : Json) (inside : cap ∈ capsulesOf library repository rows) :
      IsCapsule library cap ∧ str cap "repository" = repositoryKey repository := by
    obtain ⟨listed, own⟩ := List.mem_filter.mp inside
    obtain ⟨row, there, held⟩ := List.mem_filterMap.mp listed
    exact ⟨(holds row there).2 cap held, of_decide_eq_true own⟩
  have entry_source (entry : String × Json) (inside : entry ∈ entries) :=
    latest.greatest entry.1 entry.2 (latest.sorted.mem_iff.mp inside)
  have made : ∀ entry ∈ entries, IsCapsule library entry.2 := fun entry inside =>
    (sources entry.2 (entry_source entry inside).1).1
  have start : entries.length ≤ (Manifest.mk [] entries.length).omitted := Nat.le_refl _
  obtain ⟨manifest, admitted, short, counted, listed, from_entries⟩ := admitRows_ok made start
  have size := length_latest latest
  refine ⟨manifest, ?_, ?_, ?_, ?_, ?_⟩
  · simp only [capsuleManifest, bind, Except.bind, found, admitted]
    rfl
  · rw [keyCount, ← size]
    exact short
  · have apart := slots_nodup latest fun cap inside => (sources cap inside).2
    exact listed.nodup (by simpa using apart)
  · intro row inside
    rcases from_entries row inside with none | ⟨entry, there, copied⟩
    · contradiction
    · obtain ⟨cap_inside, named, greatest⟩ := entry_source entry there
      refine ⟨entry.2, cap_inside, copied, fun other among same => ?_⟩
      exact greatest other among (same.trans named)
  · rw [keyCount, ← size]
    simpa using counted

/-- A capsule of a stream is made of this. -/
def streamInput : Json :=
  .object [("repository", .str "/a/.git"), ("stream_id", .str "s"), ("next_action", .str "test")]

/-- The capsule. -/
def streamCapsule : Json :=
    ((capsuleV2 (Ledger.plainLibrary []) streamInput 1 3).toOption).getD .null

/-- The metadata of its session. -/
def streamMetadata : Json := .object [("handoff", streamCapsule)]

/-- The row of its session. -/
def streamRow : Json :=
  .object [("session_id", .str "c"), ("metadata_json", .str (Ledger.plainText streamMetadata))]

/-- A library that reads the metadata. -/
def streamLibrary : Library := Ledger.plainLibrary [streamMetadata]

/-- The row of the stream holds its capsule. -/
theorem holds_streamRow : HoldsCapsules streamLibrary [streamRow] := by
  have read : handoff streamLibrary streamRow = .ok streamCapsule := by decide +kernel
  have made : capsuleV2 streamLibrary streamInput 1 3 = .ok streamCapsule := by decide +kernel
  have capsule : IsCapsule streamLibrary streamCapsule := ⟨_, _, _, made⟩
  intro row inside
  rw [List.mem_singleton.mp inside]
  refine ⟨⟨streamCapsule, 2, read, capsule.version_eq⟩, fun cap found => ?_⟩
  simp only [capsuleIn, read, capsule.version_eq, Option.some.injEq] at found
  exact found ▸ capsule

/-- The manifest of one capsule. -/
theorem capsuleManifest_accounts_stream :
    ∃ manifest, capsuleManifest streamLibrary [streamRow] "/a/.git" = .ok manifest.json ∧
      Accounts streamLibrary [streamRow] "/a/.git" manifest :=
  capsuleManifest_accounts streamLibrary [streamRow] "/a/.git" holds_streamRow

end Chitta.Gateway
