import Mathlib.Data.List.AList
import Mathlib.Data.List.TakeWhile
import Chitta.Bytes
import Chitta.LittleEndian

/-!
# Where knowledge comes from, on disk

The spine keeps a provenance for every node. It is saved as a header and one record a node, each
with the number of its bytes in front, and loaded by reading as many records as the header
announces; what is in memory is cleared before the first of them. The names are those of the source.
-/
namespace Chitta.Spine

open Bytes LittleEndian

/-- `NodeId`. -/
structure NodeId where
  /-- The high word. -/
  high : UInt64
  /-- The low word. -/
  low : UInt64
deriving DecidableEq, Repr

/-- `Provenance`. -/
structure Provenance where
  /-- `ProvenanceSource`, of which a file may hold any byte. -/
  source : UInt8 := 0
  /-- The session that created the node. -/
  sessionId : Text := []
  /-- The tool that generated it. -/
  toolName : Text := []
  /-- The user. -/
  userId : Text := []
  /-- Where it was read. -/
  sourceUrl : Text := []
  /-- When this was recorded. -/
  createdAt : Int64 := 0
  /-- The node it was derived from. -/
  derivedFrom : NodeId := ⟨0, 0⟩
  /-- The bits of the trust, 0.5 by default. -/
  trustScore : UInt32 := 0x3F000000
deriving DecidableEq, Repr

/-- The provenances in memory. -/
abbrev Provenances := AList fun _ : NodeId => Provenance

/-! ## One provenance -/

/-- A word in its bytes. -/
def word (value : UInt64) : Text := bytes 8 value.toNat

/-- `write_string`. -/
def writeString (text : Text) : Text :=
  let len := min text.length 65535
  bytes 2 len ++ text.take len

/-- `serialize`. -/
def Provenance.serialize (p : Provenance) : Text :=
  [p.source] ++ bytes 4 p.trustScore.toNat ++ word p.createdAt.toUInt64 ++
    word p.derivedFrom.high ++ word p.derivedFrom.low ++ writeString p.sessionId ++
    writeString p.toolName ++ writeString p.userId ++ writeString p.sourceUrl

/-- `read_string`: the text, and what follows. -/
def readString (rest : Text) : Text × Text :=
  match readNumber 2 rest with
  | none => ([], rest)
  | some (len, rest) => (front len rest).getD ([], rest)

/-- The number at a place. -/
def numberAt (data : Text) (pos width : Nat) : Nat := number ((data.drop pos).take width)

/-- `deserialize`. -/
def deserialize (data : Text) : Provenance :=
  if data.length < 29 then {}
  else
    let session := readString (data.drop 29)
    let tool := readString session.2
    let user := readString tool.2
    let url := readString user.2
    { source := UInt8.ofNat (numberAt data 0 1)
      trustScore := UInt32.ofNat (numberAt data 1 4)
      createdAt := (UInt64.ofNat (numberAt data 5 8)).toInt64
      derivedFrom := ⟨UInt64.ofNat (numberAt data 13 8), UInt64.ofNat (numberAt data 21 8)⟩
      sessionId := session.1
      toolName := tool.1
      userId := user.1
      sourceUrl := url.1 }

/-! ## The file -/

/-- One record of the file: the node, the number of bytes and the bytes. -/
def saveRecord (entry : Sigma fun _ : NodeId => Provenance) : Text :=
  let data := entry.2.serialize
  let dataSize := data.length % 2 ^ 32
  word entry.1.high ++ word entry.1.low ++ bytes 4 dataSize ++ data.take dataSize

/-- "PROV". -/
def magic : Nat := 0x50524F56

/-- `save`: what is written before the file takes its name. -/
def save (spine : Provenances) : Text :=
  bytes 4 magic ++ bytes 4 1 ++ bytes 8 spine.entries.length ++ spine.entries.flatMap saveRecord

/-- The header of a file that is accepted: the number of records, and what follows. -/
def loadHeader (content : Text) : Option (Nat × Text) := do
  let (first, rest) ← readNumber 4 content
  if first ≠ magic then none
  else
    let (version, rest) ← readNumber 4 rest
    if version ≠ 1 then none
    else
      let (count, rest) ← readNumber 8 rest
      if 100000000 < count then none
      else some (count, rest)

/-- One record, and what follows; none when it is cut off or has more than 10000 bytes. -/
def loadRecord (content : Text) : Option ((Sigma fun _ : NodeId => Provenance) × Text) := do
  let (high, rest) ← readNumber 8 content
  let (low, rest) ← readNumber 8 rest
  let (dataSize, rest) ← readNumber 4 rest
  if 10000 < dataSize then none
  else
    let (data, rest) ← front dataSize rest
    some (⟨⟨UInt64.ofNat high, UInt64.ofNat low⟩, deserialize data⟩, rest)

/-- The loop over the records. -/
def loadRecords : Nat → Text → Provenances → Bool × Provenances
  | 0, _, spine => (true, spine)
  | count + 1, content, spine =>
    match loadRecord content with
    | none => (false, spine)
    | some (entry, rest) => loadRecords count rest (spine.insert entry.1 entry.2)

/-- `load`: whether it succeeds, and what is in memory afterwards. There is no file when it cannot
be opened. -/
def load (file : Option Text) (memory : Provenances) : Bool × Provenances :=
  match file.bind loadHeader with
  | none => (false, memory)
  | some (count, rest) => loadRecords count rest ∅

/-! ## A provenance is read back -/

/-- A record that the loader accepts has texts of no more than 9963 bytes together. -/
def Provenance.Small (p : Provenance) : Prop :=
  p.sessionId.length + p.toolName.length + p.userId.length + p.sourceUrl.length ≤ 9963

@[simp] theorem length_word (value : UInt64) : (word value).length = 8 := length_bytes 8 value.toNat

/-- A text is written with its length, or that of its first 65535 bytes, in two bytes. -/
theorem length_writeString (text : Text) :
    (writeString text).length = 2 + min text.length 65535 := by
  rw [writeString, List.length_append, length_bytes, List.length_take]
  omega

/-- The number of bytes of a provenance. -/
theorem length_serialize (p : Provenance) : p.serialize.length =
    37 + min p.sessionId.length 65535 + min p.toolName.length 65535 + min p.userId.length 65535 +
      min p.sourceUrl.length 65535 := by
  simp only [Provenance.serialize, List.length_append, length_writeString, length_word,
    length_bytes,
    List.length_singleton]
  omega

/-- The loader accepts as many bytes exactly when the texts are short. -/
theorem small_iff (p : Provenance) : p.Small ↔ p.serialize.length ≤ 10000 := by
  rw [length_serialize, Provenance.Small]
  omega

/-- The number of bytes is told by the four bytes in front. -/
theorem serialize_lt (p : Provenance) : p.serialize.length < 2 ^ 32 := by
  rw [length_serialize]
  omega

/-- A text that two bytes can tell the length of is read back. -/
theorem readString_writeString {text : Text} (short : text.length ≤ 65535) (rest : Text) :
    readString (writeString text ++ rest) = (text, rest) := by
  have all : text.take (min text.length 65535) = text := List.take_of_length_le (by omega)
  have length : min text.length 65535 % 256 ^ 2 = text.length := by
    rw [Nat.min_eq_left short]
    exact Nat.mod_eq_of_lt (by omega)
  rw [writeString, List.append_assoc, readString, readNumber_bytes, length, all]
  dsimp only
  rw [front_append rfl, Option.getD_some]

/-- What stands behind a part. -/
theorem drop_part {data part rest : Text} {pos width : Nat} (here : data.drop pos = part ++ rest)
    (length : part.length = width) : data.drop (pos + width) = rest := by
  rw [← List.drop_drop, here, List.drop_left' length]

/-- The number of the bytes at a place. -/
theorem numberAt_eq {data part rest : Text} {pos width : Nat} (here : data.drop pos = part ++ rest)
    (length : part.length = width) : numberAt data pos width = number part := by
  rw [numberAt, here, List.take_left' length]

/-- The word at a place. -/
theorem wordAt_eq {data rest : Text} {pos : Nat} {value : UInt64}
    (here : data.drop pos = word value ++ rest) : UInt64.ofNat (numberAt data pos 8) = value := by
  rw [numberAt_eq here (length_word value), word, number_bytes value.toNat_lt, UInt64.ofNat_toNat]

/-- A provenance that is not too long is read back. -/
theorem deserialize_serialize {p : Provenance} (small : p.Small) :
    deserialize p.serialize = p := by
  have long : ¬ p.serialize.length < 29 := by
    rw [length_serialize]
    omega
  have short : p.sessionId.length ≤ 65535 ∧ p.toolName.length ≤ 65535 ∧ p.userId.length ≤ 65535 ∧
      p.sourceUrl.length ≤ 65535 := by
    rw [Provenance.Small] at small
    omega
  obtain ⟨session, tool, user, url⟩ := short
  -- What stands at each place, from the first byte to the first text.
  have first : p.serialize.drop 0 = [p.source] ++ (bytes 4 p.trustScore.toNat ++
      (word p.createdAt.toUInt64 ++ (word p.derivedFrom.high ++ (word p.derivedFrom.low ++
        (writeString p.sessionId ++ (writeString p.toolName ++ (writeString p.userId ++
          (writeString p.sourceUrl ++ [])))))))) := by
    simp only [Provenance.serialize, List.drop_zero, List.append_assoc, List.append_nil]
  have second : p.serialize.drop 1 = _ := drop_part first List.length_singleton
  have third : p.serialize.drop 5 = _ := drop_part second (length_bytes 4 _)
  have fourth : p.serialize.drop 13 = _ := drop_part third (length_word _)
  have fifth : p.serialize.drop 21 = _ := drop_part fourth (length_word _)
  have texts : p.serialize.drop 29 = _ := drop_part fifth (length_word _)
  have source : UInt8.ofNat (numberAt p.serialize 0 1) = p.source := by
    rw [numberAt_eq first List.length_singleton]
    simp [number]
  have trust : UInt32.ofNat (numberAt p.serialize 1 4) = p.trustScore := by
    rw [numberAt_eq second (length_bytes 4 _), number_bytes p.trustScore.toNat_lt,
      UInt32.ofNat_toNat]
  have created : (UInt64.ofNat (numberAt p.serialize 5 8)).toInt64 = p.createdAt := by
    rw [wordAt_eq third]
    rfl
  have high : UInt64.ofNat (numberAt p.serialize 13 8) = p.derivedFrom.high := wordAt_eq fourth
  have low : UInt64.ofNat (numberAt p.serialize 21 8) = p.derivedFrom.low := wordAt_eq fifth
  rw [deserialize, if_neg long, source, trust, created, high, low]
  simp only [texts, readString_writeString session, readString_writeString tool,
    readString_writeString user, readString_writeString url]

/-! ## The records of a file -/

/-- A record that is short enough is read, and a longer one is not. -/
theorem loadRecord_saveRecord (entry : Sigma fun _ : NodeId => Provenance) (rest : Text) :
    loadRecord (saveRecord entry ++ rest) =
      if entry.2.serialize.length ≤ 10000 then some (entry, rest) else none := by
  obtain ⟨id, p⟩ := entry
  have whole : p.serialize.length % 2 ^ 32 = p.serialize.length :=
    Nat.mod_eq_of_lt (serialize_lt p)
  have size : p.serialize.length % 256 ^ 4 = p.serialize.length := Nat.mod_eq_of_lt (serialize_lt p)
  have high : id.high.toNat % 256 ^ 8 = id.high.toNat := Nat.mod_eq_of_lt id.high.toNat_lt
  have low : id.low.toNat % 256 ^ 8 = id.low.toNat := Nat.mod_eq_of_lt id.low.toNat_lt
  simp only [saveRecord, whole, List.take_length, loadRecord, word, List.append_assoc,
    readNumber_bytes, size, high, low, Option.bind_eq_bind, Option.bind_some]
  by_cases short : p.serialize.length ≤ 10000
  · rw [if_neg (by omega), if_pos short, front_append rfl]
    simp only [Option.bind_some, UInt64.ofNat_toNat,
      deserialize_serialize ((small_iff p).mpr short)]
  · rw [if_pos (by omega), if_neg short]

/-- The records that are read before one is cut off or too long; there are at most `count`. -/
def wholeRecords : Nat → Text → List (Sigma fun _ : NodeId => Provenance)
  | 0, _ => []
  | count + 1, content =>
    match loadRecord content with
    | none => []
    | some (entry, rest) => entry :: wholeRecords count rest

/-- Records are put into memory one after the other. -/
def remember (spine : Provenances) (entries : List (Sigma fun _ : NodeId => Provenance)) :
    Provenances :=
  entries.foldl (fun spine entry => spine.insert entry.1 entry.2) spine

/-- The loop succeeds when it reads as many records as announced, and it remembers those it
reads. -/
theorem loadRecords_eq (count : Nat) (content : Text) (spine : Provenances) :
    loadRecords count content spine =
      (decide ((wholeRecords count content).length = count),
        remember spine (wholeRecords count content)) := by
  induction count generalizing content spine with
  | zero => rfl
  | succ count ih =>
    rw [loadRecords, wholeRecords]
    cases loadRecord content with
    | none => rfl
    | some found =>
      obtain ⟨entry, rest⟩ := found
      dsimp only
      rw [ih rest]
      simp [remember]

/-- Of the records that were written, those in front of the first long one are read. -/
theorem wholeRecords_save (entries : List (Sigma fun _ : NodeId => Provenance)) :
    wholeRecords entries.length (entries.flatMap saveRecord) =
      entries.takeWhile fun entry => entry.2.serialize.length ≤ 10000 := by
  induction entries with
  | nil => rfl
  | cons entry entries ih =>
    rw [List.length_cons, wholeRecords, List.flatMap_cons, loadRecord_saveRecord,
      List.takeWhile_cons]
    by_cases short : entry.2.serialize.length ≤ 10000
    · rw [if_pos short, if_pos (decide_eq_true short)]
      dsimp only
      rw [ih]
    · rw [if_neg short, if_neg (by simpa using short)]

/-- There are no more records than are asked for. -/
theorem length_wholeRecords (count : Nat) (content : Text) :
    (wholeRecords count content).length ≤ count := by
  induction count generalizing content with
  | zero => exact Nat.le_refl 0
  | succ count ih =>
    rw [wholeRecords]
    cases loadRecord content with
    | none => exact Nat.zero_le _
    | some found => exact Nat.succ_le_succ (ih found.2)

/-! ## What is remembered -/

/-- Records of different nodes that are not in memory are added as they are. -/
theorem remember_entries {entries : List (Sigma fun _ : NodeId => Provenance)}
    (distinct : entries.NodupKeys) (spine : Provenances)
    (absent : ∀ entry ∈ entries, entry.1 ∉ spine) :
    (remember spine entries).entries = entries.reverse ++ spine.entries := by
  induction entries generalizing spine with
  | nil => rfl
  | cons entry entries ih =>
    obtain ⟨here, others⟩ := List.nodupKeys_cons.mp distinct
    have new : entry.1 ∉ spine := absent entry List.mem_cons_self
    have later : ∀ other ∈ entries, other.1 ∉ spine.insert entry.1 entry.2 := by
      intro other inside
      rw [AList.mem_insert]
      rintro (same | known)
      · exact here (same ▸ List.mem_map_of_mem inside)
      · exact absent other (List.mem_cons_of_mem _ inside) known
    show (remember (spine.insert entry.1 entry.2) entries).entries = _
    rw [ih others _ later, AList.entries_insert_of_notMem new]
    simp

/-- Memory grows by no more than the records. -/
theorem length_remember (spine : Provenances)
    (entries : List (Sigma fun _ : NodeId => Provenance)) :
    (remember spine entries).entries.length ≤ spine.entries.length + entries.length := by
  induction entries generalizing spine with
  | nil => exact Nat.le_refl _
  | cons entry entries ih =>
    have grown : (spine.insert entry.1 entry.2).entries.length ≤ spine.entries.length + 1 := by
      rw [AList.entries_insert, List.length_cons]
      have less := (List.kerase_sublist entry.1 spine.entries).length_le
      omega
    have later := ih (spine.insert entry.1 entry.2)
    show (remember (spine.insert entry.1 entry.2) entries).entries.length ≤ _
    rw [List.length_cons]
    omega

/-! ## Saving and loading -/

/-- The header that was written is accepted when it announces no more than 100000000 records. -/
theorem loadHeader_save (spine : Provenances) : loadHeader (save spine) =
    if spine.entries.length % 256 ^ 8 ≤ 100000000 then
      some (spine.entries.length % 256 ^ 8, spine.entries.flatMap saveRecord)
    else none := by
  have first : magic % 256 ^ 4 = magic := by decide
  have second : 1 % 256 ^ 4 = 1 := by decide
  simp only [save, loadHeader, List.append_assoc, readNumber_bytes, first, second,
    Option.bind_eq_bind, Option.bind_some, ne_eq, not_true_eq_false, if_false]
  by_cases few : spine.entries.length % 256 ^ 8 ≤ 100000000
  · rw [if_pos few, if_neg (by omega)]
  · rw [if_neg few, if_pos (by omega)]

/-- Loading what was saved succeeds, and memory is then what was saved, in some order. -/
def Restores (saved memory : Provenances) : Prop :=
  (load (some (save saved)) memory).1 = true ∧
    (load (some (save saved)) memory).2.entries.Perm saved.entries

/-- Of what was saved the records in front of the first long one are loaded, when as many are
announced as there are and the loader accepts this number. -/
theorem load_save {saved : Provenances} (few : saved.entries.length ≤ 100000000)
    (memory : Provenances) :
    load (some (save saved)) memory =
      let read := saved.entries.takeWhile fun entry => entry.2.serialize.length ≤ 10000
      (decide (read.length = saved.entries.length), remember ∅ read) := by
  have fits : saved.entries.length % 256 ^ 8 = saved.entries.length :=
    Nat.mod_eq_of_lt (Nat.lt_of_le_of_lt few (by decide))
  have header := loadHeader_save saved
  rw [fits, if_pos few] at header
  rw [load, Option.bind_some, header]
  dsimp only
  rw [loadRecords_eq, wholeRecords_save]

/-- Loading what was saved fails or finds fewer nodes when there are more than 100000000. -/
theorem not_restores {saved : Provenances} (many : 100000000 < saved.entries.length)
    (memory : Provenances) : ¬ Restores saved memory := by
  rintro ⟨succeeded, same⟩
  have header := loadHeader_save saved
  generalize saved.entries.length % 256 ^ 8 = count at header
  rw [load, Option.bind_some, header] at succeeded same
  by_cases few : count ≤ 100000000
  · rw [if_pos few] at same
    dsimp only at same
    rw [loadRecords_eq] at same
    have grown := length_remember ∅ (wholeRecords count (saved.entries.flatMap saveRecord))
    have read := length_wholeRecords count (saved.entries.flatMap saveRecord)
    have none_there : (∅ : Provenances).entries.length = 0 := rfl
    have equal := same.length_eq
    dsimp only at equal
    omega
  · rw [if_neg few] at succeeded
    contradiction

/-- What was saved is restored exactly when there are no more than 100000000 records and none has
texts of more than 9963 bytes together. -/
theorem restores_iff (saved memory : Provenances) : Restores saved memory ↔
    saved.entries.length ≤ 100000000 ∧ ∀ entry ∈ saved.entries, entry.2.Small := by
  by_cases few : saved.entries.length ≤ 100000000
  · have passes (entry : Sigma fun _ : NodeId => Provenance) :
        decide (entry.2.serialize.length ≤ 10000) = true ↔ entry.2.Small := by
      rw [decide_eq_true_eq, small_iff]
    rw [Restores, load_save few]
    dsimp only
    constructor
    · rintro ⟨succeeded, -⟩
      have all := (List.takeWhile_prefix _).eq_of_length (of_decide_eq_true succeeded)
      rw [List.takeWhile_eq_self_iff] at all
      exact ⟨few, fun entry inside => (passes entry).mp (all entry inside)⟩
    · rintro ⟨-, small⟩
      have whole := List.takeWhile_eq_self_iff.mpr fun entry inside =>
        (passes entry).mpr (small entry inside)
      rw [whole]
      refine ⟨decide_eq_true rfl, ?_⟩
      rw [remember_entries saved.nodupKeys ∅ fun entry _ => AList.notMem_empty entry.1]
      simp
  · exact iff_of_false (not_restores (Nat.lt_of_not_le few) memory) fun both => few both.1

/-- A file on which loading fails leaves memory as it is. -/
def KeptOnFailure (file : Option Text) (memory : Provenances) : Prop :=
  (load file memory).1 = false → (load file memory).2.entries.Perm memory.entries

/-- The header is rejected, or as many whole records follow as it announces, or the whole records in
front of a broken one are what is in memory. -/
def Intact (file : Option Text) (memory : Provenances) : Prop :=
  ∀ header ∈ file.bind loadHeader,
    (wholeRecords header.1 header.2).length = header.1 ∨
      (remember ∅ (wholeRecords header.1 header.2)).entries.Perm memory.entries

/-- Memory is left as it is by a file on which loading fails exactly when the file is intact. -/
theorem keptOnFailure_iff (file : Option Text) (memory : Provenances) :
    KeptOnFailure file memory ↔ Intact file memory := by
  rw [KeptOnFailure, Intact, load]
  cases file.bind loadHeader with
  | none =>
    simp
  | some header =>
    obtain ⟨count, rest⟩ := header
    dsimp only
    rw [loadRecords_eq]
    simp only [decide_eq_false_iff_not, Option.mem_some_iff, forall_eq']
    exact Decidable.imp_iff_not_or.trans (by rw [Decidable.not_not])

/-- What is saved is restored, and a file on which loading fails changes nothing in memory, exactly
when there are no more than 100000000 records with texts of no more than 9963 bytes each, and the
file is intact. -/
theorem persists_iff (saved memory : Provenances) (file : Option Text) :
    Restores saved memory ∧ KeptOnFailure file memory ↔
      (saved.entries.length ≤ 100000000 ∧ ∀ entry ∈ saved.entries, entry.2.Small) ∧
        Intact file memory := by
  rw [restores_iff, keptOnFailure_iff]

/-- A node whose session has the given name. -/
def inSession (name : Text) : Provenances :=
  AList.singleton (⟨1, 2⟩ : NodeId) ({ sessionId := name } : Provenance)

/-- One session is restored when its name is short. -/
theorem restores_inSession (name : Text) (memory : Provenances) :
    Restores (inSession name) memory ↔ name.length ≤ 9963 := by
  rw [restores_iff]
  simp [inSession, Provenance.Small]

/-- A file that ends behind its header. -/
def headerOnly : Text := bytes 4 magic ++ bytes 4 1 ++ bytes 8 1

/-- A session whose name has ten thousand bytes is saved and cannot be loaded, and a file that ends
behind its header has cleared memory when loading fails. -/
theorem persists_refuted :
    ¬ Restores (inSession (List.replicate 10000 97)) ∅ ∧
      ¬ KeptOnFailure (some headerOnly) (inSession [97]) := by
  refine ⟨fun restored => ?_, fun kept => ?_⟩
  · have short := (restores_inSession _ _).mp restored
    rw [List.length_replicate] at short
    omega
  · have header : loadHeader headerOnly = some (1, []) := by decide
    rcases (keptOnFailure_iff _ _).mp kept (1, []) header with all | same
    · exact absurd all (by decide)
    · exact absurd same.length_eq (by decide)

end Chitta.Spine
