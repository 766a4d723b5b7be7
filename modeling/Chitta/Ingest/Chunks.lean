import Chitta.Bytes

/-!
# The chunks of a text

`chunk_text` cuts a text into chunks that overlap, each of which ends behind a paragraph if there is
one in its second half. Where a chunk ends at the end of the text, the next one begins before it by
the overlap, so that the loop does not end there: up to the limit, the last bytes of the text
are cut out again and again.
-/
namespace Chitta.Ingest

open Bytes

/-- The numbers of `IngestConfig`. -/
structure IngestConfig where
  /-- `chunk_size_chars`. -/
  chunkSizeChars : Nat := 8000
  /-- `chunk_overlap`. -/
  chunkOverlap : Nat := 500
  /-- `max_chunks`. -/
  maxChunks : Int := 30

/-- `rfind`: the last place of a text up to a place. -/
def rfind (needle text : Text) : Nat → Option Nat
  | 0 => if needle <+: text then some 0 else none
  | place + 1 =>
    if needle <+: text.drop (place + 1) then some (place + 1) else rfind needle text place

variable (config : IngestConfig) (text : Text)

/-- `end`: where the chunk from a place on ends. -/
def chunkEnd (pos : Nat) : Nat :=
  let last := min (pos + config.chunkSizeChars) text.length
  if last < text.length then
    match rfind [10, 10] text last with
    | some para => if pos + config.chunkSizeChars / 2 < para then para + 2 else last
    | none => last
  else last

/-- Where the next chunk begins. -/
def nextPos (last : Nat) : Nat :=
  if config.chunkOverlap < last then last - config.chunkOverlap else last

/-- The loop, when a number of chunks is still allowed: where each begins and ends. -/
def spansFrom : Nat → Nat → List (Nat × Nat)
  | 0, _ => []
  | count + 1, pos =>
    if pos < text.length then
      (pos, chunkEnd config text pos) :: spansFrom count (nextPos config (chunkEnd config text pos))
    else []

/-- `substr` from a place to another one. -/
def cut (span : Nat × Nat) : Text := (text.drop span.1).take (span.2 - span.1)

/-- The number of chunks behind which the loop breaks: it looks at the limit behind each chunk. -/
def allowed : Nat := max 1 config.maxChunks.toNat

/-- `chunk_text`. -/
def chunkText : List Text :=
  if text.length ≤ config.chunkSizeChars then [text]
  else (spansFrom config text (allowed config) 0).map (cut text)

/-! ## One chunk -/

variable {config text} {pos : Nat}

/-- What is found stands in the text. -/
theorem rfind_some {needle : Text} {place found : Nat}
    (there : rfind needle text place = some found) :
    needle <+: text.drop found := by
  induction place with
  | zero =>
    rw [rfind] at there
    split at there
    · obtain rfl := Option.some.inj there
      assumption
    · contradiction
  | succ place ih =>
    rw [rfind] at there
    split at there
    · obtain rfl := Option.some.inj there
      assumption
    · exact ih there

/-- It stands where it was looked for, or before. -/
theorem rfind_le {needle : Text} {place found : Nat}
    (there : rfind needle text place = some found) :
    found ≤ place := by
  induction place with
  | zero =>
    rw [rfind] at there
    split at there
    · exact Nat.le_of_eq (Option.some.inj there).symm
    · contradiction
  | succ place ih =>
    rw [rfind] at there
    split at there
    · exact Nat.le_of_eq (Option.some.inj there).symm
    · exact Nat.le_succ_of_le (ih there)

/-- A chunk ends within the text. -/
theorem chunkEnd_le (config : IngestConfig) (text : Text) (pos : Nat) :
    chunkEnd config text pos ≤ text.length := by
  rw [chunkEnd]
  split
  · split
    · rename_i para found
      split
      · have room := (rfind_some found).length_le
        rw [List.length_drop, List.length_cons, List.length_singleton] at room
        omega
      · exact Nat.min_le_right _ _
    · exact Nat.min_le_right _ _
  · exact Nat.min_le_right _ _

/-- A chunk is longer than half of its size unless the text ends before, and not much longer than
its size. -/
theorem chunkEnd_far (some : 0 < config.chunkSizeChars) (inside : pos < text.length) :
    pos < chunkEnd config text pos ∧ chunkEnd config text pos ≤ pos + config.chunkSizeChars + 2 ∧
      (chunkEnd config text pos = text.length ∨
        pos + config.chunkSizeChars / 2 < chunkEnd config text pos) := by
  rw [chunkEnd]
  split
  · split
    · rename_i para found
      have near := rfind_le found
      split <;> omega
    · omega
  · omega

/-- The last bytes are a chunk, and the next chunk begins where it began. -/
theorem chunkEnd_tail (less : config.chunkOverlap ≤ config.chunkSizeChars) :
    config.chunkOverlap < text.length →
    chunkEnd config text (text.length - config.chunkOverlap) = text.length := by
  intro short
  have last : min (text.length - config.chunkOverlap + config.chunkSizeChars) text.length =
      text.length := by
    omega
  rw [chunkEnd, last, if_neg (Nat.lt_irrefl _)]

/-- The chunk behind one that does not end with the text begins in the text, not behind its end. -/
theorem nextPos_le (config : IngestConfig) (last : Nat) :
    nextPos config last ≤ last ∧ last ≤ nextPos config last + config.chunkOverlap := by
  rw [nextPos]
  split <;> omega

/-! ## All chunks -/

/-- Behind the end of the text the last bytes are cut out as often as is allowed. -/
theorem spansFrom_tail (positive : 0 < config.chunkOverlap)
    (less : config.chunkOverlap ≤ config.chunkSizeChars) (short : config.chunkOverlap < text.length)
    (count : Nat) : spansFrom config text count (text.length - config.chunkOverlap) =
      List.replicate count (text.length - config.chunkOverlap, text.length) := by
  induction count with
  | zero => rfl
  | succ count ih =>
    have inside : text.length - config.chunkOverlap < text.length := by omega
    rw [spansFrom, if_pos inside, chunkEnd_tail less short, nextPos, if_pos short, ih]
    rfl

/-- Chunks that go through a text from a place to another one. None is longer than its size by more
than two bytes, and only the last one may end with the text; each of the others is longer than half
of its size, and the next one begins at its end or before it by at most the overlap. -/
inductive Advances (config : IngestConfig) (text : Text) : Nat → Nat → List (Nat × Nat) → Prop
  /-- The last chunk. -/
  | last {pos last : Nat} (some : pos < last) (short : last ≤ pos + config.chunkSizeChars + 2)
      (within : last ≤ text.length) : Advances config text pos last [(pos, last)]
  /-- A chunk, and the others behind it. -/
  | next {pos middle place last : Nat} {spans : List (Nat × Nat)}
      (half : pos + config.chunkSizeChars / 2 < middle)
      (short : middle ≤ pos + config.chunkSizeChars + 2) (early : middle < text.length)
      (back : place ≤ middle) (near : middle ≤ place + config.chunkOverlap)
      (others : Advances config text place last spans) :
      Advances config text pos last ((pos, middle) :: spans)

/-- Every byte on the way is in a chunk. -/
theorem Advances.covers {last place : Nat} {spans : List (Nat × Nat)}
    (advances : Advances config text pos last spans) (low : pos ≤ place) (high : place < last) :
    ∃ span ∈ spans, span.1 ≤ place ∧ place < span.2 := by
  induction advances with
  | last => exact ⟨_, List.mem_cons_self, low, high⟩
  | @next pos middle _ _ _ _ _ _ back _ _ ih =>
    by_cases own : place < middle
    · exact ⟨_, List.mem_cons_self, low, own⟩
    · obtain ⟨span, there, both⟩ := ih (by omega) high
      exact ⟨span, List.mem_cons_of_mem _ there, both⟩

/-- The loop goes through the text; when it has reached the end, the last bytes follow as often as
is still allowed. -/
theorem spansFrom_advances (positive : 0 < config.chunkOverlap)
    (less : config.chunkOverlap ≤ config.chunkSizeChars) (short : config.chunkOverlap < text.length)
    (count : Nat) (inside : pos < text.length) : ∃ front rest last,
      spansFrom config text (count + 1) pos =
          front ++ List.replicate rest (text.length - config.chunkOverlap, text.length) ∧
        front.length + rest = count + 1 ∧ Advances config text pos last front ∧
        (rest = 0 ∨ last = text.length) := by
  induction count generalizing pos with
  | zero =>
    have far := chunkEnd_far (Nat.lt_of_lt_of_le positive less) inside
    refine ⟨[(pos, chunkEnd config text pos)], 0, chunkEnd config text pos, ?_, rfl,
      .last far.1 far.2.1 (chunkEnd_le config text pos), .inl rfl⟩
    rw [spansFrom, if_pos inside]
    rfl
  | succ count ih =>
    have far := chunkEnd_far (Nat.lt_of_lt_of_le positive less) inside
    have within := chunkEnd_le config text pos
    rw [spansFrom, if_pos inside]
    by_cases final : chunkEnd config text pos = text.length
    · -- the text ends here, so the next chunk begins before its end
      refine ⟨[(pos, text.length)], count + 1, text.length, ?_, Nat.add_comm _ _,
        .last inside (final ▸ far.2.1) (Nat.le_refl _), .inr rfl⟩
      rw [final, nextPos, if_pos short, spansFrom_tail positive less short]
      rfl
    · have step := nextPos_le config (chunkEnd config text pos)
      obtain ⟨front, rest, last, parts, counted, others, ended⟩ :=
        @ih (nextPos config (chunkEnd config text pos)) (by omega)
      refine ⟨(pos, chunkEnd config text pos) :: front, rest, last, ?_, ?_,
        .next (far.2.2.resolve_left final) far.2.1 (by omega) step.1 step.2 others, ended⟩
      · rw [parts]
        rfl
      · rw [List.length_cons, Nat.add_right_comm, counted]

/-- The last bytes as a chunk. -/
theorem cut_tail (text : Text) (overlap : Nat) :
    cut text (text.length - overlap, text.length) = text.drop (text.length - overlap) := by
  exact List.take_of_length_le (Nat.le_of_eq (List.length_drop ..))

/-- A text that is longer than a chunk is always cut into as many chunks as are allowed. The first
ones go through the text from its beginning, up to the first one that ends with it; when there is
one, all others are the same last bytes of the text. -/
theorem chunk_text_repeats_tail (config : IngestConfig) (text : Text)
    (long : config.chunkSizeChars < text.length) (positive : 0 < config.chunkOverlap)
    (less : config.chunkOverlap ≤ config.chunkSizeChars) :
    ∃ (front : List (Nat × Nat)) (rest last : Nat),
      chunkText config text = front.map (cut text) ++
        List.replicate rest (text.drop (text.length - config.chunkOverlap)) ∧
      front.length + rest = allowed config ∧ Advances config text 0 last front ∧
      (∀ place < last, ∃ span ∈ front, span.1 ≤ place ∧ place < span.2) ∧
      (rest = 0 ∨ last = text.length) := by
  have some : allowed config = allowed config - 1 + 1 := by
    have one : 1 ≤ allowed config := Nat.le_max_left _ _
    omega
  have short : config.chunkOverlap < text.length := by omega
  obtain ⟨front, rest, last, parts, counted, advances, ended⟩ :=
    @spansFrom_advances config text 0 positive less short (allowed config - 1)
      (Nat.lt_of_le_of_lt (Nat.zero_le _) long)
  rw [← some] at parts counted
  refine ⟨front, rest, last, ?_, counted, advances,
    fun place => advances.covers (Nat.zero_le place), ended⟩
  rw [chunkText, if_neg (Nat.not_le_of_lt long), parts, List.map_append, List.map_replicate,
    cut_tail]

/-- A text of three bytes in chunks of two bytes: with four chunks allowed, the second one ends with
the text, and the last byte is cut out twice more. -/
theorem repeats_last_byte :
    chunkText ⟨2, 1, 4⟩ [97, 98, 99] = [[97, 98], [98, 99], [99], [99]] ∧
    ∃ (front : List (Nat × Nat)) (rest last : Nat),
      chunkText ⟨2, 1, 4⟩ [97, 98, 99] = front.map (cut [97, 98, 99]) ++ List.replicate rest [99] ∧
      front.length + rest = 4 ∧ Advances ⟨2, 1, 4⟩ [97, 98, 99] 0 last front ∧
      (∀ place < last, ∃ span ∈ front, span.1 ≤ place ∧ place < span.2) ∧
      (rest = 0 ∨ last = 3) :=
  ⟨by decide, chunk_text_repeats_tail ⟨2, 1, 4⟩ [97, 98, 99] (by decide) (by decide) (by decide)⟩

end Chitta.Ingest
