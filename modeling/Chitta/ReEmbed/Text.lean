import Chitta.Ssl.Gloss

/-!
# The text of a memory that is embedded

Three loops embed the memories of a store: the backfill of the daemon, `re_embed`, and
`export_content` for an embedder outside. Each prepares the text on its own: `re_embed` cuts long
content where a character starts, `export_content` cuts it at a byte and repairs what it writes,
and the backfill does not cut it. `dump` is the JSON library's `dump` that replaces invalid bytes.
-/
namespace Chitta.ReEmbed

open Bytes Utf8 Ssl

/-- `MAX_CONTENT_BYTES`. -/
def maxContentBytes : Nat := 6000

/-- A text as it is read back after a `dump` that replaces invalid bytes. -/
structure Replacing where
  /-- The text that is read back. -/
  written : Text → Text
  /-- It is UTF-8. -/
  valid : ∀ text, Valid (written text)
  /-- Text in UTF-8 is not changed. -/
  keeps : ∀ text, Valid text → written text = text

/-- A dump that writes one replacement character for a text that is not UTF-8. -/
def replacedWhole : Replacing where
  written text := if Valid text then text else utf8 "�"
  valid text := by
    split
    · assumption
    · exact valid_utf8 "�"
  keeps _ valid := if_pos valid

/-- What the backfill hands to the embedder, if anything. -/
def backfillText (content : Text) : Option Text :=
  if content.isEmpty then none else some (retrievalText content)

/-- The content that `re_embed` keeps. -/
def reEmbedBody (content : Text) : Text :=
  content.take
    (if maxContentBytes < content.length then lastStart content maxContentBytes
      else maxContentBytes)

/-- What `re_embed` hands to the embedder, if anything. -/
def reEmbedText (content : Text) : Option Text :=
  if content.isEmpty then none else some (retrievalText (reEmbedBody content))

/-- What marks a document. -/
def searchDocument : Text := utf8 "search_document: "

/-- What `export_content` writes, if anything. -/
def exportText (dump : Replacing) (content : Text) : Option Text :=
  if content.isEmpty then none
  else
    let body := if maxContentBytes < content.length then content.take maxContentBytes else content
    some (dump.written (searchDocument ++ retrievalText body))

/-- All loops embed a content as the same text, and as UTF-8 if it is UTF-8. -/
structure Agreed (dump : Replacing) (content : Text) : Prop where
  /-- `re_embed` embeds what the backfill embeds. -/
  reEmbed : reEmbedText content = backfillText content
  /-- What is exported is the same with the mark, which the embedder adds otherwise. -/
  exported : exportText dump content = (backfillText content).map (searchDocument ++ ·)
  /-- The texts are UTF-8. -/
  valid : Valid content → ∀ text,
    backfillText content = some text ∨ reEmbedText content = some text ∨
      exportText dump content = some text → Valid text

/-! ## The content that is kept -/

theorem reEmbedBody_short {content : Text} (short : content.length ≤ maxContentBytes) :
    reEmbedBody content = content := by
  rw [reEmbedBody, if_neg (Nat.not_lt.mpr short), List.take_of_length_le short]

theorem length_reEmbedBody (content : Text) : (reEmbedBody content).length ≤ maxContentBytes := by
  rw [reEmbedBody, List.length_take]
  split
  · exact Nat.le_trans (Nat.min_le_left _ _) (lastStart_le content maxContentBytes)
  · exact Nat.min_le_left _ _

/-- `re_embed` embeds what the backfill embeds exactly when the content is not longer than what
`re_embed` keeps. -/
theorem reEmbedText_eq_iff (content : Text) :
    reEmbedText content = backfillText content ↔ content.length ≤ maxContentBytes := by
  constructor
  · intro same
    by_cases empty : content = []
    · rw [empty]
      exact Nat.zero_le _
    · simp only [reEmbedText, backfillText, List.isEmpty_iff, if_neg empty,
        Option.some.injEq] at same
      rw [← retrievalText_injective same]
      exact length_reEmbedBody content
  · intro short
    rw [reEmbedText, backfillText, reEmbedBody_short short]

/-- The loops agree on short content in UTF-8 and on no other, empty content apart. -/
theorem agreed_iff (dump : Replacing) (content : Text) :
    Agreed dump content ↔ content = [] ∨ content.length ≤ maxContentBytes ∧ Valid content := by
  by_cases empty : content = []
  · subst empty
    refine iff_of_true ⟨rfl, rfl, ?_⟩ (.inl rfl)
    rintro _ _ (h | h | h) <;> contradiction
  have marked := valid_utf8 "search_document: "
  have nonempty : content.isEmpty = false := by simpa using empty
  rw [or_iff_right empty]
  constructor
  · intro agreed
    have short := (reEmbedText_eq_iff content).mp agreed.reEmbed
    have exported := agreed.exported
    simp only [exportText, backfillText, nonempty, Bool.false_eq_true, ↓reduceIte,
      if_neg (Nat.not_lt.mpr short), Option.map_some, Option.some.injEq] at exported
    have written := dump.valid (searchDocument ++ retrievalText content)
    rw [exported] at written
    exact ⟨short, (valid_retrievalText content).mp (written.rest marked)⟩
  · rintro ⟨short, valid⟩
    have text : Valid (retrievalText content) := (valid_retrievalText content).mpr valid
    have document : Valid (searchDocument ++ retrievalText content) := marked.append text
    have same := (reEmbedText_eq_iff content).mpr short
    have live : backfillText content = some (retrievalText content) := by
      simp [backfillText, nonempty]
    have exported : exportText dump content = some (searchDocument ++ retrievalText content) := by
      simp only [exportText, nonempty, Bool.false_eq_true, ↓reduceIte,
        if_neg (Nat.not_lt.mpr short), dump.keeps _ document]
    refine ⟨same, by rw [exported, live, Option.map_some], ?_⟩
    rintro _ other (shown | shown | shown)
    · rw [live] at shown
      exact Option.some.inj shown ▸ text
    · rw [same, live] at shown
      exact Option.some.inj shown ▸ text
    · rw [exported] at shown
      exact Option.some.inj shown ▸ document

theorem agreed_iff_letter : Agreed replacedWhole (utf8 "é") ↔
    utf8 "é" = [] ∨ (utf8 "é").length ≤ maxContentBytes ∧ Valid (utf8 "é") :=
  agreed_iff replacedWhole (utf8 "é")

/-- Content of one byte more than `re_embed` keeps. -/
theorem long_content_differs :
    ¬ Agreed replacedWhole (List.replicate (maxContentBytes + 1) 97) := by
  intro agreed
  have short := (reEmbedText_eq_iff _).mp agreed.reEmbed
  rw [List.length_replicate] at short
  exact absurd short (Nat.not_succ_le_self _)

end Chitta.ReEmbed
