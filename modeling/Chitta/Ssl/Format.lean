import Chitta.Utf8

/-!
# Wrapping a memory as SSL

`to_ssl_format` puts a tag before a text that has no SSL form yet, and a heading when the text is
long. A heading that is cut from a text without an early line break ends at byte 80, wherever that
byte stands.
-/
namespace Chitta.Ssl

open Bytes Utf8

/-- `is_ssl_format`. -/
def isSslFormat (content : Text) : Bool :=
  !content.isEmpty &&
    ((content.head? == some 91 && (cutAt (utf8 "]") content).isSome) ||
      (utf8 "[LEARN]").isPrefixOf content || (utf8 "[ε]").isPrefixOf content ||
      (cutAt (utf8 "→") content).isSome ||
      -- SSL v0.4 annotates the granularity.
      ["G:0", "G:1", "G:2", "G:3", "G:4"].any fun granularity =>
        (cutAt (utf8 (" " ++ granularity)) content).isSome)

/-- The longest heading in bytes. -/
def headingBytes : Nat := 80

/-- The location behind a heading. -/
def placed (location : Text) : Text :=
  if location.isEmpty then [] else utf8 " @" ++ location

/-- `to_ssl_format`. -/
def toSslFormat (content domain location : Text) : Text :=
  if isSslFormat content then content
  else
    let result := utf8 "[" ++ domain ++ utf8 "] "
    let line := content.idxOf newline
    if line < content.length ∧ line < headingBytes then
      result ++ content.take line ++ placed location ++ [newline] ++ content.drop (line + 1)
    else if headingBytes < content.length then
      result ++ content.take headingBytes ++ utf8 "..." ++ placed location ++ [newline] ++ content
    else result ++ content ++ placed location

/-- A text is inside of another: in one piece, or as its first line and the remainder. -/
def Keeps (content result : Text) : Prop :=
  content <:+: result ∨
    ∃ line remainder before between, content = line ++ newline :: remainder ∧ newline ∉ line ∧
      result = before ++ line ++ between ++ newline :: remainder

/-- What a memory's text is promised to be once it is wrapped. -/
structure Wrapped (content domain location : Text) : Prop where
  /-- It is UTF-8. -/
  valid : Valid (toSslFormat content domain location)
  /-- It has all of the text. -/
  keeps : Keeps content (toSslFormat content domain location)
  /-- It is recognised. -/
  recognised : isSslFormat (toSslFormat content domain location) = true
  /-- It is not wrapped again. -/
  stable : ∀ otherDomain otherLocation,
    toSslFormat (toSslFormat content domain location) otherDomain otherLocation =
      toSslFormat content domain location

/-! ## The layouts -/

/-- The tag before a text. -/
def tag (domain : Text) : Text := utf8 "[" ++ domain ++ utf8 "] "

/-- A text that begins with a tag is recognised. -/
theorem isSslFormat_tag (domain rest : Text) : isSslFormat (tag domain ++ rest) = true := by
  have shape : tag domain ++ rest = 91 :: domain ++ (utf8 "]" ++ (utf8 " " ++ rest)) := by
    show (utf8 "[" ++ domain ++ utf8 "] ") ++ rest = _
    have bracket : utf8 "] " = utf8 "]" ++ utf8 " " := by decide
    have opening : utf8 "[" = [91] := by decide
    rw [bracket, opening]
    simp
  have closed := cutAt_isSome (utf8 "]") (91 :: domain) (utf8 " " ++ rest)
  rw [isSslFormat, shape, closed]
  simp

/-- The ways in which a text is wrapped. -/
theorem toSslFormat_cases (content domain location : Text) :
    (isSslFormat content = true ∧ toSslFormat content domain location = content) ∨
    (∃ line remainder, content = line ++ newline :: remainder ∧ newline ∉ line ∧
      line.length < headingBytes ∧
      toSslFormat content domain location =
        tag domain ++ (line ++ placed location ++ newline :: remainder)) ∨
    (isSslFormat content = false ∧ newline ∉ content.take headingBytes ∧
      headingBytes < content.length ∧
      toSslFormat content domain location =
        tag domain ++ (content.take headingBytes ++ utf8 "..." ++ placed location ++
          newline :: content)) ∨
    (content.length ≤ headingBytes ∧
      toSslFormat content domain location = tag domain ++ (content ++ placed location)) := by
  cases ssl : isSslFormat content with
  | true => exact .inl ⟨rfl, by simp [toSslFormat, ssl]⟩
  | false =>
    right
    by_cases early : content.idxOf newline < content.length ∧ content.idxOf newline < headingBytes
    · left
      obtain ⟨line, remainder, whole, absent⟩ :=
        List.eq_append_cons_of_mem (List.idxOf_lt_length_iff.mp early.1)
      have first : content.idxOf newline = line.length := by
        rw [whole, List.idxOf_append, if_neg absent, List.idxOf_cons_self, Nat.zero_add]
      rw [first] at early
      refine ⟨line, remainder, whole, absent, early.2, ?_⟩
      simp only [toSslFormat, ssl, Bool.false_eq_true, ↓reduceIte, first, if_pos early, tag]
      simp [whole]
    · right
      have absent : newline ∉ content.take headingBytes := by
        intro inside
        have bound := List.idxOf_lt_length_of_mem inside
        have same : content.idxOf newline = (content.take headingBytes).idxOf newline := by
          have parts := List.take_append_drop headingBytes content
          calc content.idxOf newline
              = (content.take headingBytes ++ content.drop headingBytes).idxOf newline := by
                rw [parts]
            _ = (content.take headingBytes).idxOf newline := by
                rw [List.idxOf_append, if_pos inside]
        have shorter := List.length_take_le headingBytes content
        rw [List.length_take] at bound
        omega
      by_cases long : headingBytes < content.length
      · left
        refine ⟨rfl, absent, long, ?_⟩
        simp only [toSslFormat, ssl, Bool.false_eq_true, ↓reduceIte, if_neg early, if_pos long, tag]
        simp
      · right
        refine ⟨Nat.not_lt.mp long, ?_⟩
        simp only [toSslFormat, ssl, Bool.false_eq_true, ↓reduceIte, if_neg early, if_neg long, tag]
        simp

/-! ## Encoding -/

theorem valid_tag {domain : Text} (valid : Valid domain) : Valid (tag domain) :=
  ((valid_utf8 "[").append valid).append (valid_utf8 "] ")

theorem valid_placed {location : Text} (valid : Valid location) : Valid (placed location) := by
  rw [placed]
  split
  · exact .nil
  · exact (valid_utf8 " @").append valid

/-- A heading that is cut at byte 80 is UTF-8 exactly when a character starts there. -/
theorem valid_heading {content domain location : Text} (valid : Valid content)
    (named : Valid domain) (somewhere : Valid location) :
    Valid (tag domain ++ (content.take headingBytes ++ utf8 "..." ++ placed location ++
      newline :: content)) ↔ Starts (content.drop headingBytes) := by
  have parts : Valid (content.take headingBytes ++ content.drop headingBytes) := by
    rwa [List.take_append_drop]
  have behind : Valid (utf8 "..." ++ (placed location ++ newline :: content)) :=
    (valid_utf8 "...").append ((valid_placed somewhere).append (valid.cons (by decide)))
  rw [← parts.cut_iff, List.append_assoc, List.append_assoc]
  constructor
  · intro whole
    have heading := whole.rest (valid_tag named)
    exact (heading.cut (by simpa using behind.starts starts_nil)).1
  · intro heading
    exact (valid_tag named).append (heading.append behind)

/-- What is wrapped is promised its encoding alone: the rest holds of every text. -/
theorem wrapped_iff_valid (content domain location : Text) :
    Wrapped content domain location ↔ Valid (toSslFormat content domain location) := by
  refine ⟨Wrapped.valid, fun valid => ?_⟩
  have recognised : isSslFormat (toSslFormat content domain location) = true := by
    rcases toSslFormat_cases content domain location with
      ⟨ssl, same⟩ | ⟨_, _, _, _, _, same⟩ | ⟨_, _, _, same⟩ | ⟨_, same⟩
    · rwa [same]
    all_goals
      rw [same]
      exact isSslFormat_tag _ _
  refine ⟨valid, ?_, recognised, fun _ _ => by rw [toSslFormat, if_pos recognised]⟩
  rcases toSslFormat_cases content domain location with
    ⟨_, same⟩ | ⟨line, remainder, whole, absent, _, same⟩ | ⟨_, _, _, same⟩ | ⟨_, same⟩
  · left
    exact ⟨[], [], by rw [same, List.nil_append, List.append_nil]⟩
  · right
    refine ⟨line, remainder, tag domain, placed location, whole, absent, ?_⟩
    rw [same]
    simp
  · left
    refine ⟨tag domain ++ (content.take headingBytes ++ utf8 "..." ++ placed location ++ [newline]),
      [], ?_⟩
    rw [same]
    simp
  · left
    refine ⟨tag domain, placed location, ?_⟩
    rw [same]
    simp

/-- A text keeps its promise unless a long heading ends inside of a character. -/
theorem wrapped_iff_starts {content domain location : Text} (valid : Valid content)
    (named : Valid domain) (somewhere : Valid location) :
    Wrapped content domain location ↔
      isSslFormat content = true ∨ newline ∈ content.take headingBytes ∨
        Starts (content.drop headingBytes) := by
  rw [wrapped_iff_valid]
  rcases toSslFormat_cases content domain location with
    ⟨ssl, same⟩ | ⟨line, remainder, whole, absent, early, same⟩ | ⟨other, absent, _, same⟩ |
      ⟨short, same⟩
  · rw [same]
    exact iff_of_true valid (.inl ssl)
  · have inside : newline ∈ content.take headingBytes := by
      rw [whole, List.take_append]
      have more : headingBytes - line.length = headingBytes - line.length - 1 + 1 := by omega
      rw [more, List.take_succ_cons]
      simp
    rw [whole] at valid
    have pieces := valid.cut (.ascii (by decide))
    have remains := pieces.2.tail (by decide)
    refine iff_of_true ?_ (.inr (.inl inside))
    rw [same]
    exact (valid_tag named).append
      ((pieces.1.append (valid_placed somewhere)).append (remains.cons (by decide)))
  · rw [same, valid_heading valid named somewhere]
    simp [other, absent]
  · refine iff_of_true ?_ (.inr (.inr ?_))
    · rw [same]
      exact (valid_tag named).append (valid.append (valid_placed somewhere))
    · rw [List.drop_eq_nil_of_le short]
      exact starts_nil

/-- A memory's text is UTF-8, keeps its content and is wrapped once, exactly when it has an SSL
form or an early line break, or no character reaches over byte 80. -/
theorem wrapped_iff (content domain location : String) :
    Wrapped (utf8 content) (utf8 domain) (utf8 location) ↔
      isSslFormat (utf8 content) = true ∨ newline ∈ (utf8 content).take headingBytes ∨
        Starts ((utf8 content).drop headingBytes) :=
  wrapped_iff_starts (valid_utf8 content) (valid_utf8 domain) (valid_utf8 location)

/-- A letter of two bytes that begins at byte 79 of a long text is cut. -/
theorem heading_cut :
    ¬ Wrapped (utf8 (String.ofList (List.replicate 79 'a' ++ ['é']))) (utf8 "note") (utf8 "") := by
  rw [wrapped_iff_starts (valid_utf8 _) (valid_utf8 _) (valid_utf8 _)]
  have bytes : utf8 (String.ofList (List.replicate 79 'a' ++ ['é'])) =
      List.replicate 79 97 ++ [195, 169] := by
    decide
  have inside : ¬ Starts [(169 : UInt8)] := fun starts => absurd (starts 169 rfl) (by decide)
  have rest : (List.replicate 79 (97 : UInt8) ++ [195, 169]).drop headingBytes = [169] := by
    decide
  rw [bytes, rest]
  rintro (ssl | early | starts)
  · exact absurd ssl (by decide)
  · exact absurd early (by decide)
  · exact inside starts

end Chitta.Ssl
