import Mathlib.Data.List.Basic
import Chitta.Transcript.Parser

/-!
# Parsing a transcript that grows

A transcript is parsed again and again while it grows, each time from the last line of the parse
before. The last line counts lines, and a line that is still being written counts as one: when it is
finished, the next parse passes over it. The turns are those of one parse exactly when the finished
lines say what the unfinished ones said.
-/
namespace Chitta.Transcript

open Lines (complete unfinished)

/-- The turns of parses of the contents of a file, one after the other, each from the last line of
the one before. -/
def readParts (parseJson : Bytes → Option Json) (path : String) (options : ParseOptions) :
    List Bytes → Int → List Turn
  | [], _ => []
  | file :: later, skip =>
    let parsed := parse parseJson path (some file) { options with skipLines := skip }
    parsed.turns ++ readParts parseJson path options later (parsed.lastLine.getD 0)

/-- The turns of one parse of all lines. -/
def readWhole (parseJson : Bytes → Option Json) (path : String) (options : ParseOptions)
    (file : Bytes) : List Turn :=
  (parse parseJson path (some file) { options with skipLines := 0, maxLines := 0 }).turns

/-- Turns of several parses as those of one: each parse counts its turns from zero. -/
def renumber (turns : List Turn) : List Turn := numbered 0 (turns.map Turn.told)

/-- Finishing the lines of a file changes no turn: whenever a parse reads an unfinished line, it
gives the turn, or none, that the finished line gives; and the lines that no parse reached give no
turn. -/
def Kept (parseJson : Bytes → Option Json) (options : ParseOptions) (whole : List Bytes) :
    List Bytes → Nat → Prop
  | [], skip => ∀ line ∈ whole.drop skip, turnOf parseJson options.toContentOptions line = none
  | file :: later, skip =>
    let stop := windowEnd options.maxLines skip (linesOf file).length
    let last := (complete newline file).length
    (skip ≤ last → last < stop → ∀ line ∈ whole[last]?,
        turnOf parseJson options.toContentOptions (unfinished newline file) =
          turnOf parseJson options.toContentOptions line) ∧
      Kept parseJson options whole later stop

instance Kept.decidable (parseJson : Bytes → Option Json) (options : ParseOptions)
    (whole : List Bytes) : ∀ contents skip, Decidable (Kept parseJson options whole contents skip)
  | [], skip => inferInstanceAs
    (Decidable (∀ line ∈ whole.drop skip, turnOf parseJson options.toContentOptions line = none))
  | _ :: later, _ =>
    have := Kept.decidable parseJson options whole later
    inferInstanceAs (Decidable (_ ∧ _))

variable {parseJson : Bytes → Option Json} {content : ContentOptions} {options : ParseOptions}

/-! ## What windows tell -/

/-- A window tells nothing when its lines have no turns. -/
theorem tell_eq_nil {start : Nat} {lines : List Bytes} :
    tell parseJson content start lines = [] ↔
      ∀ line ∈ lines, turnOf parseJson content line = none := by
  induction lines generalizing start with
  | nil => simp [tell]
  | cons line rest ih =>
    rw [tell]
    cases found : turnOf parseJson content line with
    | none => simp [ih, found]
    | some turn => simp [found]

/-- Windows of one size tell the same when their lines have the same turns. -/
theorem tell_eq_tell {start : Nat} {first second : List Bytes}
    (size : first.length = second.length) :
    tell parseJson content start first = tell parseJson content start second ↔
      first.map (turnOf parseJson content) = second.map (turnOf parseJson content) := by
  induction first generalizing start second with
  | nil =>
    have empty : second = [] := List.length_eq_zero_iff.mp size.symm
    simp [empty]
  | cons line rest ih =>
    cases second with
    | nil => contradiction
    | cons other others =>
      have inner := @ih (start + 1) others (Nat.succ.inj size)
      -- What the later lines tell has greater numbers than what this line tells.
      have later : ∀ (told : Told) (lines : List Bytes), told.lineNumber = (start : Int) + 1 →
          ∀ more, tell parseJson content (start + 1) lines ≠ told :: more := by
        intro told lines number more same
        have member : told ∈ tell parseJson content (start + 1) lines := by
          rw [same]
          exact List.mem_cons_self
        have bound := (lineNumber_of_mem member).1
        omega
      rw [tell, tell, List.map_cons, List.map_cons, List.cons.injEq, ← inner]
      cases own : turnOf parseJson content line with
      | none =>
        cases its : turnOf parseJson content other with
        | none => simp
        | some turn => simp [later ⟨turn.1, turn.2, start + 1⟩ rest rfl]
      | some turn =>
        cases its : turnOf parseJson content other with
        | none => simp [Ne.symm (later ⟨turn.1, turn.2, start + 1⟩ others rfl _)]
        | some told =>
          obtain ⟨role, content⟩ := turn
          obtain ⟨role', content'⟩ := told
          simp

/-- What two pairs of windows tell is compared window by window. -/
theorem parts_inj {stop : Int} {first second first' second' : List Told}
    (below : ∀ told ∈ first, told.lineNumber ≤ stop)
    (below' : ∀ told ∈ first', told.lineNumber ≤ stop)
    (above : ∀ told ∈ second, stop < told.lineNumber)
    (above' : ∀ told ∈ second', stop < told.lineNumber) :
    first ++ second = first' ++ second' ↔ first = first' ∧ second = second' := by
  constructor
  · intro same
    have left : ∀ front back : List Told, (∀ told ∈ front, told.lineNumber ≤ stop) →
        (∀ told ∈ back, stop < told.lineNumber) →
        (front ++ back).filter (·.lineNumber ≤ stop) = front := by
      intro front back low high
      rw [List.filter_append, List.filter_eq_self.mpr (by simpa using low),
        List.filter_eq_nil_iff.mpr (by simpa using high), List.append_nil]
    have front : first = first' := by
      rw [← left first second below above, ← left first' second' below' above', same]
    rw [front] at same
    exact ⟨front, List.append_cancel_left same⟩
  · rintro ⟨rfl, rfl⟩
    rfl

/-- The window of a parse ends within the file. -/
theorem windowEnd_le {maxLines : Int} {skip count : Nat} :
    windowEnd maxLines skip count ≤ count := by
  rw [windowEnd]
  split <;> omega

/-- The window of a parse does not end before it begins. -/
theorem le_windowEnd {maxLines : Int} {skip count : Nat} (within : skip ≤ count) :
    skip ≤ windowEnd maxLines skip count := by
  rw [windowEnd]
  split <;> omega

/-- The turns of the parts are numbered by the lines behind the first. -/
theorem lineNumber_of_parts {path : String} {contents : List Bytes} {skip : Nat}
    (fits : ∀ file ∈ contents, skip ≤ (linesOf file).length)
    (grows : contents.Pairwise (· <+: ·)) {turn : Turn}
    (inside : turn ∈ readParts parseJson path options contents skip) :
    (skip : Int) < turn.told.lineNumber := by
  induction contents generalizing skip with
  | nil => cases inside
  | cons file later ih =>
    obtain ⟨extends_, grows⟩ := List.pairwise_cons.mp grows
    have within := fits file List.mem_cons_self
    rw [readParts, parse_eq parseJson path file rfl within] at inside
    rcases List.mem_append.mp inside with here | there
    · have told := List.mem_map_of_mem (f := Turn.told) here
      rw [told_numbered] at told
      exact (lineNumber_of_mem told).1
    · have stop := @le_windowEnd options.maxLines skip (linesOf file).length within
      have fits' : ∀ next ∈ later,
          windowEnd options.maxLines skip (linesOf file).length ≤ (linesOf next).length := by
        intro next member
        obtain ⟨more, rfl⟩ := extends_ next member
        exact Nat.le_trans windowEnd_le (Lines.length_lines_le file more)
      have bound := ih fits' grows there
      omega

/-! ## Unfinished lines -/

/-- The lines of a file are the complete ones and the unfinished one. -/
theorem getElem_linesOf (file : Bytes) {place : Nat} (inside : place < (linesOf file).length) :
    (linesOf file)[place]? =
      if place < (complete newline file).length then (complete newline file)[place]?
      else some (unfinished newline file) := by
  have parts := @Lines.lines_eq _ _ newline file
  rw [← linesOf] at parts
  rw [parts] at inside ⊢
  by_cases early : place < (complete newline file).length
  · rw [if_pos early, List.getElem?_append_left early]
  · rw [if_neg early]
    split at inside
    · rw [List.append_nil] at inside
      exact absurd inside early
    · rename_i some_item
      rw [List.length_append, List.length_singleton] at inside
      have there : place - (complete newline file).length = 0 := by omega
      rw [if_neg some_item, List.getElem?_append_right (Nat.le_of_not_lt early), there]
      rfl

/-- The complete lines of a file are there when it has grown. -/
theorem getElem_grown (file more : Bytes) {place : Nat}
    (early : place < (complete newline file).length) :
    (linesOf (file ++ more))[place]? = (complete newline file)[place]? := by
  rw [linesOf, Lines.lines_append, List.getElem?_append_left early]

/-- A place in a window. -/
theorem getElem_window (lines : List Bytes) (skip stop place : Nat) :
    ((lines.drop skip).take (stop - skip))[place]? =
      if skip + place < stop then lines[skip + place]? else none := by
  rw [List.getElem?_take]
  by_cases inside : skip + place < stop
  · have shifted : place < stop - skip := by omega
    rw [if_pos inside, if_pos shifted, List.getElem?_drop]
  · have shifted : ¬place < stop - skip := by omega
    rw [if_neg inside, if_neg shifted]

/-- The lines of a window give the same turns when the file has grown, but for the unfinished
line. -/
theorem window_kept (file more : Bytes) {skip stop : Nat}
    (within : stop ≤ (linesOf file).length) :
    ((linesOf file).drop skip |>.take (stop - skip)).map (turnOf parseJson content) =
        ((linesOf (file ++ more)).drop skip |>.take (stop - skip)).map (turnOf parseJson content) ↔
      (skip ≤ (complete newline file).length → (complete newline file).length < stop →
        ∀ line ∈ (linesOf (file ++ more))[(complete newline file).length]?,
          turnOf parseJson content (unfinished newline file) = turnOf parseJson content line) := by
  have grown := @Lines.length_lines_le _ _ newline file more
  rw [← linesOf, ← linesOf] at grown
  constructor
  · intro same behind reached line found
    have place := congrArg (·[(complete newline file).length - skip]?) same
    have there : skip + ((complete newline file).length - skip) =
        (complete newline file).length := by omega
    have own := getElem_linesOf file (Nat.lt_of_lt_of_le reached within)
    rw [if_neg (Nat.lt_irrefl _)] at own
    simp only [List.getElem?_map, getElem_window, there, if_pos reached, own] at place
    rw [Option.mem_def.mp found] at place
    exact Option.some.inj place
  · intro kept
    apply List.ext_getElem?
    intro place
    rw [List.getElem?_map, List.getElem?_map, getElem_window, getElem_window]
    by_cases inside : skip + place < stop
    · have own := getElem_linesOf file (Nat.lt_of_lt_of_le inside within)
      rw [if_pos inside, if_pos inside, own]
      by_cases early : skip + place < (complete newline file).length
      · rw [if_pos early, getElem_grown file more early]
      · have count : skip + place = (complete newline file).length := by
          have parts := congrArg List.length (@Lines.lines_eq _ _ newline file)
          rw [← linesOf, List.length_append] at parts
          split at parts
          · rw [List.length_nil] at parts
            omega
          · rw [List.length_singleton] at parts
            omega
        obtain ⟨line, found⟩ : ∃ line, (linesOf (file ++ more))[skip + place]? = some line :=
          ⟨_, List.getElem?_eq_getElem (by omega)⟩
        rw [if_neg early, found]
        rw [count] at found inside
        have same := kept (by omega) inside line (Option.mem_def.mpr found)
        rw [Option.map_some, Option.map_some, same]
    · rw [if_neg inside, if_neg inside]

/-! ## Parts and whole -/

/-- What the parts tell is what the whole tells exactly when the lines are kept. -/
theorem told_parts {path : String} {contents : List Bytes} {whole : Bytes} {skip : Nat}
    (reaches : ∀ file ∈ contents, file <+: whole) (grows : contents.Pairwise (· <+: ·))
    (fits : ∀ file ∈ contents, skip ≤ (linesOf file).length)
    (within : skip ≤ (linesOf whole).length) :
    (readParts parseJson path options contents skip).map Turn.told =
        tell parseJson options.toContentOptions skip ((linesOf whole).drop skip) ↔
      Kept parseJson options (linesOf whole) contents skip := by
  induction contents generalizing skip with
  | nil =>
    rw [readParts, List.map_nil, eq_comm, tell_eq_nil]
    rfl
  | cons file later ih =>
    obtain ⟨extends_, growing⟩ := List.pairwise_cons.mp grows
    obtain ⟨more, rfl⟩ := reaches file List.mem_cons_self
    have own := fits file List.mem_cons_self
    obtain ⟨stop, ends⟩ : ∃ stop, stop = windowEnd options.maxLines skip (linesOf file).length :=
      ⟨_, rfl⟩
    have upper : stop ≤ (linesOf file).length := ends ▸ windowEnd_le
    have lower : skip ≤ stop := ends ▸ le_windowEnd own
    have longer : (linesOf file).length ≤ (linesOf (file ++ more)).length :=
      Lines.length_lines_le file more
    have fits' : ∀ next ∈ later, stop ≤ (linesOf next).length := by
      intro next member
      obtain ⟨added, rfl⟩ := extends_ next member
      exact Nat.le_trans upper (Lines.length_lines_le file added)
    have inner := @ih stop (fun next member => reaches next (List.mem_cons_of_mem _ member)) growing
      fits' (Nat.le_trans upper longer)
    -- The whole is told in two parts, up to the end of this window and behind it.
    have size :
        ((linesOf (file ++ more)).drop skip |>.take (stop - skip)).length = stop - skip := by
      rw [List.length_take, List.length_drop]
      omega
    have split : tell parseJson options.toContentOptions skip ((linesOf (file ++ more)).drop skip) =
        tell parseJson options.toContentOptions skip
          ((linesOf (file ++ more)).drop skip |>.take (stop - skip)) ++
          tell parseJson options.toContentOptions stop ((linesOf (file ++ more)).drop stop) := by
      have halves := @tell_append parseJson options.toContentOptions skip
        ((linesOf (file ++ more)).drop skip |>.take (stop - skip))
        ((linesOf (file ++ more)).drop skip |>.drop (stop - skip))
      rw [List.take_append_drop, List.drop_drop, size] at halves
      have reached : skip + (stop - skip) = stop := by omega
      rw [reached] at halves
      exact halves
    have ownSize : ((linesOf file).drop skip |>.take (stop - skip)).length = stop - skip := by
      rw [List.length_take, List.length_drop]
      omega
    have upTo : ∀ lines : List Bytes, lines.length = stop - skip →
        ∀ told ∈ tell parseJson options.toContentOptions skip lines, told.lineNumber ≤ stop := by
      intro lines length told member
      have bound := (lineNumber_of_mem member).2
      omega
    have beyond : ∀ told ∈ (readParts parseJson path options later stop).map Turn.told,
        (stop : Int) < told.lineNumber := by
      intro told member
      obtain ⟨turn, inside, rfl⟩ := List.mem_map.mp member
      exact lineNumber_of_parts fits' growing inside
    rw [readParts, parse_eq parseJson path file rfl own]
    simp only [← ends, Option.getD_some, List.map_append, told_numbered]
    rw [split, parts_inj (upTo _ ownSize) (upTo _ size) beyond
      (fun told member => (lineNumber_of_mem member).1), inner,
      tell_eq_tell (ownSize.trans size.symm), window_kept file more upper, Kept]
    simp only [← ends]

/-- The turns of parses of a growing file are those of one parse of its last content exactly when
finishing its lines changes no turn. -/
theorem parts_eq_whole (parseJson : Bytes → Option Json) (path : String) (options : ParseOptions)
    (contents : List Bytes) (whole : Bytes) (last : contents.getLast? = some whole)
    (grows : contents.IsChain (· <+: ·)) :
    renumber (readParts parseJson path options contents 0) =
        readWhole parseJson path options whole ↔
      Kept parseJson options (linesOf whole) contents 0 := by
  have transitive : IsTrans Bytes (· <+: ·) := ⟨fun _ _ _ => List.IsPrefix.trans⟩
  have growing : contents.Pairwise (· <+: ·) := List.isChain_iff_pairwise.mp grows
  have reaches : ∀ file ∈ contents, file <+: whole := by
    obtain ⟨before, rfl⟩ := List.getLast?_eq_some_iff.mp last
    intro file inside
    rcases List.mem_append.mp inside with early | here
    · exact (List.pairwise_append.mp growing).2.2 file early whole List.mem_cons_self
    · obtain rfl := List.mem_singleton.mp here
      exact List.prefix_rfl
  have told := @told_parts parseJson options path contents whole 0 reaches growing
    (fun _ _ => Nat.zero_le _) (Nat.zero_le _)
  have once : readWhole parseJson path options whole =
      numbered 0 (tell parseJson options.toContentOptions 0 (linesOf whole)) := by
    rw [readWhole, parse_eq parseJson path whole rfl (Nat.zero_le _)]
    simp [windowEnd]
  rw [once, ← told, renumber, List.drop_zero]
  constructor
  · intro same
    have tolds := congrArg (List.map Turn.told) same
    rwa [told_numbered, told_numbered] at tolds
  · intro same
    exact congrArg (numbered 0) same

/-- A line of a user. -/
def plainLine : Bytes := bytesOf "\x7b\"type\":\"user\",\"message\":\x7b\"content\":\"hi\"\x7d\x7d"

/-- A reader of that line. -/
def plainJson (line : Bytes) : Option Json :=
  if line = plainLine then
    some (.object [("type", .str "user"), ("message", .object [("content", .str "hi")])])
  else none

/-- The file cut behind the first byte of the line, and with the line finished. -/
def plainContents : List Bytes := [plainLine.take 1, plainLine ++ [newline]]

/-- The line, twice. -/
def plainTwice : Bytes := plainLine ++ newline :: (plainLine ++ [newline])

/-- The turns are kept when the file is cut behind a line. -/
theorem parts_eq_whole_lines :
    renumber (readParts plainJson "t" {} [plainLine ++ [newline], plainTwice] 0) =
      readWhole plainJson "t" {} plainTwice := by
  have grows : List.IsChain (· <+: ·) [plainLine ++ [newline], plainTwice] := by
    simp [plainTwice]
  have kept : Kept plainJson {} (linesOf plainTwice) [plainLine ++ [newline], plainTwice] 0 := by
    decide +kernel
  exact (parts_eq_whole plainJson "t" {} [plainLine ++ [newline], plainTwice] plainTwice rfl
    grows).mpr kept

/-- A line that is cut gives no turn, and none when it is finished: its turn is lost. -/
theorem parts_lose_turn :
    plainContents.IsChain (· <+: ·) ∧ plainContents.getLast? = some (plainLine ++ [newline]) ∧
      renumber (readParts plainJson "t" {} plainContents 0) ≠
        readWhole plainJson "t" {} (plainLine ++ [newline]) := by
  refine ⟨?_, rfl, ?_⟩
  · have start : plainLine.take 1 <+: plainLine ++ [newline] :=
      (List.take_prefix 1 plainLine).trans (List.prefix_append _ _)
    simpa [plainContents] using start
  · decide +kernel

end Chitta.Transcript
