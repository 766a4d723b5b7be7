import Chitta.Files
import Chitta.Hooks.SocketPath

/-!
# The runtime directory of the daemon and of the hooks

With `CHITTA_RUNTIME_LOCAL=1` the queue, the markers and the ledger tail of a mind lie in a
directory named by the hash of its canonical path. `lib.sh` canonicalises with `realpath -m` and
hashes in signed arithmetic, `queue_path.hpp` with `weakly_canonical` and unsigned. The shell reads
the output of a command without the line breaks at its end.
-/
namespace Chitta.Hooks

open Bytes Files

/-- The variables that both programs see. -/
structure RuntimeEnvironment where
  /-- `CHITTA_RUNTIME_LOCAL`. -/
  chittaRuntimeLocal : Option Text
  /-- `XDG_RUNTIME_DIR`. -/
  xdgRuntimeDir : Option Text
  /-- `MIND_PATH`. -/
  mindPath : Option Text
  /-- `CHITTA_DB_PATH`. -/
  chittaDbPath : Option Text
  /-- `HOME`. -/
  home : Option Text
  /-- `CHITTA_QUEUE`. -/
  chittaQueue : Option Text
  /-- `CHITTA_QUEUE_PATH`. -/
  chittaQueuePath : Option Text

/-- A hexadecimal digit. -/
def hexDigit (digit : Nat) : UInt8 :=
  if digit < 10 then UInt8.ofNat (48 + digit) else UInt8.ofNat (87 + digit)

/-- The last hexadecimal digits of a number. -/
def hexDigits : Nat → Nat → Text
  | 0, _ => []
  | count + 1, number => hexDigits count (number / 16) ++ [hexDigit (number % 16)]

/-! ## `queue_path.hpp` -/

/-- `runtime_local_enabled`. -/
def runtimeLocalEnabled (env : RuntimeEnvironment) : Bool :=
  env.chittaRuntimeLocal == some (utf8 "1")

/-- The hash of `runtime_state_dir` of the daemon. -/
def daemonHash (canonical : Text) : UInt64 :=
  canonical.foldl (fun hash byte => hash * 33 + byte.toUInt64) 5381

/-- `operator/` with a relative name. -/
def joinPath (path name : Text) : Text :=
  if path = [] ∨ path.getLast? = some 47 then path ++ name else path ++ utf8 "/" ++ name

/-- `xdg && *xdg ? xdg : "/tmp"`. -/
def runtimeRoot (env : RuntimeEnvironment) : Text :=
  match env.xdgRuntimeDir with
  | some xdg => if xdg ≠ [] then xdg else utf8 "/tmp"
  | none => utf8 "/tmp"

/-- `runtime_state_dir` of the daemon. -/
def runtimeStateDir (fs : FileSystem) (env : RuntimeEnvironment) (mind : Text) : Option Text :=
  if runtimeLocalEnabled env then
    (fs.weaklyCanonical mind).map fun canonical =>
      joinPath (joinPath (runtimeRoot env) (utf8 "chitta"))
        (hexDigits 16 (daemonHash canonical).toNat)
  else some mind

/-- A variable that is set and not empty. -/
def filled (variable_ : Option Text) : Option Text := variable_.filter fun value => !value.isEmpty

/-- `queue_path_for_mind`. -/
def queuePathForMind (fs : FileSystem) (env : RuntimeEnvironment) (mind : Text) : Option Text :=
  match (filled env.chittaQueue).or (filled env.chittaQueuePath) with
  | some value => some value
  | none => (runtimeStateDir fs env mind).map fun dir => joinPath dir (utf8 "queue.jsonl")

/-! ## `lib.sh` -/

/-- `$(...)`: the output of a command without the line breaks at its end. -/
def substituted (output : Text) : Text := (output.reverse.dropWhile (· == newline)).reverse

/-- `${variable:-other}`. -/
def orElse (variable_ : Option Text) (other : Text) : Text :=
  if expand variable_ ≠ [] then expand variable_ else other

/-- The loop of `runtime_state_dir` of the hooks. -/
def shellHash (canonical : Text) : Int64 :=
  canonical.foldl (fun hash byte => hash * 33 + byte.toUInt64.toInt64) 5381

/-- `canonical` of `runtime_state_dir` of the hooks. -/
def shellCanonical (fs : FileSystem) (mind : Text) : Option Text :=
  (fs.realpathMissing mind).map fun real => substituted (real ++ [newline])

/-- What `runtime_state_dir` of the hooks prints. -/
def printRuntimeStateDir (fs : FileSystem) (env : RuntimeEnvironment) (argument : Text) :
    Option Text :=
  let mind := if argument ≠ [] then argument
    else orElse env.mindPath (orElse env.chittaDbPath (expand env.home ++ utf8 "/.claude/mind"))
  if orElse env.chittaRuntimeLocal (utf8 "0") ≠ utf8 "1" then some (mind ++ [newline])
  else
    (shellCanonical fs mind).map fun canonical =>
      orElse env.xdgRuntimeDir (utf8 "/tmp") ++ utf8 "/chitta/" ++
        hexDigits 16 (shellHash canonical).toUInt64.toNat ++ [newline]

/-- `$(runtime_state_dir "$mind")`. -/
def shellRuntimeStateDir (fs : FileSystem) (env : RuntimeEnvironment) (mind : Text) :
    Option Text :=
  (printRuntimeStateDir fs env mind).map substituted

/-- `get_queue_file` for this mind path, as its callers read it. -/
def getQueueFile (fs : FileSystem) (env : RuntimeEnvironment) (mind : Text) : Option Text :=
  (shellRuntimeStateDir fs env mind).map fun dir =>
    let own := (if dir.getLast? = some 47 then dir.dropLast else dir) ++ utf8 "/queue.jsonl"
    substituted (orElse env.chittaQueue (orElse env.chittaQueuePath own) ++ [newline])

/-! ## Repeated slashes -/

/-- A path without repeated slashes. -/
def squeeze (path : Text) : Text :=
  path.foldr (fun byte rest => if byte = 47 ∧ rest.head? = some 47 then rest else byte :: rest) []

/-- Two paths denote the same place up to repeated slashes. -/
def Same (first second : Option Text) : Prop :=
  ∃ one other, first = some one ∧ second = some other ∧ squeeze one = squeeze other

/-- A slash in front of a slash is left out. -/
theorem squeeze_cons (byte : UInt8) (rest : Text) :
    squeeze (byte :: rest) =
      if byte = 47 ∧ (squeeze rest).head? = some 47 then squeeze rest else byte :: squeeze rest :=
  rfl

/-- A path that begins with a slash still does. -/
theorem head_squeeze (rest : Text) : (squeeze (47 :: rest)).head? = some 47 := by
  rw [squeeze_cons]
  split
  · rename_i both
    exact both.2
  · rfl

/-- A repeated slash counts once. -/
theorem squeeze_slashes (front rest : Text) :
    squeeze (front ++ 47 :: 47 :: rest) = squeeze (front ++ 47 :: rest) := by
  have here : squeeze (47 :: 47 :: rest) = squeeze (47 :: rest) := by
    rw [squeeze_cons 47 (47 :: rest), if_pos ⟨rfl, head_squeeze rest⟩]
  unfold squeeze at here ⊢
  rw [List.foldr_append, List.foldr_append, here]

/-- A name behind a path stays. -/
theorem squeeze_name {name : Text} (plain : 47 ∉ name) (front : Text) :
    squeeze (front ++ name) = squeeze front ++ name := by
  have alone : ∀ name : Text, 47 ∉ name → squeeze name = name := by
    intro name
    induction name with
    | nil => exact fun _ => rfl
    | cons byte rest ih =>
      intro plain
      rw [List.mem_cons, not_or] at plain
      rw [squeeze_cons, if_neg fun both => plain.1 both.1.symm, ih plain.2]
  induction front with
  | nil => exact alone name plain
  | cons byte rest ih =>
    have heads : (squeeze rest ++ name).head? = some 47 ↔ (squeeze rest).head? = some 47 := by
      cases squeeze rest with
      | nil =>
        constructor
        · intro slash
          exact absurd (List.mem_of_head? slash) plain
        · intro never
          contradiction
      | cons first more => exact Iff.rfl
    rw [List.cons_append, squeeze_cons, squeeze_cons, ih]
    by_cases again : byte = 47 ∧ (squeeze rest).head? = some 47
    · rw [if_pos again, if_pos ⟨again.1, heads.mpr again.2⟩]
    · rw [if_neg again, if_neg fun both => again ⟨both.1, heads.mp both.2⟩, List.cons_append]

/-- The line breaks of a path stay. -/
theorem count_squeeze (path : Text) : (squeeze path).count newline = path.count newline := by
  induction path with
  | nil => rfl
  | cons byte rest ih =>
    rw [squeeze_cons]
    split
    · rename_i both
      have other : byte ≠ newline := by
        rw [both.1]
        decide
      rw [ih, List.count_cons_of_ne other]
    · rw [List.count_cons, List.count_cons, ih]

/-! ## Line breaks -/

/-- What a command prints before its last line break is read without line breaks at the end. -/
theorem substituted_break (text : Text) : substituted (text ++ [newline]) = substituted text := by
  unfold substituted
  rw [List.reverse_append, List.reverse_singleton, List.singleton_append, List.dropWhile_cons,
    if_pos (by decide)]

/-- A text keeps its end exactly when it ends in no line break. -/
theorem substituted_eq_iff (text : Text) :
    substituted text = text ↔ text.getLast? ≠ some newline := by
  have turned : substituted text = text ↔
      text.reverse.dropWhile (· == newline) = text.reverse := by
    rw [substituted]
    exact List.reverse_eq_iff
  rw [turned, ← List.head?_reverse]
  cases text.reverse with
  | nil => simp
  | cons last front =>
    rw [List.dropWhile_cons]
    constructor
    · intro same break_
      have here : last = newline := Option.some.inj break_
      rw [if_pos (by simpa using here)] at same
      have size := congrArg List.length same
      have shorter := (List.dropWhile_sublist (· == newline) (l := front)).length_le
      rw [List.length_cons] at size
      omega
    · intro other
      rw [if_neg]
      intro break_
      apply other
      rw [eq_of_beq break_]
      rfl

/-- A text that begins with something else still does. -/
theorem head_substituted {text : Text} {byte : UInt8} (first : text.head? = some byte)
    (other : byte ≠ newline) : (substituted text).head? = some byte := by
  cases text with
  | nil => contradiction
  | cons head rest =>
    obtain rfl := Option.some.inj first
    have kept : [head].dropWhile (· == newline) = [head] := by
      rw [List.dropWhile_cons, if_neg (by simpa using other)]
    unfold substituted
    rw [List.reverse_cons, List.dropWhile_append]
    split
    · rw [kept]
      rfl
    · rw [List.reverse_append]
      rfl

/-- Nothing is added to a text. -/
theorem length_substituted_le (text : Text) : (substituted text).length ≤ text.length := by
  have part := (List.dropWhile_sublist (· == newline) (l := text.reverse)).length_le
  rw [List.length_reverse] at part
  rw [substituted, List.length_reverse]
  exact part

/-! ## Hashes -/

/-- Signed and unsigned arithmetic return the same bits. -/
theorem shellHash_toUInt64 (canonical : Text) :
    (shellHash canonical).toUInt64 = daemonHash canonical := by
  have along : ∀ (text : Text) (hash : Int64),
      (text.foldl (fun hash byte => hash * 33 + byte.toUInt64.toInt64) hash).toUInt64 =
        text.foldl (fun hash byte => hash * 33 + byte.toUInt64) hash.toUInt64 := by
    intro text
    induction text with
    | nil => exact fun _ => rfl
    | cons byte rest ih =>
      intro hash
      rw [List.foldl_cons, List.foldl_cons, ih]
      rfl
  exact along canonical 5381

/-- The hash is the number of the bytes in base 33. -/
theorem daemonHash_modEq (canonical : Text) :
    (daemonHash canonical).toNat ≡ Horner.value 33 5381 (canonical.map UInt8.toNat)
      [MOD 2 ^ 64] := by
  have step (hash : UInt64) (byte : UInt8) : (hash * 33 + byte.toUInt64).toNat ≡
      33 * hash.toNat + byte.toNat [MOD 2 ^ 64] := by
    have base : (33 : UInt64).toNat = 33 := rfl
    rw [UInt64.toNat_add, UInt64.toNat_mul, UInt8.toNat_toUInt64, base]
    unfold Nat.ModEq
    omega
  exact Horner.run_modEq step 5381 canonical

/-- Two canonical paths have the same hash. -/
def SameHash (first second : Text) : Prop :=
  Horner.value 33 5381 (first.map UInt8.toNat) ≡
    Horner.value 33 5381 (second.map UInt8.toNat) [MOD 2 ^ 64]

/-- The hashes are the same when the numbers are congruent. -/
theorem daemonHash_eq_iff (first second : Text) :
    (daemonHash first).toNat = (daemonHash second).toNat ↔ SameHash first second := by
  have one := daemonHash_modEq first
  have other := daemonHash_modEq second
  constructor
  · intro same
    rw [same] at one
    exact one.symm.trans other
  · intro congruent
    have both := (one.trans congruent).trans other.symm
    exact both.eq_of_lt_of_lt (daemonHash first).toNat_lt (daemonHash second).toNat_lt

/-- A hexadecimal digit is neither a slash nor a line break, and it is the digit of one number. -/
theorem hexDigit_spec : ∀ digit < 16, hexDigit digit ≠ 47 ∧ hexDigit digit ≠ newline ∧
    ∀ other < 16, hexDigit digit = hexDigit other → digit = other := by
  decide

/-- Hexadecimal digits are no slashes and no line breaks. -/
theorem hexDigits_plain (count number : Nat) :
    ∀ byte ∈ hexDigits count number, byte ≠ 47 ∧ byte ≠ newline := by
  induction count generalizing number with
  | zero => simp [hexDigits]
  | succ count ih =>
    intro byte inside
    rcases List.mem_append.mp inside with front | last
    · exact ih (number / 16) byte front
    · obtain rfl := List.mem_singleton.mp last
      have own := hexDigit_spec (number % 16) (Nat.mod_lt number (by decide))
      exact ⟨own.1, own.2.1⟩

/-- Numbers with these digits are the same. -/
theorem hexDigits_inj (count : Nat) {first second : Nat} (small : first < 16 ^ count)
    (other : second < 16 ^ count) :
    hexDigits count first = hexDigits count second ↔ first = second := by
  constructor
  · induction count generalizing first second with
    | zero => omega
    | succ count ih =>
      intro same
      obtain ⟨front, last⟩ := List.append_inj' same rfl
      have high := ih (by omega) (by omega) front
      have digit := hexDigit_spec (first % 16) (Nat.mod_lt first (by decide))
      have low := digit.2.2 (second % 16) (Nat.mod_lt second (by decide))
        (List.singleton_inj.mp last)
      omega
  · intro same
    rw [same]

/-! ## Directories -/

/-- The variables are read alike. -/
theorem orElse_root (env : RuntimeEnvironment) :
    orElse env.xdgRuntimeDir (utf8 "/tmp") = runtimeRoot env := by
  unfold orElse runtimeRoot expand
  cases env.xdgRuntimeDir with
  | none => rfl
  | some xdg => rfl

/-- The root has a name. -/
theorem runtimeRoot_ne_nil (env : RuntimeEnvironment) : runtimeRoot env ≠ [] := by
  have tmp : utf8 "/tmp" ≠ [] := by decide
  unfold runtimeRoot
  split
  · split
    · assumption
    · exact tmp
  · exact tmp

/-- `1` and nothing else asks for the local directory. -/
theorem local_iff (env : RuntimeEnvironment) :
    orElse env.chittaRuntimeLocal (utf8 "0") = utf8 "1" ↔ runtimeLocalEnabled env = true := by
  have digits : utf8 "0" ≠ utf8 "1" ∧ utf8 "1" ≠ [] := by decide
  unfold orElse runtimeLocalEnabled expand
  cases env.chittaRuntimeLocal with
  | none => simp [digits.1]
  | some value =>
    by_cases empty : value = []
    · simp [empty, digits.1, digits.2]
    · simp [empty]

/-- The directory of a name under the root, up to repeated slashes. -/
def underRoot (env : RuntimeEnvironment) (name : Text) : Text :=
  squeeze (runtimeRoot env ++ utf8 "/chitta/") ++ name

/-- The two spellings of the directory denote the same place. -/
theorem squeeze_joinPath (env : RuntimeEnvironment) {name : Text} (plain : 47 ∉ name) :
    squeeze (joinPath (joinPath (runtimeRoot env) (utf8 "chitta")) name) = underRoot env name := by
  have bytes : utf8 "chitta" = [99, 104, 105, 116, 116, 97] ∧ utf8 "/" = [47] ∧
      utf8 "/chitta/" = 47 :: [99, 104, 105, 116, 116, 97, 47] := by
    decide
  have filled := runtimeRoot_ne_nil env
  have behind (front : Text) : joinPath (front ++ utf8 "chitta") name =
      front ++ [99, 104, 105, 116, 116, 97, 47] ++ name := by
    have other : ¬ (front ++ utf8 "chitta" = [] ∨ (front ++ utf8 "chitta").getLast? = some 47) := by
      rw [bytes.1, List.getLast?_append]
      simp
    rw [joinPath, if_neg other, bytes.1, bytes.2.1]
    simp
  unfold underRoot
  rw [← squeeze_name plain, bytes.2.2]
  by_cases slash : (runtimeRoot env).getLast? = some 47
  · obtain ⟨front, whole⟩ := List.getLast?_eq_some_iff.mp slash
    rw [joinPath.eq_1 (runtimeRoot env), if_pos (Or.inr slash), behind, whole]
    have twice := squeeze_slashes front ([99, 104, 105, 116, 116, 97, 47] ++ name)
    simp only [List.append_assoc, List.cons_append, List.nil_append] at twice ⊢
    exact twice.symm
  · have other : ¬ (runtimeRoot env = [] ∨ (runtimeRoot env).getLast? = some 47) :=
      fun both => both.elim filled slash
    rw [joinPath.eq_1 (runtimeRoot env), if_neg other, behind, bytes.2.1]
    simp

/-- What the hooks read with the local directory. -/
theorem shell_local (fs : FileSystem) {env : RuntimeEnvironment} {mind : Text} (named : mind ≠ [])
    (local_ : runtimeLocalEnabled env = true) :
    shellRuntimeStateDir fs env mind = (shellCanonical fs mind).map fun canonical =>
      runtimeRoot env ++ utf8 "/chitta/" ++ hexDigits 16 (daemonHash canonical).toNat := by
  unfold shellRuntimeStateDir printRuntimeStateDir
  rw [if_pos named]
  dsimp only
  rw [if_neg (not_not.mpr ((local_iff env).mpr local_)), Option.map_map]
  congr 1
  funext canonical
  dsimp only [Function.comp]
  rw [substituted_break, shellHash_toUInt64, orElse_root]
  apply (substituted_eq_iff _).mpr
  intro last
  rw [List.getLast?_append] at last
  cases digits : (hexDigits 16 (daemonHash canonical).toNat).getLast? with
  | none =>
    have empty := List.getLast?_eq_none_iff.mp digits
    rw [hexDigits] at empty
    simp at empty
  | some digit =>
    rw [digits] at last
    obtain rfl := Option.some.inj last
    exact (hexDigits_plain _ _ _ (List.mem_of_getLast? digits)).2 rfl

/-- What the hooks read without it. -/
theorem shell_shared (fs : FileSystem) {env : RuntimeEnvironment} {mind : Text} (named : mind ≠ [])
    (shared : runtimeLocalEnabled env = false) :
    shellRuntimeStateDir fs env mind = some (substituted mind) := by
  unfold shellRuntimeStateDir printRuntimeStateDir
  have other : orElse env.chittaRuntimeLocal (utf8 "0") ≠ utf8 "1" := by
    intro same
    rw [local_iff, shared] at same
    contradiction
  rw [if_pos named]
  dsimp only
  rw [if_pos other, Option.map_some, substituted_break]

/-- Removing line breaks is seen in the number of them. -/
theorem squeeze_substituted_iff (mind : Text) :
    squeeze (substituted mind) = squeeze mind ↔ mind.getLast? ≠ some newline := by
  constructor
  · intro same last
    obtain ⟨front, whole⟩ := List.getLast?_eq_some_iff.mp last
    have counts := congrArg (List.count newline) same
    rw [count_squeeze, count_squeeze, whole, substituted_break, List.count_append] at counts
    have fewer : (substituted front).count newline ≤ front.count newline := by
      have part := (List.dropWhile_sublist (· == newline) (l := front.reverse)).count_le newline
      rw [List.count_reverse] at part
      rw [substituted, List.count_reverse]
      exact part
    have one : [newline].count newline = 1 := by decide
    omega
  · intro last
    rw [(substituted_eq_iff mind).mpr last]

/-! ## Agreement -/

/-- The canonical paths of the hooks and of the daemon have the same hash. -/
def HashesMeet (fs : FileSystem) (mind : Text) : Prop :=
  ∃ shell daemon, shellCanonical fs mind = some shell ∧ fs.weaklyCanonical mind = some daemon ∧
    SameHash shell daemon

/-- With the local directory the hashes decide. -/
theorem local_agree_iff (fs : FileSystem) {env : RuntimeEnvironment} {mind : Text}
    (named : mind ≠ []) (local_ : runtimeLocalEnabled env = true) :
    Same (shellRuntimeStateDir fs env mind) (runtimeStateDir fs env mind) ↔
      HashesMeet fs mind := by
  have plain (hash : Nat) : (47 : UInt8) ∉ hexDigits 16 hash := fun inside =>
    (hexDigits_plain 16 hash 47 inside).1 rfl
  have names (shell daemon : Text) :
      squeeze (runtimeRoot env ++ utf8 "/chitta/" ++ hexDigits 16 (daemonHash shell).toNat) =
        squeeze (joinPath (joinPath (runtimeRoot env) (utf8 "chitta"))
          (hexDigits 16 (daemonHash daemon).toNat)) ↔ SameHash shell daemon := by
    have bound (hash : UInt64) : hash.toNat < 16 ^ 16 := by
      have power : (16 : Nat) ^ 16 = 2 ^ 64 := by norm_num
      rw [power]
      exact hash.toNat_lt
    rw [squeeze_joinPath env (plain _), underRoot, squeeze_name (plain _), ← daemonHash_eq_iff,
      ← hexDigits_inj 16 (bound _) (bound _), List.append_cancel_left_eq]
  rw [shell_local fs named local_]
  unfold runtimeStateDir
  rw [if_pos local_]
  constructor
  · rintro ⟨one, other, first, second, same⟩
    obtain ⟨shell, shellPath, rfl⟩ := Option.map_eq_some_iff.mp first
    obtain ⟨daemon, daemonPath, rfl⟩ := Option.map_eq_some_iff.mp second
    exact ⟨shell, daemon, shellPath, daemonPath, (names shell daemon).mp same⟩
  · rintro ⟨shell, daemon, shellPath, daemonPath, congruent⟩
    rw [shellPath, daemonPath]
    exact ⟨_, _, rfl, rfl, (names shell daemon).mpr congruent⟩

/-- Without it the mind path itself is taken, and a line break at its end is lost. -/
theorem shared_agree_iff (fs : FileSystem) {env : RuntimeEnvironment} {mind : Text}
    (named : mind ≠ []) (shared : runtimeLocalEnabled env = false) :
    Same (shellRuntimeStateDir fs env mind) (runtimeStateDir fs env mind) ↔
      mind.getLast? ≠ some newline := by
  rw [shell_shared fs named shared]
  unfold runtimeStateDir
  rw [shared, if_neg (by decide), ← squeeze_substituted_iff]
  constructor
  · rintro ⟨one, other, first, second, same⟩
    rw [Option.some.inj first, Option.some.inj second]
    exact same
  · exact fun same => ⟨_, _, rfl, rfl, same⟩

/-- A path whose parts both resolutions take alike: its canonical path ends in no line break, and
what is not there begins in a place that is there and ends in a name. -/
structure Settled (path : Text) (front rest : List Text) (place : Place) : Prop where
  /-- No line break ends the canonical path. -/
  unbroken : (placeText (byNames place rest)).getLast? ≠ some newline
  /-- The steps that are not there begin in a place. -/
  based : rest = [] ∨ isAbsolute path = true ∨ front ≠ []
  /-- They end in a name, or lead to the root. -/
  named : rest = [] ∨ dotted rest = false ∨ byNames place rest = []

/-- Where no link is met behind the leading steps, the canonical paths are the same for settled
paths only. -/
theorem canonical_agree_iff (fs : FileSystem) {mind : Text} {front rest : List Text} {place : Place}
    (led : fs.leading (fs.start mind) [] (steps mind) = some (front, rest))
    (there : fs.stat fs.links (fs.start mind) front = .found place)
    (linkless : fs.Linkless place rest) :
    shellCanonical fs mind = fs.weaklyCanonical mind ↔ Settled mind front rest place := by
  have text (real : Text) : substituted (real ++ [newline]) = real ↔
      real.getLast? ≠ some newline := by
    rw [substituted_break]
    exact substituted_eq_iff real
  by_cases whole : rest = []
  · have split := (FileSystem.leading_spec led).1
    rw [whole, List.nil_append, List.append_nil] at split
    rw [← split] at there
    obtain ⟨real, weak⟩ := FileSystem.canonical_of_found there
    rw [shellCanonical, real, weak, Option.map_some, Option.some_inj, text]
    constructor
    · intro unbroken
      refine ⟨?_, Or.inl whole, Or.inl whole⟩
      rw [whole]
      exact unbroken
    · intro settled
      have unbroken := settled.unbroken
      rw [whole] at unbroken
      exact unbroken
  · obtain ⟨real, weak⟩ := FileSystem.canonical_of_leading led there linkless whole
    rw [shellCanonical, real, weak, Option.map_some, Option.some_inj, substituted_break]
    have first : (substituted (placeText (byNames place rest))).head? = some 47 :=
      head_substituted (head_placeText _) (by decide)
    by_cases base : front = [] ∧ isAbsolute mind = false
    · rw [if_pos base]
      constructor
      · intro same
        rw [same] at first
        have proper : ∀ step ∈ rest, step ≠ [] ∧ 47 ∉ step := by
          intro step inside
          have split := (FileSystem.leading_spec led).1
          rw [base.1, List.nil_append, List.nil_append] at split
          rw [← split] at inside
          exact mem_steps inside
        exact absurd first (head_normalRelative proper)
      · intro settled
        have based := settled.based.resolve_left whole
        rw [base.2] at based
        exact absurd base.1 (based.resolve_left (by decide))
    · rw [if_neg base, normalAbsolute]
      have based : rest = [] ∨ isAbsolute mind = true ∨ front ≠ [] := by
        right
        by_cases absolute : isAbsolute mind = true
        · exact Or.inl absolute
        · exact Or.inr fun empty => base ⟨empty, by simpa using absolute⟩
      by_cases slash : dotted rest = true ∧ byNames place rest ≠ []
      · rw [if_pos slash]
        constructor
        · intro same
          have sizes := congrArg List.length same
          have shorter := length_substituted_le (placeText (byNames place rest))
          have one : (utf8 "/").length = 1 := by decide
          rw [List.length_append, one] at sizes
          omega
        · intro settled
          rcases settled.named with empty | name | root
          · exact absurd empty whole
          · rw [slash.1] at name
            contradiction
          · exact absurd root slash.2
      · rw [if_neg slash, List.append_nil, substituted_eq_iff]
        constructor
        · intro unbroken
          refine ⟨unbroken, based, Or.inr ?_⟩
          by_cases last : dotted rest = true
          · right
            by_contra some_name
            exact slash ⟨last, some_name⟩
          · left
            simpa using last
        · exact fun settled => settled.unbroken

/-! ## The queue -/

/-- Only the place that a path denotes counts for what follows it. -/
theorem squeeze_append (front rest : Text) :
    squeeze (squeeze front ++ rest) = squeeze (front ++ rest) := by
  induction front with
  | nil => rfl
  | cons byte front ih =>
    rw [squeeze_cons, List.cons_append, squeeze_cons byte (front ++ rest)]
    split
    · rename_i twice
      obtain ⟨more, begins⟩ : ∃ more, squeeze front = 47 :: more := by
        cases whole : squeeze front with
        | nil =>
          rw [whole] at twice
          exact absurd twice.2 (by simp)
        | cons first more =>
          rw [whole] at twice
          exact ⟨more, congrArg (· :: more) (Option.some.inj twice.2)⟩
      have head := head_squeeze (more ++ rest)
      rw [← List.cons_append, ← begins, ih] at head
      rw [if_pos ⟨twice.1, head⟩, ih]
    · rw [List.cons_append, squeeze_cons, ih]

/-- A name joined to a path stands behind a slash. -/
theorem squeeze_join {path : Text} (some_byte : path ≠ []) (name : Text) :
    squeeze (joinPath path name) = squeeze (path ++ 47 :: name) := by
  have slash : utf8 "/" = [47] := rfl
  unfold joinPath
  split
  · rename_i ends
    obtain ⟨front, whole⟩ := List.getLast?_eq_some_iff.mp (ends.resolve_left some_byte)
    rw [whole, List.append_assoc, List.append_assoc]
    exact (squeeze_slashes front name).symm
  · rw [slash, List.append_assoc]
    rfl

/-- The directory of the daemon has a name. -/
theorem runtimeStateDir_ne_nil {fs : FileSystem} {env : RuntimeEnvironment} {mind dir : Text}
    (named : mind ≠ []) (there : runtimeStateDir fs env mind = some dir) : dir ≠ [] := by
  have digits (number : Nat) : hexDigits 16 number ≠ [] := by
    rw [hexDigits]
    simp
  unfold runtimeStateDir at there
  split at there
  · obtain ⟨canonical, _, rfl⟩ := Option.map_eq_some_iff.mp there
    rw [joinPath]
    split <;> exact List.append_ne_nil_of_right_ne_nil _ (digits _)
  · rw [← Option.some.inj there]
    exact named

/-- In the same directory the queue is the same file. -/
theorem queues_agree {fs : FileSystem} {env : RuntimeEnvironment} {mind : Text} (named : mind ≠ [])
    (first : expand env.chittaQueue = []) (second : expand env.chittaQueuePath = [])
    (same : Same (shellRuntimeStateDir fs env mind) (runtimeStateDir fs env mind)) :
    Same (getQueueFile fs env mind) (queuePathForMind fs env mind) := by
  obtain ⟨shell, daemon, shellDir, daemonDir, place⟩ := same
  have unset (variable_ : Option Text) (empty : expand variable_ = []) :
      filled variable_ = none := by
    cases variable_ with
    | none => rfl
    | some value =>
      have nothing : value = [] := empty
      rw [nothing]
      rfl
  have file : utf8 "/queue.jsonl" = 47 :: utf8 "queue.jsonl" := by decide
  have last : (utf8 "queue.jsonl").getLast? = some 108 := by decide
  have own : getQueueFile fs env mind = some
      ((if shell.getLast? = some 47 then shell.dropLast else shell) ++ utf8 "/queue.jsonl") := by
    rw [getQueueFile, shellDir, Option.map_some]
    dsimp only
    rw [orElse, if_neg (not_not.mpr first), orElse, if_neg (not_not.mpr second), substituted_break,
      (substituted_eq_iff _).mpr]
    intro ends
    rw [file, List.getLast?_append, List.getLast?_cons, last] at ends
    exact absurd (Option.some.inj ends) (by decide)
  have other : queuePathForMind fs env mind = some (joinPath daemon (utf8 "queue.jsonl")) := by
    rw [queuePathForMind, unset _ first, unset _ second, daemonDir]
    rfl
  refine ⟨_, _, own, other, ?_⟩
  rw [squeeze_join (runtimeStateDir_ne_nil named daemonDir), ← squeeze_append daemon, ← place,
    squeeze_append, file]
  split
  · rename_i slash
    obtain ⟨front, whole⟩ := List.getLast?_eq_some_iff.mp slash
    rw [whole, List.dropLast_concat, List.append_assoc]
    exact (squeeze_slashes front _).symm
  · rfl

/-- The hooks and the daemon find the same directory exactly when, with the local directory, the two
canonical paths have the same hash, and without it the mind path ends in no line break. Where no
link is met behind the leading steps, the canonical paths are the same exactly for settled paths. In
the same directory the queue is the same file. -/
theorem runtime_dirs_agree_iff (fs : FileSystem) (env : RuntimeEnvironment) (mind : Text)
    (named : mind ≠ []) :
    (Same (shellRuntimeStateDir fs env mind) (runtimeStateDir fs env mind) ↔
      if runtimeLocalEnabled env then HashesMeet fs mind else mind.getLast? ≠ some newline) ∧
    (∀ front rest place, fs.leading (fs.start mind) [] (steps mind) = some (front, rest) →
      fs.stat fs.links (fs.start mind) front = .found place → fs.Linkless place rest →
      (shellCanonical fs mind = fs.weaklyCanonical mind ↔ Settled mind front rest place)) ∧
    (expand env.chittaQueue = [] → expand env.chittaQueuePath = [] →
      Same (shellRuntimeStateDir fs env mind) (runtimeStateDir fs env mind) →
      Same (getQueueFile fs env mind) (queuePathForMind fs env mind)) := by
  refine ⟨?_, ?_, fun first second same => queues_agree named first second same⟩
  · cases local_ : runtimeLocalEnabled env with
    | true => exact local_agree_iff fs named local_
    | false => exact shared_agree_iff fs named local_
  · intro front rest place led there linkless
    exact canonical_agree_iff fs led there linkless

/-- A file system with a root and nothing else. -/
def bare : FileSystem where
  node place := if place = [] then some .directory else none
  cwd := []
  links := 40
  root := rfl
  working := rfl
  parent _ _ there := absurd rfl there

/-- An environment that asks for the local directory. -/
def localEnvironment : RuntimeEnvironment :=
  ⟨some (utf8 "1"), some (utf8 "/run/user/0"), none, none, some (utf8 "/root"), none, none⟩

/-- A mind path that is absolute is found by both, there or not. -/
theorem runtime_dirs_agree_absolute :
    Same (shellRuntimeStateDir bare localEnvironment (utf8 "/mind"))
      (runtimeStateDir bare localEnvironment (utf8 "/mind")) := by
  apply (runtime_dirs_agree_iff bare localEnvironment (utf8 "/mind") (by decide)).1.mpr
  exact ⟨utf8 "/mind", utf8 "/mind", by decide, by decide, Nat.ModEq.refl _⟩

/-- A relative mind path that is not there yet: the hooks hash `/mind`, the daemon `mind`. -/
theorem relative_mind_diverges :
    ¬ Same (shellRuntimeStateDir bare localEnvironment (utf8 "mind"))
      (runtimeStateDir bare localEnvironment (utf8 "mind")) := by
  have shell : shellRuntimeStateDir bare localEnvironment (utf8 "mind") =
      some (utf8 "/run/user/0/chitta/000000310b8f125c") := by decide
  have daemon : runtimeStateDir bare localEnvironment (utf8 "mind") =
      some (utf8 "/run/user/0/chitta/000000017c9aa20d") := by decide
  rintro ⟨one, other, first, second, same⟩
  rw [shell] at first
  rw [daemon] at second
  rw [← Option.some.inj first, ← Option.some.inj second] at same
  have apart : ¬ squeeze (utf8 "/run/user/0/chitta/000000310b8f125c") =
      squeeze (utf8 "/run/user/0/chitta/000000017c9aa20d") := by decide
  exact apart same

end Chitta.Hooks
