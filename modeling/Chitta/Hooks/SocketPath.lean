import Chitta.Decimal
/-!
# The socket path of the daemon and of the hooks

The daemon listens on a path that `socket_server.hpp` derives from the mind path; the hooks look for
it on the path that `lib.sh` derives. Both take the first usable directory and the DJB2 hash of the
mind path. The daemon hashes its bytes. The shell hashes its characters, as the locale of the hook
process reads them.
-/
namespace Chitta.Hooks

open Bytes Utf8 Decimal

/-- The environment and the permissions that both programs see. -/
structure Host where
  /-- `XDG_RUNTIME_DIR`. -/
  xdgRuntimeDir : Option Text
  /-- `HOME`. -/
  home : Option Text
  /-- `CHITTA_SOCKET_PATH`. -/
  chittaSocketPath : Option Text
  /-- `CHITTA_DB_PATH`. -/
  chittaDbPath : Option Text
  /-- `CHITTA_MIND`. -/
  chittaMind : Option Text
  /-- The user. -/
  uid : Nat
  /-- What the user may write. -/
  permits : Text → Bool

/-- `access` with `W_OK`, and `-w`; an empty path names no file. -/
def Host.writable (host : Host) (path : Text) : Bool := !path.isEmpty && host.permits path

/-- `/run/user/{uid}`. -/
def Host.runUser (host : Host) : Text := utf8 "/run/user/" ++ decimal host.uid

/-- A locale: the code of the first character of a text and how many more bytes it has, or nothing
where the bytes are no character. -/
structure Locale where
  /-- `mbtowc`. -/
  character : UInt8 → Text → Option (UInt32 × Nat)

/-- The characters of a text behind the rest of one, each by the code that `printf %d` gives it; a
byte that is no character counts for itself. -/
def Locale.codes (locale : Locale) : Nat → Text → List UInt32
  | _, [] => []
  | skipped + 1, _ :: rest => locale.codes skipped rest
  | 0, byte :: rest =>
    match locale.character byte rest with
    | some (code, more) => code :: locale.codes more rest
    | none => byte.toUInt32 :: locale.codes 0 rest

/-! ## `socket_server.hpp` -/

/-- `djb2_hash` of the daemon. -/
def djb2Hash (str : Text) : UInt32 :=
  str.foldl (fun hash c => ((hash <<< 5) + hash) + c.toUInt32) 5381

/-- `get_socket_dir` of the daemon. -/
def getSocketDir (host : Host) : Text :=
  match host.xdgRuntimeDir.filter host.writable with
  | some dir => dir ++ utf8 "/chitta"
  | none =>
    if host.writable host.runUser then host.runUser ++ utf8 "/chitta"
    else
      match host.home with
      | some home => home ++ utf8 "/.cache" ++ utf8 "/chitta"
      | none => utf8 "/tmp"

/-- `socket_path_for_mind`. -/
def socketPathForMind (host : Host) (mind : Text) : Text :=
  getSocketDir host ++ utf8 "/chitta-" ++ decimal (djb2Hash mind).toNat ++ utf8 ".sock"

/-! ## `lib.sh` -/

/-- `${variable:-}`: a variable that is not set reads as empty. -/
def expand (variable_ : Option Text) : Text := variable_.getD []

/-- A step of `djb2_hash` of the hooks. -/
def shellDjb2Step (h : UInt64) (c : UInt32) : UInt64 :=
  ((h <<< 5) + h + c.toUInt64) &&& 0xFFFFFFFF

/-- `djb2_hash` of the hooks. -/
def shellDjb2Hash (locale : Locale) (str : Text) : UInt64 :=
  (locale.codes 0 str).foldl shellDjb2Step 5381

/-- `get_socket_dir` of the hooks. -/
def shellGetSocketDir (host : Host) : Text :=
  if expand host.xdgRuntimeDir ≠ [] ∧ host.writable (expand host.xdgRuntimeDir) then
    expand host.xdgRuntimeDir ++ utf8 "/chitta"
  else if host.writable host.runUser then host.runUser ++ utf8 "/chitta"
  else if expand host.home ≠ [] then expand host.home ++ utf8 "/.cache/chitta"
  else utf8 "/tmp"

/-- `get_socket_path`. -/
def getSocketPath (host : Host) (locale : Locale) : Text :=
  if expand host.chittaSocketPath ≠ [] then expand host.chittaSocketPath
  else
    let mindPath :=
      if expand host.chittaDbPath ≠ [] then expand host.chittaDbPath
      else if expand host.chittaMind ≠ [] then expand host.chittaMind
      else expand host.home ++ utf8 "/.claude/mind"
    shellGetSocketDir host ++ utf8 "/chitta-" ++
      decimal (shellDjb2Hash locale mindPath).toNat ++ utf8 ".sock"

/-! ## The hashes -/

/-- A step of the daemon's loop. -/
theorem djb2_step (hash : UInt32) (c : UInt8) :
    (((hash <<< 5) + hash) + c.toUInt32).toNat ≡ 33 * hash.toNat + c.toNat [MOD 2 ^ 32] := by
  have shifted : (hash <<< 5).toNat = hash.toNat * 32 % 2 ^ 32 := by
    rw [UInt32.toNat_shiftLeft]
    have places : (5 : UInt32).toNat % 32 = 5 := rfl
    rw [places, Nat.shiftLeft_eq]
  rw [UInt32.toNat_add, UInt32.toNat_add, shifted, UInt8.toNat_toUInt32]
  unfold Nat.ModEq
  omega

/-- A step of the shell's loop. -/
theorem shell_djb2_step (h : UInt64) (c : UInt32) :
    (shellDjb2Step h c).toNat ≡ 33 * h.toNat + c.toNat [MOD 2 ^ 32] := by
  have shifted : (h <<< 5).toNat = h.toNat * 32 % 2 ^ 64 := by
    rw [UInt64.toNat_shiftLeft]
    have places : (5 : UInt64).toNat % 64 = 5 := rfl
    rw [places, Nat.shiftLeft_eq]
  have masked : ∀ number : Nat, number &&& (0xFFFFFFFF : UInt64).toNat = number % 2 ^ 32 := by
    intro number
    have mask : (0xFFFFFFFF : UInt64).toNat = 2 ^ 32 - 1 := rfl
    rw [mask]
    exact Nat.and_two_pow_sub_one_eq_mod number 32
  rw [shellDjb2Step, UInt64.toNat_and, masked, UInt64.toNat_add, UInt64.toNat_add, shifted,
    UInt32.toNat_toUInt64]
  unfold Nat.ModEq
  omega

/-- The daemon's hash is the number of the bytes in base 33. -/
theorem djb2Hash_modEq (str : Text) :
    (djb2Hash str).toNat ≡ Horner.value 33 5381 (str.map UInt8.toNat) [MOD 2 ^ 32] := by
  have run := Horner.run_modEq djb2_step 5381 str
  exact run

/-- The shell's hash is the number of the characters in base 33. -/
theorem shellDjb2Hash_modEq (locale : Locale) (str : Text) :
    (shellDjb2Hash locale str).toNat ≡
      Horner.value 33 5381 ((locale.codes 0 str).map UInt32.toNat) [MOD 2 ^ 32] := by
  have run := Horner.run_modEq shell_djb2_step 5381 (locale.codes 0 str)
  exact run

/-- The shell's hash has 32 bits. -/
theorem shellDjb2Hash_lt (locale : Locale) (str : Text) :
    (shellDjb2Hash locale str).toNat < 2 ^ 32 := by
  have below : ∀ (codes : List UInt32) (h : UInt64), h.toNat < 2 ^ 32 →
      (codes.foldl shellDjb2Step h).toNat < 2 ^ 32 := by
    intro codes
    induction codes with
    | nil =>
      intro h small
      exact small
    | cons code codes ih =>
      intro h small
      apply ih
      rw [shellDjb2Step, UInt64.toNat_and]
      have mask : (0xFFFFFFFF : UInt64).toNat < 2 ^ 32 := by decide
      exact Nat.and_lt_two_pow _ mask
  have start : (5381 : UInt64).toNat < 2 ^ 32 := by decide
  exact below (locale.codes 0 str) 5381 start

/-- The characters of the mind path and its bytes write congruent numbers in base 33. -/
def Congruent (locale : Locale) (mind : Text) : Prop :=
  Horner.value 33 5381 ((locale.codes 0 mind).map UInt32.toNat) ≡
    Horner.value 33 5381 (mind.map UInt8.toNat) [MOD 2 ^ 32]

/-- The hashes are the same when the two numbers are congruent. -/
theorem hashes_agree_iff (locale : Locale) (mind : Text) :
    (shellDjb2Hash locale mind).toNat = (djb2Hash mind).toNat ↔ Congruent locale mind := by
  have daemon := djb2Hash_modEq mind
  have shell := shellDjb2Hash_modEq locale mind
  constructor
  · intro same
    rw [same] at shell
    exact shell.symm.trans daemon
  · intro congruent
    have both := (shell.trans congruent).trans daemon.symm
    apply both.eq_of_lt_of_lt
    · exact shellDjb2Hash_lt locale mind
    · exact (djb2Hash mind).toNat_lt

/-- A text whose every character is one byte with its own code. -/
def Locale.Plain (locale : Locale) (text : Text) : Prop :=
  ∀ byte ∈ text, ∀ rest, ∀ code more, locale.character byte rest = some (code, more) →
    code = byte.toUInt32 ∧ more = 0

/-- The characters of a plain text are its bytes. -/
theorem codes_plain {locale : Locale} {text : Text} (plain : locale.Plain text) :
    locale.codes 0 text = text.map UInt8.toUInt32 := by
  induction text with
  | nil => rfl
  | cons byte rest ih =>
    have inner := ih fun other inside => plain other (List.mem_cons_of_mem byte inside)
    rw [Locale.codes, List.map_cons]
    cases read : locale.character byte rest with
    | none =>
      simp only
      rw [inner]
    | some found =>
      have own := plain byte List.mem_cons_self rest found.1 found.2 read
      simp only
      rw [own.1, own.2, inner]

/-- A plain path has the same hash in the shell and in the daemon. -/
theorem congruent_of_plain {locale : Locale} {mind : Text} (plain : locale.Plain mind) :
    Congruent locale mind := by
  unfold Congruent
  rw [codes_plain plain, List.map_map]
  have same : UInt32.toNat ∘ UInt8.toUInt32 = UInt8.toNat := by
    funext byte
    exact UInt8.toNat_toUInt32 byte
  rw [same]

/-! ## The directories -/

/-- Nothing but an empty `HOME` is there to put the socket under. -/
def HomeIsEmpty (host : Host) : Prop :=
  host.writable (expand host.xdgRuntimeDir) = false ∧ host.writable host.runUser = false ∧
    host.home = some []

/-- An empty path is not writable. -/
theorem writable_nil (host : Host) : host.writable [] = false := rfl

/-- The two directories are the same except under an empty `HOME`. -/
theorem directories_agree {host : Host} (other : ¬ HomeIsEmpty host) :
    shellGetSocketDir host = getSocketDir host := by
  unfold shellGetSocketDir getSocketDir
  by_cases usable : host.writable (expand host.xdgRuntimeDir) = true
  · cases set : host.xdgRuntimeDir with
    | none =>
      rw [set] at usable
      exact absurd usable (by simp [expand, writable_nil])
    | some dir =>
      rw [set] at usable
      have named : dir ≠ [] := by
        intro empty
        rw [empty] at usable
        exact absurd usable (by simp [expand, writable_nil])
      have kept : Option.filter host.writable (some dir) = some dir := by
        apply Option.filter_eq_some_iff.mpr
        exact ⟨rfl, usable⟩
      rw [if_pos ⟨named, usable⟩, kept]
      rfl
  · have unusable : Option.filter host.writable host.xdgRuntimeDir = none := by
      apply Option.filter_eq_none_iff.mpr
      intro dir set
      rw [set] at usable
      exact usable
    rw [if_neg fun both => usable both.2, unusable]
    simp only
    by_cases run : host.writable host.runUser = true
    · rw [if_pos run, if_pos run]
    · rw [if_neg run, if_neg run]
      cases set : host.home with
      | none => simp [expand]
      | some home =>
        have named : home ≠ [] := by
          intro empty
          apply other
          rw [empty] at set
          exact ⟨by simpa using usable, by simpa using run, set⟩
        have parts : utf8 "/.cache/chitta" = utf8 "/.cache" ++ utf8 "/chitta" := by decide
        have expanded : expand (some home) = home := rfl
        rw [expanded, if_pos named, parts, ← List.append_assoc]

/-- Under an empty `HOME` the hooks take `/tmp` and the daemon `/.cache/chitta`. -/
theorem directories_of_empty {host : Host} (empty : HomeIsEmpty host) :
    shellGetSocketDir host = utf8 "/tmp" ∧ getSocketDir host = utf8 "/.cache/chitta" := by
  have unusable : Option.filter host.writable host.xdgRuntimeDir = none := by
    apply Option.filter_eq_none_iff.mpr
    intro dir set
    have closed := empty.1
    rw [set] at closed
    simpa [expand] using closed
  have run := empty.2.1
  have unnamed : expand host.home = [] := by
    rw [empty.2.2]
    rfl
  constructor
  · unfold shellGetSocketDir
    simp [empty.1, run, unnamed]
  · unfold getSocketDir
    rw [unusable, run, empty.2.2]
    rfl

/-! ## The paths -/

/-- Equal numbers and only they have the same path in a directory. -/
theorem path_inj {dir : Text} {left right : Nat} :
    dir ++ utf8 "/chitta-" ++ decimal left ++ utf8 ".sock" =
        dir ++ utf8 "/chitta-" ++ decimal right ++ utf8 ".sock" ↔ left = right := by
  constructor
  · intro same
    have front := List.append_cancel_right same
    have numbers := List.append_cancel_left front
    exact decimal_injective numbers
  · intro same
    rw [same]

/-- Paths in `/tmp` and in `/.cache/chitta` are different. -/
theorem tmp_ne_cache (left right : Text) :
    utf8 "/tmp" ++ utf8 "/chitta-" ++ left ≠ utf8 "/.cache/chitta" ++ utf8 "/chitta-" ++ right := by
  intro same
  have second := congrArg (fun text => text[1]?) same
  have tmp : utf8 "/tmp" = 47 :: 116 :: [109, 112] := by decide
  have cache : utf8 "/.cache/chitta" = 47 :: 46 :: (utf8 "/.cache/chitta").drop 2 := by decide
  rw [tmp, cache] at second
  simp at second

/-- For a given mind path and no explicit socket path the hooks look for the socket where the daemon
puts it, under the same hash, exactly when the two numbers are congruent and the directory is not to
be found under an empty `HOME`. -/
theorem socket_paths_agree_iff (host : Host) (locale : Locale) (mind : Text)
    (given : host.chittaDbPath = some mind) (some_byte : mind ≠ [])
    (bare : expand host.chittaSocketPath = []) :
    (getSocketPath host locale = socketPathForMind host mind ∧
        (shellDjb2Hash locale mind).toNat = (djb2Hash mind).toNat) ↔
      (Congruent locale mind ∧ ¬ HomeIsEmpty host) := by
  have expanded : expand host.chittaDbPath = mind := by
    rw [given]
    rfl
  have path : getSocketPath host locale = shellGetSocketDir host ++ utf8 "/chitta-" ++
      decimal (shellDjb2Hash locale mind).toNat ++ utf8 ".sock" := by
    unfold getSocketPath
    rw [if_neg (not_not.mpr bare), expanded, if_pos some_byte]
  rw [path, socketPathForMind, hashes_agree_iff]
  constructor
  · intro both
    constructor
    · exact both.2
    · intro empty
      have directories := directories_of_empty empty
      have same := both.1
      rw [directories.1, directories.2, List.append_assoc,
        List.append_assoc (utf8 "/.cache/chitta" ++ _)]
        at same
      exact tmp_ne_cache _ _ same
  · intro both
    constructor
    · rw [directories_agree both.2]
      apply path_inj.mpr
      exact (hashes_agree_iff locale mind).mpr both.1
    · exact both.1

/-- The locale of UTF-8. -/
def utf8Locale : Locale where
  character byte rest :=
    ((byte :: rest).toByteArray.utf8DecodeChar? 0).map fun c => (c.val, c.utf8Size - 1)

/-- A user at home with a mind. -/
def homeHost (mind : String) : Host where
  xdgRuntimeDir := none
  home := some (utf8 "/home/u")
  chittaSocketPath := none
  chittaDbPath := some (utf8 mind)
  chittaMind := none
  uid := 1000
  permits _ := false

/-- An ASCII path in a UTF-8 locale has the same socket in the hooks and in the daemon. -/
theorem socket_paths_agree_ascii :
    (getSocketPath (homeHost "/m") utf8Locale = socketPathForMind (homeHost "/m") (utf8 "/m") ∧
        (shellDjb2Hash utf8Locale (utf8 "/m")).toNat = (djb2Hash (utf8 "/m")).toNat) ↔
      (Congruent utf8Locale (utf8 "/m") ∧ ¬ HomeIsEmpty (homeHost "/m")) :=
  socket_paths_agree_iff (homeHost "/m") utf8Locale (utf8 "/m") rfl (by decide) rfl

/-- A letter of two bytes sends the hooks to another socket than the daemon's. -/
theorem accented_mind_misses :
    ¬ (getSocketPath (homeHost "/é") utf8Locale = socketPathForMind (homeHost "/é")
      (utf8 "/é")) := by
  decide

end Chitta.Hooks
