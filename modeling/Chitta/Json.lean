import Mathlib.Algebra.Group.Int.Defs
import Mathlib.Algebra.Group.Nat.Defs
import Mathlib.Data.List.Forall2
import Chitta.Assoc

/-!
# JSON values and the accessors that throw

A value as the JSON library holds it: an object is a sorted map, so each key occurs once and the
order of the keys carries nothing. The accessors follow the library: `value` throws on anything
that is not an object and on a present value of another type, `at` throws on a missing key, and
`find` throws nothing. The text of a value is read and written by code outside this development.
-/
namespace Chitta

/-- A JSON value. -/
inductive Json where
  /-- `null`. -/
  | null
  /-- A boolean. -/
  | bool (value : Bool)
  /-- A number without a fraction. -/
  | int (value : Int)
  /-- A number with a fraction. -/
  | float (value : Rat)
  /-- A string. -/
  | str (value : String)
  /-- An array. -/
  | arr (items : List Json)
  /-- An object: its fields in the order of their keys. -/
  | obj (fields : List (String × Json))

/-- The exceptions that modelled code throws. -/
inductive Thrown where
  /-- The text is not JSON. -/
  | parseError
  /-- An accessor met a value of another type; the library numbers the cases. -/
  | typeError (id : Nat)
  /-- `at` met no such key. -/
  | outOfRange (key : String)
  /-- `std::invalid_argument`. -/
  | invalidArgument (what : String)
  /-- `std::runtime_error`. -/
  | runtimeError (what : String)
  /-- The library leaves the result undefined; the model stops here. -/
  | undefined
deriving DecidableEq, Repr

/-- A computation that returned ran both of its halves. -/
theorem bind_ok {α β : Type} {first : Except Thrown α} {second : α → Except Thrown β} {result : β}
    (returned : first >>= second = .ok result) :
    ∃ middle, first = .ok middle ∧ second middle = .ok result := by
  cases first with
  | error thrown => contradiction
  | ok middle => exact ⟨middle, rfl, returned⟩

/-- A computation whose result is changed returned one. -/
theorem map_ok {α β : Type} {first : Except Thrown α} {change : α → β} {result : β}
    (returned : first.map change = .ok result) :
    ∃ middle, first = .ok middle ∧ change middle = result := by
  cases first with
  | error thrown => contradiction
  | ok middle => exact ⟨middle, rfl, Except.ok.inj returned⟩

/-- An item of related lists has a related one. -/
theorem exists_of_forall₂ {α β : Type} {related : α → β → Prop} {items : List α} {others : List β}
    (all : List.Forall₂ related items others) {item : α} (inside : item ∈ items) :
    ∃ other ∈ others, related item other := by
  induction all with
  | nil => contradiction
  | cons own _ ih =>
    cases inside with
    | head => exact ⟨_, List.mem_cons_self, own⟩
    | tail _ later =>
      obtain ⟨other, among, found⟩ := ih later
      exact ⟨other, List.mem_cons_of_mem _ among, found⟩

/-- A computation over a list that returned gave a result for each of its items, in their order. -/
theorem forall₂_of_mapM {α β : Type} {compute : α → Except Thrown β} {items : List α}
    {results : List β} (computed : items.mapM compute = .ok results) :
    List.Forall₂ (fun item result => compute item = .ok result) items results := by
  induction items generalizing results with
  | nil =>
    obtain rfl := Except.ok.inj computed
    exact .nil
  | cons item rest ih =>
    rw [List.mapM_cons] at computed
    obtain ⟨first, here, computed⟩ := bind_ok computed
    obtain ⟨others, later, computed⟩ := bind_ok computed
    obtain rfl := Except.ok.inj computed
    exact .cons here (ih later)

/-- A computation returns. -/
def Returns {α : Type} (computed : Except Thrown α) : Prop := ∃ result, computed = .ok result

/-- A result is returned. -/
theorem returns_ok {α : Type} (result : α) : Returns (.ok result) := ⟨result, rfl⟩

/-- An exception is not returned. -/
theorem not_returns_error {α : Type} (thrown : Thrown) :
    ¬ Returns (.error thrown : Except Thrown α) := by
  rintro ⟨result, same⟩
  contradiction

/-- One computation after another returns when both do. -/
theorem returns_bind {α β : Type} {first : Except Thrown α} {second : α → Except Thrown β} :
    Returns (first >>= second) ↔ ∃ middle, first = .ok middle ∧ Returns (second middle) := by
  constructor
  · rintro ⟨result, returned⟩
    obtain ⟨middle, here, later⟩ := bind_ok returned
    exact ⟨middle, here, result, later⟩
  · rintro ⟨middle, here, result, later⟩
    refine ⟨result, ?_⟩
    rw [here]
    exact later

/-- A loop returns when its steps do, if these depend on the items only. -/
theorem returns_foldlM {σ ι : Type} {step : σ → ι → Except Thrown σ} {good : ι → Prop}
    (each : ∀ state item, Returns (step state item) ↔ good item) (items : List ι) (start : σ) :
    Returns (items.foldlM step start) ↔ ∀ item ∈ items, good item := by
  induction items generalizing start with
  | nil =>
    rw [List.foldlM_nil]
    exact ⟨fun _ item inside => absurd inside List.not_mem_nil, fun _ => returns_ok start⟩
  | cons item items ih =>
    rw [List.foldlM_cons, returns_bind, List.forall_mem_cons]
    constructor
    · rintro ⟨middle, here, later⟩
      exact ⟨(each start item).mp ⟨middle, here⟩, (ih middle).mp later⟩
    · rintro ⟨first, others⟩
      obtain ⟨middle, here⟩ := (each start item).mpr first
      exact ⟨middle, here, (ih middle).mpr others⟩

/-- A computation over a list returns when it does for every item. -/
theorem returns_mapM {α β : Type} {compute : α → Except Thrown β} {good : α → Prop} {items : List α}
    (each : ∀ item ∈ items, Returns (compute item) ↔ good item) :
    Returns (items.mapM compute) ↔ ∀ item ∈ items, good item := by
  induction items with
  | nil => exact ⟨fun _ item inside => absurd inside List.not_mem_nil, fun _ => returns_ok []⟩
  | cons item items ih =>
    obtain ⟨first, others⟩ := List.forall_mem_cons.mp each
    rw [List.mapM_cons, returns_bind, List.forall_mem_cons, ← ih others, ← first]
    constructor
    · rintro ⟨made, here, later⟩
      obtain ⟨rest, there, _⟩ := returns_bind.mp later
      exact ⟨⟨made, here⟩, rest, there⟩
    · rintro ⟨⟨made, here⟩, rest, there⟩
      exact ⟨made, here, returns_bind.mpr ⟨rest, there, returns_ok _⟩⟩

namespace Json

/-! ## Reading -/

/-- An object with these fields. -/
def object (fields : List (String × Json)) : Json :=
  obj (fields.foldl (fun sorted field => Assoc.assign field.1 field.2 sorted) [])

/-- `is_null`. -/
def isNull : Json → Bool
  | null => true
  | _ => false

/-- Only null is null. -/
theorem eq_null {json : Json} (gone : json.isNull = true) : json = null := by
  cases json with
  | null => rfl
  | _ => contradiction

/-- `is_object`. -/
def isObject : Json → Bool
  | obj _ => true
  | _ => false

/-- `is_string`. -/
def isString : Json → Bool
  | str _ => true
  | _ => false

/-- `is_number`. -/
def isNumber : Json → Bool
  | int _ => true
  | float _ => true
  | _ => false

/-- `find` and `contains`: nothing is found in a value that is not an object. -/
def find (json : Json) (key : String) : Option Json :=
  match json with
  | obj fields => Assoc.lookup key fields
  | _ => none

/-- `contains`. -/
def contains (json : Json) (key : String) : Bool := (json.find key).isSome

/-- `at` with a key. -/
def «at» (json : Json) (key : String) : Except Thrown Json :=
  match json with
  | obj fields =>
    match Assoc.lookup key fields with
    | some value => .ok value
    | none => .error (.outOfRange key)
  | _ => .error (.typeError 304)

/-- `operator[]` of a constant with a key. -/
def index (json : Json) (key : String) : Except Thrown Json :=
  match json with
  | obj fields =>
    match Assoc.lookup key fields with
    | some value => .ok value
    | none => .error .undefined
  | _ => .error (.typeError 305)

/-- `operator[]` of a variable with a key, read: a missing key appears as null. -/
def field (json : Json) (key : String) : Except Thrown Json :=
  match json with
  | obj fields => .ok ((Assoc.lookup key fields).getD null)
  | null => .ok null
  | _ => .error (.typeError 305)

/-- `operator[]` of a variable with a key, assigned. -/
def set (json : Json) (key : String) (value : Json) : Except Thrown Json :=
  match json with
  | obj fields => .ok (obj (Assoc.assign key value fields))
  | null => .ok (obj [(key, value)])
  | _ => .error (.typeError 305)

/-- `update`: the fields of the second object replace those of the first. -/
def update (json other : Json) : Json :=
  match json, other with
  | obj fields, obj others =>
    obj (others.foldl (fun merged entry => Assoc.assign entry.1 entry.2 merged) fields)
  | _, _ => json

/-- `get<std::string>`. -/
def getString : Json → Except Thrown String
  | str value => .ok value
  | _ => .error (.typeError 302)

/-- The fraction of a number is cut off. -/
def truncate (value : Rat) : Int := if value < 0 then value.ceil else value.floor

/-- `get<int>`: fractions and booleans convert, and 32 bits are kept. -/
def getInt : Json → Except Thrown Int
  | int value => .ok (value.bmod (2 ^ 32))
  | float value => .ok ((truncate value).bmod (2 ^ 32))
  | bool value => .ok (if value then 1 else 0)
  | _ => .error (.typeError 302)

/-- `get<int64_t>`: fractions convert, and 64 bits are kept. -/
def getInt64 : Json → Except Thrown Int
  | int value => .ok (value.bmod (2 ^ 64))
  | float value => .ok ((truncate value).bmod (2 ^ 64))
  | _ => .error (.typeError 302)

/-- The double next to a whole number: it has 53 bits, and of two that are as near the even one. -/
def toDouble (value : Int) : Int :=
  let unit := 2 ^ (value.natAbs.log2 - 52)
  let low := value.natAbs % unit
  let base := value.natAbs / unit
  let kept := if 2 * low < unit ∨ 2 * low = unit ∧ base % 2 = 0 then base else base + 1
  value.sign * (kept * unit : Nat)

/-- A whole number up to 2^53 is a double. -/
theorem toDouble_eq {value : Int} (small : value.natAbs ≤ 9007199254740992) :
    toDouble value = value := by
  by_cases less : value.natAbs.log2 - 52 = 0
  · simp only [toDouble, less, Nat.pow_zero, Nat.mod_one, Nat.mul_zero, Nat.lt_one_iff, true_or,
      if_true, Nat.div_one, Nat.mul_one]
    exact Int.sign_mul_natAbs value
  · have last : value.natAbs = 9007199254740992 := by
      by_cases smaller : value.natAbs < 2 ^ 53
      · have bits : value.natAbs.log2 < 53 := by
          by_cases zero : value.natAbs = 0
          · rw [zero]
            decide
          · exact (Nat.log2_lt zero).mpr smaller
        omega
      · omega
    rcases Int.natAbs_eq value with same | same
    · rw [same, last]
      decide
    · rw [same, last]
      decide

/-- `get<double>`. -/
def getDouble : Json → Except Thrown Rat
  | int value => .ok (toDouble value)
  | float value => .ok value
  | _ => .error (.typeError 302)

/-- `get<bool>`. -/
def getBool : Json → Except Thrown Bool
  | bool value => .ok value
  | _ => .error (.typeError 302)

/-- `value(key, fallback)` for a conversion. -/
def valueWith {α : Type} (get : Json → Except Thrown α) (json : Json) (key : String)
    (fallback : α) : Except Thrown α :=
  match json with
  | obj fields =>
    match Assoc.lookup key fields with
    | some value => get value
    | none => .ok fallback
  | _ => .error (.typeError 306)

/-- `value(key, fallback)` for a string. -/
def valueString (json : Json) (key fallback : String) : Except Thrown String :=
  json.valueWith getString key fallback

/-- `value(key, fallback)` for any value. -/
def valueJson (json : Json) (key : String) (fallback : Json) : Except Thrown Json :=
  json.valueWith .ok key fallback

/-- A number that is read as an `int` has 32 bits. -/
theorem getInt_range {value : Json} {number : Int} (read : value.getInt = .ok number) :
    -2147483648 ≤ number ∧ number ≤ 2147483647 := by
  have range : ∀ whole : Int,
      -2147483648 ≤ whole.bmod (2 ^ 32) ∧ whole.bmod (2 ^ 32) ≤ 2147483647 := by
    intro whole
    rw [Int.bmod_eq_emod]
    split <;> omega
  cases value with
  | int whole =>
    obtain rfl := Except.ok.inj read
    exact range whole
  | float fraction =>
    obtain rfl := Except.ok.inj read
    exact range _
  | bool flag =>
    obtain rfl := Except.ok.inj read
    cases flag <;> decide
  | _ => contradiction

/-- A whole number of 32 bits is read as it is. -/
theorem getInt_int {number : Int} (low : -2147483648 ≤ number) (high : number ≤ 2147483647) :
    (int number).getInt = .ok number := by
  have same : number.bmod (2 ^ 32) = number := by
    rw [Int.bmod_eq_emod]
    split <;> omega
  simp only [getInt, same]

/-! ## Comparing -/

/-- A whole number beside another one: it has no sign when it is not negative, and is cast to 64
bits with a sign when the other one is negative. -/
def signedBeside (value other : Int) : Int :=
  if 0 ≤ value ∧ other < 0 then value.bmod 18446744073709551616 else value

mutual

/-- `operator==`: numbers compare by their values, and beside one with a fraction a whole number is
made a double. -/
def same : Json → Json → Bool
  | null, null => true
  | bool left, bool right => left == right
  | int left, int right => signedBeside left right == signedBeside right left
  | int left, float right => decide ((toDouble left : Rat) = right)
  | float left, int right => decide (left = (toDouble right : Rat))
  | float left, float right => decide (left = right)
  | str left, str right => left == right
  | arr left, arr right => sameItems left right
  | obj left, obj right => sameFields left right
  | _, _ => false

/-- Two arrays. -/
def sameItems : List Json → List Json → Bool
  | [], [] => true
  | left :: lefts, right :: rights => same left right && sameItems lefts rights
  | _, _ => false

/-- Two objects. -/
def sameFields : List (String × Json) → List (String × Json) → Bool
  | [], [] => true
  | (key, left) :: lefts, (name, right) :: rights =>
    key == name && same left right && sameFields lefts rights
  | _, _ => false

end

/-- The order of the types. -/
def rank : Json → Nat
  | null => 0
  | bool _ => 1
  | int _ => 2
  | float _ => 2
  | obj _ => 3
  | arr _ => 4
  | str _ => 5

mutual

/-- The order of values: those of one type by their contents, others by their types. -/
def order : Json → Json → Ordering
  | int left, int right => compare (signedBeside left right) (signedBeside right left)
  | int left, float right => compareOfLessAndEq (toDouble left : Rat) right
  | float left, int right => compareOfLessAndEq left (toDouble right : Rat)
  | float left, float right => compareOfLessAndEq left right
  | bool left, bool right => compare left right
  | str left, str right => compareOfLessAndEq left right
  | arr left, arr right => orderItems left right
  | obj left, obj right => orderFields left right
  | left, right => compare (rank left) (rank right)

/-- Two arrays. -/
def orderItems : List Json → List Json → Ordering
  | [], [] => .eq
  | [], _ :: _ => .lt
  | _ :: _, [] => .gt
  | left :: lefts, right :: rights => (order left right).then (orderItems lefts rights)

/-- Two objects. -/
def orderFields : List (String × Json) → List (String × Json) → Ordering
  | [], [] => .eq
  | [], _ :: _ => .lt
  | _ :: _, [] => .gt
  | (key, left) :: lefts, (name, right) :: rights =>
    ((compareOfLessAndEq key name).then (order left right)).then (orderFields lefts rights)

end

/-- `operator<`. -/
def less (left right : Json) : Bool := order left right == .lt

/-! ## Equality -/

mutual

/-- Whether two values are equal, also in the kinds of their numbers. -/
def equal : Json → Json → Bool
  | null, null => true
  | bool left, bool right => left == right
  | int left, int right => left == right
  | float left, float right => left == right
  | str left, str right => left == right
  | arr left, arr right => equalItems left right
  | obj left, obj right => equalFields left right
  | _, _ => false

/-- Two arrays. -/
def equalItems : List Json → List Json → Bool
  | [], [] => true
  | left :: lefts, right :: rights => equal left right && equalItems lefts rights
  | _, _ => false

/-- Two objects. -/
def equalFields : List (String × Json) → List (String × Json) → Bool
  | [], [] => true
  | (key, left) :: lefts, (name, right) :: rights =>
    key == name && equal left right && equalFields lefts rights
  | _, _ => false

end

mutual

/-- Every value is equal to itself. -/
theorem equal_self : ∀ json, equal json json = true
  | null => rfl
  | bool _ => by simp [equal]
  | int _ => by simp [equal]
  | float _ => by simp [equal]
  | str _ => by simp [equal]
  | arr items => equalItems_self items
  | obj fields => equalFields_self fields

/-- An array. -/
theorem equalItems_self : ∀ items, equalItems items items = true
  | [] => rfl
  | item :: rest => by simp [equalItems, equal_self item, equalItems_self rest]

/-- An object. -/
theorem equalFields_self : ∀ fields, equalFields fields fields = true
  | [] => rfl
  | (_, value) :: rest => by simp [equalFields, equal_self value, equalFields_self rest]

end

mutual

/-- Values that the test finds equal are. -/
theorem eq_of_equal : ∀ left right, equal left right = true → left = right
  | null, right, same => by cases right <;> simp_all [equal]
  | bool _, right, same => by cases right <;> simp_all [equal]
  | int _, right, same => by cases right <;> simp_all [equal]
  | float _, right, same => by cases right <;> simp_all [equal]
  | str _, right, same => by cases right <;> simp_all [equal]
  | arr items, right, same => by
    cases right with
    | arr others => rw [eq_of_equalItems items others same]
    | _ => simp [equal] at same
  | obj fields, right, same => by
    cases right with
    | obj others => rw [eq_of_equalFields fields others same]
    | _ => simp [equal] at same

/-- Arrays. -/
theorem eq_of_equalItems : ∀ left right, equalItems left right = true → left = right
  | [], [], _ => rfl
  | left :: lefts, right :: rights, same => by
    have both : equal left right = true ∧ equalItems lefts rights = true := by
      simpa [equalItems] using same
    rw [eq_of_equal left right both.1, eq_of_equalItems lefts rights both.2]

/-- Objects. -/
theorem eq_of_equalFields : ∀ left right, equalFields left right = true → left = right
  | [], [], _ => rfl
  | (key, left) :: lefts, (name, right) :: rights, same => by
    have all : (key = name ∧ equal left right = true) ∧ equalFields lefts rights = true := by
      simpa [equalFields] using same
    rw [all.1.1, eq_of_equal left right all.1.2, eq_of_equalFields lefts rights all.2]

end

instance : DecidableEq Json := fun left right =>
  decidable_of_iff (equal left right = true)
    ⟨eq_of_equal left right, fun same => same ▸ equal_self left⟩

/-! ## Fields that are set -/

/-- A field that is set is found, and the other fields are kept. -/
theorem find_set {json result value : Json} {key : String} (done : json.set key value = .ok result)
    (name : String) :
    result.find name = if name = key then some value else json.find name := by
  cases json with
  | obj fields =>
    obtain rfl := Except.ok.inj done
    by_cases same : name = key
    · simp [find, same]
    · simp [find, same]
  | null =>
    obtain rfl := Except.ok.inj done
    by_cases same : name = key
    · simp [find, Assoc.lookup, same]
    · simp [find, Assoc.lookup, same, Ne.symm same]
  | _ => contradiction

/-- The fields of a new object are found, the last one of a key. -/
theorem find_object (fields : List (String × Json)) (name : String) :
    (object fields).find name = Assoc.lookup name fields.reverse := by
  simp only [object, find, Assoc.lookup_foldl_assign]
  cases Assoc.lookup name fields.reverse with
  | none => rfl
  | some value => rfl

/-- The fields of a new object are read, the last one of a key. -/
theorem valueWith_object {α : Type} (get : Json → Except Thrown α) (fields : List (String × Json))
    (name : String) (fallback : α) :
    (object fields).valueWith get name fallback =
      match Assoc.lookup name fields.reverse with
      | some value => get value
      | none => .ok fallback := by
  have found := find_object fields name
  rw [object, find] at found
  rw [object, valueWith, found]

/-- Setting a field gives an object. -/
theorem isObject_set {json result value : Json} {key : String}
    (done : json.set key value = .ok result) : result.isObject := by
  cases json with
  | obj fields => exact Except.ok.inj done ▸ rfl
  | null => exact Except.ok.inj done ▸ rfl
  | _ => contradiction

/-- An object is not null. -/
@[simp] theorem isNull_object (fields : List (String × Json)) : (object fields).isNull = false :=
  rfl

/-- A value with a field is an object. -/
theorem isObject_of_find {json value : Json} {key : String} (found : json.find key = some value) :
    json.isObject = true := by
  cases json with
  | obj fields => rfl
  | _ => contradiction

/-- An object is not null. -/
theorem isNull_of_isObject {json : Json} (object : json.isObject = true) :
    json.isNull = false := by
  cases json with
  | obj fields => rfl
  | _ => contradiction

/-- A value with a field is not null. -/
theorem isNull_of_find {json value : Json} {key : String} (found : json.find key = some value) :
    json.isNull = false := by
  cases json with
  | null => contradiction
  | _ => rfl

/-- A field of an object can be set. -/
theorem set_of_isObject {json : Json} (object : json.isObject) (key : String) (value : Json) :
    ∃ result, json.set key value = .ok result := by
  cases json with
  | obj fields => exact ⟨_, rfl⟩
  | _ => contradiction

/-- `value` reads nothing but its own field. -/
theorem valueWith_congr {α : Type} {json other : Json} {key : String} (object : json.isObject)
    (otherObject : other.isObject) (found : json.find key = other.find key)
    (get : Json → Except Thrown α) (fallback : α) :
    json.valueWith get key fallback = other.valueWith get key fallback := by
  cases json with
  | obj fields =>
    cases other with
    | obj others =>
      simp only [find] at found
      simp only [valueWith, found]
    | _ => contradiction
  | _ => contradiction

/-- The fallback stands for a field that an object does not have. -/
theorem valueWith_of_absent {α : Type} {json : Json} {key : String} (object : json.isObject)
    (absent : json.find key = none) (get : Json → Except Thrown α) (fallback : α) :
    json.valueWith get key fallback = .ok fallback := by
  cases json with
  | obj fields =>
    simp only [find] at absent
    simp only [valueWith, absent]
  | _ => contradiction

/-- A field that is present is read by `value`. -/
theorem valueWith_of_find {α : Type} {json value : Json} {key : String}
    (found : json.find key = some value) (get : Json → Except Thrown α) (fallback : α) :
    json.valueWith get key fallback = get value := by
  cases json with
  | obj fields =>
    simp only [find] at found
    simp only [valueWith, found]
  | _ => contradiction

/-- A value whose fields are read is an object. -/
theorem isObject_of_valueWith {α : Type} {json : Json} {key : String}
    {get : Json → Except Thrown α} {fallback value : α}
    (read : json.valueWith get key fallback = .ok value) : json.isObject = true := by
  cases json with
  | obj fields => rfl
  | _ => contradiction

/-- A field that is present is read by `at`. -/
theorem at_of_find {json value : Json} {key : String} (found : json.find key = some value) :
    json.at key = .ok value := by
  cases json with
  | obj fields =>
    simp only [find] at found
    simp only [«at», found]
  | _ => contradiction

/-- What `at` reads is present. -/
theorem find_of_at {json value : Json} {key : String} (read : json.at key = .ok value) :
    json.find key = some value := by
  cases json with
  | obj fields =>
    simp only [«at»] at read
    split at read
    · rename_i found
      obtain rfl := Except.ok.inj read
      exact found
    · contradiction
  | _ => contradiction

/-- What `at` reads is contained. -/
theorem contains_of_at {json value : Json} {key : String} (read : json.at key = .ok value) :
    json.contains key := by
  simp [contains, find_of_at read]

end Json

end Chitta
