import Chitta.Assoc

/-!
# Endpoints and what the router knows of them

The loads and latencies are of type `double`; they are kept abstract here, since they decide which
endpoint is preferred but not how many callers it takes. The settings are the environment variables
that hold a number.
-/
namespace Chitta.EndpointRouter

/-- The operations on `double`. -/
class Double (D : Type) extends Add D, Sub D, Mul D, Div D, Neg D, OfScientific D, IntCast D, BEq D,
    LT D, LE D where
  /-- Whether one is smaller. -/
  decLt (left right : D) : Decidable (left < right)
  /-- Whether one is not larger. -/
  decLe (left right : D) : Decidable (left ≤ right)

attribute [reducible, instance] Double.decLt Double.decLe

variable {D : Type}

/-- `std::max` of doubles. -/
def larger [Double D] (left right : D) : D := if left < right then right else left

/-- `std::min` of doubles. -/
def smaller [Double D] (left right : D) : D := if right < left then right else left

/-- An endpoint. -/
structure LlmEndpoint (D : Type) where
  /-- Its address. -/
  url : String
  /-- Its server. -/
  kind : String
  /-- Its name. -/
  label : String
  /-- Whether it is always on. -/
  alwaysOn : Bool
  /-- Whether it has answered. -/
  reachable : Bool
  /-- Smaller ones are preferred. -/
  priority : Int
  /-- How long it takes to list its models. -/
  latencyMs : D
  /-- The roles that it serves, all when there are none. -/
  roles : List String
  /-- Its models. -/
  models : List String

/-- An endpoint that is only known by its address. -/
def LlmEndpoint.bare [Double D] (url : String) : LlmEndpoint D where
  url := url
  kind := "ollama"
  label := ""
  alwaysOn := false
  reachable := false
  priority := 100
  latencyMs := 0.0
  roles := []
  models := []

/-- Whether an endpoint serves a role with a model. -/
def endpointMatches (ep : LlmEndpoint D) (role model : String) : Bool :=
  ep.reachable && model ≠ "" && (ep.roles.isEmpty || ep.roles.contains role) &&
    ep.models.contains model

/-! ## Settings -/

/-- The environment variables that hold a number. -/
abbrev Settings := String → Option Int

/-- A setting that is not below a minimum, or its default. -/
def routerSetting (settings : Settings) (key : String) (fallback minimum : Int) : Int :=
  match settings key with
  | some value => max minimum value
  | none => fallback

/-- A letter or digit in upper case, and `_` for any other byte. -/
def labelChar (byte : UInt8) : Char :=
  let char := Char.ofUInt8 byte
  if byte < 128 && char.isAlphanum then char.toUpper else '_'

/-- The variable of an endpoint. -/
def routerLabelKey (start label : String) : String :=
  start ++ String.ofList (label.toUTF8.data.toList.map labelChar)

/-- How many callers an endpoint takes. -/
def cap (settings : Settings) (ep : LlmEndpoint D) : Int :=
  routerSetting settings (routerLabelKey "CHITTA_ROUTER_MAX_INFLIGHT_" ep.label)
    (if ep.alwaysOn then 4 else routerSetting settings "OLLAMA_NUM_PARALLEL" 1 1) 1

/-- How many tokens an endpoint makes in a second, zero for any number. -/
def budget (settings : Settings) (ep : LlmEndpoint D) : Int :=
  routerSetting settings (routerLabelKey "CHITTA_ROUTER_TPS_BUDGET_" ep.label)
    (if ep.alwaysOn then 60 else 0) 0

/-- After how many seconds models are listed again. -/
def endpointTtlS (settings : Settings) : Int :=
  routerSetting settings "CHITTA_ENDPOINT_TTL_S" 60 0

/-- An endpoint takes a caller. -/
theorem one_le_cap (settings : Settings) (ep : LlmEndpoint D) : 1 ≤ cap settings ep := by
  have default : 1 ≤ routerSetting settings "OLLAMA_NUM_PARALLEL" 1 1 := by
    unfold routerSetting
    split <;> omega
  unfold cap routerSetting
  split
  · exact Int.le_max_left _ _
  · split
    · decide
    · exact default

/-! ## Declared endpoints -/

/-- Blanks of C. -/
def isSpace (char : Char) : Bool := char = ' ' || (9 ≤ char.toNat && char.toNat ≤ 13)

/-- An address without blanks and slashes at its end, and then without `/v1`. -/
def trimUrl (url : String) : String :=
  let trimmed := (url.toList.reverse.dropWhile fun char => isSpace char || char = '/').reverse
  if "/v1".toList.isSuffixOf trimmed then String.ofList (trimmed.take (trimmed.length - 3))
  else String.ofList trimmed

/-- Whether an address is one of HTTP. -/
def isHttp (url : String) : Bool :=
  "http://".toList.isPrefixOf url.toList || "https://".toList.isPrefixOf url.toList

/-- An endpoint with its trimmed address, which is its name when it has none. -/
def LlmEndpoint.trim (ep : LlmEndpoint D) : LlmEndpoint D :=
  { ep with
    url := trimUrl ep.url
    label := if ep.label = "" then trimUrl ep.url else ep.label }

/-- An endpoint that was found is added; a declaration replaces what was found before. -/
def addEndpoint (entries : List (String × LlmEndpoint D)) (ep : LlmEndpoint D)
    (declaration : Bool) : List (String × LlmEndpoint D) :=
  if isHttp ep.trim.url then
    if declaration || (Assoc.lookup ep.trim.url entries).isNone then
      Assoc.assign ep.trim.url ep.trim entries
    else entries
  else entries

/-- The endpoints among what was found, with whether it was a declaration. -/
def declaredEndpoints (found : List (LlmEndpoint D × Bool)) : List (LlmEndpoint D) :=
  (found.foldl (fun entries item => addEndpoint entries item.1 item.2) []).map (·.2)

/-- Every entry is one of HTTP. -/
theorem addEndpoint_http {entries : List (String × LlmEndpoint D)}
    (http : ∀ entry ∈ entries, isHttp entry.2.url) (ep : LlmEndpoint D) (declaration : Bool) :
    ∀ entry ∈ addEndpoint entries ep declaration, isHttp entry.2.url := by
  unfold addEndpoint
  split
  · rename_i own
    split
    · intro entry inside
      cases Assoc.mem_assign inside with
      | inl added =>
        rw [added]
        exact own
      | inr before => exact http entry before
    · exact http
  · exact http

/-- A declared endpoint is one of HTTP. -/
theorem declaredEndpoints_http (found : List (LlmEndpoint D × Bool)) :
    ∀ ep ∈ declaredEndpoints found, isHttp ep.url := by
  have all : ∀ entries : List (String × LlmEndpoint D),
      (∀ entry ∈ entries, isHttp entry.2.url) →
      ∀ entry ∈ found.foldl (fun entries item => addEndpoint entries item.1 item.2) entries,
        isHttp entry.2.url := by
    induction found with
    | nil => exact fun _ http => http
    | cons item rest ih =>
      intro entries http
      rw [List.foldl_cons]
      exact ih _ (addEndpoint_http http item.1 item.2)
  intro ep inside
  obtain ⟨entry, there, rfl⟩ := List.mem_map.mp inside
  exact all [] nofun entry there

/-- A declared endpoint has an address. -/
theorem declaredEndpoints_url (found : List (LlmEndpoint D × Bool)) :
    ∀ ep ∈ declaredEndpoints found, ep.url ≠ "" := by
  intro ep inside empty
  have http := declaredEndpoints_http found ep inside
  rw [empty] at http
  contradiction

end Chitta.EndpointRouter
