import Chitta.Machine
import Chitta.Daemon.Server

/-!
# The requests of a socket client and their answers

A client writes one request as a line, reads lines and takes the first one whose id is that of the
request. A request that it has given up may still be answered, so lines for earlier requests stay
in the stream; the ids tell them apart. The answer of a pool to a task that throws has no id, and
the client takes such an error for the request it is waiting for, whichever request has thrown.

The stream is that of one connection: what the daemon writes to it are its answers to the requests
of this connection, each at most once and in any order, and the lines of watched sadhanas.
-/
namespace Chitta.Client

open Daemon (Bytes Library Reply Tools Counts newline)

/-- A line of the daemon; a sadhana's line answers no request. -/
structure Frame where
  /-- The request it answers. -/
  origin : Option Nat
  /-- Its bytes without the newline. -/
  data : Bytes

/-- What the daemon has answered to a request. -/
structure Answer where
  /-- The request. -/
  request : Nat
  /-- What its handler threw, if it did. -/
  thrown : Option Thrown
  /-- The answer. -/
  json : Json

/-- A client and the daemon's side of its connection. -/
structure State where
  /-- The requests that were sent. -/
  requests : List Bytes
  /-- The request that is waited for. -/
  current : Option Nat
  /-- The requests that are not answered yet. -/
  open_ : List Nat
  /-- The bytes that the daemon has written and the client has not read. -/
  wire : Bytes
  /-- `read_buffer_`. -/
  readBuffer : Bytes
  /-- The lines of these bytes. -/
  frames : List Frame
  /-- What the daemon has answered. -/
  produced : List Answer
  /-- The answers that `request_internal` has returned. -/
  returned : List (Nat × Frame)

/-- A connection without requests. -/
def State.initial : State where
  requests := []
  current := none
  open_ := []
  wire := []
  readBuffer := []
  frames := []
  produced := []
  returned := []

/-- `expected_id`. -/
def expectedId (library : Library) (request : Bytes) : Option Json :=
  (library.parse request).bind fun json => json.find "id"

/-- `frame_id_matches`. -/
def frameIdMatches (library : Library) (expected : Option Json) (frame : Bytes) : Bool :=
  match expected with
  | none => true
  | some id =>
    match library.parse frame with
    | none => false
    | some json =>
      match json.find "id" with
      | some own => Json.same own id
      | none => false

/-- An error without an id. -/
def nullError (json : Json) : Bool :=
  json.contains "error" &&
    match json.find "id" with
    | some id => id.isNull
    | none => true

/-- Whether a line is taken for the answer. -/
def takes (library : Library) (expected : Option Json) (frame : Bytes) : Bool :=
  frameIdMatches library expected frame ||
    match library.parse frame with
    | some json => nullError json
    | none => false

/-- The line of an event of a sadhana. -/
def eventJson (sadhana : Int) (event : String) (timestamp duration : Int) (content : Json) : Json :=
  .object
    [("sadhana_id", .int sadhana), ("event_type", .str event), ("timestamp", .int timestamp),
      ("duration_ms", .int duration),
      ("content", if content.isNull then .object [] else content)]

/-- What happens on a connection. -/
inductive Action where
  /-- A request is written. -/
  | send (request : Bytes)
  /-- The loop answers a request. -/
  | answer (index : Nat) (reply : Reply)
  /-- A pool answers a request. -/
  | work (index : Nat) (tools : Tools) (counts : Option Counts) (what : String)
  /-- A watched sadhana has an event. -/
  | event (sadhana : Int) (event : String) (timestamp duration : Int) (content : Json)
  /-- The client reads. -/
  | read (count : Nat)
  /-- The client takes the next line. -/
  | frame
  /-- The client does not wait any longer, or has read too much. -/
  | giveUp

/-- The daemon writes an answer. -/
def State.write (library : Library) (state : State) (index : Nat) (answer : Answer) : State :=
  { state with
    open_ := state.open_.eraseIdx index
    wire := state.wire ++ (library.dump answer.json ++ [newline])
    frames := state.frames ++ [{ origin := some answer.request, data := library.dump answer.json }]
    produced := answer :: state.produced }

/-- What the handler of a request throws. -/
def throws (tools : Tools) (counts : Option Counts) (request : Json) : Option Thrown :=
  match Daemon.task tools counts request with
  | .ok _ => none
  | .error thrown => some thrown

/-- What the daemon answers in a step: the place of the request and the answer. -/
def produces (library : Library) (state : State) : Action → Option (Nat × Answer)
  | .answer index reply => do
    let number ← state.open_[index]?
    let request ← state.requests[number]?
    let parsed ← library.parse request
    if reply.inline then
      some (index, ⟨number, none, reply.json ((parsed.find "id").getD .null)⟩)
    else none
  | .work index tools counts what => do
    let number ← state.open_[index]?
    let request ← state.requests[number]?
    let parsed ← library.parse request
    some (index, ⟨number, throws tools counts parsed,
      (Daemon.work tools counts parsed what).json ((parsed.find "id").getD .null)⟩)
  | _ => none

/-- The steps on a connection. -/
def machine (library : Library) : Machine State Action where
  initial := .initial
  step state action :=
    match action with
    | .send request =>
      match state.current with
      | none =>
        some
          { state with
            requests := state.requests ++ [request]
            current := some state.requests.length
            open_ := state.open_ ++ [state.requests.length] }
      | some _ => none
    | .event sadhana event timestamp duration content =>
      let line := library.dump (eventJson sadhana event timestamp duration content)
      some
        { state with
          wire := state.wire ++ (line ++ [newline])
          frames := state.frames ++ [{ origin := none, data := line }] }
    | .read count =>
      if state.current.isSome then
        some
          { state with
            readBuffer := state.readBuffer ++ state.wire.take count
            wire := state.wire.drop count }
      else none
    | .frame =>
      match state.current, Framing.first newline state.readBuffer with
      | some number, some (data, rest) =>
        let left := { state with readBuffer := rest, frames := state.frames.tail }
        if takes library ((state.requests[number]?).bind (expectedId library)) data then
          some
            { left with
              current := none
              returned := (number, (state.frames.head?).getD { origin := none, data }) ::
                state.returned }
        else some left
      | _, _ => none
    | .giveUp => if state.current.isSome then some { state with current := none } else none
    | action =>
      match produces library state action with
      | some (index, answer) => some (state.write library index answer)
      | none => none

/-! ## What is promised of the ids -/

/-- A request is one line, and its id is not that of an earlier one. -/
def freshId (library : Library) (requests : List Bytes) (request : Bytes) : Bool :=
  newline ∉ request &&
    match expectedId library request with
    | none => false
    | some id => requests.all fun other =>
      match expectedId library other with
      | none => true
      | some earlier => !Json.same earlier id

/-- A value is written as one line, and its id reads back. -/
def ReadsBack (library : Library) (json : Json) : Prop :=
  newline ∉ library.dump json ∧
    ∃ read ∈ library.parse (library.dump json),
      read.find "id" = json.find "id" ∧ read.contains "error" = json.contains "error"

instance (library : Library) (json : Json) : Decidable (ReadsBack library json) :=
  inferInstanceAs (Decidable (_ ∧ _))

/-- The requests have distinct ids, and the ids of the daemon's lines read back. -/
def DistinctIds (library : Library) (state : State) : Action → Prop
  | .send request => freshId library state.requests request = true
  | .answer index reply =>
    ∀ made ∈ produces library state (.answer index reply), ReadsBack library made.2.json
  | .work index tools counts what =>
    ∀ made ∈ produces library state (.work index tools counts what), ReadsBack library made.2.json
  | .event sadhana event timestamp duration content =>
    ReadsBack library (eventJson sadhana event timestamp duration content)
  | _ => True

instance (library : Library) (state : State) : (action : Action) →
    Decidable (DistinctIds library state action)
  | .send request => inferInstanceAs (Decidable (freshId library state.requests request = true))
  | .answer index reply =>
    inferInstanceAs (Decidable
      (∀ made ∈ produces library state (.answer index reply), ReadsBack library made.2.json))
  | .work index tools counts what =>
    inferInstanceAs (Decidable
      (∀ made ∈ produces library state (.work index tools counts what),
        ReadsBack library made.2.json))
  | .event sadhana event timestamp duration content =>
    inferInstanceAs (Decidable
      (ReadsBack library (eventJson sadhana event timestamp duration content)))
  | .read _ | .frame | .giveUp => .isTrue trivial

variable {library : Library} {state next : State}

/-- The id of a request that was sent. -/
def idOf (library : Library) (requests : List Bytes) (number : Nat) : Option Json :=
  (requests[number]?).bind (expectedId library)

/-- What a line means: an answer has the id of its request or is an error without an id; a sadhana's
line has no id and is no error. -/
def Made (library : Library) (requests : List Bytes) (frame : Frame) : Prop :=
  newline ∉ frame.data ∧ ∃ json, library.parse frame.data = some json ∧
    match frame.origin with
    | none => json.find "id" = none ∧ json.contains "error" = false
    | some number => ∃ id, idOf library requests number = some id ∧
      (json.find "id" = some id ∨ nullError json = true)

/-- An answer of the daemon has the id of its request, unless the handler has thrown: then it is the
error of the pool. -/
def Carries (library : Library) (requests : List Bytes) (answer : Answer) : Prop :=
  ∃ id, idOf library requests answer.request = some id ∧
    match answer.thrown with
    | none => answer.json.find "id" = some id
    | some _ => ∃ what, answer.json = ThreadPool.errorResponse what

/-- A line is for the request, or is an error without an id for some request. -/
def Pairs (library : Library) (answer : Nat × Frame) : Prop :=
  answer.2.origin = some answer.1 ∨
    ∃ number json, answer.2.origin = some number ∧ library.parse answer.2.data = some json ∧
      nullError json = true

/-- The invariant of a connection. -/
structure Paired (library : Library) (state : State) : Prop where
  /-- The bytes on their way are those of the lines. -/
  stream : state.readBuffer ++ state.wire =
    Framing.join newline (state.frames.map (·.data))
  /-- The lines. -/
  made : ∀ frame ∈ state.frames, Made library state.requests frame
  /-- Every request has an id. -/
  ids : ∀ request ∈ state.requests, (expectedId library request).isSome = true
  /-- The ids differ. -/
  distinct : ∀ earlier later first second, earlier < later →
    idOf library state.requests earlier = some first →
    idOf library state.requests later = some second → Json.same first second = false
  /-- The last request is waited for. -/
  latest : ∀ number, state.current = some number → number + 1 = state.requests.length
  /-- The answers. -/
  carries : ∀ answer ∈ state.produced, Carries library state.requests answer
  /-- The lines that were returned. -/
  pairs : ∀ answer ∈ state.returned, Pairs library answer

/-- An id is that of a request that was sent. -/
theorem lt_of_idOf {requests : List Bytes} {number : Nat} {id : Json}
    (found : idOf library requests number = some id) : number < requests.length := by
  obtain ⟨request, sent, _⟩ := Option.bind_eq_some_iff.mp found
  exact (List.getElem?_eq_some_iff.mp sent).1

/-- A later request leaves the ids of the earlier ones. -/
theorem idOf_append {requests : List Bytes} {number : Nat} {id : Json}
    (found : idOf library requests number = some id) (request : Bytes) :
    idOf library (requests ++ [request]) number = some id := by
  have early := lt_of_idOf found
  rw [← found]
  simp only [idOf]
  rw [List.getElem?_append_left early]

/-- The id of the last request. -/
theorem idOf_last (requests : List Bytes) (request : Bytes) :
    idOf library (requests ++ [request]) requests.length = expectedId library request := by
  simp [idOf]

/-- Lines stay what they are when a request is sent. -/
theorem Made.append {requests : List Bytes} {frame : Frame} (made : Made library requests frame)
    (request : Bytes) : Made library (requests ++ [request]) frame := by
  obtain ⟨clean, json, read, means⟩ := made
  refine ⟨clean, json, read, ?_⟩
  cases origin : frame.origin with
  | none =>
    rw [origin] at means
    exact means
  | some number =>
    rw [origin] at means
    obtain ⟨id, found, own⟩ := means
    exact ⟨id, idOf_append found request, own⟩

namespace Paired

/-- A connection without requests. -/
theorem initial : Paired library .initial where
  stream := rfl
  made frame inside := by contradiction
  ids request inside := by contradiction
  distinct earlier later first second less found := by contradiction
  latest number waiting := by contradiction
  carries answer inside := by contradiction
  pairs answer inside := by contradiction

/-- A request is written. -/
theorem send (paired : Paired library state) {request : Bytes}
    (fresh : freshId library state.requests request = true) :
    Paired library
      { state with
        requests := state.requests ++ [request]
        current := some state.requests.length
        open_ := state.open_ ++ [state.requests.length] } := by
  have distinct := (Bool.and_eq_true_iff.mp fresh).2
  cases own : expectedId library request with
  | none =>
    rw [own] at distinct
    contradiction
  | some id =>
    rw [own] at distinct
    have others := List.all_eq_true.mp distinct
    exact
      { paired with
        made := fun frame inside => (paired.made frame inside).append request
        ids := by
          intro other inside
          cases List.mem_append.mp inside with
          | inl before => exact paired.ids other before
          | inr last => rw [List.mem_singleton.mp last, own]; rfl
        distinct := by
          intro earlier later first second less one two
          have bound := lt_of_idOf two
          rw [List.length_append, List.length_singleton] at bound
          have known : ∀ number id, number < state.requests.length →
              idOf library (state.requests ++ [request]) number = some id →
              idOf library state.requests number = some id := by
            intro number id early found
            simp only [idOf] at found ⊢
            rwa [List.getElem?_append_left early] at found
          by_cases last : later = state.requests.length
          · subst last
            rw [idOf_last, own] at two
            obtain rfl := Option.some.inj two
            have before := known earlier first less one
            obtain ⟨other, sent, read⟩ := Option.bind_eq_some_iff.mp before
            have differs := others other (List.mem_of_getElem? sent)
            rw [read] at differs
            simpa using differs
          · have early : later < state.requests.length := by omega
            exact paired.distinct earlier later first second less
              (known earlier first (by omega) one) (known later second early two)
        latest := by
          intro number waiting
          have same : state.requests.length = number := Option.some.inj waiting
          show number + 1 = (state.requests ++ [request]).length
          rw [List.length_append, List.length_singleton, same]
        carries := by
          intro answer inside
          obtain ⟨id, found, means⟩ := paired.carries answer inside
          exact ⟨id, idOf_append found request, means⟩ }

/-- A line is written. -/
theorem stream_append (paired : Paired library state) (frame : Frame) :
    state.readBuffer ++ (state.wire ++ (frame.data ++ [newline])) =
      Framing.join newline ((state.frames ++ [frame]).map (·.data)) := by
  rw [← List.append_assoc, paired.stream]
  simp [Framing.join]

/-- What the daemon answers has the id of the request, or is the error. -/
theorem carries_produces (paired : Paired library state) {action : Action} {index : Nat}
    {answer : Answer} (made : produces library state action = some (index, answer)) :
    Carries library state.requests answer := by
  have id_of : ∀ (number : Nat) request parsed, state.requests[number]? = some request →
      library.parse request = some parsed →
      ∃ id, parsed.find "id" = some id ∧ idOf library state.requests number = some id ∧
        parsed.valueJson "id" .null = .ok id := by
    intro number request parsed sent read
    have some_id := paired.ids request (List.mem_of_getElem? sent)
    obtain ⟨id, found⟩ := Option.isSome_iff_exists.mp some_id
    have own : parsed.find "id" = some id := by
      simpa [expectedId, read] using found
    refine ⟨id, own, by simp [idOf, sent, found], ?_⟩
    cases parsed with
    | obj fields =>
      simp only [Json.find] at own
      simp [Json.valueJson, Json.valueWith, own]
    | _ => contradiction
  cases action with
  | answer position reply =>
    simp only [produces, Option.bind_eq_bind, Option.bind_eq_some_iff] at made
    obtain ⟨own, _, request, sent, parsed, read, made⟩ := made
    split at made
    · rename_i inline
      cases made
      obtain ⟨id, own, found, _⟩ := id_of _ request parsed sent read
      refine ⟨id, found, ?_⟩
      dsimp only
      rw [own]
      exact Daemon.find_id_inline inline id
    · contradiction
  | work position tools counts what =>
    simp only [produces, Option.bind_eq_bind, Option.bind_eq_some_iff] at made
    obtain ⟨own, _, request, sent, parsed, read, made⟩ := made
    cases made
    obtain ⟨id, own, found, value⟩ := id_of _ request parsed sent read
    refine ⟨id, found, ?_⟩
    simp only [own, throws, Daemon.work]
    cases done : Daemon.task tools counts parsed with
    | ok response => exact Daemon.find_id_task value done
    | error thrown => exact ⟨what, rfl⟩
  | _ => contradiction

/-- The error of a task that throws has no id. -/
theorem nullError_errorResponse (what : String) :
    nullError (ThreadPool.errorResponse what) = true := by
  have error := Daemon.find_errorResponse what
  simp [nullError, error.1, error.2, Json.isNull]

/-- Whether a line is an error without an id is read back. -/
theorem nullError_congr {read json : Json} (id : read.find "id" = json.find "id")
    (error : read.contains "error" = json.contains "error") : nullError read = nullError json := by
  simp [nullError, id, error]

/-- The daemon answers a request. -/
theorem write (paired : Paired library state) {action : Action} {index : Nat} {answer : Answer}
    (made : produces library state action = some (index, answer))
    (back : ReadsBack library answer.json) :
    Paired library (state.write library index answer) := by
  have carries := paired.carries_produces made
  exact
    { paired with
      stream := paired.stream_append
        { origin := some answer.request, data := library.dump answer.json }
      made := by
        intro frame inside
        cases List.mem_append.mp inside with
        | inl before => exact paired.made frame before
        | inr last =>
          rw [List.mem_singleton.mp last]
          obtain ⟨clean, read, there, own, error⟩ := back
          obtain ⟨id, found, means⟩ := carries
          refine ⟨clean, read, there, id, found, ?_⟩
          cases thrown : answer.thrown with
          | none =>
            rw [thrown] at means
            exact .inl (own.trans means)
          | some exception =>
            rw [thrown] at means
            obtain ⟨what, same⟩ := means
            rw [same] at own error
            exact .inr ((nullError_congr own error).trans (nullError_errorResponse what))
      carries := by
        intro other inside
        cases inside with
        | head => exact carries
        | tail _ before => exact paired.carries other before }

/-- The line of a sadhana has no id and is no error. -/
theorem eventJson_find (sadhana : Int) (event : String) (timestamp duration : Int)
    (content : Json) : (eventJson sadhana event timestamp duration content).find "id" = none ∧
      (eventJson sadhana event timestamp duration content).contains "error" = false := by
  unfold eventJson Json.contains
  rw [Json.find_object, Json.find_object]
  exact ⟨by simp [Assoc.lookup], by simp [Assoc.lookup]⟩

/-- A watched sadhana has an event. -/
theorem event (paired : Paired library state) {sadhana : Int} {event : String}
    {timestamp duration : Int} {content : Json}
    (back : ReadsBack library (eventJson sadhana event timestamp duration content)) :
    Paired library
      { state with
        wire := state.wire ++
          (library.dump (eventJson sadhana event timestamp duration content) ++ [newline])
        frames := state.frames ++
          [{ origin := none
             data := library.dump (eventJson sadhana event timestamp duration content) }] } :=
  { paired with
    stream := paired.stream_append
      { origin := none, data := library.dump (eventJson sadhana event timestamp duration content) }
    made := by
      intro frame inside
      cases List.mem_append.mp inside with
      | inl before => exact paired.made frame before
      | inr last =>
        rw [List.mem_singleton.mp last]
        have means := eventJson_find sadhana event timestamp duration content
        obtain ⟨clean, read, there, own, error⟩ := back
        exact ⟨clean, read, there, own.trans means.1, error.trans means.2⟩ }

/-- The client reads. -/
theorem read (paired : Paired library state) (count : Nat) :
    Paired library
      { state with
        readBuffer := state.readBuffer ++ state.wire.take count
        wire := state.wire.drop count } :=
  { paired with
    stream := by
      show state.readBuffer ++ state.wire.take count ++ state.wire.drop count = _
      rw [List.append_assoc, List.take_append_drop]
      exact paired.stream }

/-- The next line of the buffer is the first line on its way. -/
theorem next_frame (paired : Paired library state) {data rest : Bytes}
    (found : Framing.first newline state.readBuffer = some (data, rest)) :
    ∃ frame others, state.frames = frame :: others ∧ frame.data = data ∧
      rest ++ state.wire = Framing.join newline (others.map (·.data)) := by
  have stream := paired.stream
  cases frames : state.frames with
  | nil =>
    rw [frames] at stream
    have empty := (List.append_eq_nil_iff.mp stream).1
    rw [empty] at found
    contradiction
  | cons frame others =>
    rw [frames] at stream
    have clean : newline ∉ frame.data :=
      (paired.made frame (by rw [frames]; exact List.mem_cons_self)).1
    have split : state.readBuffer ++ state.wire =
        frame.data ++ newline :: Framing.join newline (others.map (·.data)) := by
      rw [stream]
      simp [Framing.join]
    have same := Framing.first_of_part clean split found
    exact ⟨frame, others, rfl, same.1.symm, same.2⟩

/-- A line that is taken is for the request, or is an error without an id. -/
theorem pairs_takes (paired : Paired library state) {frame : Frame} (inside : frame ∈ state.frames)
    {number : Nat} (waiting : state.current = some number)
    (taken : takes library ((state.requests[number]?).bind (expectedId library)) frame.data =
      true) :
    Pairs library (number, frame) := by
  obtain ⟨_, json, read, means⟩ := paired.made frame inside
  have last := paired.latest number waiting
  have sent : ∃ id, idOf library state.requests number = some id := by
    have early : number < state.requests.length := by omega
    have present := paired.ids _ (List.getElem_mem early)
    obtain ⟨id, found⟩ := Option.isSome_iff_exists.mp present
    exact ⟨id, by simp [idOf, List.getElem?_eq_getElem early, found]⟩
  obtain ⟨expected, own⟩ := sent
  have known : (state.requests[number]?).bind (expectedId library) = some expected := own
  simp only [takes, known, frameIdMatches, read, Bool.or_eq_true] at taken
  cases origin : frame.origin with
  | none =>
    -- A sadhana's line is never taken.
    rw [origin] at means
    obtain ⟨absent, harmless⟩ := means
    simp [absent, nullError, harmless] at taken
  | some other =>
    rw [origin] at means
    obtain ⟨id, found, means⟩ := means
    cases means with
    | inr error => exact .inr ⟨other, json, origin, read, error⟩
    | inl carries =>
      cases taken with
      | inr null => exact .inr ⟨other, json, origin, read, null⟩
      | inl matches_ =>
        rw [carries] at matches_
        have bound := lt_of_idOf found
        by_cases same : other = number
        · exact .inl (origin.trans (congrArg some same))
        · have differs := paired.distinct other number id expected (by omega) found own
          have equal : Json.same id expected = true := matches_
          rw [differs] at equal
          contradiction

/-- The client takes or drops a line. -/
theorem frame (paired : Paired library state)
    (taken : (machine library).step state .frame = some next) : Paired library next := by
  simp only [machine] at taken
  split at taken
  · rename_i number data rest waiting found
    obtain ⟨frame, others, frames, same, stream⟩ := paired.next_frame found
    have inside : frame ∈ state.frames := by rw [frames]; exact List.mem_cons_self
    have left : Paired library
        { state with readBuffer := rest, frames := state.frames.tail } :=
      { paired with
        stream := by
          show rest ++ state.wire = Framing.join newline (state.frames.tail.map (·.data))
          rw [frames]
          exact stream
        made := fun other there => paired.made other (List.mem_of_mem_tail there) }
    split at taken
    · rename_i takes
      cases taken
      exact
        { left with
          latest := fun number waiting => by contradiction
          pairs := by
            intro answer inside'
            cases inside' with
            | head =>
              have head : (state.frames.head?).getD { origin := none, data } = frame := by
                rw [frames]
                rfl
              rw [head]
              rw [← same] at takes
              exact paired.pairs_takes inside waiting takes
            | tail _ before => exact paired.pairs answer before }
    · cases taken
      exact left
  · contradiction

/-- A step on a connection. -/
theorem step (paired : Paired library state) {action : Action}
    (fair : DistinctIds library state action)
    (taken : (machine library).step state action = some next) : Paired library next := by
  cases action with
  | send request =>
    simp only [machine] at taken
    split at taken
    · cases taken
      exact paired.send fair
    · contradiction
  | answer index reply =>
    simp only [machine] at taken
    split at taken
    · rename_i place answer made
      cases taken
      exact paired.write made (fair _ made)
    · contradiction
  | work index tools counts what =>
    simp only [machine] at taken
    split at taken
    · rename_i place answer made
      cases taken
      exact paired.write made (fair _ made)
    · contradiction
  | event sadhana event timestamp duration content =>
    cases taken
    exact paired.event fair
  | read count =>
    simp only [machine] at taken
    split at taken
    · cases taken
      exact paired.read count
    · contradiction
  | frame => exact paired.frame taken
  | giveUp =>
    simp only [machine] at taken
    split at taken
    · cases taken
      exact { paired with latest := fun number waiting => by contradiction }
    · contradiction

/-- A run of requests with distinct ids. -/
theorem reached (reached : (machine library).Reaches (DistinctIds library) state) :
    Paired library state :=
  reached.invariant .initial fun _ _ _ paired fair taken => paired.step fair taken

end Paired

/-- Requests with distinct ids: what is returned for a request is an answer to it, or an error
without an id that the daemon wrote for a request of this connection; and every answer of the
daemon has the id of its request, but for the error of a task that throws, whose id is null. -/
theorem answers_paired (reached : (machine library).Reaches (DistinctIds library) state) :
    (∀ answer ∈ state.returned, Pairs library answer) ∧
      ∀ answer ∈ state.produced, Carries library state.requests answer :=
  ⟨(Paired.reached reached).pairs, (Paired.reached reached).carries⟩

/-! ## An error without an id -/

/-- The calls of two tools. -/
def recallText (id : String) : String :=
  "\x7b\"id\":" ++ id ++ ",\"method\":\"tools/call\",\"params\":\x7b\"name\":\"recall\"\x7d\x7d"

/-- A call that was read. -/
def recallJson (id : Int) : Json :=
  .object [("id", .int id), ("method", .str "tools/call"),
    ("params", .object [("name", .str "recall")])]

/-- The error of a task that throws. -/
def boomText : String :=
  "\x7b\"error\":\x7b\"code\":-32603,\"message\":\"boom\"\x7d,\"id\":null,\"jsonrpc\":\"2.0\"\x7d"

/-- The result of the first call. -/
def firstText : String :=
  "\x7b\"error\":\x7b\"code\":-32601,\"message\":\"Unknown tool: recall\"\x7d,\"id\":1,\"jsonrpc\":\"2.0\"\x7d"

/-- The result of the first call that was read. -/
def firstJson : Json := Daemon.makeError (.int 1) (-32601) "Unknown tool: recall"

/-- A library that reads and writes these texts. -/
def recallLibrary : Library where
  parse data :=
    if data = Daemon.bytes (recallText "1") then some (recallJson 1)
    else if data = Daemon.bytes (recallText "2") then some (recallJson 2)
    else if data = Daemon.bytes boomText then some (ThreadPool.errorResponse "boom")
    else if data = Daemon.bytes firstText then some firstJson
    else none
  dump json :=
    if json = ThreadPool.errorResponse "boom" then Daemon.bytes boomText
    else if json = firstJson then Daemon.bytes firstText
    else []

/-- Tools: no recall, or one that throws. -/
def recallTools (tool : Option (Json → Except Thrown Daemon.ToolResult)) : Tools where
  list := .null
  find name := if name = "recall" then tool else none
  ready := true
  embedCache := .null

/-- A request is given up, and then its task throws while the next one is waited for. -/
def givenUp : List Action :=
  [.send (Daemon.bytes (recallText "1")), .giveUp, .send (Daemon.bytes (recallText "2")),
    .work 0 (recallTools (some fun _ => .error (.runtimeError "boom"))) none "boom",
    .read 4096, .frame]

/-- The error of the first request is returned for the second one. -/
theorem answers_paired_refuted :
    ¬∀ (library : Library) (state : State),
      (machine library).Reaches (DistinctIds library) state →
        (∀ answer ∈ state.returned, answer.2.origin = some answer.1) ∧
          ∀ answer ∈ state.produced,
            answer.json.find "id" = idOf library state.requests answer.request := by
  intro claim
  have replayed : ((machine recallLibrary).runAllowed (DistinctIds recallLibrary) .initial
      givenUp).any (fun state => state.returned.any fun answer =>
        answer.1 == 1 && answer.2.origin == some 0) = true := by decide +kernel
  obtain ⟨state, run, found⟩ := (Option.any_eq_true _ _).mp replayed
  obtain ⟨answer, inside, wrong⟩ := List.any_eq_true.mp found
  have facts := Bool.and_eq_true_iff.mp wrong
  have origin : answer.2.origin = some 0 := eq_of_beq facts.2
  have number : answer.1 = 1 := eq_of_beq facts.1
  have right := (claim recallLibrary state (.of_runAllowed _ .initial run)).1 answer inside
  rw [origin, number] at right
  contradiction

/-- A request whose answer is returned, and then one whose handler throws. -/
def answered : List Action :=
  [.send (Daemon.bytes (recallText "1")), .work 0 (recallTools none) none "", .read 4096, .frame,
    .send (Daemon.bytes (recallText "2")),
    .work 0 (recallTools (some fun _ => .error (.runtimeError "boom"))) none "boom",
      .read 4096, .frame]

/-- Both answers are returned for their requests. -/
theorem answers_paired_answered :
    ∃ state, (machine recallLibrary).runAllowed (DistinctIds recallLibrary) .initial answered =
        some state ∧
      state.returned.map (fun answer => (answer.1, answer.2.origin)) = [(1, some 1), (0, some 0)] ∧
      (∀ answer ∈ state.returned, Pairs recallLibrary answer) ∧
      ∀ answer ∈ state.produced, Carries recallLibrary state.requests answer := by
  have replayed : ((machine recallLibrary).runAllowed (DistinctIds recallLibrary) .initial
      answered).any (fun state => state.returned.map (fun answer => (answer.1, answer.2.origin)) ==
        [(1, some 1), (0, some 0)]) = true := by decide +kernel
  obtain ⟨state, run, found⟩ := (Option.any_eq_true _ _).mp replayed
  exact ⟨state, run, eq_of_beq found, answers_paired (.of_runAllowed _ .initial run)⟩

end Chitta.Client
