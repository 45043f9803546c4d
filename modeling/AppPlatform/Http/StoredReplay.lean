import AppPlatform.Http.IdempotencySafety

/-!
# A stored response is replayed

From the body a handler emits under its claim to the answer of a later request with the same key and
fingerprint. `stored_response_round_trip`: the answer is the response, or the marker for the bodies that
have no JSON to keep; what a body holds decides nothing else.
-/

namespace Idempotency
open Js
open KeyValue (Call)

def NotData : Value → Prop
  | .function | .symbol | .instance .file _ | .instance .binary _ | .instance .stream _ => True
  | .object fields => ((Value.object fields).field (text "pipe")).isFunction = true ∨
      ((Value.object fields).field (text "getReader")).isFunction = true
  | _ => False

theorem isSerializableBody_iff (body : Value) : isSerializableBody body = false ↔ NotData body := by
  cases body with
  | object fields =>
    rw [isSerializableBody, NotData, Bool.and_eq_false_iff, Bool.not_eq_false', Bool.not_eq_false']
  | «instance» kind written => cases kind <;> simp [isSerializableBody, NotData]
  | _ => simp [isSerializableBody, NotData]

/-- The responses that have nothing to replay. -/
def Unreplayable (fingerprint : Text) (body : Value) (reply : Reply) : Prop :=
  NotData body ∨ body.written = .throws ∨
    MAX_STORED_RESPONSE_BYTES <
      byteLength (stringify (fullRecord fingerprint reply.statusCode body.written.json? (replayableHeaders reply)))

theorem recordFor_unreplayable {fingerprint : Text} {body : Value} {reply : Reply}
    (unreplayable : Unreplayable fingerprint body reply) :
    recordFor fingerprint reply.statusCode body reply = some (marker fingerprint reply.statusCode) := by
  unfold recordFor
  rcases unreplayable with notData | throws | large
  · rw [(isSerializableBody_iff body).mpr notData]
    rfl
  · rw [throws]
    split <;> rfl
  · split
    · rfl
    split
    · rfl
    · rename_i nothing
      rw [nothing] at large
      exact if_pos large
    · rename_i b written
      rw [written] at large
      exact if_pos large

theorem recordFor_replayable {fingerprint : Text} {body : Value} {reply : Reply}
    (replayable : ¬Unreplayable fingerprint body reply) : recordFor fingerprint reply.statusCode body reply =
      some (normalForm (fullRecord fingerprint reply.statusCode body.written.json? (replayableHeaders reply))) := by
  obtain ⟨data, rest⟩ := not_or.mp replayable
  obtain ⟨writes, small⟩ := not_or.mp rest
  have serializable : isSerializableBody body = true := by
    rw [← Bool.not_eq_false, isSerializableBody_iff]
    exact data
  rw [recordFor, serializable]
  cases written : body.written with
  | throws => exact absurd written writes
  | nothing =>
    rw [written] at small
    exact (if_neg small).trans (parse_stringify _)
  | json b =>
    rw [written] at small
    exact (if_neg small).trans (parse_stringify _)

/-- A string with no control character, of reasonable length. -/
def SafeHeader (value : Text) : Prop := 0 < value.length ∧ value.length ≤ 2048 ∧ value.any isControl = false

theorem replayableHeader_iff {reply : Reply} {name name' value : Text} : replayableHeader reply name' = some (name, value) ↔
    name' = name ∧ reply.getHeader name' = .text value ∧ SafeHeader value := by
  unfold replayableHeader
  cases given : reply.getHeader name' with
  | text value' =>
    by_cases safe : SafeHeader value'
    · have accepted : 0 < value'.length ∧ value'.length ≤ 2048 ∧ (!value'.any isControl) = true := by
        simpa [SafeHeader] using safe
      simp only [if_pos accepted, Option.some.injEq, Prod.mk.injEq, HeaderValue.text.injEq]
      refine and_congr_right fun _ => ⟨fun same => ⟨same, same ▸ safe⟩, fun both => both.1⟩
    · have refused : ¬(0 < value'.length ∧ value'.length ≤ 2048 ∧ (!value'.any isControl) = true) := by
        simpa [SafeHeader] using safe
      simp only [if_neg refused, reduceCtorEq, HeaderValue.text.injEq, false_iff]
      intro ⟨_, same, safe'⟩
      exact safe (same ▸ safe')
  | missing => simp
  | other => simp

theorem mem_replayableHeaders {reply : Reply} {name value : Text} : (name, value) ∈ replayableHeaders reply ↔
    name ∈ REPLAYED_RESPONSE_HEADERS ∧ reply.getHeader name = .text value ∧ SafeHeader value := by
  rw [replayableHeaders, List.mem_filterMap]
  simp only [replayableHeader_iff]
  constructor
  · intro ⟨name', listed, same, rest⟩
    subst same
    exact ⟨listed, rest⟩
  · intro ⟨listed, rest⟩
    exact ⟨name, listed, rfl, rest⟩

/-- What `intercept` gives for a stored response, with its headers but for the one that says it is a replay. -/
structure Replay where
  status : Number
  body : Option Json
  headers : List (Text × Json)

/-- `Object.entries(h ?? {})`, as far as its names can be those of headers. -/
def headerEntries : Option Json → List (Text × Json)
  | some (.obj fields) => fields
  | _ => []

def replayOf (stored : StoredResponse) : Replay :=
  ⟨stored.s, stored.b, (headerEntries stored.h).filter fun header => header.1 ∈ REPLAYED_RESPONSE_HEADERS⟩

theorem replayed_headers (reply : Reply) :
    (headerEntries (if replayableHeaders reply = [] then none else some (headersJson (replayableHeaders reply)))).filter
      (fun header => header.1 ∈ REPLAYED_RESPONSE_HEADERS) = (replayableHeaders reply).map fun (name, value) =>
        (name, .str value) := by
  have listed : ((replayableHeaders reply).map fun (name, value) => (name, Json.str value)).filter
      (fun header => header.1 ∈ REPLAYED_RESPONSE_HEADERS) = (replayableHeaders reply).map fun (name, value) =>
        (name, .str value) := by
    refine List.filter_eq_self.mpr ?_
    intro header member
    obtain ⟨⟨name, value⟩, kept, rfl⟩ := List.mem_map.mp member
    exact decide_eq_true (mem_replayableHeaders.mp kept).1
  split
  · rename_i empty
    rw [empty]
    rfl
  · exact listed

/-! ### The round trip -/

/-- What becomes of the body a handler emitted: the record of it, and the answer that is read from the record. -/
structure RoundTrip (fingerprint : Text) (reply : Reply) (body : Value) (record : Text) (answered : Phase) : Prop where
  read : ∃ stored, parseStored record = some stored ∧ stored.f = fingerprint ∧ stored.s = ofRat reply.statusCode ∧
    (stored.isMarker = true ↔ Unreplayable fingerprint body reply)
  marked : Unreplayable fingerprint body reply → record = stringify (marker fingerprint reply.statusCode) ∧
    answered = .answered (.notReplayable (ofRat reply.statusCode))
  replayed : ¬Unreplayable fingerprint body reply → ∃ stored, answered = .answered (.replay stored) ∧
    replayOf stored = ⟨ofRat reply.statusCode, body.written.json?.map normalForm,
      (replayableHeaders reply).map fun (name, value) => (name, .str value)⟩
  headers : ∀ name value, (name, value) ∈ replayableHeaders reply ↔
    name ∈ [text "location", text "etag", text "content-type"] ∧ reply.getHeader name = .text value ∧ SafeHeader value

theorem answerTo_same {fingerprint record : Text} {stored : StoredResponse} (parsed : parseStored record = some stored)
    (same : stored.f = fingerprint) :
    answerTo record fingerprint = if stored.isMarker then .answered (.notReplayable stored.s) else .answered (.replay stored) := by
  rw [answerTo, parsed]
  exact if_neg (not_not.mpr same)

theorem outcome_round_trip (fingerprint : Text) {reply : Reply} (body : Value)
    (success : 200 ≤ reply.statusCode ∧ reply.statusCode ≤ 299) :
    ∃ record, outcomeOf fingerprint reply body = .stored record ∧
      RoundTrip fingerprint reply body record (answerTo record fingerprint) := by
  have small : reply.statusCode < 2 ^ 53 := by omega
  have successful : ¬(reply.statusCode < 200 ∨ 299 < reply.statusCode) := by omega
  by_cases unreplayable : Unreplayable fingerprint body reply
  · have parsed := parseStored_marker fingerprint small
    refine ⟨_, by rw [outcomeOf, if_neg successful, recordFor_unreplayable unreplayable], ?_, ?_, ?_, fun _ _ =>
      mem_replayableHeaders⟩
    · exact ⟨_, parsed, rfl, rfl, iff_of_true rfl unreplayable⟩
    · intro _
      exact ⟨rfl, by rw [answerTo_same parsed rfl]; rfl⟩
    · exact fun replayable => absurd unreplayable replayable
  · have parsed := parseStored_full fingerprint small body.written.json? reply
    refine ⟨_, by rw [outcomeOf, if_neg successful, recordFor_replayable unreplayable], ?_, ?_, ?_, fun _ _ => mem_replayableHeaders⟩
    · exact ⟨_, parsed, rfl, rfl, iff_of_false Bool.false_ne_true unreplayable⟩
    · exact fun marked => absurd marked unreplayable
    · intro _
      refine ⟨_, by rw [answerTo_same parsed rfl]; rfl, ?_⟩
      rw [replayOf, replayed_headers]

variable {ι : Type*} [DecidableEq ι]

/-- A response emitted under the claim and written to the cache answers every later request with the
same fingerprint, while the cache holds it. -/
theorem stored_response_round_trip (c : Config ι) {s s' t u v w : State ι} {i j : ι} {reply : Reply} {body : Value} {call : Call}
    (running : s.phase i = .running) (held : s.release i = .pending)
    (success : 200 ≤ reply.statusCode ∧ reply.statusCode ≤ 299) (emitted : step c s (.emit i reply body) = some s')
    (waiting : t.phase i = s'.phase i) (stored : step c t (.store i call) = some u) (sent : call ≠ .lost)
    (present : v.cache.get c.recordKey = u.cache.get c.recordKey) (arrived : step c v (.arrive j .ok) = some w)
    (same : c.fingerprint j = c.fingerprint i) :
    ∃ record, u.cache.get c.recordKey = some record ∧ RoundTrip (c.fingerprint i) reply body record (w.phase j) := by
  obtain ⟨record, outcome, trip⟩ := outcome_round_trip (c.fingerprint i) body success
  have storing : t.phase i = .storing (.stored record) := by
    simp only [step, running, held, if_true, Option.some.injEq] at emitted
    rw [waiting, ← emitted, become_same, outcome]
  have written : u.cache.get c.recordKey = some record := by
    simp only [step, storing] at stored
    rw [← Option.some.inj stored, finalize_cache, become_cache, write_cache, Call.apply, if_neg sent]
    exact KeyValue.Store.get_set_same _ _ _ ttl_positive
  refine ⟨record, written, ?_⟩
  have answered : w.phase j = answerTo record (c.fingerprint i) := by
    rw [← same]
    exact arrive_answered (present.trans written) arrived
  rw [answered]
  exact trip

def located : Reply := ⟨201, fun name => if name = text "location" then .text (text "/v1/things/17") else .missing⟩

def thing : Value := .object [(text "id", .str (text "17"))]

def thingJson : Json := .obj [(text "id", .str (text "17"))]

theorem located_headers : replayableHeaders located = [(text "location", text "/v1/things/17")] := by decide

theorem thing_replayable : ¬Unreplayable (text "a") thing located := by
  have written : thing.written = .json thingJson := rfl
  have short : byteLength (stringify (fullRecord (text "a") 201 (some thingJson) (replayableHeaders located))) ≤
      MAX_STORED_RESPONSE_BYTES := by
    rw [located_headers]
    simp only [fullRecord, recordHead, thingJson, Option.map_some, Option.toList_some, List.cons_append, List.nil_append,
      stringify, stringifyFields, stringify_natJson (show 1 < 2 ^ 53 by norm_num),
      stringify_natJson (show 201 < 2 ^ 53 by norm_num), headersJson, reduceCtorEq, if_false, List.map_cons, List.map_nil]
    decide
  rintro (stream | throws | large)
  · rcases stream with pipe | reader
    · exact absurd pipe (by decide)
    · exact absurd reader (by decide)
  · cases written.symm.trans throws
  · exact absurd short (Nat.not_le.mpr large)

/-- The file is marked, and the thing is given again with its place. -/
theorem stored_response_round_trip_created :
    (∃ record answered, RoundTrip (text "a") created .function record answered) ∧
    ∃ record stored, RoundTrip (text "a") located thing record (.answered (.replay stored)) ∧
      replayOf stored = ⟨ofRat 201, some thingJson, [(text "location", .str (text "/v1/things/17"))]⟩ := by
  constructor
  · have steps : ∃ s s' u w : State ℕ, s.phase 0 = .running ∧ s.release 0 = .pending ∧
        step numbered s (.emit 0 created .function) = some s' ∧ step numbered s' (.store 0 .ok) = some u ∧
        step numbered u (.arrive 1 .ok) = some w :=
      ⟨(initial 0).become 0 .running, _, _, _, rfl, rfl, rfl, rfl, rfl⟩
    obtain ⟨s, s', u, w, running, held, emitted, stored, arrived⟩ := steps
    obtain ⟨record, _, trip⟩ :=
      stored_response_round_trip numbered running held (by decide) emitted rfl stored (by decide) rfl arrived rfl
    exact ⟨record, _, trip⟩
  · obtain ⟨written, outcome, _⟩ := outcome_round_trip (text "a") thing (show 200 ≤ located.statusCode ∧ _ by decide)
    have steps : ∃ s s' u w : State ℕ, s.phase 0 = .running ∧ s.release 0 = .pending ∧
        step numbered s (.emit 0 located thing) = some s' ∧ step numbered s' (.store 0 .ok) = some u ∧
        step numbered u (.arrive 1 .ok) = some w := by
      refine ⟨(initial 0).become 0 .running, ((initial 0).become 0 .running).become 0 (.storing (.stored written)), _, _,
        rfl, rfl, ?_, rfl, rfl⟩
      rw [← outcome]
      rfl
    obtain ⟨s, s', u, w, running, held, emitted, stored, arrived⟩ := steps
    obtain ⟨record, _, trip⟩ :=
      stored_response_round_trip numbered running held (by decide) emitted rfl stored (by decide) rfl arrived rfl
    obtain ⟨stored, answered, replayed⟩ := trip.replayed thing_replayable
    rw [answered] at trip
    refine ⟨record, stored, trip, replayed.trans ?_⟩
    rw [located_headers]
    rfl

end Idempotency
