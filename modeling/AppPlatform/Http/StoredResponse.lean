import AppPlatform.Lib.Value

/-!
# The stored response

What the idempotency interceptor keeps under a record key: the answer of the handler with the
fingerprint of the question, or a marker when there is no answer to give again.
-/

namespace Idempotency
open Js

inductive HeaderValue where
  | missing
  | text (value : Text)
  | other

structure Reply where
  statusCode : ℕ
  getHeader : Text → HeaderValue

def MAX_STORED_RESPONSE_BYTES : ℕ := 256 * 1024

def REPLAYED_RESPONSE_HEADERS : List Text := [text "location", text "etag", text "content-type"]

def isSerializableBody : Value → Bool
  | .undefined | .null => true
  | .function | .symbol => false
  | .bool _ | .num _ | .str _ | .bigint | .array _ => true
  | .object fields => !((Value.object fields).field (text "pipe")).isFunction &&
      !((Value.object fields).field (text "getReader")).isFunction
  | .instance .file _ | .instance .binary _ | .instance .stream _ => false
  | .instance .other _ => true

/-- `/[\u0000-\u001f\u007f]/`. -/
def isControl (u : CodeUnit) : Bool := u ≤ 0x1f || u = 0x7f

def replayableHeader (reply : Reply) (name : Text) : Option (Text × Text) :=
  match reply.getHeader name with
  | .text value =>
    if 0 < value.length ∧ value.length ≤ 2048 ∧ !value.any isControl then some (name, value) else none
  | _ => none

def replayableHeaders (reply : Reply) : List (Text × Text) :=
  REPLAYED_RESPONSE_HEADERS.filterMap (replayableHeader reply)

def natJson (n : ℕ) : Json := .num (ofRat n)

def headersJson (headers : List (Text × Text)) : Json := .obj (headers.map fun (name, value) => (name, .str value))

/-- The fields every record starts with. -/
def recordHead (fingerprint : Text) (status : ℕ) : List (Text × Json) :=
  [(text "v", natJson 1), (text "f", .str fingerprint), (text "s", natJson status)]

def marker (fingerprint : Text) (status : ℕ) : Json :=
  .obj (recordHead fingerprint status ++ [(text "m", .str (text "not-replayable"))])

/-- The record before it is written: an absent body and an empty header list are left out. -/
def fullRecord (fingerprint : Text) (status : ℕ) (body : Option Json) (headers : List (Text × Text)) : Json :=
  .obj (recordHead fingerprint status ++ (body.map fun b => (text "b", b)).toList ++
    if headers = [] then [] else [(text "h", headersJson headers)])

/-- The second reading can fail like any other; `parse_stringify` rules it out. -/
def keepIfSmall (fingerprint : Text) (status : ℕ) (json : Text) : Option Json :=
  if MAX_STORED_RESPONSE_BYTES < byteLength json then some (marker fingerprint status) else parse json

def recordFor (fingerprint : Text) (status : ℕ) (body : Value) (reply : Reply) : Option Json :=
  if !isSerializableBody body then some (marker fingerprint status)
  else match body.written with
    | .throws => some (marker fingerprint status)
    | .nothing => keepIfSmall fingerprint status (stringify (fullRecord fingerprint status none (replayableHeaders reply)))
    | .json b => keepIfSmall fingerprint status (stringify (fullRecord fingerprint status (some b) (replayableHeaders reply)))

structure StoredResponse where
  f : Text
  s : Number
  b : Option Json
  h : Option Json
  m : Option Json

def readStored (value : Json) : Option StoredResponse :=
  match value.field? (text "v"), value.field? (text "f"), value.field? (text "s") with
  | some (.num v), some (.str f), some (.num s) =>
    if v.isFinite 1 then
      some ⟨f, s, value.field? (text "b"), value.field? (text "h"), value.field? (text "m")⟩
    else none
  | _, _, _ => none

def parseStored (raw : Text) : Option StoredResponse := (parse raw).bind readStored

/-- `stored.m`, as a condition. -/
def StoredResponse.isMarker (stored : StoredResponse) : Bool := (stored.m.map Json.truthy).getD false

/-! ### A record is read back -/

theorem normalForm_natJson {n : ℕ} (small : n < 2 ^ 53) : normalForm (natJson n) = natJson n := by
  rw [natJson, ofRat_double (isDouble_nat small), normalForm]

theorem stringify_natJson {n : ℕ} (small : n < 2 ^ 53) : stringify (natJson n) = natText n := by
  rw [natJson, ofRat_double (isDouble_nat small), stringify, numberText_nat small]

theorem normalFields_append (fields rest : List (Text × Json)) :
    normalFields (fields ++ rest) = normalFields fields ++ normalFields rest := by
  induction fields with
  | nil => rfl
  | cons head tail ih =>
    obtain ⟨k, v⟩ := head
    rw [List.cons_append, normalFields, normalFields, ih, List.cons_append]

theorem recordHead_normal (fingerprint : Text) {status : ℕ} (small : status < 2 ^ 53) :
    normalFields (recordHead fingerprint status) = recordHead fingerprint status := by
  rw [recordHead, normalFields, normalFields, normalFields, normalFields,
    normalForm_natJson (by norm_num), normalForm_natJson small, normalForm]

/-- The keys of a record are in property order, whatever of the last three is left out. -/
theorem normalForm_record (fingerprint : Text) {status : ℕ} (small : status < 2 ^ 53) {rest : List (Text × Json)}
    (known : (rest.map Prod.fst).Sublist [text "b", text "h", text "m"]) :
    normalForm (.obj (recordHead fingerprint status ++ rest)) =
      .obj (recordHead fingerprint status ++ normalFields rest) := by
  have all : [text "v", text "f", text "s", text "b", text "h", text "m"].Pairwise
      (fun a b => a ≠ b ∧ precedes b a = false) := by decide
  have keys : ((recordHead fingerprint status ++ normalFields rest).map Prod.fst).Sublist
      [text "v", text "f", text "s", text "b", text "h", text "m"] := by
    rw [List.map_append, normalFields_keys]
    exact known.append_left [text "v", text "f", text "s"]
  have ordered : Ordered (recordHead fingerprint status ++ normalFields rest) :=
    List.pairwise_map.mp (all.sublist keys)
  rw [normalForm, normalFields_append, recordHead_normal fingerprint small, buildFields_eq ordered]

theorem readStored_head (fingerprint : Text) {status : ℕ} (rest : List (Text × Json)) :
    readStored (.obj (recordHead fingerprint status ++ rest)) =
      some ⟨fingerprint, ofRat status, rest.lookup (text "b"), rest.lookup (text "h"), rest.lookup (text "m")⟩ := by
  have one : (ofRat ((1 : ℕ) : ℚ)).isFinite 1 = true := by
    rw [ofRat_double (isDouble_nat (show 1 < 2 ^ 53 by norm_num))]
    simp [Number.isFinite]
  have absent : ∀ k ∈ [text "b", text "h", text "m"],
      (Json.obj (recordHead fingerprint status ++ rest)).field? k = rest.lookup k := by
    intro k member
    have differs : k ≠ text "v" ∧ k ≠ text "f" ∧ k ≠ text "s" := by
      simp only [List.mem_cons, List.not_mem_nil, or_false] at member
      rcases member with rfl | rfl | rfl <;> decide
    obtain ⟨notV, notF, notS⟩ := differs
    simp [Json.field?, recordHead, List.lookup_cons, beq_false_of_ne notV, beq_false_of_ne notF, beq_false_of_ne notS]
  have v : (Json.obj (recordHead fingerprint status ++ rest)).field? (text "v") = some (natJson 1) := rfl
  have f : (Json.obj (recordHead fingerprint status ++ rest)).field? (text "f") = some (.str fingerprint) := rfl
  have s : (Json.obj (recordHead fingerprint status ++ rest)).field? (text "s") = some (natJson status) := rfl
  rw [readStored, v, f, s, absent _ (by simp), absent _ (by simp), absent _ (by simp)]
  exact if_pos one

theorem parseStored_marker (fingerprint : Text) {status : ℕ} (small : status < 2 ^ 53) :
    parseStored (stringify (marker fingerprint status)) =
      some ⟨fingerprint, ofRat status, none, none, some (.str (text "not-replayable"))⟩ := by
  have known : [text "m"].Sublist [text "b", text "h", text "m"] := by decide
  have same : normalForm (marker fingerprint status) = marker fingerprint status :=
    normalForm_record fingerprint small known
  rw [parseStored, parse_stringify, same, Option.bind_some, marker, readStored_head]
  rfl

theorem normalForm_headers (headers : List (Text × Text)) :
    normalFields (headers.map fun (name, value) => (name, Json.str value)) =
      headers.map fun (name, value) => (name, .str value) := by
  induction headers with
  | nil => rfl
  | cons head rest ih => rw [List.map_cons, normalFields, ih, normalForm]

theorem replayableHeaders_ordered (reply : Reply) :
    Ordered ((replayableHeaders reply).map fun (name, value) => (name, Json.str value)) := by
  have names : ∀ allowed : List Text, ((allowed.filterMap (replayableHeader reply)).map Prod.fst).Sublist allowed := by
    intro allowed
    induction allowed with
    | nil => exact List.Sublist.slnil
    | cons name rest ih =>
      cases kept : replayableHeader reply name with
      | none =>
        rw [List.filterMap_cons_none kept]
        exact ih.cons _
      | some header =>
        rw [List.filterMap_cons_some kept, List.map_cons]
        have same : header.1 = name := by
          unfold replayableHeader at kept
          split at kept
          · split at kept
            · cases kept
              rfl
            · cases kept
          · cases kept
        rw [same]
        exact ih.cons_cons _
  have all : REPLAYED_RESPONSE_HEADERS.Pairwise (fun a b => a ≠ b ∧ precedes b a = false) := by decide
  have kept := all.sublist (names REPLAYED_RESPONSE_HEADERS)
  rw [Ordered, List.pairwise_map]
  exact List.pairwise_map.mp kept

theorem parseStored_full (fingerprint : Text) {status : ℕ} (small : status < 2 ^ 53) (body : Option Json) (reply : Reply) :
    parseStored (stringify (normalForm (fullRecord fingerprint status body (replayableHeaders reply)))) =
      some ⟨fingerprint, ofRat status, body.map normalForm,
        if replayableHeaders reply = [] then none else some (headersJson (replayableHeaders reply)), none⟩ := by
  have headers : normalForm (headersJson (replayableHeaders reply)) = headersJson (replayableHeaders reply) := by
    rw [headersJson, normalForm, normalForm_headers, buildFields_eq (replayableHeaders_ordered reply)]
  have body_known : ((body.map fun b => (text "b", b)).toList.map Prod.fst).Sublist [text "b"] := by
    cases body
    · exact List.nil_sublist _
    · exact List.Sublist.refl [text "b"]
  have headers_known : ((if replayableHeaders reply = [] then [] else
      [(text "h", headersJson (replayableHeaders reply))]).map Prod.fst).Sublist [text "h", text "m"] := by
    split
    · exact List.nil_sublist _
    · exact (List.nil_sublist _).cons_cons _
  have known := body_known.append headers_known
  rw [← List.map_append] at known
  rw [parseStored, parse_stringify, normalForm_idem, Option.bind_some, fullRecord, List.append_assoc,
    normalForm_record fingerprint small known, readStored_head]
  cases body <;> by_cases empty : replayableHeaders reply = [] <;>
    simp only [empty, if_true, if_false, Option.map_none, Option.map_some, Option.toList_none, Option.toList_some,
      List.append_nil, List.nil_append, List.cons_append, normalFields, headers] <;> rfl

theorem recordFor_cases (fingerprint : Text) (status : ℕ) (body : Value) (reply : Reply) :
    recordFor fingerprint status body reply = some (marker fingerprint status) ∨
    ∃ b, recordFor fingerprint status body reply =
      some (normalForm (fullRecord fingerprint status b (replayableHeaders reply))) := by
  have small : ∀ b, keepIfSmall fingerprint status (stringify (fullRecord fingerprint status b (replayableHeaders reply))) =
        some (marker fingerprint status) ∨
      keepIfSmall fingerprint status (stringify (fullRecord fingerprint status b (replayableHeaders reply))) =
        some (normalForm (fullRecord fingerprint status b (replayableHeaders reply))) := by
    intro b
    unfold keepIfSmall
    split
    · exact Or.inl rfl
    · exact Or.inr (parse_stringify _)
  unfold recordFor
  split
  · exact Or.inl rfl
  split
  · exact Or.inl rfl
  · exact (small none).imp_right fun kept => ⟨none, kept⟩
  · rename_i b _
    exact (small (some b)).imp_right fun kept => ⟨some b, kept⟩

theorem parseStored_recordFor {fingerprint : Text} {status : ℕ} {body : Value} {reply : Reply} {record : Json}
    (small : status < 2 ^ 53) (built : recordFor fingerprint status body reply = some record) :
    ∃ stored, parseStored (stringify record) = some stored ∧ stored.f = fingerprint ∧ stored.s = ofRat status := by
  rcases recordFor_cases fingerprint status body reply with kept | ⟨b, kept⟩
  · cases kept.symm.trans built
    exact ⟨_, parseStored_marker fingerprint small, rfl, rfl⟩
  · cases kept.symm.trans built
    exact ⟨_, parseStored_full fingerprint small b reply, rfl, rfl⟩

end Idempotency
