import AppPlatform.Lib.JsonOrder

/-!
# The fingerprint of a request

What an `Idempotency-Key` is bound to. `fingerprint_canonical_iff` says for which pairs of requests the
hashed texts agree exactly when the requests do: an infinite number is written as `null`, and the body
`null` is taken for one that was not parsed.
-/

namespace Http
open Js

/-- `normalise`; a parsed body has no buffer in it and no `undefined`. -/
def normalise (value : Json) : Json := sortKeys value

def canonicalJson (value : Json) : Text := stringify (normalise value)

inductive Body where
  /-- What the JSON body parser made of the body. -/
  | parsed (v : Json)
  /-- The body is `undefined` to the interceptor. -/
  | unparsed

def bar : CodeUnit := 0x7C

/-- A request the HTTP server hands over: its head has no line break in it, and a length is a number. -/
structure FingerprintInput where
  method : Text
  url : Text
  body : Body
  contentType : Option Text
  contentLength : Option Text
  method_token : ∀ u ∈ method, 33 ≤ u.toNat ∧ u.toNat ≤ 126
  url_line : newline ∉ url
  type_line : ∀ t ∈ contentType, newline ∉ t
  length_digits : ∀ t ∈ contentLength, ∀ u ∈ t, isDigit u = true
  body_json : ∀ v, body = .parsed v → ∃ raw, parse raw = some v

/-- `header`; the server keeps one value of either header. -/
def header (value : Option Text) : Text := value.getD []

/-- `input.body ?? null` -/
def FingerprintInput.json (input : FingerprintInput) : Json :=
  match input.body with
  | .parsed v => v
  | .unparsed => .null

/-- `input.body !== undefined && input.body !== null` -/
def Body.present : Body → Bool
  | .parsed .null | .unparsed => false
  | .parsed _ => true

def unparsed (input : FingerprintInput) : Text :=
  if input.body.present then [] else header input.contentType ++ bar :: header input.contentLength

/-- The text that `requestFingerprint` hashes. -/
def hashed (input : FingerprintInput) : Text :=
  toUpperCase input.method ++ newline :: (input.url ++ newline :: (canonicalJson input.json ++ newline :: unparsed input))

def requestFingerprint (sha256 : Text → Text) (input : FingerprintInput) : Text := sha256 (hashed input)

/-- Equal bodies: parsed ones up to the order of keys, unparsed ones by type and length. -/
def SameBody (a b : FingerprintInput) : Prop :=
  match a.body, b.body with
  | .parsed v, .parsed w => v.Same w
  | .unparsed, .unparsed => a.contentType = b.contentType ∧ a.contentLength = b.contentLength
  | _, _ => False

def SameRequest (a b : FingerprintInput) : Prop :=
  toLowerCase a.method = toLowerCase b.method ∧ a.url = b.url ∧ SameBody a b

/-- The type and the length read the same; a header that is missing reads as an empty one. -/
def SameSize (a b : FingerprintInput) : Prop :=
  header a.contentType = header b.contentType ∧ header a.contentLength = header b.contentLength

/-- The sizes tell two bodies apart, each `null` or not parsed, as far as they differ. -/
def SizesTell (a b : FingerprintInput) : Prop :=
  match a.body, b.body with
  | .parsed _, .parsed _ => SameSize a b
  | .unparsed, .unparsed => SameSize a b → a.contentType = b.contentType ∧ a.contentLength = b.contentLength
  | _, _ => ¬SameSize a b

/-- The hashed texts tell two bodies apart as far as they differ. -/
def Distinguished (a b : FingerprintInput) : Prop :=
  match a.body.present, b.body.present with
  | true, true => (normalForm a.json).Same (normalForm b.json) → a.json.Same b.json
  | false, false => SizesTell a b
  | _, _ => True

theorem upper_toNat (u : CodeUnit) : (if isLower u then u - 32 else u).toNat =
    if 97 ≤ u.toNat ∧ u.toNat ≤ 122 then u.toNat - 32 else u.toNat := by
  simp only [isLower, Bool.and_eq_true, decide_eq_true_eq, UInt16.le_iff_toNat_le, show (unit 'a').toNat = 97 from rfl,
    show (unit 'z').toNat = 122 from rfl]
  split
  · rename_i h
    have above : (32 : UInt16).toNat ≤ u.toNat := by
      rw [show (32 : UInt16).toNat = 32 from rfl]
      omega
    rw [UInt16.toNat_sub_of_le _ _ (UInt16.le_iff_toNat_le.mpr above)]
    rfl
  · rfl

theorem lower_toNat {u : CodeUnit} (small : u.toNat ≤ 126) :
    (lowerUnit u).toNat = if 65 ≤ u.toNat ∧ u.toNat ≤ 90 then u.toNat + 32 else u.toNat := by
  have kelvin : u ≠ 0x212A := by
    intro same
    rw [same] at small
    exact absurd small (by decide)
  simp only [lowerUnit, isUpper, Bool.and_eq_true, decide_eq_true_eq, UInt16.le_iff_toNat_le, if_neg kelvin,
    show (unit 'A').toNat = 65 from rfl, show (unit 'Z').toNat = 90 from rfl]
  split
  · rw [UInt16.toNat_add, show (32 : UInt16).toNat = 32 from rfl, Nat.mod_eq_of_lt (by omega)]
  · rfl

theorem upper_eq_iff {s t : Text} (token : ∀ u ∈ s, 33 ≤ u.toNat ∧ u.toNat ≤ 126)
    (token' : ∀ u ∈ t, 33 ≤ u.toNat ∧ u.toNat ≤ 126) : toUpperCase s = toUpperCase t ↔ toLowerCase s = toLowerCase t := by
  induction s generalizing t with
  | nil => cases t <;> simp [toUpperCase, toLowerCase]
  | cons u s ih =>
    cases t with
    | nil => simp [toUpperCase, toLowerCase]
    | cons v t =>
      obtain ⟨small, others⟩ := List.forall_mem_cons.mp token
      obtain ⟨small', others'⟩ := List.forall_mem_cons.mp token'
      have first : (if isLower u then u - 32 else u) = (if isLower v then v - 32 else v) ↔ lowerUnit u = lowerUnit v := by
        rw [← UInt16.toNat_inj, ← UInt16.toNat_inj, upper_toNat, upper_toNat, lower_toNat small.2, lower_toNat small'.2]
        split <;> split <;> split <;> split <;> omega
      have rest := ih others others'
      simp only [toUpperCase, toLowerCase, List.map_cons, List.cons.injEq] at rest ⊢
      rw [first, rest]

theorem newline_upper {t : Text} (token : ∀ u ∈ t, 33 ≤ u.toNat ∧ u.toNat ≤ 126) : newline ∉ toUpperCase t := by
  intro found
  obtain ⟨u, member, same⟩ := List.mem_map.mp found
  have value := upper_toNat u
  rw [same, show newline.toNat = 10 from rfl] at value
  have low := (token u member).1
  split at value <;> omega

theorem header_line {value : Option Text} (line : ∀ t ∈ value, newline ∉ t) : newline ∉ header value := by
  cases value with
  | none => exact List.not_mem_nil
  | some t => exact line t rfl

theorem length_plain (input : FingerprintInput) : newline ∉ header input.contentLength ∧ bar ∉ header input.contentLength := by
  have digits := input.length_digits
  generalize input.contentLength = length at digits ⊢
  cases length with
  | none => exact ⟨List.not_mem_nil, List.not_mem_nil⟩
  | some t =>
    have digit := digits t rfl
    exact ⟨fun found => absurd (digit _ found) (by decide), fun found => absurd (digit _ found) (by decide)⟩

theorem unparsed_line (input : FingerprintInput) : newline ∉ unparsed input := by
  unfold unparsed
  split
  · exact List.not_mem_nil
  · intro found
    rcases List.mem_append.mp found with inType | inRest
    · exact header_line input.type_line inType
    · rcases List.mem_cons.mp inRest with same | inLength
      · exact absurd same (by decide)
      · exact (length_plain input).1 inLength

theorem unparsed_present {input : FingerprintInput} (present : input.body.present = true) : unparsed input = [] :=
  if_pos present

theorem unparsed_absent {input : FingerprintInput} (absent : input.body.present = false) :
    unparsed input = header input.contentType ++ bar :: header input.contentLength := by
  rw [unparsed, absent]
  rfl

theorem unparsed_eq_iff {a b : FingerprintInput} (absent : a.body.present = false) (absent' : b.body.present = false) :
    unparsed a = unparsed b ↔ SameSize a b := by
  rw [unparsed_absent absent, unparsed_absent absent']
  constructor
  · exact after_last (length_plain a).2 (length_plain b).2
  · intro ⟨type, length⟩
    rw [type, length]

/-- A body that was parsed is never taken for one that was not. -/
theorem unparsed_ne {a b : FingerprintInput} (present : a.body.present = true) (absent : b.body.present = false) :
    unparsed a ≠ unparsed b := by
  rw [unparsed_present present, unparsed_absent absent]
  exact fun same => List.append_ne_nil_of_right_ne_nil _ (List.cons_ne_nil _ _) same.symm

theorem json_canonical (input : FingerprintInput) : input.json.Canonical := by
  unfold FingerprintInput.json
  split
  · rename_i v parsed
    obtain ⟨raw, read⟩ := input.body_json v parsed
    exact parse_canonical read
  · trivial

theorem hashed_eq_iff (a b : FingerprintInput) : hashed a = hashed b ↔
    toLowerCase a.method = toLowerCase b.method ∧ a.url = b.url ∧ (normalForm a.json).Same (normalForm b.json) ∧
      unparsed a = unparsed b := by
  rw [← upper_eq_iff a.method_token b.method_token, ← stringify_sortKeys_eq_iff (json_canonical a) (json_canonical b)]
  constructor
  · intro same
    obtain ⟨method, rest⟩ := before_first (newline_upper a.method_token) (newline_upper b.method_token) same
    obtain ⟨url, rest⟩ := before_first a.url_line b.url_line rest
    obtain ⟨json, size⟩ := after_last (unparsed_line a) (unparsed_line b) rest
    exact ⟨method, url, json, size⟩
  · intro ⟨method, url, json, size⟩
    rw [hashed, hashed, method, url, canonicalJson, canonicalJson, normalise, normalise, json, size]

/-! ### Bodies -/

theorem same_normalForm {v w : Json} (canonical : v.Canonical) (canonical' : w.Canonical) (same : v.Same w) :
    (normalForm v).Same (normalForm w) := by
  rw [← stringify_sortKeys_eq_iff canonical canonical', (sortKeys_eq_iff canonical canonical').mpr same]

theorem present_json {input : FingerprintInput} (present : input.body.present = true) :
    input.body = .parsed input.json ∧ input.json ≠ .null := by
  unfold FingerprintInput.json
  cases body : input.body with
  | unparsed =>
    rw [body] at present
    cases present
  | parsed v =>
    refine ⟨rfl, ?_⟩
    intro null
    rw [body, show v = .null from null] at present
    cases present

theorem absent_json {input : FingerprintInput} (absent : input.body.present = false) :
    input.json = .null ∧ (input.body = .parsed .null ∨ input.body = .unparsed) := by
  unfold FingerprintInput.json
  cases body : input.body with
  | unparsed => exact ⟨rfl, .inr rfl⟩
  | parsed v =>
    rw [body] at absent
    cases v with
    | null => exact ⟨rfl, .inl rfl⟩
    | _ => cases absent

theorem not_same_null {v : Json} (notNull : v ≠ .null) : ¬v.Same .null ∧ ¬Json.Same .null v := by
  constructor
  · intro same
    cases same
    exact notNull rfl
  · intro same
    cases same
    exact notNull rfl

theorem not_sameBody {a b : FingerprintInput} (present : a.body.present = true) (absent : b.body.present = false) :
    ¬SameBody a b ∧ ¬SameBody b a := by
  obtain ⟨parsed, notNull⟩ := present_json present
  unfold SameBody
  rw [parsed]
  rcases (absent_json absent).2 with null | unparsed
  · rw [null]
    exact not_same_null notNull
  · rw [unparsed]
    exact ⟨not_false, not_false⟩

/-- The bodies are hashed alike exactly when they are the same, or else they are not told apart. -/
theorem body_iff (a b : FingerprintInput) :
    ((normalForm a.json).Same (normalForm b.json) ∧ unparsed a = unparsed b ↔ SameBody a b) ↔ Distinguished a b := by
  unfold Distinguished
  cases present : a.body.present <;> cases present' : b.body.present
  · -- both absent: the written bodies are both `null`
    obtain ⟨null, kind⟩ := absent_json present
    obtain ⟨null', kind'⟩ := absent_json present'
    rw [null, null', unparsed_eq_iff present present']
    have written : (normalForm .null).Same (normalForm .null) := .null
    unfold SizesTell SameBody
    rcases kind with kind | kind <;> rcases kind' with kind' | kind' <;> rw [kind, kind']
    · exact ⟨fun h => (h.mpr .null).2, fun size => ⟨fun _ => .null, fun _ => ⟨written, size⟩⟩⟩
    · exact ⟨fun h size => h.mp ⟨written, size⟩, fun h => ⟨fun both => h both.2, False.elim⟩⟩
    · exact ⟨fun h size => h.mp ⟨written, size⟩, fun h => ⟨fun both => h both.2, False.elim⟩⟩
    · refine ⟨fun h size => h.mp ⟨written, size⟩, fun h =>
        ⟨fun both => h both.2, fun ⟨type, length⟩ => ⟨written, ?_⟩⟩⟩
      exact ⟨congrArg header type, congrArg header length⟩
  · exact iff_of_true (iff_of_false (fun both => unparsed_ne present' present both.2.symm) (not_sameBody present' present).2) trivial
  · exact iff_of_true (iff_of_false (fun both => unparsed_ne present present' both.2) (not_sameBody present present').1) trivial
  · -- both present: nothing but the written bodies counts
    obtain ⟨parsed, _⟩ := present_json present
    obtain ⟨parsed', _⟩ := present_json present'
    rw [unparsed_present present, unparsed_present present']
    have same : SameBody a b ↔ a.json.Same b.json := by
      unfold SameBody
      rw [parsed, parsed']
    rw [same]
    have kept := same_normalForm (json_canonical a) (json_canonical b)
    exact ⟨fun h written => h.mp ⟨written, rfl⟩, fun h => ⟨fun both => h both.1, fun same => ⟨kept same, rfl⟩⟩⟩

/-- The hashed texts agree exactly when the requests do, but for bodies that are not told apart. -/
theorem fingerprint_canonical_iff (a b : FingerprintInput) :
    (hashed a = hashed b ↔ SameRequest a b) ↔
      (toLowerCase a.method = toLowerCase b.method → a.url = b.url → Distinguished a b) := by
  rw [hashed_eq_iff, SameRequest, ← body_iff]
  constructor
  · intro exact_ method url
    exact ⟨fun body => (exact_.mp ⟨method, url, body⟩).2.2, fun body => (exact_.mpr ⟨method, url, body⟩).2.2⟩
  · intro told
    constructor
    · intro ⟨method, url, body⟩
      exact ⟨method, url, (told method url).mp body⟩
    · intro ⟨method, url, body⟩
      exact ⟨method, url, (told method url).mpr body⟩

def huge : Json := .arr [.num (.infinity false)]

def nullItem : Json := .arr [.null]

def isHuge : Json → Bool
  | .arr [.num (.infinity false)] => true
  | _ => false

theorem eq_huge {v : Json} (infinite : isHuge v = true) : v = huge := by
  unfold isHuge at infinite
  split at infinite
  · rfl
  · cases infinite

theorem parse_huge : parse (text "[1e400]") = some huge := by
  have infinite : (parse (text "[1e400]")).any isHuge = true := by decide +kernel
  obtain ⟨v, found, read⟩ := Option.any_eq_true _ _ |>.mp infinite
  rw [found, eq_huge read]

/-- A POST to `/pay` with a JSON body. -/
def post (v : Json) (read : ∃ raw, parse raw = some v) : FingerprintInput where
  method := text "POST"
  url := text "/pay"
  body := .parsed v
  contentType := some (text "application/json")
  contentLength := some (text "7")
  method_token := by
    have token : ((text "POST").all fun u => 33 ≤ u.toNat && u.toNat ≤ 126) = true := by decide
    intro u member
    have range := List.all_eq_true.mp token u member
    rwa [Bool.and_eq_true, decide_eq_true_eq, decide_eq_true_eq] at range
  url_line := by decide
  type_line := by
    intro t given
    cases given
    decide
  length_digits := by
    intro t given
    cases given
    have digits : (text "7").all isDigit = true := by decide
    exact List.all_eq_true.mp digits
  body_json := by
    intro w same
    cases same
    exact read

/-- `[1e400]` and `[null]` are hashed alike. -/
theorem huge_collides : hashed (post huge ⟨_, parse_huge⟩) = hashed (post nullItem ⟨_, parse_stringify nullItem⟩) ∧
    ¬SameRequest (post huge ⟨_, parse_huge⟩) (post nullItem ⟨_, parse_stringify nullItem⟩) := by
  refine ⟨rfl, ?_⟩
  intro ⟨_, _, body⟩
  have body : huge.Same nullItem := body
  cases body with
  | arr each =>
    cases each with
    | cons head _ => cases head

end Http
