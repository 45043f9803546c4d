import AppPlatform.Lib.Double
import AppPlatform.Lib.Text
import Mathlib.Logic.Relation

/-!
# Errors in the log

An error that is logged goes through `serializeError`, and what comes out through the redaction paths. Headers that
hold a credential must not come through. What is not an Error is passed on for the redaction paths to cover, also when
it is a cause, and none of them looks into a cause.
-/

namespace ErrorLog
open Js

variable {ι : Type*}

inductive Value (ι : Type*) where
  | undefined
  | null
  | bool (b : Bool)
  | num (x : Number)
  | str (s : Text)
  /-- A `bigint` or a symbol. -/
  | other
  | obj (o : ι)

/-- `keys` are the own enumerable ones; `get` also reads the hidden and the inherited ones. -/
structure Obj (ι : Type*) where
  isError : Bool
  isFunction : Bool
  keys : List Text
  get : Text → Value ι

abbrev Heap (ι : Type*) := ι → Obj ι

/-- `v === undefined || v === null` -/
def isNullish : Value ι → Bool
  | .undefined | .null => true
  | _ => false

/-- `v === null || ['string', 'number', 'boolean'].includes(typeof v)` -/
def isScalar : Value ι → Bool
  | .null | .bool _ | .num _ | .str _ => true
  | _ => false

def isObject : Value ι → Bool
  | .obj _ => true
  | _ => false

inductive ErrorKey where
  | err
  | error
  | reason
  deriving DecidableEq

def ErrorKey.text : ErrorKey → Text
  | err => Js.text "err"
  | error => Js.text "error"
  | reason => Js.text "reason"

def ERROR_KEYS : List ErrorKey := [.err, .error, .reason]

def SECRET_HEADERS : List Text :=
  [text "authorization", text "cookie", text "set-cookie", text "x-api-key", text "x-csrf-token",
    text "cf-access-jwt-assertion", text "x-rova-mcp-call"]

def HOLDERS : List Text := [text "config", text "request", text "response"]

def REDACTED_PATHS : List (List Text) :=
  [[text "req", text "headers", text "authorization"], [text "req", text "headers", text "cookie"],
    [text "res", text "headers", text "set-cookie"], [text "req", text "headers", text "x-api-key"],
    [text "req", text "headers", text "x-csrf-token"], [text "req", text "headers", text "cf-access-jwt-assertion"],
    [text "req", text "headers", text "x-rova-mcp-call"]] ++
  ERROR_KEYS.flatMap (fun key => HOLDERS.flatMap fun holder => SECRET_HEADERS.map fun h => [key.text, holder, text "headers", h]) ++
  ERROR_KEYS.flatMap fun key => SECRET_HEADERS.map fun h => [key.text, text "headers", h]

def DROPPED_ERROR_KEYS : List Text :=
  [text "config", text "request", text "response", text "headers", text "req", text "res", text "options", text "body",
    text "data"]

/-- What every object has by inheritance: `key in out` holds of it. -/
def OBJECT_PROTOTYPE : List Text :=
  [text "constructor", text "__defineGetter__", text "__defineSetter__", text "hasOwnProperty", text "__lookupGetter__",
    text "__lookupSetter__", text "isPrototypeOf", text "propertyIsEnumerable", text "toString", text "valueOf",
    text "__proto__", text "toLocaleString"]

/-- A property of the record, and the property that it was read from. -/
structure Field (ι : Type*) where
  key : Text
  owner : ι
  name : Text

/-- What an error is logged as; a value that is passed on is the same object. -/
inductive Out (ι : Type*) where
  | passed (value : Value ι)
  | record (fields : List (Field ι))
  /-- A cause that was copied is a scalar, and is set again to the same value. -/
  | chained (fields : List (Field ι)) (cause : Out ι)

section
variable (heap : Heap ι)

/-- `value instanceof Error` -/
def errorOf : Value ι → Option ι
  | .obj o => if (heap o).isError then some o else none
  | _ => none

/-- `value.cause`, if it is not `undefined`. -/
def causeOf (e : ι) : Option (Value ι) :=
  match (heap e).get (text "cause") with
  | .undefined => none
  | cause => some cause

/-- `value.constructor?.name ?? value.name` -/
def typeOwner (e : ι) : ι :=
  match (heap e).get (text "constructor") with
  | .obj c => if isNullish ((heap c).get (text "name")) then e else c
  | _ => e

/-- Neither `key in out` nor one of the dropped keys. -/
def isKept (key : Text) : Bool :=
  !([text "type", text "message", text "stack"].contains key || OBJECT_PROTOTYPE.contains key ||
    DROPPED_ERROR_KEYS.contains key)

def copiedKeys (e : ι) : List Text := (heap e).keys.filter fun key => isKept key && isScalar ((heap e).get key)

def describe (e : ι) : List (Field ι) :=
  [⟨text "type", typeOwner heap e, text "name"⟩, ⟨text "message", e, text "message"⟩, ⟨text "stack", e, text "stack"⟩]

def fieldsOf (e : ι) : List (Field ι) := describe heap e ++ (copiedKeys heap e).map fun key => ⟨key, e, key⟩

/-- `left` is `5 - depth`. -/
def serializeFrom (left : ℕ) (value : Value ι) : Out ι :=
  match errorOf heap value with
  | none => .passed value
  | some e =>
    match left, causeOf heap e with
    | left + 1, some cause => .chained (fieldsOf heap e) (serializeFrom left cause)
    | _, _ => .record (fieldsOf heap e)

def serializeError (value : Value ι) : Out ι := serializeFrom heap 5 value

inductive Item (ι : Type*) where
  | property (o : ι) (key : Text)
  | object (o : ι)

/-- What is written of a value that is passed on: its enumerable properties and theirs. Functions are not. -/
inductive Value.Shows : Value ι → List Text → Item ι → Prop where
  | object (o : ι) : Shows (.obj o) [] (.object o)
  | property {o : ι} {key : Text} (written : (heap o).isFunction = false) (member : key ∈ (heap o).keys) :
      Shows (.obj o) [key] (.property o key)
  | inside {o : ι} {key : Text} {path : List Text} {item : Item ι} (written : (heap o).isFunction = false)
      (member : key ∈ (heap o).keys) (shown : ((heap o).get key).Shows path item) : Shows (.obj o) (key :: path) item

def Field.Shows (f : Field ι) (path : List Text) (item : Item ι) : Prop :=
  (path = [] ∧ item = .property f.owner f.name) ∨ ((heap f.owner).get f.name).Shows heap path item

def fieldsShow (fields : List (Field ι)) (path : List Text) (item : Item ι) : Prop :=
  ∃ f ∈ fields, ∃ rest, path = f.key :: rest ∧ f.Shows heap rest item

def Out.Shows : Out ι → List Text → Item ι → Prop
  | .passed value, path, item => value.Shows heap path item
  | .record fields, path, item => fieldsShow heap fields path item
  | .chained fields cause, path, item =>
    fieldsShow heap fields path item ∨ ∃ rest, path = text "cause" :: rest ∧ cause.Shows rest item

def isCensored (path : List Text) : Bool := REDACTED_PATHS.any fun redacted => redacted.isPrefixOf path

/-- A header is there when its property is, or the object that it holds. -/
def Conveys (shown : Item ι → Prop) (o : ι) (header : Text) : Prop :=
  shown (.property o header) ∨ ∃ a, (heap o).get header = .obj a ∧ shown (.object a)

/-- In what is logged under `key`, after the redaction. -/
def Holds (key : ErrorKey) (out : Out ι) (o : ι) (header : Text) : Prop :=
  ∃ path, isCensored (key.text :: path) = false ∧ Conveys heap (out.Shows heap path) o header

def CauseOf (o cause : ι) : Prop := (heap o).get (text "cause") = .obj cause

/-- `o` is held under `headers`, `config.headers`, `request.headers` or `response.headers`. -/
def HeadersOf (w o : ι) : Prop :=
  (heap w).get (text "headers") = .obj o ∨
    ∃ holder ∈ HOLDERS, ∃ c, (heap w).get holder = .obj c ∧ (heap c).get (text "headers") = .obj o

/-- A secret header of the error or of a cause at any depth. -/
structure SecretHeader (e o : ι) (header : Text) : Prop where
  held : ∃ w, Relation.ReflTransGen (CauseOf heap) e w ∧ HeadersOf heap w o
  secret : toLowerCase header ∈ SECRET_HEADERS
  present : (heap o).get header ≠ .undefined

/-- The `n`-th cause, as long as the ones before it are Errors. -/
def nthCause : ℕ → Value ι → Option (Value ι)
  | 0, value => some value
  | n + 1, value => (errorOf heap value).bind fun e => (causeOf heap e).bind (nthCause n)

def Reaches (value : Value ι) (o : ι) (header : Text) : Prop := ∃ path, Conveys heap (value.Shows heap path) o header

/-- What the serializer lets through of one value on the chain. -/
inductive Leaks : Value ι → ι → Text → Prop where
  /-- What is not an Error is passed on. -/
  | plain {value : Value ι} {o : ι} {header : Text} (notError : errorOf heap value = none) (reached : Reaches heap value o header) :
      Leaks value o header
  /-- The Error is a headers object itself. -/
  | copied {e : ι} {header : Text} (isError : (heap e).isError = true) (member : header ∈ (heap e).keys)
      (kept : isKept header = true) (scalar : isScalar ((heap e).get header) = true) : Leaks (.obj e) e header
  /-- What stands for a text is an object. -/
  | described {e o : ι} {header : Text} (isError : (heap e).isError = true) {f : Field ι} (member : f ∈ describe heap e)
      (reached : Reaches heap ((heap f.owner).get f.name) o header) : Leaks (.obj e) o header

variable {heap}

def isDroppedBelow (key : ErrorKey) : List Text → Bool
  | root :: first :: _ => root ≠ key.text || DROPPED_ERROR_KEYS.contains first
  | _ => false

theorem redacted_dropped (key : ErrorKey) : REDACTED_PATHS.all (isDroppedBelow key) = true := by
  cases key <;> decide +kernel

theorem not_censored_of_kept {first : Text} (kept : first ∉ DROPPED_ERROR_KEYS) (key : ErrorKey) (rest : List Text) :
    isCensored (key.text :: first :: rest) = false := by
  rw [isCensored, List.any_eq_false]
  intro redacted member starts
  have below := List.all_eq_true.mp (redacted_dropped key) redacted member
  match redacted, below, List.isPrefixOf_iff_prefix.mp starts with
  | root :: second :: more, below, starts =>
    obtain ⟨rfl, tail⟩ := List.cons_prefix_cons.mp starts
    obtain ⟨rfl, -⟩ := List.cons_prefix_cons.mp tail
    simp [isDroppedBelow, kept] at below

theorem fieldsOf_kept {e : ι} {f : Field ι} (member : f ∈ fieldsOf heap e) : f.key ∉ DROPPED_ERROR_KEYS := by
  rcases List.mem_append.mp member with given | copied
  · simp only [describe, List.mem_cons, List.not_mem_nil, or_false] at given
    obtain rfl | rfl | rfl := given
    · exact show text "type" ∉ DROPPED_ERROR_KEYS by decide
    · exact show text "message" ∉ DROPPED_ERROR_KEYS by decide
    · exact show text "stack" ∉ DROPPED_ERROR_KEYS by decide
  · obtain ⟨key, kept, rfl⟩ := List.mem_map.mp copied
    simp only [copiedKeys, isKept, List.mem_filter, Bool.and_eq_true, Bool.not_eq_true', Bool.or_eq_false_iff,
      List.contains_eq_mem, decide_eq_false_iff_not] at kept
    exact kept.2.1.2

theorem errorOf_error {e : ι} (isError : (heap e).isError = true) : errorOf heap (.obj e) = some e := by
  simp [errorOf, isError]

theorem fieldsShow_not_censored {e : ι} {path : List Text} {item : Item ι} (shown : fieldsShow heap (fieldsOf heap e) path item)
    (key : ErrorKey) : isCensored (key.text :: path) = false := by
  obtain ⟨f, member, rest, rfl, -⟩ := shown
  exact not_censored_of_kept (fieldsOf_kept member) key rest

theorem not_censored {left : ℕ} {e : ι} (isError : (heap e).isError = true) {path : List Text} {item : Item ι}
    (shown : (serializeFrom heap left (.obj e)).Shows heap path item) (key : ErrorKey) : isCensored (key.text :: path) = false := by
  rw [serializeFrom, errorOf_error isError] at shown
  dsimp only at shown
  split at shown
  · obtain fields | ⟨rest, rfl, -⟩ := shown
    · exact fieldsShow_not_censored fields key
    · exact not_censored_of_kept (by decide) key rest
  · exact fieldsShow_not_censored shown key

/-! ### What comes out of the chain -/

variable (heap) in
/-- As `Holds`, before the redaction. -/
def Carried (out : Out ι) (o : ι) (header : Text) : Prop := ∃ path, Conveys heap (out.Shows heap path) o header

theorem conveys_or {p q : Item ι → Prop} {o : ι} {header : Text} :
    Conveys heap (fun item => p item ∨ q item) o header ↔ Conveys heap p o header ∨ Conveys heap q o header := by
  constructor
  · rintro ((left | right) | ⟨a, held, left | right⟩)
    · exact .inl (.inl left)
    · exact .inr (.inl right)
    · exact .inl (.inr ⟨a, held, left⟩)
    · exact .inr (.inr ⟨a, held, right⟩)
  · rintro ((property | ⟨a, held, object⟩) | (property | ⟨a, held, object⟩))
    · exact .inl (.inl property)
    · exact .inr ⟨a, held, .inl object⟩
    · exact .inl (.inr property)
    · exact .inr ⟨a, held, .inr object⟩

theorem conveys_some {p : Item ι → Prop} {o : ι} {header : Text} (conveyed : Conveys heap p o header) : ∃ item, p item := by
  obtain property | ⟨a, -, object⟩ := conveyed
  · exact ⟨_, property⟩
  · exact ⟨_, object⟩

theorem conveys_mono {p q : Item ι → Prop} (mono : ∀ item, p item → q item) {o : ι} {header : Text}
    (conveyed : Conveys heap p o header) : Conveys heap q o header := by
  obtain property | ⟨a, held, object⟩ := conveyed
  · exact .inl (mono _ property)
  · exact .inr ⟨a, held, mono _ object⟩

theorem holds_iff {key : ErrorKey} {left : ℕ} {e o : ι} {header : Text} (isError : (heap e).isError = true) :
    Holds heap key (serializeFrom heap left (.obj e)) o header ↔ Carried heap (serializeFrom heap left (.obj e)) o header := by
  constructor
  · rintro ⟨path, -, conveyed⟩
    exact ⟨path, conveyed⟩
  · rintro ⟨path, conveyed⟩
    obtain ⟨item, shown⟩ := conveys_some conveyed
    exact ⟨path, not_censored isError shown key, conveyed⟩

theorem carried_chained {fields : List (Field ι)} {cause : Out ι} {o : ι} {header : Text} :
    Carried heap (.chained fields cause) o header ↔ Carried heap (.record fields) o header ∨ Carried heap cause o header := by
  constructor
  · rintro ⟨path, conveyed⟩
    obtain own | inner := conveys_or.mp conveyed
    · exact .inl ⟨path, own⟩
    · obtain ⟨item, rest, rfl, -⟩ := conveys_some inner
      refine .inr ⟨rest, conveys_mono ?_ inner⟩
      rintro item ⟨rest', same, shown⟩
      rwa [(List.cons.inj same).2]
  · rintro (⟨path, own⟩ | ⟨path, inner⟩)
    · exact ⟨path, conveys_or.mpr (.inl own)⟩
    · refine ⟨text "cause" :: path, conveys_or.mpr (.inr (conveys_mono ?_ inner))⟩
      intro item shown
      exact ⟨path, rfl, shown⟩

theorem serializeFrom_last {left : ℕ} {value : Value ι} (last : (errorOf heap value).bind (causeOf heap) = none) :
    serializeFrom heap left value = serializeFrom heap 0 value := by
  unfold serializeFrom
  cases error : errorOf heap value with
  | none => rfl
  | some e =>
    rw [error, Option.bind_some] at last
    simp only [last]

theorem serializeFrom_cause (left : ℕ) {value cause : Value ι} (next : (errorOf heap value).bind (causeOf heap) = some cause) :
    ∃ fields, serializeFrom heap (left + 1) value = .chained fields (serializeFrom heap left cause) ∧
      serializeFrom heap 0 value = .record fields := by
  obtain ⟨e, error, held⟩ := Option.bind_eq_some_iff.mp next
  refine ⟨fieldsOf heap e, ?_, ?_⟩
  · rw [serializeFrom, error]
    simp only [held]
  · rw [serializeFrom, error]

theorem nthCause_succ (n : ℕ) (value : Value ι) :
    nthCause heap (n + 1) value = ((errorOf heap value).bind (causeOf heap)).bind (nthCause heap n) := by
  rw [nthCause, Option.bind_assoc]

theorem exists_link {left : ℕ} {value : Value ι} {P : Value ι → Prop} :
    (∃ n ≤ left + 1, ∃ w, nthCause heap n value = some w ∧ P w) ↔
      P value ∨ ∃ cause, (errorOf heap value).bind (causeOf heap) = some cause ∧
        ∃ n ≤ left, ∃ w, nthCause heap n cause = some w ∧ P w := by
  constructor
  · rintro ⟨n, small, w, link, holds⟩
    cases n with
    | zero =>
      obtain rfl : value = w := Option.some.inj link
      exact .inl holds
    | succ n =>
      rw [nthCause_succ] at link
      obtain ⟨cause, next, rest⟩ := Option.bind_eq_some_iff.mp link
      exact .inr ⟨cause, next, n, by omega, w, rest, holds⟩
  · rintro (holds | ⟨cause, next, n, small, w, link, holds⟩)
    · exact ⟨0, Nat.zero_le _, value, rfl, holds⟩
    · exact ⟨n + 1, by omega, w, by rwa [nthCause_succ, next], holds⟩

theorem carried_iff {left : ℕ} {value : Value ι} {o : ι} {header : Text} :
    Carried heap (serializeFrom heap left value) o header ↔
      ∃ n ≤ left, ∃ w, nthCause heap n value = some w ∧ Carried heap (serializeFrom heap 0 w) o header := by
  induction left generalizing value with
  | zero =>
    constructor
    · intro carried
      exact ⟨0, le_rfl, value, rfl, carried⟩
    · rintro ⟨n, small, w, link, carried⟩
      obtain rfl : n = 0 := by omega
      obtain rfl : value = w := Option.some.inj link
      exact carried
  | succ left ih =>
    rw [exists_link]
    cases next : (errorOf heap value).bind (causeOf heap) with
    | none =>
      rw [serializeFrom_last next]
      simp
    | some cause =>
      obtain ⟨fields, chained, last⟩ := serializeFrom_cause left next
      rw [chained, carried_chained, ← last, ih]
      simp

/-! ### One value of the chain -/

theorem secret_not_described {e : ι} {header : Text} (secret : toLowerCase header ∈ SECRET_HEADERS) {f : Field ι}
    (member : f ∈ describe heap e) : header ≠ f.name := by
  rintro rfl
  simp only [describe, List.mem_cons, List.not_mem_nil, or_false] at member
  obtain rfl | rfl | rfl := member
  · exact absurd secret (show toLowerCase (text "name") ∉ SECRET_HEADERS by decide)
  · exact absurd secret (show toLowerCase (text "message") ∉ SECRET_HEADERS by decide)
  · exact absurd secret (show toLowerCase (text "stack") ∉ SECRET_HEADERS by decide)

theorem shows_object {value : Value ι} {path : List Text} {item : Item ι} (shown : value.Shows heap path item) :
    ∃ o, value = .obj o := by
  cases shown <;> exact ⟨_, rfl⟩

theorem scalar_shows {value : Value ι} (scalar : isScalar value = true) (path : List Text) (item : Item ι) :
    ¬value.Shows heap path item := by
  intro shown
  obtain ⟨o, rfl⟩ := shows_object shown
  cases scalar

theorem carried_field {f : Field ι} {fields : List (Field ι)} (member : f ∈ fields) {o : ι} {header : Text}
    (reached : Reaches heap ((heap f.owner).get f.name) o header) : Carried heap (.record fields) o header := by
  obtain ⟨path, conveyed⟩ := reached
  refine ⟨f.key :: path, conveys_mono ?_ conveyed⟩
  intro item shown
  exact ⟨f, member, path, rfl, .inr shown⟩

theorem errorOf_some {w : Value ι} {e : ι} (error : errorOf heap w = some e) : w = .obj e ∧ (heap e).isError = true := by
  unfold errorOf at error
  split at error
  · obtain ⟨isError, same⟩ := Option.ite_none_right_eq_some.mp error
    cases same
    exact ⟨rfl, isError⟩
  · cases error

theorem mem_copiedKeys {e : ι} {key : Text} :
    key ∈ copiedKeys heap e ↔ key ∈ (heap e).keys ∧ isKept key = true ∧ isScalar ((heap e).get key) = true := by
  rw [copiedKeys, List.mem_filter, Bool.and_eq_true]

theorem field_shows {e : ι} {f : Field ι} (member : f ∈ fieldsOf heap e) {rest : List Text} {item : Item ι}
    (shown : f.Shows heap rest item) :
    (∃ key ∈ copiedKeys heap e, item = .property e key) ∨
      f ∈ describe heap e ∧ (item = .property f.owner f.name ∨ ((heap f.owner).get f.name).Shows heap rest item) := by
  rcases List.mem_append.mp member with given | copied
  · refine .inr ⟨given, ?_⟩
    obtain ⟨-, source⟩ | inside := shown
    · exact .inl source
    · exact .inr inside
  · obtain ⟨key, kept, rfl⟩ := List.mem_map.mp copied
    refine .inl ⟨key, kept, ?_⟩
    obtain ⟨-, source⟩ | inside := shown
    · exact source
    · exact (scalar_shows (mem_copiedKeys.mp kept).2.2 rest item inside).elim

theorem leaks_of_record {e o : ι} {header : Text} (isError : (heap e).isError = true)
    (secret : toLowerCase header ∈ SECRET_HEADERS) (carried : Carried heap (.record (fieldsOf heap e)) o header) :
    Leaks heap (.obj e) o header := by
  obtain ⟨path, ⟨f, member, rest, -, shown⟩ | ⟨a, held, f, member, rest, -, shown⟩⟩ := carried
  · obtain ⟨key, copied, source⟩ | ⟨given, source | inside⟩ := field_shows member shown
    · cases source
      obtain ⟨own, kept, scalar⟩ := mem_copiedKeys.mp copied
      exact .copied isError own kept scalar
    · cases source
      exact (secret_not_described secret given rfl).elim
    · exact .described isError given ⟨rest, .inl inside⟩
  · obtain ⟨key, -, source⟩ | ⟨given, source | inside⟩ := field_shows member shown
    · cases source
    · cases source
    · exact .described isError given ⟨rest, .inr ⟨a, held, inside⟩⟩

theorem carried_leaks {w : Value ι} {o : ι} {header : Text} (secret : toLowerCase header ∈ SECRET_HEADERS) :
    Carried heap (serializeFrom heap 0 w) o header ↔ Leaks heap w o header := by
  cases error : errorOf heap w with
  | none =>
    rw [serializeFrom, error]
    constructor
    · intro reached
      exact .plain error reached
    · intro leaks
      cases leaks with
      | plain _ reached => exact reached
      | copied isError => exact absurd (errorOf_error isError) (by simp [error])
      | described isError => exact absurd (errorOf_error isError) (by simp [error])
  | some e =>
    obtain ⟨rfl, isError⟩ := errorOf_some error
    rw [serializeFrom, error]
    constructor
    · exact leaks_of_record isError secret
    · intro leaks
      cases leaks with
      | plain notError => exact absurd notError (by simp [error])
      | copied _ own kept scalar =>
        have copied := mem_copiedKeys.mpr ⟨own, kept, scalar⟩
        exact ⟨[header], .inl ⟨_, List.mem_append_right _ (List.mem_map_of_mem copied), [], rfl, .inl ⟨rfl, rfl⟩⟩⟩
      | described _ given reached => exact carried_field (List.mem_append_left _ given) reached

/-- No credential is logged, exactly when none can be reached from a cause that is not an Error, or from what stands for
a text of an Error, and no Error is a headers object with one, as far as the serializer goes. -/
theorem logged_error_clean_iff (key : ErrorKey) {e : ι} (isError : (heap e).isError = true) :
    (∀ o header, SecretHeader heap e o header → ¬Holds heap key (serializeError heap (.obj e)) o header) ↔
      ∀ n ≤ 5, ∀ w, nthCause heap n (.obj e) = some w → ∀ o header, SecretHeader heap e o header →
        ¬Leaks heap w o header := by
  constructor
  · intro clean n small w link o header secret leaks
    apply clean o header secret
    rw [serializeError, holds_iff isError, carried_iff]
    exact ⟨n, small, w, link, (carried_leaks secret.secret).mpr leaks⟩
  · intro sound o header secret held
    rw [serializeError, holds_iff isError, carried_iff] at held
    obtain ⟨n, small, w, link, carried⟩ := held
    exact sound n small w link o header secret ((carried_leaks secret.secret).mp carried)

/-- An Error whose name, message and stack are no objects lets nothing through but its own scalars. -/
theorem no_leak_of_texts {e o : ι} {header : Text} (texts : ∀ f ∈ describe heap e, isObject ((heap f.owner).get f.name) = false)
    (plain : ∀ key ∈ copiedKeys heap e, toLowerCase key ∉ SECRET_HEADERS) (isError : (heap e).isError = true)
    (secret : toLowerCase header ∈ SECRET_HEADERS) : ¬Leaks heap (.obj e) o header := by
  intro leaks
  cases leaks with
  | plain notError => exact absurd (errorOf_error isError) (by simp [notError])
  | copied _ own kept scalar => exact plain header (mem_copiedKeys.mpr ⟨own, kept, scalar⟩) secret
  | described _ given reached =>
    obtain ⟨path, conveyed⟩ := reached
    obtain ⟨item, shown⟩ := conveys_some conveyed
    obtain ⟨a, object⟩ := shows_object shown
    have text_ := texts _ given
    rw [object] at text_
    cases text_

end

def objectOf (isError : Bool) (hidden props : List (Text × Value (Fin 4))) : Obj (Fin 4) :=
  ⟨isError, false, props.map Prod.fst, fun key => ((hidden ++ props).lookup key).getD .undefined⟩

def errorTexts : List (Text × Value (Fin 4)) :=
  [(text "name", .str (text "Error")), (text "message", .str (text "call failed")), (text "stack", .str (text "at f"))]

def clientError (isError : Bool) : Heap (Fin 4)
  | 0 => objectOf true (errorTexts ++ [(text "cause", .obj 1)]) [(text "code", .str (text "ERR")), (text "config", .obj 2)]
  | 1 => objectOf isError errorTexts [(text "config", .obj 2), (text "headers", .obj 3)]
  | 2 => objectOf false [] [(text "headers", .obj 3)]
  | 3 => objectOf false [] [(text "authorization", .str (text "Bearer x"))]

theorem clientError_sound (n : ℕ) {w : Value (Fin 4)} (link : nthCause (clientError true) n (.obj 0) = some w) {o : Fin 4}
    {header : Text} (secret : SecretHeader (clientError true) 0 o header) : ¬Leaks (clientError true) w o header := by
  have own : copiedKeys (clientError true) 0 = [text "code"] := by decide
  have own' : copiedKeys (clientError true) 1 = [] := by decide
  match n with
  | 0 =>
    obtain rfl : .obj 0 = w := Option.some.inj link
    apply no_leak_of_texts _ _ rfl secret.secret
    · exact List.forall_mem_cons.mpr ⟨rfl, List.forall_mem_cons.mpr ⟨rfl, List.forall_mem_singleton.mpr rfl⟩⟩
    · rw [own]
      decide
  | 1 =>
    obtain rfl : .obj 1 = w := Option.some.inj link
    apply no_leak_of_texts _ _ rfl secret.secret
    · exact List.forall_mem_cons.mpr ⟨rfl, List.forall_mem_cons.mpr ⟨rfl, List.forall_mem_singleton.mpr rfl⟩⟩
    · rw [own']
      exact List.forall_mem_nil _
  | n + 2 =>
    have ended : nthCause (clientError true) (n + 2) (.obj 0) = none := rfl
    rw [ended] at link
    cases link

theorem request_of_chain_silent :
    ¬Holds (clientError true) .err (serializeError (clientError true) (.obj 0)) 3 (text "authorization") := by
  have secret : SecretHeader (clientError true) 0 3 (text "authorization") :=
    ⟨⟨1, .single rfl, .inl rfl⟩, by decide, by simp [clientError, objectOf]⟩
  exact (logged_error_clean_iff .err rfl).mpr (fun n _ w link o header held => clientError_sound n link held) 3 _ secret

/-- The cause is a plain object. -/
theorem request_as_cause_logged :
    ¬∀ o header, SecretHeader (clientError false) 0 o header →
      ¬Holds (clientError false) .err (serializeError (clientError false) (.obj 0)) o header := by
  intro clean
  apply clean 3 (text "authorization")
  · exact ⟨⟨1, .single rfl, .inl rfl⟩, by decide, by simp [clientError, objectOf]⟩
  · refine ⟨[text "cause", text "headers", text "authorization"], by decide +kernel, .inl (.inr ⟨_, rfl, ?_⟩)⟩
    exact .inside rfl (by decide) (.property rfl (by decide))

end ErrorLog
