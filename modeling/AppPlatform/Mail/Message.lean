import AppPlatform.Lib.Refusal
import AppPlatform.Lib.Value

/-!
# Validation of a message

`validateMessage` on the JSON data of a `mail.send` job: the message it accepts, or what it throws.
-/

namespace Mail
open Js Refusal

inductive MailErrorCode where
  | invalid_message
  | unauthenticated
  | forbidden
  | mailbox_not_found
  | too_large
  | throttled
  | unavailable
  | network
  | timeout
  | config
  deriving DecidableEq

def MailErrorCode.text : MailErrorCode → Text
  | .invalid_message => Js.text "invalid_message"
  | .unauthenticated => Js.text "unauthenticated"
  | .forbidden => Js.text "forbidden"
  | .mailbox_not_found => Js.text "mailbox_not_found"
  | .too_large => Js.text "too_large"
  | .throttled => Js.text "throttled"
  | .unavailable => Js.text "unavailable"
  | .network => Js.text "network"
  | .timeout => Js.text "timeout"
  | .config => Js.text "config"

def RETRYABLE : List MailErrorCode := [.unauthenticated, .throttled, .unavailable, .network, .timeout]

structure MailSendError where
  code : MailErrorCode
  message : Text
  deriving DecidableEq

def MailSendError.retryable (e : MailSendError) : Bool := e.code ∈ RETRYABLE

/-- What `validateMessage` throws: an error of its own, or the `TypeError` of a call of what is no function. -/
inductive Thrown where
  | mailSendError (e : MailSendError)
  | typeError (message : Text)
  deriving DecidableEq

def invalid (reason : Text) : Thrown := .mailSendError ⟨.invalid_message, text "Invalid email message: " ++ reason⟩

def maxRecipients : ℕ := 500

def maxAddressLength : ℕ := 254

def maxSubjectLength : ℕ := 998

def maxBodyBytes : ℕ := 2 * 1024 * 1024

def maxHeaders : ℕ := 10

def maxHeaderValueLength : ℕ := 998

def maxCategoryLength : ℕ := 64

def maxIdempotencyKeyLength : ℕ := 512

/-- `CONTROL` -/
def hasControl (t : Text) : Bool := t.any fun u => u ≤ 0x1F || u == 0x7F

/-- The class of `ADDRESS`. -/
def isAddressUnit (u : CodeUnit) : Bool := !isWhiteSpace u && u ∉ text "@<>()[],;:\"\\"

/-- `ADDRESS`: one `@`, and a dot after it that neither starts nor ends the domain. -/
def isAddress (t : Text) : Bool :=
  match t.dropWhile isAddressUnit with
  | [] => false
  | u :: domain =>
    t.takeWhile isAddressUnit ≠ [] && u = unit '@' && domain.all isAddressUnit && unit '.' ∈ domain.tail.dropLast

def isWordUnit (u : CodeUnit) : Bool := isLower u || isDigit u

mutual
/-- The rest of `CATEGORY` inside a word. -/
def wordContinues : Text → Bool
  | [] => true
  | u :: rest => if isWordUnit u then wordContinues rest else u ∈ text "._-" && wordStarts rest

/-- The rest of `CATEGORY` after a separator. -/
def wordStarts : Text → Bool
  | [] => false
  | u :: rest => isWordUnit u && wordContinues rest
end

/-- `CATEGORY` -/
def isCategory : Text → Bool
  | [] => false
  | u :: rest => isLower u && wordContinues rest

/-- `HEADER_NAME` -/
def isHeaderName (t : Text) : Bool :=
  match t with
  | x :: dash :: rest => (x = unit 'x' || x = unit 'X') && dash = unit '-' && rest ≠ [] &&
      rest.all fun u => isLetter u || isDigit u || u = unit '-'
  | _ => false

/-- `RESERVED_HEADER` -/
def isReservedHeader (t : Text) : Bool :=
  (text "X-MS-EXCHANGE-").isPrefixOf (toUpperCase t) || (text "X-MICROSOFT-").isPrefixOf (toUpperCase t)

/-! ### Checks -/

/-- `list(value).map`: a value that is neither a string nor an array has no `map` to call. -/
def list : Option Json → Except Thrown (List Json)
  | none => .ok []
  | some (.str s) => .ok [.str s]
  | some (.arr items) => .ok items
  | some .null => .error (.typeError (text "Cannot read properties of null (reading 'map')"))
  | some _ => .error (.typeError (text "list(...).map is not a function"))

def checkString (reason : Text) (checks : Text → Except Thrown Unit) : Option Json → Except Thrown Text
  | some (.str value) => do
    checks value
    return value
  | _ => .error (invalid reason)

def checkAddress (field : Text) (value : Json) : Except Thrown Text :=
  checkString (field ++ text " must be a string") (fun value => do
    refuseIf (value.length = 0 ∨ maxAddressLength < value.length) (invalid (field ++ text " must be 1-254 characters"))
    refuseIf (hasControl value) (invalid (field ++ text " contains a control character"))
    refuseIf (¬ isAddress value) (invalid (field ++ text " is not a plain email address"))) (some value)

/-- `.map((a, i) => checkAddress(field[i], a))`, from the index `i`. -/
def checkAddresses (field : Text) : ℕ → List Json → Except Thrown (List Text)
  | _, [] => .ok []
  | i, a :: rest => do
    let a ← checkAddress (field ++ text "[" ++ natText i ++ text "]") a
    let rest ← checkAddresses field (i + 1) rest
    return a :: rest

def recipients (field : Text) (value : Option Json) : Except Thrown (List Text) := do
  let items ← list value
  checkAddresses field 0 items

/-- `value === undefined ? undefined : checkAddress(field, value)` -/
def optionalAddress (field : Text) : Option Json → Except Thrown (Option Text)
  | none => .ok none
  | some value => do
    let address ← checkAddress field value
    return some address

def checkSubject : Option Json → Except Thrown Text :=
  checkString (text "subject must be a non-empty string") fun subject => do
    refuseIf (trim subject = []) (invalid (text "subject must be a non-empty string"))
    refuseIf (maxSubjectLength < subject.length) (invalid (text "subject is too long"))
    refuseIf (hasControl subject) (invalid (text "subject contains a control character"))

def checkBody (field : Text) : Option Json → Except Thrown Text :=
  checkString (field ++ text " must be a non-empty string") fun body => do
    refuseIf (body = []) (invalid (field ++ text " must be a non-empty string"))
    refuseIf (maxBodyBytes < byteLength body) (invalid (field ++ text " is too large"))

/-- `Object.entries(headers ?? {})` -/
def entries : Option Json → List (Text × Json)
  | some (.obj fields) => fields
  | some (.arr items) => items.zipIdx.map fun (v, i) => (natText i, v)
  | some (.str s) => s.zipIdx.map fun (u, i) => (natText i, .str [u])
  | _ => []

def checkHeaderValue (name : Text) (value : Json) : Except Thrown Text :=
  checkString (text "header " ++ name ++ text " has an invalid value") (fun value =>
    refuseIf (maxHeaderValueLength < value.length ∨ hasControl value)
      (invalid (text "header " ++ name ++ text " has an invalid value"))) (some value)

def checkHeader (name : Text) (value : Json) : Except Thrown (Text × Text) := do
  refuseIf (¬ isHeaderName name) (invalid (text "header names must start with \"x-\" and use letters, digits and \"-\""))
  refuseIf (isReservedHeader name) (invalid (text "header " ++ name ++ text " is reserved by Exchange"))
  let value ← checkHeaderValue name value
  return (name, value)

def checkEntries : List (Text × Json) → Except Thrown (List (Text × Text))
  | [] => .ok []
  | (name, value) :: rest => do
    let header ← checkHeader name value
    let rest ← checkEntries rest
    return header :: rest

def checkHeaders (value : Option Json) : Except Thrown (List (Text × Text)) := do
  refuseIf (maxHeaders < (entries value).length) (invalid (text "too many headers"))
  let headers ← checkEntries (entries value)
  return buildFields headers

def categoryReason : Text :=
  text "category must be lower-case words separated by \".\", \"-\" or \"_\" (at most 64 characters)"

def checkCategory : Option Json → Except Thrown Text :=
  checkString categoryReason fun category =>
    refuseIf (maxCategoryLength < category.length ∨ ¬ isCategory category) (invalid categoryReason)

def idempotencyKeyReason : Text := text "idempotencyKey must be a non-empty string without control characters"

def checkIdempotencyKey : Option Json → Except Thrown Text :=
  checkString idempotencyKeyReason fun key =>
    refuseIf (key = [] ∨ maxIdempotencyKeyLength < key.length ∨ hasControl key) (invalid idempotencyKeyReason)

def correlationIdReason : Text := text "correlationId must be 1-128 characters from [A-Za-z0-9._:-]"

/-- `value !== undefined && !isCorrelationId(value)` -/
def checkCorrelationId : Option Json → Except Thrown (Option Text)
  | none => .ok none
  | some value => do
    let id ← checkString correlationIdReason (fun id => refuseIf (¬ isCode 128 id) (invalid correlationIdReason)) (some value)
    return some id

structure ValidatedMessage where
  to' : List Text
  cc : List Text
  bcc : List Text
  from' : Option Text
  replyTo : Option Text
  subject : Text
  html : Text
  text' : Text
  headers : List (Text × Text)
  category : Text
  idempotencyKey : Text
  correlationId : Option Text
  deriving DecidableEq

/-- `value !== null && typeof value === 'object'` -/
def isObject : Json → Bool
  | .arr _ | .obj _ => true
  | _ => false

def validateMessage (message : Json) : Except Thrown ValidatedMessage := do
  refuseIf (¬ isObject message) (invalid (text "message must be an object"))
  let to' ← recipients (text "to") (message.field? (text "to"))
  let cc ← recipients (text "cc") (message.field? (text "cc"))
  let bcc ← recipients (text "bcc") (message.field? (text "bcc"))
  refuseIf (to' = []) (invalid (text "to must contain at least one recipient"))
  refuseIf (maxRecipients < to'.length + cc.length + bcc.length) (invalid (text "more than 500 recipients"))
  let from' ← optionalAddress (text "from") (message.field? (text "from"))
  let replyTo ← optionalAddress (text "replyTo") (message.field? (text "replyTo"))
  let subject ← checkSubject (message.field? (text "subject"))
  let html ← checkBody (text "html") (message.field? (text "html"))
  let text' ← checkBody (text "text") (message.field? (text "text"))
  let headers ← checkHeaders (message.field? (text "headers"))
  let category ← checkCategory (message.field? (text "category"))
  let idempotencyKey ← checkIdempotencyKey (message.field? (text "idempotencyKey"))
  let correlationId ← checkCorrelationId (message.field? (text "correlationId"))
  return ⟨to', cc, bcc, from', replyTo, subject, html, text', headers, category, idempotencyKey, correlationId⟩

/-- An error that no retry can mend: the message itself is refused. -/
def Invalid (e : Thrown) : Prop := ∃ reason, e = invalid reason

theorem invalid_invalid (reason : Text) : Invalid (invalid reason) := ⟨reason, rfl⟩

theorem refusal_invalid {p : Prop} [Decidable p] (reason : Text) : OnlyErrors Invalid (refuseIf p (invalid reason)) :=
  onlyErrors_refuseIf (invalid_invalid reason)

theorem error_invalid {α : Type} (reason : Text) : OnlyErrors Invalid (Except.error (invalid reason) : Except Thrown α) :=
  onlyErrors_error.mpr (invalid_invalid reason)

theorem pure_invalid {α : Type} (a : α) : OnlyErrors Invalid (pure a : Except Thrown α) := onlyErrors_ok a

theorem checkString_invalid {checks : Text → Except Thrown Unit} (checked : ∀ s, OnlyErrors Invalid (checks s)) (reason : Text)
    (value : Option Json) : OnlyErrors Invalid (checkString reason checks value) := by
  unfold checkString
  split
  · simp only [onlyErrors_bind, checked, pure_invalid, implies_true, and_self]
  · exact error_invalid reason

theorem checkAddress_invalid (field : Text) (value : Json) : OnlyErrors Invalid (checkAddress field value) :=
  checkString_invalid (fun _ => by simp only [onlyErrors_bind, refusal_invalid, implies_true, and_self]) _ _

theorem checkAddresses_invalid (field : Text) (items : List Json) :
    ∀ i, OnlyErrors Invalid (checkAddresses field i items) := by
  induction items with
  | nil => exact fun _ => onlyErrors_ok _
  | cons a rest ih =>
    intro i
    simp only [checkAddresses, onlyErrors_bind, checkAddress_invalid, ih, pure_invalid, implies_true, and_self]

theorem optionalAddress_invalid (field : Text) (value : Option Json) : OnlyErrors Invalid (optionalAddress field value) := by
  cases value with
  | none => exact onlyErrors_ok _
  | some v => simp only [optionalAddress, onlyErrors_bind, checkAddress_invalid, pure_invalid, implies_true, and_self]

theorem checkSubject_invalid (value : Option Json) : OnlyErrors Invalid (checkSubject value) :=
  checkString_invalid (fun _ => by simp only [onlyErrors_bind, refusal_invalid, implies_true, and_self]) _ _

theorem checkBody_invalid (field : Text) (value : Option Json) : OnlyErrors Invalid (checkBody field value) :=
  checkString_invalid (fun _ => by simp only [onlyErrors_bind, refusal_invalid, implies_true, and_self]) _ _

theorem checkHeader_invalid (name : Text) (value : Json) : OnlyErrors Invalid (checkHeader name value) := by
  have checked : OnlyErrors Invalid (checkHeaderValue name value) := checkString_invalid (fun _ => refusal_invalid _) _ _
  simp only [checkHeader, onlyErrors_bind, refusal_invalid, checked, pure_invalid, implies_true, and_self]

theorem checkHeaders_invalid (value : Option Json) : OnlyErrors Invalid (checkHeaders value) := by
  have checked (fields : List (Text × Json)) : OnlyErrors Invalid (checkEntries fields) := by
    induction fields with
    | nil => exact onlyErrors_ok _
    | cons head rest ih => simp only [checkEntries, onlyErrors_bind, checkHeader_invalid, ih, pure_invalid, implies_true, and_self]
  simp only [checkHeaders, onlyErrors_bind, refusal_invalid, checked, pure_invalid, implies_true, and_self]

theorem checkCategory_invalid (value : Option Json) : OnlyErrors Invalid (checkCategory value) :=
  checkString_invalid (fun _ => refusal_invalid _) _ _

theorem checkIdempotencyKey_invalid (value : Option Json) : OnlyErrors Invalid (checkIdempotencyKey value) :=
  checkString_invalid (fun _ => refusal_invalid _) _ _

theorem checkCorrelationId_invalid (value : Option Json) : OnlyErrors Invalid (checkCorrelationId value) := by
  cases value with
  | none => exact onlyErrors_ok _
  | some v =>
    exact onlyErrors_bind.mpr ⟨checkString_invalid (fun _ => refusal_invalid _) _ _, fun _ _ => pure_invalid _⟩

theorem checkString_ok_iff {reason : Text} {checks : Text → Except Thrown Unit} {value : Option Json} {s : Text} :
    checkString reason checks value = .ok s ↔ value = some (.str s) ∧ checks s = .ok () := by
  constructor
  · intro accepted
    unfold checkString at accepted
    split at accepted
    · obtain ⟨_, passed, same⟩ := bind_ok accepted
      cases same
      exact ⟨rfl, passed⟩
    · cases accepted
  · intro ⟨same, passed⟩
    rw [same, checkString, passed]
    rfl

/-- A check that tells only strings apart does the same on what is read again. -/
theorem checkString_normalForm (reason : Text) (checks : Text → Except Thrown Unit) (value : Option Json) :
    checkString reason checks (value.map normalForm) = checkString reason checks value := by
  cases value with
  | none => rfl
  | some v =>
    cases v with
    | num x => cases x <;> rfl
    | _ => rfl

/-! ### Recipients -/

/-- The value of `to`, `cc` or `bcc` has a `map`, or is absent. -/
def mappable : Option Json → Bool
  | none | some (.str _) | some (.arr _) => true
  | some _ => false

/-- The items of a list of recipients, or the one given as a string. -/
def items : Option Json → List Json
  | some (.str s) => [.str s]
  | some (.arr items) => items
  | _ => []

def isAddressValue : Json → Bool
  | .str s => 1 ≤ s.length && s.length ≤ maxAddressLength && !hasControl s && isAddress s
  | _ => false

def addressesOnly (value : Option Json) : Bool := (items value).all isAddressValue

theorem list_ok_iff {value : Option Json} {l : List Json} : list value = .ok l ↔ mappable value = true ∧ items value = l := by
  cases value with
  | none => simp [list, mappable, items]
  | some v => cases v <;> simp [list, mappable, items]

theorem list_invalid_iff {value : Option Json} : OnlyErrors Invalid (list value) ↔ mappable value = true := by
  cases value with
  | none => simp [list, mappable, onlyErrors_ok]
  | some v => cases v <;> simp [list, mappable, onlyErrors_ok, onlyErrors_error, Invalid, invalid]

theorem checkAddress_ok_iff {field : Text} {value : Json} {a : Text} :
    checkAddress field value = .ok a ↔ value = .str a ∧ isAddressValue value = true := by
  have measured : ¬(a.length = 0 ∨ maxAddressLength < a.length) ↔ 1 ≤ a.length ∧ a.length ≤ maxAddressLength := by omega
  rw [checkAddress, checkString_ok_iff, Option.some_inj]
  refine and_congr_right fun same => ?_
  rw [same]
  simp only [bind_ok_iff, refuseIf_iff, measured, isAddressValue, Bool.and_eq_true, decide_eq_true_eq, exists_const,
    Bool.not_eq_true', Bool.not_eq_true, Bool.not_eq_false, and_assoc]

theorem checkAddresses_ok_iff {field : Text} {values : List Json} :
    ∀ {i : ℕ} {l : List Text}, checkAddresses field i values = .ok l ↔
      values = l.map Json.str ∧ values.all isAddressValue = true := by
  induction values with
  | nil =>
    intro i l
    simp [checkAddresses, eq_comm]
  | cons v rest ih =>
    intro i l
    simp only [checkAddresses, bind_ok_iff, checkAddress_ok_iff, ih, pure, Except.pure, Except.ok.injEq, List.all_cons,
      Bool.and_eq_true]
    constructor
    · intro ⟨a, first, rest', others, same⟩
      subst same
      exact ⟨by rw [List.map_cons, first.1, others.1], first.2, others.2⟩
    · intro ⟨same, first, others⟩
      cases l with
      | nil => cases same
      | cons a rest' =>
        obtain ⟨head, tail⟩ := List.cons.inj same
        exact ⟨a, ⟨head, first⟩, rest', ⟨tail, others⟩, rfl⟩

theorem recipients_ok_iff {field : Text} {value : Option Json} {l : List Text} :
    recipients field value = .ok l ↔ mappable value = true ∧ items value = l.map Json.str ∧ addressesOnly value = true := by
  simp only [recipients, bind_ok_iff, list_ok_iff, checkAddresses_ok_iff, addressesOnly]
  constructor
  · intro ⟨values, ⟨listed, same⟩, written, accepted⟩
    subst same
    exact ⟨listed, written, accepted⟩
  · intro ⟨listed, written, accepted⟩
    exact ⟨_, ⟨listed, rfl⟩, written, accepted⟩

theorem recipients_accepts {value : Option Json} (field : Text) :
    (∃ l, recipients field value = .ok l) ↔ mappable value = true ∧ addressesOnly value = true := by
  simp only [recipients_ok_iff]
  constructor
  · intro ⟨l, listed, _, accepted⟩
    exact ⟨listed, accepted⟩
  · intro ⟨listed, accepted⟩
    have strings (values : List Json) (all : values.all isAddressValue = true) : ∃ l : List Text, values = l.map Json.str := by
      induction values with
      | nil => exact ⟨[], rfl⟩
      | cons v rest ih =>
        rw [List.all_cons, Bool.and_eq_true] at all
        obtain ⟨l, rfl⟩ := ih all.2
        cases v with
        | str s => exact ⟨s :: l, rfl⟩
        | _ => cases all.1
    obtain ⟨l, written⟩ := strings _ accepted
    exact ⟨l, listed, written, accepted⟩

theorem recipients_invalid_iff {field : Text} {value : Option Json} :
    OnlyErrors Invalid (recipients field value) ↔ mappable value = true := by
  simp only [recipients, onlyErrors_bind, checkAddresses_invalid, list_invalid_iff, implies_true, and_true]

/-- No field of recipients that the validation comes to is a value without `map`. -/
def RecipientsListed (message : Json) : Prop :=
  isObject message = true → mappable (message.field? (text "to")) = true ∧
    (addressesOnly (message.field? (text "to")) = true → mappable (message.field? (text "cc")) = true ∧
      (addressesOnly (message.field? (text "cc")) = true → mappable (message.field? (text "bcc")) = true))

instance (message : Json) : Decidable (RecipientsListed message) := inferInstanceAs (Decidable (_ → _))

/-- What follows an accepted list of recipients depends on its items alone. -/
theorem recipients_then {field : Text} {value : Option Json} {p : Prop} (listed : mappable value = true) :
    (∀ l, recipients field value = .ok l → p) ↔ (addressesOnly value = true → p) := by
  constructor
  · intro follows accepted
    obtain ⟨l, given⟩ := (recipients_accepts field).mpr ⟨listed, accepted⟩
    exact follows l given
  · intro follows l given
    exact follows ((recipients_accepts field).mp ⟨l, given⟩).2

theorem validateMessage_invalid_iff (message : Json) :
    OnlyErrors Invalid (validateMessage message) ↔ RecipientsListed message := by
  simp only [validateMessage, onlyErrors_bind, refusal_invalid, optionalAddress_invalid, checkSubject_invalid,
    checkBody_invalid, checkHeaders_invalid, checkCategory_invalid, checkIdempotencyKey_invalid,
    checkCorrelationId_invalid, pure_invalid, recipients_invalid_iff, refuseIf_iff, implies_true, and_true, true_and,
    not_not, forall_const, RecipientsListed]
  refine imp_congr_right fun _ => and_congr_right fun listed => ?_
  rw [recipients_then listed]
  exact imp_congr_right fun _ => and_congr_right fun listedCc => recipients_then listedCc

/-! ### Reading the data again -/

theorem field_normalForm {message : Json} (canonical : message.Canonical) (k : Text) :
    (normalForm message).field? k = (message.field? k).map normalForm := by
  cases message with
  | obj fields =>
    have ordered : Ordered (normalFields fields) := normalFields_ordered canonical.1
    rw [normalForm, buildFields_eq ordered]
    exact lookup_normalFields fields k
  | num x => cases x <;> rfl
  | _ => rfl

theorem isObject_normalForm (message : Json) : isObject (normalForm message) = isObject message := by
  cases message with
  | num x => cases x <;> rfl
  | _ => rfl

theorem checkAddress_normalForm (field : Text) (value : Json) :
    checkAddress field (normalForm value) = checkAddress field value :=
  checkString_normalForm _ _ (some value)

theorem checkAddresses_normalItems (field : Text) (values : List Json) :
    ∀ i, checkAddresses field i (normalItems values) = checkAddresses field i values := by
  induction values with
  | nil => exact fun _ => rfl
  | cons v rest ih =>
    intro i
    rw [normalItems, checkAddresses, checkAddresses, checkAddress_normalForm, ih]

theorem recipients_normalForm {field : Text} {value : Option Json} (listed : mappable value = true) :
    recipients field (value.map normalForm) = recipients field value := by
  cases value with
  | none => rfl
  | some v =>
    cases v with
    | arr items => exact checkAddresses_normalItems field items 0
    | str s => rfl
    | _ => cases listed

theorem optionalAddress_normalForm (field : Text) (value : Option Json) :
    optionalAddress field (value.map normalForm) = optionalAddress field value := by
  cases value with
  | none => rfl
  | some v =>
    rw [Option.map_some, optionalAddress, optionalAddress, checkAddress_normalForm]

theorem checkCorrelationId_normalForm (value : Option Json) :
    checkCorrelationId (value.map normalForm) = checkCorrelationId value := by
  cases value with
  | none => rfl
  | some v =>
    rw [Option.map_some, checkCorrelationId, checkCorrelationId, ← checkString_normalForm _ _ (some v), Option.map_some]

theorem checkHeader_normalForm (name : Text) (value : Json) :
    checkHeader name (normalForm value) = checkHeader name value := by
  have checked : checkHeaderValue name (normalForm value) = checkHeaderValue name value := checkString_normalForm _ _ (some value)
  rw [checkHeader, checkHeader, checked]

theorem checkEntries_normalFields (fields : List (Text × Json)) :
    checkEntries (normalFields fields) = checkEntries fields := by
  induction fields with
  | nil => rfl
  | cons head rest ih =>
    obtain ⟨name, value⟩ := head
    rw [normalFields, checkEntries, checkEntries, checkHeader_normalForm, ih]

theorem normalFields_length (fields : List (Text × Json)) : (normalFields fields).length = fields.length := by
  rw [← List.length_map (f := Prod.fst), normalFields_keys, List.length_map]

theorem indexed_units (s : Text) (i : ℕ) : (s.zipIdx i).map (fun (u, i) => (natText i, Json.str [u])) =
    normalFields ((s.zipIdx i).map fun (u, i) => (natText i, Json.str [u])) := by
  induction s generalizing i with
  | nil => rfl
  | cons u rest ih =>
    rw [List.zipIdx_cons, List.map_cons, normalFields, ← ih]
    rfl

theorem indexed_items (values : List Json) (i : ℕ) : ((normalItems values).zipIdx i).map (fun (v, i) => (natText i, v)) =
    normalFields ((values.zipIdx i).map fun (v, i) => (natText i, v)) := by
  induction values generalizing i with
  | nil => rfl
  | cons v rest ih =>
    rw [normalItems, List.zipIdx_cons, List.zipIdx_cons, List.map_cons, List.map_cons, normalFields, ← ih]

theorem entries_normalForm {value : Option Json} (canonical : ∀ v ∈ value, v.Canonical) :
    entries (value.map normalForm) = normalFields (entries value) := by
  cases value with
  | none => rfl
  | some v =>
    cases v with
    | num x => cases x <;> rfl
    | str s => exact indexed_units s 0
    | arr values => exact indexed_items values 0
    | obj fields => exact buildFields_eq (normalFields_ordered (canonical _ rfl).1)
    | _ => rfl

theorem checkHeaders_normalForm {value : Option Json} (canonical : ∀ v ∈ value, v.Canonical) :
    checkHeaders (value.map normalForm) = checkHeaders value := by
  rw [checkHeaders, checkHeaders, entries_normalForm canonical, checkEntries_normalFields, normalFields_length]

theorem field_canonical {message : Json} (canonical : message.Canonical) (k : Text) :
    ∀ v ∈ message.field? k, v.Canonical := by
  intro v found
  cases message with
  | obj fields => exact canonicalFields_iff.mp canonical.2 _ (mem_of_lookup found)
  | _ => cases found

theorem validateMessage_normalForm {message : Json} (canonical : message.Canonical) {m : ValidatedMessage}
    (accepted : validateMessage message = .ok m) : validateMessage (normalForm message) = .ok m := by
  have chain := accepted
  simp only [validateMessage, bind_ok_iff] at chain
  obtain ⟨_, _, to', hto, cc, hcc, bcc, hbcc, _⟩ := chain
  have headers := checkHeaders_normalForm (field_canonical canonical (text "headers"))
  rw [← accepted]
  simp only [validateMessage, isObject_normalForm, field_normalForm canonical,
    recipients_normalForm (recipients_ok_iff.mp hto).1, recipients_normalForm (recipients_ok_iff.mp hcc).1,
    recipients_normalForm (recipients_ok_iff.mp hbcc).1, optionalAddress_normalForm, checkSubject, checkBody, headers,
    checkCategory, checkIdempotencyKey, checkCorrelationId_normalForm, checkString_normalForm]

/-! ### Reading the message again -/

def optionalField (name : Text) : Option Text → List (Text × Json)
  | none => []
  | some value => [(name, .str value)]

/-- The accepted message as `JSON.stringify` writes it, without the properties that are `undefined`. -/
def ValidatedMessage.json (message : ValidatedMessage) : Json :=
  .obj ([(text "to", .arr (message.to'.map .str)), (text "cc", .arr (message.cc.map .str)),
      (text "bcc", .arr (message.bcc.map .str))] ++ optionalField (text "from") message.from' ++
    optionalField (text "replyTo") message.replyTo ++
    [(text "subject", .str message.subject), (text "html", .str message.html), (text "text", .str message.text'),
      (text "headers", .obj (message.headers.map fun header => (header.1, .str header.2))),
      (text "category", .str message.category), (text "idempotencyKey", .str message.idempotencyKey)] ++
    optionalField (text "correlationId") message.correlationId)

theorem json_fields (m : ValidatedMessage) :
    m.json.field? (text "to") = some (.arr (m.to'.map .str)) ∧ m.json.field? (text "cc") = some (.arr (m.cc.map .str)) ∧
    m.json.field? (text "bcc") = some (.arr (m.bcc.map .str)) ∧ m.json.field? (text "from") = m.from'.map .str ∧
    m.json.field? (text "replyTo") = m.replyTo.map .str ∧ m.json.field? (text "subject") = some (.str m.subject) ∧
    m.json.field? (text "html") = some (.str m.html) ∧ m.json.field? (text "text") = some (.str m.text') ∧
    m.json.field? (text "headers") = some (.obj (m.headers.map fun header => (header.1, .str header.2))) ∧
    m.json.field? (text "category") = some (.str m.category) ∧
    m.json.field? (text "idempotencyKey") = some (.str m.idempotencyKey) ∧
    m.json.field? (text "correlationId") = m.correlationId.map .str := by
  obtain ⟨to', cc, bcc, from', replyTo, subject, html, text', headers, category, key, id⟩ := m
  cases from' <;> cases replyTo <;> cases id <;> exact ⟨rfl, rfl, rfl, rfl, rfl, rfl, rfl, rfl, rfl, rfl, rfl, rfl⟩

theorem strings_canonical (l : List Text) : CanonicalItems (l.map .str) := by
  induction l with
  | nil => trivial
  | cons s rest ih => exact ⟨trivial, ih⟩

theorem headers_canonical (headers : List (Text × Text)) :
    CanonicalFields (headers.map fun header => (header.1, Json.str header.2)) := by
  induction headers with
  | nil => trivial
  | cons header rest ih => exact ⟨trivial, ih⟩

def jsonNames (sender reply correlation : Bool) : List Text :=
  [text "to", text "cc", text "bcc"] ++ (if sender then [text "from"] else []) ++ (if reply then [text "replyTo"] else []) ++
    [text "subject", text "html", text "text", text "headers", text "category", text "idempotencyKey"] ++
    (if correlation then [text "correlationId"] else [])

theorem jsonNames_ordered (sender reply correlation : Bool) :
    (jsonNames sender reply correlation).Nodup ∧ (jsonNames sender reply correlation).all isName = true := by
  cases sender <;> cases reply <;> cases correlation <;> decide

theorem json_canonical {m : ValidatedMessage} (ordered : Ordered m.headers) : m.json.Canonical := by
  have headers : (Json.obj (m.headers.map fun header => (header.1, .str header.2))).Canonical :=
    ⟨List.pairwise_map.mpr ordered, headers_canonical _⟩
  obtain ⟨to', cc, bcc, from', replyTo, subject, html, text', headers', category, key, id⟩ := m
  constructor
  · have names := jsonNames_ordered from'.isSome replyTo.isSome id.isSome
    refine ordered_names _ ?_ names.1 names.2
    cases from' <;> cases replyTo <;> cases id <;> rfl
  · cases from' <;> cases replyTo <;> cases id <;>
      simp only [optionalField, CanonicalFields, Json.Canonical, List.cons_append, List.nil_append, List.append_nil,
        strings_canonical, true_and, and_true] <;> exact headers

theorem optionalAddress_again {field : Text} {value : Option Json} {address : Option Text}
    (accepted : optionalAddress field value = .ok address) : optionalAddress field (address.map .str) = .ok address := by
  cases value with
  | none =>
    cases accepted
    rfl
  | some v =>
    obtain ⟨a, checked, same⟩ := bind_ok accepted
    cases same
    rw [(checkAddress_ok_iff.mp checked).1] at checked
    rw [Option.map_some, optionalAddress, checked]
    rfl

theorem recipients_again {field : Text} {value : Option Json} {l : List Text} (accepted : recipients field value = .ok l) :
    recipients field (some (.arr (l.map .str))) = .ok l := by
  obtain ⟨_, written, all⟩ := recipients_ok_iff.mp accepted
  rw [addressesOnly, written] at all
  exact recipients_ok_iff.mpr ⟨rfl, rfl, all⟩

theorem checkCorrelationId_again {value : Option Json} {id : Option Text} (accepted : checkCorrelationId value = .ok id) :
    value = id.map .str := by
  cases value with
  | none =>
    cases accepted
    rfl
  | some v =>
    obtain ⟨s, checked, same⟩ := bind_ok accepted
    cases same
    exact (checkString_ok_iff.mp checked).1

theorem checkEntries_str {fields : List (Text × Json)} :
    ∀ {headers : List (Text × Text)}, checkEntries fields = .ok headers → fields = headers.map fun header =>
      (header.1, .str header.2) := by
  induction fields with
  | nil =>
    intro headers accepted
    cases accepted
    rfl
  | cons head rest ih =>
    intro headers accepted
    obtain ⟨name, value⟩ := head
    obtain ⟨header, first, accepted⟩ := bind_ok accepted
    obtain ⟨headers', others, accepted⟩ := bind_ok accepted
    cases accepted
    obtain ⟨_, _, first⟩ := bind_ok first
    obtain ⟨_, _, first⟩ := bind_ok first
    obtain ⟨s, checked, same⟩ := bind_ok first
    cases same
    rw [List.map_cons, ← ih others, Option.some.inj (checkString_ok_iff.mp checked).1]

/-- The entries of a string or an array have index names, which no header has. -/
theorem entries_ordered {value : Option Json} (canonical : ∀ v ∈ value, v.Canonical) {headers : List (Text × Text)}
    (accepted : checkEntries (entries value) = .ok headers) : Ordered (entries value) := by
  cases value with
  | none => exact List.Pairwise.nil
  | some v =>
    cases v with
    | obj fields => exact (canonical _ rfl).1
    | arr values =>
      cases values with
      | nil => exact List.Pairwise.nil
      | cons v rest =>
        obtain ⟨_, first, _⟩ := bind_ok accepted
        cases first
    | str s =>
      cases s with
      | nil => exact List.Pairwise.nil
      | cons u rest =>
        obtain ⟨_, first, _⟩ := bind_ok accepted
        cases first
    | _ => exact List.Pairwise.nil

theorem checkHeaders_again {value : Option Json} (canonical : ∀ v ∈ value, v.Canonical) {headers : List (Text × Text)}
    (accepted : checkHeaders value = .ok headers) :
    checkHeaders (some (.obj (headers.map fun header => (header.1, .str header.2)))) = .ok headers ∧ Ordered headers := by
  obtain ⟨_, few, accepted⟩ := bind_ok accepted
  obtain ⟨headers', checked, same⟩ := bind_ok accepted
  cases same
  have ordered := entries_ordered canonical checked
  have written := checkEntries_str checked
  rw [written] at ordered few checked
  have ordered' : Ordered headers' := List.pairwise_map.mp ordered
  rw [buildFields_eq ordered']
  refine ⟨?_, ordered'⟩
  rw [checkHeaders, entries, few, ok_bind, checked, ok_bind, buildFields_eq ordered']
  rfl

theorem validateMessage_again {data : Json} {m : ValidatedMessage} (canonical : data.Canonical)
    (accepted : validateMessage data = .ok m) : validateMessage m.json = .ok m ∧ m.json.Canonical := by
  simp only [validateMessage, bind_ok_iff, pure, Except.pure, Except.ok.injEq] at accepted
  obtain ⟨_, _, to', hto, cc, hcc, bcc, hbcc, _, some_, _, few, from', hfrom, replyTo, hreply, subject, hsubject, html, hhtml,
    text', htext, headers, hheaders, category, hcategory, key, hkey, id, hid, rfl⟩ := accepted
  obtain ⟨again, ordered⟩ := checkHeaders_again (field_canonical canonical (text "headers")) hheaders
  refine ⟨?_, json_canonical ordered⟩
  obtain ⟨jto, jcc, jbcc, jfrom, jreply, jsubject, jhtml, jtext, jheaders, jcategory, jkey, jid⟩ :=
    json_fields ⟨to', cc, bcc, from', replyTo, subject, html, text', headers, category, key, id⟩
  rw [(checkString_ok_iff.mp hsubject).1] at hsubject
  rw [(checkString_ok_iff.mp hhtml).1] at hhtml
  rw [(checkString_ok_iff.mp htext).1] at htext
  rw [(checkString_ok_iff.mp hcategory).1] at hcategory
  rw [(checkString_ok_iff.mp hkey).1] at hkey
  rw [checkCorrelationId_again hid] at hid
  have object : refuseIf (¬isObject (ValidatedMessage.json ⟨to', cc, bcc, from', replyTo, subject, html, text', headers,
      category, key, id⟩)) (invalid (text "message must be an object")) = .ok () := rfl
  simp only [validateMessage, object, jto, jcc, jbcc, jfrom, jreply, jsubject, jhtml, jtext, jheaders, jcategory, jkey, jid,
    recipients_again hto, recipients_again hcc, recipients_again hbcc, some_, few, optionalAddress_again hfrom,
    optionalAddress_again hreply, hsubject, hhtml, htext, again, hcategory, hkey, hid, ok_bind]
  rfl

end Mail
