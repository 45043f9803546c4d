import AppPlatform.Identity.CallbackErrors
import AppPlatform.Lib.JsonUtf8

/-!
# The error envelope

`withErrorEnvelope` adds the platform's envelope to what the authentication handler answers with a status from 400 on: next to the
handler's own fields below 500, and in place of them from there.
-/

namespace ErrorEnvelope
open Js Percent CallbackErrors

/-- `MACHINE_CODE` -/
def isMachineCode (t : Text) : Bool := isCode 64 t

def validCorrelationId (value : Option Text) : Option Text := value.filter (isCode 128)

/-- `STATUS_CODES[status] ?? 'BAD_REQUEST'` -/
def statusCode : ℕ → Text
  | 401 => text "UNAUTHORIZED"
  | 403 => text "FORBIDDEN"
  | 404 => text "NOT_FOUND"
  | 405 => text "METHOD_NOT_ALLOWED"
  | 409 => text "CONFLICT"
  | 412 => text "PRECONDITION_FAILED"
  | 413 => text "PAYLOAD_TOO_LARGE"
  | 415 => text "UNSUPPORTED_MEDIA_TYPE"
  | 422 => text "VALIDATION_FAILED"
  | 429 => text "RATE_LIMITED"
  | 503 => text "SERVICE_UNAVAILABLE"
  | _ => text "BAD_REQUEST"

def MAX_MESSAGE : ℕ := 300

/-- A `[` follows, after white space. -/
def opensIssue (rest : Text) : Bool := (rest.dropWhile isWhiteSpace).head? = some (unit '[')

/-- `split(/;\s*(?=\[)/)`: the first piece, and those after it; `skip` while white space after a separator is passed. -/
def splitIssues : Bool → Text → Text × List Text
  | _, [] => ([], [])
  | skip, u :: rest =>
    if skip && isWhiteSpace u then splitIssues true rest
    else if u = unit ';' && opensIssue rest then ([], (splitIssues true rest).1 :: (splitIssues true rest).2)
    else (u :: (splitIssues false rest).1, (splitIssues false rest).2)

/-- `/^\[([^\]]+)\]\s*(.*)$/`: the path and the message. -/
def readIssue (part : Text) : Option (Text × Text) :=
  match trim part with
  | [] => none
  | u :: rest =>
    let path := rest.takeWhile (· ≠ unit ']')
    match rest.dropWhile (· ≠ unit ']') with
    | [] => none
    | _ :: tail =>
      let message := tail.dropWhile isWhiteSpace
      if u = unit '[' && path ≠ [] && !message.any isLineTerminator then some (path, message) else none

def validationIssues (message : Text) : List (Text × Text) :=
  ((splitIssues false message).1 :: (splitIssues false message).2).filterMap readIssue

abbrev Body := List (Text × Json)

def issueJson (issue : Text × Text) : Json := .obj [(text "path", .str issue.1), (text "message", .str issue.2)]

def wrap (store : Option Text) (code message : Text) (details : List Json) : Json :=
  .obj [(text "code", .str code), (text "message", .str message), (text "details", .arr details),
    (text "correlationId", .str ((validCorrelationId store).getD (text "unknown")))]

/-- The object that a text is the JSON of; the empty one for anything else. -/
def objectOf (original : Text) : Body :=
  match parse original with
  | some (.obj fields) => fields
  | _ => []

def stringField (body : Body) (key : Text) : Option Text :=
  match body.lookup key with
  | some (.str s) => some s
  | _ => none

def topCode (body : Body) : Option Text := stringField body (text "code")

def topMessage (body : Body) : Option Text := (stringField body (text "message")).filter fun t => t ≠ []

def messageOf (body : Body) : Text := (topMessage body).getD (text "The request could not be completed")

def envelopeCode (status : ℕ) (body : Body) : Text := ((topCode body).filter isMachineCode).getD (statusCode status)

def envelope (store : Option Text) (status : ℕ) (body : Body) : Json :=
  if envelopeCode status body = text "VALIDATION_ERROR" then
    wrap store (text "VALIDATION_FAILED") (text "Validation failed") ((validationIssues (messageOf body)).map issueJson)
  else wrap store (envelopeCode status body) ((messageOf body).take MAX_MESSAGE) []

/-- `{ ...ba, code, message, error }` -/
def extended (body : Body) (code message : Text) (error : Json) : Body :=
  setField (setField (setField body (text "code") (.str code)) (text "message") (.str message)) (text "error") error

/-- The answer to a failure of the server. -/
def serverError (store : Option Text) (status : ℕ) : Body :=
  let code := if status = 503 then text "SERVICE_UNAVAILABLE" else text "INTERNAL_ERROR"
  let message := if status = 503 then text "The service is temporarily unavailable" else text "An unexpected error occurred"
  [(text "code", .str code), (text "message", .str message), (text "error", wrap store code message [])]

def hybridErrorBody (store : Option Text) (status : ℕ) (original : Text) : Option Body :=
  if 500 ≤ status then some (serverError store status)
  else
    let ba := objectOf original
    if (ba.lookup (text "error")).isSome then none
    else some (extended ba ((topCode ba).getD (statusCode status)) (messageOf ba) (envelope store status ba))

inductive LogLine where
  | handlerThrew
  | serverError (status : ℕ) (errorCode : Option Text)
  deriving DecidableEq

/-- `Response.prototype.text`: a byte order mark is not read. -/
def bodyText (response : Response) : Text :=
  let bytes := response.body.getD []
  decodeUtf8 (if [0xEF, 0xBB, 0xBF].isPrefixOf bytes then bytes.drop 3 else bytes)

def bodyCode (response : Response) : Option Text := (topCode (objectOf (bodyText response))).filter isMachineCode

def enveloped (response : Response) (body : Body) : Response where
  status := response.status
  headers := Fetch.Headers.set (Fetch.Headers.delete response.headers.entries (text "content-length")) (text "content-type")
    (text "application/json; charset=utf-8")
  body := some (utf8 (stringify (.obj body)))

/-- The response to go on with: a handler that threw gave none. -/
def responseOf (result : Option Response) : Response := result.getD ⟨500, [], none⟩

def withErrorEnvelope (store : Option Text) (result : Option Response) : List LogLine × Response :=
  let response := responseOf result
  let threw := if result.isNone then [LogLine.handlerThrew] else []
  if response.status < 400 then (threw, response)
  else
    let failed := if result.isSome && 500 ≤ response.status then [LogLine.serverError response.status (bodyCode response)] else []
    let original := if 500 ≤ response.status then [] else bodyText response
    (threw ++ failed, match hybridErrorBody store response.status original with
      | some body => enveloped response body
      | none => response)

theorem bodyText_enveloped (response : Response) (body : Body) : bodyText (enveloped response body) = stringify (.obj body) := by
  have head : ∃ rest, stringify (.obj body) = openBrace :: rest := by
    cases body with
    | nil => exact ⟨_, rfl⟩
    | cons entry body => exact ⟨_, rfl⟩
  obtain ⟨rest, shape⟩ := head
  have unmarked : [0xEF, 0xBB, 0xBF].isPrefixOf (utf8 (stringify (.obj body))) = false := by
    rw [shape, utf8_cons (by decide)]
    rfl
  unfold bodyText
  change decodeUtf8 (if [0xEF, 0xBB, 0xBF].isPrefixOf (utf8 (stringify (.obj body))) then _ else utf8 (stringify (.obj body))) = _
  rw [unmarked, if_neg Bool.false_ne_true, decodeUtf8_stringify]

theorem objectOf_ordered (original : Text) : Ordered (objectOf original) := by
  unfold objectOf
  split
  · rename_i fields read
    exact (parse_canonical read).1
  · exact List.Pairwise.nil

theorem objectOf_stringify {body : Body} (ordered : Ordered body) : objectOf (stringify (.obj body)) = normalFields body := by
  rw [objectOf, parse_stringify, normalForm, buildFields_eq (normalFields_ordered ordered)]

theorem extended_ordered {body : Body} (ordered : Ordered body) (code message : Text) (error : Json) :
    Ordered (extended body code message error) :=
  setField_ordered (setField_ordered (setField_ordered ordered _ _) _ _) _ _

theorem serverError_ordered (store : Option Text) (status : ℕ) : Ordered (serverError store status) :=
  ordered_names [text "code", text "message", text "error"] rfl (by decide) rfl

section Fields
variable (body : Body) (code message : Text) (error : Json)

theorem extended_code : (extended body code message error).lookup (text "code") = some (.str code) := by
  rw [extended, lookup_setField_other _ _ (by decide), lookup_setField_other _ _ (by decide), lookup_setField_same]

theorem extended_message : (extended body code message error).lookup (text "message") = some (.str message) := by
  rw [extended, lookup_setField_other _ _ (by decide), lookup_setField_same]

theorem extended_error : (extended body code message error).lookup (text "error") = some error := lookup_setField_same _ _ _

theorem extended_other {key : Text} (notCode : key ≠ text "code") (notMessage : key ≠ text "message")
    (notError : key ≠ text "error") :
    (extended body code message error).lookup key = body.lookup key := by
  rw [extended, lookup_setField_other _ _ notError, lookup_setField_other _ _ notMessage, lookup_setField_other _ _ notCode]

end Fields

/-- A machine code, a message of bounded length, the issues of a validation, and a correlation id. -/
def IsEnvelope (error : Json) : Prop := ∃ (code message : Text) (issues : List (Text × Text)) (id : Text),
  error = .obj [(text "code", .str code), (text "message", .str message), (text "details", .arr (issues.map issueJson)),
    (text "correlationId", .str id)] ∧
  isMachineCode code = true ∧ message.length ≤ MAX_MESSAGE ∧ isCode 128 id = true

theorem correlationId_code (store : Option Text) : isCode 128 ((validCorrelationId store).getD (text "unknown")) = true := by
  unfold validCorrelationId
  cases valid : store.filter (isCode 128) with
  | none => decide
  | some id => exact (Option.filter_eq_some_iff.mp valid).2

theorem wrap_isEnvelope (store : Option Text) {code message : Text} (machine : isMachineCode code = true)
    (short : message.length ≤ MAX_MESSAGE) (issues : List (Text × Text)) :
      IsEnvelope (wrap store code message (issues.map issueJson)) :=
  ⟨code, message, issues, _, rfl, machine, short, correlationId_code store⟩

theorem statusCode_machine (status : ℕ) : isMachineCode (statusCode status) = true := by
  unfold statusCode
  split <;> decide

theorem envelopeCode_machine (status : ℕ) (body : Body) : isMachineCode (envelopeCode status body) = true := by
  unfold envelopeCode
  cases machine : (topCode body).filter isMachineCode with
  | none => exact statusCode_machine status
  | some code => exact (Option.filter_eq_some_iff.mp machine).2

theorem envelope_isEnvelope (store : Option Text) (status : ℕ) (body : Body) : IsEnvelope (envelope store status body) := by
  unfold envelope
  split
  · exact wrap_isEnvelope store (by decide) (by decide) _
  · exact wrap_isEnvelope store (envelopeCode_machine status body) (List.length_take_le _ _) []

theorem envelope_normal {error : Json} (isEnvelope : IsEnvelope error) : normalForm error = error := by
  obtain ⟨code, message, issues, id, rfl, _⟩ := isEnvelope
  have issue : ∀ member ∈ issues.map issueJson, member.Canonical ∧ member.FiniteNumbers := by
    intro member found
    obtain ⟨issue, _, rfl⟩ := List.mem_map.mp found
    exact ⟨⟨ordered_names [text "path", text "message"] rfl (by decide) rfl, trivial, trivial, trivial⟩,
      trivial, trivial, trivial⟩
  have items : ∀ l : List Json, (∀ member ∈ l, member.Canonical ∧ member.FiniteNumbers) →
    CanonicalItems l ∧ FiniteItems l := by
    intro l
    induction l with
    | nil => exact fun _ => ⟨trivial, trivial⟩
    | cons v l ih =>
      intro all
      obtain ⟨canonical, finite⟩ := ih fun member found => all member (List.mem_cons_of_mem _ found)
      exact ⟨⟨(all v List.mem_cons_self).1, canonical⟩, (all v List.mem_cons_self).2, finite⟩
  obtain ⟨canonical, finite⟩ := items _ issue
  exact normalForm_eq _
    ⟨ordered_names [text "code", text "message", text "details", text "correlationId"] rfl (by decide) rfl,
      trivial, trivial, canonical,
      trivial, trivial⟩
    ⟨trivial, trivial, finite, trivial, trivial⟩

/-! ### The answer -/

def isOwn (name : Text) : Bool := toLowerCase name = text "content-type" || toLowerCase name = text "content-length"

theorem enveloped_header (response : Response) (body : Body) {name : Text} (other : isOwn name = false) :
    (enveloped response body).headers.get name = response.headers.get name := by
  simp only [isOwn, Bool.or_eq_false_iff, decide_eq_false_iff_not] at other
  have type : toLowerCase (text "content-type") ≠ toLowerCase name := fun same => other.1 (same.symm.trans (by decide))
  have length : toLowerCase (text "content-length") ≠ toLowerCase name := fun same => other.2 (same.symm.trans (by decide))
  unfold enveloped
  rw [Fetch.Headers.get_set_other type, Fetch.Headers.get_congr (Fetch.Headers.values_delete_other length), Fetch.Headers.get_entries]

/-- What an answer says of a refusal: the handler's fields as they were, with a code, a message and the envelope. -/
structure Extends (status : ℕ) (before after : Body) : Prop where
  others : ∀ key, key ≠ text "code" → key ≠ text "message" → key ≠ text "error" →
    after.lookup key = (before.lookup key).map normalForm
  code : stringField after (text "code") = some ((topCode before).getD (statusCode status))
  message : stringField after (text "message") = some (messageOf before)
  error : ∃ error, after.lookup (text "error") = some error ∧ IsEnvelope error

theorem extends_extended (store : Option Text) (status : ℕ) (body : Body) :
    Extends status body (normalFields (extended body ((topCode body).getD (statusCode status)) (messageOf body)
      (envelope store status body))) := by
  refine ⟨?_, ?_, ?_, ?_⟩
  · intro key notCode notMessage notError
    rw [lookup_normalFields, extended_other _ _ _ _ notCode notMessage notError]
  · rw [stringField, lookup_normalFields, extended_code]
    rfl
  · rw [stringField, lookup_normalFields, extended_message]
    rfl
  · refine ⟨envelope store status body, ?_, envelope_isEnvelope store status body⟩
    rw [lookup_normalFields, extended_error, Option.map_some, envelope_normal (envelope_isEnvelope store status body)]

section Answer
variable (store : Option Text) (result : Option Response)

theorem answer_plain (small : (responseOf result).status < 400) : (withErrorEnvelope store result).2 = responseOf result := by
  unfold withErrorEnvelope
  dsimp only
  rw [if_pos small]

theorem answer_failed (large : 500 ≤ (responseOf result).status) :
    (withErrorEnvelope store result).2 = enveloped (responseOf result) (serverError store (responseOf result).status) := by
  unfold withErrorEnvelope
  dsimp only
  rw [if_neg (by omega), hybridErrorBody, if_pos large]

theorem answer_refused (from400 : 400 ≤ (responseOf result).status) (small : (responseOf result).status < 500) :
    (withErrorEnvelope store result).2 =
      if ((objectOf (bodyText (responseOf result))).lookup (text "error")).isSome then responseOf result
      else enveloped (responseOf result) (extended (objectOf (bodyText (responseOf result)))
        ((topCode (objectOf (bodyText (responseOf result)))).getD (statusCode (responseOf result).status))
        (messageOf (objectOf (bodyText (responseOf result))))
        (envelope store (responseOf result).status (objectOf (bodyText (responseOf result))))) := by
  unfold withErrorEnvelope hybridErrorBody
  dsimp only
  rw [if_neg (by omega), if_neg (by omega : ¬ 500 ≤ (responseOf result).status),
    if_neg (by omega : ¬ 500 ≤ (responseOf result).status)]
  by_cases hasError : ((objectOf (bodyText (responseOf result))).lookup (text "error")).isSome = true
  · rw [if_pos hasError, if_pos hasError]
  · rw [if_neg hasError, if_neg hasError]

theorem failed_body (large : 500 ≤ (responseOf result).status) :
    objectOf (bodyText (withErrorEnvelope store result).2) = serverError store (responseOf result).status := by
  rw [answer_failed store result large, bodyText_enveloped, objectOf_stringify (serverError_ordered store _)]
  have error : ∀ code message : Text, isMachineCode code = true → message.length ≤ MAX_MESSAGE →
      normalForm (wrap store code message []) = wrap store code message [] :=
    fun _ _ machine short => envelope_normal (wrap_isEnvelope store machine short [])
  unfold serverError
  dsimp only [normalFields]
  rw [error _ _ (by split <;> decide) (by split <;> decide)]
  rfl

end Answer

/-- Whatever the handler answers or throws: the status and every header but the content's stay; redirects, successes and bodies with an
error of their own are answered as they are; a refusal keeps its fields and gets an envelope; and a failure of the server is answered
with a fixed envelope, whatever its body was. -/
theorem envelope_answers (store : Option Text) (result : Option Response) :
    (withErrorEnvelope store result).2.status = (responseOf result).status ∧
    (∀ name, isOwn name = false → (withErrorEnvelope store result).2.headers.get name = (responseOf result).headers.get name) ∧
    ((responseOf result).status < 400 → (withErrorEnvelope store result).2 = responseOf result) ∧
    (400 ≤ (responseOf result).status → (responseOf result).status < 500 →
      (((objectOf (bodyText (responseOf result))).lookup (text "error")).isSome →
        (withErrorEnvelope store result).2 = responseOf result) ∧
      (((objectOf (bodyText (responseOf result))).lookup (text "error")).isNone →
        Extends (responseOf result).status (objectOf (bodyText (responseOf result)))
          (objectOf (bodyText (withErrorEnvelope store result).2)))) ∧
    (500 ≤ (responseOf result).status →
      objectOf (bodyText (withErrorEnvelope store result).2) = serverError store (responseOf result).status ∧
        ∀ other : Option Response, (responseOf other).status = (responseOf result).status →
          (withErrorEnvelope store other).2.body = (withErrorEnvelope store result).2.body) := by
  obtain small | ⟨from400, below⟩ | large : (responseOf result).status < 400 ∨
      (400 ≤ (responseOf result).status ∧ (responseOf result).status < 500) ∨ 500 ≤ (responseOf result).status := by
    omega
  · have same := answer_plain store result small
    exact ⟨congrArg _ same, fun _ _ => by rw [same], fun _ => same, fun from400 => by omega, fun large => by omega⟩
  · have answer := answer_refused store result from400 below
    by_cases hasError : ((objectOf (bodyText (responseOf result))).lookup (text "error")).isSome = true
    · rw [if_pos hasError] at answer
      refine ⟨congrArg _ answer, fun _ _ => by rw [answer], fun _ => answer, fun _ _ =>
        ⟨fun _ => answer, fun none => ?_⟩, fun large => by omega⟩
      rw [← Option.not_isSome, hasError] at none
      exact absurd none (by decide)
    · rw [if_neg hasError] at answer
      refine ⟨by rw [answer]; rfl, fun _ other => by rw [answer, enveloped_header _ _ other], fun small => by omega,
        fun _ _ => ⟨fun some => absurd some hasError, fun _ => ?_⟩, fun large => by omega⟩
      rw [answer, bodyText_enveloped, objectOf_stringify (extended_ordered (objectOf_ordered _) _ _ _)]
      exact extends_extended store _ _
  · have answer := answer_failed store result large
    refine ⟨by rw [answer]; rfl, fun _ other => by rw [answer, enveloped_header _ _ other], fun small => by omega,
      fun _ below => by omega, fun _ => ⟨failed_body store result large, fun other same => ?_⟩⟩
    rw [answer, answer_failed store other (by omega), same]
    rfl

theorem get_lower (h : Fetch.Headers) (name : Text) : h.get (toLowerCase name) = h.get name := by
  unfold Fetch.Headers.get
  rw [Fetch.Headers.values_lower]

theorem enveloped_headers {response other : Response} (body extra : Body)
    (same : ∀ name, isOwn name = false → other.headers.get name = response.headers.get name) (name : Text) :
    (enveloped other extra).headers.get name = (enveloped response body).headers.get name := by
  by_cases own : isOwn name = true
  · rw [isOwn, Bool.or_eq_true, decide_eq_true_eq, decide_eq_true_eq] at own
    rw [← get_lower, ← get_lower (enveloped response body).headers]
    cases own with
    | inl type =>
      rw [type]
      exact (Fetch.Headers.get_set _ _ _).trans (Fetch.Headers.get_set _ _ _).symm
    | inr length =>
      have apart : toLowerCase (text "content-type") ≠ toLowerCase (text "content-length") := by decide
      have gone : ∀ (response : Response) (body : Body), (enveloped response body).headers.get (text "content-length") = none := by
        intro response body
        rw [enveloped, Fetch.Headers.get_set_other apart, Fetch.Headers.get, Fetch.Headers.values_delete, if_pos rfl]
      rw [length, gone, gone]
  · rw [Bool.not_eq_true] at own
    rw [enveloped_header _ _ own, enveloped_header _ _ own, same name own]

/-- An answer that passes the envelope again, in the same request, keeps its status, body and headers. -/
theorem envelope_again (store : Option Text) (result : Option Response) :
    (withErrorEnvelope store (some (withErrorEnvelope store result).2)).2.status = (withErrorEnvelope store result).2.status ∧
    (withErrorEnvelope store (some (withErrorEnvelope store result).2)).2.body = (withErrorEnvelope store result).2.body ∧
    ∀ name, (withErrorEnvelope store (some (withErrorEnvelope store result).2)).2.headers.get name =
      (withErrorEnvelope store result).2.headers.get name := by
  generalize answered : (withErrorEnvelope store result).2 = answer
  -- below 500 the answer is either the response itself, refused again or not, or has an error of its own
  have unchanged : (withErrorEnvelope store (some answer)).2 = answer →
      (withErrorEnvelope store (some answer)).2.status = answer.status ∧
        (withErrorEnvelope store (some answer)).2.body = answer.body ∧
        ∀ name, (withErrorEnvelope store (some answer)).2.headers.get name = answer.headers.get name := by
    intro same
    rw [same]
    exact ⟨rfl, rfl, fun _ => rfl⟩
  obtain small | ⟨from400, below⟩ | large : (responseOf result).status < 400 ∨
      (400 ≤ (responseOf result).status ∧ (responseOf result).status < 500) ∨ 500 ≤ (responseOf result).status := by
    omega
  · have same := answered.symm.trans (answer_plain store result small)
    subst same
    exact unchanged (answer_plain store (some (responseOf result)) small)
  · have refused := answered.symm.trans (answer_refused store result from400 below)
    apply unchanged
    by_cases hasError : ((objectOf (bodyText (responseOf result))).lookup (text "error")).isSome = true
    · rw [if_pos hasError] at refused
      subst refused
      exact (answer_refused store (some (responseOf result)) from400 below).trans (if_pos hasError)
    · rw [if_neg hasError] at refused
      subst refused
      refine (answer_refused store (some (enveloped _ _)) from400 below).trans (if_pos ?_)
      change ((objectOf (bodyText (enveloped _ _))).lookup (text "error")).isSome = true
      rw [bodyText_enveloped, objectOf_stringify (extended_ordered (objectOf_ordered _) _ _ _), lookup_normalFields, extended_error]
      rfl
  · have failed := answered.symm.trans (answer_failed store result large)
    subst failed
    rw [answer_failed store (some (enveloped _ _)) large]
    refine ⟨rfl, rfl, fun name => ?_⟩
    exact enveloped_headers _ _ (fun name other => enveloped_header _ _ other) name

/-! ### Issues that are read back -/

def issueText (issue : Text × Text) : Text := unit '[' :: (issue.1 ++ unit ']' :: unit ' ' :: issue.2)

def issuesText (issues : List (Text × Text)) : Text := (text "; ").intercalate (issues.map issueText)

/-- No `;` of it stands before a `[`, white space between or not. -/
def Whole (t : Text) : Prop := ∀ before rest, t = before ++ unit ';' :: rest → opensIssue rest = false

structure IsIssue (issue : Text × Text) : Prop where
  path : issue.1 ≠ []
  closed : unit ']' ∉ issue.1
  trimmed : trim issue.2 = issue.2
  line : issue.2.any isLineTerminator = false
  whole : Whole (issueText issue)

theorem white_semicolon : isWhiteSpace (unit ';') = false := isWhiteSpace_letter (by decide) (by decide)

theorem white_bracket : isWhiteSpace (unit '[') = false := isWhiteSpace_letter (by decide) (by decide)

/-- What follows an issue: the end, or a separator. -/
def Ends (tail : Text) : Prop := tail = [] ∨ tail.head? = some (unit ';')

theorem opensIssue_ends {t tail : Text} (ends : Ends tail) (plain : opensIssue t = false) : opensIssue (t ++ tail) = false := by
  induction t with
  | nil =>
    obtain rfl | head := ends
    · rfl
    · obtain ⟨rest, rfl⟩ := List.head?_eq_some_iff.mp head
      rw [List.nil_append, opensIssue, List.dropWhile_cons_of_neg (by rw [white_semicolon]; exact Bool.false_ne_true)]
      exact decide_eq_false fun same => absurd (Option.some.inj same) (by decide)
  | cons u t ih =>
    cases white : isWhiteSpace u with
    | true =>
      rw [opensIssue, List.dropWhile_cons_of_pos white] at plain
      rw [opensIssue, List.cons_append, List.dropWhile_cons_of_pos white]
      exact ih plain
    | false =>
      have stops : ¬ isWhiteSpace u = true := by
        rw [white]
        exact Bool.false_ne_true
      rw [opensIssue, List.dropWhile_cons_of_neg stops] at plain
      rw [opensIssue, List.cons_append, List.dropWhile_cons_of_neg stops]
      exact plain

/-- A piece without a separator of its own is one piece. -/
theorem splitIssues_whole {t tail : Text} (whole : Whole t) (ends : Ends tail) :
    splitIssues false (t ++ tail) = (t ++ (splitIssues false tail).1, (splitIssues false tail).2) := by
  induction t with
  | nil => rfl
  | cons u t ih =>
    have rest := ih fun before rest same => whole (u :: before) rest (by rw [same]; rfl)
    have stays : ¬ (u = unit ';' && opensIssue (t ++ tail)) = true := by
      rw [Bool.and_eq_true, decide_eq_true_eq]
      intro ⟨separator, opens⟩
      rw [opensIssue_ends ends (whole [] t (by rw [separator]; rfl))] at opens
      exact Bool.false_ne_true opens
    rw [List.cons_append, splitIssues, Bool.false_and, if_neg Bool.false_ne_true, if_neg stays, rest]
    rfl

theorem splitIssues_separator {next : Text} (opens : next.head? = some (unit '[')) :
    splitIssues false (text "; " ++ next) = ([], (splitIssues false next).1 :: (splitIssues false next).2) := by
  obtain ⟨rest, rfl⟩ := List.head?_eq_some_iff.mp opens
  have bracket : ∀ skip, splitIssues skip (unit '[' :: rest) =
    (unit '[' :: (splitIssues false rest).1, (splitIssues false rest).2) := by
    intro skip
    rw [splitIssues, white_bracket, Bool.and_false, if_neg Bool.false_ne_true, if_neg]
    rw [Bool.and_eq_true, decide_eq_true_eq]
    exact fun both => absurd both.1 (by decide)
  have blank : opensIssue (unit ' ' :: unit '[' :: rest) = true := by
    rw [opensIssue, List.dropWhile_cons_of_pos (by decide), List.dropWhile_cons_of_neg (by rw [white_bracket]; exact Bool.false_ne_true)]
    rfl
  have skipped : splitIssues true (unit ' ' :: unit '[' :: rest) = splitIssues true (unit '[' :: rest) := by
    rw [splitIssues, if_pos (by decide)]
  change splitIssues false (unit ';' :: unit ' ' :: unit '[' :: rest) = _
  rw [splitIssues, Bool.false_and, if_neg Bool.false_ne_true, if_pos (by rw [blank]; decide), skipped, bracket, bracket]

theorem issuesText_cons (issue next : Text × Text) (issues : List (Text × Text)) :
    issuesText (issue :: next :: issues) = issueText issue ++ (text "; " ++ issuesText (next :: issues)) := by
  rw [issuesText, List.map_cons, List.map_cons, List.intercalate_cons_cons, List.append_assoc]
  rfl

/-- The pieces of a message are its issues. -/
theorem splitIssues_issues (issue : Text × Text) (issues : List (Text × Text)) (all : ∀ i ∈ issue :: issues, IsIssue i) :
    splitIssues false (issuesText (issue :: issues)) = (issueText issue, issues.map issueText) := by
  induction issues generalizing issue with
  | nil =>
    have whole := @splitIssues_whole _ [] (all issue List.mem_cons_self).whole (.inl rfl)
    rw [List.append_nil] at whole
    rw [issuesText, List.map_singleton, List.intercalate_singleton, whole, splitIssues, List.append_nil]
    rfl
  | cons next issues ih =>
    have later := ih next fun i found => all i (List.mem_cons_of_mem issue found)
    have opens : (issuesText (next :: issues)).head? = some (unit '[') := by
      cases issues with
      | nil => rfl
      | cons after issues =>
        rw [issuesText_cons]
        rfl
    rw [issuesText_cons, splitIssues_whole (all issue List.mem_cons_self).whole (.inr rfl), splitIssues_separator opens, later,
      List.append_nil, List.map_cons]

theorem trim_issueText {issue : Text × Text} (trimmed : trim issue.2 = issue.2) :
    ∃ tail, trim (issueText issue) = unit '[' :: (issue.1 ++ unit ']' :: tail) ∧ tail.dropWhile isWhiteSpace = issue.2 := by
  obtain ⟨path, message⟩ := issue
  replace trimmed : trim message = message := trimmed
  have front : message.dropWhile isWhiteSpace = message := by
    have short : message.length ≤ (message.dropWhile isWhiteSpace).length := by
      have cut := (List.rdropWhile_prefix isWhiteSpace (message.dropWhile isWhiteSpace)).length_le
      rwa [show List.rdropWhile isWhiteSpace (message.dropWhile isWhiteSpace) = message from trimmed] at cut
    exact (List.dropWhile_suffix isWhiteSpace).eq_of_length_le short
  have back : message.rdropWhile isWhiteSpace = message := by
    rw [trim, front] at trimmed
    exact trimmed
  have start : (issueText (path, message)).dropWhile isWhiteSpace = issueText (path, message) :=
    List.dropWhile_cons_of_neg (by rw [white_bracket]; exact Bool.false_ne_true)
  rw [trim, start]
  cases message using List.reverseRecOn with
  | nil =>
    refine ⟨[], ?_, rfl⟩
    have shape : issueText (path, []) = unit '[' :: path ++ [unit ']'] ++ [unit ' '] := by
      simp [issueText]
    rw [shape, List.rdropWhile_concat_pos _ _ _ (by decide), List.rdropWhile_concat_neg _ _ _ (by decide)]
    rfl
  | append_singleton message last _ =>
    refine ⟨unit ' ' :: (message ++ [last]), ?_, ?_⟩
    · have stays : ¬ isWhiteSpace last = true := by
        intro white
        rw [List.rdropWhile_concat_pos _ _ _ white] at back
        have shorter := (List.rdropWhile_prefix isWhiteSpace message).length_le
        rw [back, List.length_append, List.length_singleton] at shorter
        omega
      have shape : issueText (path, message ++ [last]) = (unit '[' :: (path ++ unit ']' :: unit ' ' :: message)) ++ [last] := by
        simp [issueText]
      rw [shape, List.rdropWhile_concat_neg _ _ _ stays]
      simp
    · rw [List.dropWhile_cons_of_pos (by decide), front]

theorem readIssue_issueText {issue : Text × Text} (isIssue : IsIssue issue) : readIssue (issueText issue) = some issue := by
  obtain ⟨tail, trimmed, message⟩ := trim_issueText isIssue.trimmed
  have inside : ∀ u ∈ issue.1, decide (u ≠ unit ']') = true := by
    intro u found
    rw [decide_eq_true_eq]
    rintro rfl
    exact isIssue.closed found
  have path : (issue.1 ++ unit ']' :: tail).takeWhile (· ≠ unit ']') = issue.1 := by
    rw [List.takeWhile_append_of_pos inside, List.takeWhile_cons_of_neg (by decide), List.append_nil]
  have rest : (issue.1 ++ unit ']' :: tail).dropWhile (· ≠ unit ']') = unit ']' :: tail := by
    rw [List.dropWhile_append_of_pos inside, List.dropWhile_cons_of_neg (by decide)]
  unfold readIssue
  rw [trimmed]
  dsimp only
  rw [path, rest]
  dsimp only
  rw [message, isIssue.line, if_pos]
  simp [isIssue.path]

theorem validationIssues_issuesText {issues : List (Text × Text)} (some : issues ≠ []) (all : ∀ issue ∈ issues, IsIssue issue) :
    validationIssues (issuesText issues) = issues := by
  obtain ⟨issue, rest, rfl⟩ := List.exists_cons_of_ne_nil some
  have read : ∀ l : List (Text × Text), (∀ i ∈ l, IsIssue i) → (l.map issueText).filterMap readIssue = l := by
    intro l
    induction l with
    | nil => exact fun _ => rfl
    | cons i l ih =>
      intro all
      rw [List.map_cons, List.filterMap_cons_some (readIssue_issueText (all i List.mem_cons_self)),
        ih fun j found => all j (List.mem_cons_of_mem i found)]
  rw [validationIssues, splitIssues_issues issue rest all]
  exact read (issue :: rest) all

theorem issuesText_ne {issues : List (Text × Text)} (some : issues ≠ []) : issuesText issues ≠ [] := by
  obtain ⟨issue, rest, rfl⟩ := List.exists_cons_of_ne_nil some
  cases rest with
  | nil => exact List.cons_ne_nil _ _
  | cons next rest =>
    rw [issuesText_cons]
    exact List.cons_ne_nil _ _

/-- A refused validation whose message has the issues as `[path] message`, with `; ` between, is answered with these issues, each
with its path and its message. -/
theorem issues_answered (store : Option Text) {response : Response} {issues : List (Text × Text)}
    (from400 : 400 ≤ response.status) (below : response.status < 500)
    (code : stringField (objectOf (bodyText response)) (text "code") = some (text "VALIDATION_ERROR"))
    (message : stringField (objectOf (bodyText response)) (text "message") = some (issuesText issues))
    (free : (objectOf (bodyText response)).lookup (text "error") = none) (nonempty : issues ≠ [])
      (all : ∀ issue ∈ issues, IsIssue issue) :
    (objectOf (bodyText (withErrorEnvelope store (some response)).2)).lookup (text "error") =
      some (wrap store (text "VALIDATION_FAILED") (text "Validation failed") (issues.map issueJson)) := by
  have machine : envelopeCode response.status (objectOf (bodyText response)) = text "VALIDATION_ERROR" := by
    rw [envelopeCode, topCode, code]
    rfl
  have said : messageOf (objectOf (bodyText response)) = issuesText issues := by
    rw [messageOf, topMessage, message, Option.filter_some, if_pos (decide_eq_true (issuesText_ne nonempty)), Option.getD_some]
  have answer := answer_refused store (some response) from400 below
  rw [responseOf, Option.getD_some, free, if_neg (by decide)] at answer
  rw [answer, bodyText_enveloped, objectOf_stringify (extended_ordered (objectOf_ordered _) _ _ _), lookup_normalFields, extended_error,
    Option.map_some, envelope_normal (envelope_isEnvelope store _ _), envelope, if_pos machine, said,
      validationIssues_issuesText nonempty all]

theorem whole_of_tails {t : Text} (plain : ∀ s ∈ t.tails, s.head? = some (unit ';') → opensIssue s.tail = false) : Whole t := by
  rintro before rest rfl
  exact plain (unit ';' :: rest) ((List.mem_tails _ _).mpr (List.suffix_append _ _)) rfl

/-- Two issues of a request's body, one with a `;` of its own. -/
theorem issues_answered_two :
    (objectOf (bodyText (withErrorEnvelope none (some (enveloped ⟨400, [], none⟩ [(text "code", .str (text "VALIDATION_ERROR")),
      (text "message", .str (text "[body.email] Invalid email address; [body.password] Too short; 8 at least"))]))).2)).lookup
        (text "error") =
      some (wrap none (text "VALIDATION_FAILED") (text "Validation failed")
        ([(text "body.email", text "Invalid email address"), (text "body.password", text "Too short; 8 at least")].map issueJson)) := by
  have read : objectOf (bodyText (enveloped ⟨400, [], none⟩ [(text "code", .str (text "VALIDATION_ERROR")),
      (text "message", .str (text "[body.email] Invalid email address; [body.password] Too short; 8 at least"))])) =
      [(text "code", .str (text "VALIDATION_ERROR")),
        (text "message", .str (text "[body.email] Invalid email address; [body.password] Too short; 8 at least"))] := by
    rw [bodyText_enveloped, objectOf_stringify (ordered_names [text "code", text "message"] rfl (by decide) rfl)]
    rfl
  refine @issues_answered none (enveloped ⟨400, [], none⟩ _) _ (by decide) (by decide) ?_ ?_ ?_ (List.cons_ne_nil _ _) ?_
  · rw [read]
    rfl
  · rw [read]
    rfl
  · rw [read]
    rfl
  · intro issue found
    cases found with
    | head => exact ⟨by decide, by decide, by decide, by decide, whole_of_tails (by decide +kernel)⟩
    | tail _ found =>
      cases found with
      | head => exact ⟨by decide, by decide, by decide, by decide, whole_of_tails (by decide +kernel)⟩
      | tail _ found => cases found

end ErrorEnvelope
