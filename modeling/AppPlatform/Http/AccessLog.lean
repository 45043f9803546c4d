import AppPlatform.Http.ClientIp
import AppPlatform.Http.SanitizeObject
import AppPlatform.Lib.Value

/-!
# The access log

One line a request. Values under sensitive keys are masked in the query and in the body, and the URL is logged
as it came, with its query string.
-/

namespace AccessLog
open Js

def REDACTED_BODY_FIELDS : List Text :=
  [text "password", text "confirmPassword", text "currentPassword", text "newPassword", text "token", text "refreshToken",
    text "secret", text "privateKey", text "creditCard"]

def MAX_COLLECTION_ITEMS : ℕ := 20

def MAX_STRING_LENGTH : ℕ := 256

def SENSITIVE_ENDS : List Text :=
  [text "token", text "secret", text "password", text "cookie", text "authorization", text "key"]

/-- A listed field, or `/(token|secret|password|cookie|authorization|key)$/i`. -/
def isSensitiveKey (key : Text) : Bool :=
  REDACTED_BODY_FIELDS.contains key || SENSITIVE_ENDS.any fun word => word.isSuffixOf (key.map Sanitize.foldCase)

def REDACTED : Json := .str (text "[REDACTED]")

def truncate (value : Text) : Text :=
  if MAX_STRING_LENGTH < value.length then value.take MAX_STRING_LENGTH ++ text "...[truncated]" else value

mutual
def sanitizeValue : Json → Json
  | .arr items => .arr (sanitizeItems MAX_COLLECTION_ITEMS items)
  | .obj fields => .obj (sanitizeEntries fields [])
  | .str s => .str (truncate s)
  | .null => .null
  | .bool b => .bool b
  | .num x => .num x

/-- The first items of an array. -/
def sanitizeItems : ℕ → List Json → List Json
  | 0, _ => []
  | _ + 1, [] => []
  | n + 1, item :: items => sanitizeValue item :: sanitizeItems n items

def sanitizeEntries : List (Text × Json) → List (Text × Json) → List (Text × Json)
  | [], sanitized => sanitized
  | (key, value) :: entries, sanitized =>
    sanitizeEntries entries
      (Sanitize.assign sanitized key (if key ≠ [] && isSensitiveKey key then REDACTED else sanitizeValue value))
end

structure Request where
  method : Text
  originalUrl : Option Text
  url : Text
  query : Option Json
  body : Option Json
  headers : Text → Option Edge.HeaderValue
  remoteAddress : Option Text
  ip : Option Text
  /-- `req.user` or `req.session` is set. -/
  authenticated : Bool

def Request.loggedUrl (req : Request) : Text := req.originalUrl.getD req.url

/-- How the handler ended: with a response, or with an error and what its `getStatus` and `getResponse` say, if it has these. -/
inductive Outcome where
  | next (statusCode : ℕ)
  | error (getStatus : Option ℕ) (code : Option Text)

structure HttpLoggingOptions where
  logBodies : Bool
  skipPaths : Option (List Text)

/-- What a line depends on besides the request and the outcome. -/
structure Setting where
  options : HttpLoggingOptions
  contextType : Text
  hmac : Bytes → Bytes → Bytes
  isIP : Text → ℕ
  edge : Option Edge.EdgeConfig
  /-- `Date.now()` where the interceptor starts, in `clientIp` and where it ends. -/
  started : Number
  checked : Number
  finished : Number
  correlationId : Option Text
  /-- The principal in the context that the request came with, and in the current one. -/
  userId : Option Text
  currentUserId : Option Text
  warnedUnauthenticatedWithoutPrincipal : Bool

/-- What `clientIp` reads of the request. -/
def Request.client (req : Request) : ClientIp.ClientIpRequest :=
  ⟨req.headers, req.ip, req.remoteAddress, some req.method, some req.url⟩

def signedEdgeIp (s : Setting) (req : Request) : Except Text (Option Text) :=
  match s.edge with
  | none => .ok none
  | some config =>
    (Edge.verifyEdgeClientIp s.hmac s.isIP req.client.edge config (s.checked.divNat 1000).floor).map ClientIp.accepted

def clientIp (s : Setting) (req : Request) : Except Text Text :=
  (signedEdgeIp s req).map fun signed => signed.getD (ClientIp.unsigned s.isIP req.client)

/-! ### The line -/

def PROBE_PATHS : List Text := [text "/livez", text "/readyz", text "/v1/readyz", text "/healthz", text "/v1/healthz"]

def BROWSER_CHROME_PATHS : List Text := [text "/favicon.ico"]

def IGNORED_REQUEST_PATHS : List Text := PROBE_PATHS ++ BROWSER_CHROME_PATHS

def beforeQuery (url : Text) : Text := url.takeWhile (· ≠ unit '?')

def isIgnoredRequestPath (url : Text) : Bool := url ≠ [] && IGNORED_REQUEST_PATHS.contains (beforeQuery url)

def Setting.skips (s : Setting) (url : Text) : Bool :=
  match s.options.skipPaths with
  | some paths => paths.contains url
  | none => isIgnoredRequestPath url

/-- `Object.keys(v).length` -/
def keyCount : Json → ℕ
  | .obj fields => fields.length
  | .arr items => items.length
  | .str s => s.length
  | .null | .bool _ | .num _ => 0

def isObject : Json → Bool
  | .obj _ | .arr _ => true
  | .null | .bool _ | .num _ | .str _ => false

def extractQuery (req : Request) : Option Json :=
  (req.query.filter fun q => q.truthy && keyCount q ≠ 0).map sanitizeValue

def BODY_METHODS : List Text := [text "POST", text "PUT", text "PATCH"]

def extractBody (options : HttpLoggingOptions) (req : Request) : Option Json :=
  if !options.logBodies then none
  else if !BODY_METHODS.contains req.method then none
  else (req.body.filter isObject).map sanitizeValue

/-- The fields of a line; those that are `none` are left out or undefined. -/
structure Fields where
  msg : Text
  method : Text
  url : Text
  statusCode : ℕ
  duration : Number
  errorCode : Option Text
  userId : Option Text
  correlationId : Option Text
  ip : Text
  query : Option Json
  body : Option Json

inductive Level where
  | log
  | warn
  | error
  deriving DecidableEq

inductive Line where
  | fields (level : Level) (fields : Fields)
  | warning (message : Text)

def levelOf (statusCode : ℕ) : Level := if 500 ≤ statusCode then .error else if 400 ≤ statusCode then .warn else .log

def PRINCIPAL_WARNING : Text :=
  text "A request is authenticated (req.user / req.session is set) but the request context holds no principal: " ++
    text "the rate limit keys this caller by address and the access log has no userId. Call " ++
    text "`setRequestPrincipal(\x7b userId, sessionId \x7d)` from @quynhonsemiconductor/observability in the guard that " ++
    text "authenticates, and register that guard BEFORE RateLimitGuard (see \"Who the user is\" in the platform-http README)."

def warnOnceIfAuthenticatedWithoutPrincipal (s : Setting) (req : Request) : List Line :=
  if s.warnedUnauthenticatedWithoutPrincipal || s.currentUserId.isSome then []
  else if req.authenticated then [.warning PRINCIPAL_WARNING]
  else []

def Setting.duration (s : Setting) : Number := s.finished.minus s.started

/-- `<-- METHOD url status 45ms` -/
def message (s : Setting) (req : Request) (statusCode : ℕ) : Text :=
  text "<-- " ++ req.method ++ text " " ++ req.loggedUrl ++ text " " ++ natText statusCode ++ text " " ++
    numberText s.duration ++ text "ms"

def fieldsOf (s : Setting) (req : Request) (ip : Text) : Outcome → Fields
  | .next statusCode =>
    { msg := message s req statusCode, method := req.method, url := req.loggedUrl, statusCode, duration := s.duration,
      errorCode := none, userId := s.userId, correlationId := s.correlationId, ip, query := extractQuery req, body := none }
  | .error getStatus code =>
    let statusCode := getStatus.getD 500
    let errorCode := code.getD (text "INTERNAL")
    { msg := message s req statusCode ++ text " [" ++ errorCode ++ text "]", method := req.method, url := req.loggedUrl,
      statusCode, duration := s.duration, errorCode := some errorCode, userId := s.userId, correlationId := s.correlationId,
      ip, query := extractQuery req, body := extractBody s.options req }

def lineOf (s : Setting) (req : Request) (ip : Text) (outcome : Outcome) : Line :=
  .fields (levelOf (fieldsOf s req ip outcome).statusCode) (fieldsOf s req ip outcome)

/-- The lines that a request leaves, or what is thrown before the handler is called. -/
def intercept (s : Setting) (req : Request) (outcome : Outcome) : Except Text (List Line) :=
  if s.contextType ≠ text "http" then .ok []
  else if s.skips req.loggedUrl then .ok []
  else (clientIp s req).map fun ip => warnOnceIfAuthenticatedWithoutPrincipal s req ++ [lineOf s req ip outcome]

mutual
/-- The same value, except for what stands under sensitive keys. -/
inductive Alike : Json → Json → Prop where
  | null : Alike .null .null
  | bool (b : Bool) : Alike (.bool b) (.bool b)
  | num (x : Number) : Alike (.num x) (.num x)
  | str (s : Text) : Alike (.str s) (.str s)
  | arr {items items' : List Json} (each : AlikeItems items items') : Alike (.arr items) (.arr items')
  | obj {fields fields' : List (Text × Json)} (each : AlikeFields fields fields') : Alike (.obj fields) (.obj fields')

inductive AlikeItems : List Json → List Json → Prop where
  | nil : AlikeItems [] []
  | cons {v w : Json} {items items' : List Json} (head : Alike v w) (tail : AlikeItems items items') :
    AlikeItems (v :: items) (w :: items')

inductive AlikeFields : List (Text × Json) → List (Text × Json) → Prop where
  | nil : AlikeFields [] []
  | secret {k : Text} (sensitive : isSensitiveKey k = true) (v w : Json) {fields fields' : List (Text × Json)}
    (tail : AlikeFields fields fields') : AlikeFields ((k, v) :: fields) ((k, w) :: fields')
  | cons (k : Text) {v w : Json} {fields fields' : List (Text × Json)} (head : Alike v w) (tail : AlikeFields fields fields') :
    AlikeFields ((k, v) :: fields) ((k, w) :: fields')
end

/-- Two requests that differ in values under sensitive keys, and in the query string that such values come from. -/
structure Request.Alike (req req' : Request) : Prop where
  method : req.method = req'.method
  originalUrl : req.originalUrl.map beforeQuery = req'.originalUrl.map beforeQuery
  url : beforeQuery req.url = beforeQuery req'.url
  query : Option.Rel AccessLog.Alike req.query req'.query
  body : Option.Rel AccessLog.Alike req.body req'.body
  headers : req.headers = req'.headers
  remoteAddress : req.remoteAddress = req'.remoteAddress
  ip : req.ip = req'.ip
  authenticated : req.authenticated = req'.authenticated

def Setting.Silent (s : Setting) (req : Request) : Prop := s.contextType ≠ text "http" ∨ s.skips req.loggedUrl = true

/-! ### What masking leaves -/

theorem sensitive_key_ne_nil {k : Text} (sensitive : isSensitiveKey k = true) : k ≠ [] := by
  rintro rfl
  exact absurd sensitive (by decide)

mutual
theorem sanitizeValue_alike : ∀ {v w : Json}, Alike v w → sanitizeValue v = sanitizeValue w
  | _, _, .null => rfl
  | _, _, .bool _ => rfl
  | _, _, .num _ => rfl
  | _, _, .str _ => rfl
  | _, _, .arr each => by rw [sanitizeValue, sanitizeValue, sanitizeItems_alike each]
  | _, _, .obj each => by rw [sanitizeValue, sanitizeValue, sanitizeEntries_alike each]

theorem sanitizeItems_alike : ∀ {items items' : List Json}, AlikeItems items items' → ∀ {n : ℕ},
    sanitizeItems n items = sanitizeItems n items'
  | _, _, .nil, _ => rfl
  | _, _, .cons _ _, 0 => by rw [sanitizeItems, sanitizeItems]
  | _, _, .cons head tail, n + 1 => by
    rw [sanitizeItems, sanitizeItems, sanitizeValue_alike head, sanitizeItems_alike tail]

theorem sanitizeEntries_alike : ∀ {fields fields' : List (Text × Json)}, AlikeFields fields fields' →
    ∀ {sanitized : List (Text × Json)}, sanitizeEntries fields sanitized = sanitizeEntries fields' sanitized
  | _, _, .nil, _ => rfl
  | _, _, .secret sensitive v w tail, _ => by
    have masked : ∀ k' : Text, isSensitiveKey k' = true → (decide (k' ≠ []) && isSensitiveKey k') = true := by
      intro k' sensitive'
      rw [sensitive', Bool.and_true, decide_eq_true_eq]
      exact sensitive_key_ne_nil sensitive'
    rw [sanitizeEntries, sanitizeEntries, if_pos (masked _ sensitive), if_pos (masked _ sensitive), sanitizeEntries_alike tail]
  | _, _, .cons k head tail, _ => by
    rw [sanitizeEntries, sanitizeEntries, sanitizeValue_alike head, sanitizeEntries_alike tail]
end

theorem Alike.truthy {v w : Json} (alike : Alike v w) : v.truthy = w.truthy := by
  cases alike <;> rfl

theorem Alike.isObject {v w : Json} (alike : Alike v w) : AccessLog.isObject v = AccessLog.isObject w := by
  cases alike <;> rfl

theorem AlikeItems.length {items items' : List Json} (each : AlikeItems items items') : items.length = items'.length := by
  induction items generalizing items' with
  | nil =>
    cases each
    rfl
  | cons v items ih =>
    cases each with
    | cons _ tail => rw [List.length_cons, List.length_cons, ih tail]

theorem AlikeFields.length {fields fields' : List (Text × Json)} (each : AlikeFields fields fields') :
    fields.length = fields'.length := by
  induction fields generalizing fields' with
  | nil =>
    cases each
    rfl
  | cons entry fields ih =>
    cases each with
    | secret _ _ _ tail => rw [List.length_cons, List.length_cons, ih tail]
    | cons _ _ tail => rw [List.length_cons, List.length_cons, ih tail]

theorem Alike.keyCount {v w : Json} (alike : Alike v w) : AccessLog.keyCount v = AccessLog.keyCount w := by
  cases alike with
  | arr each => exact each.length
  | obj each => exact each.length
  | _ => rfl

theorem masked_alike {p : Json → Bool} (respects : ∀ {v w : Json}, Alike v w → p v = p w) {v w : Option Json}
    (alike : Option.Rel Alike v w) : (v.filter p).map sanitizeValue = (w.filter p).map sanitizeValue := by
  cases alike with
  | none => rfl
  | some alike =>
    rw [Option.filter_some, Option.filter_some, respects alike]
    split
    · rw [Option.map_some, Option.map_some, sanitizeValue_alike alike]
    · rfl

variable {s : Setting} {req req' : Request} {outcome : Outcome}

theorem extractQuery_alike (alike : req.Alike req') : extractQuery req = extractQuery req' :=
  masked_alike (fun alike => by rw [alike.truthy, alike.keyCount]) alike.query

theorem extractBody_alike (alike : req.Alike req') : extractBody s.options req = extractBody s.options req' := by
  rw [extractBody, extractBody, alike.method, masked_alike (fun alike => alike.isObject) alike.body]

theorem edgePath_beforeQuery (url : Text) : Edge.edgePath (beforeQuery url) = Edge.edgePath url := by
  have path : (beforeQuery url).takeWhile (fun u => !Edge.endsPath u) = url.takeWhile (fun u => !Edge.endsPath u) := by
    rw [beforeQuery, List.takeWhile_takeWhile]
    congr 1
    funext u
    simp only [Edge.endsPath]
    by_cases query : u = unit '?'
    · simp [query]
    · simp [query]
  rw [Edge.edgePath, Edge.edgePath, path]

theorem verifyEdgeClientIp_path {hmac : Bytes → Bytes → Bytes} {isIP : Text → ℕ} {headers : Text → Option Edge.HeaderValue}
    {method : Option Text} {url url' : Text} (same : Edge.edgePath url = Edge.edgePath url') (config : Edge.EdgeConfig) (now : Number) :
    Edge.verifyEdgeClientIp hmac isIP ⟨headers, method, some url⟩ config now =
      Edge.verifyEdgeClientIp hmac isIP ⟨headers, method, some url'⟩ config now := by
  have shaped : ∀ ip ts sig method, Edge.verifyShaped hmac isIP config now ip ts sig method url =
      Edge.verifyShaped hmac isIP config now ip ts sig method url' := by
    intro ip ts sig method
    rw [Edge.verifyShaped, Edge.verifyShaped, same]
  unfold Edge.verifyEdgeClientIp
  dsimp only
  split
  · rfl
  · cases method with
    | none => rfl
    | some method =>
      dsimp only
      rw [shaped]
  · rfl

theorem clientIp_alike (alike : req.Alike req') : clientIp s req = clientIp s req' := by
  have path : Edge.edgePath req.url = Edge.edgePath req'.url := by
    rw [← edgePath_beforeQuery, alike.url, edgePath_beforeQuery]
  have signed : signedEdgeIp s req = signedEdgeIp s req' := by
    rw [signedEdgeIp, signedEdgeIp]
    cases s.edge with
    | none => rfl
    | some config =>
      dsimp only [Request.client, ClientIp.ClientIpRequest.edge]
      rw [alike.headers, alike.method, verifyEdgeClientIp_path path]
  have unsigned : ClientIp.unsigned s.isIP req.client = ClientIp.unsigned s.isIP req'.client := by
    dsimp only [ClientIp.unsigned, ClientIp.firstHeader, Request.client]
    rw [alike.headers, alike.remoteAddress, alike.ip]
  rw [clientIp, clientIp, signed, unsigned]

theorem clientIp_ok (s : Setting) (req : Request) : ∃ ip, clientIp s req = .ok ip := by
  have signed : ∃ found, signedEdgeIp s req = .ok found := by
    rw [signedEdgeIp]
    cases s.edge with
    | none => exact ⟨none, rfl⟩
    | some config =>
      obtain ⟨verdict, verified⟩ := Edge.verifyEdgeClientIp_total req.client.edge config (s.checked.divNat 1000).floor
      exact ⟨ClientIp.accepted verdict, congrArg (Except.map ClientIp.accepted) verified⟩
  obtain ⟨found, signed⟩ := signed
  rw [clientIp, signed]
  exact ⟨_, rfl⟩

/-! ### Lines -/

theorem intercept_silent (silent : s.Silent req) : intercept s req outcome = .ok [] := by
  rw [intercept]
  rcases silent with other | skipped
  · rw [if_pos other]
  · rw [if_pos skipped, ite_self]

theorem intercept_logs (outcome : Outcome) (logged : ¬s.Silent req) : ∃ ip, clientIp s req = .ok ip ∧
    intercept s req outcome = .ok (warnOnceIfAuthenticatedWithoutPrincipal s req ++ [lineOf s req ip outcome]) := by
  obtain ⟨http, kept⟩ := not_or.mp logged
  obtain ⟨ip, found⟩ := clientIp_ok s req
  refine ⟨ip, found, ?_⟩
  rw [intercept, if_neg http, if_neg kept, found]
  rfl

theorem fieldsOf_alike (alike : req.Alike req') (same : req.loggedUrl = req'.loggedUrl) (ip : Text) :
    fieldsOf s req ip outcome = fieldsOf s req' ip outcome := by
  have msg : ∀ statusCode, message s req statusCode = message s req' statusCode := by
    intro statusCode
    rw [message, message, alike.method, same]
  cases outcome with
  | next statusCode => rw [fieldsOf, fieldsOf, msg, alike.method, same, extractQuery_alike alike]
  | error getStatus code => simp only [fieldsOf, msg, alike.method, same, extractQuery_alike alike, extractBody_alike alike]

theorem fieldsOf_url (ip : Text) : (fieldsOf s req ip outcome).url = req.loggedUrl := by
  cases outcome <;> rfl

/-- Two requests whose lines are equal have the same URL in them, whatever else they are. -/
theorem loggedUrl_of_same (logged : ¬s.Silent req) (same : intercept s req outcome = intercept s req' outcome) :
    ¬s.Silent req' ∧ req.loggedUrl = req'.loggedUrl := by
  obtain ⟨ip, -, lines⟩ := intercept_logs outcome logged
  by_cases silent' : s.Silent req'
  · rw [intercept_silent silent', lines] at same
    exact absurd (Except.ok.inj same) (List.append_ne_nil_of_right_ne_nil _ (List.cons_ne_nil _ _))
  · obtain ⟨ip', -, lines'⟩ := intercept_logs outcome silent'
    rw [lines, lines'] at same
    have line := (List.append_singleton_inj.mp (Except.ok.inj same)).2
    have fields : fieldsOf s req ip outcome = fieldsOf s req' ip' outcome := (Line.fields.inj line).2
    refine ⟨silent', ?_⟩
    rw [← fieldsOf_url ip, fields, fieldsOf_url]

/-- Requests that differ in secrets leave equal lines exactly when their URLs as logged are equal, or neither leaves any. -/
theorem accessLog_iff (s : Setting) (outcome : Outcome) (alike : req.Alike req') :
    intercept s req outcome = intercept s req' outcome ↔
      (s.Silent req ∧ s.Silent req') ∨ req.loggedUrl = req'.loggedUrl := by
  have warnings : warnOnceIfAuthenticatedWithoutPrincipal s req = warnOnceIfAuthenticatedWithoutPrincipal s req' := by
    rw [warnOnceIfAuthenticatedWithoutPrincipal, warnOnceIfAuthenticatedWithoutPrincipal, alike.authenticated]
  constructor
  · intro same
    by_cases silent : s.Silent req
    · by_cases silent' : s.Silent req'
      · exact .inl ⟨silent, silent'⟩
      · exact .inr (loggedUrl_of_same silent' same.symm).2.symm
    · exact .inr (loggedUrl_of_same silent same).2
  · rintro (⟨silent, silent'⟩ | same)
    · rw [intercept_silent silent, intercept_silent silent']
    · have lines : ∀ ip, lineOf s req ip outcome = lineOf s req' ip outcome := by
        intro ip
        rw [lineOf, lineOf, fieldsOf_alike alike same]
      simp only [intercept, same, clientIp_alike alike, warnings, lines]

/-- `POST /login` with the body that is given. -/
def login (password : String) : Request where
  method := text "POST"
  originalUrl := none
  url := text "/login"
  query := none
  body := some (.obj [(text "password", .str (text password))])
  headers _ := none
  remoteAddress := none
  ip := none
  authenticated := false

/-- `GET /reset?token=..` -/
def reset (token : String) : Request where
  method := text "GET"
  originalUrl := none
  url := text "/reset?token=" ++ text token
  query := some (.obj [(text "token", .str (text token))])
  body := none
  headers _ := none
  remoteAddress := none
  ip := none
  authenticated := false

def bodiesLogged : Setting where
  options := ⟨true, none⟩
  contextType := text "http"
  hmac _ _ := []
  isIP _ := 0
  edge := none
  started := .ofNat 0
  checked := .ofNat 0
  finished := .ofNat 0
  correlationId := none
  userId := none
  currentUserId := none
  warnedUnauthenticatedWithoutPrincipal := false

theorem accessLog_login :
    intercept bodiesLogged (login "a") (.error (some 401) none) = intercept bodiesLogged (login "b") (.error (some 401) none) := by
  have alike : (login "a").Alike (login "b") :=
    ⟨rfl, rfl, rfl, .none, .some (.obj (.secret (by decide) _ _ .nil)), rfl, rfl, rfl, rfl⟩
  exact (accessLog_iff bodiesLogged (.error (some 401) none) alike).mpr (.inr rfl)

theorem token_logged : ¬∀ (s : Setting) (req req' : Request) (outcome : Outcome), req.Alike req' →
    intercept s req outcome = intercept s req' outcome := by
  intro every
  have alike : (reset "a").Alike (reset "b") :=
    ⟨rfl, rfl, by decide, .some (.obj (.secret (by decide) _ _ .nil)), .none, rfl, rfl, rfl, rfl⟩
  have logged : ¬bodiesLogged.Silent (reset "a") := by
    rintro (other | skipped)
    · exact other rfl
    · exact absurd skipped (by decide)
  have same := (loggedUrl_of_same logged (every _ _ _ (.next 200) alike)).2
  exact absurd same (by decide)

end AccessLog
