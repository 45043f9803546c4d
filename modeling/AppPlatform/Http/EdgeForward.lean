import AppPlatform.Http.EdgeAgreement
import AppPlatform.Lib.Headers

/-!
# What the edge forwards

The request the worker sends carries the visitor's allow-listed headers and the signed trio, and
nothing else of the visitor's. `edgeForwardRequest_congr` is the two-run form: the other headers
have no effect.
-/

namespace Edge

open Js Fetch

def isEdgeName (name : Text) : Bool := edgeHeaderPrefix.isPrefixOf (toLowerCase name)

def stripEdgeHeaders (headers : Headers) : Headers :=
  headers.keys.foldl (fun headers name => if isEdgeName name then headers.delete name else headers) headers

/-- What `applyEdgeClientIp` signs, with an address that may be missing. -/
structure EdgeApplyInput where
  secret : Text
  ip : Option Text
  method : Text
  path : Text
  now : Option Number

def EdgeApplyInput.signInput (input : EdgeApplyInput) (ip : Text) : EdgeSignInput :=
  ⟨input.secret, ip, input.method, input.path, input.now⟩

def EdgeHeaders.trio (signed : EdgeHeaders) : List (Text × Text) :=
  [(edgeIpHeader, signed.ip), (edgeTsHeader, signed.ts), (edgeSigHeader, signed.sig)]

def applyEdgeClientIp (hmac : Bytes → Bytes → Bytes) (clock : Number) (headers : Headers) (input : EdgeApplyInput) :
    Except Text (Headers × Bool) :=
  let headers := stripEdgeHeaders headers
  match input.ip with
  | none => .ok (headers, false)
  | some ip =>
    if ip = [] ∨ isEdgeIpText ip = false then .ok (headers, false)
    else (signEdgeClientIp hmac clock (input.signInput ip)).map fun signed =>
      (signed.trio.foldl (fun headers e => headers.set e.1 e.2) headers, true)

def edgeForwardHeaders : List Text :=
  [text "accept", text "accept-language", text "authorization", text "content-type", text "cookie",
    text "idempotency-key", text "if-match", text "if-modified-since", text "if-none-match", text "if-unmodified-since",
    text "origin", text "range", text "referer", text "traceparent", text "tracestate", text "user-agent",
    text "x-correlation-id", text "x-requested-with"]

def cfConnectingIp : Text := text "cf-connecting-ip"

structure EdgeForwardOptions where
  secret : Text
  /-- The target as text. -/
  target : Text
  /-- `none` when left out, `some none` for `null`. -/
  ip : Option (Option Text)
  /-- Empty when left out. -/
  forwardHeaders : List Text
  now : Option Number

structure Url where
  href : Text
  pathname : Text

structure Request (β : Type) where
  method : Text
  headers : Headers
  body : Option β

/-- The request that is sent; `redirect` is always `manual`. -/
structure UpstreamRequest (β : Type) where
  target : Url
  method : Text
  headers : Headers
  redirect : Text
  body : Option β

def EdgeForwardOptions.allowed (options : EdgeForwardOptions) : List Text :=
  (edgeForwardHeaders ++ options.forwardHeaders).map toLowerCase

def EdgeForwardOptions.passes (options : EdgeForwardOptions) (name : Text) : Bool :=
  options.allowed.contains (toLowerCase name) && !isEdgeName name

variable {β : Type}

def forwarded (options : EdgeForwardOptions) (inbound : Headers) : Headers :=
  inbound.entries.foldl (fun headers e => if options.passes e.1 then headers.append e.1 e.2 else headers) []

def visitorIp (options : EdgeForwardOptions) (request : Request β) : Option Text :=
  options.ip.getD (request.headers.get cfConnectingIp)

def hasBody (request : Request β) : Bool :=
  request.method ≠ text "GET" && request.method ≠ text "HEAD" && request.body.isSome

def forwardInput (options : EdgeForwardOptions) (request : Request β) (target : Url) : EdgeApplyInput :=
  ⟨options.secret, visitorIp options request, request.method, target.pathname, options.now⟩

/-- `new URL` is the platform's. -/
def edgeForwardRequest (hmac : Bytes → Bytes → Bytes) (newURL : Text → Except Text Url) (clock : Number)
    (request : Request β) (options : EdgeForwardOptions) : Except Text (UpstreamRequest β) := do
  let target ← newURL options.target
  let (headers, _) ← applyEdgeClientIp hmac clock (forwarded options request.headers) (forwardInput options request target)
  return ⟨target, request.method, headers, text "manual", if hasBody request then request.body else none⟩

theorem isEdgeName_lower (name : Text) : isEdgeName (toLowerCase name) = isEdgeName name := by
  unfold isEdgeName
  rw [toLowerCase_toLowerCase]

theorem mem_strip {names : List Text} {headers : Headers} {e : Text × Text}
    (member : e ∈ names.foldl (fun headers name => if isEdgeName name then headers.delete name else headers) headers) :
    e ∈ headers ∧ ∀ name ∈ names, isEdgeName name = true → toLowerCase e.1 ≠ toLowerCase name := by
  induction names generalizing headers with
  | nil => exact ⟨member, by simp⟩
  | cons name names ih =>
    obtain ⟨kept, others⟩ := ih member
    dsimp only at kept
    split at kept
    · obtain ⟨before, other⟩ := Headers.mem_delete.mp kept
      exact ⟨before, List.forall_mem_cons.mpr ⟨fun _ => other, others⟩⟩
    · rename_i plain
      exact ⟨kept, List.forall_mem_cons.mpr ⟨fun edge => (plain edge).elim, others⟩⟩

/-- No header under the edge's prefix survives, whatever its case. -/
theorem mem_stripEdgeHeaders {headers : Headers} {e : Text × Text} (member : e ∈ stripEdgeHeaders headers) :
    e ∈ headers ∧ isEdgeName e.1 = false := by
  obtain ⟨before, others⟩ := mem_strip member
  refine ⟨before, Bool.eq_false_iff.mpr fun edge => ?_⟩
  have listed := others _ (Headers.mem_keys before) (by rwa [isEdgeName_lower])
  exact listed (toLowerCase_toLowerCase e.1).symm

theorem mem_sets {l : List (Text × Text)} {headers : Headers} {e : Text × Text}
    (member : e ∈ l.foldl (fun headers f => headers.set f.1 f.2) headers) :
    e ∈ headers ∨ ∃ f ∈ l, toLowerCase e.1 = toLowerCase f.1 ∧ e.2 = f.2 := by
  induction l generalizing headers with
  | nil => exact .inl member
  | cons f l ih =>
    rcases ih member with kept | ⟨g, listed, same⟩
    · rcases Headers.mem_set kept with ⟨before, -⟩ | same
      · exact .inl before
      · exact .inr ⟨f, List.mem_cons_self, same⟩
    · exact .inr ⟨g, List.mem_cons_of_mem f listed, same⟩

/-- The header is one of the trio that signing this address gave. -/
def SignedBy (hmac : Bytes → Bytes → Bytes) (clock : Number) (input : EdgeApplyInput) (e : Text × Text) : Prop :=
  ∃ ip signed, input.ip = some ip ∧ signEdgeClientIp hmac clock (input.signInput ip) = .ok signed ∧
    ∃ f ∈ signed.trio, toLowerCase e.1 = toLowerCase f.1 ∧ e.2 = f.2

theorem mem_applyEdgeClientIp {hmac : Bytes → Bytes → Bytes} {clock : Number} {headers result : Headers}
    {input : EdgeApplyInput} {wasSigned : Bool} {e : Text × Text}
    (applied : applyEdgeClientIp hmac clock headers input = .ok (result, wasSigned)) (member : e ∈ result) :
    (e ∈ headers ∧ isEdgeName e.1 = false) ∨ SignedBy hmac clock input e := by
  unfold applyEdgeClientIp at applied
  dsimp only at applied
  split at applied
  · cases applied
    exact .inl (mem_stripEdgeHeaders member)
  rename_i ip given
  split at applied
  · cases applied
    exact .inl (mem_stripEdgeHeaders member)
  cases signing : signEdgeClientIp hmac clock (input.signInput ip) with
  | error e => rw [signing] at applied; cases applied
  | ok signed =>
    rw [signing] at applied
    cases applied
    exact (mem_sets member).imp mem_stripEdgeHeaders fun found => ⟨ip, signed, given, signing, found⟩

/-! ### The forwarding loop -/

theorem foldl_append (p : Text → Bool) (l acc : List (Text × Text)) :
    l.foldl (fun headers e => if p e.1 then Headers.append headers e.1 e.2 else headers) acc =
      acc ++ l.filter fun e => p e.1 := by
  induction l generalizing acc with
  | nil => simp
  | cons e l ih =>
    rw [List.foldl_cons, ih, List.filter_cons]
    split
    · rw [Headers.append, List.append_assoc]
      rfl
    · rfl

theorem forwarded_eq (options : EdgeForwardOptions) (inbound : Headers) :
    forwarded options inbound = inbound.entries.filter fun e => options.passes e.1 := by
  rw [forwarded, foldl_append, List.nil_append]

theorem passes_iff {options : EdgeForwardOptions} {name : Text} :
    options.passes name = true ↔ toLowerCase name ∈ options.allowed ∧ isEdgeName name = false := by
  rw [EdgeForwardOptions.passes, Bool.and_eq_true, List.contains_iff_mem, Bool.not_eq_true']

variable {hmac : Bytes → Bytes → Bytes} {newURL : Text → Except Text Url} {clock : Number}

theorem edgeForwardRequest_ok {request : Request β} {options : EdgeForwardOptions} {upstream : UpstreamRequest β}
    (built : edgeForwardRequest hmac newURL clock request options = .ok upstream) :
    ∃ target wasSigned, newURL options.target = .ok target ∧
      applyEdgeClientIp hmac clock (forwarded options request.headers) (forwardInput options request target) =
        .ok (upstream.headers, wasSigned) := by
  unfold edgeForwardRequest at built
  cases parsed : newURL options.target with
  | error e => rw [parsed] at built; cases built
  | ok target =>
    rw [parsed] at built
    change (applyEdgeClientIp hmac clock (forwarded options request.headers) (forwardInput options request target) >>= _) =
      _ at built
    cases applied : applyEdgeClientIp hmac clock (forwarded options request.headers) (forwardInput options request target) with
    | error e => rw [applied] at built; cases built
    | ok result =>
      rw [applied] at built
      cases built
      exact ⟨target, result.2, rfl, applied⟩

theorem mem_edgeForwardRequest {request : Request β} {options : EdgeForwardOptions} {upstream : UpstreamRequest β}
    (built : edgeForwardRequest hmac newURL clock request options = .ok upstream) {e : Text × Text}
    (member : e ∈ upstream.headers) :
    (e ∈ request.headers.entries ∧ toLowerCase e.1 ∈ options.allowed ∧ isEdgeName e.1 = false) ∨
      ∃ target, newURL options.target = .ok target ∧ SignedBy hmac clock (forwardInput options request target) e := by
  obtain ⟨target, wasSigned, parsed, applied⟩ := edgeForwardRequest_ok built
  rcases mem_applyEdgeClientIp applied member with ⟨inbound, plain⟩ | signed
  · rw [forwarded_eq, List.mem_filter] at inbound
    exact .inl ⟨inbound.1, (passes_iff.mp inbound.2).1, plain⟩
  · exact .inr ⟨target, parsed, signed⟩

/-- Headers that are neither allow-listed nor the visitor's address have no effect. -/
theorem edgeForwardRequest_congr {request other : Request β} {options : EdgeForwardOptions}
    (method : request.method = other.method) (body : request.body = other.body)
    (same : ∀ name, toLowerCase name ∈ options.allowed ∨ toLowerCase name = cfConnectingIp →
      request.headers.values name = other.headers.values name) :
    edgeForwardRequest hmac newURL clock request options = edgeForwardRequest hmac newURL clock other options := by
  have headers : forwarded options request.headers = forwarded options other.headers := by
    rw [forwarded_eq, forwarded_eq]
    exact Headers.entries_filter_congr fun name passes => same name (.inl (passes_iff.mp passes).1)
  have address : visitorIp options request = visitorIp options other := by
    unfold visitorIp
    rw [Headers.get_congr (same cfConnectingIp (.inr (by decide)))]
  have input : forwardInput options request = forwardInput options other := by
    funext target
    rw [forwardInput, address, method, forwardInput]
  unfold edgeForwardRequest hasBody
  rw [headers, input, method, body]

theorem edgeForwardRequest_signed {request : Request β} {options : EdgeForwardOptions} {target : Url} {ip : Text}
    {signed : EdgeHeaders} (parsed : newURL options.target = .ok target) (given : visitorIp options request = some ip)
    (shaped : isEdgeIpText ip = true)
    (signing : signEdgeClientIp hmac clock ((forwardInput options request target).signInput ip) = .ok signed) :
    edgeForwardRequest hmac newURL clock request options =
      .ok ⟨target, request.method,
        signed.trio.foldl (fun headers e => headers.set e.1 e.2) (stripEdgeHeaders (forwarded options request.headers)),
        text "manual", if hasBody request then request.body else none⟩ := by
  have nonempty : ip ≠ [] := by
    rintro rfl
    cases shaped
  have applied : applyEdgeClientIp hmac clock (forwarded options request.headers) (forwardInput options request target) =
      .ok (signed.trio.foldl (fun headers e => headers.set e.1 e.2)
        (stripEdgeHeaders (forwarded options request.headers)), true) := by
    unfold applyEdgeClientIp
    rw [show (forwardInput options request target).ip = some ip from given]
    dsimp only
    rw [if_neg (by simp [nonempty, shaped]), signing]
    rfl
  unfold edgeForwardRequest
  rw [parsed]
  change (applyEdgeClientIp hmac clock (forwarded options request.headers) (forwardInput options request target) >>= _) = _
  rw [applied]
  rfl

/-- Nothing of the visitor's is forwarded but the allow-list. -/
theorem forwards_only_the_allow_list (hmac : Bytes → Bytes → Bytes) (newURL : Text → Except Text Url) (clock : Number)
    (options : EdgeForwardOptions) :
    (∀ (request : Request β) upstream, edgeForwardRequest hmac newURL clock request options = .ok upstream →
      (∀ e ∈ upstream.headers, (e ∈ request.headers.entries ∧ toLowerCase e.1 ∈ options.allowed) ∨
        ∃ target, newURL options.target = .ok target ∧ SignedBy hmac clock (forwardInput options request target) e) ∧
      (∀ e ∈ upstream.headers, isEdgeName e.1 = true →
        ∃ target, newURL options.target = .ok target ∧ SignedBy hmac clock (forwardInput options request target) e)) ∧
    (∀ request other : Request β, request.method = other.method → request.body = other.body →
      (∀ name, toLowerCase name ∈ options.allowed ∨ toLowerCase name = cfConnectingIp →
        request.headers.values name = other.headers.values name) →
      edgeForwardRequest hmac newURL clock request options = edgeForwardRequest hmac newURL clock other options) := by
  refine ⟨fun request upstream built => ⟨fun e member => ?_, fun e member edge => ?_⟩,
    fun request other method body same => edgeForwardRequest_congr method body same⟩
  · exact (mem_edgeForwardRequest built member).imp_left fun inbound => ⟨inbound.1, inbound.2.1⟩
  · rcases mem_edgeForwardRequest built member with ⟨-, -, plain⟩ | signed
    · rw [plain] at edge
      cases edge
    · exact signed

namespace Sample

/-- A visitor who sends an edge header of their own and a chosen `x-forwarded-for`. -/
def visit (forwardedFor : String) : Request Unit where
  method := text "POST"
  headers := [(text "CF-Connecting-IP", ip), (text "X-Qnsc-Edge-IP", text "6.6.6.6"), (text "Cookie", text "a=1"),
    (text "X-Forwarded-For", text forwardedFor), (text "X-Csrf", text "t")]
  body := some ()

def forwardOptions : EdgeForwardOptions :=
  ⟨secret ++ [unit '\n'], text "https://api/v1/things", none, [text "X-CSRF", text "x-qnsc-edge-ip"],
    some (Number.ofNat (1000 * 1760000000))⟩

theorem visit_values {name : Text} (other : toLowerCase name ≠ text "x-forwarded-for") (s t : String) :
    (visit s).headers.values name = (visit t).headers.values name := by
  have lower : toLowerCase (text "X-Forwarded-For") = text "x-forwarded-for" := by decide
  have left : ∀ value, Headers.named name (text "X-Forwarded-For", value) = false := by
    intro value
    rw [Bool.eq_false_iff, ne_eq, Headers.named_iff, lower]
    exact other.symm
  simp only [Headers.values, visit, List.filter_cons, left, Bool.false_eq_true, if_false]

def parseTarget (t : Text) : Except Text Url := .ok ⟨t, text "/v1/things"⟩

end Sample

open Sample in
theorem forwards_only_the_allow_list_once :
    ∃ upstream, edgeForwardRequest (hmacOf 1760000000 (text "POST") (text "/v1/things") tag) parseTarget .nan
        (visit "1.2.3.4") forwardOptions = .ok upstream ∧
      (∀ e ∈ upstream.headers, isEdgeName e.1 = true → ∃ target, parseTarget forwardOptions.target = .ok target ∧
        SignedBy (hmacOf 1760000000 (text "POST") (text "/v1/things") tag) .nan
          (forwardInput forwardOptions (visit "1.2.3.4") target) e) ∧
      edgeForwardRequest (hmacOf 1760000000 (text "POST") (text "/v1/things") tag) parseTarget .nan
        (visit "5.6.7.8") forwardOptions = .ok upstream := by
  have letters : edgeMethod (text "POST") = some (text "POST") := by decide
  obtain ⟨confined, unseen⟩ := forwards_only_the_allow_list
    (hmacOf 1760000000 (text "POST") (text "/v1/things") tag) parseTarget .nan forwardOptions
  have parsed : parseTarget forwardOptions.target = .ok ⟨forwardOptions.target, text "/v1/things"⟩ := rfl
  have given : visitorIp forwardOptions (visit "1.2.3.4") = some ip := by decide +kernel
  have small : 1000 * 1760000000 < 2 ^ 53 := by norm_num
  have built := edgeForwardRequest_signed parsed given shaped (signed (text "/v1/things") small .nan letters tag)
  have alike := unseen (visit "5.6.7.8") (visit "1.2.3.4") rfl rfl
  refine ⟨_, built, (confined _ _ built).2, (alike ?_).trans built⟩
  intro name listed
  apply visit_values
  intro same
  rw [same] at listed
  exact absurd listed (by decide +kernel)

end Edge
