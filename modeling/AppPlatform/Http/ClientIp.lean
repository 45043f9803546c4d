import AppPlatform.Http.EdgeAgreement

/-!
# The client's address

`clientIp`, which remembers its answer for each request, and the state that it keeps in a process: the edge configuration by the text
it was read from, and the refused signatures that are counted and reported.
-/

namespace ClientIp
open Js Edge

def WARN_EVERY_MS : ℤ := 60000

def reasonText : EdgeRejection → Text
  | .incomplete => text "incomplete"
  | .malformed => text "malformed"
  | .unverifiable => text "unverifiable"
  | .stale => text "stale"
  | .badSignature => text "bad_signature"
  | .notIp => text "not_ip"

abbrev Counts := List (EdgeRejection × ℕ)

/-- `pending.set(reason, (pending.get(reason) ?? 0) + 1)` -/
def bump (reason : EdgeRejection) : Counts → Counts
  | [] => [(reason, 1)]
  | (r, n) :: rest => if r = reason then (r, n + 1) :: rest else (r, n) :: bump reason rest

def summary (counts : Counts) : Text :=
  [unit ' '].intercalate (counts.map fun entry => reasonText entry.1 ++ unit '=' :: natText entry.2)

def hint (counts : Counts) : Text :=
  if (summary counts).tails.any (reasonText .badSignature).isPrefixOf then
    text (" bad_signature: the Worker and the API hold different secrets (surrounding whitespace is ignored on " ++
      "both ends), a rotation is half done, or the Worker signs a different path or method than the API receives.")
  else []

def warning (counts : Counts) : Text :=
  text "Refused signed edge client IPs since the last report: " ++ summary counts ++ text "." ++ hint counts

structure Reports where
  /-- What was added to the counter. -/
  counted : List EdgeRejection
  pending : Counts
  lastWarnAt : ℤ
  /-- The warnings, with what each summarizes. -/
  warned : List (ℤ × Counts)

def noReports : Reports := ⟨[], [], 0, []⟩

def reportEdgeRejection (reason : EdgeRejection) (nowMs : ℤ) (reports : Reports) : Reports :=
  let counted := reports.counted ++ [reason]
  let pending := bump reason reports.pending
  if WARN_EVERY_MS ≤ nowMs - reports.lastWarnAt then ⟨counted, [], nowMs, reports.warned ++ [(nowMs, pending)]⟩
  else { reports with counted, pending }

structure Process (ρ : Type) where
  /-- The answer of each request object. -/
  resolved : ρ → Option Text
  cachedKey : Option Text
  cachedConfig : Option EdgeConfig
  misconfigurationLogged : Bool
  errors : List Text
  reports : Reports

def fresh {ρ : Type} : Process ρ := ⟨fun _ => none, none, none, false, [], noReports⟩

def envKey (env : EdgeEnv) : Text := env.current.getD [] ++ unit '\n' :: env.previous.getD []

def edgeConfigFromEnv {ρ : Type} (env : EdgeEnv) (p : Process ρ) : Process ρ × Option EdgeConfig :=
  if p.cachedKey = some (envKey env) then (p, p.cachedConfig)
  else
    match readEdgeConfig env with
    | .ok config => ({ p with cachedKey := some (envKey env), cachedConfig := config }, config)
    | .error message =>
      let errors := if p.misconfigurationLogged then p.errors else p.errors ++ [message ++ text " The signed edge client IP is OFF."]
      ({ p with cachedKey := some (envKey env), cachedConfig := none, misconfigurationLogged := true, errors }, none)

/-! ### The address -/

def UNKNOWN_CLIENT_IP : Text := text "unknown"

def connectingIpHeader : Text := text "cf-connecting-ip"

/-- The slice of a request that is read. -/
structure ClientIpRequest where
  headers : Text → Option HeaderValue
  ip : Option Text
  remoteAddress : Option Text
  method : Option Text
  url : Option Text

structure ClientIpOptions where
  /-- Left out, `false`, or a configuration. -/
  edge : Option (Option EdgeConfig)
  now : Option Number

/-- A call, with the request object it is for, the environment at that time and the readings of the clock. -/
structure Call (ρ : Type) where
  id : ρ
  req : ClientIpRequest
  options : ClientIpOptions
  env : EdgeEnv
  clock : Number
  nowMs : ℤ

def firstHeader (req : ClientIpRequest) (name : Text) : Option Text :=
  match req.headers name with
  | some (.one value) => some value
  | some (.many values) => values.head?
  | none => none

section Calls
variable {ρ : Type} [DecidableEq ρ] (hmac : Bytes → Bytes → Bytes) (isIP : Text → ℕ)

/-- A trimmed value, if it is a literal address. -/
def asIp (value : Option Text) : Option Text := (value.map trim).filter fun candidate => candidate ≠ [] && isIP candidate ≠ 0

def Call.nowSeconds (call : Call ρ) : Number := ((call.options.now.getD call.clock).divNat 1000).floor

def ClientIpRequest.edge (req : ClientIpRequest) : EdgeRequest := ⟨req.headers, req.method, req.url⟩

/-- `options.edge === undefined ? edgeConfigFromEnv() : options.edge || undefined` -/
def Call.config (call : Call ρ) (p : Process ρ) : Process ρ × Option EdgeConfig :=
  match call.options.edge with
  | none => edgeConfigFromEnv call.env p
  | some edge => (p, edge)

/-- A refused signature is counted and ignored. -/
def Process.heed (p : Process ρ) (nowMs : ℤ) : EdgeVerdict → Process ρ × Option Text
  | .absent => (p, none)
  | .rejected reason => ({ p with reports := reportEdgeRejection reason nowMs p.reports }, none)
  | .accepted ip => (p, some ip)

def signedEdgeIp (call : Call ρ) (p : Process ρ) : Except Text (Process ρ × Option Text) :=
  match call.config p with
  | (p, none) => .ok (p, none)
  | (p, some config) => (verifyEdgeClientIp hmac isIP call.req.edge config call.nowSeconds).map (p.heed call.nowMs)

/-- What follows when no signed address was accepted. -/
def unsigned (req : ClientIpRequest) : Text :=
  ((asIp isIP (firstHeader req connectingIpHeader)).or (req.remoteAddress.or req.ip)).getD UNKNOWN_CLIENT_IP

def resolveClientIp (call : Call ρ) (p : Process ρ) : Except Text (Process ρ × Text) := do
  let (p, ip) ← signedEdgeIp hmac isIP call p
  return (p, ip.getD (unsigned isIP call.req))

def Call.cacheable (call : Call ρ) : Bool := call.options.edge.isNone && call.options.now.isNone

def Process.remember (p : Process ρ) (id : ρ) (ip : Text) : Process ρ :=
  { p with resolved := Function.update p.resolved id (some ip) }

@[simp] theorem remember_self (p : Process ρ) (id : ρ) (ip : Text) : (p.remember id ip).resolved id = some ip :=
  Function.update_self _ _ _

theorem remember_other {p : Process ρ} {id other : ρ} {ip : Text} (differs : other ≠ id) :
    (p.remember id ip).resolved other = p.resolved other := Function.update_of_ne differs _ _

def clientIp (call : Call ρ) (p : Process ρ) : Except Text (Process ρ × Text) :=
  match if call.cacheable then p.resolved call.id else none with
  | some known => .ok (p, known)
  | none => do
    let (p, ip) ← resolveClientIp hmac isIP call p
    return (if call.cacheable then p.remember call.id ip else p, ip)

/-- The calls of a process, one after the other, and what they answered. -/
def clientIps : List (Call ρ) → Process ρ → Except Text (Process ρ × List Text)
  | [], p => .ok (p, [])
  | call :: calls, p => do
    let (p, ip) ← clientIp hmac isIP call p
    let (p, ips) ← clientIps calls p
    return (p, ip :: ips)

def Call.configured (call : Call ρ) : Option EdgeConfig := call.options.edge.getD (readEdgeConfig call.env).toOption.join

def Call.verdict (call : Call ρ) : EdgeVerdict :=
  match call.configured with
  | none => .absent
  | some config => (verifyEdgeClientIp hmac isIP call.req.edge config call.nowSeconds).toOption.getD .absent

def accepted : EdgeVerdict → Option Text
  | .accepted ip => some ip
  | _ => none

def refused : EdgeVerdict → List EdgeRejection
  | .rejected reason => [reason]
  | _ => []

def Call.address (call : Call ρ) : Text := (accepted (call.verdict hmac isIP)).getD (unsigned isIP call.req)

/-- The call for the same request that was answered first, where the call is answered like an earlier one. -/
def Call.earlier (call : Call ρ) (past : List (Call ρ)) : Option (Call ρ) :=
  if call.cacheable then past.find? fun other => other.cacheable && other.id = call.id else none

/-- What the calls answer after those of the past: each request has the address that it had when it was first asked for. -/
def addresses : List (Call ρ) → List (Call ρ) → List Text
  | _, [] => []
  | past, call :: calls => ((call.earlier past).getD call).address hmac isIP :: addresses (past ++ [call]) calls

/-- The signatures that are refused: of each request once. -/
def refusals : List (Call ρ) → List (Call ρ) → List EdgeRejection
  | _, [] => []
  | past, call :: calls =>
    (if (call.earlier past).isSome then [] else refused (call.verdict hmac isIP)) ++ refusals (past ++ [call]) calls

end Calls

def configOf (env : EdgeEnv) : Option EdgeConfig := (readEdgeConfig env).toOption.join

/-- Environments of one key hold one configuration. -/
def Keyed (envs : Set EdgeEnv) : Prop := ∀ env ∈ envs, ∀ env' ∈ envs, envKey env = envKey env' → configOf env = configOf env'

section Cache
variable {ρ : Type} {p : Process ρ} {envs : Set EdgeEnv}

/-- What is cached was read from an environment with this key. -/
def Cached (envs : Set EdgeEnv) (p : Process ρ) : Prop :=
  ∀ key, p.cachedKey = some key → ∃ env ∈ envs, envKey env = key ∧ p.cachedConfig = configOf env

theorem edgeConfigFromEnv_spec (keyed : Keyed envs) (cached : Cached envs p) {env : EdgeEnv} (member : env ∈ envs) :
    (edgeConfigFromEnv env p).2 = configOf env ∧ Cached envs (edgeConfigFromEnv env p).1 ∧
      (edgeConfigFromEnv env p).1.resolved = p.resolved ∧ (edgeConfigFromEnv env p).1.reports = p.reports := by
  unfold edgeConfigFromEnv
  split
  · rename_i known
    obtain ⟨env', member', key, config⟩ := cached _ known
    exact ⟨config.trans (keyed env' member' env member key), cached, rfl, rfl⟩
  · have here : ∀ config, config = configOf env → ∀ key, some (envKey env) = some key →
        ∃ env ∈ envs, envKey env = key ∧ config = configOf env := by
      rintro config same key ⟨⟩
      exact ⟨env, member, rfl, same⟩
    cases read : readEdgeConfig env with
    | ok config =>
      have same : config = configOf env := by
        rw [configOf, read]
        rfl
      exact ⟨same, here config same, rfl, rfl⟩
    | error message =>
      have same : none = configOf env := by
        rw [configOf, read]
        rfl
      exact ⟨same, here none same, rfl, rfl⟩

end Cache

/-! ### The cache of the answers -/

section Answers
variable {ρ : Type} [DecidableEq ρ] {hmac : Bytes → Bytes → Bytes} {isIP : Text → ℕ} {p q : Process ρ}
    {call : Call ρ} {past calls : List (Call ρ)}
  {envs : Set EdgeEnv}

omit [DecidableEq ρ] in
theorem config_spec (keyed : Keyed envs) (cached : Cached envs p) (member : call.env ∈ envs) :
    (call.config p).2 = call.configured ∧ Cached envs (call.config p).1 ∧ (call.config p).1.resolved = p.resolved ∧
      (call.config p).1.reports = p.reports := by
  unfold Call.config Call.configured
  cases call.options.edge with
  | none => exact edgeConfigFromEnv_spec keyed cached member
  | some edge => exact ⟨rfl, cached, rfl, rfl⟩

theorem counted_report (reason : EdgeRejection) (nowMs : ℤ) (reports : Reports) :
    (reportEdgeRejection reason nowMs reports).counted = reports.counted ++ [reason] := by
  unfold reportEdgeRejection
  dsimp only
  split <;> rfl

omit [DecidableEq ρ] in
variable (hmac isIP call) in
theorem signedEdgeIp_spec (keyed : Keyed envs) (cached : Cached envs p) (member : call.env ∈ envs) : ∃ q,
    signedEdgeIp hmac isIP call p = .ok (q, accepted (call.verdict hmac isIP)) ∧ Cached envs q ∧ q.resolved = p.resolved ∧
      q.reports.counted = p.reports.counted ++ refused (call.verdict hmac isIP) := by
  obtain ⟨same, cached, resolved, reports⟩ := config_spec keyed cached member
  unfold signedEdgeIp Call.verdict
  rw [← same]
  generalize call.config p = read at cached resolved reports ⊢
  obtain ⟨p', config⟩ := read
  dsimp only at cached resolved reports ⊢
  cases config with
  | none => exact ⟨_, rfl, cached, resolved, (congrArg Reports.counted reports).trans (List.append_nil _).symm⟩
  | some config =>
    dsimp only
    obtain ⟨verdict, verified⟩ : ∃ verdict, verifyEdgeClientIp hmac isIP call.req.edge config call.nowSeconds = .ok verdict :=
      verifyEdgeClientIp_total _ _ _
    rw [verified]
    cases verdict with
    | absent => exact ⟨_, rfl, cached, resolved, (congrArg Reports.counted reports).trans (List.append_nil _).symm⟩
    | rejected reason =>
      refine ⟨_, rfl, cached, resolved, ?_⟩
      rw [counted_report]
      exact congrArg (Reports.counted · ++ [reason]) reports
    | accepted ip => exact ⟨_, rfl, cached, resolved, (congrArg Reports.counted reports).trans (List.append_nil _).symm⟩

/-- What a process remembers after the calls of the past. -/
structure Faithful (hmac : Bytes → Bytes → Bytes) (isIP : Text → ℕ) (envs : Set EdgeEnv) (p : Process ρ)
    (past : List (Call ρ)) : Prop where
  cached : Cached envs p
  resolved : ∀ id, p.resolved id = (past.find? fun other => other.cacheable && other.id = id).map (Call.address hmac isIP)

theorem clientIp_spec (keyed : Keyed envs) (faithful : Faithful hmac isIP envs p past) (member : call.env ∈ envs) : ∃ q,
    clientIp hmac isIP call p = .ok (q, ((call.earlier past).getD call).address hmac isIP) ∧
      Faithful hmac isIP envs q (past ++ [call]) ∧
      q.reports.counted = p.reports.counted ++ if (call.earlier past).isSome then [] else refused (call.verdict hmac isIP) := by
  obtain ⟨q, signed, cached, resolved, counted⟩ := signedEdgeIp_spec hmac isIP call keyed faithful.cached member
  have resolves : resolveClientIp hmac isIP call p = .ok (q, call.address hmac isIP) := by
    unfold resolveClientIp
    rw [signed]
    rfl
  unfold clientIp
  rw [resolves]
  cases cacheable : call.cacheable with
  | false =>
    rw [Call.earlier, cacheable]
    refine ⟨q, rfl, ⟨cached, ?_⟩, counted⟩
    intro id
    rw [resolved, faithful.resolved, List.find?_append, List.find?_cons_of_neg (by simp [cacheable])]
    simp
  | true =>
    have known := faithful.resolved call.id
    rw [Call.earlier, cacheable, if_pos rfl, if_pos rfl, known]
    cases found : past.find? fun other => other.cacheable && other.id = call.id with
    | some first =>
      refine ⟨p, rfl, ⟨faithful.cached, ?_⟩, (List.append_nil _).symm⟩
      intro id
      rw [faithful.resolved, List.find?_append]
      by_cases same : call.id = id
      · subst same
        rw [found]
        rfl
      · rw [List.find?_cons_of_neg (by simp [same])]
        simp
    | none =>
      refine ⟨_, rfl, ⟨cached, ?_⟩, counted⟩
      intro id
      rw [List.find?_append]
      by_cases same : call.id = id
      · subst same
        rw [found, List.find?_cons_of_pos (by simp [cacheable])]
        exact remember_self q _ _
      · rw [List.find?_cons_of_neg (by simp [same])]
        change (q.remember call.id (call.address hmac isIP)).resolved id = _
        rw [remember_other (Ne.symm same), resolved, faithful.resolved]
        simp

theorem clientIps_spec (keyed : Keyed envs) (faithful : Faithful hmac isIP envs p past)
    (among : ∀ call ∈ calls, call.env ∈ envs) : ∃ q,
    clientIps hmac isIP calls p = .ok (q, addresses hmac isIP past calls) ∧
      q.reports.counted = p.reports.counted ++ refusals hmac isIP past calls := by
  induction calls generalizing p past with
  | nil => exact ⟨p, rfl, (List.append_nil _).symm⟩
  | cons call calls ih =>
    obtain ⟨q, first, faithful, counted⟩ := clientIp_spec keyed faithful (among call List.mem_cons_self)
    obtain ⟨r, rest, total⟩ := ih faithful fun other member => among other (List.mem_cons_of_mem _ member)
    refine ⟨r, ?_, ?_⟩
    · rw [clientIps, first]
      change (clientIps hmac isIP calls q >>= _) = _
      rw [rest]
      rfl
    · rw [total, counted, refusals, List.append_assoc]

end Answers

/-- Whatever calls a process makes, each is answered, with the address that the request had when it was first asked for; and what was
refused is counted once for each request. The caches change nothing else, where environments of one key hold one configuration. -/
theorem clientIp_once {ρ : Type} [DecidableEq ρ] {hmac : Bytes → Bytes → Bytes} {isIP : Text → ℕ} {calls : List (Call ρ)}
    (keyed : Keyed {env | ∃ call ∈ calls, call.env = env}) : ∃ p, clientIps hmac isIP calls fresh = .ok
      (p, addresses hmac isIP [] calls) ∧
      p.reports.counted = refusals hmac isIP [] calls :=
  clientIps_spec keyed ⟨fun key none => (by cases none), fun _ => rfl⟩ fun call member => ⟨call, member, rfl⟩

namespace Sample
open Edge.Sample

/-- HMAC-SHA256 as far as the one signed string goes. -/
def hmac : Bytes → Bytes → Bytes := hmacOf 1760000000 (text "POST") (text "/v1/things") tag

def signedHeaders : EdgeHeaders := ⟨ip, natText 1760000000, base64url tag⟩

/-- The secret is set, with the line break of the file it was read from. -/
def secretEnv : EdgeEnv := ⟨some (secret ++ [unit '\n']), none⟩

def unsetEnv : EdgeEnv := ⟨none, none⟩

/-- A call 30 s after the signature was made for `/v1/things`. -/
def visit (id : ℕ) (url remoteAddress : String) (env : EdgeEnv) : Call ℕ where
  id := id
  req :=
    let signed := request signedHeaders (text "POST") (text url)
    ⟨signed.headers, none, some (text remoteAddress), signed.method, signed.url⟩
  options := ⟨none, none⟩
  env := env
  clock := .ofNat (1000 * 1760000030)
  nowMs := 1760000030000

/-- An accepted signature, one made for another path, both requests again from elsewhere, and one that comes after the secret was
removed. -/
def visits : List (Call ℕ) :=
  [visit 1 "/v1/things" "10.0.0.7" secretEnv, visit 2 "/v1/others" "10.0.0.8" secretEnv, visit 2 "/v1/others" "10.0.0.9" secretEnv,
    visit 1 "/v1/things" "10.0.0.7" unsetEnv, visit 3 "/v1/things" "10.0.0.7" unsetEnv]

theorem configOf_secretEnv : configOf secretEnv = some config := by
  have read : readEdgeConfig secretEnv = .ok (some config) := by
    unfold readEdgeConfig secretEnv
    dsimp only [Option.getD_some, Option.getD_none]
    rw [trimmed, if_neg (by decide), if_neg (by decide), if_neg (by decide), if_pos (by decide)]
    rfl
  rw [configOf, read]
  rfl

theorem visits_keyed : Keyed {env | ∃ call ∈ visits, call.env = env} := by
  have envs : ∀ call ∈ visits, call.env = secretEnv ∨ call.env = unsetEnv := by
    simp [visits, visit]
  have differ : envKey secretEnv ≠ envKey unsetEnv := by decide
  rintro env ⟨call, member, rfl⟩ env' ⟨call', member', rfl⟩ same
  rcases envs call member with first | first <;> rcases envs call' member' with second | second
  · rw [first, second]
  · exact (differ (first ▸ second ▸ same)).elim
  · exact (differ (first ▸ second ▸ same).symm).elim
  · rw [first, second]

theorem visit_nowSeconds (id : ℕ) (url remoteAddress : String) (env : EdgeEnv) :
    (visit id url remoteAddress env).nowSeconds = Number.ofNat 1760000030 :=
  ts_eq [] [] (show 1000 * 1760000030 < 2 ^ 53 by norm_num) .nan

theorem visit_verdict (id : ℕ) (url remoteAddress : String) : (visit id url remoteAddress secretEnv).verdict hmac isIPv4 =
    judgeTag hmac isIPv4 [secret] ip (base64url tag) (signedText 1760000000 ip (text "POST") (edgePath (text url))) := by
  have configured : (visit id url remoteAddress secretEnv).configured = some config := configOf_secretEnv
  have near : |((1760000030 : ℕ) : ℚ) - (1760000000 : ℕ)| ≤ edgeMaxSkewSeconds := by norm_num [edgeMaxSkewSeconds]
  have recent := skew_within (isDouble_nat (show 1760000030 < 2 ^ 53 by norm_num)) (by norm_num) near
  rw [← Number.ofNat_eq (by norm_num), ← natOf_natText 1760000000] at recent
  have made : edgeSigningString (Number.ofNat (natOf (natText 1760000000))) ip (text "POST") (edgePath (text url)) =
      .ok (signedText 1760000000 ip (text "POST") (edgePath (text url))) := by
    rw [natOf_natText]
    exact edgeSigningString_ok.mpr
      ⟨1760000000, text "POST", Number.safeNat?_ofNat (by norm_num), by decide, shaped, by rw [edgePath_edgePath]⟩
  have judged : verifyEdgeClientIp hmac isIPv4 (visit id url remoteAddress secretEnv).req.edge config (Number.ofNat 1760000030) =
      .ok (judgeTag hmac isIPv4 config.secrets ip (base64url tag)
        (signedText 1760000000 ip (text "POST") (edgePath (text url)))) :=
    verifyEdgeClientIp_judged rfl rfl rfl (isTs_natText.mpr (by norm_num)) (isSig_base64url rfl) shaped rfl rfl recent made
  rw [Call.verdict, configured]
  dsimp only
  rw [visit_nowSeconds, judged]
  rfl

theorem accepts (id : ℕ) (remoteAddress : String) :
    (visit id "/v1/things" remoteAddress secretEnv).verdict hmac isIPv4 = .accepted ip := by
  rw [visit_verdict]
  change judgeTag hmac isIPv4 config.secrets ip (base64url tag) _ = _
  refine judgeTag_accepted.mpr ⟨?_, by decide, rfl⟩
  rw [fromBase64url_base64url, validTag, List.any_eq_true]
  exact ⟨secret, List.mem_singleton.mpr rfl, decide_eq_true (hmacOf_self _ _ _ _)⟩

theorem refuses (id : ℕ) (remoteAddress : String) :
    (visit id "/v1/others" remoteAddress secretEnv).verdict hmac isIPv4 = .rejected .badSignature := by
  have other : hmac (utf8 secret) (utf8 (signedText 1760000000 ip (text "POST") (edgePath (text "/v1/others")))) =
      List.replicate 32 0 := by
    unfold Sample.hmac hmacOf pointHmac
    exact if_neg (by decide +kernel)
  have zero : decide ((List.replicate 32 0 : Bytes) = tag) = false := by decide
  rw [visit_verdict, judgeTag, fromBase64url_base64url, validTag, List.any_cons, other, zero]
  rfl

end Sample

open Sample in
/-- What was answered for a request stays, whatever its socket says and although the secret is gone; the refused signature is counted
once. -/
theorem clientIp_once_signed : ∃ p, clientIps Sample.hmac Edge.Sample.isIPv4 visits fresh =
      .ok (p, [Edge.Sample.ip, text "10.0.0.8", text "10.0.0.8", Edge.Sample.ip, text "10.0.0.7"]) ∧
    p.reports.counted = [.badSignature] := by
  obtain ⟨p, ran, counted⟩ := @clientIp_once ℕ _ Sample.hmac Edge.Sample.isIPv4 visits visits_keyed
  refine ⟨p, ran.trans ?_, counted.trans ?_⟩
  · have first : (visit 1 "/v1/things" "10.0.0.7" secretEnv).address Sample.hmac Edge.Sample.isIPv4 = Edge.Sample.ip := by
      rw [Call.address, accepts]
      rfl
    have second : (visit 2 "/v1/others" "10.0.0.8" secretEnv).address Sample.hmac Edge.Sample.isIPv4 = text "10.0.0.8" := by
      rw [Call.address, refuses]
      rfl
    have last : (visit 3 "/v1/things" "10.0.0.7" unsetEnv).address Sample.hmac Edge.Sample.isIPv4 = text "10.0.0.7" := rfl
    rw [← first, ← second, ← last]
    rfl
  · have none : refused ((visit 1 "/v1/things" "10.0.0.7" secretEnv).verdict Sample.hmac Edge.Sample.isIPv4) = [] := by
      rw [accepts]
      rfl
    have one : refused ((visit 2 "/v1/others" "10.0.0.8" secretEnv).verdict Sample.hmac Edge.Sample.isIPv4) = [.badSignature] := by
      rw [refuses]
      rfl
    change refused _ ++ (refused _ ++ ([] ++ ([] ++ ([] ++ [])))) = _
    rw [none, one]
    rfl

/-! ### What every run keeps -/

/-- How often a summary says that a reason came. -/
def tally (reason : EdgeRejection) (counts : Counts) : ℕ := ((counts.filter fun entry => entry.1 = reason).map Prod.snd).sum

theorem tally_cons (reason : EdgeRejection) (entry : EdgeRejection × ℕ) (counts : Counts) :
    tally reason (entry :: counts) = (if entry.1 = reason then entry.2 else 0) + tally reason counts := by
  unfold tally
  by_cases same : entry.1 = reason
  · simp [same]
  · simp [same]

theorem tally_bump (reason given : EdgeRejection) (counts : Counts) :
    tally reason (bump given counts) = tally reason counts + if given = reason then 1 else 0 := by
  induction counts with
  | nil =>
    rw [bump, tally_cons]
    exact Nat.add_comm _ _
  | cons entry counts ih =>
    obtain ⟨r, n⟩ := entry
    rw [bump]
    split
    · rename_i same
      subst same
      rw [tally_cons, tally_cons]
      split <;> omega
    · rw [tally_cons, tally_cons, ih]
      omega

/-- Every refusal that was counted is in a warning or still to be reported, and the warnings are a minute apart. -/
structure Accounted (reports : Reports) : Prop where
  total : ∀ reason, reports.counted.count reason = tally reason reports.pending + (reports.warned.map fun w => tally reason w.2).sum
  last : ∀ w ∈ reports.warned, w.1 ≤ reports.lastWarnAt
  spaced : reports.warned.Pairwise fun first second => first.1 + WARN_EVERY_MS ≤ second.1

theorem accounted_report {reports : Reports} (accounted : Accounted reports) (reason : EdgeRejection) (nowMs : ℤ) :
    Accounted (reportEdgeRejection reason nowMs reports) := by
  obtain ⟨total, last, spaced⟩ := accounted
  have counted : ∀ other, (reports.counted ++ [reason]).count other =
      tally other (bump reason reports.pending) + (reports.warned.map fun w => tally other w.2).sum := by
    intro other
    rw [List.count_append, total, tally_bump, List.count_singleton, beq_eq_decide]
    simp only [decide_eq_true_eq]
    omega
  unfold reportEdgeRejection
  dsimp only
  split
  · rename_i due
    refine ⟨?_, ?_, ?_⟩
    · intro other
      rw [counted, List.map_append, List.sum_append]
      simp [tally]
      omega
    · intro w member
      rcases List.mem_append.mp member with earlier | now
      · have before := last w earlier
        have gap : (0 : ℤ) ≤ WARN_EVERY_MS := by decide
        change w.1 ≤ nowMs
        omega
      · obtain rfl := List.mem_singleton.mp now
        exact le_rfl
    · refine List.pairwise_append.mpr ⟨spaced, List.pairwise_singleton _ _, ?_⟩
      intro w earlier w' now
      obtain rfl := List.mem_singleton.mp now
      have before := last w earlier
      change w.1 + WARN_EVERY_MS ≤ nowMs
      omega
  · exact ⟨counted, last, spaced⟩

section Lawful
variable {ρ : Type} [DecidableEq ρ] {hmac : Bytes → Bytes → Bytes} {isIP : Text → ℕ} {p q : Process ρ}
    {call : Call ρ} {past calls : List (Call ρ)}

/-- A literal address, or what the socket or the framework gave for this request. -/
def Sourced (isIP : Text → ℕ) (calls : List (Call ρ)) (id : ρ) (ip : Text) : Prop :=
  isIP ip ≠ 0 ∨ ip = UNKNOWN_CLIENT_IP ∨ ∃ call ∈ calls, call.id = id ∧
    (call.req.remoteAddress = some ip ∨ call.req.ip = some ip)

structure Lawful (isIP : Text → ℕ) (p : Process ρ) (past : List (Call ρ)) : Prop where
  accounted : Accounted p.reports
  errors : p.errors.length ≤ if p.misconfigurationLogged then 1 else 0
  sourced : ∀ id ip, p.resolved id = some ip → Sourced isIP past id ip

omit [DecidableEq ρ] in
theorem Sourced.mono {id : ρ} {ip : Text} (sourced : Sourced isIP past id ip) (later : ∀ call ∈ past, call ∈ calls) :
    Sourced isIP calls id ip := by
  rcases sourced with literal | unknown | ⟨call, member, same, given⟩
  · exact .inl literal
  · exact .inr (.inl unknown)
  · exact .inr (.inr ⟨call, later call member, same, given⟩)

omit [DecidableEq ρ] in
variable (isIP) in
theorem unsigned_sourced (member : call ∈ calls) : Sourced isIP calls call.id (unsigned isIP call.req) := by
  unfold unsigned
  cases header : asIp isIP (firstHeader call.req connectingIpHeader) with
  | some ip =>
    obtain ⟨_, literal⟩ := Option.filter_eq_some_iff.mp header
    simp only [Bool.and_eq_true, decide_eq_true_eq] at literal
    exact .inl literal.2
  | none =>
    cases remote : call.req.remoteAddress with
    | some ip => exact .inr (.inr ⟨call, member, rfl, .inl remote⟩)
    | none =>
      cases given : call.req.ip with
      | some ip => exact .inr (.inr ⟨call, member, rfl, .inr given⟩)
      | none => exact .inr (.inl rfl)

omit [DecidableEq ρ] in
variable (call) in
theorem config_lawful (lawful : Lawful isIP p past) : Lawful isIP (call.config p).1 past := by
  unfold Call.config
  split
  · unfold edgeConfigFromEnv
    split
    · exact lawful
    · obtain ⟨accounted, errors, sourced⟩ := lawful
      split
      · exact ⟨accounted, errors, sourced⟩
      · refine ⟨accounted, ?_, sourced⟩
        cases logged : p.misconfigurationLogged with
        | true => simpa [logged] using errors
        | false =>
          rw [logged] at errors
          simpa using errors
  · exact lawful

omit [DecidableEq ρ] in
variable (hmac call) in
theorem resolveClientIp_lawful (lawful : Lawful isIP p past) : ∃ q ip,
    resolveClientIp hmac isIP call p = .ok (q, ip) ∧ Lawful isIP q past ∧ Sourced isIP [call] call.id ip := by
  have lawful := config_lawful call lawful
  have fallback := unsigned_sourced isIP (List.mem_singleton_self call)
  unfold resolveClientIp signedEdgeIp
  generalize call.config p = read at lawful ⊢
  obtain ⟨p', config⟩ := read
  dsimp only at lawful
  cases config with
  | none => exact ⟨_, _, rfl, lawful, fallback⟩
  | some config =>
    dsimp only
    obtain ⟨verdict, verified⟩ : ∃ verdict, verifyEdgeClientIp hmac isIP call.req.edge config call.nowSeconds = .ok verdict :=
      verifyEdgeClientIp_total _ _ _
    rw [verified]
    cases verdict with
    | absent => exact ⟨_, _, rfl, lawful, fallback⟩
    | rejected reason => exact ⟨_, _, rfl, ⟨accounted_report lawful.accounted reason _, lawful.errors, lawful.sourced⟩, fallback⟩
    | accepted ip =>
      obtain ⟨_, _, _, _, _, passes⟩ := passes_of_accepted verified
      exact ⟨_, _, rfl, lawful, .inl passes.literal⟩

variable (hmac call) in
theorem clientIp_lawful (lawful : Lawful isIP p past) : ∃ q ip,
    clientIp hmac isIP call p = .ok (q, ip) ∧ Lawful isIP q (past ++ [call]) ∧ Sourced isIP (past ++ [call]) call.id ip := by
  have later : ∀ other ∈ past, other ∈ past ++ [call] := fun other => List.mem_append_left _
  unfold clientIp
  split
  · rename_i known found
    split at found
    · exact ⟨p, known, rfl, ⟨lawful.accounted, lawful.errors, fun id ip given => (lawful.sourced id ip given).mono later⟩,
        (lawful.sourced _ _ found).mono later⟩
    · cases found
  · obtain ⟨q, ip, resolved, lawful, sourced⟩ := resolveClientIp_lawful hmac call lawful
    have sourced : Sourced isIP (past ++ [call]) call.id ip := sourced.mono fun other => List.mem_append_right _
    rw [resolved]
    refine ⟨_, ip, rfl, ?_, sourced⟩
    split
    · refine ⟨lawful.accounted, lawful.errors, ?_⟩
      intro id known given
      by_cases same : id = call.id
      · subst same
        obtain rfl : ip = known := Option.some.inj ((remember_self q _ _).symm.trans given)
        exact sourced
      · have old : q.resolved id = some known := (remember_other same).symm.trans given
        exact (lawful.sourced id known old).mono later
    · exact ⟨lawful.accounted, lawful.errors, fun id known given => (lawful.sourced id known given).mono later⟩

variable (hmac calls) in
theorem clientIps_lawful (lawful : Lawful isIP p past) : ∃ q ips,
    clientIps hmac isIP calls p = .ok (q, ips) ∧ Lawful isIP q (past ++ calls) ∧
      List.Forall₂ (fun call => Sourced isIP (past ++ calls) call.id) calls ips := by
  induction calls generalizing p past with
  | nil =>
    rw [List.append_nil]
    exact ⟨p, [], rfl, lawful, .nil⟩
  | cons call calls ih =>
    obtain ⟨q, ip, first, lawful, sourced⟩ := clientIp_lawful hmac call lawful
    obtain ⟨r, ips, rest, lawful, others⟩ := ih lawful
    rw [List.append_assoc, List.singleton_append] at lawful others
    refine ⟨r, ip :: ips, ?_, lawful, .cons ?_ others⟩
    · rw [clientIps, first]
      change (clientIps hmac isIP calls q >>= _) = _
      rw [rest]
      rfl
    · refine sourced.mono fun earlier given => ?_
      rw [← List.singleton_append, ← List.append_assoc]
      exact List.mem_append_left _ given

omit [DecidableEq ρ] in
variable (isIP) in
theorem fresh_lawful : Lawful isIP (fresh : Process ρ) [] :=
  ⟨⟨fun _ => rfl, List.forall_mem_nil _, List.Pairwise.nil⟩, Nat.zero_le _, fun _ _ none => by cases none⟩

end Lawful

/-- Whatever the clock reads and the environment holds: every call is answered, every refused signature that was counted is in a
warning or still to be reported, warnings are a minute apart, and an unusable configuration is logged once at most. -/
theorem rejections_reported {ρ : Type} [DecidableEq ρ] (hmac : Bytes → Bytes → Bytes) (isIP : Text → ℕ)
    (calls : List (Call ρ)) :
    ∃ p ips, clientIps hmac isIP calls fresh = .ok (p, ips) ∧ ips.length = calls.length ∧
      Accounted p.reports ∧ p.errors.length ≤ 1 := by
  obtain ⟨p, ips, ran, lawful, sourced⟩ := clientIps_lawful hmac calls (fresh_lawful isIP)
  refine ⟨p, ips, ran, sourced.length_eq.symm, lawful.accounted, lawful.errors.trans ?_⟩
  split <;> omega

def isSource (name : Text) : Bool := name = edgeIpHeader || name = edgeTsHeader || name = edgeSigHeader || name = connectingIpHeader

def Call.stripped {ρ : Type} (call : Call ρ) : Call ρ :=
  { call with req := { call.req with headers := fun name => if isSource name then call.req.headers name else none } }

theorem clientIp_stripped {ρ : Type} [DecidableEq ρ] {hmac : Bytes → Bytes → Bytes} {isIP : Text → ℕ}
    (call : Call ρ) (p : Process ρ) :
    clientIp hmac isIP call.stripped p = clientIp hmac isIP call p := by
  have read : ∀ name, isSource name = true → call.stripped.req.headers name = call.req.headers name :=
    fun name source => if_pos source
  have one : ∀ name, isSource name = true → only call.stripped.req.headers name = only call.req.headers name := by
    intro name source
    rw [only, only, read name source]
  have verified : ∀ config, verifyEdgeClientIp hmac isIP call.stripped.req.edge config call.stripped.nowSeconds =
      verifyEdgeClientIp hmac isIP call.req.edge config call.nowSeconds := by
    intro config
    simp only [verifyEdgeClientIp, ClientIpRequest.edge, one edgeIpHeader rfl, one edgeTsHeader rfl, one edgeSigHeader rfl]
    rfl
  have plain : unsigned isIP call.stripped.req = unsigned isIP call.req := by
    unfold unsigned firstHeader
    rw [read connectingIpHeader rfl]
    rfl
  have signed : signedEdgeIp hmac isIP call.stripped p = signedEdgeIp hmac isIP call p := by
    have config : call.stripped.config p = call.config p := rfl
    unfold signedEdgeIp
    rw [config]
    simp only [verified]
    rfl
  have resolves : resolveClientIp hmac isIP call.stripped p = resolveClientIp hmac isIP call p := by
    unfold resolveClientIp
    rw [signed, plain]
  unfold clientIp
  rw [resolves]
  rfl

/-- No header counts but the three signed ones and `cf-connecting-ip`, and no text of theirs is an answer unless it is an address:
the others do not change what a process answers, counts or reports, and each answer is a literal address or what the socket or the
framework gave at a call for the same request. -/
theorem answers_sourced {ρ : Type} [DecidableEq ρ] (hmac : Bytes → Bytes → Bytes) (isIP : Text → ℕ) (calls : List (Call ρ)) :
    ∃ p ips, clientIps hmac isIP calls fresh = .ok (p, ips) ∧ clientIps hmac isIP (calls.map Call.stripped) fresh = .ok (p, ips) ∧
      List.Forall₂ (fun call => Sourced isIP calls call.id) calls ips := by
  have same : ∀ p, clientIps hmac isIP (calls.map Call.stripped) p = clientIps hmac isIP calls p := by
    induction calls with
    | nil => exact fun p => rfl
    | cons call calls ih =>
      intro p
      rw [List.map_cons, clientIps, clientIps, clientIp_stripped]
      simp only [ih]
  obtain ⟨p, ips, ran, _, sourced⟩ := clientIps_lawful hmac calls (fresh_lawful isIP)
  exact ⟨p, ips, ran, (same fresh).trans ran, sourced⟩

end ClientIp
