import AppPlatform.Http.EdgeSignature

/-!
# What the edge signs and what the API accepts

`Passes` lists the checks an accepted request has passed. HMAC-SHA256 is a parameter with 32 bytes of
output; that nobody forges it is an assumption on the tag a request presents.
-/

namespace Edge

open Js

variable {hmac : Bytes → Bytes → Bytes} {isIP : Text → ℕ}

/-! ### One call of each end -/

theorem signEdgeClientIp_ok {clock : Number} {input : EdgeSignInput} {headers : EdgeHeaders} :
    signEdgeClientIp hmac clock input = .ok headers ↔
      edgeSecretMinLength ≤ (normalizeEdgeSecret input.secret).length ∧ isEdgeIpText input.ip = true ∧
        ∃ message, input.signingString clock = .ok message ∧
          headers = ⟨input.ip, numberText (input.ts clock),
            base64url (hmac (utf8 (normalizeEdgeSecret input.secret)) (utf8 message))⟩ := by
  unfold signEdgeClientIp
  dsimp only
  constructor
  · intro signed
    split at signed
    · cases signed
    rename_i long
    split at signed
    · rename_i address
      cases made : input.signingString clock with
      | error e => rw [made] at signed; cases signed
      | ok message =>
        rw [made] at signed
        exact ⟨Nat.le_of_not_lt long, address, message, rfl, (Except.ok.inj signed).symm⟩
    · cases signed
  · rintro ⟨long, address, message, made, rfl⟩
    rw [if_neg (Nat.not_lt.mpr long), if_pos address, made]
    rfl

/-- The checks a request has passed when its address is accepted. -/
structure Passes (hmac : Bytes → Bytes → Bytes) (isIP : Text → ℕ) (req : EdgeRequest) (config : EdgeConfig)
    (nowSeconds : Number) (ip ts sig method url message : Text) : Prop where
  ip_header : only req.headers edgeIpHeader = some ip
  ts_header : only req.headers edgeTsHeader = some ts
  sig_header : only req.headers edgeSigHeader = some sig
  ts_shape : isTs ts = true
  sig_shape : isSig sig = true
  ip_shape : isEdgeIpText ip = true
  method_given : req.method = some method
  url_given : req.url = some url
  fresh : (nowSeconds.minus (Number.ofNat (natOf ts))).abs.exceeds edgeMaxSkewSeconds = false
  message_made : edgeSigningString (Number.ofNat (natOf ts)) ip method (edgePath url) = .ok message
  tag_valid : validTag hmac config.secrets (fromBase64url sig) message = true
  literal : isIP ip ≠ 0

section Verifier

variable {req : EdgeRequest} {config : EdgeConfig} {nowSeconds : Number} {ip ts sig method url message : Text}

theorem judgeTag_accepted {ip' : Text} :
    judgeTag hmac isIP config.secrets ip sig message = .accepted ip' ↔
      validTag hmac config.secrets (fromBase64url sig) message = true ∧ isIP ip ≠ 0 ∧ ip = ip' := by
  unfold judgeTag
  dsimp only
  split
  · simp_all
  split
  · simp_all
  · simp_all

theorem verifyShaped_judged
    (fresh : (nowSeconds.minus (Number.ofNat (natOf ts))).abs.exceeds edgeMaxSkewSeconds = false)
    (made : edgeSigningString (Number.ofNat (natOf ts)) ip method (edgePath url) = .ok message) :
    verifyShaped hmac isIP config nowSeconds ip ts sig method url = .ok (judgeTag hmac isIP config.secrets ip sig message) := by
  obtain ⟨n, upper, -, letters, -, -⟩ := edgeSigningString_ok.mp made
  unfold verifyShaped
  dsimp only
  rw [if_neg (by rw [letters]; exact Option.some_ne_none upper), fresh, if_neg Bool.false_ne_true, made]
  rfl

theorem verifyShaped_accepted {ip' : Text} :
    verifyShaped hmac isIP config nowSeconds ip ts sig method url = .ok (.accepted ip') ↔
      (nowSeconds.minus (Number.ofNat (natOf ts))).abs.exceeds edgeMaxSkewSeconds = false ∧
        ∃ message, edgeSigningString (Number.ofNat (natOf ts)) ip method (edgePath url) = .ok message ∧
          judgeTag hmac isIP config.secrets ip sig message = .accepted ip' := by
  constructor
  · intro accepted
    unfold verifyShaped at accepted
    dsimp only at accepted
    split at accepted
    · cases accepted
    split at accepted
    · cases accepted
    rename_i fresh
    cases made : edgeSigningString (Number.ofNat (natOf ts)) ip method (edgePath url) with
    | error e => rw [made] at accepted; cases accepted
    | ok message =>
      rw [made] at accepted
      exact ⟨Bool.eq_false_iff.mpr fresh, message, rfl, Except.ok.inj accepted⟩
  · rintro ⟨fresh, message, made, verdict⟩
    rw [verifyShaped_judged fresh made, verdict]

/-- A request that is fresh and well formed is decided by its tag. -/
theorem verifyEdgeClientIp_judged (ip_header : only req.headers edgeIpHeader = some ip)
    (ts_header : only req.headers edgeTsHeader = some ts) (sig_header : only req.headers edgeSigHeader = some sig)
    (ts_shape : isTs ts = true) (sig_shape : isSig sig = true) (ip_shape : isEdgeIpText ip = true)
    (method_given : req.method = some method) (url_given : req.url = some url)
    (fresh : (nowSeconds.minus (Number.ofNat (natOf ts))).abs.exceeds edgeMaxSkewSeconds = false)
    (made : edgeSigningString (Number.ofNat (natOf ts)) ip method (edgePath url) = .ok message) :
    verifyEdgeClientIp hmac isIP req config nowSeconds = .ok (judgeTag hmac isIP config.secrets ip sig message) := by
  unfold verifyEdgeClientIp
  rw [ip_header, ts_header, sig_header]
  dsimp only
  rw [if_neg (by simp [ts_shape, sig_shape, ip_shape]), method_given, url_given]
  exact verifyShaped_judged fresh made

theorem Passes.accepted (passes : Passes hmac isIP req config nowSeconds ip ts sig method url message) :
    verifyEdgeClientIp hmac isIP req config nowSeconds = .ok (.accepted ip) := by
  rw [verifyEdgeClientIp_judged passes.ip_header passes.ts_header passes.sig_header passes.ts_shape passes.sig_shape
    passes.ip_shape passes.method_given passes.url_given passes.fresh passes.message_made,
    judgeTag_accepted.mpr ⟨passes.tag_valid, passes.literal, rfl⟩]

theorem passes_of_accepted (accepted : verifyEdgeClientIp hmac isIP req config nowSeconds = .ok (.accepted ip)) :
    ∃ ts sig method url message, Passes hmac isIP req config nowSeconds ip ts sig method url message := by
  unfold verifyEdgeClientIp at accepted
  split at accepted
  · cases accepted
  · rename_i ip' ts sig ipHeader tsHeader sigHeader
    split at accepted
    · cases accepted
    rename_i shapes
    simp only [Bool.or_eq_true, Bool.not_eq_true', not_or, Bool.not_eq_false] at shapes
    split at accepted
    · rename_i method url methodGiven urlGiven
      obtain ⟨fresh, message, made, verdict⟩ := verifyShaped_accepted.mp accepted
      obtain ⟨valid, literal, rfl⟩ := judgeTag_accepted.mp verdict
      exact ⟨ts, sig, method, url, message, ipHeader, tsHeader, sigHeader, shapes.1.1, shapes.1.2, shapes.2, methodGiven,
        urlGiven, fresh, made, valid, literal⟩
    · cases accepted
  · cases accepted

theorem verifyEdgeClientIp_malformed (ip_header : only req.headers edgeIpHeader = some ip)
    (ts_header : only req.headers edgeTsHeader = some ts) (sig_header : only req.headers edgeSigHeader = some sig)
    (ts_shape : isTs ts = false) : verifyEdgeClientIp hmac isIP req config nowSeconds = .ok (.rejected .malformed) := by
  unfold verifyEdgeClientIp
  rw [ip_header, ts_header, sig_header]
  dsimp only
  rw [if_pos (by simp [ts_shape])]

/-- Whatever a request carries, the verifier answers and never throws. -/
theorem verifyEdgeClientIp_total (req : EdgeRequest) (config : EdgeConfig) (nowSeconds : Number) :
    ∃ verdict, verifyEdgeClientIp hmac isIP req config nowSeconds = .ok verdict := by
  unfold verifyEdgeClientIp
  split
  · exact ⟨_, rfl⟩
  · rename_i ip ts sig _ _ _
    split
    · exact ⟨_, rfl⟩
    rename_i shapes
    simp only [Bool.or_eq_true, Bool.not_eq_true', not_or, Bool.not_eq_false] at shapes
    split
    · rename_i method url _ _
      unfold verifyShaped
      dsimp only
      split
      · exact ⟨_, rfl⟩
      rename_i letters
      obtain ⟨upper, letters⟩ := Option.ne_none_iff_exists'.mp letters
      split
      · exact ⟨_, rfl⟩
      -- the shapes are what the signing string asks for
      have time := Number.safeNat?_ofNat (natOf_lt_of_isTs shapes.1.1)
      have made : edgeSigningString (Number.ofNat (natOf ts)) ip method (edgePath url) =
          .ok (signedText (natOf ts) ip upper (edgePath (edgePath url))) :=
        edgeSigningString_ok.mpr ⟨natOf ts, upper, time, letters, shapes.2, rfl⟩
      rw [made]
      exact ⟨_, rfl⟩
    · exact ⟨_, rfl⟩
  · exact ⟨_, rfl⟩

end Verifier

/-- The environment holds the secret, as the current one or as the one being retired. -/
def Holds (env : EdgeEnv) (secret : Text) : Prop :=
  normalizeEdgeSecret (env.current.getD []) = secret ∨ normalizeEdgeSecret (env.previous.getD []) = secret

theorem readEdgeConfig_ok {env : EdgeEnv} {config : EdgeConfig} (read : readEdgeConfig env = .ok (some config)) :
    normalizeEdgeSecret (env.current.getD []) ≠ [] ∧ usable (normalizeEdgeSecret (env.current.getD [])) = true ∧
      usable (normalizeEdgeSecret (env.previous.getD [])) = true ∧
      config.secrets = if normalizeEdgeSecret (env.previous.getD []) = [] then [normalizeEdgeSecret (env.current.getD [])]
        else [normalizeEdgeSecret (env.current.getD []), normalizeEdgeSecret (env.previous.getD [])] := by
  unfold readEdgeConfig at read
  dsimp only at read
  split at read
  · split at read
    · cases read
    · cases read
  rename_i current
  split at read
  · cases read
  rename_i currentUsable
  split at read
  · cases read
  rename_i previousUsable
  cases read
  rw [Bool.not_eq_true', Bool.not_eq_false] at currentUsable previousUsable
  exact ⟨current, currentUsable, previousUsable, rfl⟩

theorem mem_secrets {env : EdgeEnv} {config : EdgeConfig} {secret : Text} (read : readEdgeConfig env = .ok (some config))
    (nonempty : secret ≠ []) (holds : Holds env secret) : secret ∈ config.secrets := by
  obtain ⟨-, -, -, secrets⟩ := readEdgeConfig_ok read
  rw [secrets]
  rcases holds with rfl | rfl
  · split <;> simp
  · rw [if_neg nonempty]
    simp

/-! ### Agreement -/

/-- What the edge can sign: a long enough secret, a literal address and a method of letters. -/
structure Signable (isIP : Text → ℕ) (input : EdgeSignInput) : Prop where
  secret : edgeSecretMinLength ≤ (normalizeEdgeSecret input.secret).length
  literal : isIP input.ip ≠ 0
  short : input.ip.length ≤ 45
  units : ∀ u ∈ input.ip, isIpUnit u = true
  method : isMethod input.method = true

/-- The signing time is a second or more after the epoch, and `n` whole seconds. -/
structure SignedAt (input : EdgeSignInput) (clock : Number) (n : ℕ) : Prop where
  late : ∃ q, ∃ double : IsDouble q, input.now.getD clock = .finite q double ∧ 1000 ≤ q
  seconds : input.ts clock = Number.ofNat n

/-- The request that was signed, as it reaches the API. -/
structure Arrives (input : EdgeSignInput) (headers : EdgeHeaders) (req : EdgeRequest) : Prop where
  ip : req.headers edgeIpHeader = some (.one headers.ip)
  ts : req.headers edgeTsHeader = some (.one headers.ts)
  sig : req.headers edgeSigHeader = some (.one headers.sig)
  method : ∃ method, req.method = some method ∧ SameUpToCase method input.method
  path : ∃ url, req.url = some url ∧ edgePath url = edgePath input.path

structure SigningCall where
  clock : Number
  input : EdgeSignInput

/-- The call signs the message under the key. -/
def SigningCall.Computes (hmac : Bytes → Bytes → Bytes) (call : SigningCall) (key message : Bytes) : Prop :=
  ∃ headers made, signEdgeClientIp hmac call.clock call.input = .ok headers ∧
    call.input.signingString call.clock = .ok made ∧
    utf8 (normalizeEdgeSecret call.input.secret) = key ∧ utf8 made = message

/-- Nobody but the signer made the tag: a message it authenticates under a configured secret was signed under it. -/
def Unforged (hmac : Bytes → Bytes → Bytes) (calls : List SigningCall) (config : EdgeConfig) (tag : Bytes) : Prop :=
  ∀ secret ∈ config.secrets, ∀ message, hmac (utf8 secret) message = tag →
    ∃ call ∈ calls, call.Computes hmac (utf8 secret) message

/-- The call signed what the accepted request says. Surrogates outside a pair are all one to UTF-8. -/
structure SignedFor (hmac : Bytes → Bytes → Bytes) (call : SigningCall) (config : EdgeConfig) (req : EdgeRequest)
    (ip : Text) : Prop where
  headers : ∃ headers, signEdgeClientIp hmac call.clock call.input = .ok headers ∧ headers.ip = ip ∧
    only req.headers edgeTsHeader = some headers.ts
  method : ∃ method, req.method = some method ∧ edgeMethod call.input.method = edgeMethod method
  path : ∃ url, req.url = some url ∧ toWellFormed (edgePath call.input.path) = toWellFormed (edgePath url) ∧
    (isWellFormed (edgePath call.input.path) = true → isWellFormed (edgePath url) = true →
      edgePath call.input.path = edgePath url)
  secret : ∃ secret ∈ config.secrets, toWellFormed (normalizeEdgeSecret call.input.secret) = toWellFormed secret

theorem Signable.isEdgeIpText {input : EdgeSignInput} (signable : Signable isIP input)
    (dotted : ∀ ip, isIP ip ≠ 0 → ip.any isDotOrColon = true) : isEdgeIpText input.ip = true := by
  have separated := dotted input.ip signable.literal
  have nonempty : input.ip ≠ [] := by
    intro empty
    rw [empty] at separated
    cases separated
  simp only [Edge.isEdgeIpText, Bool.and_eq_true, decide_eq_true_eq, List.all_eq_true]
  exact ⟨⟨signable.short, nonempty, signable.units⟩, separated⟩

theorem accepted_of_signed (digest : ∀ key message, (hmac key message).length = 32)
    (dotted : ∀ ip, isIP ip ≠ 0 → ip.any isDotOrColon = true) {input : EdgeSignInput} {clock : Number} {n : ℕ}
    (signable : Signable isIP input) (at_ : SignedAt input clock n) (early : n < 10 ^ 12) :
    ∃ headers, signEdgeClientIp hmac clock input = .ok headers ∧
      ∀ env config req c (double : IsDouble c), readEdgeConfig env = .ok (some config) →
        Holds env (normalizeEdgeSecret input.secret) → Arrives input headers req → |c - n| ≤ edgeMaxSkewSeconds →
        verifyEdgeClientIp hmac isIP req config (.finite c double) = .ok (.accepted input.ip) := by
  have small : n < 2 ^ 53 := by omega
  have time := Number.safeNat?_ofNat small
  have address := signable.isEdgeIpText dotted
  have letters : edgeMethod input.method = some (toUpperCase input.method) := if_pos signable.method
  have made : input.signingString clock = .ok (signedText n input.ip (toUpperCase input.method) (edgePath input.path)) :=
    edgeSigningString_ok.mpr ⟨n, _, by rw [at_.seconds]; exact time, letters, address, rfl⟩
  have seconds : numberText (input.ts clock) = natText n := by rw [at_.seconds]; exact numberText_safe time
  refine ⟨_, signEdgeClientIp_ok.mpr ⟨signable.secret, address, _, made, rfl⟩, ?_⟩
  rw [seconds]
  intro env config req c double read holds arrives near
  obtain ⟨method, methodGiven, sameCase⟩ := arrives.method
  obtain ⟨url, urlGiven, samePath⟩ := arrives.path
  obtain ⟨q, qDouble, reading, late⟩ := at_.late
  have shaped : isTs (natText n) = true := isTs_natText.mpr ⟨one_le_seconds reading late small at_.seconds, early⟩
  have remade : edgeSigningString (Number.ofNat n) input.ip method (edgePath url) =
      .ok (signedText n input.ip (toUpperCase input.method) (edgePath input.path)) := by
    refine edgeSigningString_ok.mpr ⟨n, _, time, (edgeMethod_congr sameCase).trans letters, address, ?_⟩
    rw [edgePath_edgePath, samePath]
  have nonempty : normalizeEdgeSecret input.secret ≠ [] := by
    intro empty
    have := signable.secret
    rw [empty] at this
    cases this
  have header : ∀ {name value}, req.headers name = some (.one value) → only req.headers name = some value := by
    intro name value given
    rw [only, given]
  apply Passes.accepted
  refine ⟨header arrives.ip, header arrives.ts, header arrives.sig, shaped, isSig_base64url (digest _ _), address, methodGiven,
    urlGiven, ?_, by rw [natOf_natText]; exact remade, ?_, signable.literal⟩
  · rw [natOf_natText]
    exact skew_within double small near
  · rw [fromBase64url_base64url, validTag, List.any_eq_true]
    exact ⟨_, mem_secrets read nonempty holds, decide_eq_true rfl⟩

theorem signed_of_accepted {calls : List SigningCall} {config : EdgeConfig} {req : EdgeRequest} {nowSeconds : Number}
    {ip : Text} (unforged : ∀ sig, only req.headers edgeSigHeader = some sig → Unforged hmac calls config (fromBase64url sig))
    (accepted : verifyEdgeClientIp hmac isIP req config nowSeconds = .ok (.accepted ip)) :
    ∃ call ∈ calls, SignedFor hmac call config req ip := by
  obtain ⟨ts, sig, method, url, message, passes⟩ := passes_of_accepted accepted
  obtain ⟨secret, configured, tag⟩ := List.any_eq_true.mp passes.tag_valid
  obtain ⟨call, called, headers, made, signed, string, key, bytes⟩ :=
    unforged sig passes.sig_header secret configured (utf8 message) (of_decide_eq_true tag)
  obtain ⟨times, ips, methods, paths⟩ := signed_bytes_injective string passes.message_made bytes
  rw [edgePath_edgePath] at paths
  obtain ⟨-, -, _, -, shape⟩ := signEdgeClientIp_ok.mp signed
  have time : numberText (call.input.ts call.clock) = ts := by
    rw [times, numberText_safe (Number.safeNat?_ofNat (natOf_lt_of_isTs passes.ts_shape)), natText_of_isTs passes.ts_shape]
  refine ⟨call, called, ⟨headers, signed, by rw [shape]; exact ips, by rw [passes.ts_header, shape, time]⟩,
    ⟨method, passes.method_given, methods⟩, ?_, ⟨secret, configured, toWellFormed_of_utf8 key⟩⟩
  refine ⟨url, passes.url_given, paths, ?_⟩
  intro left right
  rwa [toWellFormed_eq left, toWellFormed_eq right] at paths

/-! ### One signed request -/

namespace Sample

/-- A function that is `tag` at one key and message and nothing else's. -/
def pointHmac (key message tag : Bytes) : Bytes → Bytes → Bytes := fun k m =>
  if k = key ∧ m = message then tag else List.replicate 32 0

def secret : Text := text "current-secret-0123456789abcdef0123456789"

def ip : Text := text "203.0.113.7"

def isIPv4 (t : Text) : ℕ := if t = ip then 4 else 0

def input (method path : Text) (seconds : ℕ) : EdgeSignInput :=
  ⟨secret ++ [unit '\n'], ip, method, path, some (Number.ofNat (1000 * seconds))⟩

def request (headers : EdgeHeaders) (method url : Text) : EdgeRequest where
  headers name :=
    if name = edgeIpHeader then some (.one headers.ip)
    else if name = edgeTsHeader then some (.one headers.ts)
    else if name = edgeSigHeader then some (.one headers.sig)
    else none
  method := some method
  url := some url

def env : EdgeEnv := ⟨some secret, none⟩

def config : EdgeConfig := ⟨[secret]⟩

theorem pointHmac_length {key message tag : Bytes} (digest : tag.length = 32) (k m : Bytes) :
    (pointHmac key message tag k m).length = 32 := by
  unfold pointHmac
  split
  · exact digest
  · exact List.length_replicate

theorem dotted (t : Text) (literal : isIPv4 t ≠ 0) : t.any isDotOrColon = true := by
  have same : t = ip := by
    by_contra other
    exact literal (if_neg other)
  rw [same]
  decide

theorem request_arrives {method path method' url : Text} {seconds : ℕ} (headers : EdgeHeaders)
    (sameCase : SameUpToCase method' method) (samePath : edgePath url = edgePath path) :
    Arrives (input method path seconds) headers (request headers method' url) :=
  ⟨rfl, rfl, rfl, ⟨method', rfl, sameCase⟩, ⟨url, rfl, samePath⟩⟩

theorem ts_eq (method path : Text) {seconds : ℕ} (small : 1000 * seconds < 2 ^ 53) (clock : Number) :
    (input method path seconds).ts clock = Number.ofNat seconds := by
  have quotient : ((1000 * seconds : ℕ) : ℚ) / (1000 : ℕ) = (seconds : ℕ) := by
    push_cast
    ring
  have double := isDouble_nat (n := seconds) (by omega)
  change ((Number.ofNat (1000 * seconds)).divNat 1000).floor = Number.ofNat seconds
  rw [Number.ofNat_eq small, Number.divNat, quotient, ofRat_double double, Number.floor, Int.floor_natCast, Number.ofNat,
    Int.cast_natCast]

set_option maxRecDepth 2000 in
theorem trimmed : normalizeEdgeSecret (secret ++ [unit '\n']) = secret := rfl

theorem long : edgeSecretMinLength ≤ secret.length := by
  decide

theorem shaped : isEdgeIpText ip = true := by
  decide

theorem signingString_eq {method upper : Text} (path : Text) {seconds : ℕ} (small : 1000 * seconds < 2 ^ 53) (clock : Number)
    (letters : edgeMethod method = some upper) :
    (input method path seconds).signingString clock = .ok (signedText seconds ip upper (edgePath path)) := by
  refine edgeSigningString_ok.mpr ⟨seconds, upper, ?_, letters, shaped, rfl⟩
  rw [ts_eq method path small]
  exact Number.safeNat?_ofNat (by omega)

theorem read : readEdgeConfig env = .ok (some config) := by
  have current : normalizeEdgeSecret secret = secret := rfl
  unfold readEdgeConfig env
  dsimp only [Option.getD_some, Option.getD_none]
  rw [current, if_neg (by decide), if_neg (by decide), if_neg (by decide), if_pos (by decide)]
  rfl

theorem holds : Holds env (normalizeEdgeSecret (secret ++ [unit '\n'])) := by
  left
  rw [trimmed]
  decide

/-- HMAC-SHA256 as far as one signed string goes. -/
def hmacOf (seconds : ℕ) (upper path : Text) (tag : Bytes) : Bytes → Bytes → Bytes :=
  pointHmac (utf8 secret) (utf8 (signedText seconds ip upper (edgePath path))) tag

theorem hmacOf_self (seconds : ℕ) (upper path : Text) (tag : Bytes) :
    hmacOf seconds upper path tag (utf8 secret) (utf8 (signedText seconds ip upper (edgePath path))) = tag :=
  if_pos ⟨rfl, rfl⟩

theorem signed {method upper : Text} (path : Text) {seconds : ℕ} (small : 1000 * seconds < 2 ^ 53) (clock : Number)
    (letters : edgeMethod method = some upper) (tag : Bytes) :
    signEdgeClientIp (hmacOf seconds upper path tag) clock (input method path seconds) =
      .ok ⟨ip, natText seconds, base64url tag⟩ := by
  have made := signingString_eq path small clock letters
  have time : numberText ((input method path seconds).ts clock) = natText seconds := by
    rw [ts_eq method path small]
    exact numberText_safe (Number.safeNat?_ofNat (by omega))
  refine signEdgeClientIp_ok.mpr ⟨trimmed.symm ▸ long, shaped, _, made, ?_⟩
  have point : hmacOf seconds upper path tag (utf8 (normalizeEdgeSecret (secret ++ [unit '\n'])))
      (utf8 (signedText seconds ip upper (edgePath path))) = tag := by
    rw [trimmed, hmacOf_self]
  rw [time]
  exact congrArg (fun t => EdgeHeaders.mk ip (natText seconds) (base64url t)) point.symm

theorem signable {method : Text} (letters : isMethod method = true) (path : Text) (seconds : ℕ) :
    Signable isIPv4 (input method path seconds) where
  secret := trimmed.symm ▸ long
  literal := show isIPv4 ip ≠ 0 by decide
  short := show ip.length ≤ 45 by decide
  units := ip_units shaped
  method := letters

theorem signedAt (method path : Text) {seconds : ℕ} (late : 1 ≤ seconds) (small : 1000 * seconds < 2 ^ 53)
    (clock : Number) : SignedAt (input method path seconds) clock seconds where
  late := ⟨_, _, Number.ofNat_eq small, by push_cast; linarith [show (1 : ℚ) ≤ seconds by exact_mod_cast late]⟩
  seconds := ts_eq method path small clock

/-- A tag of one signing call, and of nothing else, is not forged. -/
theorem unforged {method upper : Text} (path : Text) {seconds : ℕ} (small : 1000 * seconds < 2 ^ 53) (clock : Number)
    (letters : edgeMethod method = some upper) {tag : Bytes} (real : tag ≠ List.replicate 32 0) :
    Unforged (hmacOf seconds upper path tag) [⟨clock, input method path seconds⟩] config tag := by
  intro k configured m same
  have made := signingString_eq path small clock letters
  unfold hmacOf pointHmac at same
  split at same
  · rename_i point
    have key : utf8 (normalizeEdgeSecret (secret ++ [unit '\n'])) = utf8 k := by rw [trimmed, point.1]
    exact ⟨_, List.mem_singleton.mpr rfl, _, _, signed path small clock letters tag, made, key, point.2.symm⟩
  · exact (real same.symm).elim

/-- HMAC-SHA256 of `1760000000|203.0.113.7|POST|/v1/things` under the secret. -/
def tag : Bytes :=
  [88, 40, 35, 231, 99, 10, 16, 103, 16, 135, 110, 187, 49, 113, 48, 197, 40, 53, 25, 224, 126, 47, 119, 63, 180, 146, 19,
    18, 21, 235, 93, 130]

/-- HMAC-SHA256 of `1000000000000|203.0.113.7|GET|/`. -/
def farTag : Bytes :=
  [162, 95, 124, 120, 11, 210, 166, 19, 121, 9, 21, 252, 53, 76, 9, 132, 181, 175, 83, 129, 146, 241, 223, 216, 35, 199, 43,
    187, 71, 124, 208, 72]

/-- HMAC-SHA256 of `1760000000|203.0.113.7|GET|/` and U+FFFD. -/
def surrogateTag : Bytes :=
  [94, 222, 5, 203, 67, 119, 10, 235, 122, 41, 220, 169, 59, 188, 192, 60, 78, 133, 41, 87, 157, 58, 114, 159, 188, 203, 54,
    178, 239, 14, 64, 93]

end Sample

/-- Signer and verifier agree, both ways, and the signed string is an injective encoding of its fields. -/
theorem signer_and_verifier_agree (digest : ∀ key message, (hmac key message).length = 32)
    (dotted : ∀ ip, isIP ip ≠ 0 → ip.any isDotOrColon = true) :
    (∀ input clock n, Signable isIP input → SignedAt input clock n → n < 10 ^ 12 →
      ∃ headers, signEdgeClientIp hmac clock input = .ok headers ∧
        ∀ env config req c (double : IsDouble c), readEdgeConfig env = .ok (some config) →
          Holds env (normalizeEdgeSecret input.secret) → Arrives input headers req → |c - n| ≤ edgeMaxSkewSeconds →
          verifyEdgeClientIp hmac isIP req config (.finite c double) = .ok (.accepted input.ip)) ∧
    (∀ calls config req nowSeconds ip,
      (∀ sig, only req.headers edgeSigHeader = some sig → Unforged hmac calls config (fromBase64url sig)) →
      verifyEdgeClientIp hmac isIP req config nowSeconds = .ok (.accepted ip) →
      ∃ call ∈ calls, SignedFor hmac call config req ip) ∧
    (∀ ts ts' ip ip' method method' path path' message, edgeSigningString ts ip method path = .ok message →
      edgeSigningString ts' ip' method' path' = .ok message →
      ts = ts' ∧ ip = ip' ∧ edgeMethod method = edgeMethod method' ∧ edgePath path = edgePath path') :=
  ⟨fun _ _ _ signable at_ early => accepted_of_signed digest dotted signable at_ early,
    fun _ _ _ _ _ unforged accepted => signed_of_accepted unforged accepted,
    fun _ _ _ _ _ _ _ _ _ made made' => edgeSigningString_injective made made'⟩

open Sample in
theorem signer_and_verifier_agree_once :
    ∃ headers, signEdgeClientIp (hmacOf 1760000000 (text "POST") (text "/v1/things") tag) .nan
        (input (text "post") (text "/v1/things") 1760000000) = .ok headers ∧
      verifyEdgeClientIp (hmacOf 1760000000 (text "POST") (text "/v1/things") tag) isIPv4
        (request headers (text "POST") (text "/v1/things?page=2")) config (Number.ofNat 1760000030) = .ok (.accepted ip) ∧
      ∃ call ∈ [⟨.nan, input (text "post") (text "/v1/things") 1760000000⟩],
        SignedFor (hmacOf 1760000000 (text "POST") (text "/v1/things") tag) call config
          (request headers (text "POST") (text "/v1/things?page=2")) ip := by
  have letters : edgeMethod (text "post") = some (text "POST") := by decide
  have digest : ∀ key message, (hmacOf 1760000000 (text "POST") (text "/v1/things") tag key message).length = 32 :=
    pointHmac_length rfl
  obtain ⟨forth, back, -⟩ := signer_and_verifier_agree digest dotted
  obtain ⟨headers, sent, accepts⟩ := forth (input (text "post") (text "/v1/things") 1760000000) .nan 1760000000
    (signable (by decide) _ _) (signedAt _ _ (by norm_num) (by norm_num) _) (by norm_num)
  have shape : headers = ⟨ip, natText 1760000000, base64url tag⟩ :=
    Except.ok.inj (sent.symm.trans (signed (text "/v1/things") (by norm_num) .nan letters tag))
  have arrives : Arrives (input (text "post") (text "/v1/things") 1760000000) headers
      (request headers (text "POST") (text "/v1/things?page=2")) :=
    request_arrives headers (by unfold SameUpToCase; decide) (by decide)
  have accepted := accepts env config _ (1760000030 : ℕ) (isDouble_nat (by norm_num)) read holds arrives
    (by norm_num [edgeMaxSkewSeconds])
  rw [← Number.ofNat_eq (by norm_num)] at accepted
  refine ⟨headers, sent, accepted, back _ _ _ _ _ ?_ accepted⟩
  intro sig given
  have same : sig = base64url tag := by
    rw [shape] at given
    exact (Option.some.inj given).symm
  rw [same, fromBase64url_base64url]
  exact unforged (text "/v1/things") (by norm_num) .nan letters (by decide)

open Sample in
/-- A time of thirteen digits is signed and refused, and one lone surrogate passes for another. -/
theorem far_time_refused_and_surrogates_confused :
    (∃ headers, Signable isIPv4 (input (text "GET") (text "/") (10 ^ 12)) ∧
      SignedAt (input (text "GET") (text "/") (10 ^ 12)) .nan (10 ^ 12) ∧
      signEdgeClientIp (hmacOf (10 ^ 12) (text "GET") (text "/") farTag) .nan (input (text "GET") (text "/") (10 ^ 12)) =
        .ok headers ∧
      readEdgeConfig env = .ok (some config) ∧ Holds env (normalizeEdgeSecret (secret ++ [unit '\n'])) ∧
      Arrives (input (text "GET") (text "/") (10 ^ 12)) headers (request headers (text "GET") (text "/")) ∧
      verifyEdgeClientIp (hmacOf (10 ^ 12) (text "GET") (text "/") farTag) isIPv4
        (request headers (text "GET") (text "/")) config (Number.ofNat (10 ^ 12)) = .ok (.rejected .malformed)) ∧
    (∃ headers, signEdgeClientIp (hmacOf 1760000000 (text "GET") [unit '/', 0xD800] surrogateTag) .nan
        (input (text "GET") [unit '/', 0xD800] 1760000000) = .ok headers ∧
      Unforged (hmacOf 1760000000 (text "GET") [unit '/', 0xD800] surrogateTag)
        [⟨.nan, input (text "GET") [unit '/', 0xD800] 1760000000⟩] config (fromBase64url headers.sig) ∧
      verifyEdgeClientIp (hmacOf 1760000000 (text "GET") [unit '/', 0xD800] surrogateTag) isIPv4
        (request headers (text "GET") [unit '/', 0xD801]) config (Number.ofNat 1760000000) = .ok (.accepted ip) ∧
      edgePath [unit '/', 0xD800] ≠ edgePath [unit '/', 0xD801]) := by
  have letters : edgeMethod (text "GET") = some (text "GET") := by decide
  constructor
  · have small : 1000 * 10 ^ 12 < 2 ^ 53 := by norm_num
    have sent := signed (text "/") small .nan letters farTag
    have late : isTs (natText (10 ^ 12)) = false := by
      rw [Bool.eq_false_iff, Ne, isTs_natText]
      omega
    exact ⟨_, signable (by decide) _ _, signedAt _ _ (by norm_num) small _, sent, read, holds, request_arrives _ rfl rfl,
      verifyEdgeClientIp_malformed rfl rfl rfl late⟩
  · have small : 1000 * 1760000000 < 2 ^ 53 := by norm_num
    have sent := signed [unit '/', 0xD800] small .nan letters surrogateTag
    have made : edgeSigningString (Number.ofNat (natOf (natText 1760000000))) ip (text "GET") (edgePath [unit '/', 0xD801]) =
        .ok (signedText 1760000000 ip (text "GET") (edgePath [unit '/', 0xD801])) := by
      rw [natOf_natText]
      exact edgeSigningString_ok.mpr
        ⟨1760000000, text "GET", Number.safeNat?_ofNat (by norm_num), letters, shaped, by rw [edgePath_edgePath]⟩
    -- both surrogates are written as U+FFFD, so the signed bytes are the same
    have bytes : utf8 (signedText 1760000000 ip (text "GET") (edgePath [unit '/', 0xD801])) =
        utf8 (signedText 1760000000 ip (text "GET") (edgePath [unit '/', 0xD800])) := by decide +kernel
    refine ⟨_, sent, ?_, ?_, by decide⟩
    · rw [fromBase64url_base64url]
      exact unforged _ small .nan letters (by decide)
    · apply Passes.accepted
      refine ⟨rfl, rfl, rfl, isTs_natText.mpr (by norm_num), isSig_base64url rfl, shaped, rfl, rfl, ?_, made, ?_, by decide⟩
      · have same : |((1760000000 : ℕ) : ℚ) - (1760000000 : ℕ)| ≤ edgeMaxSkewSeconds := by norm_num
        have fresh := skew_within (isDouble_nat (show 1760000000 < 2 ^ 53 by norm_num)) (by norm_num) same
        rw [← Number.ofNat_eq (by norm_num)] at fresh
        rw [natOf_natText]
        exact fresh
      · rw [fromBase64url_base64url, validTag, List.any_eq_true]
        refine ⟨secret, List.mem_singleton.mpr rfl, decide_eq_true ?_⟩
        rw [bytes]
        exact hmacOf_self _ _ _ _

end Edge
