import AppPlatform.Lib.Base64
import AppPlatform.Lib.NumberText

/-!
# The signed edge client IP

The worker at the edge signs the address it saw, and the API believes the address only if the
signature verifies for this request. HMAC-SHA256 and `isIP` are the platform's.
-/

namespace Edge

open Js

def edgeHeaderPrefix : Text := text "x-qnsc-edge-"

def edgeIpHeader : Text := text "x-qnsc-edge-ip"

def edgeTsHeader : Text := text "x-qnsc-edge-ts"

def edgeSigHeader : Text := text "x-qnsc-edge-sig"

def edgeMaxSkewSeconds : ℕ := 60

def edgeSecretMinLength : ℕ := 32

def separator : CodeUnit := unit '|'

/-- `/[?#]/` -/
def endsPath (u : CodeUnit) : Bool := u = unit '?' || u = unit '#'

def edgePath (raw : Text) : Text :=
  let path := raw.takeWhile fun u => !endsPath u
  if path = [] then text "/" else path

def normalizeEdgeSecret (secret : Text) : Text := trim secret

/-- `/^[A-Za-z]+$/` -/
def isMethod (method : Text) : Bool := method ≠ [] && method.all isLetter

def edgeMethod (method : Text) : Option Text := if isMethod method then some (toUpperCase method) else none

/-- `/[0-9a-fA-F:.]/` -/
def isIpUnit (u : CodeUnit) : Bool :=
  isDigit u || (unit 'a' ≤ u && u ≤ unit 'f') || (unit 'A' ≤ u && u ≤ unit 'F') || u = unit ':' || u = unit '.'

def isDotOrColon (u : CodeUnit) : Bool := u = unit '.' || u = unit ':'

def isEdgeIpText (ip : Text) : Bool := ip.length ≤ 45 && (ip ≠ [] && ip.all isIpUnit) && ip.any isDotOrColon

def edgeSigningString (ts : Number) (ip method path : Text) : Except Text Text :=
  match edgeMethod method with
  | none => .error (text "The edge method must be letters only.")
  | some upper =>
    if ts.safeNat? = none then .error (text "The edge timestamp is not a time.")
    else if isEdgeIpText ip then
      .ok (numberText ts ++ separator :: (ip ++ separator :: (upper ++ separator :: edgePath path)))
    else .error (text "The edge address is not shaped like an IP address.")

structure EdgeSignInput where
  secret : Text
  ip : Text
  method : Text
  path : Text
  /-- Milliseconds since the epoch; the clock's when left out. -/
  now : Option Number

structure EdgeHeaders where
  ip : Text
  ts : Text
  sig : Text

/-- `+` and `/` to their URL-safe units. -/
def urlSafe (u : CodeUnit) : CodeUnit := if u = unit '+' then unit '-' else if u = unit '/' then unit '_' else u

def base64url (bytes : Bytes) : Text := ((btoa bytes).map urlSafe).rdropWhile (· == unit '=')

def EdgeSignInput.ts (input : EdgeSignInput) (clock : Number) : Number := ((input.now.getD clock).divNat 1000).floor

def EdgeSignInput.signingString (input : EdgeSignInput) (clock : Number) : Except Text Text :=
  edgeSigningString (input.ts clock) input.ip input.method input.path

def signEdgeClientIp (hmac : Bytes → Bytes → Bytes) (clock : Number) (input : EdgeSignInput) : Except Text EdgeHeaders :=
  let secret := normalizeEdgeSecret input.secret
  if secret.length < edgeSecretMinLength then .error (text "The edge secret must be at least 32 characters.")
  else if isEdgeIpText input.ip then do
    let message ← input.signingString clock
    return ⟨input.ip, numberText (input.ts clock), base64url (hmac (utf8 secret) (utf8 message))⟩
  else .error (text "The edge client IP is not an IP address.")

/-! ### The API -/

inductive EdgeRejection where
  | incomplete
  | malformed
  | unverifiable
  | stale
  | badSignature
  | notIp
  deriving DecidableEq

/-- A header of a request as Node gives it: a string, or an array for a header that may repeat. -/
inductive HeaderValue where
  | one (value : Text)
  | many (values : List Text)

/-- The slice of a request the verifier reads; `none` for what is not there or no string. -/
structure EdgeRequest where
  headers : Text → Option HeaderValue
  method : Option Text
  url : Option Text

structure EdgeConfig where
  secrets : List Text

/-- The two environment variables that hold the secrets. -/
structure EdgeEnv where
  current : Option Text
  previous : Option Text

/-- A secret that is set must be long enough. -/
def usable (secret : Text) : Bool := secret = [] || edgeSecretMinLength ≤ secret.length

def tooShort (name : String) : Text :=
  text name ++ text " must be at least 32 characters: it is a signing key."

def readEdgeConfig (env : EdgeEnv) : Except Text (Option EdgeConfig) :=
  let current := normalizeEdgeSecret (env.current.getD [])
  let previous := normalizeEdgeSecret (env.previous.getD [])
  if current = [] then
    if previous = [] then .ok none
    else .error (text "EDGE_CLIENT_IP_SECRET_PREVIOUS is set but EDGE_CLIENT_IP_SECRET is not.")
  else if !usable current then .error (tooShort "EDGE_CLIENT_IP_SECRET")
  else if !usable previous then .error (tooShort "EDGE_CLIENT_IP_SECRET_PREVIOUS")
  else .ok (some ⟨if previous = [] then [current] else [current, previous]⟩)

def only (headers : Text → Option HeaderValue) (name : Text) : Option Text :=
  match headers name with
  | some (.one value) => some value
  | _ => none

/-- `/^[1-9]\d{0,11}$/` -/
def isTs (ts : Text) : Bool := ts ≠ [] && ts.all isDigit && ts.head? ≠ some (unit '0') && ts.length ≤ 12

def isSigUnit (u : CodeUnit) : Bool := isLetter u || isDigit u || u = unit '_' || u = unit '-'

/-- `/^[A-Za-z0-9_-]{43}$/` -/
def isSig (sig : Text) : Bool := sig.length = 43 && sig.all isSigUnit

/-- What the verifier answers when it does not throw: no edge headers, the reason of a refusal, or the address. -/
inductive EdgeVerdict where
  | absent
  | rejected (reason : EdgeRejection)
  | accepted (ip : Text)
  deriving DecidableEq

/-- The signature check: every secret is tried. -/
def validTag (hmac : Bytes → Bytes → Bytes) (secrets : List Text) (given : Bytes) (message : Text) : Bool :=
  secrets.any fun secret => hmac (utf8 secret) (utf8 message) = given

/-- The verdict on a signature that is fresh and belongs to a request with a method and a path. -/
def judgeTag (hmac : Bytes → Bytes → Bytes) (isIP : Text → ℕ) (secrets : List Text) (ip sig input : Text) : EdgeVerdict :=
  let given := fromBase64url sig
  if !validTag hmac secrets given input then .rejected .badSignature
  else if isIP ip = 0 then .rejected .notIp
  else .accepted ip

/-- The checks once the three headers are there and have the right shape. -/
def verifyShaped (hmac : Bytes → Bytes → Bytes) (isIP : Text → ℕ) (config : EdgeConfig) (nowSeconds : Number)
    (ip ts sig method url : Text) : Except Text EdgeVerdict :=
  let signedAt := Number.ofNat (natOf ts)
  if edgeMethod method = none then .ok (.rejected .unverifiable)
  else if (nowSeconds.minus signedAt).abs.exceeds edgeMaxSkewSeconds then .ok (.rejected .stale)
  else (edgeSigningString signedAt ip method (edgePath url)).map (judgeTag hmac isIP config.secrets ip sig)

def verifyEdgeClientIp (hmac : Bytes → Bytes → Bytes) (isIP : Text → ℕ) (req : EdgeRequest) (config : EdgeConfig)
    (nowSeconds : Number) : Except Text EdgeVerdict :=
  match only req.headers edgeIpHeader, only req.headers edgeTsHeader, only req.headers edgeSigHeader with
  | none, none, none => .ok .absent
  | some ip, some ts, some sig =>
    if !isTs ts || !isSig sig || !isEdgeIpText ip then .ok (.rejected .malformed)
    else
      match req.method, req.url with
      | some method, some url => verifyShaped hmac isIP config nowSeconds ip ts sig method url
      | _, _ => .ok (.rejected .unverifiable)
  | _, _, _ => .ok (.rejected .incomplete)

end Edge
