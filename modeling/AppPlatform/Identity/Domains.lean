import AppPlatform.Lib.Text

/-!
# Domains of addresses

`staff.domains`, the domains an organization's identity provider claims, and the domains that are
reserved against passwords and consumer providers. `lower` stands for `String.prototype.toLowerCase`.
-/

namespace Identity
open Js

section
variable (lower : Text → Text)

/-- The domain of an address with one `@`, else nothing. -/
def emailDomain (email : Text) : Text :=
  match email.splitOn (unit '@') with
  | [_, domain] => lower (trim domain)
  | _ => []

inductive DomainList where
  | text (domains : Text)
  | list (domains : List Text)
  | undefined

def parseDomains (domains : DomainList) : List Text :=
  let list := match domains with
    | .text domains => domains.splitOn (unit ',')
    | .list domains => domains
    | .undefined => []
  (list.map fun d => lower (trim d)).filter (· ≠ [])

/-- `d.endsWith('.' + host)` -/
def endsWithHost (d host : Text) : Bool := (unit '.' :: host).isSuffixOf d

/-- Exact match or sub-domain. -/
def domainIn (domain : Text) (domains : DomainList) : Bool :=
  let d := lower (trim domain)
  if d = [] then false else (parseDomains lower domains).any fun allowed => d = allowed || endsWithHost d allowed

def emailInDomains (email : Text) (domains : DomainList) : Bool := domainIn lower (emailDomain lower email) domains

/-! ### Staff domains -/

def WILDCARD : Text := text "*."

/-- `[a-z0-9]` -/
def isAlnum (u : CodeUnit) : Bool := isLower u || isDigit u

/-- `[a-z0-9](?:[a-z0-9-]{0,61}[a-z0-9])?` -/
def isLabel : Text → Bool
  | [] => false
  | u :: rest =>
    isAlnum u && match rest.getLast? with
      | none => true
      | some last => isAlnum last && rest.dropLast.length ≤ 61 && rest.dropLast.all fun v => isAlnum v || v = unit '-'

/-- `HOSTNAME.test`: labels between dots. -/
def isHostname (t : Text) : Bool := (t.splitOn (unit '.')).all isLabel

def SHARED_SECOND_LEVEL : List Text :=
  [text "com", text "net", text "org", text "edu", text "gov", text "ac", text "co", text "mil", text "or", text "ne",
    text "go", text "gob", text "gv"]

def SHARED_HOSTS : List Text :=
  [text "github.io", text "pages.dev", text "workers.dev", text "vercel.app", text "netlify.app", text "herokuapp.com",
    text "azurewebsites.net", text "blogspot.com", text "cloudfront.net", text "amazonaws.com"]

def isSharedSuffix (host : Text) : Bool :=
  match host.splitOn (unit '.') with
  | [second, _] => SHARED_SECOND_LEVEL.contains second || SHARED_HOSTS.contains host
  | _ => SHARED_HOSTS.contains host

/-- What is wrong with an entry: `none` is not a string. -/
def entryProblem : Option Text → Option Text
  | none => some (text "every entry must be a string")
  | some entry =>
    let value := lower (trim entry)
    let wildcard := WILDCARD.isPrefixOf value
    let host := if wildcard then value.drop 2 else value
    if !isHostname host then
      some (text "\"" ++ entry ++ text "\" is not a domain name (use \"qnsc.vn\", or \"*.qnsc.vn\" for its sub-domains)")
    else if wildcard && !host.contains (unit '.') then
      some (text "\"" ++ entry ++
        text "\" would admit a whole top-level domain; a \"*.\" entry needs a registrable domain (\"*.qnsc.vn\")")
    else if wildcard && isSharedSuffix host then
      some (text "\"" ++ entry ++ text "\" would admit every registrant under a public suffix; a \"*.\" entry needs a domain " ++
        text "your company owns (\"*.qnsc.vn\"), and a shared suffix is not one")
    else none

/-- What is wrong with the first bad entry. -/
def staffDomainsProblem (domains : List (Option Text)) : Option Text := domains.findSome? (entryProblem lower)

def normalizeStaffDomains (domains : List Text) : List Text := (domains.map fun d => lower (trim d)).filter (· ≠ [])

def entryMatches (d entry : Text) : Bool := if WILDCARD.isPrefixOf entry then (entry.drop 1).isSuffixOf d else d = entry

def staffDomainIn (domain : Text) (entries : List Text) : Bool :=
  let d := lower (trim domain)
  if !isHostname d then false else entries.any (entryMatches d)

def staffEmailIn (email : Text) (entries : List Text) : Bool := staffDomainIn lower (emailDomain lower email) entries

def bareDomain (entry : Text) : Text := if WILDCARD.isPrefixOf entry then entry.drop 2 else entry

def staffReservedDomains (entries : List Text) : List Text := entries.map bareDomain

/-- `providers` are the domains of the verified providers. -/
def reservedDomainCheck (staffDomains : List Text) (withSso : Bool) (providers : List DomainList) (email : Text) : Bool :=
  let domain := emailDomain lower email
  if domain = [] && email.contains (unit '@') then true
  else if domainIn lower domain (.list staffDomains) then true
  else if !withSso then false
  else providers.any fun p => !(parseDomains lower p).isEmpty && domainIn lower domain p

structure ApiError where
  code : Text
  message : Text
  deriving DecidableEq

/-- The refusal of a password sign-up, if any. An address that is not a string is left to the library. -/
def companyDomainSignUpGuard (isReserved : Text → Bool) (email : Option Text) : Option ApiError :=
  match email with
  | none => none
  | some email =>
    if !isReserved email then none
    else some ⟨text "USE_COMPANY_SIGN_IN",
      text "This email domain signs in with the company account. Use \"Sign in with your company account\"."⟩

structure UserInfo where
  email : Option Text
  emailVerified : Bool

/-- `getUserInfo` of a consumer provider: what the provider says, unless the address is reserved. -/
def getUserInfo (isReserved : Text → Bool) (info : Option UserInfo) : Option UserInfo :=
  match info with
  | none => none
  | some user =>
    match user.email with
    | none => info
    | some email => if email = [] then info else if isReserved email then none else info

/-- The domain is no string, or a string. -/
def reservedClaim (staffDomains : List Text) : Option Text → Bool
  | none => false
  | some domain => (parseDomains lower (.text domain)).any fun d =>
      domainIn lower d (.list staffDomains) || staffDomains.any fun staff => domainIn lower staff (.text d)

structure Registration where
  /-- `/sso/register`, not `/sso/update-provider`. -/
  register : Bool
  samlConfig : Bool
  organizationId : Option Text
  domain : Option Text
  /-- What is wrong with a URL of the provider, if anything. -/
  urls : Option ApiError

def ssoRegistrationGuard (staffDomains : List Text) (body : Registration) : Option ApiError :=
  if body.samlConfig then some ⟨text "SAML_NOT_SUPPORTED", text "SAML is not enabled."⟩
  else if body.register && body.organizationId.all (· = []) then
    some ⟨text "SSO_ORGANIZATION_REQUIRED", text "An SSO provider must belong to an organization you own or administer."⟩
  else if reservedClaim lower staffDomains body.domain then some ⟨text "SSO_DOMAIN_RESERVED", text "That domain is reserved."⟩
  else body.urls

/-- The check of `resolveUser`: the address is inside the domain of its provider. -/
def resolvedInside (email : Text) (domain : DomainList) : Bool := domainIn lower (emailDomain lower (lower email)) domain

end

end Identity
