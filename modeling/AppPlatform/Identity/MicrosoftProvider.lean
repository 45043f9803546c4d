import AppPlatform.Identity.StaffDomains
import AppPlatform.Lib.Value

/-!
# Signing in with Microsoft

`getUserInfo` of the staff provider reads the claims of an id_token, asks the tables, and either returns a user or
`null`. Two things must not happen on the way to `null`: the hook that replaces an unverified account, and keeping the
claims for the session. `lower` is `toLowerCase`.
-/

namespace Identity.Microsoft
open Js

/-- The claims of a decoded token: an object that came out of JSON. -/
abbrev Claims := List (Text × Json)

structure StaffOptions where
  tenantId : Text
  domains : List Text
  allowGuests : Option Bool
  requireUpnOnStaffDomain : Option Bool

structure Account where
  providerId : Text
  accountId : Text

structure Existing where
  userId : Option Text
  accounts : List Account

structure SecurityEvent where
  name : Text
  userId : Option Text
  detail : List (Text × Text)

/-- What the caller hands in; each of these is a promise and may be rejected. -/
structure Hooks (ε : Type*) where
  onVerifiedEmail : Text → Except ε Unit
  lookup : Text → Except ε (Option Existing)
  emit : Option (SecurityEvent → Except ε Unit)
  knownIdentity : Option (Text → Except ε Bool)
  logger : Bool

structure StaffSignInClaims where
  oid : Text
  tid : Text
  email : Text
  guest : Bool
  roles : List Text

inductive Effect where
  | refuseCallbackWith (code : Text)
  | emit (event : SecurityEvent)
  | warn (message code : Text)
  | onVerifiedEmail (email : Text)
  | rememberStaffSignIn (claims : StaffSignInClaims)

structure UserInfo where
  id : Text
  name : Text
  email : Text
  emailVerified : Bool
  data : Claims

/-- What was done, in order, and how it ended: with an exception, with `null` or with a user. -/
structure Run (ε : Type*) where
  effects : List Effect
  result : Except ε (Option UserInfo)

def stringClaim (claims : Claims) (name : String) : Option Text :=
  match claims.lookup (text name) with
  | some (.str s) => some s
  | _ => none

def upnClaim (claims : Claims) : Option Text :=
  ((stringClaim claims "upn").filter fun v => v.contains (unit '@')).orElse fun _ =>
    (stringClaim claims "preferred_username").filter fun v => v.contains (unit '@')

/-- `text.includes(part)` -/
def includes (t part : Text) : Bool := t.tails.any fun rest => part.isPrefixOf rest

def isEntraGuest (claims : Claims) : Bool :=
  (match claims.lookup (text "acct") with
    | some (.num x) => x.isFinite 1
    | some (.str s) => s = text "1"
    | _ => false) ||
  ((stringClaim claims "idp").any fun idp => stringClaim claims "iss" ≠ some idp) ||
  [stringClaim claims "upn", stringClaim claims "preferred_username"].any fun v => v.any fun v => includes v (text "#EXT#")

def ROLE_LENGTH : ℕ := 256

def ROLE_COUNT : ℕ := 200

/-- The loop over the claim, with the set so far. -/
def collectRoles : List Json → List Text → List Text
  | [], roles => roles
  | role :: rest, roles =>
    let roles := match role with
      | .str r => if 0 < r.length ∧ r.length ≤ ROLE_LENGTH ∧ r ∉ roles then roles ++ [r] else roles
      | _ => roles
    if ROLE_COUNT ≤ roles.length then roles else collectRoles rest roles

def validRoles : Option Json → List Text
  | some (.arr items) => collectRoles items []
  | _ => []

section
variable (lower : Text → Text)

def upnSuffix (claims : Claims) : Option Text :=
  ((upnClaim claims).map fun upn => lower (trim ((upn.splitOn (unit '@')).getLast?.getD []))).filter fun suffix =>
    suffix ≠ [] && suffix.length ≤ 100 && suffix.all isHostUnit

def upnOnStaffDomain (claims : Claims) (staffDomains : List Text) : Bool :=
  (upnClaim claims).any fun candidate => staffEmailIn lower candidate staffDomains

/-! ### The decision -/

def Existing.holds (existing : Existing) (oid : Text) : Bool :=
  existing.accounts.any fun a => a.providerId = text "microsoft" && a.accountId = oid

variable {ε : Type*}

/-- What is done so far, and `null`. -/
def refuse (effects : List Effect) : Run ε := ⟨effects, .ok none⟩

/-- `await hooks.emit?.(event)` and then the rest. -/
def Hooks.emitting (hooks : Hooks ε) (effects : List Effect) (event : SecurityEvent) (rest : List Effect → Run ε) : Run ε :=
  match hooks.emit with
  | none => rest effects
  | some emit =>
    match emit event with
    | .error e => ⟨effects ++ [.emit event], .error e⟩
    | .ok _ => rest (effects ++ [.emit event])

def upnWarning (suffix : Option Text) : Text :=
  match suffix with
  | none => text "A staff sign-in was refused: the id_token carries no UPN (upn / preferred_username)."
  | some suffix => text "A staff sign-in was refused: its UPN suffix \"" ++ suffix ++
      text "\" is not on staff.domains. Add it, or set staff.requireUpnOnStaffDomain: false."

def refuseUpn (hooks : Hooks ε) (claims : Claims) : Run ε :=
  let suffix := upnSuffix lower claims
  hooks.emitting [.refuseCallbackWith (text "UPN_NOT_ON_STAFF_DOMAIN")]
    ⟨text "staff.upn_refused", none, [(text "reason", if suffix = none then text "absent" else text "suffix_not_staff"),
      (text "suffix", suffix.getD [])]⟩
    fun effects => refuse (if hooks.logger then effects ++ [.warn (upnWarning suffix) (text "identity.upn_not_on_staff_domain")]
      else effects)

/-- Every check has passed. -/
def accept (staff : StaffOptions) (claims : Claims) (oid email : Text) (guest : Bool) (effects : List Effect) : Run ε :=
  ⟨effects ++ [.rememberStaffSignIn ⟨oid, staff.tenantId, email, guest, validRoles (claims.lookup (text "roles"))⟩],
    .ok (some ⟨oid, (stringClaim claims "name").getD email, email, !guest, claims⟩)⟩

def guestSignIn (staff : StaffOptions) (hooks : Hooks ε) (claims : Claims) (oid email : Text) : Run ε :=
  match hooks.lookup email with
  | .error e => ⟨[], .error e⟩
  | .ok none => accept staff claims oid email true []
  | .ok (some existing) =>
    if !existing.holds oid then refuse [.refuseCallbackWith (text "ACCOUNT_LINK_REQUIRED")]
    else accept staff claims oid email true []

/-- The address is the member's: an unverified account that holds it is replaced. -/
def verifyMember (staff : StaffOptions) (hooks : Hooks ε) (claims : Claims) (oid email : Text) : Run ε :=
  match hooks.onVerifiedEmail email with
  | .error e => ⟨[.onVerifiedEmail email], .error e⟩
  | .ok _ => accept staff claims oid email false [.onVerifiedEmail email]

def Existing.microsoft (existing : Existing) : List Account := existing.accounts.filter fun a => a.providerId = text "microsoft"

def Hooks.known (hooks : Hooks ε) (oid : Text) : Except ε Bool :=
  match hooks.knownIdentity with
  | none => .ok false
  | some knownIdentity => knownIdentity oid

def memberSignIn (staff : StaffOptions) (hooks : Hooks ε) (claims : Claims) (oid email : Text) : Run ε :=
  match hooks.known oid with
  | .error e => ⟨[], .error e⟩
  | .ok true => verifyMember staff hooks claims oid email
  | .ok false =>
    match hooks.lookup email with
    | .error e => ⟨[], .error e⟩
    | .ok none => verifyMember staff hooks claims oid email
    | .ok (some existing) =>
      if existing.microsoft ≠ [] && !existing.microsoft.any fun a => a.accountId = oid then
        hooks.emitting [.refuseCallbackWith (text "MICROSOFT_IDENTITY_CHANGED")]
          ⟨text "account.microsoft_link_refused", existing.userId, [(text "reason", text "different_oid")]⟩ refuse
      else verifyMember staff hooks claims oid email

def judge (staff : StaffOptions) (hooks : Hooks ε) (claims : Claims) : Run ε :=
  let staffDomains := normalizeStaffDomains lower staff.domains
  let requireUpn := staff.requireUpnOnStaffDomain.getD true
  if stringClaim claims "tid" ≠ some staff.tenantId then refuse []
  else
    match stringClaim claims "oid", stringClaim claims "email" with
    | some oid, some email =>
      let guest := isEntraGuest claims
      if guest && !staff.allowGuests.getD false then refuse []
      else if !guest && !staffEmailIn lower email staffDomains then refuse []
      else if !guest && requireUpn && !upnOnStaffDomain lower claims staffDomains then refuseUpn lower hooks claims
      else if guest then guestSignIn staff hooks claims oid email
      else memberSignIn staff hooks claims oid email
    | _, _ => refuse []

/-- `decodeJwt` is the library's; it may throw. -/
def getUserInfo (decodeJwt : Text → Except ε Claims) (staff : StaffOptions) (hooks : Hooks ε) (idToken : Option Text) : Run ε :=
  match idToken with
  | none => refuse []
  | some token =>
    if token = [] then refuse []
    else
      match decodeJwt token with
      | .error e => ⟨[], .error e⟩
      | .ok claims => judge lower staff hooks claims

/-! ### Who is let in -/

structure GuestAdmitted (staff : StaffOptions) (hooks : Hooks ε) (claims : Claims) (oid email : Text) : Prop where
  guest : isEntraGuest claims = true
  allowed : staff.allowGuests.getD false = true
  free : ∃ found, hooks.lookup email = .ok found ∧ ∀ existing ∈ found, existing.holds oid = true

structure MemberAdmitted (staff : StaffOptions) (hooks : Hooks ε) (claims : Claims) (oid email : Text) : Prop where
  member : isEntraGuest claims = false
  address : staffEmailIn lower email (normalizeStaffDomains lower staff.domains) = true
  upn : staff.requireUpnOnStaffDomain.getD true = true →
    upnOnStaffDomain lower claims (normalizeStaffDomains lower staff.domains) = true
  identity : hooks.known oid = .ok true ∨
    ∃ found, hooks.lookup email = .ok found ∧ ∀ existing ∈ found, existing.microsoft = [] ∨ existing.holds oid = true

structure Admitted (staff : StaffOptions) (hooks : Hooks ε) (claims : Claims) (info : UserInfo) : Prop where
  data : info.data = claims
  tenant : stringClaim claims "tid" = some staff.tenantId
  oid : stringClaim claims "oid" = some info.id
  email : stringClaim claims "email" = some info.email
  person : GuestAdmitted staff hooks claims info.id info.email ∨ MemberAdmitted lower staff hooks claims info.id info.email
  verified : info.emailVerified = true → isEntraGuest claims = false

def Effect.signsIn : Effect → Bool
  | .onVerifiedEmail _ | .rememberStaffSignIn _ => true
  | .refuseCallbackWith _ | .emit _ | .warn _ _ => false

/-- Nothing that signs in was done, except for an account that the hook failed to replace. -/
def Undone (hooks : Hooks ε) (e : ε) (effect : Effect) : Prop :=
  effect.signsIn = false ∨ ∃ email, effect = .onVerifiedEmail email ∧ hooks.onVerifiedEmail email = .error e

/-- A user is returned to who is let in; before `null` nothing was done that signs in. -/
structure Sound (staff : StaffOptions) (hooks : Hooks ε) (claims : Claims) (run : Run ε) : Prop where
  admitted : ∀ info, run.result = .ok (some info) → Admitted lower staff hooks claims info
  refused : run.result = .ok none → ∀ effect ∈ run.effects, effect.signsIn = false
  failed : ∀ e, run.result = .error e → ∀ effect ∈ run.effects, Undone hooks e effect

variable {lower} {staff : StaffOptions} {hooks : Hooks ε} {claims : Claims} {oid email : Text}

theorem sound_refuse {effects : List Effect} (quiet : ∀ effect ∈ effects, effect.signsIn = false) :
    Sound lower staff hooks claims (refuse effects) where
  admitted _ ok := by cases ok
  refused _ := quiet
  failed _ error := by cases error

theorem sound_error {effects : List Effect} {e : ε} (undone : ∀ effect ∈ effects, Undone hooks e effect) :
    Sound lower staff hooks claims ⟨effects, .error e⟩ where
  admitted _ ok := by cases ok
  refused ok := by cases ok
  failed _ error := by
    cases error
    exact undone

theorem sound_emitting {effects : List Effect} {event : SecurityEvent} {rest : List Effect → Run ε}
    (quiet : ∀ effect ∈ effects, effect.signsIn = false)
    (later : ∀ effects : List Effect, (∀ effect ∈ effects, effect.signsIn = false) →
      Sound lower staff hooks claims (rest effects)) :
    Sound lower staff hooks claims (hooks.emitting effects event rest) := by
  have emitted : ∀ effect ∈ effects ++ [.emit event], effect.signsIn = false := by
    intro effect member
    rcases List.mem_append.mp member with before | last
    · exact quiet effect before
    · rw [List.mem_singleton.mp last]
      rfl
  rw [Hooks.emitting]
  split
  · exact later effects quiet
  · split
    · exact sound_error fun effect member => .inl (emitted effect member)
    · exact later _ emitted

theorem sound_refuseUpn : Sound lower staff hooks claims (refuseUpn lower hooks claims) := by
  rw [refuseUpn]
  refine sound_emitting (List.forall_mem_singleton.mpr rfl) fun effects quiet => sound_refuse ?_
  split
  · intro effect member
    rcases List.mem_append.mp member with before | last
    · exact quiet effect before
    · rw [List.mem_singleton.mp last]
      rfl
  · exact quiet

theorem sound_accept {guest : Bool} {effects : List Effect} (tenant : stringClaim claims "tid" = some staff.tenantId)
    (hasOid : stringClaim claims "oid" = some oid) (hasEmail : stringClaim claims "email" = some email)
    (kind : isEntraGuest claims = guest)
    (person : GuestAdmitted staff hooks claims oid email ∨ MemberAdmitted lower staff hooks claims oid email) :
    Sound lower staff hooks claims (accept staff claims oid email guest effects) where
  admitted info ok := by
    obtain rfl := Option.some.inj (Except.ok.inj ok)
    refine ⟨rfl, tenant, hasOid, hasEmail, person, fun verified => ?_⟩
    have flag : (!guest) = true := verified
    rw [Bool.not_eq_true'] at flag
    rw [kind, flag]
  refused ok := by cases ok
  failed _ error := by cases error

theorem sound_guestSignIn (tenant : stringClaim claims "tid" = some staff.tenantId) (hasOid : stringClaim claims "oid" = some oid)
    (hasEmail : stringClaim claims "email" = some email) (guest : isEntraGuest claims = true)
    (allowed : staff.allowGuests.getD false = true) : Sound lower staff hooks claims (guestSignIn staff hooks claims oid email) := by
  rw [guestSignIn]
  split
  · exact sound_error (List.forall_mem_nil _)
  · rename_i asked
    refine sound_accept tenant hasOid hasEmail guest (.inl ⟨guest, allowed, none, asked, ?_⟩)
    exact fun existing found => by cases found
  · rename_i existing asked
    split
    · exact sound_refuse (List.forall_mem_singleton.mpr rfl)
    · rename_i same
      rw [Bool.not_eq_true', Bool.not_eq_false] at same
      refine sound_accept tenant hasOid hasEmail guest (.inl ⟨guest, allowed, some existing, asked, ?_⟩)
      rintro other found
      cases found
      exact same

theorem sound_verifyMember (tenant : stringClaim claims "tid" = some staff.tenantId) (hasOid : stringClaim claims "oid" = some oid)
    (hasEmail : stringClaim claims "email" = some email) (admitted : MemberAdmitted lower staff hooks claims oid email) :
    Sound lower staff hooks claims (verifyMember staff hooks claims oid email) := by
  rw [verifyMember]
  split
  · rename_i e threw
    exact sound_error (List.forall_mem_singleton.mpr (.inr ⟨email, rfl, threw⟩))
  · exact sound_accept tenant hasOid hasEmail admitted.member (.inr admitted)

theorem holds_iff {existing : Existing} : existing.holds oid = true ↔ ∃ a ∈ existing.microsoft, a.accountId = oid := by
  simp only [Existing.holds, Existing.microsoft, List.any_eq_true, List.mem_filter, Bool.and_eq_true, decide_eq_true_eq, and_assoc]

theorem sound_memberSignIn (tenant : stringClaim claims "tid" = some staff.tenantId) (hasOid : stringClaim claims "oid" = some oid)
    (hasEmail : stringClaim claims "email" = some email)
    (checked : (hooks.known oid = .ok true ∨ ∃ found, hooks.lookup email = .ok found ∧
      ∀ existing ∈ found, existing.microsoft = [] ∨ existing.holds oid = true) →
        MemberAdmitted lower staff hooks claims oid email) :
    Sound lower staff hooks claims (memberSignIn staff hooks claims oid email) := by
  rw [memberSignIn]
  split
  · exact sound_error (List.forall_mem_nil _)
  · rename_i known
    exact sound_verifyMember tenant hasOid hasEmail (checked (.inl known))
  split
  · exact sound_error (List.forall_mem_nil _)
  · rename_i asked
    refine sound_verifyMember tenant hasOid hasEmail (checked (.inr ⟨none, asked, ?_⟩))
    exact fun existing found => by cases found
  · rename_i existing asked
    split
    · exact sound_emitting (List.forall_mem_singleton.mpr rfl) fun effects quiet => sound_refuse quiet
    · rename_i own
      refine sound_verifyMember tenant hasOid hasEmail (checked (.inr ⟨some existing, asked, ?_⟩))
      rintro other found
      cases found
      rw [holds_iff]
      by_cases none : existing.microsoft = []
      · exact .inl none
      · right
        simpa [none] using own

theorem sound_judge : Sound lower staff hooks claims (judge lower staff hooks claims) := by
  have quiet : Sound lower staff hooks claims (refuse []) := sound_refuse (List.forall_mem_nil _)
  rw [judge]
  dsimp only
  split
  · exact quiet
  rename_i tenant
  rw [not_not] at tenant
  split
  · rename_i oid email hasOid hasEmail
    cases kind : isEntraGuest claims with
    | true =>
      simp only [Bool.true_and, Bool.not_true, Bool.false_and, Bool.false_eq_true, if_false, if_true]
      split
      · exact quiet
      · rename_i allowed
        rw [Bool.not_eq_true', Bool.not_eq_false] at allowed
        exact sound_guestSignIn tenant hasOid hasEmail kind allowed
    | false =>
      simp only [Bool.not_false, Bool.true_and, Bool.false_and, Bool.false_eq_true, if_false]
      split
      · exact quiet
      rename_i address
      rw [Bool.not_eq_true', Bool.not_eq_false] at address
      split
      · exact sound_refuseUpn
      · rename_i upn
        refine sound_memberSignIn tenant hasOid hasEmail fun identity => ⟨kind, address, fun required => ?_, identity⟩
        rwa [required, Bool.true_and, Bool.not_eq_true', Bool.not_eq_false] at upn
  · exact quiet

theorem getUserInfo_cases (lower : Text → Text) (decodeJwt : Text → Except ε Claims) (staff : StaffOptions) (hooks : Hooks ε)
    (idToken : Option Text) :
    getUserInfo lower decodeJwt staff hooks idToken = refuse [] ∨
      (∃ e, getUserInfo lower decodeJwt staff hooks idToken = ⟨[], .error e⟩) ∨
      ∃ token claims, idToken = some token ∧ decodeJwt token = .ok claims ∧
        getUserInfo lower decodeJwt staff hooks idToken = judge lower staff hooks claims := by
  cases idToken with
  | none => exact .inl rfl
  | some token =>
    by_cases empty : token = []
    · exact .inl (if_pos empty)
    cases decoded : decodeJwt token with
    | error e =>
      refine .inr (.inl ⟨e, ?_⟩)
      simp only [getUserInfo, if_neg empty, decoded]
    | ok claims =>
      refine .inr (.inr ⟨token, claims, rfl, decoded, ?_⟩)
      simp only [getUserInfo, if_neg empty, decoded]

/-- Every sign-in, whatever the token holds, the product allows and the tables say: a user is returned only to who is let
in, and before `null` nothing was done that signs in. -/
theorem microsoft_sign_in (lower : Text → Text) (decodeJwt : Text → Except ε Claims) (staff : StaffOptions) (hooks : Hooks ε)
    (idToken : Option Text) :
    let run := getUserInfo lower decodeJwt staff hooks idToken
    (∀ info, run.result = .ok (some info) →
      ∃ token claims, idToken = some token ∧ decodeJwt token = .ok claims ∧ Admitted lower staff hooks claims info) ∧
    (run.result = .ok none → ∀ effect ∈ run.effects, effect.signsIn = false) ∧
    ∀ e, run.result = .error e → ∀ effect ∈ run.effects, Undone hooks e effect := by
  intro run
  rcases getUserInfo_cases lower decodeJwt staff hooks
    idToken with missing | ⟨e, threw⟩ | ⟨token, claims, given, decoded, judged⟩
  · have none_returned : run = refuse [] := missing
    rw [none_returned]
    exact ⟨fun info ok => (by cases ok), fun _ => List.forall_mem_nil _, fun e error => (by cases error)⟩
  · have nothing_done : run = ⟨[], .error e⟩ := threw
    rw [nothing_done]
    exact ⟨fun info ok => (by cases ok), fun ok => (by cases ok), fun e _ => List.forall_mem_nil _⟩
  · have same : run = judge lower staff hooks claims := judged
    have sound : Sound lower staff hooks claims run := by
      rw [same]
      exact sound_judge
    exact ⟨fun info ok => ⟨token, claims, given, decoded, sound.admitted info ok⟩, sound.refused, sound.failed⟩

end

structure Tables where
  users : List (Text × Text)
  accounts : List (Text × Account)

/-- The hooks of the identity: `findUserByEmail` of the lower-cased address, and `findAccountByKey`. -/
def Tables.hooks (lower : Text → Text) (tables : Tables) (onVerifiedEmail : Text → Except Text Unit) : Hooks Text where
  onVerifiedEmail := onVerifiedEmail
  lookup email := .ok ((tables.users.find? fun u => u.2 = lower email).map fun u =>
    ⟨some u.1, (tables.accounts.filter fun a => a.1 = u.1).map Prod.snd⟩)
  emit := some fun _ => .ok ()
  knownIdentity := some fun oid => .ok (tables.accounts.any fun a => a.2.providerId = text "microsoft" && a.2.accountId = oid)
  logger := true

/-- The token of a member, as it is decoded. -/
def janeClaims (oid : String) : Claims :=
  [(text "tid", .str (text "qnsc")), (text "oid", .str (text oid)), (text "email", .str (text "jane@qnsc.vn")),
    (text "upn", .str (text "jane@qnsc.vn"))]

def qnsc : StaffOptions := ⟨text "qnsc", [text "qnsc.vn"], none, none⟩

/-- Jane has signed in before, as `1`. -/
def janesAccount : Tables := ⟨[(text "u", text "jane@qnsc.vn")], [(text "u", ⟨text "microsoft", text "1"⟩)]⟩

/-- She is signed in again, and whoever gets her address is not. -/
example : ((judge toLowerCase qnsc (janesAccount.hooks toLowerCase fun _ => .ok ()) (janeClaims "1")).effects.map Effect.signsIn,
    (judge toLowerCase qnsc (janesAccount.hooks toLowerCase fun _ => .ok ()) (janeClaims "2")).effects.map Effect.signsIn) =
      ([true, true], [false, false]) := by decide +kernel

end Identity.Microsoft
