import AppPlatform.Identity.DeviceCookie
import AppPlatform.Lib.Calls

/-!
# The calls about a user's known devices

Cookies are texts, parsed where the source parses them. Every call is split at its awaits.
-/

namespace Identity.KnownDevice
open Js
open DeviceCookie (Hmac CookieName parse writeDevice equal epochConfig epochMessage)

structure Site where
  hmac : Hmac
  name : CookieName
  userId : Text
  stored : isWellFormed userId = true

/-- A cookie that was set, and what it was written with. -/
structure Issued where
  cookie : Text
  device : Device
  inputs : EpochInputs
  deriving DecidableEq

/-- What the epoch inputs are read for. -/
inductive Goal where
  | check
  | remember (deviceId : Text)
  | mint (device : Device)
  | snapshot
  deriving DecidableEq

def Goal.judges : Goal → Bool
  | .mint _ => false
  | _ => true

inductive Phase where
  | idle
  /-- The two reads of `readEpochInputs`, each served or not. -/
  | reading (goal : Goal) (user : Option (Option Stamp)) (credential : Option (Option Credential))
  | checked (device : Option Device)
  | minted (written : Option Issued)
  /-- Between the hooks of a revoke. -/
  | noted (seen : Option (Device × EpochInputs))
  | swapping (device : Device) (inputs : EpochInputs) (next : ℤ)
  | won (device : Device) (inputs : EpochInputs) (next : ℤ)
  | lost (inputs : EpochInputs)
  /-- `bumpDeviceEpoch`, called by one that lost or on its own. -/
  | bumping (fellBack : Bool) (date : ℤ)
  | bumped (fellBack : Bool)
  | reissued (written : Option Issued)
  | overtaken
  deriving DecidableEq

/-- `revokeAll` is signing out everywhere, and the administrator's revoke-all. -/
inductive Call where
  | check
  | remember (deviceId : Text)
  | revokeOthers
  | revokeAll

inductive Event (ι : Type*) where
  | begin (r : ι) (call : Call) (cookie : Option Text)
  | readUser (r : ι)
  | readCredential (r : ι)
  | resume (r : ι)
  | bump (r : ι)
  | swap (r : ι)
  | reissue (r : ι)
  | reread (r : ι)
  | write (r : ι)
  | setCredential (credential : Option Credential)
  | tick (ms : ℕ)

/-- `issued`, `accepted`, `computed` and `bumps` are history: nothing reads them. `computed` are the inputs whose epoch was
computed. -/
structure State (ι : Type*) extends Calls ι Phase where
  user : Option Stamp
  credential : Option Credential
  now : ℤ
  request : ι → Option Text
  issued : List Issued
  accepted : List Text
  computed : List EpochInputs
  bumps : ℕ

/-! ### The functions -/

namespace Site
variable (site : Site)

def parsed (raw : Option Text) : Option Parsed := parse site.hmac site.name raw

def config : Config := epochConfig site.hmac site.userId

def epochOf (inputs : Option EpochInputs) : Option Text := DeviceCookie.epochOf site.hmac site.userId inputs

/-- The age and the user, which `validDevice` checks before it reads anything. -/
def inAge (now : ℤ) (device : Parsed) : Bool :=
  let age := seconds now - device.iat
  !(maxAgeSeconds < age || age < -clockSkewSeconds) && device.userId = site.userId

/-- The last check of `validDevice`. -/
def inEpoch (inputs : Option EpochInputs) (device : Parsed) : Bool :=
  (site.epochOf inputs).any fun epoch => epoch ≠ [] && equal epoch device.epoch

/-- What `writeDevice` sets. -/
def write (device : Device) (inputs : Option EpochInputs) : Option Issued :=
  inputs.bind fun inputs =>
    (writeDevice site.hmac site.name site.userId device.deviceId device.iat (some inputs)).map fun cookie =>
      ⟨cookie, device, inputs⟩

end Site

variable {ι : Type*} [DecidableEq ι]

namespace State

abbrev toPhase (s : State ι) (r : ι) (p : Phase) : State ι := { s with toCalls := s.move r p }

def accept (s : State ι) (r : ι) : State ι := { s with accepted := (s.request r).toList ++ s.accepted }

def compute (s : State ι) (inputs : Option EpochInputs) : State ι := { s with computed := inputs.toList ++ s.computed }

def issue (s : State ι) (written : Option Issued) : State ι := { s with issued := written.toList ++ s.issued }

def moveUser (s : State ι) (ms : ℤ) : State ι :=
  { s with user := s.user.map fun _ => ⟨ms, 0⟩, bumps := s.bumps + 1 }

end State

def answered (s : State ι) (r : ι) (goal : Goal) : Option Parsed → State ι
  | some cookie => (s.accept r).toPhase r (.checked (some cookie.device))
  | none =>
    match goal with
    | .remember deviceId => s.toPhase r (.reading (.mint ⟨deviceId, seconds s.now⟩) none none)
    | _ => s.toPhase r (.checked none)

def validDevice (site : Site) (s : State ι) (r : ι) (goal : Goal) : State ι :=
  if (site.parsed (s.request r)).any (site.inAge s.now) then s.toPhase r (.reading goal none none)
  else answered s r goal none

def begun (site : Site) (s : State ι) (r : ι) : Call → State ι
  | .check => validDevice site s r .check
  | .remember deviceId => validDevice site s r (.remember deviceId)
  | .revokeOthers => s.toPhase r (.reading .snapshot none none)
  | .revokeAll => s.toPhase r (.noted none)

/-- The hook before "sign out others" judges the cookie against its snapshot. -/
def noteDevice (site : Site) (s : State ι) (r : ι) (inputs : EpochInputs) : State ι :=
  match (site.parsed (s.request r)).filter (site.inAge s.now) with
  | none => s.toPhase r (.noted none)
  | some cookie =>
    if site.inEpoch (some inputs) cookie then
      ((s.compute (some inputs)).accept r).toPhase r (.noted (some (cookie.device, inputs)))
    else (s.compute (some inputs)).toPhase r (.noted none)

def resumed (site : Site) (s : State ι) (r : ι) (inputs : Option EpochInputs) : Goal → State ι
  | .check => answered (s.compute inputs) r .check ((site.parsed (s.request r)).filter (site.inEpoch inputs))
  | .remember deviceId =>
    answered (s.compute inputs) r (.remember deviceId) ((site.parsed (s.request r)).filter (site.inEpoch inputs))
  | .mint device =>
    let written := site.write device inputs
    ((s.compute inputs).issue written).toPhase r (.minted written)
  | .snapshot =>
    match inputs with
    | some inputs => noteDevice site s r inputs
    | none => s.toPhase r (.noted none)

def step (site : Site) (s : State ι) : Event ι → Option (State ι)
  | .begin r call cookie =>
    if s.phase r = .idle then some (begun site { s with request := Function.update s.request r cookie } r call) else none
  | .readUser r =>
    match s.phase r with
    | .reading goal none credential => some (s.toPhase r (.reading goal (some s.user) credential))
    | _ => none
  | .readCredential r =>
    match s.phase r with
    | .reading goal user none => some (s.toPhase r (.reading goal user (some s.credential)))
    | _ => none
  | .resume r =>
    match s.phase r with
    | .reading goal (some user) (some credential) => some (resumed site s r (inputsOf user credential) goal)
    | _ => none
  | .bump r =>
    match s.phase r with
    | .noted (some (device, inputs)) =>
      some (s.toPhase r (.swapping device inputs (max s.now (inputs.userUpdatedAt + 1))))
    | .noted none => some (s.toPhase r (.bumping false s.now))
    | _ => none
  | .swap r =>
    match s.phase r with
    | .swapping device inputs next =>
      if s.user = some ⟨inputs.userUpdatedAt, 0⟩ then some ((s.moveUser next).toPhase r (.won device inputs next))
      else some (s.toPhase r (.lost inputs))
    | _ => none
  | .reissue r =>
    match s.phase r with
    | .won device inputs next =>
      let inputs := { inputs with userUpdatedAt := next }
      let written := site.write device (some inputs)
      some (((s.compute (some inputs)).issue written).toPhase r (.reissued written))
    | _ => none
  | .reread r =>
    match s.phase r with
    | .lost inputs =>
      if s.user.map Stamp.ms = some inputs.userUpdatedAt then some (s.toPhase r (.bumping true s.now))
      else some (s.toPhase r .overtaken)
    | _ => none
  | .write r =>
    match s.phase r with
    | .bumping fellBack date => some ((s.moveUser date).toPhase r (.bumped fellBack))
    | _ => none
  | .setCredential credential => some { s with credential := credential }
  | .tick ms => some { s with now := s.now + ms }

/-! ### Cookies and epochs -/

section
variable {site : Site}

theorem validDevice_pieces (now : ℤ) (raw : Option Text) (inputs : Option EpochInputs) :
    (((site.parsed raw).filter (site.inAge now)).filter (site.inEpoch inputs)).map Parsed.device =
      DeviceCookie.validDevice site.hmac site.name raw (some site.userId) (seconds now) inputs := by
  unfold DeviceCookie.validDevice
  change _ = (site.parsed raw).bind _
  cases site.parsed raw with
  | none => rfl
  | some device =>
    rw [Option.bind_some]
    dsimp only
    by_cases age : maxAgeSeconds < seconds now - device.iat ∨ seconds now - device.iat < -clockSkewSeconds
    · have old : site.inAge now device = false := by
        simp only [Site.inAge, Bool.and_eq_false_iff, Bool.not_eq_false', Bool.or_eq_true, decide_eq_true_eq]
        exact Or.inl age
      rw [if_pos age, Option.filter_some, old]
      rfl
    · by_cases user : site.userId = device.userId
      · have young : site.inAge now device = true := by
          simp only [Site.inAge, Bool.and_eq_true, Bool.not_eq_true', Bool.or_eq_false_iff, decide_eq_false_iff_not,
            decide_eq_true_eq]
          exact ⟨not_or.mp age, user.symm⟩
        rw [if_neg age, if_neg (not_not.mpr (congrArg some user)), Option.filter_some, young, if_pos rfl, Option.filter_some,
          Site.inEpoch, Site.epochOf, user]
        cases DeviceCookie.epochOf site.hmac device.userId inputs with
        | none => rfl
        | some epoch =>
          rw [Option.any_some, Option.bind_some]
          split <;> rfl
      · have other : site.inAge now device = false := by simp [Site.inAge, Ne.symm user]
        rw [if_neg age, if_pos (fun same => user (Option.some.inj same)), Option.filter_some, other]
        rfl

def Site.signed (site : Site) (device : Device) (inputs : EpochInputs) : Issued where
  cookie := DeviceCookie.signDeviceValue site.hmac site.name (DeviceCookie.payloadText site.userId device.deviceId
    (DeviceCookie.intText device.iat) (fingerprint site.config inputs))
  device := device
  inputs := inputs

theorem Site.writes_signed (device : Device) (inputs : EpochInputs) :
    writeDevice site.hmac site.name site.userId device.deviceId device.iat (some inputs) =
      some (site.signed device inputs).cookie :=
  (DeviceCookie.writeDevice_some site.hmac).mpr rfl

@[simp] theorem Site.write_some (device : Device) (inputs : EpochInputs) :
    site.write device (some inputs) = some (site.signed device inputs) := by
  rw [Site.write, Option.bind_some, site.writes_signed, Option.map_some]
  rfl

theorem Site.signed_epoch {device : Device} {inputs : EpochInputs} {p : Parsed}
    (parsed : site.parsed (some (site.signed device inputs).cookie) = some p) : p.epoch = fingerprint site.config inputs :=
  DeviceCookie.parsed_epoch site.hmac (site.writes_signed device inputs) parsed

theorem Site.parsed_signed {device : Device} (dotFree : DeviceCookie.dot ∉ site.userId) (named : site.userId ≠ [])
    (token : DeviceCookie.isToken 24 device.deviceId = true) (legible : 10 ^ 8 ≤ device.iat ∧ device.iat < 10 ^ 12)
    (inputs : EpochInputs) : site.parsed (some (site.signed device inputs).cookie) =
      some ⟨site.userId, device.deviceId, device.iat, fingerprint site.config inputs⟩ := by
  let w : DeviceCookie.Written := ⟨site.name, site.userId, device.deviceId, device.iat, inputs, token, site.stored⟩
  exact DeviceCookie.Written.parse_cookie site.hmac (w := w) dotFree (site.writes_signed device inputs) ⟨named, legible⟩

theorem parsed_raw {raw : Option Text} {p : Parsed} (parsed : site.parsed raw = some p) :
    ∃ cookie, raw = some cookie ∧ site.parsed (some cookie) = some p := by
  cases raw with
  | none => cases parsed
  | some cookie => exact ⟨cookie, rfl, parsed⟩

theorem inEpoch_iff {raw : Option Text} {p : Parsed} {inputs : Option EpochInputs} (parsed : site.parsed raw = some p) :
    site.inEpoch inputs p = true ↔ ∃ i, inputs = some i ∧ fingerprint site.config i = p.epoch := by
  obtain ⟨cookie, rfl, parsed⟩ := parsed_raw parsed
  obtain ⟨m, exec, _, rfl⟩ := (DeviceCookie.parse_some site.hmac).mp parsed
  have token := (DeviceCookie.execPattern_some exec).1.epoch
  cases inputs with
  | none => simp [Site.inEpoch, Site.epochOf, DeviceCookie.epochOf]
  | some i =>
    have own := DeviceCookie.isToken_fingerprint site.hmac site.userId i
    simp [Site.inEpoch, Site.epochOf, DeviceCookie.epochOf, DeviceCookie.equal_token own token,
      DeviceCookie.token_ne_nil own, Site.config]

theorem Site.inEpoch_own (userId deviceId : Text) (iat : ℤ) (inputs : EpochInputs) :
    site.inEpoch (some inputs) ⟨userId, deviceId, iat, fingerprint site.config inputs⟩ = true := by
  have own := DeviceCookie.token_ne_nil (DeviceCookie.isToken_fingerprint site.hmac site.userId inputs)
  simpa [Site.inEpoch, Site.epochOf, DeviceCookie.epochOf, DeviceCookie.equal, Site.config] using own

/-- The HMAC, cut to 16 bytes, tells the epochs of these inputs apart. -/
def CollisionFree (site : Site) (inputs : List EpochInputs) : Prop :=
  {message | ∃ i ∈ inputs, message = utf8 (epochMessage site.userId i)}.InjOn fun message => (site.hmac.hmac message).take 16

theorem CollisionFree.eq {inputs : List EpochInputs} (collisionFree : CollisionFree site inputs) {i i' : EpochInputs}
    (member : i ∈ inputs) (member' : i' ∈ inputs) (same : fingerprint site.config i = fingerprint site.config i') : i = i' :=
  DeviceCookie.epochMessage_injective site.stored
    (collisionFree ⟨i, member, rfl⟩ ⟨i', member', rfl⟩ (Edge.base64url_injective same))

theorem CollisionFree.mono {inputs inputs' : List EpochInputs} (collisionFree : CollisionFree site inputs')
    (fewer : ∀ i ∈ inputs, i ∈ inputs') : CollisionFree site inputs := by
  refine Set.InjOn.mono ?_ collisionFree
  rintro _ ⟨i, member, rfl⟩
  exact ⟨i, fewer i member, rfl⟩

theorem collisionFree_pair {inputs : List EpochInputs} {i i' : EpochInputs} (two : ∀ j ∈ inputs, j = i ∨ j = i')
    (apart : (site.hmac.hmac (utf8 (epochMessage site.userId i))).take 16 ≠
      (site.hmac.hmac (utf8 (epochMessage site.userId i'))).take 16) : CollisionFree site inputs := by
  rintro _ ⟨j, member, rfl⟩ _ ⟨k, member', rfl⟩ same
  obtain rfl | rfl := two j member <;> obtain rfl | rfl := two k member'
  · rfl
  · exact (apart same).elim
  · exact (apart same.symm).elim
  · rfl

section
variable {s : State ι} {r : ι}

theorem step_begin_check {raw : Text} {p : Parsed} (idle : s.phase r = .idle) (parsed : site.parsed (some raw) = some p)
    (aged : site.inAge s.now p = true) : step site s (.begin r .check (some raw)) =
      some (({ s with request := Function.update s.request r (some raw) } : State ι).toPhase r (.reading .check none none)) := by
  have asked : (site.parsed (Function.update s.request r (some raw) r)).any (site.inAge s.now) = true := by
    rw [Function.update_self, parsed, Option.any_some, aged]
  rw [step, if_pos idle]
  exact congrArg some (if_pos asked)

theorem step_resume_check {user : Option Stamp} {credential : Option Credential} {inputs : Option EpochInputs} {raw : Text}
    {p : Parsed} {judged : Option Parsed} (reads : s.phase r = .reading .check (some user) (some credential))
    (read : inputsOf user credential = inputs) (carried : s.request r = some raw)
    (parsed : site.parsed (some raw) = some p) (judges : (some p).filter (site.inEpoch inputs) = judged) :
    step site s (.resume r) = some (answered (s.compute inputs) r .check judged) := by
  rw [step, reads]
  dsimp only [resumed]
  rw [read, carried, parsed, judges]

theorem step_resume_snapshot {user : Option Stamp} {credential : Option Credential} {inputs : EpochInputs} {p : Parsed}
    {raw : Text} (reads : s.phase r = .reading .snapshot (some user) (some credential))
    (read : inputsOf user credential = some inputs) (carried : s.request r = some raw)
    (parsed : site.parsed (some raw) = some p) (aged : site.inAge s.now p = true)
    (epoch : site.inEpoch (some inputs) p = true) : step site s (.resume r) =
      some (((s.compute (some inputs)).accept r).toPhase r (.noted (some (p.device, inputs)))) := by
  rw [step, reads]
  dsimp only [resumed]
  rw [read]
  dsimp only [noteDevice]
  rw [carried, parsed, Option.filter_some, if_pos aged]
  dsimp only
  rw [if_pos epoch]

end

end

namespace Sample
open DeviceCookie.Sample

def site : Site := ⟨hmac, name, userId, isWellFormed_userId⟩

def updatedNow : State ℕ where
  user := some ⟨1700000000000, 0⟩
  credential := some ⟨some (inputsAt 0).password, ⟨1690000000000, 0⟩, by decide⟩
  now := 1700000000000
  request _ := none
  phase _ := .idle
  issued := []
  accepted := []
  computed := []
  bumps := 0

def cookieOf (deviceId : Text) : Issued := site.signed ⟨deviceId, 1700000000⟩ (inputsAt 1700000000000)

theorem parsed_cookieOf {deviceId : Text} (token : DeviceCookie.isToken 24 deviceId = true) :
    site.parsed (some (cookieOf deviceId).cookie) =
      some ⟨userId, deviceId, 1700000000, fingerprint site.config (inputsAt 1700000000000)⟩ :=
  site.parsed_signed (by decide) (by decide) token ⟨by norm_num, by norm_num⟩ _

theorem collisionFree {inputs : List EpochInputs}
    (two : ∀ i ∈ inputs, i = inputsAt 1700000000000 ∨ i = inputsAt 1700000001000) : CollisionFree site inputs :=
  collisionFree_pair two (by decide +kernel)

end Sample

end Identity.KnownDevice
