import AppPlatform.Identity.BanEffect
import AppPlatform.Identity.Context
import AppPlatform.Observability.RequestContext

/-!
# Who a request is from

`SessionGuard` lets a request through when its session is known, or when a guard of the product has authenticated it with something
else and marked it. What the rest of the process reads of the caller is what is in the request's context by then. The ban of a user is
asked as `BannedGuard` models it, among all other questions of the process.
-/

namespace SessionGuard
open Js Runs
open RequestContext (Context Given RequestPrincipal setRequestPrincipal)

/-- What the guard uses of a session that the library knows. -/
structure Session where
  userId : Text
  id : Text
  contextId : Option Text

/-- What became of the product's hook. -/
inductive Hooked where
  | threw
  | nothing
  | extras (extras : RequestPrincipal)

/-- `{ ...first, ...second }` of keys that are set. -/
def spread (first second : RequestPrincipal) : RequestPrincipal where
  userId := if second.userId = .undefined then first.userId else second.userId
  sessionId := if second.sessionId = .undefined then first.sessionId else second.sessionId
  workspaceId := if second.workspaceId = .undefined then first.workspaceId else second.workspaceId
  fields := second.fields.or first.fields

def base (session : Session) : RequestPrincipal := ⟨.string session.userId, .string session.id, .undefined, none⟩

def fromContext (session : Session) : RequestPrincipal :=
  ⟨.undefined, .undefined, (session.contextId.map Given.string).getD .undefined, none⟩

def defined : Hooked → RequestPrincipal
  | .extras extras => extras
  | _ => ⟨.undefined, .undefined, .undefined, none⟩

def writePrincipal (session : Session) (hooked : Hooked) (store : Option Context) : Except Text (Option Context) :=
  match setRequestPrincipal (spread (spread (fromContext session) (defined hooked)) (base session)) store with
  | .ok store => .ok store
  | .error _ => setRequestPrincipal (base session) store

def getRequestPrincipal (store : Option Context) : Option (Text × Text) := do
  let ctx ← store
  let userId ← ctx.userId
  let sessionId ← ctx.sessionId
  if userId = [] ∨ sessionId = [] then none else some (userId, sessionId)

/-- Whom a marked request is from, or why it is refused; `userId` is what it was marked with. -/
def admitPreAuthenticated (store : Option Context) (userId : Option Text) : Except Text Text :=
  let principal := (getRequestPrincipal store).map Prod.fst
  if store.isSome ∧ principal = none then
    .error (text ("the product guard wrote no principal. Call setRequestPrincipal(\x7b userId, sessionId \x7d) " ++
      "before markPreAuthenticated()."))
  else
    match principal.or userId with
    | none =>
      .error (text ("there is no principal to read back (no request context) and no userId was passed. " ++
        "Call markPreAuthenticated(req, \x7b userId \x7d)."))
    | some user =>
      if Identity.Context.uuidText user = false then .error (text "the user id is not a UUID.")
      else if principal ≠ none ∧ userId ≠ none ∧ userId ≠ principal then
        .error (text "the userId passed to markPreAuthenticated() is not the principal the product guard wrote.")
      else .ok user

inductive Warning where
  | noContext
  | tooLate
  | preAuthenticatedWithoutPrincipal
  deriving DecidableEq

/-- The warnings that are logged, each only the first time. -/
def warnOnce (kind : Warning) (warned : List Warning) : List Warning := if kind ∈ warned then warned else warned ++ [kind]

def warnWritten (store : Option Context) (keyedByAddress : Bool) (warned : List Warning) : List Warning :=
  match store with
  | none => warnOnce .noContext warned
  | some _ => if keyedByAddress then warnOnce .tooLate warned else warned

/-! ### Requests -/

inductive Phase where
  | arrived
  | gettingSession
  | hooking (session : Session)
  | askingBan (userId : Text)
  | admitted
  | refused
  | threw

structure Request (κ : Type*) where
  credentials : κ
  isPublic : Bool
  context : Option Context
  /-- `markPreAuthenticated`, with the user id it was given. -/
  mark : Option (Option Text)
  keyedByAddress : Bool
  session : Option Session
  phase : Phase

/-- The guards of a request run one after another: another one writes before this one starts, a handler after it. -/
def Phase.open : Phase → Bool
  | .arrived => true
  | .admitted => true
  | _ => false

structure State (κ ρ ι : Type*) where
  requests : ρ → Option (Request κ)
  warned : List Warning
  bans : Identity.BannedGuard.State (ρ ⊕ ι)

inductive Event (κ ρ ι : Type*) where
  | arrive (r : ρ) (credentials : κ) (isPublic : Bool) (context : Option Context)
  /-- The rate limit looks for the caller. -/
  | limiter (r : ρ)
  | principal (r : ρ) (principal : RequestPrincipal)
  | mark (r : ρ) (userId : Option Text)
  | guard (r : ρ)
  | session (r : ρ) (answer : Option Session)
  | hooked (r : ρ) (hooked : Hooked)
  /-- The library or the database fails while the guard waits for it. -/
  | failed (r : ρ)
  /-- A call about a ban goes on, one that a request waits for or another. -/
  | ban (event : Identity.BannedGuard.Event (ρ ⊕ ι))
  | verdict (r : ρ)

section Steps
variable {κ ρ ι : Type*} [DecidableEq ρ] [DecidableEq ι]

def State.put (s : State κ ρ ι) (r : ρ) (request : Request κ) : State κ ρ ι :=
  { s with requests := Function.update s.requests r (some request) }

/-- The guard starts. -/
def begin (s : State κ ρ ι) (r : ρ) (request : Request κ) : Option (State κ ρ ι) :=
  if request.isPublic then some (s.put r { request with phase := .admitted })
  else
    match request.mark with
    | none => some (s.put r { request with phase := .gettingSession })
    | some userId =>
      match admitPreAuthenticated request.context userId with
      | .error _ => some (s.put r { request with phase := .refused })
      | .ok user =>
        (Identity.BannedGuard.step s.bans (.begin (.inl r) (.isUserBanned user))).map fun bans =>
          { s.put r { request with phase := .askingBan user } with
            bans
            warned := if getRequestPrincipal request.context = none then warnOnce .preAuthenticatedWithoutPrincipal s.warned
              else s.warned }

def resume (s : State κ ρ ι) (r : ρ) (request : Request κ) (session : Session) (hooked : Hooked) : State κ ρ ι :=
  match writePrincipal session hooked request.context with
  | .error _ => s.put r { request with phase := .threw }
  | .ok context =>
    { s.put r { request with context, phase := .admitted } with warned := warnWritten context request.keyedByAddress s.warned }

def step (s : State κ ρ ι) : Event κ ρ ι → Option (State κ ρ ι)
  | .arrive r credentials isPublic context =>
    match s.requests r with
    | none => some (s.put r ⟨credentials, isPublic, context, none, false, none, .arrived⟩)
    | some _ => none
  | .limiter r => (s.requests r).bind fun request =>
    if request.phase.open then
      some (s.put r { request with keyedByAddress := request.keyedByAddress || (request.context.bind Context.userId).getD [] = [] })
    else none
  | .principal r principal => (s.requests r).bind fun request =>
    if request.phase.open then
      match setRequestPrincipal principal request.context with
      | .ok context => some (s.put r { request with context })
      | .error _ => some s
    else none
  | .mark r userId => (s.requests r).bind fun request =>
    if request.phase.open then some (s.put r { request with mark := some userId }) else none
  | .guard r => (s.requests r).bind fun request =>
    match request.phase with
    | .arrived => begin s r request
    | _ => none
  | .session r answer => (s.requests r).bind fun request =>
    match request.phase with
    | .gettingSession =>
      match answer with
      | some session => some (s.put r { request with session := some session, phase := .hooking session })
      | none => some (s.put r { request with phase := .refused })
    | _ => none
  | .hooked r hooked => (s.requests r).bind fun request =>
    match request.phase with
    | .hooking session => some (resume s r request session hooked)
    | _ => none
  | .failed r => (s.requests r).bind fun request =>
    match request.phase with
    | .gettingSession => some (s.put r { request with phase := .threw })
    | .askingBan _ => some (s.put r { request with phase := .threw })
    | _ => none
  | .ban event =>
    match event with
    | .begin (.inl _) _ => none
    | _ => (Identity.BannedGuard.step s.bans event).map fun bans => { s with bans }
  | .verdict r => (s.requests r).bind fun request =>
    match request.phase, s.bans.phase (.inl r) with
    | .askingBan _, .answered _ true => some (s.put r { request with phase := .refused })
    | .askingBan _, .answered _ false => some (s.put r { request with phase := .admitted })
    | _, _ => none

/-- A process that has started, with the users of the database. -/
def initial (users : Text → Option Identity.BannedGuard.UserRow) (now : ℤ) : State κ ρ ι :=
  ⟨fun _ => none, [], ⟨⟨fun _ => .idle⟩, users, ∅, now⟩⟩

def Honest (Owns : κ → Session → Prop) (s : State κ ρ ι) : Event κ ρ ι → Prop
  | .session r (some session) => ∀ request, s.requests r = some request → Owns request.credentials session
  | _ => True

theorem writePrincipal_ok {session : Session} {hooked : Hooked} {store store' : Option Context}
    (written : writePrincipal session hooked store = .ok store') :
    ∀ ctx, store' = some ctx → ctx.userId = some session.userId ∧ ctx.sessionId = some session.id := by
  have based : ∀ principal : RequestPrincipal, principal.userId = .string session.userId →
    principal.sessionId = .string session.id →
      setRequestPrincipal principal store = .ok store' →
      ∀ ctx, store' = some ctx → ctx.userId = some session.userId ∧ ctx.sessionId = some session.id := by
    intro principal userId sessionId accepted ctx present
    obtain ⟨user, id, _, _, sameUser, sameSession, _, rfl⟩ := RequestContext.setRequestPrincipal_eq accepted
    obtain ⟨_, _, rfl⟩ := Option.map_eq_some_iff.mp present
    rw [userId] at sameUser
    rw [sessionId] at sameSession
    exact ⟨congrArg some (Given.string.inj sameUser).symm, congrArg some (Given.string.inj sameSession).symm⟩
  unfold writePrincipal at written
  split at written
  · rename_i accepted
    cases written
    exact based _ rfl rfl accepted
  · exact based _ rfl rfl written

theorem getRequestPrincipal_some {store : Option Context} {user session : Text}
    (read : getRequestPrincipal store = some (user, session)) : ∃ ctx, store = some ctx ∧ ctx.userId = some user := by
  obtain ⟨ctx, present, read⟩ := Option.bind_eq_some_iff.mp read
  obtain ⟨userId, found, read⟩ := Option.bind_eq_some_iff.mp read
  obtain ⟨sessionId, _, read⟩ := Option.bind_eq_some_iff.mp read
  obtain ⟨_, same⟩ := Option.ite_none_left_eq_some.mp read
  cases same
  exact ⟨ctx, present, found⟩

/-- A marked request that is not refused is from the principal of its context, or from the user it was marked with. -/
theorem admitPreAuthenticated_ok {store : Option Context} {userId : Option Text} {user : Text}
    (named : admitPreAuthenticated store userId = .ok user) : Identity.Context.uuidText user = true ∧
      (userId = none ∨ userId = some user) ∧ (∀ ctx, store = some ctx → ctx.userId = some user) ∧
        (store = none → userId = some user) := by
  unfold admitPreAuthenticated at named
  dsimp only at named
  split at named
  · cases named
  · rename_i seen
    split at named
    · cases named
    · rename_i name found
      split at named
      · cases named
      · rename_i uuid
        split at named
        · cases named
        · rename_i agree
          cases named
          cases principal : getRequestPrincipal store with
          | none =>
            rw [principal] at found seen
            have unseeded : store = none := by simpa using seen
            subst unseeded
            exact ⟨by simpa using uuid, .inr found, (fun ctx present => (by cases present)), fun _ => found⟩
          | some caller =>
            rw [principal] at found agree
            obtain ⟨ctx, rfl, held⟩ := getRequestPrincipal_some principal
            have same : caller.1 = user := Option.some.inj found
            rw [same] at held
            refine ⟨by simpa using uuid, ?_, ?_, (fun unseeded => (by cases unseeded))⟩
            · cases marked : userId with
              | none => exact .inl rfl
              | some name =>
                rw [marked, Option.map_some, same] at agree
                have equal : some name = some user := by simpa using agree
                exact .inr equal
            · intro ctx' present
              cases present
              exact held

/-! ### The question about a ban -/

/-- A call that asks whether `user` is banned. -/
def About (user : Text) : Identity.BannedGuard.Phase → Prop
  | .asking userId => userId = user
  | .reading asker => asker = .isBanned user
  | .read asker _ => asker = .isBanned user
  | .answered userId _ => userId = user
  | _ => False

omit [DecidableEq ρ] [DecidableEq ι] in
theorem about_step {γ : Type*} [DecidableEq γ] {user : Text} {b b' : Identity.BannedGuard.State γ}
    {e : Identity.BannedGuard.Event γ} {c : γ} (about : About user (b.phase c))
    (taken : Identity.BannedGuard.step b e = some b') : About user (b'.phase c) := by
  have stays : ∀ {s : Identity.BannedGuard.State γ} {r : γ} {p : Identity.BannedGuard.Phase}, s.phase = b.phase →
      (r = c → About user p) → About user ((s.toPhase r p).phase c) := by
    intro s r p same here
    by_cases equal : c = r
    · subst equal
      rw [Calls.move_self]
      exact here rfl
    · rw [Calls.move_other _ _ equal, same]
      exact about
  have asks : ∀ {r : γ} {asker : Identity.BannedGuard.Asker}, (r = c → asker = .isBanned user) →
      About user ((Identity.BannedGuard.ask b r asker).phase c) := by
    intro r asker same
    unfold Identity.BannedGuard.ask
    split
    · refine stays rfl fun here => ?_
      rw [same here]
      rfl
    · exact stays rfl same
  cases Identity.BannedGuard.step_taken taken with
  | begin r call idle =>
    refine stays rfl fun here => ?_
    rw [← here, idle] at about
    cases about
  | found r found finding =>
    have other : r ≠ c := by
      rintro rfl
      rw [finding] at about
      cases about
    unfold Identity.BannedGuard.foundSession
    split
    · exact stays rfl fun here => (other here).elim
    · split
      · exact stays rfl fun here => (other here).elim
      · split
        · exact stays rfl fun here => (other here).elim
        · exact asks fun here => (other here).elim
  | check r userId asking =>
    refine asks fun here => ?_
    rw [← here, asking] at about
    exact congrArg _ about
  | query r asker reading =>
    refine stays rfl fun here => ?_
    rw [← here, reading] at about
    exact about
  | resume r asker fresh read =>
    have asked : r = c → asker = .isBanned user := by
      rintro rfl
      rw [read] at about
      exact about
    unfold Identity.BannedGuard.resumed
    split
    · refine stays rfl fun here => ?_
      rw [asked here]
      rfl
    · refine stays rfl fun here => ?_
      rw [asked here]
      rfl
  | lookup r userId banned reason checking =>
    refine stays rfl fun here => ?_
    rw [← here, checking] at about
    cases about
  | update r userId banned reason updating =>
    refine stays rfl fun here => ?_
    rw [← here, updating] at about
    cases about
  | forget r userId banned updated =>
    refine stays rfl fun here => ?_
    rw [← here, updated] at about
    cases about
  | write userId row => exact about
  | tick now => exact about

/-! ### What a step does -/

/-- Everything that a step can do. -/
inductive Taken (s : State κ ρ ι) : Event κ ρ ι → State κ ρ ι → Prop where
  | arrive (r : ρ) (credentials : κ) (isPublic : Bool) (context : Option Context) :
      Taken s (.arrive r credentials isPublic context) (s.put r ⟨credentials, isPublic, context, none, false, none, .arrived⟩)
  /-- Another guard, or a handler. -/
  | other (e : Event κ ρ ι) (r : ρ) (old request : Request κ) (found : s.requests r = some old) (free : old.phase.open = true)
      (same : request.phase = old.phase) : Taken s e (s.put r request)
  | stays (e : Event κ ρ ι) : Taken s e s
  | anyone (r : ρ) (old : Request κ) (isPublic : old.isPublic = true) : Taken s (.guard r) (s.put r { old with phase := .admitted })
  | unmarked (r : ρ) (old : Request κ) (unmarked : old.mark = none) :
    Taken s (.guard r) (s.put r { old with phase := .gettingSession })
  | asks (r : ρ) (old : Request κ) (userId : Option Text) (user : Text) (bans : Identity.BannedGuard.State (ρ ⊕ ι))
      (marked : old.mark = some userId) (named : admitPreAuthenticated old.context userId = .ok user)
      (asked : Identity.BannedGuard.step s.bans (.begin (.inl r) (.isUserBanned user)) = some bans) :
      Taken s (.guard r) { s.put r { old with phase := .askingBan user } with
        bans
        warned := if getRequestPrincipal old.context = none then warnOnce .preAuthenticatedWithoutPrincipal s.warned else s.warned }
  | known (r : ρ) (old : Request κ) (session : Session) (found : s.requests r = some old) (waits : old.phase = .gettingSession) :
      Taken s (.session r (some session)) (s.put r { old with session := some session, phase := .hooking session })
  | written (r : ρ) (old : Request κ) (session : Session) (hooked : Hooked) (context : Option Context)
    (found : s.requests r = some old)
      (waits : old.phase = .hooking session) (written : writePrincipal session hooked old.context = .ok context) :
      Taken s (.hooked r hooked)
        { s.put r { old with context, phase := .admitted } with warned := warnWritten context old.keyedByAddress s.warned }
  | ended (e : Event κ ρ ι) (r : ρ) (request : Request κ) (closed : request.phase = .refused ∨ request.phase = .threw) :
      Taken s e (s.put r request)
  | ban (event : Identity.BannedGuard.Event (ρ ⊕ ι)) (bans : Identity.BannedGuard.State (ρ ⊕ ι))
      (moved : Identity.BannedGuard.step s.bans event = some bans) : Taken s (.ban event) { s with bans }
  | allowed (r : ρ) (old : Request κ) (user userId : Text) (found : s.requests r = some old) (waits : old.phase = .askingBan user)
      (answered : s.bans.phase (.inl r) = .answered userId false) : Taken s (.verdict r) (s.put r { old with phase := .admitted })

variable {Owns : κ → Session → Prop} {s t : State κ ρ ι}

theorem begin_taken {r : ρ} {request : Request κ} (next : begin s r request = some t) : Taken s (.guard r) t := by
  unfold begin at next
  split at next
  · rename_i isPublic
    cases next
    exact .anyone r request isPublic
  · split at next
    · rename_i unmarked
      cases next
      exact .unmarked r request unmarked
    · rename_i userId marked
      split at next
      · cases next
        exact .ended _ r _ (.inl rfl)
      · rename_i user named
        obtain ⟨bans, asked, rfl⟩ := Option.map_eq_some_iff.mp next
        exact .asks r request userId user bans marked named asked

theorem step_taken {e : Event κ ρ ι} (taken : step s e = some t) : Taken s e t := by
  cases e with
  | arrive r credentials isPublic context =>
    simp only [step] at taken
    split at taken
    · cases taken
      exact .arrive r credentials isPublic context
    · cases taken
  | limiter r =>
    obtain ⟨request, found, next⟩ := Option.bind_eq_some_iff.mp taken
    obtain ⟨free, next⟩ := Option.ite_none_right_eq_some.mp next
    cases next
    exact .other _ r request _ found free rfl
  | principal r principal =>
    obtain ⟨request, found, next⟩ := Option.bind_eq_some_iff.mp taken
    obtain ⟨free, next⟩ := Option.ite_none_right_eq_some.mp next
    split at next
    · cases next
      exact .other _ r request _ found free rfl
    · cases next
      exact .stays _
  | mark r userId =>
    obtain ⟨request, found, next⟩ := Option.bind_eq_some_iff.mp taken
    obtain ⟨free, next⟩ := Option.ite_none_right_eq_some.mp next
    cases next
    exact .other _ r request _ found free rfl
  | guard r =>
    obtain ⟨request, _, next⟩ := Option.bind_eq_some_iff.mp taken
    split at next
    · exact begin_taken next
    · cases next
  | session r answer =>
    obtain ⟨request, found, next⟩ := Option.bind_eq_some_iff.mp taken
    split at next
    · rename_i waits
      cases answer with
      | none =>
        cases next
        exact .ended _ r _ (.inl rfl)
      | some session =>
        cases next
        exact .known r request session found waits
    · cases next
  | hooked r hooked =>
    obtain ⟨request, found, next⟩ := Option.bind_eq_some_iff.mp taken
    split at next
    · rename_i session waits
      cases next
      unfold resume
      split
      · exact .ended _ r _ (.inr rfl)
      · rename_i context written
        exact .written r request session hooked context found waits written
    · cases next
  | failed r =>
    obtain ⟨request, _, next⟩ := Option.bind_eq_some_iff.mp taken
    split at next
    · cases next
      exact .ended _ r _ (.inr rfl)
    · cases next
      exact .ended _ r _ (.inr rfl)
    · cases next
  | ban event =>
    simp only [step] at taken
    split at taken
    · cases taken
    · obtain ⟨bans, moved, rfl⟩ := Option.map_eq_some_iff.mp taken
      exact .ban event bans moved
  | verdict r =>
    obtain ⟨request, found, next⟩ := Option.bind_eq_some_iff.mp taken
    split at next
    · cases next
      exact .ended _ r _ (.inl rfl)
    · rename_i user userId waits answered
      cases next
      exact .allowed r request user userId found waits answered
    · cases next

/-! ### What holds of a request -/

/-- What the guard knows of a request while it waits. -/
def Fine (Owns : κ → Session → Prop) (bans : Identity.BannedGuard.State (ρ ⊕ ι)) (r : ρ) (request : Request κ) : Prop :=
  match request.phase with
  | .gettingSession => request.mark = none
  | .hooking session => request.mark = none ∧ request.session = some session ∧ Owns request.credentials session
  | .askingBan user => (∃ userId, request.mark = some userId ∧ admitPreAuthenticated request.context userId = .ok user) ∧
      About user (bans.phase (.inl r))
  | _ => True

def AllFine (Owns : κ → Session → Prop) (s : State κ ρ ι) : Prop :=
  ∀ r request, s.requests r = some request → Fine Owns s.bans r request

omit [DecidableEq ι] in
theorem put_requests {r r' : ρ} {request request' : Request κ} (found : (s.put r request).requests r' = some request') :
    (r' = r ∧ request' = request) ∨ (r' ≠ r ∧ s.requests r' = some request') := by
  change Function.update s.requests r (some request) r' = some request' at found
  rw [Function.update_apply] at found
  split at found
  · rename_i here
    exact .inl ⟨here, (Option.some.inj found).symm⟩
  · rename_i other
    exact .inr ⟨other, found⟩

omit [DecidableEq ι] in
theorem fine_put (fine : AllFine Owns s) {r : ρ} {request : Request κ} (here : Fine Owns s.bans r request) :
    AllFine Owns (s.put r request) := by
  intro r' request' found
  rcases put_requests found with ⟨rfl, rfl⟩ | ⟨_, old⟩
  · exact here
  · exact fine r' request' old

omit [DecidableEq ρ] [DecidableEq ι] in
theorem fine_open {bans : Identity.BannedGuard.State (ρ ⊕ ι)} {r : ρ} {request : Request κ} (free : request.phase.open = true) :
    Fine Owns bans r request := by
  unfold Fine
  split
  · rename_i waits
    rw [waits] at free
    cases free
  · rename_i waits
    rw [waits] at free
    cases free
  · rename_i waits
    rw [waits] at free
    cases free
  · trivial

/-- Calls about bans leave what is known of every request. -/
theorem fine_bans (fine : AllFine Owns s) {bans : Identity.BannedGuard.State (ρ ⊕ ι)} {e : Identity.BannedGuard.Event (ρ ⊕ ι)}
    (taken : Identity.BannedGuard.step s.bans e = some bans) : AllFine Owns { s with bans } := by
  intro r request found
  have here := fine r request found
  unfold Fine at here ⊢
  split
  · rename_i waits
    rw [waits] at here
    exact here
  · rename_i waits
    rw [waits] at here
    exact here
  · rename_i waits
    rw [waits] at here
    exact ⟨here.1, about_step here.2 taken⟩
  · trivial

theorem step_fine (fine : AllFine Owns s) {e : Event κ ρ ι} (honest : Honest Owns s e)
    (taken : step s e = some t) : AllFine Owns t := by
  cases step_taken taken with
  | arrive r credentials isPublic context => exact fine_put fine trivial
  | other e r old request found free same => exact fine_put fine (fine_open (by rw [same]; exact free))
  | stays e => exact fine
  | anyone r old isPublic => exact fine_put fine trivial
  | unmarked r old unmarked => exact fine_put fine unmarked
  | asks r old userId user bans marked named asked =>
    have started : bans.phase (.inl r) = .asking user := by
      obtain ⟨_, next⟩ := Option.ite_none_right_eq_some.mp asked
      obtain rfl := Option.some.inj next
      exact Calls.move_self s.bans.toCalls (.inl r) _
    have about : About user (bans.phase (.inl r)) := by
      rw [started]
      rfl
    intro r' request' found
    rcases put_requests found with ⟨rfl, rfl⟩ | ⟨_, before⟩
    · exact ⟨⟨userId, marked, named⟩, about⟩
    · exact fine_bans fine asked r' request' before
  | known r old session found waits =>
    have here := fine r old found
    rw [Fine, waits] at here
    exact fine_put fine ⟨here, rfl, honest old found⟩
  | written r old session hooked context found waits written => exact fine_put fine trivial
  | ended e r request closed =>
    refine fine_put fine ?_
    unfold Fine
    rcases closed with refused | threw
    · rw [refused]
      trivial
    · rw [threw]
      trivial
  | ban event bans moved => exact fine_bans fine moved
  | allowed r old user userId found waits answered => exact fine_put fine trivial

theorem run_fine {users : Text → Option Identity.BannedGuard.UserRow} {now : ℤ} {es : List (Event κ ρ ι)}
    (run : Run step (Honest Owns) (initial users now) es s) : AllFine Owns s :=
  run.invariant (I := AllFine Owns) (fun fine honest taken => step_fine fine honest taken) fun r request found => (by cases found)

/-! ### Who is let through -/

/-- The step lets the request through. -/
structure Admits (s t : State κ ρ ι) (r : ρ) (request : Request κ) : Prop where
  present : t.requests r = some request
  through : request.phase = .admitted
  before : ∀ old, s.requests r = some old → old.phase ≠ .admitted

/-- What is known of the caller when a request is let through. -/
inductive Known (Owns : κ → Session → Prop) (bans : Identity.BannedGuard.State (ρ ⊕ ι)) (r : ρ)
  (request : Request κ) : Prop where
  | anyone (isPublic : request.isPublic = true)
  | session (session : Session) (unmarked : request.mark = none) (held : request.session = some session)
      (owned : Owns request.credentials session)
      (written : ∀ ctx, request.context = some ctx → ctx.userId = some session.userId ∧ ctx.sessionId = some session.id)
  | marked (user : Text) (userId : Option Text) (marked : request.mark = some userId) (uuid : Identity.Context.uuidText user = true)
      (allowed : bans.phase (.inl r) = .answered user false) (agreed : userId = none ∨ userId = some user)
      (written : ∀ ctx, request.context = some ctx → ctx.userId = some user)
        (unseeded : request.context = none → userId = some user)

omit [DecidableEq ι] in
theorem admits_put {r r' : ρ} {request request' : Request κ} (admits : Admits s t r' request')
    (same : t.requests = (s.put r request).requests) : r' = r ∧ request' = request := by
  have present := admits.present
  rw [same] at present
  rcases put_requests present with both | ⟨_, old⟩
  · exact both
  · exact (admits.before request' old admits.through).elim

inductive LetThrough (s : State κ ρ ι) (r : ρ) : State κ ρ ι → Request κ → Prop where
  | anyone (old : Request κ) (isPublic : old.isPublic = true) :
      LetThrough s r (s.put r { old with phase := .admitted }) { old with phase := .admitted }
  | written (old : Request κ) (session : Session) (hooked : Hooked) (context : Option Context) (found : s.requests r = some old)
      (waits : old.phase = .hooking session) (written : writePrincipal session hooked old.context = .ok context) :
      LetThrough s r { s.put r { old with context, phase := .admitted } with warned := warnWritten context old.keyedByAddress s.warned }
        { old with context, phase := .admitted }
  | allowed (old : Request κ) (user userId : Text) (found : s.requests r = some old) (waits : old.phase = .askingBan user)
      (answered : s.bans.phase (.inl r) = .answered userId false) :
      LetThrough s r (s.put r { old with phase := .admitted }) { old with phase := .admitted }

theorem admits_taken {e : Event κ ρ ι} (taken : step s e = some t) {r : ρ} {request : Request κ} (admits : Admits s t r request) :
    LetThrough s r t request := by
  cases step_taken taken with
  | arrive r' credentials isPublic context =>
    obtain ⟨rfl, rfl⟩ := admits_put admits rfl
    cases admits.through
  | other e r' old request' found free same =>
    obtain ⟨rfl, rfl⟩ := admits_put admits rfl
    exact (admits.before old found (same.symm.trans admits.through)).elim
  | stays e => exact (admits.before request admits.present admits.through).elim
  | anyone r' old isPublic =>
    obtain ⟨rfl, rfl⟩ := admits_put admits rfl
    exact .anyone old isPublic
  | unmarked r' old unmarked =>
    obtain ⟨rfl, rfl⟩ := admits_put admits rfl
    cases admits.through
  | asks r' old userId user bans marked named asked =>
    obtain ⟨rfl, rfl⟩ := admits_put admits rfl
    cases admits.through
  | known r' old session found waits =>
    obtain ⟨rfl, rfl⟩ := admits_put admits rfl
    cases admits.through
  | written r' old session hooked context found waits written =>
    obtain ⟨rfl, rfl⟩ := admits_put admits rfl
    exact .written old session hooked context found waits written
  | ended e r' request' closed =>
    obtain ⟨rfl, rfl⟩ := admits_put admits rfl
    rw [admits.through] at closed
    rcases closed with refused | threw
    · cases refused
    · cases threw
  | ban event bans moved => exact (admits.before request admits.present admits.through).elim
  | allowed r' old user userId found waits answered =>
    obtain ⟨rfl, rfl⟩ := admits_put admits rfl
    exact .allowed old user userId found waits answered

theorem fine_known (fine : AllFine Owns s) {e : Event κ ρ ι} (taken : step s e = some t) {r : ρ} {request : Request κ}
    (admits : Admits s t r request) : Known Owns t.bans r request := by
  cases admits_taken taken admits with
  | anyone old isPublic => exact .anyone isPublic
  | written old session hooked context found waits written =>
    have here := fine r old found
    rw [Fine, waits] at here
    obtain ⟨unmarked, held, owned⟩ := here
    exact .session session unmarked held owned (writePrincipal_ok written)
  | allowed old user userId found waits answered =>
    have here := fine r old found
    rw [Fine, waits] at here
    obtain ⟨⟨mark, marked, named⟩, about⟩ := here
    rw [answered] at about
    obtain rfl : userId = user := about
    obtain ⟨uuid, agreed, written, unseeded⟩ := admitPreAuthenticated_ok named
    exact .marked userId mark marked uuid answered agreed written unseeded

/-- Whatever runs between: a request is let through by the guard only on a public route, with a session that the library knows it by
and whose user and session are in its context whatever the hook did, or for a user that is not found banned: the one in its context,
and the one it was marked with. -/
theorem admitted_known {users : Text → Option Identity.BannedGuard.UserRow} {now : ℤ}
    {es : List (Event κ ρ ι)} {e : Event κ ρ ι}
    (run : Run step (Honest Owns) (initial users now) es s) (taken : step s e = some t) {r : ρ} {request : Request κ}
    (admits : Admits s t r request) : Known Owns t.bans r request :=
  fine_known (run_fine run) taken admits

/-! ### Bans -/

/-- What a step does to the calls about bans: one of them goes on, or the question of a guard is asked. -/
theorem step_bans {e : Event κ ρ ι} (taken : step s e = some t) : t.bans = s.bans ∨
    ∃ b, Identity.BannedGuard.step s.bans b = some t.bans ∧ (e = .ban b ∨ ∃ r call, b = .begin (.inl r) call) := by
  cases step_taken taken with
  | asks r old userId user bans marked named asked => exact .inr ⟨_, asked, .inr ⟨r, _, rfl⟩⟩
  | ban event bans moved => exact .inr ⟨event, moved, .inl rfl⟩
  | _ => exact .inl rfl

omit [DecidableEq ρ] [DecidableEq ι] in
/-- Of a library that may answer anything nothing is assumed. -/
theorem trusting (s : State κ ρ ι) (e : Event κ ρ ι) : Honest (fun _ _ => True) s e := by
  unfold Honest
  split
  · exact fun _ _ => trivial
  · trivial

/-- An assumption about the calls about bans. -/
def OnBans (ok : Identity.BannedGuard.State (ρ ⊕ ι) → Identity.BannedGuard.Event (ρ ⊕ ι) → Prop) (s : State κ ρ ι) :
    Event κ ρ ι → Prop
  | .ban event => ok s.bans event
  | _ => True

theorem bans_run {ok : Identity.BannedGuard.State (ρ ⊕ ι) → Identity.BannedGuard.Event (ρ ⊕ ι) → Prop}
    {I : Identity.BannedGuard.State (ρ ⊕ ι) → Prop} (asking : ∀ b r call, ok b (.begin (.inl r) call))
    (preserved : ∀ {b e b'}, I b → ok b e → Identity.BannedGuard.step b e = some b' → I b')
    {es : List (Event κ ρ ι)} (run : Run step (OnBans ok) s es t) (start : I s.bans) : I t.bans := by
  refine run.invariant (I := fun s => I s.bans) (fun {s e t} holds allowed taken => ?_) start
  rcases step_bans taken with same | ⟨b, moved, rfl | ⟨r, call, rfl⟩⟩
  · rw [same]
    exact holds
  · exact preserved holds allowed moved
  · exact preserved holds (asking s.bans r call) moved

theorem admits_bans {e : Event κ ρ ι} {r : ρ} {request : Request κ} (taken : step s e = some t) (admits : Admits s t r request) :
    t.bans = s.bans := by
  cases admits_taken taken admits with
  | anyone old isPublic => rfl
  | written old session hooked context found waits written => rfl
  | allowed old user userId found waits answered => rfl

/-- Once a ban is over, no request whose question starts after it is let through on the word of another guard for the banned user,
as long as no call goes on that waited with a row from before the ban. -/
theorem banned_refused {users : Text → Option Identity.BannedGuard.UserRow} {now horizon : ℤ} {user : Text} {reason : Option Text}
    {i : ρ ⊕ ι} {s₀ s₁ s₂ s₃ s₄ : State κ ρ ι} {es₀ es es' : List (Event κ ρ ι)} {e : Event κ ρ ι}
    (start : Run step (fun _ _ => True) (initial users now) es₀ s₀) (updating : s₀.bans.phase i = .updating user true reason)
    (known : s₀.bans.users user ≠ none) (early : s₀.bans.now ≤ horizon) (update : step s₀ (.ban (.update i)) = some s₁)
    (between : Run step (OnBans (Identity.BannedGuard.StaysBanned horizon user)) s₁ es s₂)
    (updated : s₂.bans.phase i = .updated user true) (forget : step s₂ (.ban (.forget i)) = some s₃)
    (after : Run step (OnBans (Identity.BannedGuard.Undisturbed horizon user s₃.bans)) s₃ es' s₄) (taken : step s₄ e = some t)
    {r : ρ} {request : Request κ} {userId : Option Text} (starts : s₃.bans.phase (.inl r) = .idle) (admits : Admits s₄ t r request)
    (guarded : request.isPublic = false) (marked : request.mark = some userId) :
    userId ≠ some user ∧ ∀ ctx, request.context = some ctx → ctx.userId ≠ some user := by
  have effective : Identity.BannedGuard.Effective horizon user s₃.bans s₄.bans := by
    obtain ⟨b₁, moved₁, rfl⟩ := Option.map_eq_some_iff.mp update
    obtain ⟨b₃, moved₃, rfl⟩ := Option.map_eq_some_iff.mp forget
    have bans := bans_run (I := Identity.BannedGuard.RowBans horizon user) (fun _ _ _ => trivial)
      (fun bans stays taken => Identity.BannedGuard.step_rowBans bans stays taken) between
      (Identity.BannedGuard.update_rowBans updating known early moved₁)
    exact bans_run (I := Identity.BannedGuard.Effective horizon user b₃) (fun _ _ _ => ⟨trivial, fun _ same => (by cases same)⟩)
      (fun effective ok taken => Identity.BannedGuard.step_effective effective ok taken) after
      (Identity.BannedGuard.forget_effective bans updated moved₃)
  have whole : Run step (Honest fun _ _ => True) (initial users now)
    (es₀ ++ .ban (.update i) :: (es ++ .ban (.forget i) :: es')) s₄ := by
    exact (start.mono fun s e _ => trusting s e).append (.cons (trusting _ _) update
      ((between.mono fun s e _ => trusting s e).append (.cons (trusting _ _) forget (after.mono fun s e _ => trusting s e))))
  have allowed : ∀ name, t.bans.phase (.inl r) = .answered name false → name ≠ user := by
    intro name answered same
    rw [admits_bans taken admits] at answered
    rcases effective.calls (.inl r) with idle | sound
    · rw [starts, answered] at idle
      cases idle
    · rw [answered] at sound
      cases sound same
  cases fine_known (run_fine whole) taken admits with
  | anyone isPublic =>
    rw [guarded] at isPublic
    cases isPublic
  | session session unmarked held owned written =>
    rw [marked] at unmarked
    cases unmarked
  | marked name userId' same uuid answered agreed written unseeded =>
    obtain rfl : userId = userId' := Option.some.inj (marked.symm.trans same)
    have other := allowed name answered
    constructor
    · rintro rfl
      rcases agreed with none | some
      · cases none
      · exact other (Option.some.inj some).symm
    · intro ctx present held
      exact other (Option.some.inj ((written ctx present).symm.trans held))

/-! ### Warnings -/

theorem mem_warnOnce (kind : Warning) (warned : List Warning) : kind ∈ warnOnce kind warned := by
  unfold warnOnce
  split
  · assumption
  · exact List.mem_append_right warned List.mem_cons_self

theorem warnOnce_later {kind other : Warning} {warned : List Warning} (logged : other ∈ warned) : other ∈ warnOnce kind warned := by
  unfold warnOnce
  split
  · exact logged
  · exact List.mem_append_left _ logged

theorem warnOnce_nodup {kind : Warning} {warned : List Warning} (once : warned.Nodup) : (warnOnce kind warned).Nodup := by
  unfold warnOnce
  split
  · exact once
  · rename_i new
    exact List.nodup_append.mpr ⟨once, List.nodup_singleton kind, fun a logged b same => by
      rintro rfl
      exact new (List.mem_singleton.mp same ▸ logged)⟩

/-- A step logs nothing, or one warning that was not logged yet. -/
theorem step_warned {e : Event κ ρ ι} (taken : step s e = some t) : t.warned = s.warned ∨
    ∃ kind, t.warned = warnOnce kind s.warned := by
  cases step_taken taken with
  | asks r old userId user bans marked named asked =>
    dsimp only
    split
    · exact .inr ⟨_, rfl⟩
    · exact .inl rfl
  | written r old session hooked context found waits written =>
    dsimp only
    unfold warnWritten
    split
    · exact .inr ⟨_, rfl⟩
    · split
      · exact .inr ⟨_, rfl⟩
      · exact .inl rfl
  | _ => exact .inl rfl

theorem warned_later {e : Event κ ρ ι} (taken : step s e = some t) {kind : Warning}
    (logged : kind ∈ s.warned) : kind ∈ t.warned := by
  rcases step_warned taken with same | ⟨other, same⟩
  · rw [same]
    exact logged
  · rw [same]
    exact warnOnce_later logged

/-- The warning comes before the question, when the principal cannot be read back. -/
structure Warned (s : State κ ρ ι) : Prop where
  once : s.warned.Nodup
  asking : ∀ r request user, s.requests r = some request → request.phase = .askingBan user →
    getRequestPrincipal request.context = none → .preAuthenticatedWithoutPrincipal ∈ s.warned

theorem step_keeps_warned (warned : Warned s) {e : Event κ ρ ι} (taken : step s e = some t) : Warned t := by
  have once : t.warned.Nodup := by
    rcases step_warned taken with same | ⟨kind, same⟩
    · rw [same]
      exact warned.once
    · rw [same]
      exact warnOnce_nodup warned.once
  refine ⟨once, fun r request user found asks unread => ?_⟩
  have before : s.requests r = some request → .preAuthenticatedWithoutPrincipal ∈ t.warned :=
    fun old => warned_later taken (warned.asking r request user old asks unread)
  have put : ∀ {r' : ρ} {request' : Request κ}, t.requests = (s.put r' request').requests →
      (request' = request → .preAuthenticatedWithoutPrincipal ∈ t.warned) → .preAuthenticatedWithoutPrincipal ∈ t.warned := by
    intro r' request' same here
    rw [same] at found
    rcases put_requests found with ⟨_, rfl⟩ | ⟨_, old⟩
    · exact here rfl
    · exact before old
  cases step_taken taken with
  | arrive r' credentials isPublic context => exact put rfl fun same => (by
    cases same
    cases asks)
  | other e r' old request' found' free same =>
    refine put rfl fun here => ?_
    subst here
    rw [← same, asks] at free
    cases free
  | stays e => exact before found
  | anyone r' old isPublic => exact put rfl fun same => (by
    cases same
    cases asks)
  | unmarked r' old unmarked => exact put rfl fun same => (by
    cases same
    cases asks)
  | asks r' old userId user' bans marked named asked =>
    refine put rfl fun same => ?_
    subst same
    dsimp only at unread ⊢
    rw [if_pos unread]
    exact mem_warnOnce _ _
  | known r' old session found' waits => exact put rfl fun same => (by
    cases same
    cases asks)
  | written r' old session hooked context found' waits written => exact put rfl fun same => (by
    cases same
    cases asks)
  | ended e r' request' closed =>
    refine put rfl fun same => ?_
    subst same
    rw [asks] at closed
    rcases closed with refused | threw
    · cases refused
    · cases threw
  | ban event bans moved => exact before found
  | allowed r' old user' userId found' waits answered => exact put rfl fun same => (by
    cases same
    cases asks)

/-- Every warning is logged once in the life of a process at most, and has been logged by the time that a caller is let through whom the
rest of the process cannot read from the context, or whom the rate limit looked for too early. -/
theorem warned_once {users : Text → Option Identity.BannedGuard.UserRow} {now : ℤ} {es : List (Event κ ρ ι)}
    (run : Run step (fun _ _ => True) (initial users now) es s) : s.warned.Nodup ∧
      ∀ e t r request, step s e = some t → Admits s t r request → request.isPublic = false →
        (request.context = none → request.mark = none → .noContext ∈ t.warned) ∧
        (request.context = none → request.mark ≠ none → .preAuthenticatedWithoutPrincipal ∈ t.warned) ∧
        (request.context ≠ none → request.mark = none → request.keyedByAddress = true → .tooLate ∈ t.warned) := by
  have fine := run_fine (run.mono fun s e _ => trusting s e)
  have warned : Warned s := run.invariant (I := Warned) (fun warned _ taken => step_keeps_warned warned taken)
    ⟨List.nodup_nil, fun _ _ _ found => (by cases found)⟩
  refine ⟨warned.once, fun e t r request taken admits guarded => ?_⟩
  cases admits_taken taken admits with
  | anyone old isPublic => exact absurd (isPublic.symm.trans guarded) (by decide)
  | written old session hooked context found waits written =>
    have here := fine r old found
    rw [Fine, waits] at here
    obtain ⟨unmarked, _, _⟩ := here
    refine ⟨fun unseeded _ => ?_, fun _ marked => (marked unmarked).elim, fun seeded _ early => ?_⟩
    · change context = none at unseeded
      rw [unseeded]
      exact mem_warnOnce _ _
    · cases present : context with
      | none => exact (seeded present).elim
      | some ctx =>
        dsimp only
        rw [warnWritten, if_pos early]
        exact mem_warnOnce _ _
  | allowed old user userId found waits answered =>
    have here := fine r old found
    rw [Fine, waits] at here
    obtain ⟨⟨mark, marked, _⟩, _⟩ := here
    have differs : old.mark ≠ none := by
      rw [marked]
      exact Option.some_ne_none mark
    refine ⟨fun _ unmarked => (differs unmarked).elim, fun unseeded _ => ?_, fun _ unmarked => (differs unmarked).elim⟩
    refine warned.asking r old user found waits ?_
    change old.context = none at unseeded
    rw [unseeded]
    rfl

end Steps

/-! ### Runs -/

/-- The id of a user that exists nowhere but here. -/
def caller (digit : Char) : Text := TraceContext.writeGroups (List.map (fun n => List.replicate n (unit digit)) [8, 4, 4, 4, 12])

def seeded : Context := (RequestContext.correlate ⟨.absent, .absent⟩ (caller 'c')).context

theorem admitted_known_session : ∃ (s t : State ℕ ℕ ℕ) (request : Request ℕ),
    step s (.hooked 0 (.extras ⟨.string (text "u9"), .undefined, .string (text "w1"), none⟩)) = some t ∧
      request.isPublic = false ∧
    Known (fun credentials session => credentials = 7 ∧ session.userId = caller 'a') t.bans 0 request := by
  have run : ∃ (s t : State ℕ ℕ ℕ) (request : Request ℕ),
      Run step (Honest fun credentials session => credentials = 7 ∧ session.userId = caller 'a') (initial (fun _ => none) 0)
        [.arrive 0 7 false (some seeded), .guard 0, .session 0 (some ⟨caller 'a', caller 'b', none⟩)] s ∧
      step s (.hooked 0 (.extras ⟨.string (text "u9"), .undefined, .string (text "w1"), none⟩)) = some t ∧
      t.requests 0 = some request ∧ request.phase = .admitted ∧ request.isPublic = false ∧
      ∀ old, s.requests 0 = some old → old.phase ≠ .admitted := by
    refine ⟨_, _, _, .cons trivial rfl (.cons trivial rfl (.cons ?_ rfl (.nil _))), rfl, rfl, rfl, rfl, ?_⟩
    · intro request found
      obtain rfl := Option.some.inj found
      exact ⟨rfl, rfl⟩
    · intro old found through
      obtain rfl := Option.some.inj found
      cases through
  obtain ⟨s, t, request, run, taken, present, through, guarded, before⟩ := run
  exact ⟨s, t, request, taken, guarded, admitted_known run taken ⟨present, through, before⟩⟩

def everyone : Text → Option Identity.BannedGuard.UserRow := fun _ => some ⟨none, none, .never, 0⟩

/-- Another call bans one user while a request is marked for another. -/
theorem banned_refused_other : ∃ (s t : State ℕ ℕ ℕ) (request : Request ℕ), step s (.verdict 0) = some t ∧
    request.mark = some (some (caller 'b')) ∧ some (caller 'b') ≠ some (caller 'a') ∧
    ∀ ctx, request.context = some ctx → ctx.userId ≠ some (caller 'a') := by
  have runs : ∃ (s₀ s₁ s₃ s₄ t : State ℕ ℕ ℕ) (request : Request ℕ),
      Run step (fun _ _ => True) (initial everyone 0)
        [.ban (.begin (.inr 0) (.setUserBanned (caller 'a') true none true)), .ban (.lookup (.inr 0))] s₀ ∧
      (s₀.bans.phase (.inr 0) = .updating (caller 'a') true none ∧ s₀.bans.users (caller 'a') ≠ none ∧ s₀.bans.now ≤ 0) ∧
      step s₀ (.ban (.update (.inr 0))) = some s₁ ∧ s₁.bans.phase (.inr 0) = .updated (caller 'a') true ∧
      step s₁ (.ban (.forget (.inr 0))) = some s₃ ∧ s₃.bans.phase (.inl 0) = .idle ∧
      Run step (OnBans (Identity.BannedGuard.Undisturbed 0 (caller 'a') s₃.bans)) s₃
        [.arrive 0 7 false none, .mark 0 (some (caller 'b')), .guard 0, .ban (.check (.inl 0)), .ban (.query (.inl 0)),
          .ban (.resume (.inl 0))] s₄ ∧
      step s₄ (.verdict 0) = some t ∧ Admits s₄ t 0 request ∧ request.isPublic = false ∧
        request.mark = some (some (caller 'b')) := by
    have asked : ∀ (s s₃ : State ℕ ℕ ℕ) (b : Identity.BannedGuard.Event (ℕ ⊕ ℕ)),
      (∀ r, b = .resume r → s₃.bans.phase r = .idle) →
        Identity.BannedGuard.StaysBanned 0 (caller 'a') s.bans b →
        OnBans (Identity.BannedGuard.Undisturbed 0 (caller 'a') s₃.bans) s (.ban b) := by
      refine fun s s₃ b idle stays => ⟨stays, fun r same stale => ?_⟩
      obtain ⟨asker, fresh, waits, _⟩ := stale
      rw [idle r same] at waits
      cases waits
    refine ⟨_, _, _, _, _, _, .cons trivial rfl (.cons trivial rfl (.nil _)),
      ⟨rfl, Option.some_ne_none _, le_rfl⟩, rfl, rfl, rfl, rfl,
      .cons trivial rfl (.cons trivial rfl (.cons trivial rfl (.cons ?_ rfl (.cons ?_ rfl (.cons ?_ rfl (.nil _)))))), rfl,
      ⟨rfl, rfl, ?_⟩, rfl, rfl⟩
    · exact asked _ _ _ (fun r same => (by cases same)) trivial
    · exact asked _ _ _ (fun r same => (by cases same)) trivial
    · refine asked _ _ _ (fun r same => ?_) trivial
      cases same
      rfl
    · intro old found through
      obtain rfl := Option.some.inj found
      cases through
  obtain ⟨s₀, s₁, s₃, s₄, t, request, start, ⟨updating, known, early⟩, update, updated, forget,
    starts, after, taken, admits, guarded,
    marked⟩ := runs
  exact ⟨s₄, t, request, taken, marked,
    banned_refused start updating known early update (.nil s₁) updated forget after taken starts admits guarded marked⟩

/-- Two requests without a context meet at the same warning, and a marked one at another. -/
theorem warned_once_unseeded : ∃ s : State ℕ ℕ ℕ,
    s.warned = [.noContext, .preAuthenticatedWithoutPrincipal] ∧ s.warned.Nodup ∧
    ∀ e t r request, step s e = some t → Admits s t r request → request.isPublic = false →
      (request.context = none → request.mark = none → .noContext ∈ t.warned) ∧
      (request.context = none → request.mark ≠ none → .preAuthenticatedWithoutPrincipal ∈ t.warned) ∧
      (request.context ≠ none → request.mark = none → request.keyedByAddress = true → .tooLate ∈ t.warned) := by
  have run : ∃ s : State ℕ ℕ ℕ, Run step (fun _ _ => True) (initial (fun _ => none) 0)
      [.arrive 0 7 false none, .guard 0, .arrive 1 8 false none, .session 0 (some ⟨caller 'a', caller 'b', none⟩), .guard 1,
        .hooked 0 .threw, .session 1 (some ⟨caller 'c', caller 'd', none⟩), .arrive 2 9 false none, .mark 2 (some (caller 'e')),
        .hooked 1 .threw, .guard 2] s ∧
      s.warned = [.noContext, .preAuthenticatedWithoutPrincipal] :=
    ⟨_, .cons trivial rfl (.cons trivial rfl (.cons trivial rfl (.cons trivial rfl (.cons trivial rfl (.cons trivial rfl
      (.cons trivial rfl (.cons trivial rfl (.cons trivial rfl (.cons trivial rfl (.cons trivial rfl (.nil _))))))))))), rfl⟩
  obtain ⟨s, run, warned⟩ := run
  exact ⟨s, warned, warned_once run⟩

end SessionGuard
