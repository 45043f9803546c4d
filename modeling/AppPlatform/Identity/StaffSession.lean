import AppPlatform.Identity.Domains
import AppPlatform.Lib.Memo

/-!
# The staff session cap

The hooks that write a session, the classifier with its memo in each process, and the guard around
`findSession` and `listSessions`. Users and their accounts do not change; the library deletes a session
that it reads as expired.
-/

namespace Identity.StaffSession
open Js

/-- A `Date`, which may be invalid. -/
abbrev Date := Option ℤ

/-- `new Date(t)` -/
def newDate (t : ℤ) : Date := if -8640000000000000 ≤ t ∧ t ≤ 8640000000000000 then some t else none

def capMs : ℤ := 12 * 3600 * 1000

def afterCap (d : Date) : Date := d.bind fun t => newDate (t + capMs)

/-- `a.getTime() <= b.getTime()` -/
def Date.le : Date → Date → Bool
  | some a, some b => a ≤ b
  | _, _ => false

def earliest (a b : Date) : Date := if a.le b then a else b

structure Account where
  providerId : Text
  accountId : Text

structure Setting where
  /-- The addresses of the users. -/
  users : Text → Option Text
  accounts : Text → List Account
  staffDomains : List Text
  /-- The product's hook is configured. -/
  onStaffSignIn : Bool
  expiresIn : ℤ
  updateAge : ℤ

structure Session where
  token : Text
  userId : Text
  createdAt : ℤ
  expiresAt : Date

structure Classification where
  staff : Bool
  until_ : ℤ

abbrev Classified := AList fun _ : Text => Classification

def CLASSIFICATION_TTL_MS : ℤ := 30000

def CLASSIFICATION_MAX : ℕ := 10000

section
variable (lower : Text → Text) (setting : Setting)

def Setting.microsoft (userId : Text) : Bool := (setting.accounts userId).any fun a => a.providerId = text "microsoft"

def isStaff (userId : Text) : Bool :=
  setting.microsoft userId || (setting.users userId).any fun email => staffEmailIn lower email setting.staffDomains

def runStaffSignIn (userId oid : Text) (accepts : Bool) : Bool :=
  !setting.onStaffSignIn ||
    (setting.users userId).isSome && (setting.accounts userId).any (fun a => a.providerId = text "microsoft" && a.accountId = oid) &&
      accepts

/-- A Microsoft session without recorded claims did not come through the provider's checks. -/
def goesOn (userId : Text) (signIn : Option Text) (callback accepts : Bool) : Bool :=
  match signIn with
  | some oid => runStaffSignIn setting userId oid accepts
  | none => !(setting.onStaffSignIn && callback)

inductive Answer where
  /-- The sign-in fails. The user it may have created has no session. -/
  | refused
  | unchanged
  | expiresAt (d : Date)

/-- `create.before`. A field that is no `Date` is `none`; `callback` is the callback of the Microsoft provider. -/
def createBefore (userId : Text) (signIn : Option Text) (callback accepts : Bool)
    (expiresAt createdAt : Option Date) (now : ℤ) : Answer :=
  if !goesOn setting userId signIn callback accepts then .refused
  else if !isStaff lower setting userId then .unchanged
  else .expiresAt (earliest (expiresAt.getD (newDate (now + capMs))) (afterCap (createdAt.getD (newDate now))))

/-- `update.before`. `row` is the session of the request's cookie. -/
def updateBefore (expiresAt : Option Date) (row : Option Session) : Answer :=
  match expiresAt, row with
  | some requested, some x =>
    if !isStaff lower setting x.userId then .unchanged else .expiresAt (earliest requested (afterCap (some x.createdAt)))
  | _, _ => .unchanged

def remember (userId : Text) (staff : Bool) (now : ℤ) (memo : Classified) : Classified :=
  Memo.remember CLASSIFICATION_MAX userId ⟨staff, now + CLASSIFICATION_TTL_MS⟩ memo

def classify (memo : Classified) (now : ℤ) (id : Option Text) (email : Text) : Bool × Classified :=
  if staffEmailIn lower email setting.staffDomains then (true, memo)
  else
    match id with
    | none => (false, memo)
    | some id =>
      match (memo.lookup id).filter fun hit => hit.until_ > now with
      | some hit => (hit.staff, memo)
      | none => (setting.microsoft id, remember id (setting.microsoft id) now memo)

/-! ### The guard -/

variable {π : Type*}

structure State (π : Type*) where
  sessions : AList fun _ : Text => Session
  /-- The memo of each process. -/
  memo : π → Classified
  now : ℤ

/-- What the library finds: the session and the address of its user. -/
def State.load (s : State π) (token : Text) : Option (Session × Text) :=
  (s.sessions.lookup token).bind fun x => (setting.users x.userId).map fun email => (x, email)

structure Found where
  session : Option Session
  /-- The refresh is switched off for the request. -/
  skip : Bool
  memo : Classified

/-- `findSession`, as the guard wraps it. -/
def findSession (s : State π) (p : π) (token : Text) (hasRequestState : Bool) : Found :=
  match s.load setting token with
  | none => ⟨none, false, s.memo p⟩
  | some (x, email) =>
    let capAt := x.createdAt + capMs
    let overCap := x.expiresAt.any (· > capAt)
    let pastCap := decide (capAt < s.now)
    let due := x.expiresAt.any fun e => e - (setting.expiresIn - setting.updateAge) * 1000 ≤ s.now
    let mustDie := overCap && pastCap
    let skippable := !overCap && due
    if !mustDie && !skippable then ⟨some x, false, s.memo p⟩
    else
      let (staff, memo) := classify lower setting (s.memo p) s.now (some x.userId) email
      if !staff then ⟨some x, false, memo⟩
      else if mustDie then ⟨some { x with expiresAt := newDate capAt }, false, memo⟩
      else ⟨some x, hasRequestState, memo⟩

def State.listed (s : State π) (userId : Text) (active : Bool) : List Session :=
  (s.sessions.entries.map Sigma.snd).filter fun x => x.userId = userId && (!active || x.expiresAt.any (· > s.now))

/-- `listSessions`, as the guard wraps it. -/
def listSessions (s : State π) (p : π) (userId : Text) (active : Bool) : List Session × Classified :=
  let sessions := s.listed userId active
  let pastCap := fun x : Session => decide (x.createdAt + capMs < s.now)
  if !sessions.any pastCap then (sessions, s.memo p)
  else
    match setting.users userId with
    | none => (sessions, s.memo p)
    | some email =>
      let (staff, memo) := classify lower setting (s.memo p) s.now (some userId) email
      if !staff then (sessions, memo) else (sessions.filter fun x => !pastCap x, memo)

/-- A session to be created: what the library passes, and what the request knows of a staff sign-in. -/
structure New where
  session : Session
  signIn : Option Text
  callback : Bool
  accepts : Bool

inductive Event (π : Type*) where
  | create (n : New)
  /-- The library writes a new expiry to the session of the request's cookie. -/
  | refresh (token : Text) (expiresAt : Date)
  | read (p : π) (token : Text) (hasRequestState : Bool)
  | list (p : π) (userId : Text) (active : Bool)
  | pass (ms : ℕ)

def expired (x : Session) (now : ℤ) : Bool := x.expiresAt.any (· < now)

def State.write (s : State π) (x : Session) : State π := { s with sessions := Memo.put x.token x s.sessions }

variable [DecidableEq π]

def step (s : State π) : Event π → State π
  | .create n =>
    if n.session.token ∈ s.sessions then s
    else
      match createBefore lower setting n.session.userId n.signIn n.callback n.accepts (some n.session.expiresAt)
          (some (some n.session.createdAt)) s.now with
      | .refused => s
      | .unchanged => s.write n.session
      | .expiresAt d => s.write { n.session with expiresAt := d }
  | .refresh token expiresAt =>
    match s.sessions.lookup token with
    | none => s
    | some x =>
      match updateBefore lower setting (some expiresAt) (some x) with
      | .expiresAt d => { s with sessions := Memo.put token { x with expiresAt := d } s.sessions }
      | _ => { s with sessions := Memo.put token { x with expiresAt } s.sessions }
  | .read p token hasRequestState =>
    let found := findSession lower setting s p token hasRequestState
    let s := { s with memo := Function.update s.memo p found.memo }
    if found.session.any (expired · s.now) then { s with sessions := s.sessions.erase token } else s
  | .list p userId active => { s with memo := Function.update s.memo p (listSessions lower setting s p userId active).2 }
  | .pass ms => { s with now := s.now + ms }

def run (s : State π) (es : List (Event π)) : State π := es.foldl (step lower setting) s

end

end Identity.StaffSession
