import AppPlatform.Lib.Calls
import AppPlatform.Lib.Memo
import AppPlatform.Lib.Text
import Mathlib.Logic.Function.Basic

/-!
# The ban of a user, seen by one process

`bannedSessionGuard` asks the user's row whether a user is banned, and remembers for a while that one
is not. `setUserBanned` updates the row and then forgets what was remembered. Every call is split at
its awaits: what it asked, the row the database read for it, and what it does with the row.
-/

namespace Identity.BannedGuard
open Js

/-- How long "this user is not banned" is believed per process, and for how many users. -/
def notBannedTtlMs : ℤ := 30000

def memoMax : ℕ := 10000

/-- A stored date: absent, a moment, or a value `Date` cannot read. -/
inductive Expiry where
  | never
  | at (ms : ℤ)
  | unreadable
  deriving DecidableEq

structure UserRow where
  banned : Option Bool
  banReason : Option Text
  banExpires : Expiry
  updatedAt : ℤ
  deriving DecidableEq

def isBannedRow (user : UserRow) (now : ℤ) : Bool :=
  user.banned = some true &&
    match user.banExpires with
    | .never => true
    | .at ms => now < ms
    | .unreadable => false

/-- What `findSession` of the library answers: the session and the user it carries, maybe a cached copy. -/
structure Found where
  expiresAt : ℤ
  id : Option Text
  user : UserRow
  deriving DecidableEq

/-- The session comes back expired. -/
def dead (found : Found) : Found := { found with expiresAt := 0 }

/-- Who waits for a fresh read of the user's row. -/
inductive Asker where
  | session (found : Found) (id : Text) (named : found.id = some id)
  | isBanned (userId : Text)
  deriving DecidableEq

def Asker.userId : Asker → Text
  | .session _ id _ => id
  | .isBanned userId => userId

inductive Phase where
  | idle
  | finding
  | asking (userId : Text)
  /-- `findUserById` is called, and not served yet. -/
  | reading (asker : Asker)
  | read (asker : Asker) (fresh : Option UserRow)
  | noSession
  | session (found returned : Found)
  | answered (userId : Text) (banned : Bool)
  | checking (userId : Text) (banned : Bool) (reason : Option Text)
  | updating (userId : Text) (banned : Bool) (reason : Option Text)
  | updated (userId : Text) (banned : Bool)
  /-- The events and the purge of the sessions follow. -/
  | forgotten (userId : Text) (banned : Bool)
  | threw
  deriving DecidableEq

inductive Call where
  | findSession
  | isUserBanned (userId : Text)
  | setUserBanned (userId : Text) (banned : Bool) (reason : Option Text) (cacheAvailable : Bool)

inductive Event (ι : Type*) where
  | begin (r : ι) (call : Call)
  | found (r : ι) (found : Option Found)
  | check (r : ι)
  | query (r : ι)
  | resume (r : ι)
  | lookup (r : ι)
  | update (r : ι)
  | forget (r : ι)
  /-- Anyone else writes or deletes the row of a user. -/
  | write (userId : Text) (row : Option UserRow)
  | tick (now : ℤ)

structure State (ι : Type*) extends Calls ι Phase where
  users : Text → Option UserRow
  believedNotBanned : AList fun _ : Text => ℤ
  now : ℤ

variable {ι : Type*} [DecidableEq ι]

namespace State

abbrev toPhase (s : State ι) (r : ι) (p : Phase) : State ι := { s with toCalls := s.move r p }

/-- `until !== undefined && until > Date.now()`. -/
def believed (s : State ι) (userId : Text) : Bool :=
  match s.believedNotBanned.lookup userId with
  | some till => s.now < till
  | none => false

def rememberNotBanned (s : State ι) (userId : Text) : State ι :=
  { s with believedNotBanned := Memo.remember memoMax userId (s.now + notBannedTtlMs) s.believedNotBanned }

def forgetBan (s : State ι) (userId : Text) : State ι :=
  { s with believedNotBanned := s.believedNotBanned.erase userId }

end State

def Asker.answer (asker : Asker) (banned : Bool) : Phase :=
  match asker with
  | .session found _ _ => .session found (if banned then dead found else found)
  | .isBanned userId => .answered userId banned

/-- The memo is asked first, the database if it does not know. -/
def ask (s : State ι) (r : ι) (asker : Asker) : State ι :=
  if s.believed asker.userId then s.toPhase r (asker.answer false) else s.toPhase r (.reading asker)

def freshlyBanned (fresh : Option UserRow) (now : ℤ) : Bool :=
  match fresh with
  | some row => isBannedRow row now
  | none => false

def resumed (s : State ι) (r : ι) (asker : Asker) (fresh : Option UserRow) : State ι :=
  if freshlyBanned fresh s.now then (s.forgetBan asker.userId).toPhase r (asker.answer true)
  else (s.rememberNotBanned asker.userId).toPhase r (asker.answer false)

/-- `findSession`, once the session is loaded. -/
def foundSession (s : State ι) (r : ι) : Option Found → State ι
  | none => s.toPhase r .noSession
  | some found =>
    if isBannedRow found.user s.now then s.toPhase r (.session found (dead found))
    else match named : found.id with
      | none => s.toPhase r (.session found found)
      | some id => ask s r (.session found id named)

/-- The row `setUserBanned` writes, at most 500 units of the reason with it. -/
def bannedRow (banned : Bool) (reason : Option Text) (now : ℤ) : UserRow where
  banned := some banned
  banReason := if banned then reason.map (List.take 500) else none
  banExpires := .never
  updatedAt := now

def begun : Call → Phase
  | .findSession => .finding
  | .isUserBanned userId => .asking userId
  | .setUserBanned userId banned reason cacheAvailable =>
    if banned && !cacheAvailable then .threw else .checking userId banned reason

def step (s : State ι) : Event ι → Option (State ι)
  | .begin r call => if s.phase r = .idle then some (s.toPhase r (begun call)) else none
  | .found r found => if s.phase r = .finding then some (foundSession s r found) else none
  | .check r =>
    match s.phase r with
    | .asking userId => some (ask s r (.isBanned userId))
    | _ => none
  | .query r =>
    match s.phase r with
    | .reading asker => some (s.toPhase r (.read asker (s.users asker.userId)))
    | _ => none
  | .resume r =>
    match s.phase r with
    | .read asker fresh => some (resumed s r asker fresh)
    | _ => none
  | .lookup r =>
    match s.phase r with
    | .checking userId banned reason =>
      some (s.toPhase r (if s.users userId = none then .threw else .updating userId banned reason))
    | _ => none
  | .update r =>
    match s.phase r with
    | .updating userId banned reason =>
      let row := (s.users userId).map fun _ => bannedRow banned reason s.now
      some ({ s with users := Function.update s.users userId row }.toPhase r (.updated userId banned))
    | _ => none
  | .forget r =>
    match s.phase r with
    | .updated userId banned => some ((s.forgetBan userId).toPhase r (.forgotten userId banned))
    | _ => none
  | .write userId row => some { s with users := Function.update s.users userId row }
  | .tick now => some { s with now := now }

/-- Everything a step can do. -/
inductive Taken (s : State ι) : Event ι → State ι → Prop where
  | begin (r : ι) (call : Call) (idle : s.phase r = .idle) : Taken s (.begin r call) (s.toPhase r (begun call))
  | found (r : ι) (found : Option Found) (finding : s.phase r = .finding) : Taken s (.found r found) (foundSession s r found)
  | check (r : ι) (userId : Text) (asking : s.phase r = .asking userId) : Taken s (.check r) (ask s r (.isBanned userId))
  | query (r : ι) (asker : Asker) (reading : s.phase r = .reading asker) :
      Taken s (.query r) (s.toPhase r (.read asker (s.users asker.userId)))
  | resume (r : ι) (asker : Asker) (fresh : Option UserRow) (read : s.phase r = .read asker fresh) :
      Taken s (.resume r) (resumed s r asker fresh)
  | lookup (r : ι) (userId : Text) (banned : Bool) (reason : Option Text) (checking : s.phase r = .checking userId banned reason) :
      Taken s (.lookup r) (s.toPhase r (if s.users userId = none then .threw else .updating userId banned reason))
  | update (r : ι) (userId : Text) (banned : Bool) (reason : Option Text) (updating : s.phase r = .updating userId banned reason) :
      Taken s (.update r)
        ({ s with users := Function.update s.users userId ((s.users userId).map fun _ => bannedRow banned reason s.now) }.toPhase r
          (.updated userId banned))
  | forget (r : ι) (userId : Text) (banned : Bool) (updated : s.phase r = .updated userId banned) :
      Taken s (.forget r) ((s.forgetBan userId).toPhase r (.forgotten userId banned))
  | write (userId : Text) (row : Option UserRow) :
      Taken s (.write userId row) { s with users := Function.update s.users userId row }
  | tick (now : ℤ) : Taken s (.tick now) { s with now := now }

theorem step_taken {s t : State ι} {e : Event ι} (taken : step s e = some t) : Taken s e t := by
  cases e with
  | begin r call =>
    obtain ⟨idle, next⟩ := Option.ite_none_right_eq_some.mp taken
    obtain rfl := Option.some.inj next
    exact .begin r call idle
  | found r found =>
    obtain ⟨finding, next⟩ := Option.ite_none_right_eq_some.mp taken
    obtain rfl := Option.some.inj next
    exact .found r found finding
  | check r =>
    simp only [step] at taken
    split at taken
    · rename_i userId asking
      obtain rfl := Option.some.inj taken
      exact .check r userId asking
    · cases taken
  | query r =>
    simp only [step] at taken
    split at taken
    · rename_i asker reading
      obtain rfl := Option.some.inj taken
      exact .query r asker reading
    · cases taken
  | resume r =>
    simp only [step] at taken
    split at taken
    · rename_i asker fresh read
      obtain rfl := Option.some.inj taken
      exact .resume r asker fresh read
    · cases taken
  | lookup r =>
    simp only [step] at taken
    split at taken
    · rename_i userId banned reason checking
      obtain rfl := Option.some.inj taken
      exact .lookup r userId banned reason checking
    · cases taken
  | update r =>
    simp only [step] at taken
    split at taken
    · rename_i userId banned reason updating
      obtain rfl := Option.some.inj taken
      exact .update r userId banned reason updating
    · cases taken
  | forget r =>
    simp only [step] at taken
    split at taken
    · rename_i userId banned updated
      obtain rfl := Option.some.inj taken
      exact .forget r userId banned updated
    · cases taken
  | write userId row =>
    obtain rfl := Option.some.inj taken
    exact .write userId row
  | tick now =>
    obtain rfl := Option.some.inj taken
    exact .tick now

end Identity.BannedGuard
