import AppPlatform.Lib.Calls
import AppPlatform.Lib.KeyValue
import AppPlatform.Lib.Run
import AppPlatform.Lib.Text

/-!
# Locks with an owner token

`tryLock` sets a key to a token of its own, if the key is free; `release` and `extend` compare the token on
the server. A call is one command: it is sent, and the server runs it some time later, if at all.
-/

namespace Locks
open Js KeyValue

/-- A number that `Number.isInteger` accepts and that is positive. -/
def positiveInteger? (n : ℚ) : Option ℕ := if n.den = 1 ∧ 0 < n.num then some n.num.toNat else none

/-- What `tryLock` resolves to. -/
structure CacheLock where
  key : Text
  token : Text
  released : Bool

inductive Phase (ι : Type*) where
  | idle
  | setting (key token : Text) (ttlMs : ℕ)
  | granted
  | refused
  | releasing (lock : ι)
  | extending (lock : ι) (ms : ℕ)
  | answered (answer : Bool)
  | threw

/-- `connected` tells whether there is a client when the call is made. -/
inductive Event (ι : Type*) where
  | tryLock (c : ι) (key : Text) (ttlMs : ℚ) (token : Text) (connected : Bool)
  | release (c lock : ι) (connected : Bool)
  | extend (c lock : ι) (ms : ℚ) (connected : Bool)
  | run (c : ι) (call : Call)
  | advance (ms : ℕ)

/-- `drawn` lists the key and the token of each `tryLock` that reached its command: no call reads it. -/
structure State (ι : Type*) extends Calls ι (Phase ι) where
  store : Store Text Text
  locks : ι → Option CacheLock
  drawn : ι → Option (Text × Text)

def lockKey (key : Text) : Text := text "lock:" ++ key

variable {ι : Type*} [DecidableEq ι]

abbrev State.toPhase (s : State ι) (c : ι) (p : Phase ι) : State ι := { s with toCalls := s.move c p }

def tryLock (s : State ι) (c : ι) (key : Text) (ttlMs : ℚ) (token : Text) (connected : Bool) : State ι :=
  match positiveInteger? ttlMs with
  | none => s.toPhase c .threw
  | some ttlMs =>
    if connected then
      { s with drawn := Function.update s.drawn c (some (key, token)) }.toPhase c (.setting key token ttlMs)
    else s.toPhase c .refused

def release (s : State ι) (c lock : ι) (held : CacheLock) (connected : Bool) : State ι :=
  if held.released || !connected then s.toPhase c (.answered false)
  else { s with locks := Function.update s.locks lock (some { held with released := true }) }.toPhase c (.releasing lock)

def extend (s : State ι) (c lock : ι) (held : CacheLock) (ms : ℚ) (connected : Bool) : State ι :=
  match positiveInteger? ms with
  | none => s.toPhase c .threw
  | some ms => if held.released || !connected then s.toPhase c (.answered false) else s.toPhase c (.extending lock ms)

/-- `SET key token PX ttlMs NX`; the lock is there once the reply is. -/
def ranSet (s : State ι) (c : ι) (key token : Text) (ttlMs : ℕ) (answered : Bool) : State ι :=
  match s.store.setIfAbsent (lockKey key) token ttlMs with
  | some store =>
    if answered then
      { s with store := store, locks := Function.update s.locks c (some ⟨key, token, false⟩) }.toPhase c .granted
    else { s with store := store }.toPhase c .threw
  | none => s.toPhase c (if answered then .refused else .threw)

/-- `RELEASE_LUA`. -/
def ranRelease (s : State ι) (c : ι) (held : CacheLock) (answered : Bool) : State ι :=
  let same := s.store.get (lockKey held.key) = some held.token
  { s with store := s.store.delIf (lockKey held.key) held.token }.toPhase c (if answered then .answered same else .threw)

/-- `EXTEND_LUA`. -/
def ranExtend (s : State ι) (c : ι) (held : CacheLock) (ms : ℕ) (answered : Bool) : State ι :=
  let same := s.store.get (lockKey held.key) = some held.token
  { s with store := s.store.expireIf (lockKey held.key) held.token ms }.toPhase c
    (if answered then .answered same else .threw)

def ran (s : State ι) (c : ι) (answered : Bool) : Option (State ι) :=
  match s.phase c with
  | .setting key token ttlMs => some (ranSet s c key token ttlMs answered)
  | .releasing lock => (s.locks lock).map fun held => ranRelease s c held answered
  | .extending lock ms => (s.locks lock).map fun held => ranExtend s c held ms answered
  | _ => none

def Phase.sent : Phase ι → Bool
  | .setting .. => true
  | .releasing _ => true
  | .extending .. => true
  | _ => false

def step (s : State ι) : Event ι → Option (State ι)
  | .tryLock c key ttlMs token connected =>
    match s.phase c with
    | .idle => some (tryLock s c key ttlMs token connected)
    | _ => none
  | .release c lock connected =>
    match s.phase c, s.locks lock with
    | .idle, some held => some (release s c lock held connected)
    | _, _ => none
  | .extend c lock ms connected =>
    match s.phase c, s.locks lock with
    | .idle, some held => some (extend s c lock held ms connected)
    | _, _ => none
  | .run c .lost => if (s.phase c).sent then some (s.toPhase c .threw) else none
  | .run c .unanswered => ran s c false
  | .run c .ok => ran s c true
  | .advance ms => some { s with store := s.store.advance ms }

/-- Every `tryLock` draws a token that was not drawn before. -/
def Distinct (s : State ι) : Event ι → Prop
  | .tryLock _ _ _ token _ => ∀ c key, s.drawn c ≠ some (key, token)
  | _ => True

end Locks
