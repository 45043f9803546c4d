import AppPlatform.Lib.Calls
import AppPlatform.Lib.KeyValue
import AppPlatform.Lib.Run
import AppPlatform.Lib.Text

/-!
# Lockout of accounts

`admit` counts an attempt before the password is looked at: by device and by account for a known device, by
address and by account for any other. Counters carry a generation, and `clearAttempts` moves it. Every call
runs its commands one at a time, in any interleaving with the others.
-/

namespace Identity.Lockout
open Js KeyValue

structure PerAccountAndIp where
  maxAttempts : ℕ
  windowSeconds : ℕ

structure PerAccount where
  freeAttempts : ℕ
  delayStepMs : ℕ
  maxDelayMs : ℕ
  ceiling : ℕ
  windowSeconds : ℕ

structure KnownDeviceLimits where
  maxAttempts : ℕ
  windowSeconds : ℕ
  accountMaxAttempts : ℕ
  accountWindowSeconds : ℕ

def perAccountAndIp : PerAccountAndIp where
  maxAttempts := 5
  windowSeconds := 15 * 60

def perAccount : PerAccount where
  freeAttempts := 5
  delayStepMs := 200
  maxDelayMs := 5000
  ceiling := 50
  windowSeconds := 3600

def knownDevice : KnownDeviceLimits where
  maxAttempts := 5
  windowSeconds := 15 * 60
  accountMaxAttempts := 20
  accountWindowSeconds := 3600

def genSeconds : ℕ := 30 * 24 * 3600

inductive Kind where
  | signin
  | twoFactor
  deriving DecidableEq

def Kind.text : Kind → Text
  | .signin => Js.text "signin"
  | .twoFactor => Js.text "2fa"

/-- `deviceId` is that of a valid cookie. -/
structure Attempt where
  kind : Kind
  subject : Text
  ip : Text
  deviceId : Option Text
  deriving DecidableEq

/-- An empty id counts for none. -/
def Attempt.device? (a : Attempt) : Option Text := a.deviceId.filter (· ≠ [])

namespace lockoutKeys

/-- `digest` is the hash of a subject, trimmed and in lower case. -/
def gen (digest : Text → Text) (subject : Text) : Text := text "lockout:" ++ (text "gen:" ++ digest subject)

/-- What is common to the keys of counters. -/
def counter (digest : Text → Text) (tag : String) (kind : Kind) (gen : ℕ) (subject : Text) : Text :=
  text "lockout:" ++ (kind.text ++ (text tag ++ (natText gen ++ (text ":" ++ digest subject))))

def account (digest : Text → Text) (kind : Kind) (gen : ℕ) (subject : Text) : Text := counter digest ":acct:" kind gen subject

def accountAndIp (digest : Text → Text) (kind : Kind) (gen : ℕ) (subject ip : Text) : Text :=
  counter digest ":ip:" kind gen subject ++ (text ":" ++ ip)

def devices (digest : Text → Text) (kind : Kind) (gen : ℕ) (subject : Text) : Text := counter digest ":devs:" kind gen subject

def device (digest : Text → Text) (kind : Kind) (gen : ℕ) (subject deviceId : Text) : Text :=
  counter digest ":dev:" kind gen subject ++ (text ":" ++ deviceId)

end lockoutKeys

/-- The counters of `admit`, by the names of their values. -/
inductive Counter where
  | mine
  | together
  | here
  | total
  deriving DecidableEq

def Counter.key (digest : Text → Text) (a : Attempt) (gen : ℕ) : Counter → Text
  | .mine => lockoutKeys.device digest a.kind gen a.subject (a.device?.getD [])
  | .together => lockoutKeys.devices digest a.kind gen a.subject
  | .here => lockoutKeys.accountAndIp digest a.kind gen a.subject a.ip
  | .total => lockoutKeys.account digest a.kind gen a.subject

def Counter.windowSeconds : Counter → ℕ
  | .mine => knownDevice.windowSeconds
  | .together => knownDevice.accountWindowSeconds
  | .here => perAccountAndIp.windowSeconds
  | .total => perAccount.windowSeconds

def Counter.limit : Counter → ℕ
  | .mine => knownDevice.maxAttempts
  | .together => knownDevice.accountMaxAttempts
  | .here => perAccountAndIp.maxAttempts
  | .total => perAccount.ceiling

/-! ### Calls -/

inductive Path where
  | device
  | address
  deriving DecidableEq

inductive Phase where
  | idle
  | reading (a : Attempt)
  | counting (a : Attempt) (gen : ℕ) (counter : Counter)
  | admitted (path : Path) (delayMs : ℕ)
  | refused
  | clearing (subject : Text)
  | bumping (subject : Text) (gen : ℕ)
  | cleared
  deriving DecidableEq

inductive Event (ι : Type*) where
  | admitAttempt (c : ι) (a : Attempt)
  | clearAttempts (c : ι) (subject : Text)
  | generation (c : ι) (call : Call)
  | increment (c : ι) (counter : Counter) (call : Call)
  | set (c : ι) (call : Call)
  | advance (ms : ℕ)

/-- What a call was answered for a counter; `window` tells the counter's windows apart. -/
structure Counted where
  key : Text
  window : ℕ
  n : ℕ
  deriving DecidableEq

/-- No call reads what follows `phase`. `serial` counts the increments, `opened` is the one that started a key's window,
`charged` lists the calls counted in it, and `counted` what each call was answered; `began` is the serial at which
`clearAttempts` was called, and `forgotten` the last one of those that are done, by digest. -/
structure State (ι : Type*) extends Calls ι Phase where
  store : Store Text ℕ
  attempt : ι → Option Attempt
  serial : ℕ
  opened : Text → ℕ
  charged : Text → List ι
  counted : ι → Counter → Option Counted
  began : ι → ℕ
  forgotten : Text → ℕ

def generation (digest : Text → Text) (store : Store Text ℕ) (subject : Text) (call : Call) : ℕ :=
  if call = .ok then (store.get (lockoutKeys.gen digest subject)).getD 0 else 0

/-- `gen + 1`, which is rounded when it is no longer exact. -/
def bump (gen : ℕ) : ℕ := if gen < 2 ^ 53 then gen + 1 else gen

/-- `storage.increment`, which answers 0 when it fails. -/
def increment (store : Store Text ℕ) (key : Text) (windowSeconds : ℕ) : Call → Store Text ℕ × ℕ
  | .lost => (store, 0)
  | .unanswered => ((store.count key (windowSeconds * 1000)).1, 0)
  | .ok => store.count key (windowSeconds * 1000)

def delayMs (total : ℕ) : ℕ :=
  if perAccount.freeAttempts < total then
    min ((total - perAccount.freeAttempts) * perAccount.delayStepMs) perAccount.maxDelayMs
  else 0

/-- What `admit` does with the value of a counter. -/
def decided (a : Attempt) (gen : ℕ) : Counter → ℕ → Phase
  | .mine, mine => if knownDevice.maxAttempts < mine then .refused else .counting a gen .together
  | .together, together => if together ≤ knownDevice.accountMaxAttempts then .admitted .device 0 else .counting a gen .here
  | .here, here => if perAccountAndIp.maxAttempts < here then .refused else .counting a gen .total
  | .total, total => if perAccount.ceiling < total then .refused else .admitted .address (delayMs total)

variable {ι : Type*} [DecidableEq ι]

abbrev State.toPhase (s : State ι) (c : ι) (p : Phase) : State ι := { s with toCalls := s.move c p }

def admitAttempt (s : State ι) (c : ι) (a : Attempt) : State ι :=
  { s with attempt := Function.update s.attempt c (some a) }.toPhase c (.reading a)

def clearAttempts (s : State ι) (c : ι) (subject : Text) : State ι :=
  { s with began := Function.update s.began c s.serial }.toPhase c (.clearing subject)

def Attempt.first (a : Attempt) : Counter := if a.device?.isSome then .mine else .here

def incremented (digest : Text → Text) (s : State ι) (c : ι) (a : Attempt) (gen : ℕ) (counter : Counter)
    (call : Call) : State ι :=
  let key := counter.key digest a gen
  let reply := increment s.store key counter.windowSeconds call
  let window := if (s.store.live key).isSome then s.opened key else s.serial
  let before := if (s.store.live key).isSome then s.charged key else []
  { s with
    store := reply.1
    serial := s.serial + 1
    opened := Function.update s.opened key window
    charged := Function.update s.charged key (before ++ [c])
    counted := Function.update s.counted c (Function.update (s.counted c) counter (some ⟨key, window, reply.2⟩)) }.toPhase c
      (decided a gen counter reply.2)

def stored (digest : Text → Text) (s : State ι) (c : ι) (subject : Text) (gen : ℕ) (call : Call) : State ι :=
  { s with
    store := call.apply (fun store => store.set (lockoutKeys.gen digest subject) (bump gen) (some (genSeconds * 1000))) s.store
    forgotten := Function.update s.forgotten (digest subject) (max (s.forgotten (digest subject)) (s.began c)) }.toPhase c .cleared

def step (digest : Text → Text) (s : State ι) : Event ι → Option (State ι)
  | .admitAttempt c a =>
    match s.phase c with
    | .idle => some (admitAttempt s c a)
    | _ => none
  | .clearAttempts c subject =>
    match s.phase c with
    | .idle => some (clearAttempts s c subject)
    | _ => none
  | .generation c call =>
    match s.phase c with
    | .reading a => some (s.toPhase c (.counting a (generation digest s.store a.subject call) a.first))
    | .clearing subject => some (s.toPhase c (.bumping subject (generation digest s.store subject call)))
    | _ => none
  | .increment c counter call =>
    match s.phase c with
    | .counting a gen counter' => if counter' = counter then some (incremented digest s c a gen counter call) else none
    | _ => none
  | .set c call =>
    match s.phase c with
    | .bumping subject gen => some (stored digest s c subject gen call)
    | _ => none
  | .advance ms => some { s with store := s.store.advance ms }

def Working (_ : State ι) : Event ι → Prop
  | .generation _ call => call = .ok
  | .increment _ _ call => call = .ok
  | .set _ call => call = .ok
  | _ => True

instance (s : State ι) : (e : Event ι) → Decidable (Working s e)
  | .admitAttempt .. => .isTrue trivial
  | .clearAttempts .. => .isTrue trivial
  | .generation _ call => inferInstanceAs (Decidable (call = .ok))
  | .increment _ _ call => inferInstanceAs (Decidable (call = .ok))
  | .set _ call => inferInstanceAs (Decidable (call = .ok))
  | .advance _ => .isTrue trivial

/-- No attempt was made, and no account cleared: whatever generations there are. -/
structure Start (digest : Text → Text) (s : State ι) : Prop where
  idle : ∀ c, s.phase c = .idle
  counters : ∀ a gen counter, s.store.live (Counter.key digest a gen counter) = none
  counted : ∀ c counter, s.counted c counter = none
  attempt : ∀ c, s.attempt c = none
  forgotten : ∀ d, s.forgotten d = 0

end Identity.Lockout
