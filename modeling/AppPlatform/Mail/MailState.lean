import AppPlatform.Mail.Pacing

/-!
# The two mail states

`createValkeyMailState` runs scripts over keys with a time to live; `MemoryMailState` keeps maps with
deadlines of its own and buckets that never expire. Both draw a token for a claim; `n` names the
token, which the two draw differently.
-/

namespace Mail
open Js
open TokenBucket (Bucket)

inductive Operation where
  | claim (key : Text) (leaseSeconds n : ℕ)
  | markSent (key id : Text) (ttlSeconds : ℕ)
  | renew (key : Text) (n leaseSeconds : ℕ)
  | release (key : Text) (n : ℕ)
  | takeSlot (mailbox : Text)
  | backOff (mailbox : Text) (seconds : ℕ)
  /-- The clock advances. -/
  | pass (ms : ℕ)

inductive Reply where
  | claim (result : ClaimResult)
  | renewed (held : Bool)
  | slot (wait : ℤ)
  | done
  /-- The script fails. -/
  | failed
  deriving DecidableEq

structure Valkey where
  server : Server
  micros : ℕ

def Valkey.create (micros : ℕ) : Valkey := ⟨.empty (micros / 1000), micros⟩

def Valkey.writeStrings (s : Valkey) (strings : Store) : Valkey := { s with server := { s.server with strings } }

def Valkey.perform (lower : Text → Text) (token : ℕ → Text) (s : Valkey) : Operation → Reply × Valkey
  | .claim key leaseSeconds n =>
    let result := claim s.server.strings (wire key) (token n) leaseSeconds
    (.claim result.1, s.writeStrings result.2)
  | .markSent key id ttlSeconds => (.done, s.writeStrings (markSent s.server.strings (wire key) (wire id) ttlSeconds))
  | .renew key n leaseSeconds =>
    (.renewed (s.server.strings.get (wire key) = some (claimedValue (token n))),
      s.writeStrings (renew s.server.strings (wire key) (token n) leaseSeconds))
  | .release key n => (.done, s.writeStrings (release s.server.strings (wire key) (token n)))
  | .takeSlot mailbox =>
    let result := takeSlot lower s.server mailbox (timeOf s.micros)
    (.slot result.1, { s with server := result.2 })
  | .backOff mailbox seconds =>
    match backOff lower s.server mailbox seconds with
    | some server => (.done, { s with server })
    | none => (.failed, s)
  | .pass ms => (.done, ⟨s.server.advance ms, s.micros + 1000 * ms⟩)

/-! ### Memory -/

structure MemoryEntry where
  value : Text
  expiresAt : ℕ

structure Memory where
  entries : Text → Option MemoryEntry
  buckets : Text → Option (Bucket ℚ)
  cooldowns : Text → Option ℤ
  now : ℕ

namespace Memory

def create (now : ℕ) : Memory := ⟨fun _ => none, fun _ => none, fun _ => none, now⟩

/-- `live`: an entry that has expired is deleted. -/
def live (m : Memory) (key : Text) : Option Text × Memory :=
  match m.entries key with
  | none => (none, m)
  | some e =>
    if e.expiresAt ≤ m.now then (none, { m with entries := Function.update m.entries key none })
    else (some e.value, m)

def set (m : Memory) (key value : Text) (seconds : ℕ) : Memory :=
  { m with entries := Function.update m.entries key (some ⟨value, m.now + seconds * 1000⟩) }

def claim (m : Memory) (key token : Text) (leaseSeconds : ℕ) : ClaimResult × Memory :=
  match m.live key with
  | (none, m) => (.claimed token, m.set key (claimedValue token) leaseSeconds)
  | (some value, m) =>
    if (text "sent:").isPrefixOf value then (.sent (value.drop 5), m) else (.inFlight, m)

def markSent (m : Memory) (key id : Text) (ttlSeconds : ℕ) : Memory := m.set key (sentValue id) ttlSeconds

def renew (m : Memory) (key token : Text) (leaseSeconds : ℕ) : Bool × Memory :=
  match m.live key with
  | (value, m) =>
    if value ≠ some (claimedValue token) then (false, m)
    else (true, m.set key (claimedValue token) leaseSeconds)

def release (m : Memory) (key token : Text) : Memory :=
  match m.live key with
  | (value, m) =>
    if value = some (claimedValue token) then { m with entries := Function.update m.entries key none } else m

def backOff (lower : Text → Text) (m : Memory) (mailbox : Text) (seconds : ℚ) : Memory :=
  let until_ := (m.now : ℤ) + ⌈seconds * 1000⌉
  if (m.cooldowns (lower mailbox)).getD 0 < until_ then
    { m with cooldowns := Function.update m.cooldowns (lower mailbox) (some until_) }
  else m

def fill (m : Memory) (name : Text) (b : Bucket ℚ) : Memory :=
  { m with buckets := Function.update m.buckets name (some b) }

def takeSlot (lower : Text → Text) (m : Memory) (mailbox : Text) : ℤ × Memory :=
  let name := lower mailbox
  let cooldown := (m.cooldowns name).getD 0 - m.now
  if 0 < cooldown then (cooldown, m)
  else
    let bucket := (m.buckets name).getD ⟨MAIL_RATE.burst, m.now⟩
    let tokens := min (MAIL_RATE.burst : ℚ) (bucket.tokens + ((m.now : ℚ) - bucket.asOf) * ratePerMs)
    if 1 ≤ tokens then (0, m.fill name ⟨tokens - 1, m.now⟩)
    else (⌈(1 - tokens) / ratePerMs⌉, m.fill name ⟨tokens, m.now⟩)

def perform (lower : Text → Text) (token : ℕ → Text) (m : Memory) : Operation → Reply × Memory
  | .claim key leaseSeconds n =>
    let result := m.claim key (token n) leaseSeconds
    (.claim result.1, result.2)
  | .markSent key id ttlSeconds => (.done, m.markSent key id ttlSeconds)
  | .renew key n leaseSeconds =>
    let result := m.renew key (token n) leaseSeconds
    (.renewed result.1, result.2)
  | .release key n => (.done, m.release key (token n))
  | .takeSlot mailbox =>
    let result := m.takeSlot lower mailbox
    (.slot result.1, result.2)
  | .backOff mailbox seconds => (.done, m.backOff lower mailbox seconds)
  | .pass ms => (.done, { m with now := m.now + ms })

def entry (m : Memory) (key : Text) : Option MemoryEntry := (m.entries key).filter fun e => m.now < e.expiresAt

theorem live_spec (m : Memory) (key : Text) :
    (m.live key).1 = (m.entry key).map MemoryEntry.value ∧ (m.live key).2.entry = m.entry ∧
    (m.live key).2.now = m.now ∧ (m.live key).2.buckets = m.buckets ∧ (m.live key).2.cooldowns = m.cooldowns := by
  cases found : m.entries key with
  | none =>
    have absent : m.live key = (none, m) := by rw [live, found]
    rw [absent]
    exact ⟨by rw [entry, found]; rfl, rfl, rfl, rfl, rfl⟩
  | some e =>
    by_cases expired : e.expiresAt ≤ m.now
    · have gone : m.live key = (none, { m with entries := Function.update m.entries key none }) := by
        rw [live, found]
        exact if_pos expired
      have unread : m.entry key = none := by
        rw [entry, found, Option.filter_some, decide_eq_false (by omega)]
        rfl
      rw [gone, unread]
      refine ⟨rfl, ?_, rfl, rfl, rfl⟩
      funext key'
      by_cases same : key' = key
      · subst same
        rw [unread]
        simp [entry]
      · simp only [entry, Function.update_of_ne same]
    · have alive : m.live key = (some e.value, m) := by
        rw [live, found]
        exact if_neg expired
      rw [alive]
      refine ⟨?_, rfl, rfl, rfl, rfl⟩
      rw [entry, found, Option.filter_some, decide_eq_true (by omega)]
      rfl

theorem entry_set_same (m : Memory) (key value : Text) {seconds : ℕ} (positive : 0 < seconds) :
    (m.set key value seconds).entry key = some ⟨value, m.now + seconds * 1000⟩ := by
  have alive : m.now < m.now + seconds * 1000 := by omega
  simp [entry, set, alive, Option.filter_some]

theorem entry_set_other (m : Memory) {key key' : Text} (value : Text) (seconds : ℕ) (differs : key' ≠ key) :
    (m.set key value seconds).entry key' = m.entry key' := by
  simp only [entry, set, Function.update_of_ne differs]
  rfl

end Memory

end Mail
