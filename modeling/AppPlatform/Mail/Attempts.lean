import AppPlatform.Mail.Ledger
import AppPlatform.Lib.Run

/-!
# Attempts at one message

Every delivery, redelivery or retry of a job for one message is an attempt. Attempts share the
ledger and run in any number of workers; a worker may die at any step, and a request it already
made may still reach the provider.
-/

namespace Mail
open Js
open KeyValue (Call)

def MAIL_MAX_SLOT_WAIT_MS : ℕ := 120000

structure Config (ι : Type*) where
  key : Text
  /-- `randomUUID` of each attempt. -/
  token : ι → Text
  token_injective : Function.Injective token

variable {ι : Type*}

/-- Why an attempt fails after it took the claim. -/
inductive Failure where
  | slotCall
  | throttled (retryAfterSeconds : ℕ)
  | aborted
  | timeout
  | sender
  deriving DecidableEq

inductive Phase where
  | idle
  | skipped (id : Text)
  | inFlight
  /-- The ledger did not answer the claim. -/
  | unclaimed
  | waiting (waitedMs : ℕ)
  | sleeping (waitedMs waitMs : ℕ)
  /-- The request is with the sender; the provider accepted it or not. -/
  | sending (accepted : Bool)
  /-- The worker died while its request was out. -/
  | orphaned (accepted : Bool)
  | marking (id : Text)
  | failing (cause : Failure)
  | delivered (recorded : Bool)
  | failed (cause : Failure)
  | crashed
  deriving DecidableEq

structure State (ι : Type*) where
  store : Store
  phase : ι → Phase
  aborted : ι → Bool
  /-- The attempts whose message the provider accepted. -/
  accepted : List ι

def initial (now : ℕ) : State ι := ⟨.empty now, fun _ => .idle, fun _ => false, []⟩

inductive Event (ι : Type*) where
  | claim (i : ι) (call : Call)
  /-- An answer of `takeSlot`, if the call is answered. -/
  | slot (i : ι) (answer : Option ℕ)
  | wake (i : ι)
  | abort (i : ι)
  | accept (i : ι)
  | sent (i : ι) (id : Text)
  | refuse (i : ι)
  | mark (i : ι) (call : Call)
  | renew (i : ι) (call : Call)
  | release (i : ι) (call : Call)
  | crash (i : ι)
  | tick (ms : ℕ)

/-- One turn of the loop that waits for a slot: send, fail, or sleep and ask again. -/
def waitForSlot (aborted : Bool) (waitedMs : ℕ) : Option ℕ → Phase
  | none => .failing .slotCall
  | some 0 => if aborted then .failing .timeout else .sending false
  | some waitMs =>
    if MAIL_MAX_SLOT_WAIT_MS < waitedMs + waitMs then .failing (.throttled ((waitMs + 999) / 1000))
    else if aborted then .failing .aborted
    else .sleeping waitedMs waitMs

/-- A renewal may be on its way: the timer runs, or a call made before it stopped. -/
def renewing : Phase → Bool
  | .waiting _ | .sleeping _ _ | .sending _ | .marking _ | .failing _ | .delivered _ | .failed _ => true
  | _ => false

def State.write (s : State ι) (store : Store) : State ι := { s with store }

def State.accept (s : State ι) (i : ι) : State ι := { s with accepted := i :: s.accepted }

@[simp] theorem write_store (s : State ι) (store : Store) : (s.write store).store = store := rfl

@[simp] theorem write_phase (s : State ι) (store : Store) : (s.write store).phase = s.phase := rfl

@[simp] theorem write_accepted (s : State ι) (store : Store) : (s.write store).accepted = s.accepted := rfl

@[simp] theorem accept_store (s : State ι) (i : ι) : (s.accept i).store = s.store := rfl

@[simp] theorem accept_phase (s : State ι) (i : ι) : (s.accept i).phase = s.phase := rfl

@[simp] theorem accept_accepted (s : State ι) (i : ι) : (s.accept i).accepted = i :: s.accepted := rfl

variable [DecidableEq ι]

def State.become (s : State ι) (i : ι) (p : Phase) : State ι := { s with phase := Function.update s.phase i p }

def State.abort (s : State ι) (i : ι) : State ι := { s with aborted := Function.update s.aborted i true }

def afterClaim : ClaimResult → Phase
  | .claimed _ => .waiting 0
  | .sent id => .skipped id
  | .inFlight => .inFlight

def step (c : Config ι) (s : State ι) : Event ι → Option (State ι)
  | .claim i call =>
    match s.phase i with
    | .idle =>
      let answer := claim s.store c.key (c.token i) MAIL_CLAIM_LEASE_SECONDS
      some ((s.write (call.apply (fun _ => answer.2) s.store)).become i
        (if call = .ok then afterClaim answer.1 else .unclaimed))
    | _ => none
  | .slot i answer =>
    match s.phase i with
    | .waiting waitedMs => some (s.become i (waitForSlot (s.aborted i) waitedMs answer))
    | _ => none
  | .wake i =>
    match s.phase i with
    | .sleeping waitedMs waitMs => some (s.become i (.waiting (waitedMs + waitMs)))
    | _ => none
  | .abort i =>
    match s.phase i with
    | .sleeping _ _ => some ((s.abort i).become i (.failing .aborted))
    | _ => some (s.abort i)
  | .accept i =>
    match s.phase i with
    | .sending false => some ((s.accept i).become i (.sending true))
    | .orphaned false => some ((s.accept i).become i (.orphaned true))
    | _ => none
  | .sent i id =>
    match s.phase i with
    | .sending true => some (s.become i (.marking id))
    | _ => none
  | .refuse i =>
    match s.phase i with
    | .sending _ => some (s.become i (.failing .sender))
    | _ => none
  | .mark i call =>
    match s.phase i with
    | .marking id =>
      -- a failure to record is logged: a retry would send the message again
      some ((s.write (call.apply (fun store => markSent store c.key id MAIL_SENT_TTL_SECONDS) s.store)).become i
        (.delivered (call = .ok)))
    | _ => none
  | .renew i call =>
    if renewing (s.phase i) then
      some (s.write (call.apply (fun store => renew store c.key (c.token i) MAIL_CLAIM_LEASE_SECONDS) s.store))
    else none
  | .release i call =>
    match s.phase i with
    | .failing cause =>
      some ((s.write (call.apply (fun store => release store c.key (c.token i)) s.store)).become i (.failed cause))
    | _ => none
  | .crash i =>
    match s.phase i with
    | .waiting _ | .sleeping _ _ | .failing _ => some (s.become i .crashed)
    | .sending accepted => some (s.become i (.orphaned accepted))
    | .marking _ => some (s.become i (.orphaned true))
    | _ => none
  | .tick ms => some (s.write (s.store.advance ms))

@[simp] theorem become_store (s : State ι) (i : ι) (p : Phase) : (s.become i p).store = s.store := rfl

@[simp] theorem become_accepted (s : State ι) (i : ι) (p : Phase) : (s.become i p).accepted = s.accepted := rfl

@[simp] theorem become_same (s : State ι) (i : ι) (p : Phase) : (s.become i p).phase i = p := by
  simp [State.become]

@[simp] theorem become_other (s : State ι) {i j : ι} (p : Phase) (differs : j ≠ i) :
    (s.become i p).phase j = s.phase j := by
  simp [State.become, differs]

@[simp] theorem abort_store (s : State ι) (i : ι) : (s.abort i).store = s.store := rfl

@[simp] theorem abort_phase (s : State ι) (i : ι) : (s.abort i).phase = s.phase := rfl

@[simp] theorem abort_accepted (s : State ι) (i : ι) : (s.abort i).accepted = s.accepted := rfl

/-- Everything a step can do. -/
inductive Taken (c : Config ι) (s : State ι) : Event ι → State ι → Prop where
  | claim (i : ι) (call : Call) (idle : s.phase i = .idle) :
      Taken c s (.claim i call)
        ((s.write (call.apply (fun _ => (claim s.store c.key (c.token i) MAIL_CLAIM_LEASE_SECONDS).2) s.store)).become i
          (if call = .ok then afterClaim (claim s.store c.key (c.token i) MAIL_CLAIM_LEASE_SECONDS).1 else .unclaimed))
  | slot (i : ι) (answer : Option ℕ) (waitedMs : ℕ) (waiting : s.phase i = .waiting waitedMs) :
      Taken c s (.slot i answer) (s.become i (waitForSlot (s.aborted i) waitedMs answer))
  | wake (i : ι) (waitedMs waitMs : ℕ) (sleeping : s.phase i = .sleeping waitedMs waitMs) :
      Taken c s (.wake i) (s.become i (.waiting (waitedMs + waitMs)))
  | rouse (i : ι) (waitedMs waitMs : ℕ) (sleeping : s.phase i = .sleeping waitedMs waitMs) :
      Taken c s (.abort i) ((s.abort i).become i (.failing .aborted))
  | abort (i : ι) : Taken c s (.abort i) (s.abort i)
  | accept (i : ι) (sending : s.phase i = .sending false) :
      Taken c s (.accept i) ((s.accept i).become i (.sending true))
  | acceptLate (i : ι) (orphaned : s.phase i = .orphaned false) :
      Taken c s (.accept i) ((s.accept i).become i (.orphaned true))
  | sent (i : ι) (id : Text) (sending : s.phase i = .sending true) : Taken c s (.sent i id) (s.become i (.marking id))
  | refuse (i : ι) (accepted : Bool) (sending : s.phase i = .sending accepted) :
      Taken c s (.refuse i) (s.become i (.failing .sender))
  | mark (i : ι) (call : Call) (id : Text) (marking : s.phase i = .marking id) :
      Taken c s (.mark i call)
        ((s.write (call.apply (fun store => markSent store c.key id MAIL_SENT_TTL_SECONDS) s.store)).become i
          (.delivered (call = .ok)))
  | renew (i : ι) (call : Call) (renewed : renewing (s.phase i)) :
      Taken c s (.renew i call)
        (s.write (call.apply (fun store => renew store c.key (c.token i) MAIL_CLAIM_LEASE_SECONDS) s.store))
  | release (i : ι) (call : Call) (cause : Failure) (failing : s.phase i = .failing cause) :
      Taken c s (.release i call)
        ((s.write (call.apply (fun store => release store c.key (c.token i)) s.store)).become i (.failed cause))
  | crash (i : ι) (unsent : (∃ waitedMs, s.phase i = .waiting waitedMs) ∨
      (∃ waitedMs waitMs, s.phase i = .sleeping waitedMs waitMs) ∨ ∃ cause, s.phase i = .failing cause) :
      Taken c s (.crash i) (s.become i .crashed)
  | orphan (i : ι) (accepted : Bool) (sending : s.phase i = .sending accepted) :
      Taken c s (.crash i) (s.become i (.orphaned accepted))
  | orphanMarking (i : ι) (id : Text) (marking : s.phase i = .marking id) :
      Taken c s (.crash i) (s.become i (.orphaned true))
  | tick (ms : ℕ) : Taken c s (.tick ms) (s.write (s.store.advance ms))

theorem step_taken {c : Config ι} {s t : State ι} {e : Event ι} (taken : step c s e = some t) : Taken c s e t := by
  cases e with
  | claim i call =>
    simp only [step] at taken
    split at taken
    · rename_i idle
      obtain rfl := Option.some.inj taken
      exact .claim i call idle
    · cases taken
  | slot i answer =>
    simp only [step] at taken
    split at taken
    · rename_i waitedMs waiting
      obtain rfl := Option.some.inj taken
      exact .slot i answer waitedMs waiting
    · cases taken
  | wake i =>
    simp only [step] at taken
    split at taken
    · rename_i waitedMs waitMs sleeping
      obtain rfl := Option.some.inj taken
      exact .wake i waitedMs waitMs sleeping
    · cases taken
  | abort i =>
    simp only [step] at taken
    split at taken
    · rename_i waitedMs waitMs sleeping
      obtain rfl := Option.some.inj taken
      exact .rouse i waitedMs waitMs sleeping
    · obtain rfl := Option.some.inj taken
      exact .abort i
  | accept i =>
    simp only [step] at taken
    split at taken
    · rename_i sending
      obtain rfl := Option.some.inj taken
      exact .accept i sending
    · rename_i orphaned
      obtain rfl := Option.some.inj taken
      exact .acceptLate i orphaned
    · cases taken
  | sent i id =>
    simp only [step] at taken
    split at taken
    · rename_i sending
      obtain rfl := Option.some.inj taken
      exact .sent i id sending
    · cases taken
  | refuse i =>
    simp only [step] at taken
    split at taken
    · rename_i accepted sending
      obtain rfl := Option.some.inj taken
      exact .refuse i accepted sending
    · cases taken
  | mark i call =>
    simp only [step] at taken
    split at taken
    · rename_i id marking
      obtain rfl := Option.some.inj taken
      exact .mark i call id marking
    · cases taken
  | renew i call =>
    simp only [step] at taken
    split at taken
    · rename_i renewed
      obtain rfl := Option.some.inj taken
      exact .renew i call renewed
    · cases taken
  | release i call =>
    simp only [step] at taken
    split at taken
    · rename_i cause failing
      obtain rfl := Option.some.inj taken
      exact .release i call cause failing
    · cases taken
  | crash i =>
    simp only [step] at taken
    split at taken
    · rename_i waitedMs waiting
      obtain rfl := Option.some.inj taken
      exact .crash i (Or.inl ⟨waitedMs, waiting⟩)
    · rename_i waitedMs waitMs sleeping
      obtain rfl := Option.some.inj taken
      exact .crash i (Or.inr (Or.inl ⟨waitedMs, waitMs, sleeping⟩))
    · rename_i cause failing
      obtain rfl := Option.some.inj taken
      exact .crash i (Or.inr (Or.inr ⟨cause, failing⟩))
    · rename_i accepted sending
      obtain rfl := Option.some.inj taken
      exact .orphan i accepted sending
    · rename_i id marking
      obtain rfl := Option.some.inj taken
      exact .orphanMarking i id marking
    · cases taken
  | tick ms =>
    obtain rfl := Option.some.inj taken
    exact .tick ms

end Mail
