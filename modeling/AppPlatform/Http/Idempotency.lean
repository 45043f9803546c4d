import AppPlatform.Http.StoredResponse
import AppPlatform.Lib.KeyValue
import AppPlatform.Lib.Run

/-!
# The idempotency interceptor

Requests with one record key, against the cache they share. A request goes from `READ_OR_CLAIM` to
the answer it gives or to the end of its handler; its claim is released when its stream ends. Every
call of the cache may be lost, or take effect and go unanswered.
-/

namespace Idempotency
open Js
open KeyValue (Call)

def IDEMPOTENCY_TTL_SECONDS : ℕ := 24 * 60 * 60

structure Config (ι : Type*) where
  recordKey : Text
  leaseSeconds : ℕ
  lease_range : 5 ≤ leaseSeconds ∧ leaseSeconds ≤ 600
  /-- The random token of each request. -/
  claim : ι → Text
  claim_injective : Function.Injective claim
  fingerprint : ι → Text

variable {ι : Type*}

def Config.claimKey (c : Config ι) : Text := c.recordKey ++ text ":claim"

/-- The lease on the server's clock, in milliseconds. -/
def Config.lease (c : Config ι) : ℕ := 1000 * c.leaseSeconds

def Config.ttl : ℕ := 1000 * IDEMPOTENCY_TTL_SECONDS

inductive Answer where
  | replay (stored : StoredResponse)
  | notReplayable (originalStatus : Number)
  | keyReused
  | inFlight (retryAfter : ℕ)

inductive Outcome where
  /-- A 2xx answer whose record was written. -/
  | stored (record : Text)
  /-- A 2xx answer whose record was not written, as far as the request knows. -/
  | unstored
  | unsuccessful (status : ℕ)
  | threw
  /-- Nobody listened to the stream, or there was no claim. -/
  | discarded
  deriving DecidableEq

inductive Phase where
  | idle
  | answered (answer : Answer)
  /-- The handler runs as if there were no key. -/
  | unprotected
  | claimed
  | running
  /-- The handler emitted; the outcome is on its way to the cache. -/
  | storing (outcome : Outcome)
  | finished (outcome : Outcome)

/-- The release of the claim: the stream has not ended, the call is on its way, or it is over. -/
inductive Release where
  | pending
  | sent
  | done
  deriving DecidableEq

structure State (ι : Type*) where
  cache : KeyValue.Store Text Text
  phase : ι → Phase
  release : ι → Release

def initial (now : ℕ) : State ι := ⟨.empty now, fun _ => .idle, fun _ => .pending⟩

inductive Event (ι : Type*) where
  | arrive (i : ι) (call : Call)
  | start (i : ι)
  | emit (i : ι) (reply : Reply) (body : Value)
  | fail (i : ι)
  | store (i : ι) (call : Call)
  | renew (i : ι) (call : Call)
  | release (i : ι) (call : Call)
  | unsubscribe (i : ι)
  | tick (ms : ℕ)

variable [DecidableEq ι]

def State.become (s : State ι) (i : ι) (p : Phase) : State ι := { s with phase := Function.update s.phase i p }

def State.releasing (s : State ι) (i : ι) (r : Release) : State ι :=
  { s with release := Function.update s.release i r }

def State.write (s : State ι) (cache : KeyValue.Store Text Text) : State ι := { s with cache }

/-- The stream ends: `finalize` sends the release, once. -/
def State.finalize (s : State ι) (i : ι) : State ι :=
  if s.release i = .pending then s.releasing i .sent else s

/-- `begin` on a stored record. -/
def answerTo (record fingerprint : Text) : Phase :=
  match parseStored record with
  | some stored =>
    if stored.f ≠ fingerprint then .answered .keyReused
    else if stored.isMarker then .answered (.notReplayable stored.s)
    else .answered (.replay stored)
  | none => .unprotected

/-- `store`, up to the write. -/
def outcomeOf (fingerprint : Text) (reply : Reply) (body : Value) : Outcome :=
  if reply.statusCode < 200 ∨ 299 < reply.statusCode then .unsuccessful reply.statusCode
  else match recordFor fingerprint reply.statusCode body reply with
    | some record => .stored (stringify record)
    | none => .unstored

/-- `READ_OR_CLAIM` and the decision of `begin`. -/
def arrive (c : Config ι) (s : State ι) (i : ι) : State ι :=
  match s.cache.get c.recordKey with
  | some record => s.become i (answerTo record (c.fingerprint i))
  | none =>
    match s.cache.setIfAbsent c.claimKey (c.claim i) c.lease with
    | some cache => (s.write cache).become i .claimed
    | none => s.become i (.answered (.inFlight (min c.leaseSeconds 5)))

/-- The effect of `READ_OR_CLAIM` on the cache. -/
def claimed (c : Config ι) (i : ι) (cache : KeyValue.Store Text Text) : KeyValue.Store Text Text :=
  if (cache.get c.recordKey).isSome then cache else (cache.setIfAbsent c.claimKey (c.claim i) c.lease).getD cache

def step (c : Config ι) (s : State ι) : Event ι → Option (State ι)
  | .arrive i call =>
    match s.phase i with
    | .idle =>
      -- an error reading the key lets the request through, whether or not the claim was taken
      if call = .ok then some (arrive c s i)
      else some ((s.write (call.apply (claimed c i) s.cache)).become i .unprotected)
    | _ => none
  | .start i =>
    match s.phase i with
    | .claimed => some (s.become i .running)
    | _ => none
  | .emit i reply body =>
    match s.phase i with
    | .running =>
      if s.release i = .pending then some (s.become i (.storing (outcomeOf (c.fingerprint i) reply body)))
      else some (s.become i (.finished .discarded))
    | .unprotected => some (s.become i (.finished .discarded))
    | _ => none
  | .fail i =>
    match s.phase i with
    | .running => some ((s.become i (.finished .threw)).finalize i)
    | .unprotected => some (s.become i (.finished .threw))
    | _ => none
  | .store i call =>
    match s.phase i with
    | .storing (.stored record) =>
      let cache := call.apply (fun cache => cache.set c.recordKey record (some Config.ttl)) s.cache
      let outcome := if call = .ok then .stored record else .unstored
      some (((s.write cache).become i (.finished outcome)).finalize i)
    | .storing outcome => some ((s.become i (.finished outcome)).finalize i)
    | _ => none
  | .renew i call =>
    -- every third of the lease until the stream ends; one call may still be on its way then
    match s.phase i, s.release i with
    | .running, .pending | .storing _, .pending | _, .sent =>
      some (s.write (call.apply (fun cache => cache.expireIf c.claimKey (c.claim i) c.lease) s.cache))
    | _, _ => none
  | .release i call =>
    if s.release i = .sent then
      some ((s.write (call.apply (fun cache => cache.delIf c.claimKey (c.claim i)) s.cache)).releasing i .done)
    else none
  | .unsubscribe i =>
    match s.phase i with
    -- before the handler starts nothing has been subscribed that would release the claim
    | .claimed => some (s.become i (.finished .discarded))
    | .running | .storing _ => some (s.finalize i)
    | _ => none
  | .tick ms => some (s.write (s.cache.advance ms))

/-- From the claim to the end of the store; without a claim, to the end of the handler. -/
def Executing : Phase → Prop
  | .claimed | .running | .storing _ | .unprotected => True
  | _ => False

instance : DecidablePred Executing
  | .claimed | .running | .storing _ | .unprotected => isTrue trivial
  | .idle | .answered _ | .finished _ => isFalse id

@[simp] theorem become_cache (s : State ι) (i : ι) (p : Phase) : (s.become i p).cache = s.cache := rfl

@[simp] theorem become_release (s : State ι) (i : ι) (p : Phase) : (s.become i p).release = s.release := rfl

@[simp] theorem become_same (s : State ι) (i : ι) (p : Phase) : (s.become i p).phase i = p := by
  simp [State.become]

@[simp] theorem become_other (s : State ι) {i j : ι} (p : Phase) (differs : j ≠ i) :
    (s.become i p).phase j = s.phase j := by
  simp [State.become, differs]

omit [DecidableEq ι] in
@[simp] theorem write_cache (s : State ι) (cache : KeyValue.Store Text Text) : (s.write cache).cache = cache := rfl

omit [DecidableEq ι] in
@[simp] theorem write_phase (s : State ι) (cache : KeyValue.Store Text Text) : (s.write cache).phase = s.phase := rfl

omit [DecidableEq ι] in
@[simp] theorem write_release (s : State ι) (cache : KeyValue.Store Text Text) : (s.write cache).release = s.release :=
  rfl

@[simp] theorem releasing_cache (s : State ι) (i : ι) (r : Release) : (s.releasing i r).cache = s.cache := rfl

@[simp] theorem releasing_phase (s : State ι) (i : ι) (r : Release) : (s.releasing i r).phase = s.phase := rfl

@[simp] theorem finalize_cache (s : State ι) (i : ι) : (s.finalize i).cache = s.cache := by
  unfold State.finalize
  split <;> rfl

@[simp] theorem finalize_phase (s : State ι) (i : ι) : (s.finalize i).phase = s.phase := by
  unfold State.finalize
  split <;> rfl

omit [DecidableEq ι] in
theorem claimKey_ne_recordKey (c : Config ι) : c.claimKey ≠ c.recordKey := by
  intro same
  have lengths := congrArg List.length same
  rw [Config.claimKey, List.length_append, show (text ":claim").length = 6 from rfl] at lengths
  omega

omit [DecidableEq ι] in
theorem lease_positive (c : Config ι) : 0 < c.lease := by
  have := c.lease_range
  unfold Config.lease
  omega

theorem ttl_positive : 0 < Config.ttl := by decide

/-! ### The branches of a step -/

inductive Taken (c : Config ι) (s : State ι) : Event ι → State ι → Prop where
  | arrive (i : ι) (idle : s.phase i = .idle) : Taken c s (.arrive i .ok) (arrive c s i)
  | unprotect (i : ι) (call : Call) (idle : s.phase i = .idle) (failed : call ≠ .ok) :
      Taken c s (.arrive i call) ((s.write (call.apply (claimed c i) s.cache)).become i .unprotected)
  | start (i : ι) (claimed : s.phase i = .claimed) : Taken c s (.start i) (s.become i .running)
  | emit (i : ι) (reply : Reply) (body : Value) (running : s.phase i = .running) (pending : s.release i = .pending) :
      Taken c s (.emit i reply body) (s.become i (.storing (outcomeOf (c.fingerprint i) reply body)))
  | discard (i : ι) (reply : Reply) (body : Value)
      (handling : s.phase i = .running ∧ s.release i ≠ .pending ∨ s.phase i = .unprotected) :
      Taken c s (.emit i reply body) (s.become i (.finished .discarded))
  | fail (i : ι) (running : s.phase i = .running) : Taken c s (.fail i) ((s.become i (.finished .threw)).finalize i)
  | failUnprotected (i : ι) (unprotected : s.phase i = .unprotected) : Taken c s (.fail i) (s.become i (.finished .threw))
  | keep (i : ι) (call : Call) (record : Text) (storing : s.phase i = .storing (.stored record)) :
      Taken c s (.store i call)
        (((s.write (call.apply (fun cache => cache.set c.recordKey record (some Config.ttl)) s.cache)).become i
          (.finished (if call = .ok then .stored record else .unstored))).finalize i)
  | finish (i : ι) (call : Call) (o : Outcome) (storing : s.phase i = .storing o) (empty : ∀ record, o ≠ .stored record) :
      Taken c s (.store i call) ((s.become i (.finished o)).finalize i)
  | renew (i : ι) (call : Call)
      (held : s.release i = .sent ∨ s.release i = .pending ∧ (s.phase i = .running ∨ ∃ o, s.phase i = .storing o)) :
      Taken c s (.renew i call) (s.write (call.apply (fun cache => cache.expireIf c.claimKey (c.claim i) c.lease) s.cache))
  | release (i : ι) (call : Call) (sent : s.release i = .sent) :
      Taken c s (.release i call)
        ((s.write (call.apply (fun cache => cache.delIf c.claimKey (c.claim i)) s.cache)).releasing i .done)
  | abandon (i : ι) (claimed : s.phase i = .claimed) : Taken c s (.unsubscribe i) (s.become i (.finished .discarded))
  | leave (i : ι) (busy : s.phase i = .running ∨ ∃ o, s.phase i = .storing o) : Taken c s (.unsubscribe i) (s.finalize i)
  | tick (ms : ℕ) : Taken c s (.tick ms) (s.write (s.cache.advance ms))

theorem step_taken {c : Config ι} {s t : State ι} {e : Event ι} (taken : step c s e = some t) : Taken c s e t := by
  cases e with
  | arrive i call =>
    simp only [step] at taken
    split at taken
    · rename_i idle
      split at taken
      · rename_i ok
        obtain rfl := Option.some.inj taken
        subst ok
        exact .arrive i idle
      · rename_i failed
        obtain rfl := Option.some.inj taken
        exact .unprotect i call idle failed
    · cases taken
  | start i =>
    simp only [step] at taken
    split at taken
    · rename_i claimed
      obtain rfl := Option.some.inj taken
      exact .start i claimed
    · cases taken
  | emit i reply body =>
    simp only [step] at taken
    split at taken
    · rename_i running
      split at taken
      · rename_i pending
        obtain rfl := Option.some.inj taken
        exact .emit i reply body running pending
      · rename_i left
        obtain rfl := Option.some.inj taken
        exact .discard i reply body (Or.inl ⟨running, left⟩)
    · rename_i unprotected
      obtain rfl := Option.some.inj taken
      exact .discard i reply body (Or.inr unprotected)
    · cases taken
  | fail i =>
    simp only [step] at taken
    split at taken
    · rename_i running
      obtain rfl := Option.some.inj taken
      exact .fail i running
    · rename_i unprotected
      obtain rfl := Option.some.inj taken
      exact .failUnprotected i unprotected
    · cases taken
  | store i call =>
    simp only [step] at taken
    split at taken
    · rename_i record storing
      obtain rfl := Option.some.inj taken
      exact .keep i call record storing
    · rename_i o empty storing
      obtain rfl := Option.some.inj taken
      exact .finish i call o storing empty
    · cases taken
  | renew i call =>
    simp only [step] at taken
    split at taken
    · rename_i running pending
      obtain rfl := Option.some.inj taken
      exact .renew i call (Or.inr ⟨pending, Or.inl running⟩)
    · rename_i o storing pending
      obtain rfl := Option.some.inj taken
      exact .renew i call (Or.inr ⟨pending, Or.inr ⟨o, storing⟩⟩)
    · rename_i sent
      obtain rfl := Option.some.inj taken
      exact .renew i call (Or.inl sent)
    · cases taken
  | release i call =>
    simp only [step] at taken
    split at taken
    · rename_i sent
      obtain rfl := Option.some.inj taken
      exact .release i call sent
    · cases taken
  | unsubscribe i =>
    simp only [step] at taken
    split at taken
    · rename_i claimed
      obtain rfl := Option.some.inj taken
      exact .abandon i claimed
    · rename_i running
      obtain rfl := Option.some.inj taken
      exact .leave i (Or.inl running)
    · rename_i o storing
      obtain rfl := Option.some.inj taken
      exact .leave i (Or.inr ⟨o, storing⟩)
    · cases taken
  | tick ms =>
    obtain rfl := Option.some.inj taken
    exact .tick ms

/-! ### The life of one request -/

inductive Next (c : Config ι) (i : ι) : Event ι → Phase → Phase → Prop where
  | answer (call : Call) (record : Text) : Next c i (.arrive i call) .idle (answerTo record (c.fingerprint i))
  | refuse (call : Call) : Next c i (.arrive i call) .idle (.answered (.inFlight (min c.leaseSeconds 5)))
  | unprotect (call : Call) : Next c i (.arrive i call) .idle .unprotected
  | claim (call : Call) : Next c i (.arrive i call) .idle .claimed
  | start : Next c i (.start i) .claimed .running
  | emit (reply : Reply) (body : Value) :
      Next c i (.emit i reply body) .running (.storing (outcomeOf (c.fingerprint i) reply body))
  | discard (reply : Reply) (body : Value) (p : Phase) (handling : p = .running ∨ p = .unprotected) :
      Next c i (.emit i reply body) p (.finished .discarded)
  | fail (p : Phase) (handling : p = .running ∨ p = .unprotected) : Next c i (.fail i) p (.finished .threw)
  | keep (call : Call) (record : Text) :
      Next c i (.store i call) (.storing (.stored record)) (.finished (.stored record))
  | lose (call : Call) (record : Text) : Next c i (.store i call) (.storing (.stored record)) (.finished .unstored)
  | finish (call : Call) (o : Outcome) (empty : ∀ record, o ≠ .stored record) :
      Next c i (.store i call) (.storing o) (.finished o)
  | abandon : Next c i (.unsubscribe i) .claimed (.finished .discarded)

theorem arrive_next (c : Config ι) (s : State ι) {i : ι} (idle : s.phase i = .idle) :
    Next c i (.arrive i .ok) (s.phase i) ((arrive c s i).phase i) := by
  rw [idle, arrive]
  split
  · rw [become_same]
    exact .answer _ _
  split
  · rw [become_same]
    exact .claim _
  · rw [become_same]
    exact .refuse _

theorem arrive_other (c : Config ι) (s : State ι) {i j : ι} (differs : j ≠ i) :
    (arrive c s i).phase j = s.phase j := by
  unfold arrive
  split
  · exact become_other _ _ differs
  split
  · rw [become_other _ _ differs, write_phase]
  · exact become_other _ _ differs

/-- A step moves at most the request it names. -/
theorem step_next {c : Config ι} {s t : State ι} {e : Event ι} (taken : step c s e = some t) (i : ι) :
    t.phase i = s.phase i ∨ Next c i e (s.phase i) (t.phase i) := by
  have moved : ∀ {j : ι} {p : Phase}, t.phase = (s.become j p).phase → (j = i → Next c i e (s.phase i) p) →
      t.phase i = s.phase i ∨ Next c i e (s.phase i) (t.phase i) := by
    intro j p change legal
    rw [change]
    by_cases same : i = j
    · subst same
      rw [become_same]
      exact Or.inr (legal rfl)
    · exact Or.inl (become_other s p same)
  cases step_taken taken with
  | arrive j idle =>
    by_cases same : i = j
    · subst same
      exact Or.inr (arrive_next c s idle)
    · exact Or.inl (arrive_other c s same)
  | unprotect j call idle =>
    apply moved rfl
    rintro rfl
    rw [idle]
    exact .unprotect call
  | start j claimed =>
    apply moved rfl
    rintro rfl
    rw [claimed]
    exact .start
  | emit j reply body running =>
    apply moved rfl
    rintro rfl
    rw [running]
    exact .emit reply body
  | discard j reply body handling =>
    apply moved rfl
    rintro rfl
    exact .discard reply body _ (handling.imp_left And.left)
  | fail j running =>
    apply moved (finalize_phase _ _)
    rintro rfl
    exact .fail _ (Or.inl running)
  | failUnprotected j unprotected =>
    apply moved rfl
    rintro rfl
    exact .fail _ (Or.inr unprotected)
  | keep j call record storing =>
    apply moved (finalize_phase _ _)
    rintro rfl
    rw [storing]
    split
    · exact .keep call record
    · exact .lose call record
  | finish j call o storing empty =>
    apply moved (finalize_phase _ _)
    rintro rfl
    rw [storing]
    exact .finish call o empty
  | renew | release | tick => exact Or.inl rfl
  | abandon j claimed =>
    apply moved rfl
    rintro rfl
    rw [claimed]
    exact .abandon
  | leave j =>
    rw [finalize_phase]
    exact Or.inl rfl

theorem finished_stays {c : Config ι} {s t : State ι} {e : Event ι} (taken : step c s e = some t) {i : ι} {o : Outcome}
    (finished : s.phase i = .finished o) : t.phase i = .finished o := by
  rcases step_next taken i with same | next
  · rw [same, finished]
  · rw [finished] at next
    generalize t.phase i = p at next ⊢
    cases next with
    | discard _ _ _ handling => rcases handling with h | h <;> cases h
    | fail _ handling => rcases handling with h | h <;> cases h

end Idempotency
