import AppPlatform.Lib.Run
import Mathlib.Algebra.Order.Field.Rat
import Mathlib.Tactic.Linarith

/-!
# The backoff gate of a guarded pool

`guardPool`: after a failed dial every `newClient` is answered with the last error until the backoff has passed. Dials overlap and their
outcomes arrive in any order; each client's connect calls back once. Times are in milliseconds and do not decrease.
-/

namespace PoolGuard
open Runs
variable {ι ε : Type*}

structure Options where
  minBackoffMs : ℚ≥0
  maxBackoffMs : ℚ≥0
  ordered : minBackoffMs ≤ maxBackoffMs

/-- The options with their defaults. -/
def options (minBackoffMs maxBackoffMs : Option ℚ≥0) : Options :=
  let least := minBackoffMs.getD 250
  ⟨least, max least (maxBackoffMs.getD 5000), le_max_left _ _⟩

/-- The variables of the guard. -/
structure Gate (ε : Type*) where
  failures : ℕ
  retryAt : ℚ
  lastError : Option ε

def Gate.initial : Gate ε := ⟨0, 0, none⟩

def delay (o : Options) (failures : ℕ) : ℚ≥0 := min o.maxBackoffMs (o.minBackoffMs * 2 ^ min (failures - 1) 20)

def Gate.record (o : Options) (g : Gate ε) (now : ℚ) : Option ε → Gate ε
  | some err => ⟨g.failures + 1, now + delay o (g.failures + 1), some err⟩
  | none => ⟨0, 0, none⟩

def Gate.closed (g : Gate ε) (now : ℚ) : Option ε := if now < g.retryAt then g.lastError else none

/-- An entry of the pool's queue. -/
structure PendingItem (ι : Type*) where
  item : ι
  timedOut : Bool

/-- What a call of `newClient` does. The pump that it schedules runs after the call has answered. -/
inductive Effect (ι ε : Type*) where
  | dial (item : ι)
  | schedulePump
  | answer (item : ι) (err : ε)
  deriving DecidableEq

def Gate.newClient (g : Gate ε) (pending : PendingItem ι) (now : ℚ) : List (Effect ι ε) :=
  match g.closed now with
  | some err => .schedulePump :: if pending.timedOut then [] else [.answer pending.item err]
  | none => [.dial pending.item]

structure Failure (ε : Type*) where
  at' : ℚ
  delay : ℚ≥0
  err : ε

def Failure.retryAt (f : Failure ε) : ℚ := f.at' + f.delay

structure State (ι ε : Type*) where
  gate : Gate ε
  clock : ℚ
  /-- The dials whose outcome is awaited. -/
  dialing : List ι
  /-- The failures since the last success, the last first. -/
  failures : List (Failure ε)

def initial (clock : ℚ) : State ι ε := ⟨.initial, clock, [], []⟩

inductive Event (ι ε : Type*) where
  | newClient (pending : PendingItem ι) (now : ℚ)
  /-- The connect of a dial calls back. -/
  | outcome (item : ι) (err : Option ε) (now : ℚ)

def Event.now : Event ι ε → ℚ
  | .newClient _ now => now
  | .outcome _ _ now => now

def State.dials (s : State ι ε) (pending : PendingItem ι) (now : ℚ) : Bool :=
  (s.gate.newClient (ι := ι) pending now).any fun effect => effect matches .dial _

def State.noted (o : Options) (s : State ι ε) (now : ℚ) : Option ε → List (Failure ε)
  | some err => ⟨now, delay o (s.gate.failures + 1), err⟩ :: s.failures
  | none => []

variable [DecidableEq ι] in
def step (o : Options) (s : State ι ε) : Event ι ε → Option (State ι ε)
  | .newClient pending now =>
    some { s with clock := now, dialing := if s.dials pending now then pending.item :: s.dialing else s.dialing }
  | .outcome item err now =>
    if item ∈ s.dialing then
      some ⟨s.gate.record o now err, now, s.dialing.erase item, s.noted o now err⟩
    else none

/-- Time does not run backwards. -/
def Orderly (s : State ι ε) (e : Event ι ε) : Prop := s.clock ≤ e.now

instance (s : State ι ε) (e : Event ι ε) : Decidable (Orderly s e) := inferInstanceAs (Decidable (s.clock ≤ e.now))

theorem delay_le (o : Options) (failures : ℕ) : delay o failures ≤ o.maxBackoffMs := min_le_left _ _

theorem delay_mono (o : Options) {n m : ℕ} (le : n ≤ m) : delay o n ≤ delay o m := by
  have powers : (2 : ℚ≥0) ^ min (n - 1) 20 ≤ 2 ^ min (m - 1) 20 :=
    pow_le_pow_right₀ (by decide) (min_le_min_right _ (Nat.sub_le_sub_right le 1))
  exact min_le_min_left _ (mul_le_mul_of_nonneg_left powers o.minBackoffMs.2)

theorem delay_one (o : Options) : delay o 1 = o.minBackoffMs := by
  simp [delay, o.ordered]

theorem le_delay (o : Options) (failures : ℕ) : o.minBackoffMs ≤ delay o (failures + 1) := by
  rw [← delay_one o]
  exact delay_mono o (Nat.le_add_left 1 failures)

/-- Each failure waits for the delay of its number since the last success. -/
def Delayed (o : Options) : List (Failure ε) → Prop
  | [] => True
  | f :: earlier => f.delay = delay o (earlier.length + 1) ∧ Delayed o earlier

theorem Delayed.numbered {o : Options} {failures : List (Failure ε)} (delayed : Delayed o failures) :
    ∀ f ∈ failures, ∃ n < failures.length, f.delay = delay o (n + 1) := by
  induction failures with
  | nil => exact fun _ member => (List.not_mem_nil member).elim
  | cons last earlier ih =>
    intro f member
    rcases List.mem_cons.mp member with rfl | member
    · exact ⟨earlier.length, Nat.lt_succ_self _, delayed.1⟩
    · obtain ⟨n, less, same⟩ := ih delayed.2 f member
      exact ⟨n, Nat.lt_succ_of_lt less, same⟩

theorem Delayed.grows {o : Options} {failures : List (Failure ε)} (delayed : Delayed o failures) :
    failures.Pairwise fun later earlier => earlier.delay ≤ later.delay := by
  induction failures with
  | nil => exact .nil
  | cons last earlier ih =>
    refine .cons (fun f member => ?_) (ih delayed.2)
    obtain ⟨n, less, same⟩ := delayed.2.numbered f member
    rw [same, delayed.1]
    exact delay_mono o (by omega)

theorem Delayed.first {o : Options} {failures : List (Failure ε)} (delayed : Delayed o failures) :
    ∀ f ∈ failures.getLast?, f.delay = o.minBackoffMs := by
  induction failures with
  | nil => nofun
  | cons last earlier ih =>
    intro f first
    cases earlier with
    | nil =>
      cases first
      exact delayed.1.trans (delay_one o)
    | cons second rest =>
      rw [List.getLast?_cons_cons] at first
      exact ih delayed.2 f first

/-! ### The gate -/

structure Invariant (o : Options) (s : State ι ε) : Prop where
  count : s.gate.failures = s.failures.length
  lastError : s.gate.lastError = s.failures.head?.map Failure.err
  delayed : Delayed o s.failures
  past : ∀ f ∈ s.failures, f.at' ≤ s.clock
  opens : ∀ f ∈ s.failures, f.retryAt ≤ s.gate.retryAt

theorem initial_invariant (o : Options) (clock : ℚ) : Invariant o (initial clock : State ι ε) where
  count := rfl
  lastError := rfl
  delayed := trivial
  past := fun _ member => (List.not_mem_nil member).elim
  opens := fun _ member => (List.not_mem_nil member).elim

theorem retryAt_grows {o : Options} {s : State ι ε} (invariant : Invariant o s) {now : ℚ} (later : s.clock ≤ now) :
    ∀ f ∈ s.failures, f.retryAt ≤ now + delay o (s.gate.failures + 1) := by
  intro f member
  obtain ⟨n, less, same⟩ := invariant.delayed.numbered f member
  have before := invariant.past f member
  have grows : f.delay ≤ delay o (s.gate.failures + 1) := by
    rw [same, invariant.count]
    exact delay_mono o (by omega)
  have grows' : (f.delay : ℚ) ≤ delay o (s.gate.failures + 1) := by exact_mod_cast grows
  unfold Failure.retryAt
  linarith

variable [DecidableEq ι] in
theorem step_invariant {o : Options} {s t : State ι ε} {e : Event ι ε} (invariant : Invariant o s) (orderly : Orderly s e)
    (taken : step o s e = some t) : Invariant o t := by
  cases e with
  | newClient pending now =>
    cases taken
    exact { invariant with past := fun f member => (invariant.past f member).trans orderly }
  | outcome item err now =>
    rw [step] at taken
    split at taken <;> cases taken
    cases err with
    | none => exact ⟨rfl, rfl, trivial, fun _ member => (List.not_mem_nil member).elim, fun _ member =>
      (List.not_mem_nil member).elim⟩
    | some err =>
      refine ⟨?_, rfl, ⟨by rw [invariant.count], invariant.delayed⟩, ?_, ?_⟩
      · exact congrArg Nat.succ invariant.count
      · intro f member
        rcases List.mem_cons.mp member with rfl | member
        · exact le_rfl
        · exact (invariant.past f member).trans orderly
      · intro f member
        rcases List.mem_cons.mp member with rfl | member
        · exact le_rfl
        · exact retryAt_grows invariant orderly f member

/-- A call dials once every failure since the last success may be retried, or leaves the item to its last error and
has the queue pumped. -/
theorem newClient_cases {o : Options} {s : State ι ε} (invariant : Invariant o s) (pending : PendingItem ι) (now : ℚ) :
    (s.gate.newClient pending now = [.dial pending.item] ∧ ∀ f ∈ s.failures, f.retryAt ≤ now) ∨
    ∃ f ∈ s.failures.head?, s.gate.newClient pending now =
      .schedulePump :: if pending.timedOut then [] else [.answer pending.item f.err] := by
  unfold Gate.newClient Gate.closed
  by_cases early : now < s.gate.retryAt
  · rw [if_pos early, invariant.lastError]
    cases failed : s.failures with
    | nil => exact .inl ⟨rfl, fun _ member => (List.not_mem_nil member).elim⟩
    | cons f earlier => exact .inr ⟨f, rfl, rfl⟩
  · rw [if_neg early]
    exact .inl ⟨rfl, fun f member => (invariant.opens f member).trans (not_lt.mp early)⟩

variable [DecidableEq ι] in
/-- In every run of calls and outcomes, delays are between the least and the largest, grow until a success and start
again with the least; and a call dials only past the retry time of every failure since the last success, or else is
answered with the last error, and the queue is pumped again. -/
theorem backoff_gate (minBackoffMs maxBackoffMs : Option ℚ≥0) (clock : ℚ) {events : List (Event ι ε)} {s : State ι ε}
    (run : Run (step (options minBackoffMs maxBackoffMs)) Orderly (initial clock) events s) :
    (∀ f ∈ s.failures, (options minBackoffMs maxBackoffMs).minBackoffMs ≤ f.delay ∧
      f.delay ≤ (options minBackoffMs maxBackoffMs).maxBackoffMs) ∧
    s.failures.Pairwise (fun later earlier => earlier.delay ≤ later.delay) ∧
    (∀ f ∈ s.failures.getLast?, f.delay = (options minBackoffMs maxBackoffMs).minBackoffMs) ∧
    ∀ (pending : PendingItem ι) now,
      (s.gate.newClient pending now = [.dial pending.item] ∧ ∀ f ∈ s.failures, f.retryAt ≤ now) ∨
      ∃ f ∈ s.failures.head?, s.gate.newClient pending now =
        .schedulePump :: if pending.timedOut then [] else [.answer pending.item f.err] := by
  have invariant : Invariant (options minBackoffMs maxBackoffMs) s :=
    run.invariant (fun invariant orderly taken => step_invariant invariant orderly taken) (initial_invariant _ clock)
  refine ⟨?_, invariant.delayed.grows, invariant.delayed.first, newClient_cases invariant⟩
  intro f member
  obtain ⟨n, _, same⟩ := invariant.delayed.numbered f member
  rw [same]
  exact ⟨le_delay _ n, delay_le _ _⟩

/-- A dial fails and the next call comes within the backoff. -/
def failedDial : List (Event (Fin 2) Unit) := [.newClient ⟨0, false⟩ 0, .outcome 0 (some ()) 10, .newClient ⟨1, false⟩ 20]

theorem backoff_gate_failed : ∃ s : State (Fin 2) Unit, Run (step (options none none)) Orderly (initial 0) failedDial s ∧
    s.failures.length = 1 ∧ (∀ f ∈ s.failures, (options none none).minBackoffMs ≤ f.delay ∧
      f.delay ≤ (options none none).maxBackoffMs) := by
  have one : (exec (step (options none none)) Orderly (initial 0 : State (Fin 2) Unit) failedDial).any
      (fun s => s.failures.length = 1) = true := by decide +kernel
  obtain ⟨s, ran, length⟩ := (Option.any_eq_true _ _).mp one
  have run : Run (step (options none none)) Orderly (initial 0) failedDial s := Run.of_exec ran
  exact ⟨s, run, of_decide_eq_true length, (backoff_gate none none 0 run).1⟩

end PoolGuard
