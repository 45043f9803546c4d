import AppPlatform.Jobs.QueueConfig
import Mathlib.Tactic.Linarith
import Mathlib.Tactic.NormNum

/-!
# The deadline of a job against its retries

A job is deleted at a deadline fixed when it was inserted, which a retry does not extend. Every start
of an attempt against that deadline, for the queues that `resolveQueue` accepts.
-/

namespace Queues
open Js
variable {ρ : Type}

/-- The longest an attempt and the wait after it can take. -/
def ResolvedQueue.longestRound (q : ResolvedQueue ρ) : ℕ :=
  q.queue.expireInSeconds + Defaults.expiryDetectionSeconds + q.queue.retryDelayMax

/-- Attempt `n` of a job due at `due` starts at the given time; the first is number 0. -/
inductive Starts (q : ResolvedQueue ρ) (due : ℚ) : ℕ → ℚ → Prop where
  | first : Starts q due 0 due
  | retry {n : ℕ} {time ran waited : ℚ} (before : Starts q due n time) (allowed : n < q.queue.retryLimit)
      (ran_nonneg : 0 ≤ ran) (ran_le : ran ≤ q.queue.expireInSeconds + Defaults.expiryDetectionSeconds)
      (waited_nonneg : 0 ≤ waited) (waited_le : waited ≤ q.queue.retryDelayMax) :
      Starts q due (n + 1) (time + ran + waited)

theorem Starts.allowed {q : ResolvedQueue ρ} {due time : ℚ} {n : ℕ} (starts : Starts q due n time) :
    n ≤ q.queue.retryLimit := by
  cases starts with
  | first => exact Nat.zero_le _
  | retry _ allowed _ _ _ _ => exact allowed

theorem Starts.le_rounds {q : ResolvedQueue ρ} {due time : ℚ} {n : ℕ} (starts : Starts q due n time) :
    time ≤ due + n * q.longestRound := by
  induction starts with
  | first => simp
  | retry before allowed ran_nonneg ran_le waited_nonneg waited_le ih =>
    unfold ResolvedQueue.longestRound at ih ⊢
    push_cast at ih ⊢
    linarith

/-- The slowest job: every attempt runs out of time and every wait is the longest. -/
theorem Starts.slowest (q : ResolvedQueue ρ) (due : ℚ) {n : ℕ} (allowed : n ≤ q.queue.retryLimit) :
    Starts q due n (due + n * q.longestRound) := by
  induction n with
  | zero => simpa using Starts.first
  | succ n ih =>
    have next := Starts.retry (ih (Nat.le_of_succ_le allowed)) allowed (by positivity) le_rfl (by positivity) le_rfl
    have sum : due + n * q.longestRound + (q.queue.expireInSeconds + Defaults.expiryDetectionSeconds : ℚ) +
        q.queue.retryDelayMax = due + (n + 1 : ℕ) * q.longestRound := by
      unfold ResolvedQueue.longestRound
      push_cast
      ring
    rwa [sum] at next

/-- All starts are before the deadline exactly if the slowest job's last one is. -/
theorem starts_before_iff (q : ResolvedQueue ρ) :
    (∀ due time n, Starts q due n time → time < due + q.queue.retentionSeconds) ↔
      q.queue.retryLimit * q.longestRound < q.queue.retentionSeconds := by
  constructor
  · intro before
    have last := before 0 _ _ (Starts.slowest q 0 le_rfl)
    rw [zero_add, zero_add] at last
    exact_mod_cast last
  · intro short due time n starts
    have rounds : n * q.longestRound < q.queue.retentionSeconds :=
      (Nat.mul_le_mul_right _ starts.allowed).trans_lt short
    have roundsQ : (n * q.longestRound : ℚ) < q.queue.retentionSeconds := by exact_mod_cast rounds
    linarith [starts.le_rounds]

theorem leastWindow_rounds (q : ResolvedQueue ρ) :
    leastWindow q.queue.retryLimit q.queue.expireInSeconds q.queue.retryDelayMax =
      q.queue.retryLimit * q.longestRound + (q.queue.expireInSeconds + Defaults.expiryDetectionSeconds) := by
  unfold leastWindow ResolvedQueue.longestRound
  ring

/-- A queue that gave its own window never deletes a job it is still retrying; one that keeps the
default does not exactly if its retries fit into the fourteen days. -/
theorem last_attempt_before_deadline {name : Text} {config : QueueConfig ρ} {q : ResolvedQueue ρ}
    (h : resolveQueue name config = .ok q) :
    (∀ due time n, Starts q due n time → time < due + q.queue.retentionSeconds) ↔
      (config.retention.getD .empty).pending.isSome = true ∨
        q.queue.retryLimit * (q.queue.expireInSeconds + Defaults.expiryDetectionSeconds + q.queue.retryDelayMax) <
          Defaults.retentionPending := by
  have accepted := resolveQueue_ok h
  rw [starts_before_iff, ← accepted.watch]
  cases given : q.pendingWatch with
  | true =>
    have covered := accepted.covered given
    have positive : 0 < Defaults.expiryDetectionSeconds := by decide
    rw [leastWindow_rounds] at covered
    simp only [true_or, iff_true]
    omega
  | false =>
    rw [accepted.default given]
    simp [ResolvedQueue.longestRound]

/-! ### A queue with the default window and more retries than fit into it -/

def manyRetries : QueueConfig Unit := plainOptions (some 100) (some 86400) none none

def manyRetriesQueue : Resolved := plainQueue (text "q") (some 100) (some 86400) none none

theorem manyRetries_accepted : resolveQueue (text "q") manyRetries = .ok (manyRetriesQueue.withRule none) :=
  resolveQueue_plain (some 100) (some 86400) none none (by decide) (by decide) nofun (by decide) (by decide) (by decide)
    (by decide) (by decide) (by decide)

theorem last_attempt_before_deadline_manyRetries :
    ¬∀ due time n, Starts (manyRetriesQueue.withRule (none : Option Unit)) due n time →
      time < due + manyRetriesQueue.queue.retentionSeconds :=
  fun before => absurd ((last_attempt_before_deadline manyRetries_accepted).mp before) (by decide)

/-- The last allowed attempt of a queue that was accepted starts after the deadline. -/
theorem default_window_too_short :
    ∃ (config : QueueConfig Unit) (q : ResolvedQueue Unit) (due time : ℚ), resolveQueue (text "q") config = .ok q ∧
      config.retention = none ∧ Starts q due q.queue.retryLimit time ∧ due + q.queue.retentionSeconds ≤ time := by
  refine ⟨manyRetries, manyRetriesQueue.withRule none, 0, _, manyRetries_accepted, rfl, Starts.slowest _ 0 le_rfl, ?_⟩
  norm_num [manyRetriesQueue, plainQueue, Resolved.withRule, ResolvedQueue.longestRound, Defaults.expireInSeconds,
    Defaults.expiryDetectionSeconds, Defaults.retentionPending, day, minute]

end Queues
