import AppPlatform.Lib.Refusal
import AppPlatform.Lib.StringNumber

/-!
# The stop budget of the jobs

The runtime reads how long a shutdown may take and how long it first waits; the jobs read the same
variables by themselves and compute what is left for them.
-/

namespace Shutdown
open Js Refusal

def DEFAULT_TIMEOUT_MS : ℕ := 25000

def DEFAULT_ENDPOINT_DELAY_MS : ℕ := 5000

/-- For what follows the stop of the jobs. -/
def RESERVE_MS : ℕ := 3000

def MIN_BUDGET_MS : ℕ := 1000

def SHUTDOWN_TIMEOUT_MS : Text := text "SHUTDOWN_TIMEOUT_MS"

def SHUTDOWN_ENDPOINT_DELAY_MS : Text := text "SHUTDOWN_ENDPOINT_DELAY_MS"

def KUBERNETES_SERVICE_HOST : Text := text "KUBERNETES_SERVICE_HOST"

abbrev Env := Text → Option Text

/-- `env['KUBERNETES_SERVICE_HOST'] ? DEFAULT_ENDPOINT_DELAY_MS : 0` -/
def defaultDelay (env : Env) : ℕ :=
  match env KUBERNETES_SERVICE_HOST with
  | some host => if host = [] then 0 else DEFAULT_ENDPOINT_DELAY_MS
  | none => 0

def readMs (env : Env) (name : Text) (fallback : ℕ) : Except Text ℕ :=
  match (env name).map trim with
  | none | some [] => .ok fallback
  | some raw =>
    match (toNumber raw).whole? with
    | some value =>
      if value < 0 ∨ 600000 < value then .error (refusal raw) else .ok value.toNat
    | none => .error (refusal raw)
where
  refusal (raw : Text) : Text :=
    name ++ text " must be an integer number of milliseconds between 0 and 600000, received \"" ++ raw ++ text "\"."

structure GracefulShutdown where
  endpointDelayMs : ℕ
  timeoutMs : ℕ

def enableGracefulShutdown (nestShutdownHooksEnabled : Bool) (env : Env) : Except Text GracefulShutdown := do
  refuseIf (nestShutdownHooksEnabled = true) (text ("enableGracefulShutdown() cannot be used together with " ++
    "app.enableShutdownHooks(): Nest would " ++
    "run app.close() on SIGTERM straight away, skipping the readiness flip, the endpoint-removal " ++
    "delay and the HTTP drain, and then re-send the signal. Remove the enableShutdownHooks() call."))
  let timeoutMs ← readMs env SHUTDOWN_TIMEOUT_MS DEFAULT_TIMEOUT_MS
  let delayMs ← readMs env SHUTDOWN_ENDPOINT_DELAY_MS (defaultDelay env)
  refuseIf (timeoutMs ≤ delayMs) (text "SHUTDOWN_ENDPOINT_DELAY_MS (" ++ natText delayMs ++
    text ") must be smaller than SHUTDOWN_TIMEOUT_MS (" ++ natText timeoutMs ++
    text "), or the deadline expires before the drain can start.")
  .ok ⟨delayMs, timeoutMs⟩

/-- What a shutdown waits before it closes the application: only a process with an HTTP server does. -/
def GracefulShutdown.waited (shutdown : GracefulShutdown) (hasHttpServer : Bool) : ℕ :=
  if hasHttpServer then shutdown.endpointDelayMs else 0

def ms (env : Env) (name : Text) (fallback : ℕ) : Number :=
  match (env name).map trim with
  | none | some [] => .ofNat fallback
  | some raw =>
    match (toNumber raw).whole? with
    | some value => if 0 ≤ value then toNumber raw else .ofNat fallback
    | none => .ofNat fallback

def budgetDelay (env : Env) (hasHttpServer : Bool) : Number :=
  if hasHttpServer then ms env SHUTDOWN_ENDPOINT_DELAY_MS (defaultDelay env) else .ofNat 0

def stopBudgetMs (env : Env) (hasHttpServer : Bool) : Number :=
  (Number.ofNat MIN_BUDGET_MS).max
    (((ms env SHUTDOWN_TIMEOUT_MS DEFAULT_TIMEOUT_MS).minus (budgetDelay env hasHttpServer)).minus (.ofNat RESERVE_MS))

/-! ### One reading of the variables -/

/-- What the runtime accepts the jobs read as the same number. -/
theorem ms_of_readMs {env : Env} {name : Text} {fallback value : ℕ} (default : fallback ≤ 600000)
    (h : readMs env name fallback = .ok value) : ms env name fallback = .ofNat value ∧ value ≤ 600000 := by
  unfold readMs at h
  unfold ms
  split at h
  · obtain rfl := Except.ok.inj h
    exact ⟨rfl, default⟩
  · obtain rfl := Except.ok.inj h
    exact ⟨rfl, default⟩
  · rename_i raw _ _
    cases whole : (toNumber raw).whole? with
    | none =>
      simp only [whole] at h
      cases h
    | some n =>
      simp only [whole] at h ⊢
      split at h
      · cases h
      · obtain rfl := Except.ok.inj h
        obtain ⟨m, rfl⟩ := Int.eq_ofNat_of_zero_le (show 0 ≤ n by omega)
        rw [if_pos (Int.natCast_nonneg m), Int.toNat_natCast]
        exact ⟨Number.eq_ofNat_of_whole whole (by omega), by omega⟩

theorem defaultDelay_le (env : Env) : defaultDelay env ≤ 600000 := by
  unfold defaultDelay
  split
  · split <;> decide
  · decide

/-- What `enableGracefulShutdown` accepts: the delay is shorter than the timeout, and the jobs read both alike. -/
theorem enableGracefulShutdown_ok {hooks : Bool} {env : Env} {shutdown : GracefulShutdown}
    (h : enableGracefulShutdown hooks env = .ok shutdown) :
    shutdown.endpointDelayMs < shutdown.timeoutMs ∧ shutdown.timeoutMs ≤ 600000 ∧
      ms env SHUTDOWN_TIMEOUT_MS DEFAULT_TIMEOUT_MS = .ofNat shutdown.timeoutMs ∧
      ms env SHUTDOWN_ENDPOINT_DELAY_MS (defaultDelay env) = .ofNat shutdown.endpointDelayMs := by
  obtain ⟨_, _, h⟩ := bind_ok h
  obtain ⟨timeout, readTimeout, h⟩ := bind_ok h
  obtain ⟨delay, readDelay, h⟩ := bind_ok h
  obtain ⟨_, longer, h⟩ := bind_ok h
  obtain rfl := Except.ok.inj h
  obtain ⟨sameTimeout, timeout_le⟩ := ms_of_readMs (by decide) readTimeout
  obtain ⟨sameDelay, -⟩ := ms_of_readMs (defaultDelay_le env) readDelay
  exact ⟨not_le.mp (refuseIf_ok longer), timeout_le, sameTimeout, sameDelay⟩

/-- The budget as a number of milliseconds. -/
theorem stopBudgetMs_eq {hooks : Bool} {env : Env} {shutdown : GracefulShutdown}
    (h : enableGracefulShutdown hooks env = .ok shutdown) (hasHttpServer : Bool) :
    stopBudgetMs env hasHttpServer =
      .ofNat (Max.max MIN_BUDGET_MS (shutdown.timeoutMs - shutdown.waited hasHttpServer - RESERVE_MS)) := by
  obtain ⟨shorter, timeout_le, timeout, delay⟩ := enableGracefulShutdown_ok h
  have waited : budgetDelay env hasHttpServer = .ofNat (shutdown.waited hasHttpServer) := by
    cases hasHttpServer
    · rfl
    · exact delay
  have waited_le : shutdown.waited hasHttpServer ≤ 600000 := by
    cases hasHttpServer
    · exact Nat.zero_le _
    · exact (shorter.trans_le timeout_le).le
  have small : ∀ z : ℤ, -700000 ≤ z → z ≤ 700000 → |z| < 2 ^ 53 := by
    intro z low high
    exact (abs_le.mpr ⟨low, high⟩).trans_lt (by norm_num)
  rw [stopBudgetMs, timeout, waited]
  simp only [Number.ofNat_int, MIN_BUDGET_MS, RESERVE_MS]
  rw [Number.ofInt_minus (small _ (by omega) (by omega)) (small _ (by omega) (by omega)),
    Number.ofInt_minus (small _ (by omega) (by omega)) (small _ (by omega) (by omega)),
    Number.ofInt_max (small _ (by omega) (by omega)) (small _ (by omega) (by omega))]
  congr 1
  omega

/-- The jobs read the timeout and the delay of the runtime. What is waited and the budget fit into the
timeout exactly if it leaves the least budget, and with the reserve exactly if it leaves both. -/
theorem stop_budget_fits {hooks : Bool} {env : Env} {shutdown : GracefulShutdown}
    (h : enableGracefulShutdown hooks env = .ok shutdown) (hasHttpServer : Bool) :
    ms env SHUTDOWN_TIMEOUT_MS DEFAULT_TIMEOUT_MS = .ofNat shutdown.timeoutMs ∧
    ms env SHUTDOWN_ENDPOINT_DELAY_MS (defaultDelay env) = .ofNat shutdown.endpointDelayMs ∧
    ∃ budget : ℕ, stopBudgetMs env hasHttpServer = .ofNat budget ∧
      (shutdown.waited hasHttpServer + budget ≤ shutdown.timeoutMs ↔
        shutdown.waited hasHttpServer + MIN_BUDGET_MS ≤ shutdown.timeoutMs) ∧
      (shutdown.waited hasHttpServer + budget + RESERVE_MS ≤ shutdown.timeoutMs ↔
        shutdown.waited hasHttpServer + MIN_BUDGET_MS + RESERVE_MS ≤ shutdown.timeoutMs) ∧
      (shutdown.timeoutMs < shutdown.waited hasHttpServer + MIN_BUDGET_MS → budget = MIN_BUDGET_MS) := by
  obtain ⟨-, -, timeout, delay⟩ := enableGracefulShutdown_ok h
  refine ⟨timeout, delay, _, stopBudgetMs_eq h hasHttpServer, ?_, ?_, ?_⟩
  all_goals
    unfold MIN_BUDGET_MS RESERVE_MS
    omega

def timeoutOf (milliseconds : ℕ) : Env := fun name => if name = SHUTDOWN_TIMEOUT_MS then some (natText milliseconds) else none

theorem readMs_timeoutOf {milliseconds : ℕ} (most : milliseconds ≤ 600000) :
    readMs (timeoutOf milliseconds) SHUTDOWN_TIMEOUT_MS DEFAULT_TIMEOUT_MS = .ok milliseconds := by
  have present : (timeoutOf milliseconds SHUTDOWN_TIMEOUT_MS).map trim = some (natText milliseconds) := by
    rw [timeoutOf, if_pos rfl, Option.map_some, trim_natText]
  have whole := Number.whole?_ofNat (show milliseconds < 2 ^ 53 by omega)
  unfold readMs
  split
  · rename_i absent
    rw [present] at absent
    cases absent
  · rename_i blank
    rw [present] at blank
    exact (natText_ne_nil _ (Option.some.inj blank)).elim
  · rename_i raw _ found
    obtain rfl := Option.some.inj (present.symm.trans found)
    have inside : ¬((milliseconds : ℤ) < 0 ∨ 600000 < (milliseconds : ℤ)) := by omega
    simp only [toNumber_natText, whole, if_neg inside, Int.toNat_natCast]

theorem enable_timeoutOf (milliseconds : ℕ) (positive : 0 < milliseconds) (most : milliseconds ≤ 600000) :
    enableGracefulShutdown false (timeoutOf milliseconds) = .ok ⟨0, milliseconds⟩ := by
  have delay : readMs (timeoutOf milliseconds) SHUTDOWN_ENDPOINT_DELAY_MS (defaultDelay (timeoutOf milliseconds)) = .ok 0 := rfl
  rw [enableGracefulShutdown, refuseIf_of_not Bool.false_ne_true, ok_bind, readMs_timeoutOf most, ok_bind, delay, ok_bind,
    refuseIf_of_not (by omega), ok_bind]

theorem stop_budget_fits_short :
    ∃ budget : ℕ, stopBudgetMs (timeoutOf 500) true = .ofNat budget ∧ budget = MIN_BUDGET_MS := by
  obtain ⟨-, -, budget, same, -, -, least⟩ := stop_budget_fits (enable_timeoutOf 500 (by decide) (by decide)) true
  exact ⟨budget, same, least (by decide)⟩

/-- The budget is twice the timeout. -/
theorem short_timeout_exceeded :
    ∃ shutdown budget, enableGracefulShutdown false (timeoutOf 500) = .ok shutdown ∧
      stopBudgetMs (timeoutOf 500) true = .ofNat budget ∧ shutdown.timeoutMs < shutdown.waited true + budget := by
  have accepted := enable_timeoutOf 500 (by decide) (by decide)
  exact ⟨_, _, accepted, stopBudgetMs_eq accepted true, by decide⟩

end Shutdown
