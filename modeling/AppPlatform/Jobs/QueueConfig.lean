import AppPlatform.Lib.JsonRoundTrip
import AppPlatform.Lib.Refusal

/-!
# Queue configuration

What a queue's configuration comes to: every field checked, the defaults filled in, and the
fingerprint by which two definitions of one queue are compared. A refusal is the message of the
`JobsConfigError`. The type of the redrive rules is a parameter: a rule is only ever passed on.
-/

namespace Queues
open Js Refusal

def minute : ℕ := 60

def day : ℕ := 24 * 60 * minute

namespace Defaults

def concurrency : ℕ := 4

def pollingIntervalSeconds : ℕ := 1

def minPollingIntervalSeconds : ℚ := 1 / 2

def expireInSeconds : ℕ := 900

def heartbeatAboveExpireSeconds : ℕ := 300

def heartbeatSeconds : ℕ := 30

def minHeartbeatSeconds : ℕ := 10

def retryLimit : ℕ := 3

def minRetryLimit : ℕ := 1

def retryDelaySeconds : ℕ := 5

def retryDelayMaxSeconds : ℕ := 300

def retentionCompleted : ℕ := 7 * day

def retentionDeadLetter : ℕ := 30 * day

def retentionPending : ℕ := 14 * day

def minPendingSeconds : ℕ := 60

/-- How late an attempt that ran out of time can be noticed. -/
def expiryDetectionSeconds : ℕ := 75

end Defaults

/-- `[A-Za-z0-9]` -/
def isNameStart (u : CodeUnit) : Bool := isLetter u || isDigit u

/-- A letter, a digit or one of `_ . - /`. -/
def isNameUnit (u : CodeUnit) : Bool :=
  isNameStart u || u = unit '_' || u = unit '.' || u = unit '-' || u = unit '/'

/-- `QUEUE_NAME` -/
def queueName : Text → Bool
  | [] => false
  | u :: rest => isNameStart u && rest.all isNameUnit && rest.length ≤ 99

def assertQueueName (name : Text) : Except Text Unit :=
  refuseIf (queueName name = false) (text "Queue name \"" ++ name ++
    text "\" is not valid: use 1-100 letters, digits, \"_\", \".\", \"-\" or \"/\", starting with a letter or digit.")

def integer (queue field : Text) (value : Number) (min max : ℕ) : Except Text ℕ :=
  let refusal := text "Queue \"" ++ queue ++ text "\": " ++ field ++ text " must be an integer between " ++ natText min ++
    text " and " ++ natText max ++ text ", received " ++ numberText value ++ text "."
  match value.whole? with
  | some n => if n < min ∨ max < n then .error refusal else .ok n.toNat
  | none => .error refusal

def integerIfGiven (queue field : Text) (value : Option Number) (min max : ℕ) : Except Text (Option ℕ) :=
  match value with
  | some value => some <$> integer queue field value min max
  | none => .ok none

inductive Completed where
  | immediate
  | seconds (value : Number)

structure RetentionOptions where
  completed : Option Completed
  failed : Option Number
  deadLetter : Option Number
  pending : Option Number

/-- What is given as `canRedrive`. -/
inductive GivenRule (ρ : Type) where
  | function (rule : ρ)
  | notFunction

structure QueueConfig (ρ : Type) where
  expireInSeconds : Option Number
  heartbeatSeconds : Option Number
  retryLimit : Option Number
  acceptDeadLetterOnDrain : Option Bool
  retryDelaySeconds : Option Number
  retryDelayMaxSeconds : Option Number
  deadLetter : Option Text
  retention : Option RetentionOptions
  canRedrive : Option (GivenRule ρ)

def RetentionOptions.empty : RetentionOptions := ⟨none, none, none, none⟩

def QueueConfig.empty {ρ : Type} : QueueConfig ρ := ⟨none, none, none, none, none, none, none, none, none⟩

structure HandleOptions (ρ : Type) where
  config : QueueConfig ρ
  concurrency : Option Number
  pollingIntervalSeconds : Option Number

/-! ### What it comes to -/

structure Retention where
  deleteOnSuccess : Bool
  finishedSeconds : ℕ
  deadLetterSeconds : ℕ
  pendingSeconds : ℕ
  pendingExplicit : Bool

/-- The options of the queue itself. `retryBackoff` is always set. -/
structure QueueOptions where
  expireInSeconds : ℕ
  heartbeatSeconds : Option ℕ
  retryLimit : ℕ
  retryDelay : ℕ
  retryDelayMax : ℕ
  deleteAfterSeconds : ℕ
  retentionSeconds : ℕ
  deadLetter : Text
  deriving DecidableEq

@[ext]
structure DeadLetterOptions where
  retentionSeconds : ℕ
  deleteAfterSeconds : ℕ
  deriving DecidableEq

structure Resolved where
  name : Text
  deadLetter : Text
  queue : QueueOptions
  deadLetterQueue : DeadLetterOptions
  deleteOnSuccess : Bool
  guarded : Bool
  pendingWatch : Bool
  deriving DecidableEq

structure ResolvedQueue (ρ : Type) extends Resolved where
  canRedrive : Option ρ
  fingerprint : Text

structure ResolvedHandler where
  concurrency : ℕ
  pollingIntervalSeconds : Number

/-- The number given for `completed`. -/
def Completed.seconds? : Completed → Option Number
  | .seconds value => some value
  | .immediate => none

def differs (completed failed : Option ℕ) : Bool :=
  match completed, failed with
  | some completed, some failed => failed ≠ completed
  | _, _ => false

def resolveRetention (queue : Text) (retention : RetentionOptions) : Except Text Retention := do
  let pending ← integerIfGiven queue (text "retention.pending") retention.pending Defaults.minPendingSeconds (3650 * day)
  let completed ← integerIfGiven queue (text "retention.completed") (retention.completed.bind Completed.seconds?) 1 (3650 * day)
  let failed ← integerIfGiven queue (text "retention.failed") retention.failed 1 (3650 * day)
  let deadLetter ← integerIfGiven queue (text "retention.deadLetter") retention.deadLetter 1 (3650 * day)
  let resolved : Retention :=
    { deleteOnSuccess := retention.completed matches some .immediate
      -- with `immediate` the rows that remain are failures: there is no `completed` to follow
      finishedSeconds := (completed.or failed).getD Defaults.retentionCompleted
      deadLetterSeconds := deadLetter.getD Defaults.retentionDeadLetter
      pendingSeconds := pending.getD Defaults.retentionPending
      pendingExplicit := retention.pending.isSome }
  refuseIf (differs completed failed = true) (text "Queue \"" ++ queue ++ text "\": retention.completed (" ++
    natText (completed.getD 0) ++ text ") and retention.failed (" ++ natText (failed.getD 0) ++ text (") differ. " ++
    "pg-boss deletes every finished job of a queue on one clock. Give both the same number, " ++
    "give only one (the other follows), or use retention.completed: 'immediate' to delete " ++
    "successes at once and keep failures for retention.failed."))
  .ok resolved

/-- What is left of a job's time before its deadline must cover at least this. -/
def leastWindow (retryLimit expireInSeconds retryDelayMax : ℕ) : ℕ :=
  (retryLimit + 1) * (expireInSeconds + Defaults.expiryDetectionSeconds) + retryLimit * retryDelayMax

def QueueOptions.json (o : QueueOptions) : Json :=
  .obj [(text "expireInSeconds", .num (.ofNat o.expireInSeconds)),
    (text "heartbeatSeconds", match o.heartbeatSeconds with
      | some seconds => .num (.ofNat seconds)
      | none => .null),
    (text "retryLimit", .num (.ofNat o.retryLimit)),
    (text "retryDelay", .num (.ofNat o.retryDelay)),
    (text "retryBackoff", .bool true),
    (text "retryDelayMax", .num (.ofNat o.retryDelayMax)),
    (text "deleteAfterSeconds", .num (.ofNat o.deleteAfterSeconds)),
    (text "retentionSeconds", .num (.ofNat o.retentionSeconds)),
    (text "deadLetter", .str o.deadLetter)]

def DeadLetterOptions.json (o : DeadLetterOptions) : Json :=
  .obj [(text "retentionSeconds", .num (.ofNat o.retentionSeconds)),
    (text "deleteAfterSeconds", .num (.ofNat o.deleteAfterSeconds))]

def Resolved.json (r : Resolved) : Json :=
  .obj [(text "name", .str r.name),
    (text "deadLetter", .str r.deadLetter),
    (text "queue", r.queue.json),
    (text "deadLetterQueue", r.deadLetterQueue.json),
    (text "deleteOnSuccess", .bool r.deleteOnSuccess),
    (text "guarded", .bool r.guarded),
    (text "pendingWatch", .bool r.pendingWatch)]

variable {ρ : Type}

def Resolved.withRule (r : Resolved) (canRedrive : Option ρ) : ResolvedQueue ρ :=
  { r with canRedrive, fingerprint := stringify r.json }

/-- On by default for queues whose jobs may run long. -/
def resolveHeartbeat (name : Text) (heartbeatSeconds : Option Number) (expireInSeconds : ℕ) : Except Text (Option ℕ) :=
  match heartbeatSeconds with
  | some heartbeat => some <$> integer name (text "heartbeatSeconds") heartbeat Defaults.minHeartbeatSeconds day
  | none => .ok (if expireInSeconds > Defaults.heartbeatAboveExpireSeconds then some Defaults.heartbeatSeconds else none)

def resolveRule (name : Text) : Option (GivenRule ρ) → Except Text (Option ρ)
  | none => .ok none
  | some (.function rule) => .ok (some rule)
  | some .notFunction => .error (text "Queue \"" ++ name ++ text "\": canRedrive must be a function (data) => boolean.")

def resolveQueue (name : Text) (config : QueueConfig ρ) : Except Text (ResolvedQueue ρ) := do
  let quoted := text "Queue \"" ++ name ++ text "\": "
  assertQueueName name
  let expireInSeconds ← integer name (text "expireInSeconds")
    (config.expireInSeconds.getD (.ofNat Defaults.expireInSeconds)) 1 (7 * day)
  let heartbeatSeconds ← resolveHeartbeat name config.heartbeatSeconds expireInSeconds
  let retryLimit ← integer name (text "retryLimit") (config.retryLimit.getD (.ofNat Defaults.retryLimit)) 0 100
  refuseIf (retryLimit < Defaults.minRetryLimit ∧ config.acceptDeadLetterOnDrain ≠ some true) (quoted ++ text "retryLimit " ++
    natText retryLimit ++ text " is below the minimum of " ++ natText Defaults.minRetryLimit ++ text (". " ++
    "A pod drain that interrupts a job spends one attempt, so with none left the job goes " ++
    "straight to the dead-letter queue and no other worker runs it. If this queue must never " ++
    "retry, say so with acceptDeadLetterOnDrain: true."))
  let retryDelay ← integer name (text "retryDelaySeconds")
    (config.retryDelaySeconds.getD (.ofNat Defaults.retryDelaySeconds)) 1 day
  let retryDelayMax ← integer name (text "retryDelayMaxSeconds")
    (config.retryDelayMaxSeconds.getD (.ofNat Defaults.retryDelayMaxSeconds)) retryDelay (7 * day)
  let deadLetter := config.deadLetter.getD (name ++ text ".dlq")
  refuseIf (config.deadLetter = none ∧ queueName deadLetter = false) (quoted ++ text "its default dead-letter queue \"" ++
    deadLetter ++ text ("\" would be longer than 100 characters. " ++
    "Use a queue name of at most 96 characters, or name the dead-letter queue with `deadLetter`."))
  assertQueueName deadLetter
  refuseIf (deadLetter = name) (quoted ++ text "its dead-letter queue cannot be itself.")
  let retention ← resolveRetention name (config.retention.getD .empty)
  let least := leastWindow retryLimit expireInSeconds retryDelayMax
  refuseIf (retention.pendingExplicit = true ∧ retention.pendingSeconds < least) (quoted ++ text "retention.pending (" ++
    natText retention.pendingSeconds ++ text (" s) is shorter than the least that covers the " ++
    "retries, (retryLimit + 1) x (expireInSeconds + ") ++ natText Defaults.expiryDetectionSeconds ++
    text ") + retryLimit x retryDelayMaxSeconds = " ++ natText least ++ text " s (" ++
    natText Defaults.expiryDetectionSeconds ++ text (" s is how late pg-boss can notice an attempt expired). " ++
    "pg-boss deletes a waiting job at its own deadline, which a retry does not extend, so a job " ++
    "would be deleted while still being retried. Raise retention.pending, or lower the retries."))
  let canRedrive ← resolveRule name config.canRedrive
  let resolved : Resolved :=
    { name, deadLetter,
      queue := ⟨expireInSeconds, heartbeatSeconds, retryLimit, retryDelay, retryDelayMax, retention.finishedSeconds,
        retention.pendingSeconds, deadLetter⟩,
      deadLetterQueue := ⟨retention.deadLetterSeconds, retention.finishedSeconds⟩,
      deleteOnSuccess := retention.deleteOnSuccess,
      guarded := config.canRedrive.isSome,
      pendingWatch := retention.pendingExplicit }
  .ok (resolved.withRule canRedrive)

/-- `polling` is a number from half a second to an hour. -/
def pollingInRange : Number → Bool
  | .finite q _ => Defaults.minPollingIntervalSeconds ≤ q && q ≤ 3600
  | _ => false

def resolveHandler (queue : Text) (options : HandleOptions ρ) : Except Text ResolvedHandler := do
  let concurrency ← integer queue (text "concurrency") (options.concurrency.getD (.ofNat Defaults.concurrency)) 1 1000
  let polling := options.pollingIntervalSeconds.getD (.ofNat Defaults.pollingIntervalSeconds)
  if pollingInRange polling then
    .ok ⟨concurrency, polling⟩
  else
    .error (text "Queue \"" ++ queue ++ text "\": pollingIntervalSeconds must be between 0.5 and 3600, received " ++
      numberText polling ++ text ".")

/-! ### What acceptance means -/

theorem assertQueueName_ok {name : Text} {u : Unit} (h : assertQueueName name = .ok u) : queueName name = true := by
  unfold assertQueueName at h
  exact Bool.not_eq_false _ |>.mp (refuseIf_ok h)

theorem integer_ok {queue field : Text} {value : Number} {min max n : ℕ} (h : integer queue field value min max = .ok n) :
    min ≤ n ∧ n ≤ max := by
  simp only [integer] at h
  split at h
  · split at h
    · cases h
    · obtain rfl := Except.ok.inj h
      omega
  · cases h

theorem integerIfGiven_ok {queue field : Text} {value : Option Number} {min max : ℕ} {n : Option ℕ}
    (h : integerIfGiven queue field value min max = .ok n) : n.isSome = value.isSome ∧ ∀ m ∈ n, min ≤ m ∧ m ≤ max := by
  cases value with
  | none =>
    obtain rfl := Except.ok.inj h
    simp
  | some value =>
    obtain ⟨m, checked, h⟩ := bind_ok h
    obtain rfl := Except.ok.inj h
    simpa using integer_ok checked

/-- A whole number in the range is accepted as it is. -/
theorem integer_ofNat {queue field : Text} {n min max : ℕ} (above : min ≤ n) (below : n ≤ max) (small : n < 2 ^ 53) :
    integer queue field (.ofNat n) min max = .ok n := by
  have inside : ¬((n : ℤ) < min ∨ (max : ℤ) < n) := by omega
  simp only [integer, Number.whole?_ofNat small, if_neg inside, Int.toNat_natCast]

structure Retention.Accepted (given : RetentionOptions) (r : Retention) : Prop where
  finished : 1 ≤ r.finishedSeconds ∧ r.finishedSeconds ≤ 3650 * day
  deadLetter : 1 ≤ r.deadLetterSeconds ∧ r.deadLetterSeconds ≤ 3650 * day
  pending : Defaults.minPendingSeconds ≤ r.pendingSeconds ∧ r.pendingSeconds ≤ 3650 * day
  explicit : r.pendingExplicit = given.pending.isSome
  default : given.pending = none → r.pendingSeconds = Defaults.retentionPending

theorem getD_range {n : Option ℕ} {min max default : ℕ} (range : ∀ m ∈ n, min ≤ m ∧ m ≤ max) (above : min ≤ default)
    (below : default ≤ max) : min ≤ n.getD default ∧ n.getD default ≤ max := by
  cases n with
  | none => exact ⟨above, below⟩
  | some m => exact range m rfl

theorem resolveRetention_ok {queue : Text} {given : RetentionOptions} {r : Retention}
    (h : resolveRetention queue given = .ok r) : r.Accepted given := by
  obtain ⟨pending, hpending, h⟩ := bind_ok h
  obtain ⟨completed, hcompleted, h⟩ := bind_ok h
  obtain ⟨failed, hfailed, h⟩ := bind_ok h
  obtain ⟨deadLetter, hdeadLetter, h⟩ := bind_ok h
  obtain ⟨_, _, h⟩ := bind_ok h
  obtain rfl := Except.ok.inj h
  have finished : ∀ m ∈ completed.or failed, 1 ≤ m ∧ m ≤ 3650 * day := by
    intro m found
    cases completed with
    | none => exact (integerIfGiven_ok hfailed).2 m found
    | some _ => exact (integerIfGiven_ok hcompleted).2 m found
  refine ⟨getD_range finished (by decide) (by decide), getD_range (integerIfGiven_ok hdeadLetter).2 (by decide) (by decide),
    getD_range (integerIfGiven_ok hpending).2 (by decide) (by decide), rfl, ?_⟩
  intro absent
  rw [absent] at hpending
  obtain rfl := Except.ok.inj hpending
  rfl

/-- What a queue that was accepted says. -/
structure Accepted (name : Text) (config : QueueConfig ρ) (q : ResolvedQueue ρ) : Prop where
  named : q.name = name
  expire : 1 ≤ q.queue.expireInSeconds ∧ q.queue.expireInSeconds ≤ 7 * day
  heartbeat : ∀ n ∈ q.queue.heartbeatSeconds, Defaults.minHeartbeatSeconds ≤ n ∧ n ≤ day
  retryLimit : q.queue.retryLimit ≤ 100
  delay : 1 ≤ q.queue.retryDelay ∧ q.queue.retryDelay ≤ q.queue.retryDelayMax ∧ q.queue.retryDelayMax ≤ 7 * day
  finished : 1 ≤ q.queue.deleteAfterSeconds ∧ q.queue.deleteAfterSeconds ≤ 3650 * day
  retention : Defaults.minPendingSeconds ≤ q.queue.retentionSeconds ∧ q.queue.retentionSeconds ≤ 3650 * day
  deadLetter : q.queue.deadLetter = q.deadLetter ∧ queueName q.deadLetter = true ∧ q.deadLetter ≠ name
  kept : 1 ≤ q.deadLetterQueue.retentionSeconds ∧ q.deadLetterQueue.retentionSeconds ≤ 3650 * day
  clock : q.deadLetterQueue.deleteAfterSeconds = q.queue.deleteAfterSeconds
  watch : q.pendingWatch = (config.retention.getD .empty).pending.isSome
  covered : q.pendingWatch = true →
    leastWindow q.queue.retryLimit q.queue.expireInSeconds q.queue.retryDelayMax ≤ q.queue.retentionSeconds
  default : q.pendingWatch = false → q.queue.retentionSeconds = Defaults.retentionPending
  guarded : q.guarded = config.canRedrive.isSome
  rule : q.guarded = q.canRedrive.isSome
  fingerprint : q.fingerprint = stringify q.toResolved.json

theorem resolveHeartbeat_ok {name : Text} {given : Option Number} {expire : ℕ} {n : Option ℕ}
    (h : resolveHeartbeat name given expire = .ok n) : ∀ m ∈ n, Defaults.minHeartbeatSeconds ≤ m ∧ m ≤ day := by
  cases given with
  | some value =>
    obtain ⟨m, checked, h⟩ := bind_ok h
    obtain rfl := Except.ok.inj h
    simpa using integer_ok checked
  | none =>
    obtain rfl := Except.ok.inj h
    intro m found
    split at found
    · obtain rfl := Option.some.inj found
      decide
    · cases found

theorem resolveRule_ok {name : Text} {given : Option (GivenRule ρ)} {rule : Option ρ} (h : resolveRule name given = .ok rule) :
    given.isSome = rule.isSome := by
  match given, h with
  | none, h | some (.function _), h =>
    obtain rfl := Except.ok.inj h
    rfl

theorem resolveQueue_ok {name : Text} {config : QueueConfig ρ} {q : ResolvedQueue ρ} (h : resolveQueue name config = .ok q) :
    Accepted name config q := by
  obtain ⟨_, _, h⟩ := bind_ok h
  obtain ⟨expire, hexpire, h⟩ := bind_ok h
  obtain ⟨heartbeat, hheartbeat, h⟩ := bind_ok h
  obtain ⟨limit, hlimit, h⟩ := bind_ok h
  obtain ⟨_, _, h⟩ := bind_ok h
  obtain ⟨delay, hdelay, h⟩ := bind_ok h
  obtain ⟨delayMax, hdelayMax, h⟩ := bind_ok h
  obtain ⟨_, _, h⟩ := bind_ok h
  obtain ⟨_, named, h⟩ := bind_ok h
  obtain ⟨_, other, h⟩ := bind_ok h
  obtain ⟨retention, hretention, h⟩ := bind_ok h
  obtain ⟨_, covered, h⟩ := bind_ok h
  obtain ⟨rule, hrule, h⟩ := bind_ok h
  obtain rfl := Except.ok.inj h
  have kept := resolveRetention_ok hretention
  refine ⟨rfl, integer_ok hexpire, resolveHeartbeat_ok hheartbeat, (integer_ok hlimit).2,
    ⟨(integer_ok hdelay).1, integer_ok hdelayMax⟩, kept.finished, kept.pending,
    ⟨rfl, assertQueueName_ok named, refuseIf_ok other⟩, kept.deadLetter, rfl, kept.explicit, ?_, ?_, rfl,
    resolveRule_ok hrule, rfl⟩
  · intro watched
    exact not_lt.mp fun short => refuseIf_ok covered ⟨watched, short⟩
  · intro unwatched
    refine kept.default ?_
    have absent : (config.retention.getD .empty).pending.isSome = false := kept.explicit.symm.trans unwatched
    exact Option.isSome_eq_false_iff.mp absent |> Option.isNone_iff_eq_none.mp

theorem resolveQueue_eq {name : Text} {config : QueueConfig ρ} {expire limit delay delayMax : ℕ} {heartbeat : Option ℕ}
    {retention : Retention} {rule : Option ρ} (named : queueName name = true)
    (hexpire : integer name (text "expireInSeconds") (config.expireInSeconds.getD (.ofNat Defaults.expireInSeconds)) 1 (7 * day) =
      .ok expire)
    (hheartbeat : resolveHeartbeat name config.heartbeatSeconds expire = .ok heartbeat)
    (hlimit : integer name (text "retryLimit") (config.retryLimit.getD (.ofNat Defaults.retryLimit)) 0 100 = .ok limit)
    (retries : ¬(limit < Defaults.minRetryLimit ∧ config.acceptDeadLetterOnDrain ≠ some true))
    (hdelay : integer name (text "retryDelaySeconds") (config.retryDelaySeconds.getD (.ofNat Defaults.retryDelaySeconds)) 1 day =
      .ok delay)
    (hdelayMax : integer name (text "retryDelayMaxSeconds")
      (config.retryDelayMaxSeconds.getD (.ofNat Defaults.retryDelayMaxSeconds)) delay (7 * day) = .ok delayMax)
    (deadLetter : queueName (config.deadLetter.getD (name ++ text ".dlq")) = true)
    (other : config.deadLetter.getD (name ++ text ".dlq") ≠ name)
    (hretention : resolveRetention name (config.retention.getD .empty) = .ok retention)
    (covered : ¬(retention.pendingExplicit = true ∧ retention.pendingSeconds < leastWindow limit expire delayMax))
    (hrule : resolveRule name config.canRedrive = .ok rule) :
    resolveQueue name config = .ok (Resolved.withRule
      { name, deadLetter := config.deadLetter.getD (name ++ text ".dlq"),
        queue := ⟨expire, heartbeat, limit, delay, delayMax, retention.finishedSeconds, retention.pendingSeconds,
          config.deadLetter.getD (name ++ text ".dlq")⟩,
        deadLetterQueue := ⟨retention.deadLetterSeconds, retention.finishedSeconds⟩,
        deleteOnSuccess := retention.deleteOnSuccess, guarded := config.canRedrive.isSome,
        pendingWatch := retention.pendingExplicit } rule) := by
  have default : ¬(config.deadLetter = none ∧ queueName (config.deadLetter.getD (name ++ text ".dlq")) = false) := by
    simp [deadLetter]
  unfold resolveQueue assertQueueName
  dsimp only
  rw [refuseIf_of_not (by simp [named]), ok_bind, hexpire, ok_bind, hheartbeat, ok_bind, hlimit, ok_bind,
    refuseIf_of_not retries, ok_bind, hdelay, ok_bind, hdelayMax, ok_bind, refuseIf_of_not default, ok_bind,
    refuseIf_of_not (by simp [deadLetter]), ok_bind, refuseIf_of_not other, ok_bind, hretention, ok_bind,
    refuseIf_of_not covered, ok_bind, hrule, ok_bind]

theorem integer_default {queue field : Text} {given : Option ℕ} {default min max : ℕ} (above : min ≤ given.getD default)
    (below : given.getD default ≤ max) (small : max < 2 ^ 53) :
    integer queue field ((given.map .ofNat).getD (.ofNat default)) min max = .ok (given.getD default) := by
  have same : (given.map Number.ofNat).getD (.ofNat default) = .ofNat (given.getD default) := by
    cases given <;> rfl
  rw [same, integer_ofNat above below (below.trans_lt small)]

def plainOptions (limit delayMax : Option ℕ) (deadLetter : Option Text) (kept : Option ℕ) : QueueConfig ρ :=
  { QueueConfig.empty with
    retryLimit := limit.map .ofNat, retryDelayMaxSeconds := delayMax.map .ofNat, deadLetter,
    retention := kept.map fun seconds => { RetentionOptions.empty with deadLetter := some (.ofNat seconds) } }

def plainQueue (name : Text) (limit delayMax : Option ℕ) (deadLetter : Option Text) (kept : Option ℕ) : Resolved :=
  { name, deadLetter := deadLetter.getD (name ++ text ".dlq"),
    queue := ⟨Defaults.expireInSeconds, some Defaults.heartbeatSeconds, limit.getD Defaults.retryLimit,
      Defaults.retryDelaySeconds, delayMax.getD Defaults.retryDelayMaxSeconds, Defaults.retentionCompleted,
      Defaults.retentionPending, deadLetter.getD (name ++ text ".dlq")⟩,
    deadLetterQueue := ⟨kept.getD Defaults.retentionDeadLetter, Defaults.retentionCompleted⟩,
    deleteOnSuccess := false, guarded := false, pendingWatch := false }

theorem resolveRetention_plain (queue : Text) {kept : Option ℕ} (above : 1 ≤ kept.getD Defaults.retentionDeadLetter)
    (below : kept.getD Defaults.retentionDeadLetter ≤ 3650 * day) :
    resolveRetention queue ((kept.map fun seconds => { RetentionOptions.empty with deadLetter := some (.ofNat seconds) }).getD .empty) =
      .ok ⟨false, Defaults.retentionCompleted, kept.getD Defaults.retentionDeadLetter, Defaults.retentionPending, false⟩ := by
  cases kept with
  | none => rfl
  | some seconds =>
    have checked : integer queue (text "retention.deadLetter") (.ofNat seconds) 1 (3650 * day) = .ok seconds :=
      integer_ofNat above below (below.trans_lt (by decide))
    simp [resolveRetention, integerIfGiven, RetentionOptions.empty, ok_bind, checked, refuseIf, differs]

theorem resolveQueue_plain {name : Text} (limit delayMax : Option ℕ) (deadLetter : Option Text) (kept : Option ℕ)
    (named : queueName name = true) (namedDeadLetter : queueName (deadLetter.getD (name ++ text ".dlq")) = true)
    (other : deadLetter ≠ some name) (limit_pos : 1 ≤ limit.getD Defaults.retryLimit)
      (limit_le : limit.getD Defaults.retryLimit ≤ 100)
    (delay_le : Defaults.retryDelaySeconds ≤ delayMax.getD Defaults.retryDelayMaxSeconds)
    (delayMax_le : delayMax.getD Defaults.retryDelayMaxSeconds ≤ 7 * day) (kept_pos : 1 ≤ kept.getD Defaults.retentionDeadLetter)
    (kept_le : kept.getD Defaults.retentionDeadLetter ≤ 3650 * day) :
    resolveQueue name (plainOptions limit delayMax deadLetter kept : QueueConfig ρ) =
      .ok ((plainQueue name limit delayMax deadLetter kept).withRule none) := by
  have differs : deadLetter.getD (name ++ text ".dlq") ≠ name := by
    cases deadLetter with
    | none => exact fun same => absurd (List.append_right_eq_self.mp same) (by decide)
    | some dlq => exact fun same => other (congrArg some same)
  have retries : ¬(limit.getD Defaults.retryLimit < Defaults.minRetryLimit ∧
      (plainOptions limit delayMax deadLetter kept : QueueConfig ρ).acceptDeadLetterOnDrain ≠ some true) := by
    unfold Defaults.minRetryLimit
    omega
  exact resolveQueue_eq named (integer_ofNat (by decide) (by decide) (by decide)) rfl
    (integer_default (Nat.zero_le _) limit_le (by decide)) retries (integer_ofNat (by decide) (by decide) (by decide))
    (integer_default delay_le delayMax_le (by decide)) namedDeadLetter differs (resolveRetention_plain name kept_pos kept_le)
    (by simp) rfl

/-! ### The fingerprint tells definitions apart -/

/-- Every number of the options is read back from its text. -/
structure QueueOptions.Small (o : QueueOptions) : Prop where
  expire : o.expireInSeconds < 2 ^ 53
  heartbeat : ∀ n ∈ o.heartbeatSeconds, n < 2 ^ 53
  retryLimit : o.retryLimit < 2 ^ 53
  retryDelay : o.retryDelay < 2 ^ 53
  retryDelayMax : o.retryDelayMax < 2 ^ 53
  deleteAfter : o.deleteAfterSeconds < 2 ^ 53
  retention : o.retentionSeconds < 2 ^ 53

structure DeadLetterOptions.Small (o : DeadLetterOptions) : Prop where
  retention : o.retentionSeconds < 2 ^ 53
  deleteAfter : o.deleteAfterSeconds < 2 ^ 53

theorem Accepted.queue_small {name : Text} {config : QueueConfig ρ} {q : ResolvedQueue ρ} (accepted : Accepted name config q) :
    q.queue.Small := by
  have long : 3650 * day < 2 ^ 53 := by decide
  have week : 7 * day < 2 ^ 53 := by decide
  have days : day < 2 ^ 53 := by decide
  obtain ⟨_, delayMax, most⟩ := accepted.delay
  exact ⟨accepted.expire.2.trans_lt week, fun n found => (accepted.heartbeat n found).2.trans_lt days,
    accepted.retryLimit.trans_lt (by decide), (delayMax.trans most).trans_lt week, most.trans_lt week,
    accepted.finished.2.trans_lt long, accepted.retention.2.trans_lt long⟩

theorem Accepted.deadLetterQueue_small {name : Text} {config : QueueConfig ρ} {q : ResolvedQueue ρ}
    (accepted : Accepted name config q) : q.deadLetterQueue.Small := by
  have long : 3650 * day < 2 ^ 53 := by decide
  refine ⟨accepted.kept.2.trans_lt long, ?_⟩
  rw [accepted.clock]
  exact accepted.finished.2.trans_lt long

theorem finite_ofNat {n : ℕ} (small : n < 2 ^ 53) : (Json.num (.ofNat n)).FiniteNumbers :=
  ⟨n, isDouble_nat small, Number.ofNat_eq small⟩

theorem Resolved.json_canonical (r : Resolved) : r.json.Canonical := by
  have queue : r.queue.json.Canonical := by
    refine ⟨ordered_names [text "expireInSeconds", text "heartbeatSeconds", text "retryLimit", text "retryDelay",
      text "retryBackoff", text "retryDelayMax", text "deleteAfterSeconds", text "retentionSeconds", text "deadLetter"]
      rfl (by decide) (by decide), ?_⟩
    cases r.queue.heartbeatSeconds <;> simp [CanonicalFields, Json.Canonical]
  have deadLetterQueue : r.deadLetterQueue.json.Canonical := by
    refine ⟨ordered_names [text "retentionSeconds", text "deleteAfterSeconds"] rfl (by decide) (by decide), ?_⟩
    simp [CanonicalFields, Json.Canonical]
  refine ⟨ordered_names [text "name", text "deadLetter", text "queue", text "deadLetterQueue", text "deleteOnSuccess",
    text "guarded", text "pendingWatch"] rfl (by decide) (by decide), ?_⟩
  exact ⟨trivial, trivial, queue, deadLetterQueue, trivial, trivial, trivial, trivial⟩

theorem Resolved.json_finite {r : Resolved} (small : r.queue.Small) (small' : r.deadLetterQueue.Small) :
    r.json.FiniteNumbers := by
  have queue : r.queue.json.FiniteNumbers := by
    refine ⟨finite_ofNat small.expire, ?_, finite_ofNat small.retryLimit, finite_ofNat small.retryDelay, trivial,
      finite_ofNat small.retryDelayMax, finite_ofNat small.deleteAfter, finite_ofNat small.retention, trivial, trivial⟩
    cases found : r.queue.heartbeatSeconds with
    | none => trivial
    | some n => exact finite_ofNat (small.heartbeat n found)
  have deadLetterQueue : r.deadLetterQueue.json.FiniteNumbers :=
    ⟨finite_ofNat small'.retention, finite_ofNat small'.deleteAfter, trivial⟩
  exact ⟨trivial, trivial, queue, deadLetterQueue, trivial, trivial, trivial, trivial⟩

theorem QueueOptions.eq_of_json {o o' : QueueOptions} (small : o.Small) (small' : o'.Small) (same : o.json = o'.json) :
    o = o' := by
  obtain ⟨expire, heartbeat, limit, delay, delayMax, deleteAfter, retention, deadLetter⟩ := o
  obtain ⟨expire', heartbeat', limit', delay', delayMax', deleteAfter', retention', deadLetter'⟩ := o'
  simp only [QueueOptions.json, Json.obj.injEq, List.cons.injEq, Prod.mk.injEq, Json.num.injEq, Json.str.injEq, true_and,
    and_true] at same
  obtain ⟨sameExpire, sameHeartbeat, sameLimit, sameDelay, sameDelayMax, sameDeleteAfter, sameRetention, rfl⟩ := same
  obtain rfl := Number.ofNat_inj small.expire small'.expire sameExpire
  obtain rfl := Number.ofNat_inj small.retryLimit small'.retryLimit sameLimit
  obtain rfl := Number.ofNat_inj small.retryDelay small'.retryDelay sameDelay
  obtain rfl := Number.ofNat_inj small.retryDelayMax small'.retryDelayMax sameDelayMax
  obtain rfl := Number.ofNat_inj small.deleteAfter small'.deleteAfter sameDeleteAfter
  obtain rfl := Number.ofNat_inj small.retention small'.retention sameRetention
  cases heartbeat with
  | none =>
    cases heartbeat' with
    | none => rfl
    | some _ => cases sameHeartbeat
  | some n =>
    cases heartbeat' with
    | none => cases sameHeartbeat
    | some m =>
      obtain rfl := Number.ofNat_inj (small.heartbeat n rfl) (small'.heartbeat m rfl) (Json.num.inj sameHeartbeat)
      rfl

theorem DeadLetterOptions.eq_of_json {o o' : DeadLetterOptions} (small : o.Small) (small' : o'.Small)
    (same : o.json = o'.json) : o = o' := by
  obtain ⟨retention, deleteAfter⟩ := o
  obtain ⟨retention', deleteAfter'⟩ := o'
  simp only [DeadLetterOptions.json, Json.obj.injEq, List.cons.injEq, Prod.mk.injEq, Json.num.injEq, true_and,
    and_true] at same
  obtain ⟨sameRetention, sameDeleteAfter⟩ := same
  obtain rfl := Number.ofNat_inj small.retention small'.retention sameRetention
  obtain rfl := Number.ofNat_inj small.deleteAfter small'.deleteAfter sameDeleteAfter
  rfl

/-- Two definitions have one fingerprint exactly if they are the same but for the rule itself. -/
theorem fingerprint_eq {name name' : Text} {config config' : QueueConfig ρ} {q q' : ResolvedQueue ρ}
    (accepted : Accepted name config q) (accepted' : Accepted name' config' q') :
    q.fingerprint = q'.fingerprint ↔ q.toResolved = q'.toResolved := by
  rw [accepted.fingerprint, accepted'.fingerprint]
  constructor
  · intro same
    have json := stringify_inj (Resolved.json_canonical _)
      (Resolved.json_finite accepted.queue_small accepted.deadLetterQueue_small) (Resolved.json_canonical _)
      (Resolved.json_finite accepted'.queue_small accepted'.deadLetterQueue_small) same
    simp only [Resolved.json, Json.obj.injEq, List.cons.injEq, Prod.mk.injEq, Json.str.injEq, Json.bool.injEq, true_and,
      and_true] at json
    obtain ⟨sameName, sameDeadLetter, sameQueue, sameKept, sameDelete, sameGuarded, sameWatch⟩ := json
    have queue := QueueOptions.eq_of_json accepted.queue_small accepted'.queue_small sameQueue
    have kept := DeadLetterOptions.eq_of_json accepted.deadLetterQueue_small accepted'.deadLetterQueue_small sameKept
    obtain ⟨⟨_, _, _, _, _, _, _⟩, _, _⟩ := q
    obtain ⟨⟨_, _, _, _, _, _, _⟩, _, _⟩ := q'
    simp only at sameName sameDeadLetter queue kept sameDelete sameGuarded sameWatch
    subst sameName sameDeadLetter queue kept sameDelete sameGuarded sameWatch
    rfl
  · intro same
    rw [same]

end Queues
