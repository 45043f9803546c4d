import AppPlatform.Cache.SlidingWindow

/-!
# The rate-limit guard

`RateLimitGuard` in front of the sliding-window limiter: the bucket that a request is counted in, and what the guard answers while the
cache is there, loses an answer or is away. Others use the same cache under keys of their own.
-/

namespace RateLimitGuard
open Js Runs

inductive Tier where
  | default
  | strict
  | authLogin
  | authRefresh
  deriving DecidableEq

def tierName : Tier → Text
  | .default => text "DEFAULT"
  | .strict => text "STRICT"
  | .authLogin => text "AUTH_LOGIN"
  | .authRefresh => text "AUTH_REFRESH"

structure TierConfig where
  limit : ℕ
  windowSeconds : ℕ
  keyByRefreshToken : Bool

/-- `RATE_LIMIT_TIERS` -/
def config : Tier → TierConfig
  | .default => ⟨100, 60, false⟩
  | .strict => ⟨20, 60, false⟩
  | .authLogin => ⟨5, 15 * 60, false⟩
  | .authRefresh => ⟨30, 60, true⟩

inductive Identifier where
  | session (digest : Text)
  | uid (userId : Text)
  | ip (address : Text)
  deriving DecidableEq

def Identifier.text : Identifier → Text
  | .session digest => Js.text "session:" ++ digest
  | .uid userId => Js.text "uid:" ++ userId
  | .ip address => Js.text "ip:" ++ address

structure Bucket where
  tier : Tier
  identifier : Identifier
  deriving DecidableEq

def Bucket.key (bucket : Bucket) : Text := tierName bucket.tier ++ unit ':' :: bucket.identifier.text

/-- What the guard reads of a request, of its route and of the context that it runs in. -/
structure Request where
  skip : Bool
  tier : Option Tier
  ip : Text
  userId : Option Text
  refreshToken : Option Text

/-- The hexadecimal SHA-256 of a cookie, cut to 32 digits. -/
def digest (sha256 : Text → Text) (cookie : Text) : Text := (sha256 cookie).take 32

def truthy (value : Option Text) : Option Text := value.filter fun t => t ≠ []

def Request.bucket (sha256 : Text → Text) (req : Request) : Bucket :=
  let tier := req.tier.getD .default
  let identifier := if (config tier).keyByRefreshToken then (truthy req.refreshToken).map fun cookie => .session (digest sha256 cookie)
    else (truthy req.userId).map .uid
  ⟨tier, identifier.getD (.ip req.ip)⟩

inductive Mode where
  | cache
  | edgeOnly
  | disabled
  deriving DecidableEq

/-- How a call of the cache ends: answered, executed without an answer, or not at all. -/
inductive Link where
  | up
  | lost
  | down

structure LimitHeaders where
  limit : ℤ
  remaining : ℤ
  resetAt : ℤ

inductive Answer where
  /-- Let through without a look at the cache. -/
  | bypassed
  | passed (headers : LimitHeaders)
  /-- Let through as the cache failed; a call that was executed may have been admitted. -/
  | failedOpen (admitted : Bool)
  | refused (headers : LimitHeaders) (retryAfter : ℤ) (message : Text)

def refusal (tier : Tier) (retryAfter : ℤ) : Text :=
  text "Rate limit exceeded (" ++ tierName tier ++ text "). Retry after " ++ natText retryAfter.toNat ++ text "s."

/-- What follows the answer of the cache; `now` is the clock after it, in milliseconds. -/
def judge (tier : Tier) (now : ℤ) : Option RateLimiter.Decision → Answer
  | none => .failedOpen false
  | some decision =>
    let headers : LimitHeaders := ⟨(config tier).limit, decision.remaining, decision.resetAt⟩
    if decision.allowed then .passed headers
    else
      let retryAfter := max (decision.resetAt - now / 1000) 1
      .refused headers retryAfter (refusal tier retryAfter)

def consume (bucket : Bucket) (limiter : RateLimiter.State) (random : Text) : RateLimiter.State × Option RateLimiter.Decision :=
  RateLimiter.consumeRateLimit limiter bucket.key (config bucket.tier).limit (config bucket.tier).windowSeconds random

def canActivate (mode : Mode) (sha256 : Text → Text) (limiter : RateLimiter.State) (req : Request) (link : Link) (random : Text)
    (now : ℤ) : RateLimiter.State × Answer :=
  if mode ≠ .cache ∨ req.skip = true then (limiter, .bypassed)
  else
    let bucket := req.bucket sha256
    let (after, decision) := consume bucket limiter random
    match link with
    | .up => (after, judge bucket.tier now decision)
    | .lost => (after, .failedOpen (decision.any (·.allowed)))
    | .down => (limiter, .failedOpen false)

structure Entry where
  time : ℤ
  bucket : Bucket
  answer : Answer

/-- The newest entry is first. -/
structure State where
  limiter : RateLimiter.State
  log : List Entry

inductive Event where
  | request (req : Request) (link : Link) (random : Text) (now : ℤ)
  /-- Time passes, or something else uses the cache. -/
  | other (event : RateLimiter.Event)

def step (mode : Mode) (sha256 : Text → Text) (s : State) : Event → Option State
  | .request req link random now =>
    let (after, answer) := canActivate mode sha256 s.limiter req link random now
    some ⟨after, ⟨s.limiter.now, req.bucket sha256, answer⟩ :: s.log⟩
  | .other event => (RateLimiter.step s.limiter event).map fun after => { s with limiter := after }

/-- A call has a member of its own, and nothing else uses the keys of the guard. -/
def Proper (sha256 : Text → Text) (s : State) : Event → Prop
  | .request req _ random _ =>
    RateLimiter.memberOf s.limiter.now random ∉ s.limiter.used (req.bucket sha256).key
  | .other (.consume key _ _ _) => ∀ bucket : Bucket, key ≠ bucket.key
  | .other (.refund key _) => ∀ bucket : Bucket, key ≠ bucket.key
  | .other (.tick _) => True

/-- The request took a place in its bucket. -/
def Answer.counted : Answer → Bool
  | .passed _ => true
  | .failedOpen admitted => admitted
  | .bypassed | .refused _ _ _ => false

def Answer.isRefused : Answer → Bool
  | .refused _ _ _ => true
  | .bypassed | .passed _ | .failedOpen _ => false

/-- The requests of a bucket that took a place in it. -/
def countedIn (bucket : Bucket) (log : List Entry) : List Entry := log.filter fun e => e.bucket = bucket && e.answer.counted

def Bucket.limit (bucket : Bucket) : ℤ := (config bucket.tier).limit

def Bucket.window (bucket : Bucket) : ℤ := (config bucket.tier).windowSeconds * 1000

theorem tierName_plain (tier : Tier) : unit ':' ∉ tierName tier := by cases tier <;> decide

theorem tierName_injective {tier tier' : Tier} (same : tierName tier = tierName tier') : tier = tier' := by
  have lengths := congrArg List.length same
  cases tier <;> cases tier' <;> first | rfl | exact absurd lengths (by decide)

theorem identifier_injective {i j : Identifier} (same : i.text = j.text) : i = j := by
  cases i with
  | session d =>
    cases j with
    | session d' => exact congrArg _ (List.append_cancel_left same)
    | uid u => exact absurd (List.head_eq_of_cons_eq same) (by decide)
    | ip a => exact absurd (List.head_eq_of_cons_eq same) (by decide)
  | uid u =>
    cases j with
    | session d => exact absurd (List.head_eq_of_cons_eq same) (by decide)
    | uid u' => exact congrArg _ (List.append_cancel_left same)
    | ip a => exact absurd (List.head_eq_of_cons_eq same) (by decide)
  | ip a =>
    cases j with
    | session d => exact absurd (List.head_eq_of_cons_eq same) (by decide)
    | uid u => exact absurd (List.head_eq_of_cons_eq same) (by decide)
    | ip a' => exact congrArg _ (List.append_cancel_left same)

theorem key_injective {b b' : Bucket} (same : b.key = b'.key) : b = b' := by
  obtain ⟨tier, identifier⟩ := b
  obtain ⟨tier', identifier'⟩ := b'
  obtain ⟨tiers, identifiers⟩ := before_first (tierName_plain tier) (tierName_plain tier') same
  obtain rfl := tierName_injective tiers
  obtain rfl := identifier_injective identifiers
  rfl

section Limiter
variable {s t : RateLimiter.State} {key other random : Text} {limit windowSeconds : ℤ}

variable (s key limit windowSeconds random) in
theorem taken_consume : ((RateLimiter.consumeRateLimit s key limit windowSeconds random).1.taken key).map Prod.fst =
    (if (RateLimiter.consumeRateLimit s key limit windowSeconds random).2.any (·.allowed) then [(s.now : ℤ)] else []) ++
      (s.taken key).map Prod.fst := by
  by_cases room : ((s.trimmed key windowSeconds).set.card : ℤ) < limit
  · rw [RateLimiter.consume_admitted random room]
    simp
  · obtain ⟨state, rejected⟩ := RateLimiter.consume_rejected random room
    have none : (RateLimiter.consumeRateLimit s key limit windowSeconds random).2.any (·.allowed) = false := by
      rw [Option.any_eq_false]
      intro decision answered
      rw [rejected decision answered]
    rw [none, state]
    rfl

theorem taken_other (differs : other ≠ key) :
    (RateLimiter.consumeRateLimit s key limit windowSeconds random).1.taken other = s.taken other := by
  unfold RateLimiter.consumeRateLimit
  dsimp only
  split
  · exact Function.update_of_ne differs _ _
  · rfl

theorem rejected_full (safe : RateLimiter.Safe key limit (windowSeconds * 1000) s) {decision : RateLimiter.Decision}
    (answered : (RateLimiter.consumeRateLimit s key limit windowSeconds random).2 = some decision)
      (rejected : decision.allowed = false) :
    limit ≤ (((s.taken key).map Prod.fst).filter fun time => (s.now : ℤ) - windowSeconds * 1000 < time).length := by
  have full : ¬ ((s.trimmed key windowSeconds).set.card : ℤ) < limit := by
    intro room
    rw [RateLimiter.consume_admitted random room] at answered
    cases answered
    cases rejected
  have counted : (s.trimmed key windowSeconds).set.card ≤
      ((s.taken key).filter fun e => (s.now : ℤ) - windowSeconds * 1000 < e.1).length := by
    refine (List.subperm_of_subset (List.Nodup.of_map _ (s.trimmed key windowSeconds).set.unique) ?_).length_le
    intro e member
    obtain ⟨inside, young⟩ := RateLimiter.mem_trimmed.mp member
    exact List.mem_filter.mpr ⟨safe.taken e (RateLimiter.mem_view.mp inside).1, by simpa using young⟩
  rw [List.filter_map, List.length_map]
  change _ ≤ (((s.taken key).filter fun e => (s.now : ℤ) - windowSeconds * 1000 < e.1).length : ℤ)
  omega

end Limiter

/-! ### What every run keeps -/

def recent (bucket : Bucket) (time : ℤ) (log : List Entry) : List Entry :=
  (countedIn bucket log).filter fun e => time - bucket.window < e.time

structure Kept (s : State) : Prop where
  safe : ∀ bucket : Bucket, RateLimiter.Safe bucket.key bucket.limit bucket.window s.limiter
  counted : ∀ bucket : Bucket, (s.limiter.taken bucket.key).map Prod.fst = (countedIn bucket s.log).map Entry.time
  /-- Only a full bucket refuses. -/
  refused : ∀ later e earlier, s.log = later ++ e :: earlier → e.answer.isRefused = true →
    e.bucket.limit ≤ (recent e.bucket e.time earlier).length

section Steps
variable {mode : Mode} {sha256 : Text → Text} {s t : State} {e : Event} {entry : Entry}

theorem countedIn_cons (bucket : Bucket) (log : List Entry) : countedIn bucket (entry :: log) =
    (if entry.bucket = bucket ∧ entry.answer.counted = true then [entry] else []) ++ countedIn bucket log := by
  unfold countedIn
  by_cases here : entry.bucket = bucket ∧ entry.answer.counted = true
  · rw [if_pos here, List.filter_cons_of_pos (by simp [here])]
    rfl
  · rw [if_neg here, List.filter_cons_of_neg (by simpa using here)]
    rfl

theorem refused_cons {log : List Entry} (before : ∀ later e earlier, log = later ++ e :: earlier → e.answer.isRefused = true →
      e.bucket.limit ≤ (recent e.bucket e.time earlier).length)
    (now : entry.answer.isRefused = true → entry.bucket.limit ≤ (recent entry.bucket entry.time log).length) :
    ∀ later e earlier, entry :: log = later ++ e :: earlier → e.answer.isRefused = true →
      e.bucket.limit ≤ (recent e.bucket e.time earlier).length := by
  intro later e earlier split refused
  cases later with
  | nil =>
    obtain ⟨rfl, rfl⟩ := List.cons.inj split
    exact now refused
  | cons _ later => exact before later e earlier (List.cons.inj split).2 refused

/-- A request that the limiter was not asked about. -/
theorem kept_unasked (kept : Kept s) (time : ℤ) (bucket : Bucket) {answer : Answer} (uncounted : answer.counted = false)
    (admitted : answer.isRefused = false) : Kept ⟨s.limiter, ⟨time, bucket, answer⟩ :: s.log⟩ := by
  refine ⟨kept.safe, ?_, refused_cons kept.refused ?_⟩
  · intro other
    rw [kept.counted, countedIn_cons, if_neg (by simp [uncounted])]
    rfl
  · intro refused
    rw [admitted] at refused
    cases refused

theorem safe_consume (kept : Kept s) {bucket : Bucket} {random : Text}
    (fresh : RateLimiter.memberOf s.limiter.now random ∉ s.limiter.used bucket.key) (other : Bucket) :
    RateLimiter.Safe other.key other.limit other.window (consume bucket s.limiter random).1 := by
  refine RateLimiter.step_safe (e := .consume bucket.key bucket.limit (config bucket.tier).windowSeconds random) (kept.safe other) ?_ rfl
  intro same
  obtain rfl := key_injective same
  exact ⟨rfl, rfl, fresh⟩

theorem kept_asked (kept : Kept s) {bucket : Bucket} {random : Text} {answer : Answer}
    (fresh : RateLimiter.memberOf s.limiter.now random ∉ s.limiter.used bucket.key)
    (counted : answer.counted = (consume bucket s.limiter random).2.any (·.allowed))
    (refused : answer.isRefused = true → ∃ decision, (consume bucket s.limiter random).2 = some decision ∧
      decision.allowed = false) :
    Kept ⟨(consume bucket s.limiter random).1, ⟨s.limiter.now, bucket, answer⟩ :: s.log⟩ := by
  refine ⟨safe_consume kept fresh, ?_, refused_cons kept.refused ?_⟩
  · intro other
    rw [countedIn_cons]
    by_cases same : bucket = other
    · subst same
      have taken := taken_consume s.limiter bucket.key random bucket.limit (config bucket.tier).windowSeconds
      rw [kept.counted] at taken
      refine taken.trans ?_
      change (if (consume bucket s.limiter random).2.any (·.allowed) then _ else _) ++ _ = _
      rw [← counted]
      cases answer.counted <;> simp
    · have differs : other.key ≠ bucket.key := fun keys => same (key_injective keys).symm
      rw [consume, taken_other differs, kept.counted, if_neg (fun both => same both.1)]
      rfl
  · intro isRefused
    obtain ⟨decision, answered, rejected⟩ := refused isRefused
    have full := rejected_full (kept.safe bucket) answered rejected
    rw [kept.counted, List.filter_map, List.length_map] at full
    exact full

theorem judge_counted (tier : Tier) (now : ℤ) (decision : Option RateLimiter.Decision) :
    (judge tier now decision).counted = decision.any (·.allowed) := by
  cases decision with
  | none => rfl
  | some decision =>
    unfold judge
    cases allowed : decision.allowed <;> simp [allowed, Answer.counted]

theorem judge_refused {tier : Tier} {now : ℤ} {decision : Option RateLimiter.Decision}
    (refused : (judge tier now decision).isRefused = true) :
    ∃ d, decision = some d ∧ d.allowed = false := by
  cases decision with
  | none => cases refused
  | some d =>
    refine ⟨d, rfl, ?_⟩
    unfold judge at refused
    cases allowed : d.allowed with
    | false => rfl
    | true => simp [allowed, Answer.isRefused] at refused

theorem kept_step (kept : Kept s) (proper : Proper sha256 s e) (h : step mode sha256 s e = some t) : Kept t := by
  cases e with
  | request req link random now =>
    simp only [step, Option.some.injEq] at h
    subst h
    unfold canActivate
    split
    · exact kept_unasked kept _ _ rfl rfl
    · cases link with
      | up => exact kept_asked kept proper (judge_counted _ _ _) judge_refused
      | lost => exact kept_asked kept proper rfl nofun
      | down => exact kept_unasked kept _ _ rfl rfl
  | other event =>
    obtain ⟨after, moved, rfl⟩ := Option.map_eq_some_iff.mp h
    have apart : ∀ bucket : Bucket, RateLimiter.Uniform bucket.key bucket.limit (config bucket.tier).windowSeconds s.limiter event ∧
        after.taken bucket.key = s.limiter.taken bucket.key := by
      intro bucket
      cases event with
      | consume key limit windowSeconds random =>
        obtain rfl := Option.some.inj moved
        exact ⟨fun same => (proper bucket same).elim, taken_other (Ne.symm (proper bucket))⟩
      | refund key id =>
        obtain rfl := Option.some.inj moved
        exact ⟨trivial, Function.update_of_ne (Ne.symm (proper bucket)) _ _⟩
      | tick ms =>
        obtain rfl := Option.some.inj moved
        exact ⟨trivial, rfl⟩
    refine ⟨fun bucket => RateLimiter.step_safe (kept.safe bucket) (apart bucket).1 moved, ?_, kept.refused⟩
    intro bucket
    rw [(apart bucket).2]
    exact kept.counted bucket

end Steps

/-- No entry of the guard is there yet. -/
structure Fresh (s : State) : Prop where
  limiter : ∀ bucket : Bucket, RateLimiter.Fresh bucket.key s.limiter
  log : s.log = []

theorem fresh_kept {s : State} (fresh : Fresh s) : Kept s := by
  refine ⟨fun bucket => RateLimiter.fresh_safe (fresh.limiter bucket) ?_, ?_, ?_⟩
  · change (1 : ℤ) ≤ (config bucket.tier).limit
    cases bucket.tier <;> decide
  · intro bucket
    rw [(fresh.limiter bucket).taken, fresh.log]
    rfl
  · intro later e earlier split
    rw [fresh.log] at split
    exact absurd split (List.append_ne_nil_of_right_ne_nil _ (List.cons_ne_nil _ _)).symm

/-- Whatever requests come, whatever else uses the cache under keys of its own and whenever it fails: no window holds more requests of
one bucket that the limiter admitted than the limit of its tier, and a request is refused only when that many of its own bucket came in
the last window. -/
theorem guard_fair {mode : Mode} {sha256 : Text → Text} {s₀ s : State} {es : List Event} (fresh : Fresh s₀)
    (run : Run (step mode sha256) (Proper sha256) s₀ es s) :
    (∀ (bucket : Bucket) (start : ℤ),
      ((countedIn bucket s.log).filter fun e => start ≤ e.time ∧ e.time < start + bucket.window).length ≤ bucket.limit) ∧
    ∀ later e earlier, s.log = later ++ e :: earlier → e.answer.isRefused = true →
      e.bucket.limit ≤ (recent e.bucket e.time earlier).length := by
  have kept := run.invariant kept_step (fresh_kept fresh)
  refine ⟨?_, kept.refused⟩
  intro bucket start
  have bounded := (kept.safe bucket).bounded start
  have same : (RateLimiter.within bucket.window start (s.limiter.taken bucket.key)).length =
      ((countedIn bucket s.log).filter fun e => start ≤ e.time ∧ e.time < start + bucket.window).length := by
    have lists := congrArg (fun l : List ℤ =>
      (l.filter fun time => start ≤ time ∧ time < start + bucket.window).length) (kept.counted bucket)
    simp only [List.filter_map, List.length_map] at lists
    exact lists
  omega

def signIn (address : String) : Request := ⟨false, some .authLogin, text address, none, none⟩

def paced : RateLimiter.State :=
  (RateLimiter.consumeRateLimit RateLimiter.noCalls (text "mail:rate:noreply@example.com") 30 60 (text "k3")).1

/-- Requests are fresh, and the others let only time pass. -/
def Alone (s : State) : Event → Prop
  | .request req _ random _ => RateLimiter.memberOf s.limiter.now random ∉ s.limiter.used (req.bucket id).key
  | .other (.tick _) => True
  | .other _ => False

instance (s : State) (e : Event) : Decidable (Alone s e) := by
  unfold Alone
  split <;> infer_instance

theorem alone_proper {s : State} {e : Event} (alone : Alone s e) : Proper id s e := by
  unfold Alone at alone
  split at alone
  · exact alone
  · trivial
  · exact alone.elim

/-- Five sign-ins of one address in a window, one of them with its answer lost; a sixth is refused, one from elsewhere and one that
comes a window later are not. -/
theorem guard_fair_sign_ins : ∃ s : State,
    s.log.map (fun e => (e.answer.isRefused, e.answer.counted)) =
      [(false, true), (false, true), (true, false), (false, true), (false, true), (false, true), (false, false), (false, true),
        (false, true)] ∧
    (∀ (bucket : Bucket) (start : ℤ),
      ((countedIn bucket s.log).filter fun e => start ≤ e.time ∧ e.time < start + bucket.window).length ≤ bucket.limit) ∧
    ∀ later e earlier, s.log = later ++ e :: earlier → e.answer.isRefused = true →
      e.bucket.limit ≤ (recent e.bucket e.time earlier).length := by
  have others : Proper id ⟨RateLimiter.noCalls, []⟩
      (.other (.consume (text "mail:rate:noreply@example.com") 30 60 (text "k3"))) := by
    intro bucket same
    have plain : unit ':' ∉ text "mail" := by decide
    obtain ⟨tier, -⟩ := before_first plain (tierName_plain bucket.tier) same
    cases named : bucket.tier <;> rw [named] at tier <;> exact absurd tier (by decide)
  have check : ∃ s ∈ exec (step .cache id) Alone ⟨paced, []⟩
      [.request (signIn "10.0.0.7") .up (text "a1") 0, .request (signIn "10.0.0.7") .lost (text "b2") 0,
        .request (signIn "10.0.0.7") .down (text "c3") 0, .other (.tick 1000), .request (signIn "10.0.0.7") .up (text "a1") 1000,
        .request (signIn "10.0.0.7") .up (text "d4") 1000, .request (signIn "10.0.0.7") .up (text "e5") 1000,
        .request (signIn "10.0.0.7") .up (text "f6") 1000, .request (signIn "10.0.0.8") .up (text "g7") 1000,
        .other (.tick 900000), .request (signIn "10.0.0.7") .up (text "a1") 901000],
      s.log.map (fun e => (e.answer.isRefused, e.answer.counted)) =
        [(false, true), (false, true), (true, false), (false, true), (false, true), (false, true), (false, false), (false, true),
          (false, true)] := by
    decide +kernel
  obtain ⟨s, reached, answers⟩ := check
  have run : Run (step .cache id) (Proper id) ⟨RateLimiter.noCalls, []⟩ _ s :=
    .cons others rfl ((Run.of_exec reached).mono fun _ _ => alone_proper)
  exact ⟨s, answers, guard_fair ⟨fun _ => ⟨rfl, rfl⟩, rfl⟩ run⟩

end RateLimitGuard
