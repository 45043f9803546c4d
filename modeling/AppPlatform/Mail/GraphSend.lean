import AppPlatform.Lib.AbortSignal
import AppPlatform.Lib.Headers
import AppPlatform.Lib.NumberProduct
import AppPlatform.Lib.StringNumber
import AppPlatform.Mail.Message

/-!
# The Graph sender

`GraphSender.send`: a token, a request, and another of each where the answer says that the message was
not accepted. What the world does is given for each attempt: tokens, answers and their times; the
caller may abort at any time.
-/

namespace Mail.Graph
open Js

/-- `Retry-After`: seconds, or a date that `Date.parse` reads. -/
def parseRetryAfter (dateParse : Text → Option ℤ) (header : Option Text) (now : ℤ) : Option Number :=
  header.bind fun header =>
    let trimmed := trim header
    if trimmed.all isDigit && trimmed ≠ [] then some (toNumber trimmed)
    else (dateParse trimmed).map fun date =>
      (Number.ofNat 0).max (((Number.ofInt date).minus (.ofInt now)).divNat 1000).ceil

def RETRY_IN_PLACE : List ℕ := [429, 502, 503, 504]

def BASE_BACKOFF_MS : ℕ := 500

def MAX_BACKOFF_MS : ℕ := 8000

def STATUS_CODE : ℕ → Option MailErrorCode
  | 400 => some .invalid_message
  | 401 => some .unauthenticated
  | 403 => some .forbidden
  | 404 => some .mailbox_not_found
  | 413 => some .too_large
  | 429 => some .throttled
  | _ => none

def codeForStatus (status : ℕ) : MailErrorCode :=
  (STATUS_CODE status).getD (if 500 ≤ status then .unavailable else .invalid_message)

structure Response where
  status : ℕ
  headers : Fetch.Headers
  /-- The body as JSON, if it is JSON and was read. -/
  body : Option Json

def isCodeUnit (u : CodeUnit) : Bool := isLetter u || isDigit u || u ∈ text "_.-"

def providerErrorCode (response : Response) : Option Text :=
  match (response.body.bind (·.field? (text "error"))).bind (·.field? (text "code")) with
  | some (.str code) => if 1 ≤ code.length ∧ code.length ≤ 64 ∧ code.all isCodeUnit then some code else none
  | _ => none

/-- What `getToken` does; an empty token is no token. -/
inductive TokenAnswer where
  | token
  | none
  | error (name : Text)

/-- What `fetch` settles with where nothing cuts it short. -/
inductive Fetched where
  | response (response : Response)
  | error (name : Text)

/-- A number of `Math.random`. -/
structure Draw where
  value : ℚ
  double : IsDouble value
  nonneg : 0 ≤ value
  below : value < 1

/-- What each attempt meets. Times are in milliseconds from the start. -/
structure World where
  token : ℕ → TokenAnswer
  tokenMs : ℕ → ℕ
  fetched : ℕ → Fetched
  fetchMs : ℕ → ℕ
  bodyMs : ℕ → ℕ
  random : ℕ → Draw
  /-- How long the caller's `onThrottled` takes, if it gave one. -/
  onThrottled : Option (ℕ → ℕ)
  /-- How long the timer of a delay really lasts. -/
  sleepMs : ℕ → ℕ
  signal : AbortSignal
  /-- `Date.now()` -/
  clock : ℕ → ℤ
  dateParse : Text → Option ℤ
  clientRequestId : Text

structure Options where
  maxAttempts : Option ℤ
  requestTimeoutMs : Option ℕ
  maxRetryAfterSeconds : Option Number

def Options.attempts (o : Options) : ℤ := max 1 (o.maxAttempts.getD 3)

def Options.timeoutMs (o : Options) : ℕ := o.requestTimeoutMs.getD 15000

def Options.retryAfterCap (o : Options) : Number := o.maxRetryAfterSeconds.getD (.ofNat 30)

/-! ### One attempt -/

structure Failure where
  error : MailSendError
  status : Option ℕ
  retryAfterSeconds : Option Number
  requestId : Option Text

inductive Outcome where
  | sent (id : Text)
  | failed (failure : Failure)
  /-- The message was refused before anything was sent. -/
  | refused (thrown : Thrown)

/-- What became of a request: Graph's answer and when it was read, or none was seen. -/
inductive Answer where
  | response (response : Response) (readAt : ℕ)
  | unknown

inductive Act where
  /-- A request to `sendMail` that went out at this time. -/
  | request (at' : ℕ) (answer : Answer)
  | onThrottled (seconds : Number)
  | wait (delayMs : Number)

def plain (code : MailErrorCode) (message : Text) : Failure := ⟨⟨code, message⟩, none, none, none⟩

def transportError (w : World) (o : Options) (now : ℕ) (name : Text) : Failure :=
  if w.signal.aborted now then plain .timeout (text "Send aborted by the caller.")
  else if name = text "TimeoutError" ∨ name = text "AbortError" then
    plain .timeout (text "Graph sendMail timed out after " ++ natText o.timeoutMs ++ text " ms.")
  else plain .network (text "Graph sendMail could not reach the service (" ++ name ++ text ").")

/-- A token, or the error that is thrown, when `getToken` has settled. -/
def token (w : World) (now : ℕ) : TokenAnswer → Option Failure
  | .token => none
  | .none => some (refused now (text "Error"))
  | .error name => some (refused now name)
where
  refused (now : ℕ) (name : Text) : Failure :=
    if w.signal.aborted now then plain .timeout (text "Send aborted by the caller.")
    else plain .unauthenticated (text "Could not obtain a Graph token (" ++ name ++ text ").")

def requestId (w : World) (response : Response) : Text :=
  (response.headers.get (text "request-id")).getD w.clientRequestId

def failureOf (w : World) (response : Response) (retryAfterSeconds : Option Number) : Failure :=
  let providerCode := (providerErrorCode response).elim [] (text " " ++ ·)
  ⟨⟨codeForStatus response.status, text "Graph sendMail failed: HTTP " ++ natText response.status ++ providerCode ++
      text " (request " ++ requestId w response ++ text ")"⟩,
    some response.status, retryAfterSeconds, some (requestId w response)⟩

/-- A `Retry-After` that is absent, unparsable or within the cap. -/
def acceptable (o : Options) (retryAfterSeconds : Option Number) : Bool :=
  retryAfterSeconds.all (·.le o.retryAfterCap)

def backoffMs (attempt : ℕ) : ℕ := min MAX_BACKOFF_MS (BASE_BACKOFF_MS * 2 ^ (attempt - 1))

def delayMs (draw : Draw) (attempt : ℕ) : Option Number → Number
  | some seconds => seconds.times (.ofNat 1000)
  | none => (Number.finite draw.value draw.double).times (.ofNat (backoffMs attempt))

/-- What one attempt comes to: the end of the send, or another attempt while `more` holds. -/
inductive Round (more : Prop) where
  | over (acts : List Act) (outcome : Outcome)
  | again (acts : List Act) (now : ℕ) (left : more)

def retryAfterOf (w : World) (response : Response) (readAt : ℕ) : Option Number :=
  parseRetryAfter w.dateParse (response.headers.get (text "retry-after")) (w.clock readAt)

/-- Another request may follow this answer: Graph did not accept the message and its `Retry-After` is within the cap. -/
def NotAccepted (w : World) (o : Options) (response : Response) (readAt : ℕ) : Prop :=
  response.status ∈ RETRY_IN_PLACE ∧ acceptable o (retryAfterOf w response readAt) = true

instance (w : World) (o : Options) (response : Response) (readAt : ℕ) : Decidable (NotAccepted w o response readAt) :=
  inferInstanceAs (Decidable (_ ∧ _))

/-- The caller's `onThrottled`, where it is called. -/
def tells (w : World) (response : Response) : Option (ℕ → ℕ) := if response.status = 429 then w.onThrottled else none

def told (tell : Option (ℕ → ℕ)) (delay : Number) : List Act :=
  tell.elim [] fun _ => [.onThrottled ((Number.ofNat 1).max (delay.divNat 1000).ceil)]

/-- The wait before another attempt. -/
def retry (w : World) (o : Options) (attempt : ℕ) (made : Act) (response : Response) (read : ℕ)
    (left : (attempt : ℤ) < o.attempts) : Round ((attempt : ℤ) < o.attempts) :=
  let delay := delayMs (w.random attempt) attempt (retryAfterOf w response read)
  let acts := made :: told (tells w response) delay ++ [.wait delay]
  let asleep := read + (tells w response).elim 0 (· attempt)
  match w.signal.sleep asleep (w.sleepMs attempt) with
  | some woke => .again acts woke left
  | none => .over acts (.failed (transportError w o (asleep + w.sleepMs attempt) (text "AbortError")))

/-- After an answer other than 202. -/
def refused (w : World) (o : Options) (attempt : ℕ) (made : Act) (response : Response) (read : ℕ) :
    Round ((attempt : ℤ) < o.attempts) :=
  if left : (attempt : ℤ) < o.attempts then
    if NotAccepted w o response read then retry w o attempt made response read left
    else .over [made] (.failed (failureOf w response (retryAfterOf w response read)))
  else .over [made] (.failed (failureOf w response (retryAfterOf w response read)))

def settled (w : World) (o : Options) (attempt : ℕ) (now : ℕ) : ℕ := now + min (w.fetchMs attempt) o.timeoutMs

/-- What is made of an answer that came. -/
def answered (w : World) (o : Options) (attempt : ℕ) (now : ℕ) (response : Response) (read : ℕ) :
    Round ((attempt : ℤ) < o.attempts) :=
  if response.status = 202 then .over [.request now (.response response read)] (.sent (requestId w response))
  else refused w o attempt (.request now (.response response read)) response read

/-- `fetch` makes no request where its signal is aborted, and rejects where it is aborted or times out before the answer. -/
def request (w : World) (o : Options) (attempt : ℕ) (now : ℕ) : Round ((attempt : ℤ) < o.attempts) :=
  if w.signal.aborted now then .over [] (.failed (transportError w o now (text "AbortError")))
  else if w.signal.aborted (settled w o attempt now) then
    .over [.request now .unknown] (.failed (transportError w o (settled w o attempt now) (text "AbortError")))
  else if o.timeoutMs < w.fetchMs attempt then
    .over [.request now .unknown] (.failed (transportError w o (settled w o attempt now) (text "TimeoutError")))
  else
    match w.fetched attempt with
    | .error name => .over [.request now .unknown] (.failed (transportError w o (settled w o attempt now) name))
    | .response response => answered w o attempt now response (settled w o attempt now + w.bodyMs attempt)

def round (w : World) (o : Options) (attempt : ℕ) (now : ℕ) : Round ((attempt : ℤ) < o.attempts) :=
  let ready := now + w.tokenMs attempt
  match token w ready (w.token attempt) with
  | some failure => .over [] (.failed failure)
  | none => request w o attempt ready

structure Send where
  acts : List Act
  outcome : Outcome

def sendFrom (w : World) (o : Options) (attempt : ℕ) (now : ℕ) : Send :=
  match round w o attempt now with
  | .over acts outcome => ⟨acts, outcome⟩
  | .again acts now _ =>
    let rest := sendFrom w o (attempt + 1) now
    ⟨acts ++ rest.acts, rest.outcome⟩
termination_by (o.attempts - attempt).toNat

/-- `lower` stands for `String.prototype.toLowerCase`. -/
def assertFromIsMailbox (lower : Text → Text) (message : ValidatedMessage) (mailbox : Text) : Except Thrown Unit :=
  Refusal.refuseIf (message.from'.any fun sender => lower sender ≠ lower mailbox)
    (invalid (text "from must be the configured sender mailbox or omitted."))

def send (lower : Text → Text) (w : World) (o : Options) (mailbox : Text) (message : Json) : Send :=
  match validateMessage message with
  | .error thrown => ⟨[], .refused thrown⟩
  | .ok validated =>
    match assertFromIsMailbox lower validated mailbox with
    | .error thrown => ⟨[], .refused thrown⟩
    | .ok () => sendFrom w o 1 0

/-! ### Waits -/

/-- No wait of a send is longer: the larger of the two caps, in milliseconds, or none where `Retry-After` is not capped. -/
def waitLimit (o : Options) : Option ℚ :=
  match o.retryAfterCap.times (.ofNat 1000) with
  | .finite q _ => some (max q MAX_BACKOFF_MS)
  | .infinity false => none
  | _ => some MAX_BACKOFF_MS

def Within (limit : ℚ) (delay : Number) : Prop := ∃ q double, delay = .finite q double ∧ 0 ≤ q ∧ q ≤ limit

theorem max_nonneg {x y : Number} (le : ((Number.ofNat 0).max x).le y = true) :
    (Number.finite 0 isDouble_zero).le ((Number.ofNat 0).max x) = true := by
  have zero : Number.ofNat 0 = .finite 0 isDouble_zero := by simpa using Number.ofNat_eq (n := 0) (by norm_num)
  rw [zero] at le ⊢
  have number : x ≠ .nan := by
    rintro rfl
    cases le
  exact (Number.max_cases (by nofun) number).2.1

theorem parseRetryAfter_nonneg {dateParse : Text → Option ℤ} {header : Option Text} {now : ℤ} {seconds : Number}
    (parsed : parseRetryAfter dateParse header now = some seconds) {cap : Number} (accepted : seconds.le cap = true) :
    (Number.finite 0 isDouble_zero).le seconds = true := by
  cases header with
  | none => cases parsed
  | some header =>
    simp only [parseRetryAfter, Option.bind_some] at parsed
    split at parsed
    · rename_i digits
      obtain ⟨digits, nonempty⟩ := Bool.and_eq_true_iff.mp digits
      cases parsed
      rw [toNumber_digits (List.all_eq_true.mp digits) (of_decide_eq_true nonempty)]
      exact ofRat_nonneg (Nat.cast_nonneg _)
    · obtain ⟨date, _, rfl⟩ := Option.map_eq_some_iff.mp parsed
      exact max_nonneg accepted

theorem retryAfter_within {o : Options} {seconds : Number} (nonneg : (Number.finite 0 isDouble_zero).le seconds = true)
    (accepted : seconds.le o.retryAfterCap = true) {limit : ℚ} (limited : waitLimit o = some limit) :
    Within limit (seconds.times (.ofNat 1000)) := by
  have thousand := Number.ofNat_eq (n := 1000) (by norm_num)
  unfold waitLimit at limited
  rw [thousand] at limited ⊢
  have below := Number.times_nonneg nonneg (isDouble_nat (n := 1000) (by norm_num)) (by norm_num) rfl
  have above := Number.times_mono nonneg accepted (isDouble_nat (n := 1000) (by norm_num)) (by norm_num)
  generalize seconds.times _ = delay at below above ⊢
  generalize o.retryAfterCap.times _ = capMs at above limited
  cases delay with
  | nan => cases below
  | infinity negative =>
    cases negative with
    | true => cases below
    | false =>
      cases capMs with
      | nan => cases above
      | infinity other => cases other with
        | true => cases above
        | false => cases limited
      | finite r double => cases above
  | finite q double =>
    cases capMs with
    | nan => cases above
    | infinity other => cases other with
      | true => cases above
      | false => cases limited
    | finite r _ =>
      cases limited
      exact ⟨q, double, rfl, of_decide_eq_true below, le_max_of_le_left (of_decide_eq_true above)⟩

theorem backoffMs_le (attempt : ℕ) : backoffMs attempt ≤ MAX_BACKOFF_MS := min_le_left _ _

theorem waitLimit_backoff {o : Options} {limit : ℚ} (limited : waitLimit o = some limit) : (MAX_BACKOFF_MS : ℚ) ≤ limit := by
  unfold waitLimit at limited
  split at limited
  · cases limited
    exact le_max_right _ _
  · cases limited
  · cases limited
    exact le_rfl

/-- Jitter takes the backoff at most. -/
theorem backoff_within (draw : Draw) (attempt : ℕ) {limit : ℚ} (enough : (MAX_BACKOFF_MS : ℚ) ≤ limit) :
    Within limit ((Number.finite draw.value draw.double).times (.ofNat (backoffMs attempt))) := by
  have most := backoffMs_le attempt
  have small : backoffMs attempt < 2 ^ 53 := most.trans_lt (by decide)
  have product : |draw.value * (backoffMs attempt : ℚ)| ≤ (backoffMs attempt : ℕ) := by
    rw [abs_of_nonneg (mul_nonneg draw.nonneg (Nat.cast_nonneg _))]
    exact mul_le_of_le_one_left (Nat.cast_nonneg _) draw.below.le
  have nonneg : (Number.finite 0 isDouble_zero).le (ofRat (draw.value * (backoffMs attempt : ℚ))) = true :=
    ofRat_nonneg (mul_nonneg draw.nonneg (Nat.cast_nonneg _))
  obtain ⟨q, double, same, bounded⟩ := ofRat_within small product
  rw [Number.ofNat_eq small]
  refine ⟨q, double, same, ?_, ?_⟩
  · rw [same] at nonneg
    exact of_decide_eq_true nonneg
  · calc q ≤ |q| := le_abs_self q
      _ ≤ (backoffMs attempt : ℕ) := bounded
      _ ≤ (MAX_BACKOFF_MS : ℕ) := by exact_mod_cast most
      _ ≤ limit := enough

theorem delay_within {w : World} {o : Options} {response : Response} {read : ℕ} (draw : Draw) (attempt : ℕ)
    (accepted : acceptable o (retryAfterOf w response read) = true) {limit : ℚ} (limited : waitLimit o = some limit) :
    Within limit (delayMs draw attempt (retryAfterOf w response read)) := by
  cases parsed : retryAfterOf w response read with
  | none => exact backoff_within draw attempt (waitLimit_backoff limited)
  | some seconds =>
    rw [parsed] at accepted
    exact retryAfter_within (parseRetryAfter_nonneg parsed accepted) accepted limited

/-! ### What one attempt does -/

/-- The attempt made a request that Graph refused in a way that lets another follow, and waited for it. -/
def Retried (w : World) (o : Options) (acts : List Act) : Prop :=
  ∃ at' response readAt told delay, acts = .request at' (.response response readAt) :: told ++ [.wait delay] ∧
    (∀ a ∈ told, ∃ seconds, a = .onThrottled seconds) ∧ w.signal.aborted at' = false ∧ NotAccepted w o response readAt ∧
    ∀ limit, waitLimit o = some limit → Within limit delay

/-- How a send ends in its last attempt. -/
inductive Closing (w : World) (o : Options) (attempt : ℕ) : List Act → Outcome → Prop where
  | unsent (failure : Failure) : Closing w o attempt [] (.failed failure)
  | unknown {at' : ℕ} (alive : w.signal.aborted at' = false) (failure : Failure) :
      Closing w o attempt [.request at' .unknown] (.failed failure)
  | accepted {at' readAt : ℕ} {response : Response} (alive : w.signal.aborted at' = false) (status : response.status = 202)
      (id : Text) : Closing w o attempt [.request at' (.response response readAt)] (.sent id)
  | answered {at' readAt : ℕ} {response : Response} (alive : w.signal.aborted at' = false) (status : response.status ≠ 202)
      (failure : Failure) : Closing w o attempt [.request at' (.response response readAt)] (.failed failure)
  | interrupted {acts : List Act} (retried : Retried w o acts) (left : (attempt : ℤ) < o.attempts) (failure : Failure) :
      Closing w o attempt acts (.failed failure)

def Round.Meets (w : World) (o : Options) (attempt : ℕ) {more : Prop} : Round more → Prop
  | .over acts outcome => Closing w o attempt acts outcome
  | .again acts _ _ => Retried w o acts

theorem told_only {tell : Option (ℕ → ℕ)} {delay : Number} : ∀ a ∈ told tell delay, ∃ seconds, a = .onThrottled seconds := by
  intro a member
  cases tell with
  | none => cases member
  | some ms => exact ⟨_, List.mem_singleton.mp member⟩

theorem retry_meets {w : World} {o : Options} {attempt at' read : ℕ} {response : Response} (alive : w.signal.aborted at' = false)
    (notAccepted : NotAccepted w o response read) (left : (attempt : ℤ) < o.attempts) :
    (retry w o attempt (.request at' (.response response read)) response read left).Meets w o attempt := by
  let delay := delayMs (w.random attempt) attempt (retryAfterOf w response read)
  have retried : Retried w o (.request at' (.response response read) :: told (tells w response) delay ++ [.wait delay]) :=
    ⟨at', response, read, _, _, rfl, told_only, alive, notAccepted,
      fun limit limited => delay_within (w.random attempt) attempt notAccepted.2 limited⟩
  simp only [retry]
  split
  · exact retried
  · exact .interrupted retried left _

theorem refused_meets {w : World} {o : Options} {attempt at' read : ℕ} {response : Response}
    (alive : w.signal.aborted at' = false) (status : response.status ≠ 202) :
    (refused w o attempt (.request at' (.response response read)) response read).Meets w o attempt := by
  unfold refused
  split
  · rename_i left
    split
    · rename_i notAccepted
      exact retry_meets alive notAccepted left
    · exact .answered alive status _
  · exact .answered alive status _

theorem answered_meets {w : World} {o : Options} {attempt now read : ℕ} {response : Response}
    (alive : w.signal.aborted now = false) : (answered w o attempt now response read).Meets w o attempt := by
  unfold answered
  split
  · rename_i status
    exact .accepted alive status _
  · rename_i status
    exact refused_meets alive status

theorem request_meets (w : World) (o : Options) (attempt now : ℕ) : (request w o attempt now).Meets w o attempt := by
  unfold request
  split
  · exact .unsent _
  · rename_i alive
    have alive := Bool.eq_false_iff.mpr alive
    split
    · exact .unknown alive _
    · split
      · exact .unknown alive _
      · split
        · exact .unknown alive _
        · exact answered_meets alive

theorem round_meets (w : World) (o : Options) (attempt now : ℕ) : (round w o attempt now).Meets w o attempt := by
  simp only [round]
  split
  · exact .unsent _
  · exact request_meets w o attempt _

/-! ### The whole send -/

def Act.answer? : Act → Option Answer
  | .request _ answer => some answer
  | _ => none

def Act.wait? : Act → Option Number
  | .wait delay => some delay
  | _ => none

def Send.answers (s : Send) : List Answer := s.acts.filterMap Act.answer?

def Send.waits (s : Send) : List Number := s.acts.filterMap Act.wait?

/-- Graph accepted the message. -/
def Answer.accepted : Answer → Bool
  | .response answer _ => answer.status = 202
  | .unknown => false

def Outcome.isSent : Outcome → Bool
  | .sent _ => true
  | _ => false

def Answer.NotAccepted (w : World) (o : Options) : Answer → Prop
  | .response answer readAt => Graph.NotAccepted w o answer readAt
  | .unknown => False

theorem notAccepted_accepted {w : World} {o : Options} {answer : Answer} (refused : answer.NotAccepted w o) :
    answer.accepted = false := by
  cases answer with
  | unknown => rfl
  | response response readAt =>
    have listed := refused.1
    refine decide_eq_false fun status => ?_
    rw [status] at listed
    exact absurd listed (by decide)

theorem retried_parts {w : World} {o : Options} {acts : List Act} (retried : Retried w o acts) :
    ∃ answer delay, acts.filterMap Act.answer? = [answer] ∧ acts.filterMap Act.wait? = [delay] ∧ answer.NotAccepted w o ∧
      (∀ at' answer, .request at' answer ∈ acts → w.signal.aborted at' = false) ∧
      ∀ limit, waitLimit o = some limit → Within limit delay := by
  obtain ⟨at', response, readAt, told, delay, rfl, only, alive, notAccepted, within⟩ := retried
  have noAnswers : told.filterMap Act.answer? = [] := by
    refine List.filterMap_eq_nil_iff.mpr fun act member => ?_
    obtain ⟨_, rfl⟩ := only act member
    rfl
  have noWaits : told.filterMap Act.wait? = [] := by
    refine List.filterMap_eq_nil_iff.mpr fun act member => ?_
    obtain ⟨_, rfl⟩ := only act member
    rfl
  refine ⟨.response response readAt, delay, ?_, ?_, notAccepted, ?_, within⟩
  · simp [Act.answer?, noAnswers]
  · rw [List.cons_append, List.filterMap_cons_none rfl, List.filterMap_append, noWaits]
    rfl
  · intro sentAt answer member
    rcases List.mem_append.mp member with member | member
    · rcases List.mem_cons.mp member with same | member
      · cases same
        exact alive
      · obtain ⟨_, other⟩ := only _ member
        cases other
    · cases List.mem_singleton.mp member

/-- What holds of the rest of a send when this many attempts are left after the next one. -/
structure Sound (w : World) (o : Options) (left : ℕ) (s : Send) : Prop where
  few : s.answers.length ≤ left + 1
  earlier : ∀ answer ∈ s.answers.dropLast, answer.NotAccepted w o
  alive : ∀ at' answer, .request at' answer ∈ s.acts → w.signal.aborted at' = false
  sent : s.outcome.isSent = true ↔ ∃ answer ∈ s.answers.getLast?, answer.accepted = true
  rests : s.waits.length ≤ left
  within : ∀ limit, waitLimit o = some limit → ∀ delay ∈ s.waits, Within limit delay

theorem unsent_sound (w : World) (o : Options) (left : ℕ) {outcome : Outcome} (unsent : outcome.isSent = false) :
    Sound w o left ⟨[], outcome⟩ where
  few := Nat.zero_le _
  earlier := fun _ member => (List.not_mem_nil member).elim
  alive := fun _ _ member => (List.not_mem_nil member).elim
  sent := ⟨fun sent => absurd sent (Bool.eq_false_iff.mp unsent), nofun⟩
  rests := Nat.zero_le _
  within := fun _ _ _ member => (List.not_mem_nil member).elim

theorem one_request_sound {w : World} {o : Options} {left at' : ℕ} {answer : Answer} {outcome : Outcome}
    (alive : w.signal.aborted at' = false) (sent : outcome.isSent = true ↔ answer.accepted = true) :
    Sound w o left ⟨[.request at' answer], outcome⟩ where
  few := Nat.le_add_left 1 left
  earlier := by
    intro other member
    cases member
  alive := by
    intro sentAt other member
    cases List.mem_singleton.mp member
    exact alive
  sent := by
    rw [sent]
    constructor
    · exact fun accepted => ⟨answer, rfl, accepted⟩
    · rintro ⟨_, same, accepted⟩
      cases same
      exact accepted
  rests := Nat.zero_le left
  within := by
    intro limit limited delay member
    cases member

theorem closing_sound {w : World} {o : Options} {attempt : ℕ} {acts : List Act} {outcome : Outcome}
    (closing : Closing w o attempt acts outcome) : Sound w o (o.attempts - attempt).toNat ⟨acts, outcome⟩ := by
  cases closing with
  | unsent failure => exact unsent_sound w o _ rfl
  | unknown alive failure => exact one_request_sound alive ⟨nofun, nofun⟩
  | accepted alive status id => exact one_request_sound alive ⟨fun _ => decide_eq_true status, fun _ => rfl⟩
  | answered alive status failure =>
    exact one_request_sound alive ⟨nofun, fun accepted => absurd (of_decide_eq_true accepted) status⟩
  | interrupted retried left failure =>
    obtain ⟨answer, delay, answers, waits, notAccepted, alive, within⟩ := retried_parts retried
    have more : 1 ≤ (o.attempts - attempt).toNat := by omega
    refine ⟨?_, ?_, alive, ?_, ?_, ?_⟩
    · rw [Send.answers, answers]
      exact Nat.le_add_left 1 _
    · rw [Send.answers, answers]
      exact fun _ member => (List.not_mem_nil member).elim
    · rw [Send.answers, answers]
      refine ⟨nofun, ?_⟩
      rintro ⟨_, same, accepted⟩
      cases same
      exact absurd accepted (Bool.eq_false_iff.mp (notAccepted_accepted notAccepted))
    · rw [Send.waits, waits]
      exact more
    · intro limit limited other member
      rw [Send.waits, waits] at member
      cases List.mem_singleton.mp member
      exact within limit limited

theorem retried_sound {w : World} {o : Options} {left : ℕ} {acts : List Act} {rest : Send} (retried : Retried w o acts)
    (sound : Sound w o left rest) : Sound w o (left + 1) ⟨acts ++ rest.acts, rest.outcome⟩ := by
  obtain ⟨answer, delay, answers, waits, notAccepted, alive, within⟩ := retried_parts retried
  have allAnswers : Send.answers ⟨acts ++ rest.acts, rest.outcome⟩ = answer :: rest.answers := by
    rw [Send.answers, List.filterMap_append, answers]
    rfl
  have allWaits : Send.waits ⟨acts ++ rest.acts, rest.outcome⟩ = delay :: rest.waits := by
    rw [Send.waits, List.filterMap_append, waits]
    rfl
  refine ⟨?_, ?_, ?_, ?_, ?_, ?_⟩
  · rw [allAnswers]
    exact Nat.succ_le_succ sound.few
  · intro other member
    rw [allAnswers] at member
    cases none : rest.answers with
    | nil =>
      rw [none] at member
      cases member
    | cons first more =>
      rw [none, List.dropLast_cons_cons] at member
      rcases List.mem_cons.mp member with rfl | member
      · exact notAccepted
      · exact sound.earlier other (none ▸ member)
  · intro at' other member
    rcases List.mem_append.mp member with member | member
    · exact alive at' other member
    · exact sound.alive at' other member
  · rw [allAnswers, List.getLast?_cons]
    refine sound.sent.trans ?_
    cases last : rest.answers.getLast? with
    | none => simp [notAccepted_accepted notAccepted]
    | some final => simp
  · rw [allWaits]
    exact Nat.succ_le_succ sound.rests
  · intro limit limited other member
    rw [allWaits] at member
    rcases List.mem_cons.mp member with rfl | member
    · exact within limit limited
    · exact sound.within limit limited other member

theorem sendFrom_sound (w : World) (o : Options) (attempt now : ℕ) :
    Sound w o (o.attempts - attempt).toNat (sendFrom w o attempt now) := by
  induction attempt, now using sendFrom.induct w o with
  | case1 attempt now acts outcome ends =>
    have meets := round_meets w o attempt now
    rw [ends] at meets
    rw [sendFrom, ends]
    exact closing_sound meets
  | case2 attempt now acts later left again ih =>
    have meets := round_meets w o attempt now
    rw [again] at meets
    have one : (o.attempts - attempt).toNat = (o.attempts - (attempt + 1 : ℕ)).toNat + 1 := by omega
    rw [sendFrom, again, one]
    exact retried_sound meets ih

/-- A wait in milliseconds. -/
def msOf : Number → ℚ
  | .finite q _ => q
  | _ => 0

theorem total_within {waits : List Number} {limit : ℚ} (within : ∀ delay ∈ waits, Within limit delay) :
    (waits.map msOf).sum ≤ waits.length * limit := by
  induction waits with
  | nil => simp
  | cons delay rest ih =>
    obtain ⟨q, double, rfl, _, below⟩ := within delay List.mem_cons_self
    have others := ih fun delay member => within delay (List.mem_cons_of_mem _ member)
    simp only [List.map_cons, List.sum_cons, msOf, List.length_cons, Nat.cast_add, Nat.cast_one]
    linarith

theorem send_sound (lower : Text → Text) (w : World) (o : Options) (mailbox : Text) (message : Json) :
    Sound w o (o.attempts - 1).toNat (send lower w o mailbox message) := by
  unfold send
  split
  · exact unsent_sound w o _ rfl
  · split
    · exact unsent_sound w o _ rfl
    · exact sendFrom_sound w o 1 0

theorem accepted_once {w : World} {o : Options} {answers : List Answer}
    (earlier : ∀ answer ∈ answers.dropLast, answer.NotAccepted w o) : answers.countP Answer.accepted ≤ 1 := by
  rcases List.eq_nil_or_concat answers with rfl | ⟨before, last, rfl⟩
  · exact Nat.zero_le 1
  · rw [List.concat_eq_append, List.dropLast_concat] at earlier
    have none : before.countP Answer.accepted = 0 := by
      rw [List.countP_eq_zero]
      intro answer member
      rw [notAccepted_accepted (earlier answer member)]
      decide
    rw [List.concat_eq_append, List.countP_append, none, Nat.zero_add]
    exact List.countP_le_length

/-- Whatever tokens and answers come and whenever the caller aborts: a send ends after at most `max 1 maxAttempts` requests. It makes
another only after an answer that says the message was not accepted, and none once aborted. It returns exactly where its last
request was accepted, and the waits it asks for add up to at most the larger cap for each attempt but the first. -/
theorem send_at_most_once (lower : Text → Text) (w : World) (o : Options) (mailbox : Text) (message : Json) :
    ((send lower w o mailbox message).answers.length : ℤ) ≤ max 1 (o.maxAttempts.getD 3) ∧
    (∀ answer ∈ (send lower w o mailbox message).answers.dropLast, answer.NotAccepted w o) ∧
    (∀ at' answer, .request at' answer ∈ (send lower w o mailbox message).acts → w.signal.aborted at' = false) ∧
    (send lower w o mailbox message).answers.countP Answer.accepted ≤ 1 ∧
    ((send lower w o mailbox message).outcome.isSent = true ↔
      ∃ answer ∈ (send lower w o mailbox message).answers.getLast?, answer.accepted = true) ∧
    ∀ limit, waitLimit o = some limit →
      (∀ delay ∈ (send lower w o mailbox message).waits, Within limit delay) ∧
      ((send lower w o mailbox message).waits.map msOf).sum ≤ (max 1 (o.maxAttempts.getD 3) - 1 : ℤ) * limit := by
  have sound := send_sound lower w o mailbox message
  have one : 1 ≤ max 1 (o.maxAttempts.getD 3) := le_max_left _ _
  have left : ((o.attempts - 1).toNat : ℤ) = max 1 (o.maxAttempts.getD 3) - 1 :=
    Int.toNat_of_nonneg (by unfold Options.attempts; omega)
  refine ⟨?_, sound.earlier, sound.alive, accepted_once sound.earlier, sound.sent, ?_⟩
  · have few := sound.few
    omega
  · intro limit limited
    have within := sound.within limit limited
    have positive : 0 ≤ limit := (Nat.cast_nonneg _).trans (waitLimit_backoff limited)
    have rests : ((send lower w o mailbox message).waits.length : ℤ) ≤ max 1 (o.maxAttempts.getD 3) - 1 := by
      rw [← left]
      exact_mod_cast sound.rests
    refine ⟨within, ?_⟩
    calc ((send lower w o mailbox message).waits.map msOf).sum ≤ (send lower w o mailbox message).waits.length * limit :=
          total_within within
      _ = (((send lower w o mailbox message).waits.length : ℤ) : ℚ) * limit := by norm_cast
      _ ≤ ((max 1 (o.maxAttempts.getD 3) - 1 : ℤ) : ℚ) * limit := by
          gcongr

end Mail.Graph
