import AppPlatform.Jobs.Batch
import AppPlatform.Mail.Message

/-!
# A job with an invalid payload

The `mail.send` handler validates the data of a job before anything else. `payload_contract_iff` says for
which data a refusal is permanent: `to`, `cc` and `bcc` are read with `map`, and data where one of them
is neither a string nor a list fails with a `TypeError` that the queue retries.
-/

namespace Mail
open Js Refusal
open Jobs (Handled Raised BatchJob)

inductive Service where
  | ledger
  | bucket
  | provider
  deriving DecidableEq

/-- What a run does besides returning or throwing. -/
inductive Effect where
  /-- `telemetry.failed` -/
  | failed (category code : Text)
  /-- `logger.error` -/
  | logged (category message : Text)
  | called (service : Service)
  deriving DecidableEq

def categoryOf (data : Json) : Text :=
  match data.field? (text "category") with
  | some (.str category) => if category.length ≤ 64 then category else text "unknown"
  | _ => text "unknown"

inductive JobError where
  | permanent (message : Text)
  | other (error : Thrown)

def toJobError : Thrown → JobError
  | .mailSendError e =>
    if e.retryable then .other (.mailSendError e)
    else .permanent (text "mail.send failed permanently (" ++ e.code.text ++ text "): " ++ e.message)
  | .typeError message => .other (.typeError message)

/-- The error as the queue reads it. -/
def JobError.raised : JobError → Raised
  | .permanent message => .error (text "PermanentJobError") message true
  | .other (.mailSendError e) => .error (text "MailSendError") e.message false
  | .other (.typeError message) => .error (text "TypeError") message false

/-- `run`; `deliver` is what follows the validation. -/
def run (deliver : ValidatedMessage → List Effect × Handled) (data : Json) : List Effect × Handled :=
  match validateMessage data with
  | .ok message => deliver message
  | .error thrown =>
    ([.failed (categoryOf data) (text "invalid_message"),
      .logged (categoryOf data) (text "mail.send job has an invalid payload")], .raised (toJobError thrown).raised)

/-- A refusal is permanent, and it comes before any call. -/
def RefusedForGood (data : Json) (thrown : Thrown) : Prop :=
  (∃ reason, thrown = invalid reason) ∧
  ∀ deliver, (∀ service, .called service ∉ (run deliver data).1) ∧
    (∃ message, (run deliver data).2 = .raised (JobError.permanent message).raised) ∧
    ∀ job : BatchJob, job.handled = (run deliver data).2 → job.Readable ∧ job.status = .deadletter

/-- Data and message are accepted again after a round trip, as the same message. -/
def AcceptedAgain (data : Json) (message : ValidatedMessage) : Prop :=
  (parse (stringify data)).map validateMessage = some (.ok message) ∧
  (parse (stringify message.json)).map validateMessage = some (.ok message)

def PayloadContract (data : Json) : Prop :=
  (∀ thrown, validateMessage data = .error thrown → RefusedForGood data thrown) ∧
  (∀ message, validateMessage data = .ok message → AcceptedAgain data message)

theorem permanent_readable (message : Text) : (JobError.permanent message).raised.Readable := by
  refine ⟨.inr ⟨rfl, rfl, rfl⟩, fun _ => rfl, fun _ => rfl⟩

theorem refused_for_good {data : Json} {reason : Text} (refused : validateMessage data = .error (invalid reason)) :
    RefusedForGood data (invalid reason) := by
  refine ⟨⟨reason, rfl⟩, ?_⟩
  intro deliver
  have permanent : (run deliver data).2 = .raised (toJobError (invalid reason)).raised := by rw [run, refused]
  refine ⟨?_, ⟨_, permanent⟩, ?_⟩
  · rw [run, refused]
    simp
  · intro job handled
    rw [permanent] at handled
    constructor
    · refine ⟨?_, fun returned => ?_⟩
      · intro error same
        rw [handled] at same
        cases same
        exact permanent_readable _
      · rw [handled] at returned
        cases returned
    · rw [BatchJob.status, handled]
      rfl

theorem accepted_again {data : Json} (canonical : data.Canonical) {message : ValidatedMessage}
    (accepted : validateMessage data = .ok message) : AcceptedAgain data message := by
  obtain ⟨again, canonical'⟩ := validateMessage_again canonical accepted
  constructor
  · rw [parse_stringify, Option.map_some, validateMessage_normalForm canonical accepted]
  · rw [parse_stringify, Option.map_some, validateMessage_normalForm canonical' again]

/-- Exactly the data whose recipients can be read are refused for good or accepted for good. -/
theorem payload_contract_iff {raw : Text} {data : Json} (received : parse raw = some data) :
    PayloadContract data ↔ RecipientsListed data := by
  rw [← validateMessage_invalid_iff]
  constructor
  · intro ⟨refused, _⟩ thrown failed
    exact (refused thrown failed).1
  · intro only
    refine ⟨?_, fun message accepted => accepted_again (parse_canonical received) accepted⟩
    intro thrown failed
    obtain ⟨reason, same⟩ := only thrown failed
    rw [same] at failed ⊢
    exact refused_for_good failed

def toNobody : Json := .obj [(text "to", .str (text "nobody"))]

theorem payload_contract_iff_nobody :
    parse (stringify toNobody) = some toNobody ∧ (PayloadContract toNobody ↔ RecipientsListed toNobody) :=
  have received : parse (stringify toNobody) = some toNobody := parse_stringify toNobody
  ⟨received, payload_contract_iff received⟩

def toNull : Json := .obj [(text "to", .null)]

/-- `to: null` is refused with a `TypeError`, and the job is retried. -/
theorem null_recipient_retried : parse (stringify toNull) = some toNull ∧
    (∀ deliver, BatchJob.status ⟨text "a", 0, (run deliver toNull).2, .answered none⟩ = .failed) ∧ ¬PayloadContract toNull := by
  refine ⟨parse_stringify toNull, fun _ => rfl, ?_⟩
  intro ⟨refused, _⟩
  obtain ⟨⟨reason, same⟩, _⟩ := refused _ rfl
  cases same

end Mail
