import AppPlatform.Lib.Postgres
import AppPlatform.Lib.Run
import AppPlatform.Lib.Text
import Mathlib.Logic.Function.Basic

/-!
# The authentication transaction

Calls of `withTxCapture(db).transaction`, each on a connection of its own, with the asynchronous tasks
of their callbacks. A callback may ignore that its statements fail, and settle before its tasks have sent
theirs; a transaction takes statements until it is committed or rolled back.
-/

namespace AuthTransaction
open Js Postgres

/-! ### Mail -/

inductive MailPurpose where
  | verifyEmail
  | resetPassword
  deriving DecidableEq

def MailPurpose.name : MailPurpose → Text
  | .verifyEmail => text "verify-email"
  | .resetPassword => text "reset-password"

def MailPurpose.category : MailPurpose → Text
  | .verifyEmail => text "auth.verify-email"
  | .resetPassword => text "auth.reset-password"

structure User where
  id : Text
  email : Text
  name : Text

structure AuthMailInput where
  user : User
  url : Text
  token : Text

structure RenderedEmail where
  subject : Text
  html : Text
  text' : Text

structure EmailMessage where
  to' : Text
  subject : Text
  html : Text
  text' : Text
  category : Text
  idempotencyKey : Text
  correlationId : Option Text
  deriving DecidableEq

def MAIL_QUEUE : Text := text "mail.send"

def AUTH_MAIL_PRIORITY : ℤ := 10

/-- A job as `send` inserts it, by the key its id is made of. -/
structure Job where
  queue : Text
  data : EmailMessage
  idempotencyKey : Text
  priority : ℤ
  deriving DecidableEq

structure AuthMail where
  sha256 : Text → Text
  templates : MailPurpose → AuthMailInput → RenderedEmail

def mailIdempotencyKey (sha256 : Text → Text) (purpose : MailPurpose) (userId token : Text) : Text :=
  purpose.name ++ text ":" ++ userId ++ text ":" ++ sha256 token

/-- A mail to send, with the answers of `allow` and of the request's context. -/
structure Mail where
  purpose : MailPurpose
  input : AuthMailInput
  allowed : Bool
  correlationId : Option Text

/-- The job that is sent for a mail, with `validCorrelationId` of its correlation id. -/
def AuthMail.job (auth : AuthMail) (mail : Mail) : Job :=
  let rendered := auth.templates mail.purpose mail.input
  let idempotencyKey := mailIdempotencyKey auth.sha256 mail.purpose mail.input.user.id mail.input.token
  ⟨MAIL_QUEUE, ⟨mail.input.user.email, rendered.subject, rendered.html, rendered.text', mail.purpose.category, idempotencyKey,
    mail.correlationId.filter (isCode 128)⟩, idempotencyKey, AUTH_MAIL_PRIORITY⟩

/-- The `send` that is called, with its `tx`. -/
def AuthMail.enqueue {τ : Type*} (auth : AuthMail) (currentAuthTransaction : Option τ) (mail : Mail) : Option (Option τ × Job) :=
  if !mail.allowed then none else some (currentAuthTransaction, auth.job mail)

/-! ### Calls -/

inductive Row (ρ : Type*) where
  | data (row : ρ)
  | job (job : Job)
  deriving DecidableEq

inductive Error where
  /-- What the callback throws. -/
  | thrown
  /-- `AuthTransactionAbortedError` -/
  | aborted
  /-- `BEGIN` or `COMMIT` fails. -/
  | database
  deriving DecidableEq

inductive Phase where
  | idle
  | running
  /-- The callback has returned. -/
  | returned
  | probed
  | failing (error : Error)
  | resolved
  | rejected (error : Error)
  deriving DecidableEq

/-- The transaction at the server. -/
inductive Outcome where
  | pending
  | committed
  | rolledBack
  deriving DecidableEq

/-- `late`, which no call reads: a statement was sent after the probe. -/
structure Call (ρ : Type*) where
  phase : Phase
  outcome : Outcome
  tx : Tx Text (Row ρ)
  late : Bool

structure State (τ ρ : Type*) where
  call : τ → Call ρ
  /-- What `AsyncLocalStorage` holds in each task. -/
  store : List (Option τ)
  /-- The rows with the transactions that wrote them; none for a statement of its own. -/
  committed : List (Option τ × Row ρ)

inductive Executor (τ : Type*) where
  | tx (t : τ)
  /-- `currentAuthTransaction()` in the task. -/
  | current (task : ℕ)

inductive Event (τ ρ : Type*) where
  | begin (t : τ) (fails : Bool)
  /-- A task starts another. -/
  | spawn (task : ℕ)
  | execute (db : Executor τ) (fails : Bool) (st : Statement Text (Row ρ))
  /-- `inserted`: no job has the id. -/
  | enqueue (task : ℕ) (mail : Mail) (fails inserted : Bool)
  | settle (t : τ) (throws : Bool)
  | probe (t : τ) (fails : Bool)
  | commit (t : τ) (fails : Bool)
  | rollback (t : τ)

section
variable {τ ρ : Type*} [DecidableEq τ]

def currentAuthTransaction (s : State τ ρ) (task : ℕ) : Option τ := s.store[task]?.join

def State.target (s : State τ ρ) : Executor τ → Option τ
  | .tx t => some t
  | .current task => currentAuthTransaction s task

def State.put (s : State τ ρ) (t : τ) (call : Call ρ) : State τ ρ := { s with call := Function.update s.call t call }

/-- `BEGIN` has succeeded, and neither `COMMIT` nor `ROLLBACK` has ended the transaction. -/
def Call.inTransaction (call : Call ρ) : Bool :=
  match call.phase with
  | .running | .returned | .probed => true
  | .failing _ => call.outcome = .pending
  | .idle | .resolved | .rejected _ => false

/-- A statement on the transaction of a call. After its end the connection is the pool's. -/
def State.execute (s : State τ ρ) (t : τ) (fails : Bool) (st : Statement Text (Row ρ)) : Option (State τ ρ) :=
  if (s.call t).inTransaction then
    some (s.put t { s.call t with tx := (s.call t).tx.execute fails st, late := (s.call t).late || (s.call t).phase = .probed })
  else none

/-- `COMMIT`, which rolls an aborted transaction back without an error. -/
def State.commit (s : State τ ρ) (t : τ) : State τ ρ :=
  if (s.call t).tx.aborted then s.put t { s.call t with phase := .resolved, outcome := .rolledBack }
  else
    { s.put t { s.call t with phase := .resolved, outcome := .committed } with
      committed := s.committed ++ (Savepoints.written (s.call t).tx.frames).map fun row => (some t, row) }

def step (auth : AuthMail) (s : State τ ρ) : Event τ ρ → Option (State τ ρ)
  | .begin t fails =>
    match (s.call t).phase with
    | .idle =>
      if fails then some (s.put t { s.call t with phase := .rejected .database })
      else some { s.put t ⟨.running, .pending, .start, false⟩ with store := s.store ++ [some t] }
    | _ => none
  | .spawn task => s.store[task]?.map fun context => { s with store := s.store ++ [context] }
  | .execute db fails st => (s.target db).bind fun t => s.execute t fails st
  | .enqueue task mail fails inserted =>
    match auth.enqueue (currentAuthTransaction s task) mail with
    | none => some s
    | some (some t, job) => s.execute t fails (.query (if inserted then [.job job] else []))
    | some (none, job) => some (if !fails && inserted then { s with committed := s.committed ++ [(none, .job job)] } else s)
  | .settle t throws =>
    match (s.call t).phase with
    | .running => some (s.put t { s.call t with phase := if throws then .failing .thrown else .returned })
    | _ => none
  | .probe t fails =>
    match (s.call t).phase with
    | .returned =>
      let tx := (s.call t).tx.execute fails (.query [])
      some (s.put t { s.call t with tx, phase := if tx.aborted then .failing .aborted else .probed })
    | _ => none
  | .commit t fails =>
    match (s.call t).phase with
    | .probed =>
      if fails then some (s.put t { s.call t with phase := .failing .database, outcome := .rolledBack }) else some (s.commit t)
    | _ => none
  | .rollback t =>
    match (s.call t).phase with
    | .failing error => some (s.put t { s.call t with phase := .rejected error, outcome := .rolledBack })
    | _ => none

/-- One task, outside any transaction. -/
def initial : State τ ρ := ⟨fun _ => ⟨.idle, .pending, .start, false⟩, [none], []⟩

/-- The rows the call's transaction committed. -/
def State.writes (s : State τ ρ) (t : τ) : List (Row ρ) :=
  (s.committed.filter fun entry => entry.1 = some t).map Prod.snd

end

end AuthTransaction
