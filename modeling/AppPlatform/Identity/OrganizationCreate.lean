import AppPlatform.Identity.AuthTransaction
import Mathlib.Logic.Relation

/-!
# Creating an organization

Calls of the library at the same time, some made inside others. The adapter is one proxy for all of them: it forwards each call to
the transaction of the asynchronous context, or to the pool. What the library does between the calls is left to the events.
-/

namespace OrganizationCreate
open Js Postgres
variable {κ : Type*}

def CREATE_PATH : Text := text "/organization/create"

/-- What the wrapper reads of a request; the last two say that the header is there. -/
structure Request where
  method : Text
  pathname : Text
  cookie : Bool
  authorization : Bool

inductive Entry where
  /-- Through `auth.handler`. -/
  | http (request : Request)
  /-- Through `auth.api`. -/
  | api (createOrganization : Bool)

def Request.creates (basePath : Text) (request : Request) : Bool :=
  request.method = text "POST" && request.pathname = basePath ++ CREATE_PATH

def Entry.creates (basePath : Text) : Entry → Bool
  | .http request => request.creates basePath
  | .api createOrganization => createOrganization

/-- What a call of the library settles with. -/
inductive Answer where
  | value
  | response (status : ℕ)
  | threw
  deriving DecidableEq

def Answer.failed : Answer → Bool
  | .value => false
  | .response status => 400 ≤ status
  | .threw => true

/-- The callback of the transaction throws: what the call threw, or `RollbackWith`. -/
def Entry.throws : Entry → Answer → Bool
  | .http _, answer => answer.failed
  | .api _, answer => answer = .threw

inductive Lookup where
  | session
  | null
  | threw

def Lookup.hasSession : Lookup → Bool
  | .session => true
  | .null | .threw => false

inductive Phase where
  | idle
  /-- In `hasSession`. -/
  | looking
  /-- `adapter.transaction` is called. -/
  | opening
  | running
  /-- The callback of its transaction has settled. -/
  | closing (answer : Answer)
  | done (answer : Answer)

inductive Kind where
  | organization
  | owner
  deriving DecidableEq

/-- One of the two rows of a create. -/
structure Written (κ : Type*) where
  create : κ
  kind : Kind
  deriving DecidableEq

/-- The calls, and the call inside which each is made, if any. -/
structure Config (κ : Type*) where
  basePath : Text
  entry : κ → Entry
  inside : κ → Option κ

def Config.creates (c : Config κ) (x : κ) : Bool := (c.entry x).creates c.basePath

/-- `x` is `y`, or is made inside it at any depth. -/
def Config.Within (c : Config κ) (y x : κ) : Prop := Relation.ReflTransGen (fun x d => c.inside x = some d) x y

/-- A transaction is named after the call that opens it. -/
structure State (κ : Type*) where
  db : AuthTransaction.State κ (Written κ)
  phase : κ → Phase
  /-- What `current.getStore()` is in each call. -/
  current : κ → Option κ
  /-- The rows whose statements succeeded. -/
  wrote : κ → Kind → Bool
  /-- The adapter calls, each with the transaction that served it. -/
  served : List (κ × Option κ)

inductive Closing where
  | probe (fails : Bool)
  | commit (fails : Bool)
  | rollback

def Closing.event (x : κ) : Closing → AuthTransaction.Event κ (Written κ)
  | .probe fails => .probe x fails
  | .commit fails => .commit x fails
  | .rollback => .rollback x

inductive Event (κ : Type*) where
  | enter (x : κ)
  | looked (x : κ) (lookup : Lookup)
  | begin (x : κ) (fails : Bool)
  /-- A call of the adapter, which writes one of the two rows or does something else. -/
  | call (x : κ) (kind : Option Kind) (fails : Bool)
  | answer (x : κ) (answer : Answer)
  | close (x : κ) (closing : Closing)
  | leave (x : κ)

def initial : State κ := ⟨AuthTransaction.initial, fun _ => .idle, fun _ => none, fun _ _ => false, []⟩

/-- The asynchronous context in which a call is made. -/
def Config.context (c : Config κ) (s : State κ) (x : κ) : Option (Option κ) :=
  match c.inside x with
  | none => some none
  | some d =>
    match s.phase d with
    | .running => some (s.current d)
    | _ => none

/-- Already inside one: join it, never open a second. -/
def atomically (current : Option κ) : Phase := if current.isSome then .running else .opening

def Config.start (c : Config κ) (x : κ) (current : Option κ) : Phase :=
  match c.entry x with
  | .api createOrganization => if createOrganization then atomically current else .running
  | .http request =>
    if !request.creates c.basePath then .running else if !(request.cookie || request.authorization) then .running else .looking

/-- What the caller gets when the transaction has failed with this error. -/
def rethrown (answer : Answer) : AuthTransaction.Error → Answer
  | .thrown => answer
  | .aborted | .database => .threw

section
variable [DecidableEq κ]

def State.become (s : State κ) (x : κ) (p : Phase) : State κ := { s with phase := Function.update s.phase x p }

def State.run (s : State κ) (x : κ) (current : Option κ) : State κ := { s with current := Function.update s.current x current }

def State.record (s : State κ) (x : κ) (kind : Option Kind) (fails : Bool) : State κ :=
  { s with
    wrote := match kind with
      | some kind => if fails then s.wrote else Function.update s.wrote x (Function.update (s.wrote x) kind true)
      | none => s.wrote
    served := s.served ++ [(x, s.current x)] }

def State.withDb (s : State κ) (db : AuthTransaction.State κ (Written κ)) : State κ := { s with db }

def rows (x : κ) (kind : Option Kind) : List (AuthTransaction.Row (Written κ)) := kind.toList.map fun kind => .data ⟨x, kind⟩

def autocommit (db : AuthTransaction.State κ (Written κ)) (x : κ) (kind : Option Kind) (fails : Bool) :
    AuthTransaction.State κ (Written κ) :=
  if fails then db else { db with committed := db.committed ++ (rows x kind).map fun row => (none, row) }

/-- The proxy: the call goes to the transaction of the context, while its callback runs, or to the real adapter. -/
def State.call (auth : AuthTransaction.AuthMail) (s : State κ) (x : κ) (kind : Option Kind) (fails : Bool) : Option (State κ) :=
  match s.current x with
  | some t =>
    if (s.db.call t).phase = .running then
      (AuthTransaction.step auth s.db (.execute (.tx t) fails (.query (rows x kind)))).map fun db =>
        (s.withDb db).record x kind ((s.db.call t).tx.aborted || fails)
    else none
  | none => some ((s.withDb (autocommit s.db x kind fails)).record x kind fails)

def step (auth : AuthTransaction.AuthMail) (c : Config κ) (s : State κ) : Event κ → Option (State κ)
  | .enter x =>
    match s.phase x with
    | .idle => (c.context s x).map fun current => (s.run x current).become x (c.start x current)
    | _ => none
  | .looked x lookup =>
    match s.phase x with
    | .looking => some (s.become x (if lookup.hasSession then atomically (s.current x) else .running))
    | _ => none
  | .begin x fails =>
    match s.phase x with
    | .opening =>
      (AuthTransaction.step auth s.db (.begin x fails)).map fun db =>
        if fails then (s.withDb db).become x (.done .threw) else ((s.withDb db).run x (some x)).become x .running
    | _ => none
  | .call x kind fails =>
    match s.phase x, kind with
    | .running, kind => s.call auth x kind fails
    | .looking, none => s.call auth x none fails
    | _, _ => none
  | .answer x answer =>
    match s.phase x with
    | .running =>
      if s.current x = some x then
        (AuthTransaction.step auth s.db (.settle x ((c.entry x).throws answer))).map fun db => (s.withDb db).become x (.closing answer)
      else some (s.become x (.done answer))
    | _ => none
  | .close x closing =>
    match s.phase x with
    | .closing _ => (AuthTransaction.step auth s.db (closing.event x)).map s.withDb
    | _ => none
  | .leave x =>
    match s.phase x, (s.db.call x).phase with
    | .closing answer, .resolved => some (s.become x (.done answer))
    | .closing answer, .rejected error => some (s.become x (.done (rethrown answer error)))
    | _, _ => none

end

/-- What the library does in a create: only creates write the two rows, the organization first, and a create that wrote the
organization and does not fail wrote the owner. -/
def Contract (c : Config κ) (s : State κ) : Event κ → Prop
  | .call x (some kind) _ => c.creates x = true ∧ (kind = .owner → s.wrote x .organization = true)
  | .answer x answer => answer.failed = false → s.wrote x .organization = true → s.wrote x .owner = true
  | _ => True

/-- An organization is written in a transaction only, and no callback of a transaction that can commit returns when a create in it
has written its organization and not succeeded. -/
def Covered (c : Config κ) (s : State κ) : Event κ → Prop
  | .call x (some .organization) fails => fails = false → s.current x ≠ none
  | .answer x answer => s.current x = some x → (c.entry x).throws answer = false → (s.db.call x).tx.aborted = false →
      (s.wrote x .organization = true → answer.failed = false) ∧
      ∀ d, d ≠ x → c.Within x d → s.wrote d .organization = true → ∃ inner, s.phase d = .done inner ∧ inner.failed = false
  | _ => True

/-- The row is there for everyone. -/
def Committed (s : State κ) (x : κ) (kind : Kind) : Prop := ∃ t, (t, .data ⟨x, kind⟩) ∈ s.db.committed

end OrganizationCreate
