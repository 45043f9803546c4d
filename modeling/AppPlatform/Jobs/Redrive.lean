import AppPlatform.Lib.Json
import AppPlatform.Lib.Run
import AppPlatform.Lib.Transactions

/-!
# Redriving dead letters

The job table with every transaction that works on it: moves of dead-letter copies back to their
origin queue, sends of an application in transactions of its own, and the workers' fetches,
completions and failures. A statement that would wait for another transaction's lock is not taken.
-/

namespace Redrive
open Js Transactions

/-- `pgboss.job_state`, in its order. -/
inductive JobState where
  | created
  | retry
  | active
  | completed
  | cancelled
  | failed
  deriving DecidableEq

/-- `state < 'active'`. -/
def JobState.waiting : JobState → Bool
  | .created | .retry => true
  | _ => false

/-- The queue and the id of a job. -/
abbrev Key := Text × Text

structure Row where
  state : JobState
  data : Json
  priority : ℤ
  sourceName : Option Text
  sourceId : Option Text
  keepUntil : ℕ

/-- The job a dead-letter copy was made of. -/
def Row.origin (row : Row) : Option Key :=
  match row.sourceName, row.sourceId with
  | some name, some id => if name = [] ∨ id = [] then none else some (name, id)
  | _, _ => none

/-- A rule answers or throws. -/
abbrev Rule := Json → Option Bool

structure Config (τ : Type*) where
  /-- Per process: no definition of the queue, a definition without a rule, or one with a rule. -/
  policyFor : τ → Text → Option (Option Rule)
  deadLetter : Text → Option Text
  retention : Text → ℕ

def allowed (policy : Option Rule) (data : Json) : Bool :=
  match policy with
  | none => true
  | some rule => rule data = some true

/-- How a move ends that leaves the copy. -/
inductive Outcome where
  | taken
  | left
  | rejected
  | threw

inductive Phase where
  | idle
  | begun (copy : Key)
  | held (copy : Key) (row : Row)
  | cleared (copy : Key) (row : Row) (origin : Key)
  | deleted (copy : Key) (row : Row) (origin : Key)
  | sent (copy : Key) (row : Row) (origin : Key)
  | removed (copy : Key) (row : Row) (origin : Key)
  | moved (copy : Key) (row : Row) (origin : Key)
  | closing (outcome : Outcome)
  | ended (outcome : Outcome)
  /-- A transaction of the application. -/
  | inTx
  | outTx

structure State (τ : Type*) where
  db : Db Key Row τ
  phase : τ → Phase
  /-- `now()` of each transaction. -/
  started : τ → ℕ
  queues : Text → Bool
  now : ℕ
  /-- The keys a job was ever inserted under. -/
  used : Key → Bool

inductive Event (τ : Type*) where
  | begin (r : τ) (copy : Key)
  | lock (r : τ)
  | check (r : τ)
  | delete (r : τ)
  | send (r : τ)
  | remove (r : τ)
  | commit (r : τ)
  | rollback (r : τ)
  | crash (r : τ)
  | openTx (a : τ)
  | enqueue (a : τ) (k : Key) (data : Json) (priority : ℤ)
  | closeTx (a : τ) (commit : Bool)
  | fetch (k : Key)
  | complete (k : Key) (keep : Bool)
  | retry (k : Key)
  | fail (k : Key) (copyId : Text)
  | sweep (k : Key)
  | queue (name : Text) (present : Bool)
  | tick (ms : ℕ)

/-- The redrive that takes the step. -/
def Event.redrive? {τ : Type*} : Event τ → Option τ
  | .begin r _ | .lock r | .check r | .delete r | .send r | .remove r | .commit r | .rollback r | .crash r => some r
  | _ => none

variable {τ : Type*} [DecidableEq τ]

def State.become (s : State τ) (r : τ) (p : Phase) : State τ := { s with phase := Function.update s.phase r p }

def State.write (s : State τ) (db : Db Key Row τ) : State τ := { s with db }

def State.use (s : State τ) (k : Key) : State τ := { s with used := Function.update s.used k true }

/-- A job as `send` inserts it. -/
def Config.fresh (c : Config τ) (now : ℕ) (queue : Text) (data : Json) (priority : ℤ) : Row :=
  ⟨.created, data, priority, none, none, now + c.retention queue⟩

/-- The copy of a failed job in its dead-letter queue. -/
def Config.copyOf (c : Config τ) (now : ℕ) (k : Key) (dlq : Text) (row : Row) : Row :=
  ⟨.created, row.data, row.priority, some k.1, some k.2, now + c.retention dlq⟩

/-- `FOR UPDATE SKIP LOCKED` with the conditions on the copy. -/
def lockCopy (s : State τ) (r : τ) (copy : Key) : Option Row :=
  match s.db.owner copy, s.db.rows copy with
  | none, some row => if row.state.waiting ∧ s.started r < row.keepUntil then some row else none
  | _, _ => none

/-- The row may be replaced: it is a failed job. -/
def isFailed : Option Row → Bool
  | some row => row.state = .failed
  | none => false

/-- Another transaction has an uncommitted write of the row, which an insert would wait for. -/
def pending (d : Db Key Row τ) (t : τ) (k : Key) : Bool :=
  match d.owner k with
  | some u => u ≠ t && (d.writes u k).isSome
  | none => false

/-- What the workers do to a row nobody has locked. -/
def State.change (s : State τ) (k : Key) (before : JobState → Bool) (after : Row → Option Row) : Option (State τ) :=
  match s.db.owner k, s.db.rows k with
  | none, some row => if before row.state then some (s.write (s.db.put k (after row))) else none
  | _, _ => none

/-- A job fails for good; its copy goes to the dead-letter queue under a new random id. -/
def State.bury (c : Config τ) (s : State τ) (k : Key) (copyId : Text) (row : Row) : Option (State τ) :=
  match c.deadLetter k.1 with
  | none => some s
  | some dlq =>
    if s.used (dlq, copyId) then none
    else some ((s.write (s.db.put (dlq, copyId) (some (c.copyOf s.now k dlq row)))).use (dlq, copyId))

def step (c : Config τ) (s : State τ) : Event τ → Option (State τ)
  | .begin r copy =>
    match s.phase r with
    | .idle => some { s.become r (.begun copy) with started := Function.update s.started r s.now }
    | _ => none
  | .lock r =>
    match s.phase r with
    | .begun copy =>
      match lockCopy s r copy with
      | some row => some ((s.write (s.db.lock r copy)).become r (.held copy row))
      | none => some (s.become r (.closing .taken))
    | _ => none
  | .check r =>
    match s.phase r with
    | .held copy row =>
      match row.origin with
      | none => some (s.become r (.closing .left))
      | some origin =>
        if !s.queues origin.1 then some (s.become r (.closing .left))
        else match c.policyFor r origin.1 with
          | none => some (s.become r (.closing .rejected))
          | some policy =>
            if allowed policy row.data then some (s.become r (.cleared copy row origin))
            else some (s.become r (.closing .rejected))
    | _ => none
  | .delete r =>
    match s.phase r with
    | .cleared copy row origin =>
      if isFailed (s.db.view r origin) then
        if s.db.available r origin then some ((s.write (s.db.write r origin none)).become r (.deleted copy row origin))
        else none
      else some (s.become r (.deleted copy row origin))
    | _ => none
  | .send r =>
    match s.phase r with
    | .deleted copy row origin =>
      if pending s.db r origin then none
      else match s.db.view r origin with
        | some _ => some (s.become r (.closing .left))
        | none =>
          if s.db.available r origin then
            some (((s.write (s.db.write r origin (some (c.fresh (s.started r) origin.1 row.data row.priority)))).use
              origin).become r (.sent copy row origin))
          else none
    | _ => none
  | .remove r =>
    match s.phase r with
    | .sent copy row origin => some ((s.write (s.db.write r copy none)).become r (.removed copy row origin))
    | _ => none
  | .commit r =>
    match s.phase r with
    | .removed copy row origin => some ((s.write (s.db.commit r)).become r (.moved copy row origin))
    | _ => none
  | .rollback r =>
    match s.phase r with
    | .closing outcome => some ((s.write (s.db.abort r)).become r (.ended outcome))
    | _ => none
  | .crash r =>
    match s.phase r with
    | .begun _ | .held _ _ | .cleared _ _ _ | .deleted _ _ _ | .sent _ _ _ | .removed _ _ _ | .closing _ =>
      some ((s.write (s.db.abort r)).become r (.ended .threw))
    | _ => none
  | .openTx a =>
    match s.phase a with
    | .idle => some { s.become a .inTx with started := Function.update s.started a s.now }
    | _ => none
  | .enqueue a k data priority =>
    match s.phase a with
    | .inTx =>
      if pending s.db a k then none
      else match s.db.view a k with
        | some _ => some s
        | none =>
          if s.db.available a k then
            some ((s.write (s.db.write a k (some (c.fresh (s.started a) k.1 data priority)))).use k)
          else none
    | _ => none
  | .closeTx a commit =>
    match s.phase a with
    | .inTx => some ((s.write (if commit then s.db.commit a else s.db.abort a)).become a .outTx)
    | _ => none
  | .fetch k => s.change k JobState.waiting fun row => some { row with state := .active }
  | .complete k keep => s.change k (· = .active) fun row => if keep then some { row with state := .completed } else none
  | .retry k => s.change k (· = .active) fun row => some { row with state := .retry }
  | .fail k copyId =>
    match s.db.rows k, s.change k (· = .active) fun row => some { row with state := .failed } with
    | some row, some t => t.bury c k copyId row
    | _, _ => none
  | .sweep k =>
    match s.db.owner k, s.db.rows k with
    | none, some row => if row.keepUntil ≤ s.now then some (s.write (s.db.put k none)) else none
    | _, _ => none
  | .queue name present => some { s with queues := Function.update s.queues name present }
  | .tick ms => some { s with now := s.now + ms }

/-- Any table, with nothing in progress. -/
structure Start (s : State τ) : Prop where
  idle : ∀ r, s.phase r = .idle
  unlocked : ∀ k, s.db.owner k = none
  unwritten : ∀ r k, s.db.writes r k = none
  used : ∀ k, s.db.rows k ≠ none → s.used k = true

end Redrive
