import AppPlatform.Lib.Run
import AppPlatform.Lib.Savepoints
import Mathlib.Logic.Function.Basic

/-!
# `jobs.once`

Deliveries that call `once` with one key, each on a connection of its own. The code of a transaction
runs one statement after another; a nested transaction is a savepoint. A call for another key is a
savepoint to this one.
-/

namespace Once
open Runs Savepoints

/-- What is written for the key. `resolved` records the execution that ran to its end and what it wrote. -/
inductive Item (ω : Type*) where
  | marker
  | write (x : ℕ) (w : ω)
  | resolved (x : ℕ) (ws : List ω)
  deriving DecidableEq

inductive Scope where
  /-- The caller's transaction. -/
  | caller
  /-- The transaction that `withTransaction` opened. -/
  | opened
  | savepoint
  /-- The savepoint of a call that has not inserted its marker. -/
  | calling
  /-- The savepoint of a call whose effect runs. -/
  | running (x : ℕ)
  deriving DecidableEq

/-- The code of the scope is the caller's or the effect's, not that of `once`. -/
def Scope.user : Scope → Bool
  | .caller | .savepoint | .running _ => true
  | .opened | .calling => false

variable {τ ω : Type*}

abbrev Stack (ω : Type*) := List (Frame Scope (Item ω))

/-- The execution whose code runs. -/
def executing : Stack ω → Option ℕ
  | [] => none
  | f :: rest =>
    match f.scope with
    | .running x => some x
    | _ => executing rest

structure Transaction (ω : Type*) where
  frames : Stack ω
  /-- A statement failed: only the end of the scope is accepted. -/
  aborted : Bool

def Transaction.closed : Transaction ω := ⟨[], false⟩

structure State (τ ω : Type*) where
  transactions : τ → Transaction ω
  /-- What was committed since the marker was last purged. -/
  committed : List (Item ω)
  /-- The executions so far. -/
  executions : ℕ

/-- What `once` is called on: the root, which opens the transaction `t`, or an open transaction. -/
inductive Executor (τ : Type*) where
  | database (t : τ)
  | transaction (t : τ)

inductive Event (τ ω : Type*) where
  /-- The caller opens a transaction. -/
  | start (t : τ)
  | once (db : Executor τ)
  /-- The caller or the effect opens a nested transaction. -/
  | nested (t : τ)
  | insert (t : τ)
  | write (t : τ) (w : ω)
  /-- A statement fails. -/
  | fail (t : τ)
  /-- The code of the innermost scope returns. -/
  | resolve (t : τ)
  /-- The code of the innermost scope throws. -/
  | reject (t : τ)
  /-- The connection is lost. -/
  | lose (t : τ)
  /-- The marker is past its retention and is deleted. -/
  | purge

section
variable [DecidableEq τ]

def State.put (s : State τ ω) (t : τ) (tx : Transaction ω) : State τ ω :=
  { s with transactions := Function.update s.transactions t tx }

def State.putFrames (s : State τ ω) (t : τ) (frames : Stack ω) : State τ ω := s.put t ⟨frames, false⟩

/-- `typeof db.rollback === 'function'`. -/
def isTransaction : Executor τ → Bool
  | .database _ => false
  | .transaction _ => true

def Executor.connection : Executor τ → τ
  | .database t => t
  | .transaction t => t

def withTransaction (s : State τ ω) (db : Executor τ) : Option (Stack ω) :=
  let tx := s.transactions db.connection
  if isTransaction db then
    match tx.frames with
    | f :: _ => if f.scope.user && !tx.aborted then some tx.frames else none
    | [] => none
  else if tx.frames.isEmpty then some [⟨.opened, []⟩]
  else none

/-- The scope ends with an error: `ROLLBACK` of the outermost, `ROLLBACK TO SAVEPOINT` of another, and
the error reaches the code below. -/
def reject (s : State τ ω) (t : τ) (frames : Stack ω) : Option (State τ ω) :=
  match rollbackTo frames with
  | [] => some (s.put t .closed)
  | f :: rest => some (if f.scope = .opened then s.put t .closed else s.putFrames t (f :: rest))

/-- The scope ends: `COMMIT` of the outermost, `RELEASE SAVEPOINT` of another. -/
def resolve (s : State τ ω) (t : τ) : Stack ω → Option (State τ ω)
  | [] => none
  | [f] => some { s.put t .closed with committed := s.committed ++ f.items }
  | frames => some (s.putFrames t (release frames))

def writes (x : ℕ) (items : List (Item ω)) : List ω :=
  items.filterMap fun
    | .write y w => if y = x then some w else none
    | _ => none

/-- The marker, inserted unless it is there. -/
def claim [DecidableEq ω] (s : State τ ω) (t : τ) (frames : Stack ω) : Option (State τ ω) :=
  match frames with
  | ⟨.calling, items⟩ :: rest =>
    if .marker ∈ s.committed ∨ .marker ∈ written frames then resolve s t frames
    else some { s.putFrames t (⟨.running s.executions, items ++ [.marker]⟩ :: rest) with executions := s.executions + 1 }
  | _ => none

def step [DecidableEq ω] (s : State τ ω) : Event τ ω → Option (State τ ω)
  | .start t => if (s.transactions t).frames.isEmpty then some (s.putFrames t [⟨.caller, []⟩]) else none
  | .once db => (withTransaction s db).map fun frames => s.putFrames db.connection (⟨.calling, []⟩ :: frames)
  | .nested t =>
    match (s.transactions t).frames with
    | f :: rest => if f.scope.user && !(s.transactions t).aborted then some (s.putFrames t (⟨.savepoint, []⟩ :: f :: rest)) else none
    | [] => none
  | .insert t => if (s.transactions t).aborted then none else claim s t (s.transactions t).frames
  | .write t w =>
    match (s.transactions t).frames with
    | f :: rest =>
      if f.scope.user && !(s.transactions t).aborted then
        match executing (f :: rest) with
        | some x => some (s.putFrames t (append [.write x w] (f :: rest)))
        | none => some s
      else none
    | [] => none
  | .fail t => if (s.transactions t).frames.isEmpty then none else some (s.put t ⟨(s.transactions t).frames, true⟩)
  | .resolve t =>
    match (s.transactions t).frames with
    | ⟨scope, items⟩ :: rest =>
      if scope = .calling then none
      else if (s.transactions t).aborted then reject s t (⟨scope, items⟩ :: rest)
      else
        match scope with
        | .running x => resolve s t (append [.resolved x (writes x items)] (⟨scope, items⟩ :: rest))
        | _ => resolve s t (⟨scope, items⟩ :: rest)
    | [] => none
  | .reject t =>
    match (s.transactions t).frames with
    | f :: rest => if f.scope = .opened then none else reject s t (f :: rest)
    | [] => none
  | .lose t => some (s.put t .closed)
  | .purge => some { s with committed := [] }

end

def initial : State τ ω := ⟨fun _ => .closed, [], 0⟩

def Waits (s : State τ ω) : Event τ ω → Prop
  | .insert t => ∀ u, u ≠ t → .marker ∉ written (s.transactions u).frames
  | _ => True

end Once
