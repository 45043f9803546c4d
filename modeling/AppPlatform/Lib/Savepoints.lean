import Mathlib.Data.List.Basic
import Mathlib.Tactic.TypeStar

/-!
# Savepoints

An open transaction is a stack of scopes, the innermost first: each holds what was written in it
since its savepoint. Releasing a savepoint hands its writes to the scope below, rolling back to it
drops them.
-/

namespace Savepoints

structure Frame (σ α : Type*) where
  scope : σ
  items : List α

variable {σ α : Type*}

/-- What the transaction would commit. -/
def written : List (Frame σ α) → List α
  | [] => []
  | f :: rest => written rest ++ f.items

/-- Writes in the innermost scope. -/
def append (items : List α) : List (Frame σ α) → List (Frame σ α)
  | [] => []
  | f :: rest => { f with items := f.items ++ items } :: rest

/-- `RELEASE SAVEPOINT`. -/
def release : List (Frame σ α) → List (Frame σ α)
  | f :: rest => append f.items rest
  | [] => []

/-- `ROLLBACK TO SAVEPOINT`. -/
def rollbackTo : List (Frame σ α) → List (Frame σ α)
  | _ :: rest => rest
  | [] => []

@[simp] theorem written_nil : written ([] : List (Frame σ α)) = [] := rfl

@[simp] theorem written_cons (f : Frame σ α) (rest : List (Frame σ α)) : written (f :: rest) = written rest ++ f.items := rfl

@[simp] theorem written_append (items : List α) (f : Frame σ α) (rest : List (Frame σ α)) :
    written (append items (f :: rest)) = written (f :: rest) ++ items := by
  rw [append, written_cons, written_cons, List.append_assoc]

@[simp] theorem written_release (f g : Frame σ α) (rest : List (Frame σ α)) :
    written (release (f :: g :: rest)) = written (f :: g :: rest) := by
  rw [release, written_append, written_cons f]

theorem written_rollbackTo (frames : List (Frame σ α)) : written (rollbackTo frames) <+: written frames := by
  cases frames with
  | nil => exact List.prefix_rfl
  | cons f rest => exact ⟨f.items, rfl⟩

end Savepoints
