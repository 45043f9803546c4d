import Mathlib.Tactic.TypeStar

/-!
# Checks that refuse

A chain of checks in `Except`: what a check lets pass, and what the end of a chain says of its parts.
-/

namespace Refusal
variable {ε α β : Type}

/-- `if (refused) throw error` -/
def refuseIf (refused : Prop) [Decidable refused] (error : ε) : Except ε Unit :=
  if refused then .error error else .ok ()

theorem bind_ok {x : Except ε α} {f : α → Except ε β} {b : β} (h : (x >>= f) = .ok b) : ∃ a, x = .ok a ∧ f a = .ok b := by
  cases x with
  | error _ => cases h
  | ok a => exact ⟨a, rfl, h⟩

theorem bind_ok_iff {x : Except ε α} {f : α → Except ε β} {b : β} : (x >>= f) = .ok b ↔ ∃ a, x = .ok a ∧ f a = .ok b := by
  refine ⟨bind_ok, ?_⟩
  intro ⟨a, first, second⟩
  rw [first]
  exact second

theorem ok_bind (a : α) (f : α → Except ε β) : (Except.ok a >>= f) = f a := rfl

section Refused
variable {p : Prop} [Decidable p] {error : ε} {u : Unit}

theorem refuseIf_ok (h : refuseIf p error = .ok u) : ¬p := by
  unfold refuseIf at h
  split at h
  · cases h
  · assumption

theorem refuseIf_of_not (h : ¬p) : refuseIf p error = .ok () := if_neg h

theorem refuseIf_iff : refuseIf p error = .ok u ↔ ¬p := ⟨refuseIf_ok, refuseIf_of_not⟩

end Refused

/-! ### What a chain can fail with -/

def OnlyErrors (P : ε → Prop) (x : Except ε α) : Prop := ∀ e, x = .error e → P e

section Errors
variable {P : ε → Prop}

theorem onlyErrors_ok (a : α) : OnlyErrors P (Except.ok a : Except ε α) := fun _ failed => by cases failed

theorem onlyErrors_error {e : ε} : OnlyErrors P (Except.error e : Except ε α) ↔ P e := by
  refine ⟨fun only => only e rfl, ?_⟩
  intro holds e' same
  cases same
  exact holds

theorem onlyErrors_refuseIf {p : Prop} [Decidable p] {error : ε} (h : P error) : OnlyErrors P (refuseIf p error) := by
  unfold refuseIf
  split
  · exact onlyErrors_error.mpr h
  · exact onlyErrors_ok ()

/-- A chain fails in its first step, or in the rest with what the first step gave. -/
theorem onlyErrors_bind {x : Except ε α} {f : α → Except ε β} :
    OnlyErrors P (x >>= f) ↔ OnlyErrors P x ∧ ∀ a, x = .ok a → OnlyErrors P (f a) := by
  cases x with
  | error e =>
    have first : OnlyErrors P (Except.error e >>= f) ↔ P e := onlyErrors_error
    rw [first, onlyErrors_error]
    exact ⟨fun holds => ⟨holds, fun a accepted => by cases accepted⟩, fun both => both.1⟩
  | ok a =>
    rw [ok_bind]
    refine ⟨fun rest => ⟨onlyErrors_ok a, ?_⟩, fun both => both.2 a rfl⟩
    intro a' same
    cases same
    exact rest

end Errors

end Refusal
