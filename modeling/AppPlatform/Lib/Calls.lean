import Mathlib.Logic.Function.Basic
import Mathlib.Tactic.TypeStar

/-!
# Calls that are under way

A machine whose calls each stand in a phase of their own: it extends `Calls`, and a call that goes on is moved alone.
-/

structure Calls (ι Φ : Type*) where
  phase : ι → Φ

namespace Calls
variable {ι Φ : Type*} [DecidableEq ι]

def move (c : Calls ι Φ) (r : ι) (p : Φ) : Calls ι Φ := ⟨Function.update c.phase r p⟩

@[simp] theorem move_self (c : Calls ι Φ) (r : ι) (p : Φ) : (c.move r p).phase r = p := Function.update_self ..

theorem move_other (c : Calls ι Φ) {r r' : ι} (p : Φ) (differs : r' ≠ r) : (c.move r p).phase r' = c.phase r' :=
  Function.update_of_ne differs ..

end Calls
