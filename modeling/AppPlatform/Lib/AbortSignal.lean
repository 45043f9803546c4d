import Mathlib.Data.Nat.Notation
import Mathlib.Data.Option.Basic

/-!
# Abort signals

A signal that is aborted at some time, or never, and a timer that gives up when the signal is aborted.
-/

structure AbortSignal where
  abortAt : Option ℕ

namespace AbortSignal

def never : AbortSignal := ⟨none⟩

def aborted (s : AbortSignal) (now : ℕ) : Bool := s.abortAt.any (· ≤ now)

/-- The time at which a timer set now fires, or none where the signal was aborted or is before it fires. -/
def sleep (s : AbortSignal) (now lasts : ℕ) : Option ℕ :=
  if s.aborted now then none
  else if s.aborted (now + lasts) then none
  else some (now + lasts)

end AbortSignal
