import Mathlib.Logic.Basic

/-!
# Programs that throw

A program reads and changes a state and returns or throws; what it changed before it threw stays changed. `catch'` and `finally'`
are the clauses of a `try`: an error of the clean-up replaces what the body returned or threw. `Ensures` is a rule for what holds
after a program, however it ends.
-/

def Prog (σ ε α : Type) := σ → Except ε α × σ

namespace Prog
variable {σ ε α β : Type}

instance : Monad (Prog σ ε) where
  pure a := fun s => (.ok a, s)
  bind x f := fun s =>
    match x s with
    | (.ok a, s) => f a s
    | (.error e, s) => (.error e, s)

def throw' (e : ε) : Prog σ ε α := fun s => (.error e, s)

def modify (f : σ → σ) : Prog σ ε Unit := fun s => (.ok (), f s)

def read (f : σ → α) : Prog σ ε α := fun s => (.ok (f s), s)

def catch' (x : Prog σ ε α) (handler : ε → Prog σ ε α) : Prog σ ε α := fun s =>
  match x s with
  | (.ok a, s) => (.ok a, s)
  | (.error e, s) => handler e s

def finally' (x : Prog σ ε α) (cleanup : Prog σ ε Unit) : Prog σ ε α := fun s =>
  match cleanup (x s).2 with
  | (.ok (), s') => ((x s).1, s')
  | (.error e, s') => (.error e, s')

/-- From a state with `P`, the program ends with `Q` of its result and of the state it leaves. -/
def Ensures (P : σ → Prop) (x : Prog σ ε α) (Q : Except ε α → σ → Prop) : Prop := ∀ s, P s → Q (x s).1 (x s).2

variable {P P' : σ → Prop} {x : Prog σ ε α} {Q Q' : Except ε α → σ → Prop}

theorem Ensures.weaken (ensures : Ensures P x Q) (weaker : ∀ r s, Q r s → Q' r s) : Ensures P x Q' :=
  fun s before => weaker _ _ (ensures s before)

theorem Ensures.strengthen (ensures : Ensures P x Q) (stronger : ∀ s, P' s → P s) : Ensures P' x Q :=
  fun s before => ensures s (stronger s before)

theorem ensures_pure {a : α} (holds : ∀ s, P s → Q (.ok a) s) : Ensures P (pure a) Q := holds

theorem ensures_throw {e : ε} (holds : ∀ s, P s → Q (.error e) s) : Ensures P (throw' e) Q := holds

theorem ensures_modify {f : σ → σ} {Q : Except ε Unit → σ → Prop} (holds : ∀ s, P s → Q (.ok ()) (f s)) :
    Ensures P (modify f) Q := holds

theorem ensures_read {f : σ → α} (holds : ∀ s, P s → Q (.ok (f s)) s) : Ensures P (read f) Q := holds

theorem ensures_bind {f : α → Prog σ ε β} {Q : Except ε β → σ → Prop}
    {R : Except ε α → σ → Prop} (first : Ensures P x R)
    (rest : ∀ a, Ensures (R (.ok a)) (f a) Q) (stops : ∀ e s, R (.error e) s → Q (.error e) s) : Ensures P (x >>= f) Q := by
  intro s before
  have middle := first s before
  have ran : (x >>= f) s = match x s with | (.ok a, s) => f a s | (.error e, s) => (.error e, s) := rfl
  rw [ran]
  rcases ended : x s with ⟨e | a, t⟩
  · rw [ended] at middle
    exact stops e t middle
  · rw [ended] at middle
    exact rest a t middle

theorem ensures_catch {handler : ε → Prog σ ε α} {R : Except ε α → σ → Prop} (first : Ensures P x R)
    (returns : ∀ a s, R (.ok a) s → Q (.ok a) s) (handles : ∀ e, Ensures (R (.error e)) (handler e) Q) :
    Ensures P (x.catch' handler) Q := by
  intro s before
  have middle := first s before
  unfold catch'
  rcases ended : x s with ⟨e | a, t⟩
  · rw [ended] at middle
    exact handles e t middle
  · rw [ended] at middle
    exact returns a t middle

/-- A clean-up that never throws keeps what the body ended with. -/
theorem ensures_finally {cleanup : Prog σ ε Unit} {R : Except ε α → σ → Prop} (first : Ensures P x R)
    (cleans : ∀ r, Ensures (R r) cleanup fun ended s => ended = .ok () ∧ Q r s) : Ensures P (x.finally' cleanup) Q := by
  intro s before
  have last := cleans (x s).1 (x s).2 (first s before)
  unfold finally'
  rcases ended : cleanup (x s).2 with ⟨e | ⟨⟩, t⟩
  · rw [ended] at last
    cases last.1
  · rw [ended] at last
    exact last.2

end Prog
