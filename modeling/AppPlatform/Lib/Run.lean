import Mathlib.Data.List.Basic
import Mathlib.Tactic.TypeStar

/-!
# Runs

A system is a step function on labelled events: an event is taken or refused. `Run step ok` is a
finite run all of whose steps meet `ok`, the assumption on the environment.
-/

namespace Runs
variable {σ ε : Type*} {step : σ → ε → Option σ} {ok ok' : σ → ε → Prop}

inductive Run (step : σ → ε → Option σ) (ok : σ → ε → Prop) : σ → List ε → σ → Prop where
  | nil (s : σ) : Run step ok s [] s
  | cons {s t u : σ} {e : ε} {es : List ε} :
      ok s e → step s e = some t → Run step ok t es u → Run step ok s (e :: es) u

theorem Run.append {s t u : σ} {es fs : List ε} (first : Run step ok s es t) (second : Run step ok t fs u) :
    Run step ok s (es ++ fs) u := by
  induction first with
  | nil => exact second
  | cons allowed taken _ ih => exact .cons allowed taken (ih second)

theorem Run.snoc {s t u : σ} {es : List ε} {e : ε} (run : Run step ok s es t) (allowed : ok t e)
    (taken : step t e = some u) : Run step ok s (es ++ [e]) u :=
  run.append (.cons allowed taken (.nil u))

theorem Run.mono {s t : σ} {es : List ε} (run : Run step ok s es t) (weaker : ∀ s e, ok s e → ok' s e) :
    Run step ok' s es t := by
  induction run with
  | nil => exact .nil _
  | cons allowed taken _ ih => exact .cons (weaker _ _ allowed) taken ih

theorem Run.invariant {I : σ → Prop} (preserved : ∀ {s e t}, I s → ok s e → step s e = some t → I t)
    {s t : σ} {es : List ε} (run : Run step ok s es t) (start : I s) : I t := by
  induction run with
  | nil => exact start
  | cons allowed taken _ ih => exact ih (preserved start allowed taken)

theorem Run.invariant_under {I J : σ → Prop}
    (invariant : ∀ {s e t}, J s → ok s e → step s e = some t → J t)
    (preserved : ∀ {s e t}, J s → I s → ok s e → step s e = some t → I t)
    {s t : σ} {es : List ε} (run : Run step ok s es t) (base : J s) (start : I s) : I t :=
  (run.invariant (I := fun s => J s ∧ I s)
    (fun both allowed taken => ⟨invariant both.1 allowed taken, preserved both.1 both.2 allowed taken⟩)
    ⟨base, start⟩).2

theorem Run.history {I : σ → List ε → Prop}
    (preserved : ∀ {s es e t}, I s es → ok s e → step s e = some t → I t (es ++ [e]))
    {s t : σ} {es : List ε} (run : Run step ok s es t) (start : I s []) : I t es := by
  have later : ∀ before, I s before → I t (before ++ es) := by
    clear start
    induction run with
    | nil =>
      intro before start
      rw [List.append_nil]
      exact start
    | @cons s u t e es allowed taken _ ih =>
      intro before start
      have next := ih (before ++ [e]) (preserved start allowed taken)
      rwa [List.append_assoc, List.singleton_append] at next
  exact later [] start

theorem Run.split {s u : σ} {es fs : List ε} (run : Run step ok s (es ++ fs) u) :
    ∃ t, Run step ok s es t ∧ Run step ok t fs u := by
  induction es generalizing s with
  | nil => exact ⟨s, .nil s, run⟩
  | cons e es ih =>
    cases run with
    | cons allowed taken rest =>
      obtain ⟨t, first, second⟩ := ih rest
      exact ⟨t, .cons allowed taken first, second⟩

/-- Two runs that take the same events, but for those that are not kept, stay in a relation that each of these preserves on
its own side and every other event on both. -/
theorem Run.matched {R : σ → σ → Prop} {keep : ε → Bool}
    (left : ∀ {s t e s'}, R s t → keep e = false → ok s e → step s e = some s' → R s' t)
    (right : ∀ {s t e t'}, R s t → keep e = false → ok t e → step t e = some t' → R s t')
    (both : ∀ {s t e s' t'}, R s t → keep e = true → ok s e → ok t e → step s e = some s' → step t e = some t' → R s' t')
    {s s' t t' : σ} {es fs : List ε} (run : Run step ok s es s') (run' : Run step ok t fs t')
    (same : es.filter keep = fs.filter keep) (start : R s t) : R s' t' := by
  induction run generalizing t fs with
  | nil s =>
    induction run' with
    | nil => exact start
    | @cons t u t' f fs allowed taken _ ih =>
      cases kept : keep f with
      | false =>
        rw [List.filter_cons_of_neg (by rw [kept]; nofun)] at same
        exact ih same (right start kept allowed taken)
      | true =>
        rw [List.filter_cons_of_pos kept] at same
        cases same
  | @cons s u s' e es allowed taken _ ih =>
    cases kept : keep e with
    | false =>
      rw [List.filter_cons_of_neg (by rw [kept]; nofun)] at same
      exact ih run' same (left start kept allowed taken)
    | true =>
      rw [List.filter_cons_of_pos kept] at same
      induction run' with
      | nil => cases same
      | @cons t v t' f fs allowed' taken' rest ih' =>
        cases kept' : keep f with
        | false =>
          rw [List.filter_cons_of_neg (by rw [kept']; nofun)] at same
          exact ih' ih same (right start kept' allowed' taken')
        | true =>
          rw [List.filter_cons_of_pos kept'] at same
          obtain ⟨rfl, tails⟩ := List.cons.inj same
          exact ih rest tails (both start kept allowed allowed' taken taken')

/-- The state after the events, when each is allowed and taken. -/
def exec (step : σ → ε → Option σ) (ok : σ → ε → Prop) [∀ (s : σ) (e : ε), Decidable (ok s e)] :
    σ → List ε → Option σ
  | s, [] => some s
  | s, e :: es => if ok s e then (step s e).bind fun t => exec step ok t es else none

theorem Run.of_exec [∀ (s : σ) (e : ε), Decidable (ok s e)] {s t : σ} {es : List ε} (h : exec step ok s es = some t) :
    Run step ok s es t := by
  induction es generalizing s with
  | nil =>
    cases h
    exact .nil _
  | cons e es ih =>
    rw [exec] at h
    split at h
    · rename_i allowed
      obtain ⟨u, taken, rest⟩ := Option.bind_eq_some_iff.mp h
      exact .cons allowed taken (ih rest)
    · cases h

end Runs
