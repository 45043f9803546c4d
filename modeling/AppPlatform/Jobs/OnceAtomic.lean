import AppPlatform.Jobs.Once
import Mathlib.Data.Fintype.Basic

/-!
# An effect at most once

What is written for the key, in a transaction or in the table, is nothing or the marker with all that
one complete execution wrote. While an execution runs, its marker lies under everything it writes,
in the scope that a failure rolls back.
-/

namespace Once
open Runs Savepoints
variable {τ ω : Type*}

/-- The marker and one complete execution. -/
def whole (x : ℕ) (ws : List ω) : List (Item ω) := .marker :: ws.map (.write x) ++ [.resolved x ws]

def AtMostOnce (items : List (Item ω)) : Prop := items = [] ∨ ∃ x ws, items = whole x ws

theorem AtMostOnce.empty {items : List (Item ω)} (once : AtMostOnce items) (unmarked : .marker ∉ items) : items = [] := by
  rcases once with none | ⟨x, ws, rfl⟩
  · exact none
  · exact absurd List.mem_cons_self unmarked

@[simp] theorem writes_append (x : ℕ) (items items' : List (Item ω)) :
    writes x (items ++ items') = writes x items ++ writes x items' :=
  List.filterMap_append

@[simp] theorem writes_map (x : ℕ) (ws : List ω) : writes x (ws.map (.write x)) = ws := by
  induction ws with
  | nil => rfl
  | cons w ws ih =>
    have head : writes x (.write x w :: ws.map (.write x)) = w :: writes x (ws.map (.write x)) := by simp [writes]
    rw [List.map_cons, head, ih]

/-! ### The scopes of a transaction -/

/-- No execution runs; at most one scope holds what a complete one wrote. -/
inductive Quiet : Stack ω → Prop
  | nil : Quiet []
  | empty {scope : Scope} {rest : Stack ω} (idle : ∀ x, scope ≠ .running x) (quiet : Quiet rest) : Quiet (⟨scope, []⟩ :: rest)
  | once {scope : Scope} {rest : Stack ω} (x : ℕ) (ws : List ω) (idle : ∀ x, scope ≠ .running x) (quiet : Quiet rest)
      (fresh : written rest = []) : Quiet (⟨scope, whole x ws⟩ :: rest)

/-- Execution `x` runs: its scope holds the marker and what it wrote, the scopes above only what it wrote. -/
inductive Active (x : ℕ) : Stack ω → Prop
  | here {rest : Stack ω} (ws : List ω) (quiet : Quiet rest) (fresh : written rest = []) :
      Active x (⟨.running x, .marker :: ws.map (.write x)⟩ :: rest)
  | above {scope : Scope} {rest : Stack ω} (ws : List ω) (idle : ∀ x, scope ≠ .running x) (active : Active x rest) :
      Active x (⟨scope, ws.map (.write x)⟩ :: rest)

def Nested (frames : Stack ω) : Prop := Quiet frames ∨ ∃ x, Active x frames

theorem executing_idle {f : Frame Scope (Item ω)} (idle : ∀ x, f.scope ≠ .running x) (rest : Stack ω) :
    executing (f :: rest) = executing rest := by
  rw [executing]
  split
  · rename_i x running
    exact absurd running (idle x)
  · rfl

theorem Quiet.executing {frames : Stack ω} (quiet : Quiet frames) : executing frames = none := by
  induction quiet with
  | nil => rfl
  | empty idle _ ih => rw [executing_idle idle, ih]
  | once x ws idle _ _ ih => rw [executing_idle idle, ih]

theorem Active.executing {frames : Stack ω} {x : ℕ} (active : Active x frames) : executing frames = some x := by
  induction active with
  | here ws quiet fresh => rfl
  | above ws idle _ ih => rw [executing_idle idle, ih]

theorem Quiet.once_written {frames : Stack ω} (quiet : Quiet frames) : AtMostOnce (written frames) := by
  induction quiet with
  | nil => exact Or.inl rfl
  | empty _ _ ih => rwa [written_cons, List.append_nil]
  | once x ws _ _ fresh _ => exact Or.inr ⟨x, ws, by rw [written_cons, fresh, List.nil_append]⟩

theorem Active.marked {frames : Stack ω} {x : ℕ} (active : Active x frames) : .marker ∈ written frames := by
  induction active with
  | here ws _ _ => exact List.mem_append_right _ List.mem_cons_self
  | above ws _ _ ih => exact List.mem_append_left _ ih

theorem Nested.unmarked {frames : Stack ω} (nested : Nested frames) (unmarked : .marker ∉ written frames) :
    Quiet frames ∧ written frames = [] := by
  rcases nested with quiet | ⟨x, active⟩
  · exact ⟨quiet, quiet.once_written.empty unmarked⟩
  · exact absurd active.marked unmarked

theorem Nested.push {frames : Stack ω} (nested : Nested frames) {scope : Scope} (idle : ∀ x, scope ≠ .running x) :
    Nested (⟨scope, []⟩ :: frames) := by
  rcases nested with quiet | ⟨x, active⟩
  · exact Or.inl (.empty idle quiet)
  · exact Or.inr ⟨x, .above [] idle active⟩

theorem Nested.rollbackTo {frames : Stack ω} (nested : Nested frames) : Nested (rollbackTo frames) := by
  rcases nested with quiet | ⟨x, active⟩
  · induction quiet with
    | nil => exact Or.inl .nil
    | empty _ quiet _ => exact Or.inl quiet
    | once _ _ _ quiet _ _ => exact Or.inl quiet
  · induction active with
    | here _ quiet _ => exact Or.inl quiet
    | above _ _ active _ => exact Or.inr ⟨x, active⟩

/-- The execution that runs writes. -/
theorem Active.append {frames : Stack ω} {x : ℕ} (active : Active x frames) (ws : List ω) :
    Active x (append (ws.map (.write x)) frames) := by
  induction active with
  | here ws' quiet fresh =>
    rw [Savepoints.append, List.cons_append, ← List.map_append]
    exact .here _ quiet fresh
  | above ws' idle active _ =>
    rw [Savepoints.append, ← List.map_append]
    exact .above _ idle active

theorem Quiet.tail {f : Frame Scope (Item ω)} {rest : Stack ω} (quiet : Quiet (f :: rest)) : Quiet rest := by
  cases quiet with
  | empty _ quiet => exact quiet
  | once _ _ _ quiet _ => exact quiet

theorem append_nil (frames : Stack ω) : append [] frames = frames := by
  cases frames with
  | nil => rfl
  | cons f rest => rw [append, List.append_nil]

/-- A complete execution in a transaction that wrote nothing for the key. -/
theorem Quiet.append {frames : Stack ω} (quiet : Quiet frames) (fresh : written frames = []) (x : ℕ) (ws : List ω) :
    Quiet (append (whole x ws) frames) := by
  induction quiet with
  | nil => exact .nil
  | @empty scope rest idle quiet _ =>
    rw [written_cons, List.append_nil] at fresh
    exact .once x ws idle quiet fresh
  | once _ _ _ _ _ _ =>
    rw [written_cons] at fresh
    cases (List.append_eq_nil_iff.mp fresh).2

theorem Nested.release {scope : Scope} {items : List (Item ω)} {rest : Stack ω} (nested : Nested (⟨scope, items⟩ :: rest))
    (idle : ∀ x, scope ≠ .running x) : Nested (release (⟨scope, items⟩ :: rest)) := by
  rcases nested with quiet | ⟨x, active⟩
  · left
    cases quiet with
    | empty _ quiet =>
      rw [Savepoints.release, append_nil]
      exact quiet
    | once x ws _ quiet fresh => exact quiet.append fresh x ws
  · cases active with
    | here ws quiet fresh => exact absurd rfl (idle x)
    | above ws _ active => exact Or.inr ⟨x, active.append ws⟩

/-- The effect has returned: its execution is complete. -/
theorem Nested.complete {x : ℕ} {items : List (Item ω)} {rest : Stack ω} (nested : Nested (⟨.running x, items⟩ :: rest)) :
    Quiet rest ∧ written rest = [] ∧ items ++ [.resolved x (writes x items)] = whole x (writes x items) := by
  rcases nested with quiet | ⟨y, active⟩
  · cases quiet with
    | empty idle _ => exact absurd rfl (idle x)
    | once _ _ idle _ _ => exact absurd rfl (idle x)
  · cases active with
    | here ws quiet fresh =>
      have wrote : writes x (.marker :: ws.map (.write x)) = ws := writes_map x ws
      rw [wrote]
      exact ⟨quiet, fresh, rfl⟩
    | above _ idle _ => exact absurd rfl (idle x)

/-! ### Every moment -/

structure Consistent (s : State τ ω) : Prop where
  once : AtMostOnce s.committed
  nested : ∀ t, Nested (s.transactions t).frames
  /-- The marker is in one place. -/
  unique : ∀ t, .marker ∈ written (s.transactions t).frames → .marker ∉ s.committed ∧
    ∀ u, u ≠ t → .marker ∉ written (s.transactions u).frames

theorem initial_consistent : Consistent (initial : State τ ω) where
  once := Or.inl rfl
  nested _ := Or.inl .nil
  unique _ marked := by cases marked

variable [DecidableEq τ]

@[simp] theorem put_same (s : State τ ω) (t : τ) (tx : Transaction ω) : (s.put t tx).transactions t = tx :=
  Function.update_self _ _ _

@[simp] theorem put_other (s : State τ ω) {t u : τ} (tx : Transaction ω) (differs : u ≠ t) :
    (s.put t tx).transactions u = s.transactions u := Function.update_of_ne differs _ _

theorem Consistent.put {s : State τ ω} (consistent : Consistent s) {t : τ} {tx : Transaction ω} (nested : Nested tx.frames)
    (old : .marker ∈ written tx.frames → .marker ∈ written (s.transactions t).frames) : Consistent (s.put t tx) := by
  have marked : ∀ u, .marker ∈ written ((s.put t tx).transactions u).frames → .marker ∈ written (s.transactions u).frames := by
    intro u
    by_cases here : u = t
    · subst here
      rw [put_same]
      exact old
    · rw [put_other _ _ here]
      exact id
  refine ⟨consistent.once, fun u => ?_, fun u found => ?_⟩
  · by_cases here : u = t
    · subst here
      rwa [put_same]
    · rw [put_other _ _ here]
      exact consistent.nested u
  · obtain ⟨uncommitted, others⟩ := consistent.unique u (marked u found)
    exact ⟨uncommitted, fun u' differs found' => others u' differs (marked u' found')⟩

theorem Consistent.closed {s : State τ ω} (consistent : Consistent s) (t : τ) : Consistent (s.put t .closed) :=
  consistent.put (Or.inl .nil) (by intro marked; cases marked)

theorem reject_consistent {s s' : State τ ω} (consistent : Consistent s) {t : τ} {frames : Stack ω}
    (here : (s.transactions t).frames = frames) (taken : reject s t frames = some s') : Consistent s' := by
  have nested := (consistent.nested t).rollbackTo
  have before := written_rollbackTo frames
  rw [here] at nested
  unfold reject at taken
  generalize rollbackTo frames = below at nested before taken
  induction below with
  | nil =>
    cases taken
    exact consistent.closed t
  | cons f rest _ =>
    dsimp only at taken
    split at taken
    · cases taken
      exact consistent.closed t
    · cases taken
      apply consistent.put nested
      intro marked
      rw [here]
      exact before.subset marked

/-- The scope ends with what it holds, which is nothing or one complete execution, or not the last scope. -/
theorem resolve_consistent {s s' : State τ ω} (consistent : Consistent s) {t : τ} {f : Frame Scope (Item ω)} {rest : Stack ω}
    (once : rest = [] → AtMostOnce f.items) (nested : Nested (release (f :: rest)))
    (old : .marker ∈ written (f :: rest) → .marker ∈ written (s.transactions t).frames)
    (taken : resolve s t (f :: rest) = some s') : Consistent s' := by
  cases rest with
  | nil =>
    cases taken
    have closed := consistent.closed t
    refine ⟨?_, closed.nested, fun u marked => ?_⟩
    · rcases once rfl with none | ⟨x, ws, all⟩
      · dsimp only
        rw [none, List.append_nil]
        exact consistent.once
      · have marked : Item.marker ∈ written [f] := by
          rw [written_cons, all]
          exact List.mem_append_right _ List.mem_cons_self
        have uncommitted := (consistent.unique t (old marked)).1
        dsimp only
        rw [consistent.once.empty uncommitted, List.nil_append, all]
        exact Or.inr ⟨x, ws, rfl⟩
    · obtain ⟨uncommitted, others⟩ := closed.unique u marked
      refine ⟨?_, others⟩
      intro committed
      rcases List.mem_append.mp committed with before | new
      · exact uncommitted before
      · have differs : u ≠ t := by
          rintro rfl
          dsimp only at marked
          rw [put_same] at marked
          cases marked
        dsimp only at marked
        rw [put_other _ _ differs] at marked
        exact (consistent.unique t (old (List.mem_append_right _ new))).2 u differs marked
  | cons g rest =>
    cases taken
    apply consistent.put nested
    intro marked
    rw [written_release] at marked
    exact old marked

theorem AtMostOnce.of_quiet {f : Frame Scope (Item ω)} (quiet : Quiet [f]) : AtMostOnce f.items := by
  have once := quiet.once_written
  rwa [written_cons, written_nil, List.nil_append] at once

variable [DecidableEq ω]

theorem claim_consistent {s s' : State τ ω} (consistent : Consistent s) {t : τ}
    (waited : ∀ u, u ≠ t → .marker ∉ written (s.transactions u).frames)
    (taken : claim s t (s.transactions t).frames = some s') : Consistent s' := by
  have nested := consistent.nested t
  generalize here : (s.transactions t).frames = frames at taken nested
  unfold claim at taken
  split at taken
  · rename_i items rest
    split at taken
    · -- the marker is there: the call returns and its savepoint is released
      refine resolve_consistent consistent (fun last => ?_) (nested.release (by simp)) (by rw [here]; exact id) taken
      subst last
      rcases nested with quiet | ⟨x, active⟩
      · exact .of_quiet quiet
      · cases active with
        | above _ _ active => cases active
    · rename_i absent
      obtain ⟨uncommitted, unmarked⟩ := not_or.mp absent
      obtain ⟨quiet, fresh⟩ := nested.unmarked unmarked
      cases taken
      rw [written_cons, List.append_eq_nil_iff] at fresh
      obtain ⟨freshRest, rfl⟩ := fresh
      have active : Active s.executions (⟨.running s.executions, [] ++ [.marker]⟩ :: rest) := .here [] quiet.tail freshRest
      refine ⟨consistent.once, fun u => ?_, fun u marked => ?_⟩
      · by_cases same : u = t
        · subst same
          show Nested ((s.put u _).transactions u).frames
          rw [put_same]
          exact Or.inr ⟨_, active⟩
        · show Nested ((s.put t _).transactions u).frames
          rw [put_other _ _ same]
          exact consistent.nested u
      · have only : u = t := by
          by_contra differs
          have marked : Item.marker ∈ written ((s.put t _).transactions u).frames := marked
          rw [put_other _ _ differs] at marked
          exact waited u differs marked
        subst only
        refine ⟨uncommitted, fun u' differs => ?_⟩
        show Item.marker ∉ written ((s.put u _).transactions u').frames
        rw [put_other _ _ differs]
        exact waited u' differs
  · cases taken

theorem step_consistent {s s' : State τ ω} {e : Event τ ω} (consistent : Consistent s) (waits : Waits s e)
    (taken : step s e = some s') : Consistent s' := by
  cases e with
  | start t =>
    simp only [step, Option.ite_none_right_eq_some, Option.some.injEq] at taken
    obtain ⟨_, rfl⟩ := taken
    exact consistent.put (Or.inl (.empty (by simp) .nil)) (by intro marked; cases marked)
  | once db =>
    simp only [step, Option.map_eq_some_iff] at taken
    obtain ⟨frames, joined, rfl⟩ := taken
    have below : Nested frames ∧ (.marker ∈ written frames → .marker ∈ written (s.transactions db.connection).frames) := by
      unfold withTransaction at joined
      dsimp only at joined
      split at joined
      · split at joined
        · split at joined
          · cases joined
            exact ⟨consistent.nested _, id⟩
          · cases joined
        · cases joined
      · split at joined
        · cases joined
          exact ⟨Or.inl (.empty (by simp) .nil), by intro marked; cases marked⟩
        · cases joined
    apply consistent.put (below.1.push (by simp))
    intro marked
    rw [written_cons, List.append_nil] at marked
    exact below.2 marked
  | nested t =>
    simp only [step] at taken
    split at taken
    · rename_i f rest here
      simp only [Option.ite_none_right_eq_some, Option.some.injEq] at taken
      obtain ⟨_, rfl⟩ := taken
      have nested := consistent.nested t
      rw [here] at nested
      apply consistent.put (nested.push (by simp))
      intro marked
      rw [written_cons, List.append_nil] at marked
      rwa [here]
    · cases taken
  | insert t =>
    simp only [step, Option.ite_none_left_eq_some] at taken
    exact claim_consistent consistent waits taken.2
  | write t w =>
    simp only [step] at taken
    split at taken
    · rename_i f rest here
      simp only [Option.ite_none_right_eq_some] at taken
      obtain ⟨_, taken⟩ := taken
      have nested := consistent.nested t
      rw [here] at nested
      split at taken
      · rename_i x running
        cases taken
        rcases nested with quiet | ⟨y, active⟩
        · cases quiet.executing.symm.trans running
        · obtain rfl : y = x := Option.some.inj (active.executing.symm.trans running)
          apply consistent.put (Or.inr ⟨y, active.append [w]⟩)
          intro _
          rw [here]
          exact active.marked
      · cases taken
        exact consistent
    · cases taken
  | fail t =>
    simp only [step, Option.ite_none_left_eq_some, Option.some.injEq] at taken
    obtain ⟨_, rfl⟩ := taken
    exact consistent.put (consistent.nested t) id
  | resolve t =>
    simp only [step] at taken
    split at taken
    · rename_i scope items rest here
      simp only [Option.ite_none_left_eq_some] at taken
      obtain ⟨_, taken⟩ := taken
      have nested := consistent.nested t
      rw [here] at nested
      split at taken
      · exact reject_consistent consistent here taken
      split at taken
      · rename_i x _
        obtain ⟨quiet, fresh, complete⟩ := nested.complete
        rw [append, complete] at taken
        have released : Nested (release (⟨.running x, whole x (writes x items)⟩ :: rest)) := Or.inl (quiet.append fresh x _)
        refine resolve_consistent consistent (fun _ => Or.inr ⟨x, _, rfl⟩) released ?_ taken
        intro _
        rw [here]
        rcases nested with quiet' | ⟨y, active⟩
        · cases quiet' with
          | empty idle _ => exact absurd rfl (idle x)
          | once _ _ idle _ _ => exact absurd rfl (idle x)
        · exact active.marked
      · rename_i other
        refine resolve_consistent consistent (fun last => ?_) (nested.release other) (by rw [here]; exact id) taken
        subst last
        rcases nested with quiet | ⟨y, active⟩
        · exact .of_quiet quiet
        · cases active with
          | here _ _ _ => exact absurd rfl (other y)
          | above _ _ active => cases active
    · cases taken
  | reject t =>
    simp only [step] at taken
    split at taken
    · rename_i f rest here
      simp only [Option.ite_none_left_eq_some] at taken
      exact reject_consistent consistent here taken.2
    · cases taken
  | lose t =>
    cases taken
    exact consistent.closed t
  | purge =>
    cases taken
    exact ⟨Or.inl rfl, consistent.nested, fun t marked => ⟨List.not_mem_nil, (consistent.unique t marked).2⟩⟩

theorem run_consistent {s : State τ ω} {es : List (Event τ ω)} (run : Run step Waits initial es s) : Consistent s :=
  run.invariant step_consistent initial_consistent

/-- At most one execution's writes are committed, and with the marker; the marker is committed exactly
with all that one complete execution wrote. -/
theorem effect_at_most_once {s : State τ ω} {es : List (Event τ ω)} (run : Run step Waits initial es s) :
    (∀ x y w w', .write x w ∈ s.committed → .write y w' ∈ s.committed → x = y) ∧
    (∀ x w, .write x w ∈ s.committed → .marker ∈ s.committed) ∧
    (.marker ∈ s.committed ↔ ∃ x ws, .resolved x ws ∈ s.committed ∧ writes x s.committed = ws) := by
  rcases (run_consistent run).once with none | ⟨x, ws, all⟩
  · rw [none]
    simp
  · have wrote : writes x s.committed = ws := by
      rw [all, whole, writes_append]
      show writes x (ws.map (.write x)) ++ [] = ws
      rw [List.append_nil, writes_map]
    have only : ∀ y w, .write y w ∈ s.committed → y = x := by
      intro y w member
      rw [all] at member
      simp [whole] at member
      exact member.2.symm
    have marked : .marker ∈ s.committed := by
      rw [all]
      exact List.mem_cons_self
    have resolved : .resolved x ws ∈ s.committed := by
      rw [all]
      exact List.mem_append_right _ List.mem_cons_self
    exact ⟨fun y z w w' first second => (only y w first).trans (only z w' second).symm, fun _ _ _ => marked,
      fun _ => ⟨x, ws, resolved, wrote⟩, fun _ => marked⟩

instance [Fintype τ] (s : State τ ω) : (e : Event τ ω) → Decidable (Waits s e)
  | .insert t => inferInstanceAs (Decidable (∀ u, u ≠ t → .marker ∉ written (s.transactions u).frames))
  | .start _ | .once _ | .nested _ | .write _ _ | .fail _ | .resolve _ | .reject _ | .lose _ | .purge => .isTrue trivial

omit [DecidableEq τ] [DecidableEq ω] in
/-- An effect fails, its caller catches the error, calls again and commits; another delivery finds the marker. -/
theorem effect_at_most_once_caught : ∃ s : State (Fin 2) ℕ, s.committed = [.marker, .write 1 8, .resolved 1 [8]] ∧
    (∀ x y w w', .write x w ∈ s.committed → .write y w' ∈ s.committed → x = y) ∧
    (∀ x w, .write x w ∈ s.committed → .marker ∈ s.committed) ∧
    (.marker ∈ s.committed ↔ ∃ x ws, .resolved x ws ∈ s.committed ∧ writes x s.committed = ws) := by
  have check : ∃ s ∈ exec step Waits (initial : State (Fin 2) ℕ)
      [.start 0, .once (.transaction 0), .insert 0, .write 0 7, .reject 0, .once (.transaction 0), .insert 0, .write 0 8,
        .resolve 0, .resolve 0, .once (.database 1), .insert 1, .resolve 1],
      s.committed = [.marker, .write 1 8, .resolved 1 [8]] := by decide
  obtain ⟨s, reached, committed⟩ := check
  exact ⟨s, committed, effect_at_most_once (Run.of_exec reached)⟩

end Once
