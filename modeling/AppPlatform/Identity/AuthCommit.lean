import AppPlatform.Identity.AuthTransaction

/-!
# No commit is reported that did not happen

A transaction that passes the probe commits, unless a task that nobody waited for aborts it before `COMMIT`.
What it commits is what its statements wrote and did not take back.
-/

namespace AuthTransaction
open Js Postgres Runs
variable {τ ρ : Type*} [DecidableEq τ]

/-- What the caller of `transaction` is told is what happened. -/
structure Truthful (s : State τ ρ) (t : τ) : Prop where
  resolved : (s.call t).phase = .resolved → (s.call t).outcome = .committed ∧ s.writes t = kept 0 (s.call t).tx.log
  otherwise : (s.call t).phase ≠ .resolved → (s.call t).outcome ≠ .committed ∧ s.writes t = []

structure Consistent (s : State τ ρ) (t : τ) : Prop extends Truthful s t where
  faithful : (s.call t).tx.Faithful
  probed : (s.call t).phase = .probed → (s.call t).late = false → (s.call t).tx.aborted = false

/-- Statements that were sent on a transaction after its probe leave it unaborted when `COMMIT` is sent. -/
def Settled (s : State τ ρ) : Event τ ρ → Prop
  | .commit t _ => (s.call t).late = true → (s.call t).tx.aborted = false
  | _ => True

instance (s : State τ ρ) (e : Event τ ρ) : Decidable (Settled s e) := by
  cases e <;> unfold Settled <;> infer_instance

@[simp] theorem put_same (s : State τ ρ) (t : τ) (call : Call ρ) : (s.put t call).call t = call := Function.update_self _ _ _

@[simp] theorem put_other (s : State τ ρ) {t u : τ} (call : Call ρ) (differs : u ≠ t) : (s.put t call).call u = s.call u :=
  Function.update_of_ne differs _ _

theorem initial_consistent (t : τ) : Consistent (initial : State τ ρ) t where
  resolved := by nofun
  otherwise _ := ⟨nofun, rfl⟩
  faithful := Tx.start_faithful
  probed := by nofun

/-- Neither the call nor its rows change. -/
theorem Consistent.frame {s s' : State τ ρ} {t : τ} (h : Consistent s t) (call : s'.call t = s.call t)
    (writes : s'.writes t = s.writes t) : Consistent s' t where
  resolved := by
    rw [call, writes]
    exact h.resolved
  otherwise := by
    rw [call, writes]
    exact h.otherwise
  faithful := by
    rw [call]
    exact h.faithful
  probed := by
    rw [call]
    exact h.probed

/-- A call that goes on, or ends with an error. -/
theorem Consistent.put {s : State τ ρ} {t u : τ} (h : Consistent s u) {call : Call ρ} (open_ : (s.call t).phase ≠ .resolved)
    (unresolved : call.phase ≠ .resolved) (uncommitted : call.outcome ≠ .committed) (faithful : call.tx.Faithful)
    (probed : call.phase = .probed → call.late = false → call.tx.aborted = false) : Consistent (s.put t call) u := by
  by_cases same : u = t
  · subst same
    constructor
    · constructor
      · rw [put_same]
        intro resolved
        exact absurd resolved unresolved
      · rw [put_same]
        intro _
        exact ⟨uncommitted, (h.otherwise open_).2⟩
    · rw [put_same]
      exact faithful
    · rw [put_same]
      exact probed
  · exact h.frame (put_other s call same) rfl

theorem Consistent.execute {s s' : State τ ρ} {t u : τ} {fails : Bool} {st : Statement Text (Row ρ)}
    (h : ∀ t, Consistent s t) (taken : s.execute t fails st = some s') : Consistent s' u := by
  unfold State.execute at taken
  split at taken
  · rename_i inside
    cases taken
    have open_ : (s.call t).phase ≠ .resolved := by
      intro resolved
      rw [Call.inTransaction, resolved] at inside
      cases inside
    refine (h u).put open_ open_ ((h t).otherwise open_).1 ((h t).faithful.execute fails st) ?_
    intro probed unsent
    rw [Bool.or_eq_false_iff, decide_eq_false_iff_not] at unsent
    exact (unsent.2 probed).elim
  · cases taken

theorem writes_commit (s : State τ ρ) (t u : τ) (rows : List (Row ρ)) (call : Call ρ) :
    State.writes { s.put t call with committed := s.committed ++ rows.map fun row => (some t, row) } u =
      s.writes u ++ if u = t then rows else [] := by
  unfold State.writes
  rw [List.filter_append, List.map_append]
  congr 1
  split
  · rename_i same
    rw [same]
    simp [List.filter_map, Function.comp_def]
  · rename_i differs
    simp [List.filter_map, Function.comp_def, Ne.symm differs]

theorem Consistent.commit {s : State τ ρ} {t u : τ} (h : ∀ t, Consistent s t) (probed : (s.call t).phase = .probed)
    (settled : (s.call t).late = true → (s.call t).tx.aborted = false) : Consistent (s.commit t) u := by
  have live : (s.call t).tx.aborted = false := by
    cases late : (s.call t).late with
    | false => exact (h t).probed probed late
    | true => exact settled late
  have open_ : (s.call t).phase ≠ .resolved := ne_of_eq_of_ne probed nofun
  have rows := writes_commit s t u (Savepoints.written (s.call t).tx.frames)
    { s.call t with phase := .resolved, outcome := .committed }
  rw [State.commit, live, if_neg Bool.false_ne_true]
  by_cases same : u = t
  · subst same
    rw [if_pos rfl, ((h u).otherwise open_).2, List.nil_append] at rows
    have all := rows.trans (h u).faithful.holds
    constructor
    · constructor
      · intro _
        refine ⟨?_, all.trans ?_⟩
        · simp
        · simp
      · simp
    · simpa using (h u).faithful
    · simp
  · rw [if_neg same, List.append_nil] at rows
    exact (h u).frame (put_other s _ same) rows

/-- Rows that no call's transaction wrote. -/
theorem Consistent.autocommit {s : State τ ρ} {t : τ} (h : Consistent s t) (row : Row ρ) :
    Consistent { s with committed := s.committed ++ [(none, row)] } t := by
  refine h.frame rfl ?_
  unfold State.writes
  rw [List.filter_append, List.map_append, List.filter_singleton]
  simp

theorem step_consistent {auth : AuthMail} {s s' : State τ ρ} {e : Event τ ρ} (h : ∀ t, Consistent s t) (settled : Settled s e)
    (taken : step auth s e = some s') (u : τ) : Consistent s' u := by
  cases e with
  | begin t fails =>
    simp only [step] at taken
    split at taken
    · rename_i idle
      have open_ : (s.call t).phase ≠ .resolved := ne_of_eq_of_ne idle nofun
      split at taken
      · cases taken
        exact (h u).put open_ nofun ((h t).otherwise open_).1 (h t).faithful nofun
      · cases taken
        have begun : Consistent (s.put t ⟨.running, .pending, .start, false⟩) u :=
          (h u).put open_ nofun nofun Tx.start_faithful nofun
        exact begun.frame rfl rfl
    · cases taken
  | spawn task =>
    obtain ⟨context, _, same⟩ := Option.map_eq_some_iff.mp taken
    cases same
    exact (h u).frame rfl rfl
  | execute db fails st =>
    obtain ⟨t, _, done⟩ := Option.bind_eq_some_iff.mp taken
    exact Consistent.execute h done
  | enqueue task mail fails inserted =>
    simp only [step] at taken
    split at taken
    · cases taken
      exact h u
    · exact Consistent.execute h taken
    · cases taken
      split
      · exact (h u).autocommit _
      · exact h u
  | settle t throws =>
    simp only [step] at taken
    split at taken
    · rename_i running
      cases taken
      have open_ : (s.call t).phase ≠ .resolved := ne_of_eq_of_ne running nofun
      refine (h u).put open_ ?_ ((h t).otherwise open_).1 (h t).faithful ?_
      · cases throws <;> nofun
      · cases throws <;> nofun
    · cases taken
  | probe t fails =>
    simp only [step] at taken
    split at taken
    · rename_i returned
      cases taken
      have open_ : (s.call t).phase ≠ .resolved := ne_of_eq_of_ne returned nofun
      refine (h u).put open_ ?_ ((h t).otherwise open_).1 ((h t).faithful.execute fails (.query [])) ?_
      · dsimp only
        split <;> nofun
      · dsimp only
        split
        · nofun
        · rename_i live
          exact fun _ _ => Bool.eq_false_iff.mpr live
    · cases taken
  | commit t fails =>
    simp only [step] at taken
    split at taken
    · rename_i probed
      split at taken
      · cases taken
        have open_ : (s.call t).phase ≠ .resolved := ne_of_eq_of_ne probed nofun
        exact (h u).put open_ nofun nofun (h t).faithful nofun
      · cases taken
        exact Consistent.commit h probed settled
    · cases taken
  | rollback t =>
    simp only [step] at taken
    split at taken
    · rename_i error failing
      cases taken
      have open_ : (s.call t).phase ≠ .resolved := ne_of_eq_of_ne failing nofun
      exact (h u).put open_ nofun nofun (h t).faithful nofun
    · cases taken

theorem ends (auth : AuthMail) (s : State τ ρ) (t : τ) (begun : (s.call t).phase ≠ .idle)
    (settled : (s.call t).phase ≠ .running) :
    ∃ es s', Run (step auth) (fun _ _ => True) s es s' ∧
      ((s'.call t).phase = .resolved ∨ ∃ error, (s'.call t).phase = .rejected error) := by
  have failing : ∀ (s : State τ ρ) (error : Error), (s.call t).phase = .failing error →
      ∃ s', step auth s (.rollback t) = some s' ∧ (s'.call t).phase = .rejected error := by
    intro s error phase
    simp only [step, phase]
    exact ⟨_, rfl, by simp⟩
  have probed : ∀ s : State τ ρ, (s.call t).phase = .probed →
      ∃ s', step auth s (.commit t false) = some s' ∧ (s'.call t).phase = .resolved := by
    intro s phase
    simp only [step, phase]
    refine ⟨s.commit t, rfl, ?_⟩
    rw [State.commit]
    split <;> simp
  cases phase : (s.call t).phase with
  | idle => exact absurd phase begun
  | running => exact absurd phase settled
  | returned =>
    have taken : ∃ s', step auth s (.probe t false) = some s' ∧
        ((s'.call t).phase = .failing .aborted ∨ (s'.call t).phase = .probed) := by
      simp only [step, phase]
      refine ⟨_, rfl, ?_⟩
      rw [put_same]
      dsimp only
      split
      · exact .inl rfl
      · exact .inr rfl
    obtain ⟨u, first, aborted | live⟩ := taken
    · obtain ⟨v, second, rejected⟩ := failing u _ aborted
      exact ⟨_, v, .cons trivial first (.cons trivial second (.nil v)), .inr ⟨_, rejected⟩⟩
    · obtain ⟨v, second, resolved⟩ := probed u live
      exact ⟨_, v, .cons trivial first (.cons trivial second (.nil v)), .inl resolved⟩
  | probed =>
    obtain ⟨u, taken, resolved⟩ := probed s phase
    exact ⟨_, u, .cons trivial taken (.nil u), .inl resolved⟩
  | failing error =>
    obtain ⟨u, taken, rejected⟩ := failing s error phase
    exact ⟨_, u, .cons trivial taken (.nil u), .inr ⟨_, rejected⟩⟩
  | resolved => exact ⟨_, s, .nil s, .inl phase⟩
  | rejected error => exact ⟨_, s, .nil s, .inr ⟨_, phase⟩⟩

/-- A mail is enqueued on the transaction of the task that sends it, and one that is not allowed nowhere. -/
theorem enqueue_joins {auth : AuthMail} {s : State τ ρ} {t : τ} {task : ℕ} (mail : Mail) (fails inserted : Bool)
    (inside : currentAuthTransaction s task = some t) : step auth s (.enqueue task mail fails inserted) =
      if mail.allowed then s.execute t fails (.query (if inserted then [.job (auth.job mail)] else [])) else some s := by
  simp only [step, inside, AuthMail.enqueue]
  cases mail.allowed <;> rfl

/-- However the statements of a callback and of its tasks fail and whatever it ignores: its call resolves only if the
transaction committed, with every row that no return to a savepoint took back, the mail's job included; and else none of
them is there. A call whose callback settles ends, and an allowed mail of its tasks is inserted through its transaction. -/
theorem commit_reported (auth : AuthMail) {s : State τ ρ} {es : List (Event τ ρ)}
    (run : Run (step auth) Settled initial es s) (t : τ) :
    Truthful s t ∧
    ((s.call t).phase ≠ .idle → (s.call t).phase ≠ .running → ∃ later s', Run (step auth) (fun _ _ => True) s later s' ∧
      ((s'.call t).phase = .resolved ∨ ∃ error, (s'.call t).phase = .rejected error)) ∧
    ∀ task mail fails inserted, currentAuthTransaction s task = some t →
      step auth s (.enqueue task mail fails inserted) =
        if mail.allowed then s.execute t fails (.query (if inserted then [.job (auth.job mail)] else [])) else some s := by
  have consistent : ∀ t, Consistent s t :=
    run.invariant (I := fun s => ∀ t, Consistent s t) (fun before settled taken => step_consistent before settled taken)
      initial_consistent
  exact ⟨(consistent t).toTruthful, ends auth s t, fun _ mail fails inserted inside => enqueue_joins mail fails inserted inside⟩

def exampleMail : AuthMail where
  sha256 token := token
  templates _ _ := ⟨text "Verify", [], []⟩

def ada : Mail := ⟨.verifyEmail, ⟨⟨text "7", text "ada@example.com", text "Ada"⟩, [], text "t"⟩, true, none⟩

/-- One call goes back to a savepoint after a failure and its mail is sent by a task that it does not wait for, the other ignores
that its mail was not enqueued. -/
theorem commit_reported_sign_ups : ∃ s : State Bool ℕ,
    (s.call true).phase = .resolved ∧ (s.call false).phase = .rejected .aborted ∧
    s.writes true = [.data 1, .job (exampleMail.job ada)] ∧ ∀ t, Truthful s t := by
  have check : ∃ s ∈ exec (step exampleMail) Settled (initial : State Bool ℕ)
      [.begin true false, .begin false false, .execute (.tx true) false (.query [.data 1]),
        .execute (.current 1) false (.savepoint (text "sp1")), .execute (.tx true) true (.query [.data 2]),
        .execute (.tx false) false (.query [.data 3]), .enqueue 2 ada true true, .execute (.tx true) false (.rollbackTo (text "sp1")),
        .spawn 1, .settle false false, .settle true false, .probe false false, .probe true false, .enqueue 3 ada false true,
        .commit true false, .rollback false],
      (s.call true).phase = .resolved ∧ (s.call false).phase = .rejected .aborted ∧
        s.writes true = [.data 1, .job (exampleMail.job ada)] := by decide
  obtain ⟨s, reached, resolved, rejected, writes⟩ := check
  exact ⟨s, resolved, rejected, writes, fun t => (commit_reported exampleMail (Run.of_exec reached) t).1⟩

/-- The mail of a task that is not waited for fails after the probe: the call resolves, and the user is not there. -/
theorem late_failure_unreported : ¬ ∀ (s : State Unit ℕ) (es : List (Event Unit ℕ)),
    Run (step exampleMail) (fun _ _ => True) initial es s → ∀ t, Truthful s t := by
  intro truthful
  have check : ∃ s ∈ exec (step exampleMail) (fun _ _ => True) (initial : State Unit ℕ)
      [.begin () false, .execute (.tx ()) false (.query [.data 1]), .spawn 1, .settle () false, .probe () false,
        .enqueue 2 ada true true, .commit () false],
      (s.call ()).phase = .resolved ∧ (s.call ()).outcome = .rolledBack := by decide
  obtain ⟨s, reached, resolved, rolledBack⟩ := check
  have committed := ((truthful s _ (Run.of_exec reached) ()).resolved resolved).1
  rw [rolledBack] at committed
  cases committed

end AuthTransaction
