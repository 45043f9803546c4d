import AppPlatform.Jobs.RedriveSafety
import AppPlatform.Lib.Value

/-!
# Redrive conservation

A move of a dead letter changes the table in its commit or not at all: one copy out, one job in.
-/

namespace Redrive
open Js Transactions
variable {τ : Type*} [DecidableEq τ]

omit [DecidableEq τ] in
theorem start_safe (c : Config τ) {s : State τ} (start : Start s) : Safe c s where
  base := {
    locked := fun r k wrote => (wrote (start.unwritten r k)).elim
    rows := start.used
    locks := fun k held => (held (start.unlocked k)).elim
    plain := fun r k row wrote => by simp [start.unwritten r k] at wrote }
  carries r := by
    rw [start.idle r]
    exact start.unwritten r
  once r r' copy row row' origin origin' moved := by
    rw [start.idle r] at moved
    cases moved

theorem run_safe {c : Config τ} {ok : State τ → Event τ → Prop} {s t : State τ} {es : List (Event τ)}
    (run : Runs.Run (step c) ok s es t) (safe : Safe c s) : Safe c t :=
  run.invariant (fun safe _ taken => step_safe safe taken) safe

theorem redrive_rows {c : Config τ} {s t : State τ} {e : Event τ} {r : τ} (actor : e.redrive? = some r)
    (taken : step c s e = some t) : t.db.rows = s.db.rows ∨
      ∃ copy row origin, e = .commit r ∧ s.phase r = .removed copy row origin ∧
        t.phase r = .moved copy row origin ∧ t.db.rows = (s.db.commit r).rows := by
  cases e with
  | begin | lock | check | delete | send | remove | rollback | crash =>
    left
    cases actor
    simp only [step] at taken
    repeat' split at taken
    all_goals
      cases taken
    all_goals rfl
  | commit r' =>
    cases actor
    simp only [step] at taken
    split at taken
    · rename_i copy row origin removed
      cases taken
      exact Or.inr ⟨copy, row, origin, rfl, removed, become_same _ _ _, rfl⟩
    · cases taken
  | _ => cases actor

omit [DecidableEq τ] in
theorem change_phase {s t : State τ} {k : Key} {before : JobState → Bool} {after : Row → Option Row}
    (taken : s.change k before after = some t) : t.phase = s.phase := by
  unfold State.change at taken
  repeat' split at taken
  all_goals cases taken
  rfl

omit [DecidableEq τ] in
theorem bury_phase {c : Config τ} {s t : State τ} {k : Key} {copyId : Text} {row : Row}
    (taken : s.bury c k copyId row = some t) : t.phase = s.phase := by
  unfold State.bury at taken
  repeat' split at taken
  all_goals cases taken
  all_goals rfl

theorem moved_stays {c : Config τ} {s t : State τ} {e : Event τ} (taken : step c s e = some t) {r : τ} {copy origin : Key}
    {row : Row} (moved : s.phase r = .moved copy row origin) : t.phase r = .moved copy row origin := by
  have other : ∀ {r' : τ} {p q : Phase}, s.phase r' = q → q ≠ .moved copy row origin →
      Function.update s.phase r' p r = .moved copy row origin := by
    intro r' p q at_ differs
    have elsewhere : r ≠ r' := by
      rintro rfl
      exact differs (at_.symm.trans moved)
    rw [Function.update_of_ne elsewhere, moved]
  cases e with
  | begin r' | lock r' | check r' | delete r' | send r' | remove r' | commit r' | rollback r' | crash r' | openTx r'
  | closeTx r' =>
    simp only [step] at taken
    repeat' split at taken
    all_goals
      cases taken
    all_goals exact other ‹s.phase r' = _› (by simp)
  | enqueue a k data priority =>
    simp only [step] at taken
    repeat' split at taken
    all_goals cases taken
    all_goals exact moved
  | fetch k | complete k | retry k =>
    simp only [step] at taken
    rw [change_phase taken, moved]
  | fail k copyId =>
    simp only [step] at taken
    split at taken
    · rename_i changed
      rw [bury_phase taken, change_phase changed, moved]
    · cases taken
  | sweep k =>
    simp only [step] at taken
    repeat' split at taken
    all_goals cases taken
    exact moved
  | queue | tick =>
    cases taken
    exact moved

/-- The commit of a move: what was in the table, and what is in it afterwards. -/
theorem commit_effect {c : Config τ} {s t : State τ} {r : τ} {copy origin : Key} {row : Row}
    (safe : Safe c s) (removed : s.phase r = .removed copy row origin) (rows : t.db.rows = (s.db.commit r).rows) :
    s.db.rows copy = some row ∧ (s.db.rows origin = none ∨ isFailed (s.db.rows origin) = true) ∧ copy ≠ origin ∧
      t.db.rows = Function.update (Function.update s.db.rows origin
        (some (c.fresh (s.started r) origin.1 row.data row.priority))) copy none := by
  have carries := safe.carries r
  rw [removed] at carries
  obtain ⟨holds, _, differs, _, _, _, before⟩ := carries
  exact ⟨holds.2, before, differs, rows.trans (commit_rows_eq safe removed)⟩

/-- `canRedrive` of the mail queue, which never lets authentication mail back. -/
def mailCanRedrive (toLowerCase : Text → Text) : Rule := fun data =>
  some (match data.field? (text "category") with
    | some (.str category) => category ≠ [] && !(text "auth.").isPrefixOf (toLowerCase category)
    | _ => false)

theorem redrive_conservation (c : Config τ) {s₀ s : State τ} {es : List (Event τ)} (start : Start s₀)
    (run : Runs.Run (step c) (fun _ _ => True) s₀ es s) :
    (∀ e r t, e.redrive? = some r → step c s e = some t →
      (∀ k, s.db.rows k ≠ none → t.db.rows k = none →
        ∃ row origin, e = .commit r ∧ t.phase r = .moved k row origin ∧ s.db.rows k = some row ∧
          row.origin = some origin ∧ t.db.rows = Function.update (Function.update s.db.rows origin
            (some (c.fresh (s.started r) origin.1 row.data row.priority))) k none) ∧
      (∀ k row, s.db.rows k = some row → t.db.rows k ≠ some row →
        row.state = .failed ∨ ∃ row' origin, t.phase r = .moved k row' origin) ∧
      ∀ fs u, Runs.Run (step c) (fun _ _ => True) t fs u → (∀ k row origin, u.phase r ≠ .moved k row origin) →
        t.db.rows = s.db.rows) ∧
    (∀ r r' k row row' origin origin', s.phase r = .moved k row origin → s.phase r' = .moved k row' origin' → r = r') ∧
    ∀ r k row origin, s.phase r = .moved k row origin → row.state.waiting = true ∧ s.started r < row.keepUntil ∧
      row.origin = some origin ∧ ∃ policy, c.policyFor r origin.1 = some policy ∧
        ∀ rule, policy = some rule → rule row.data = some true := by
  have safe := run_safe run (start_safe c start)
  refine ⟨fun e r t actor taken => ⟨fun k present gone => ?_, fun k row present changed => ?_, fun fs u later unmoved => ?_⟩,
    safe.once, fun r k row origin moved => ?_⟩
  · rcases redrive_rows actor taken with same | ⟨copy, row, origin, commits, removed, moved, rows⟩
    · rw [same] at gone
      exact (present gone).elim
    · obtain ⟨found, _, differs, after⟩ := commit_effect safe removed rows
      have isCopy : k = copy := by
        by_contra other
        rw [after, Function.update_of_ne other] at gone
        by_cases isOrigin : k = origin
        · rw [isOrigin, Function.update_self] at gone
          cases gone
        · rw [Function.update_of_ne isOrigin] at gone
          exact present gone
      subst isCopy
      have carries := safe.carries r
      rw [removed] at carries
      exact ⟨row, origin, commits, moved, found, carries.2.1.recorded, after⟩
  · rcases redrive_rows actor taken with same | ⟨copy, row', origin, _, removed, moved, rows⟩
    · rw [same] at changed
      exact (changed present).elim
    · obtain ⟨_, before, _, after⟩ := commit_effect safe removed rows
      by_cases isCopy : k = copy
      · subst isCopy
        exact Or.inr ⟨row', origin, moved⟩
      · left
        rw [after, Function.update_of_ne isCopy] at changed
        by_cases isOrigin : k = origin
        · subst isOrigin
          rcases before with absent | failed
          · rw [absent] at present
            cases present
          · rw [present] at failed
            exact of_decide_eq_true failed
        · rw [Function.update_of_ne isOrigin] at changed
          exact (changed present).elim
  · rcases redrive_rows actor taken with same | ⟨copy, row, origin, _, _, moved, _⟩
    · exact same
    · have kept := later.invariant (fun before _ taken => moved_stays taken before) moved
      exact (unmoved copy row origin kept).elim
  · have carries := safe.carries r
    rw [moved] at carries
    obtain ⟨picked, _⟩ := carries
    obtain ⟨policy, defined, permitted⟩ := picked.permitted
    refine ⟨picked.waiting, picked.kept, picked.recorded, policy, defined, ?_⟩
    rintro rule rfl
    exact of_decide_eq_true permitted

theorem auth_mail_stays {c : Config τ} {toLowerCase : Text → Text} {s₀ s : State τ} {es : List (Event τ)}
    (start : Start s₀) (run : Runs.Run (step c) (fun _ _ => True) s₀ es s)
    (defined : ∀ r, c.policyFor r (text "mail.send") = some (some (mailCanRedrive toLowerCase)))
    {r : τ} {k : Key} {row : Row} {id category : Text} (mail : row.data.field? (text "category") = some (.str category))
    (auth : (text "auth.").isPrefixOf (toLowerCase category) = true) :
    s.phase r ≠ .moved k row (text "mail.send", id) := by
  intro moved
  have carries := (run_safe run (start_safe c start)).carries r
  rw [moved] at carries
  obtain ⟨policy, same, permitted⟩ := carries.1.permitted
  cases (defined r).symm.trans same
  simp [allowed, mailCanRedrive, mail, auth] at permitted

def deadLetters : State ℕ where
  db := {
    rows := fun k =>
      if k = (text "q.dlq", text "1") then some ⟨.created, .null, 0, some (text "q"), some (text "0"), 10⟩
      else if k = (text "q", text "0") then some ⟨.failed, .null, 0, none, none, 10⟩ else none
    owner := fun _ => none
    writes := fun _ _ => none }
  phase _ := .idle
  started _ := 0
  queues _ := true
  now := 5
  used _ := true

theorem deadLetters_start : Start deadLetters := ⟨fun _ => rfl, fun _ => rfl, fun _ _ => rfl, fun _ _ => rfl⟩

def unruled : Config ℕ := ⟨fun _ _ => some none, fun _ => some (text "q.dlq"), fun _ => 100⟩

theorem redrive_conservation_moved : ∃ s : State ℕ, s.phase 1 = .moved (text "q.dlq", text "1")
      ⟨.created, .null, 0, some (text "q"), some (text "0"), 10⟩ (text "q", text "0") ∧
    s.phase 2 = .ended .taken ∧ ∀ r' row origin, s.phase r' = .moved (text "q.dlq", text "1") row origin → 1 = r' := by
  have run : ∃ s : State ℕ, Runs.Run (step unruled) (fun _ _ => True) deadLetters
      [.begin 1 (text "q.dlq", text "1"), .begin 2 (text "q.dlq", text "1"), .lock 1, .lock 2, .check 1, .delete 1,
        .rollback 2, .send 1, .remove 1, .commit 1] s ∧
      s.phase 1 = .moved (text "q.dlq", text "1") ⟨.created, .null, 0, some (text "q"), some (text "0"), 10⟩
        (text "q", text "0") ∧ s.phase 2 = .ended .taken :=
    ⟨_, .cons trivial rfl (.cons trivial rfl (.cons trivial rfl (.cons trivial rfl (.cons trivial rfl (.cons trivial rfl
      (.cons trivial rfl (.cons trivial rfl (.cons trivial rfl (.cons trivial rfl (.nil _)))))))))), rfl, rfl⟩
  obtain ⟨s, run, moved, taken⟩ := run
  have once := (redrive_conservation unruled deadLetters_start run).2.1
  exact ⟨s, moved, taken, fun r' row origin moved' => once _ _ _ _ _ _ _ moved moved'⟩

end Redrive
