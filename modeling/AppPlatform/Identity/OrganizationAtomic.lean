import AppPlatform.Identity.OrganizationSteps

/-!
# An organization and its owner

A transaction commits what all the creates in it wrote, so each of them has to have written both of its rows when the callback
returns. The pool commits a statement at once.
-/

namespace OrganizationCreate
open Js Postgres Runs
variable {κ : Type*}

/-- What the creates wrote is in the transactions of their contexts, and a callback that returned leaves no create half done. -/
structure Rows (s : State κ) : Prop where
  logged : ∀ t w kind, .data ⟨w, kind⟩ ∈ log s.db t ↔ s.current w = some t ∧ s.wrote w kind = true
  inside : ∀ w kind, s.wrote w kind = true → s.current w ≠ none
  alone : ∀ w kind, (none, .data ⟨w, kind⟩) ∉ s.db.committed
  order : ∀ w, s.wrote w .owner = true → s.wrote w .organization = true
  success : ∀ w answer, s.phase w = .closing answer ∨ s.phase w = .done answer → answer.failed = false →
    s.wrote w .organization = true → s.wrote w .owner = true
  whole : ∀ t, Returned (s.db.call t) → ∀ w, s.current w = some t → s.wrote w .organization = true → s.wrote w .owner = true

theorem initial_rows : Rows (initial : State κ) where
  logged _ _ _ := iff_of_false nofun nofun
  inside := nofun
  alone := nofun
  order := nofun
  success := nofun
  whole := nofun

/-- A step that writes neither row and changes no context. -/
theorem Rows.frame {s s' : State κ} (rows : Rows s) (current : s'.current = s.current) (wrote : s'.wrote = s.wrote)
    (same : ∀ t, log s'.db t = log s.db t) (alone : ∀ row, (none, row) ∈ s'.db.committed → (none, row) ∈ s.db.committed)
    (success : ∀ w answer, s'.phase w = .closing answer ∨ s'.phase w = .done answer → answer.failed = false →
      (s.phase w = .closing answer ∨ s.phase w = .done answer) ∨ (s.wrote w .organization = true → s.wrote w .owner = true))
    (whole : ∀ t, Returned (s'.db.call t) → Returned (s.db.call t) ∨
      ∀ w, s.current w = some t → s.wrote w .organization = true → s.wrote w .owner = true) : Rows s' where
  logged t w kind := by
    rw [same, current, wrote]
    exact rows.logged t w kind
  inside := by
    rw [current, wrote]
    exact rows.inside
  alone w kind there := rows.alone w kind (alone _ there)
  order := by
    rw [wrote]
    exact rows.order
  success w answer settled succeeded := by
    rw [wrote]
    rcases success w answer settled succeeded with before | both
    · exact rows.success w answer before succeeded
    · exact both
  whole t returned := by
    rw [current, wrote]
    rcases whole t returned with before | both
    · exact rows.whole t before
    · exact both

section
variable [DecidableEq κ]

theorem become_settled {s : State κ} {x : κ} {p : Phase} {B : κ → Prop}
    (new : ∀ answer, p = .closing answer ∨ p = .done answer → answer.failed = false → B x) :
    ∀ w answer, Function.update s.phase x p w = .closing answer ∨ Function.update s.phase x p w = .done answer →
      answer.failed = false → (s.phase w = .closing answer ∨ s.phase w = .done answer) ∨ B w := by
  intro w answer settled succeeded
  by_cases here : w = x
  · subst here
    rw [Function.update_self] at settled
    exact .inr (new answer settled succeeded)
  · rw [Function.update_of_ne here] at settled
    exact .inl settled

theorem Rows.enter {c : Config κ} {s : State κ} (rows : Rows s) (joined : Joined c s) {x : κ} (current : Option κ)
    (idle : s.phase x = .idle) : Rows ((s.run x current).become x (c.start x current)) := by
  have unwritten : ∀ kind, s.wrote x kind = false := by
    intro kind
    by_contra wrote
    exact rows.inside x kind (Bool.not_eq_false _ ▸ wrote) (joined.idle x idle)
  refine ⟨?_, ?_, rows.alone, rows.order, ?_, ?_⟩
  · intro t w kind
    change _ ∈ log s.db t ↔ Function.update s.current x current w = some t ∧ s.wrote w kind = true
    rw [rows.logged]
    by_cases here : w = x
    · subst here
      simp [unwritten]
    · rw [Function.update_of_ne here]
  · intro w kind wrote
    change Function.update s.current x current w ≠ none
    have here : w ≠ x := by
      rintro rfl
      cases (unwritten kind).symm.trans wrote
    rw [Function.update_of_ne here]
    exact rows.inside w kind wrote
  · intro w answer settled succeeded
    have both : s.wrote x .organization = true → s.wrote x .owner = true := fun wrote => by cases (unwritten _).symm.trans wrote
    rcases become_settled (B := fun w => s.wrote w .organization = true → s.wrote w .owner = true) (fun _ _ _ => both) w answer
      settled succeeded with before | both
    · exact rows.success w answer before succeeded
    · exact both
  · intro t returned w
    change Function.update s.current x current w = some t → _
    intro inside wrote
    have here : w ≠ x := by
      rintro rfl
      cases (unwritten _).symm.trans wrote
    rw [Function.update_of_ne here] at inside
    exact rows.whole t returned w inside wrote

theorem Rows.begun {auth : AuthTransaction.AuthMail} {c : Config κ} {s : State κ} (rows : Rows s) (joined : Joined c s) {x : κ}
    {db : AuthTransaction.State κ (Written κ)} (opening : s.phase x = .opening)
    (taken : AuthTransaction.step auth s.db (.begin x false) = some db) :
    Rows (((s.withDb db).run x (some x)).become x .running) := by
  obtain ⟨idle, others, committed, phase, empty⟩ := begin_taken taken
  have outside := joined.opening x opening
  have unwritten : ∀ kind, s.wrote x kind = false := by
    intro kind
    by_contra wrote
    exact rows.inside x kind (Bool.not_eq_false _ ▸ wrote) outside
  have unused : ∀ w, s.current w ≠ some x := fun w inside => joined.opened w x inside idle
  refine ⟨?_, ?_, ?_, rows.order, ?_, ?_⟩
  · intro t w kind
    change _ ∈ log db t ↔ Function.update s.current x (some x) w = some t ∧ s.wrote w kind = true
    by_cases own : t = x
    · subst own
      rw [empty]
      refine iff_of_false List.not_mem_nil ?_
      rintro ⟨inside, wrote⟩
      by_cases here : w = t
      · subst here
        cases (unwritten kind).symm.trans wrote
      · rw [Function.update_of_ne here] at inside
        exact unused w inside
    · have same : log db t = log s.db t := by
        unfold log
        rw [others t own]
      rw [same, rows.logged]
      by_cases here : w = x
      · subst here
        simp [unwritten]
      · rw [Function.update_of_ne here]
  · intro w kind wrote
    change Function.update s.current x (some x) w ≠ none
    by_cases here : w = x
    · subst here
      rw [Function.update_self]
      nofun
    · rw [Function.update_of_ne here]
      exact rows.inside w kind wrote
  · intro w kind there
    change _ ∈ db.committed at there
    rw [committed] at there
    exact rows.alone w kind there
  · intro w answer settled succeeded
    rcases become_settled (B := fun _ => False) (by rintro _ (running | running) <;> cases running) w answer settled succeeded
      with before | never
    · exact rows.success w answer before succeeded
    · exact never.elim
  · intro t returned w
    change Returned (db.call t) at returned
    change Function.update s.current x (some x) w = some t → _
    intro inside wrote
    by_cases own : t = x
    · subst own
      unfold Returned at returned
      rw [phase] at returned
      exact returned.elim
    · rw [others t own] at returned
      have here : w ≠ x := by
        rintro rfl
        cases (unwritten _).symm.trans wrote
      rw [Function.update_of_ne here] at inside
      exact rows.whole t returned w inside wrote

/-- What a call that succeeds has written. -/
theorem record_wrote (s : State κ) (x w : κ) (kind : Option Kind) (fails : Bool) (k : Kind) :
    (s.record x kind fails).wrote w k = true ↔ s.wrote w k = true ∨ (w = x ∧ kind = some k ∧ fails = false) := by
  unfold State.record
  cases kind with
  | none => simp
  | some kind =>
    cases fails with
    | true => simp
    | false =>
      by_cases here : w = x
      · subst here
        by_cases same : kind = k
        · subst same
          simp
        · simp [same, Ne.symm same]
      · simp [here]

omit [DecidableEq κ] in
theorem mem_rows {x w : κ} {kind : Option Kind} {k : Kind} : .data ⟨w, k⟩ ∈ rows x kind ↔ w = x ∧ kind = some k := by
  cases kind <;> simp [rows, eq_comm]

theorem Rows.executed {auth : AuthTransaction.AuthMail} {s s' : State κ} (before : Rows s) {x t : κ}
    {kind : Option Kind} {fails : Bool}
    (served : Served auth s s' x kind fails) (allowed : s.phase x = .running ∨ s.phase x = .looking ∧ kind = none)
    (first : kind = some .owner → s.wrote x .organization = true) (inside : s.current x = some t)
      (running : (s.db.call t).phase = .running)
    (executed : AuthTransaction.step auth s.db (.execute (.tx t) fails (.query (rows x kind))) = some s'.db)
    (wrote : s'.wrote = (s.record x kind ((s.db.call t).tx.aborted || fails)).wrote) : Rows s' := by
  obtain ⟨phases, committed, others, appended⟩ := execute_taken executed
  have grew : ∀ w k, s'.wrote w k = true ↔ s.wrote w k = true ∨
    (w = x ∧ kind = some k ∧ ((s.db.call t).tx.aborted || fails) = false) := by
    intro w k
    rw [wrote]
    exact record_wrote s x w kind _ k
  have same : ∀ {w}, w ≠ x → ∀ k, s'.wrote w k = true ↔ s.wrote w k = true := by
    intro w differs k
    rw [grew]
    exact or_iff_left fun now => differs now.1
  refine ⟨?_, ?_, ?_, ?_, ?_, ?_⟩
  · intro u w k
    rw [served.current, grew]
    by_cases own : u = t
    · subst own
      rw [appended, List.mem_append, before.logged]
      split
      · rename_i failed
        simp [failed]
      · rename_i succeeded
        rw [mem_rows, Bool.eq_false_iff.mpr succeeded]
        constructor
        · rintro (⟨there, wrote⟩ | ⟨rfl, rfl⟩)
          · exact ⟨there, .inl wrote⟩
          · exact ⟨inside, .inr ⟨rfl, rfl, rfl⟩⟩
        · rintro ⟨there, wrote | ⟨rfl, rfl, _⟩⟩
          · exact .inl ⟨there, wrote⟩
          · exact .inr ⟨rfl, rfl⟩
    · rw [log, others u own]
      refine (before.logged u w k).trans (and_congr_right fun there => (or_iff_left ?_).symm)
      rintro ⟨rfl, _⟩
      exact own (Option.some.inj (there.symm.trans inside))
  · intro w k wrote'
    rw [served.current]
    rcases (grew w k).mp wrote' with wrote' | ⟨rfl, _⟩
    · exact before.inside w k wrote'
    · rw [inside]
      exact Option.some_ne_none t
  · rw [committed]
    exact before.alone
  · intro w owner
    rw [grew]
    rcases (grew w _).mp owner with owner | ⟨rfl, kind, _⟩
    · exact .inl (before.order w owner)
    · exact .inl (first kind)
  · intro w answer settled succeeded
    rw [served.phase] at settled
    have differs : w ≠ x := by
      rintro rfl
      rcases allowed with running | ⟨looking, _⟩
      · rcases settled with settled | settled <;> cases running.symm.trans settled
      · rcases settled with settled | settled <;> cases looking.symm.trans settled
    rw [same differs, same differs]
    exact before.success w answer settled succeeded
  · intro u returned w there
    rw [served.current] at there
    have own : u ≠ t := by
      rintro rfl
      unfold Returned at returned
      rw [phases, running] at returned
      exact returned
    have differs : w ≠ x := by
      rintro rfl
      exact own (Option.some.inj (there.symm.trans inside))
    rw [others u own] at returned
    rw [same differs, same differs]
    exact before.whole u returned w there

theorem step_rows {auth : AuthTransaction.AuthMail} {c : Config κ} {s s' : State κ} {e : Event κ}
    (joined : Joined c s) (rows : Rows s)
    (contract : Contract c s e) (covered : Covered c s e) (taken : step auth c s e = some s') : Rows s' := by
  cases step_acted taken with
  | enter x current idle context same =>
    subst same
    exact rows.enter joined current idle
  | begin x db opening begun same =>
    subst same
    exact rows.begun joined opening begun
  | looked x lookup p looking next same =>
    subst same
    refine rows.frame rfl rfl (fun _ => rfl) (fun _ => id) (become_settled ?_) (fun _ => .inl)
    rintro answer settled _
    rcases next with rfl | ⟨rfl, _⟩ <;> rcases settled with settled | settled <;> cases settled
  | fail x db opening failed same =>
    subst same
    obtain ⟨_, others, committed, rejected, still⟩ := begin_taken failed
    refine rows.frame rfl rfl ?_ ?_ (become_settled ?_) ?_
    · intro t
      change log db t = log s.db t
      by_cases own : t = x
      · subst own
        exact still
      · unfold log
        rw [others t own]
    · intro row there
      change _ ∈ db.committed at there
      rwa [committed] at there
    · rintro answer (settled | settled) succeeded
      · cases settled
      · cases settled
        cases succeeded
    · intro t returned
      change Returned (db.call t) at returned
      by_cases own : t = x
      · subst own
        unfold Returned at returned
        rw [rejected] at returned
        exact returned.elim
      · rw [others t own] at returned
        exact .inl returned
  | call x kind fails allowed served =>
    have first : kind = some .owner → s.wrote x .organization = true := by
      rintro rfl
      exact contract.2 rfl
    rcases served.db with ⟨t, inside, running, executed, wrote⟩ | ⟨alone, db, wrote⟩
    · exact rows.executed served allowed first inside running executed wrote
    · -- outside a transaction neither row is written
      have quiet : fails = true ∨ kind = none := by
        cases kind with
        | none => exact .inr rfl
        | some kind =>
          cases kind with
          | organization => exact .inl (by_contra fun succeeds => covered (Bool.eq_false_iff.mpr succeeds) alone)
          | owner => exact (rows.inside x _ (first rfl) alone).elim
      have same : s'.db.committed = s.db.committed := by
        rw [db, autocommit]
        split
        · rfl
        · rename_i succeeds
          obtain rfl := quiet.resolve_left succeeds
          exact List.append_nil _
      have wrote : s'.wrote = s.wrote := by
        rw [wrote]
        rcases quiet with rfl | rfl
        · cases kind <;> rfl
        · rfl
      refine rows.frame served.current wrote ?_ ?_ ?_ ?_
      · intro t
        rw [db, log, autocommit_call, log]
      · rw [same]
        exact fun _ => id
      · rw [served.phase]
        exact fun _ _ settled _ => .inl settled
      · rw [db, autocommit_call]
        exact fun _ => .inl
  | settle x answer db running own settled same =>
    subst same
    obtain ⟨closed, throws⟩ := settle_taken settled
    refine rows.frame rfl rfl (closed.logs) closed.alone (become_settled ?_) ?_
    · rintro answer' (settled | settled) succeeded <;> cases settled
      exact contract succeeded
    · intro t returned
      change Returned (db.call t) at returned
      by_cases here : t = x
      · subst here
        obtain ⟨returns, live⟩ := throws returned
        obtain ⟨outer, inner⟩ := covered own returns live
        refine .inr fun w inside wrote => ?_
        by_cases itself : w = t
        · subst itself
          exact contract (outer wrote) wrote
        · obtain ⟨answer', ended, succeeded⟩ := inner w itself (joined.within w t inside) wrote
          exact rows.success w answer' (.inr ended) succeeded wrote
      · rw [closed.others t here] at returned
        exact .inl returned
  | answer x answer running other same =>
    subst same
    refine rows.frame rfl rfl (fun _ => rfl) (fun _ => id) (become_settled ?_) (fun _ => .inl)
    rintro answer' (settled | settled) succeeded <;> cases settled
    exact contract succeeded
  | close x closing db closed same =>
    subst same
    obtain ⟨closed, returned⟩ := closing_taken closed
    refine rows.frame rfl rfl closed.logs closed.alone (fun _ _ settled _ => .inl settled) ?_
    intro t returned'
    change Returned (db.call t) at returned'
    by_cases here : t = x
    · subst here
      exact .inl (returned returned')
    · rw [closed.others t here] at returned'
      exact .inl returned'
  | leave x answer answer' closing told same =>
    subst same
    refine rows.frame rfl rfl (fun _ => rfl) (fun _ => id) (become_settled ?_) (fun _ => .inl)
    rintro answer'' (settled | settled) succeeded
    · cases settled
    · cases settled
      rcases told with rfl | rfl
      · exact rows.success x answer' (.inl closing) succeeded
      · cases succeeded

/-! ### Whole runs -/

structure Faithful (s : State κ) : Prop where
  consistent : ∀ t, AuthTransaction.Consistent s.db t
  punctual : Punctual s.db

theorem autocommit_consistent {s : State κ} (faithful : Faithful s) (x : κ) (kind : Option Kind) (fails : Bool) (t : κ) :
    AuthTransaction.Consistent (autocommit s.db x kind fails) t := by
  unfold autocommit
  split
  · exact faithful.consistent t
  · cases kind with
    | none =>
      rw [show (OrganizationCreate.rows x none).map (fun row => (none, row)) = [] from rfl, List.append_nil]
      exact faithful.consistent t
    | some kind => exact (faithful.consistent t).autocommit _

theorem step_faithful {auth : AuthTransaction.AuthMail} {c : Config κ} {s s' : State κ} {e : Event κ} (faithful : Faithful s)
    (taken : step auth c s e = some s') : Faithful s' := by
  obtain ⟨consistent, punctual⟩ := faithful
  cases step_acted taken with
  | enter x current _ _ same =>
    subst same
    exact ⟨consistent, punctual⟩
  | looked x lookup p _ _ same =>
    subst same
    exact ⟨consistent, punctual⟩
  | fail x db _ failed same =>
    subst same
    exact ⟨AuthTransaction.step_consistent (e := .begin x true) consistent trivial failed, punctual.begin failed⟩
  | begin x db _ begun same =>
    subst same
    exact ⟨AuthTransaction.step_consistent (e := .begin x false) consistent trivial begun, punctual.begin begun⟩
  | call x kind fails _ served =>
    rcases served.db with ⟨t, _, running, executed, _⟩ | ⟨_, db, _⟩
    · exact ⟨AuthTransaction.step_consistent (e := .execute (.tx t) fails _) consistent trivial executed,
        punctual.execute running executed⟩
    · constructor
      · rw [db]
        exact autocommit_consistent ⟨consistent, punctual⟩ x kind fails
      · intro t
        rw [db, autocommit_call]
        exact punctual t
  | settle x answer db _ _ settled same =>
    subst same
    exact ⟨AuthTransaction.step_consistent (e := .settle x _) consistent trivial settled, punctual.settle settled⟩
  | answer x answer _ _ same =>
    subst same
    exact ⟨consistent, punctual⟩
  | close x closing db closed same =>
    subst same
    have prompt : AuthTransaction.Settled s.db (closing.event x) := by
      cases closing with
      | commit fails => exact fun late => absurd late (by rw [punctual x]; exact Bool.false_ne_true)
      | probe fails => trivial
      | rollback => trivial
    exact ⟨AuthTransaction.step_consistent consistent prompt closed, punctual.close closed⟩
  | leave x answer answer' _ _ same =>
    subst same
    exact ⟨consistent, punctual⟩

theorem mem_writes {db : AuthTransaction.State κ (Written κ)} {t : κ} {row : AuthTransaction.Row (Written κ)} :
    row ∈ db.writes t ↔ (some t, row) ∈ db.committed := by
  unfold AuthTransaction.State.writes
  rw [List.mem_map]
  constructor
  · rintro ⟨⟨u, row'⟩, member, rfl⟩
    obtain ⟨there, own⟩ := List.mem_filter.mp member
    obtain rfl : u = some t := of_decide_eq_true own
    exact there
  · intro there
    exact ⟨(some t, row), List.mem_filter.mpr ⟨there, decide_eq_true rfl⟩, rfl⟩

/-- A row is committed by the transaction of the context, and only once that has returned. -/
theorem committed_iff {s : State κ} (faithful : Faithful s) (rows : Rows s) (x : κ) (kind : Kind) :
    Committed s x kind ↔ ∃ t, (s.db.call t).phase = .resolved ∧ s.current x = some t ∧ s.wrote x kind = true := by
  constructor
  · rintro ⟨t, there⟩
    cases t with
    | none => exact (rows.alone x kind there).elim
    | some t =>
      have member := mem_writes.mpr there
      by_cases resolved : (s.db.call t).phase = .resolved
      · rw [((faithful.consistent t).resolved resolved).2] at member
        exact ⟨t, resolved, (rows.logged t x kind).mp member⟩
      · rw [((faithful.consistent t).otherwise resolved).2] at member
        cases member
  · rintro ⟨t, resolved, wrote⟩
    refine ⟨some t, mem_writes.mp ?_⟩
    rw [((faithful.consistent t).resolved resolved).2]
    exact (rows.logged t x kind).mpr wrote

end

/-! ### Organizations without an owner -/

def postCreate : Request := ⟨text "POST", text "/api/auth/organization/create", true, false⟩

def oneRequest : Config Unit := ⟨text "/api/auth", fun _ => .http postCreate, fun _ => none⟩

def oneCall : Config Unit := ⟨text "/api/auth", fun _ => .api true, fun _ => none⟩

/-- A request, and a create inside the hooks of another. -/
def nestedCreate : Config Bool :=
  ⟨text "/api/auth", fun outer => if outer then .api true else .http postCreate, fun outer => if outer then none else some true⟩

/-- The library keeps to its contract, and an organization is committed without its owner. -/
def Torn {κ : Type} [DecidableEq κ] (c : Config κ) : Prop :=
  ∃ events s, Run (step AuthTransaction.exampleMail c) (Contract c) initial events s ∧
    ∃ x, Committed s x .organization ∧ ¬ Committed s x .owner

theorem torn {κ : Type} [DecidableEq κ] {c : Config κ} {events : List (Event κ)} {s : State κ} {x : κ} {t : Option κ}
    (run : Run (step AuthTransaction.exampleMail c) (Contract c) initial events s)
    (organization : (t, .data ⟨x, .organization⟩) ∈ s.db.committed)
    (owner : ∀ entry ∈ s.db.committed, entry.2 ≠ .data ⟨x, .owner⟩) : Torn c := by
  refine ⟨events, s, run, x, ⟨t, organization⟩, ?_⟩
  rintro ⟨t', there⟩
  exact owner _ there rfl

end OrganizationCreate
