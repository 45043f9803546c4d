import AppPlatform.Identity.AuthCommit
import AppPlatform.Identity.OrganizationCreate

/-!
# What a step of a create does

The end of a transaction goes through the database in several steps. A call has the context of the call it is made in, and it opens
a transaction only when that context has none.
-/

namespace OrganizationCreate
open Js Postgres Runs
variable {κ : Type*}

/-- The rows the transaction would commit. -/
def log (db : AuthTransaction.State κ (Written κ)) (t : κ) : List (AuthTransaction.Row (Written κ)) := kept 0 (db.call t).tx.log

/-- The callback has returned, and nothing has failed. -/
def Returned (call : AuthTransaction.Call (Written κ)) : Prop :=
  match call.phase with
  | .returned => call.tx.aborted = false
  | .probed | .resolved => True
  | _ => False

section
variable [DecidableEq κ]

/-! ### The transaction of the adapter -/

theorem begin_taken {auth : AuthTransaction.AuthMail} {db db' : AuthTransaction.State κ (Written κ)} {x : κ} {fails : Bool}
    (taken : AuthTransaction.step auth db (.begin x fails) = some db') :
    (db.call x).phase = .idle ∧ (∀ t, t ≠ x → db'.call t = db.call t) ∧ db'.committed = db.committed ∧
    if fails then (db'.call x).phase = .rejected .database ∧ log db' x = log db x
    else (db'.call x).phase = .running ∧ log db' x = [] := by
  simp only [AuthTransaction.step] at taken
  split at taken
  · rename_i idle
    split at taken
    · rename_i fails
      cases taken
      refine ⟨idle, fun t differs => AuthTransaction.put_other _ _ differs, rfl, ?_⟩
      rw [if_pos fails, log, AuthTransaction.put_same]
      exact ⟨rfl, rfl⟩
    · rename_i begins
      cases taken
      refine ⟨idle, fun t differs => AuthTransaction.put_other _ _ differs, rfl, ?_⟩
      rw [if_neg begins, log]
      dsimp only
      rw [AuthTransaction.put_same]
      exact ⟨rfl, rfl⟩
  · cases taken

theorem execute_taken {auth : AuthTransaction.AuthMail} {db db' : AuthTransaction.State κ (Written κ)} {t : κ} {fails : Bool}
    {rows : List (AuthTransaction.Row (Written κ))}
    (taken : AuthTransaction.step auth db (.execute (.tx t) fails (.query rows)) = some db') :
    (∀ u, (db'.call u).phase = (db.call u).phase) ∧ db'.committed = db.committed ∧
    (∀ u, u ≠ t → db'.call u = db.call u) ∧
    log db' t = log db t ++ if (db.call t).tx.aborted || fails then [] else rows := by
  have executed : db.execute t fails (.query rows) = some db' := taken
  unfold AuthTransaction.State.execute at executed
  split at executed
  · cases executed
    refine ⟨?_, rfl, ?_, ?_⟩
    · intro u
      by_cases same : u = t
      · subst same
        rw [AuthTransaction.put_same]
      · rw [AuthTransaction.put_other _ _ same]
    · exact fun u differs => AuthTransaction.put_other _ _ differs
    · rw [log, log, AuthTransaction.put_same]
      dsimp only
      rw [Tx.execute]
      split
      · exact (List.append_nil _).symm
      · exact kept_wrote _ _ _
  · cases executed

/-- No statement was sent after a probe. -/
def Punctual (db : AuthTransaction.State κ (Written κ)) : Prop := ∀ t, (db.call t).late = false

theorem Punctual.put {db : AuthTransaction.State κ (Written κ)} (punctual : Punctual db) (t : κ)
    {call : AuthTransaction.Call (Written κ)} (late : call.late = false) : Punctual (db.put t call) := by
  intro u
  by_cases same : u = t
  · subst same
    rw [AuthTransaction.put_same]
    exact late
  · rw [AuthTransaction.put_other _ _ same]
    exact punctual u

theorem Punctual.execute {db db' : AuthTransaction.State κ (Written κ)} (punctual : Punctual db) {t : κ} {fails : Bool}
    {st : Statement Text (AuthTransaction.Row (Written κ))} (running : (db.call t).phase = .running)
    (executed : db.execute t fails st = some db') : Punctual db' := by
  unfold AuthTransaction.State.execute at executed
  split at executed
  · cases executed
    refine punctual.put t ?_
    simp [punctual t, running]
  · cases executed

theorem Punctual.begin {auth : AuthTransaction.AuthMail} {db db' : AuthTransaction.State κ (Written κ)} (punctual : Punctual db)
    {x : κ} {fails : Bool} (taken : AuthTransaction.step auth db (.begin x fails) = some db') : Punctual db' := by
  simp only [AuthTransaction.step] at taken
  split at taken
  · split at taken
    · cases taken
      exact punctual.put x (punctual x)
    · cases taken
      exact punctual.put x rfl
  · cases taken

theorem Punctual.settle {auth : AuthTransaction.AuthMail} {db db' : AuthTransaction.State κ (Written κ)} (punctual : Punctual db)
    {x : κ} {throws : Bool} (taken : AuthTransaction.step auth db (.settle x throws) = some db') : Punctual db' := by
  simp only [AuthTransaction.step] at taken
  split at taken
  · cases taken
    exact punctual.put x (punctual x)
  · cases taken

theorem Punctual.close {auth : AuthTransaction.AuthMail} {db db' : AuthTransaction.State κ (Written κ)} (punctual : Punctual db)
    {x : κ} {closing : Closing} (taken : AuthTransaction.step auth db (closing.event x) = some db') : Punctual db' := by
  cases closing with
  | probe fails =>
    simp only [Closing.event, AuthTransaction.step] at taken
    split at taken
    · cases taken
      exact punctual.put x (punctual x)
    · cases taken
  | commit fails =>
    simp only [Closing.event, AuthTransaction.step] at taken
    split at taken
    · split at taken
      · cases taken
        exact punctual.put x (punctual x)
      · cases taken
        unfold AuthTransaction.State.commit
        split
        · exact punctual.put x (punctual x)
        · have resolved : Punctual (db.put x { db.call x with phase := .resolved, outcome := .committed }) :=
            punctual.put x (punctual x)
          exact resolved
    · cases taken
  | rollback =>
    simp only [Closing.event, AuthTransaction.step] at taken
    split at taken
    · cases taken
      exact punctual.put x (punctual x)
    · cases taken

/-- The callback settles, or the transaction goes on from there. -/
structure Closed (x : κ) (db db' : AuthTransaction.State κ (Written κ)) : Prop where
  others : ∀ t, t ≠ x → db'.call t = db.call t
  same : log db' x = log db x
  alone : ∀ row, (none, row) ∈ db'.committed → (none, row) ∈ db.committed
  begun : (db.call x).phase ≠ .idle
  ended : (db'.call x).phase ≠ .idle
  stopped : (db'.call x).phase ≠ .running

theorem Closed.logs {db db' : AuthTransaction.State κ (Written κ)} {x : κ} (closed : Closed x db db')
    (t : κ) : log db' t = log db t := by
  by_cases here : t = x
  · subst here
    exact closed.same
  · unfold log
    rw [closed.others t here]

theorem put_closed {db : AuthTransaction.State κ (Written κ)} {x : κ} {call : AuthTransaction.Call (Written κ)}
    (same : kept 0 call.tx.log = log db x) (begun : (db.call x).phase ≠ .idle) (ended : call.phase ≠ .idle)
    (stopped : call.phase ≠ .running) : Closed x db (db.put x call) := by
  refine ⟨fun t differs => AuthTransaction.put_other _ _ differs, ?_, fun _ there => there, begun, ?_, ?_⟩
  · rw [log, AuthTransaction.put_same]
    exact same
  · rw [AuthTransaction.put_same]
    exact ended
  · rw [AuthTransaction.put_same]
    exact stopped

omit [DecidableEq κ] in
theorem execute_live {tx : Tx Text (AuthTransaction.Row (Written κ))} {fails : Bool}
    {rows : List (AuthTransaction.Row (Written κ))} (live : (tx.execute fails (.query rows)).aborted = false) : tx.aborted = false := by
  rw [Tx.execute] at live
  split at live
  · cases live
  · exact live

theorem settle_taken {auth : AuthTransaction.AuthMail} {db db' : AuthTransaction.State κ (Written κ)} {x : κ} {throws : Bool}
    (taken : AuthTransaction.step auth db (.settle x throws) = some db') :
    Closed x db db' ∧ (Returned (db'.call x) → throws = false ∧ (db.call x).tx.aborted = false) := by
  simp only [AuthTransaction.step] at taken
  split at taken
  · rename_i running
    cases taken
    refine ⟨put_closed rfl (ne_of_eq_of_ne running (fun same => by cases same)) ?_ ?_, ?_⟩
    · cases throws <;> exact fun same => by cases same
    · cases throws <;> exact fun same => by cases same
    · rw [AuthTransaction.put_same]
      cases throws
      · exact fun live => ⟨rfl, live⟩
      · exact fun returned => returned.elim
  · cases taken

theorem commit_closed {db : AuthTransaction.State κ (Written κ)} {x : κ} (probed : (db.call x).phase = .probed) :
    Closed x db (db.commit x) := by
  unfold AuthTransaction.State.commit
  split
  · exact put_closed rfl (ne_of_eq_of_ne probed (fun same => by cases same)) (fun same => by cases same) (fun same => by cases same)
  · have closed : Closed x db (db.put x { db.call x with phase := .resolved, outcome := .committed }) :=
      put_closed rfl (ne_of_eq_of_ne probed (fun same => by cases same)) (fun same => by cases same) (fun same => by cases same)
    refine ⟨closed.others, closed.same, ?_, closed.begun, closed.ended, closed.stopped⟩
    intro row there
    rcases List.mem_append.mp there with there | there
    · exact there
    · obtain ⟨_, _, same⟩ := List.mem_map.mp there
      cases same

theorem closing_taken {auth : AuthTransaction.AuthMail} {db db' : AuthTransaction.State κ (Written κ)} {x : κ} {closing : Closing}
    (taken : AuthTransaction.step auth db (closing.event x) = some db') :
    Closed x db db' ∧ (Returned (db'.call x) → Returned (db.call x)) := by
  cases closing with
  | probe fails =>
    simp only [Closing.event, AuthTransaction.step] at taken
    split at taken
    · rename_i returned
      cases taken
      refine ⟨put_closed ?_ (ne_of_eq_of_ne returned (fun same => by cases same)) ?_ ?_, ?_⟩
      · dsimp only
        rw [Tx.execute]
        split
        · rfl
        · exact (kept_wrote _ _ _).trans (List.append_nil _)
      · dsimp only
        split <;> exact fun same => by cases same
      · dsimp only
        split <;> exact fun same => by cases same
      · rw [AuthTransaction.put_same]
        intro returned'
        unfold Returned at returned' ⊢
        rw [returned]
        by_cases aborted : ((db.call x).tx.execute fails (.query [])).aborted = true
        · simp [aborted] at returned'
        · exact execute_live (Bool.eq_false_iff.mpr aborted)
    · cases taken
  | commit fails =>
    simp only [Closing.event, AuthTransaction.step] at taken
    split at taken
    · rename_i probed
      have returned : Returned (db.call x) := by
        unfold Returned
        rw [probed]
        trivial
      split at taken
      · cases taken
        exact ⟨put_closed rfl (ne_of_eq_of_ne probed (fun same => by cases same)) (fun same => by cases same)
          (fun same => by cases same), fun _ => returned⟩
      · cases taken
        exact ⟨commit_closed probed, fun _ => returned⟩
    · cases taken
  | rollback =>
    simp only [Closing.event, AuthTransaction.step] at taken
    split at taken
    · rename_i failing
      cases taken
      refine ⟨put_closed rfl (ne_of_eq_of_ne failing (fun same => by cases same)) (fun same => by cases same)
        (fun same => by cases same), ?_⟩
      rw [AuthTransaction.put_same]
      exact fun returned => returned.elim
    · cases taken

/-! ### Contexts -/

/-- The call of the library itself has started. -/
def Phase.began : Phase → Prop
  | .running | .closing _ | .done _ => True
  | _ => False

/-- A call made inside another has its context, and no transaction of its own if that has one. -/
structure Joined (c : Config κ) (s : State κ) : Prop where
  began : ∀ x d, c.inside x = some d → s.phase x ≠ .idle → (s.phase d).began
  joins : ∀ x d t, c.inside x = some d → s.phase x ≠ .idle → s.current d = some t → s.current x = some t
  top : ∀ x d, s.current x = some x → c.inside x = some d → s.current d = none
  within : ∀ x t, s.current x = some t → c.Within t x
  idle : ∀ x, s.phase x = .idle → s.current x = none
  opening : ∀ x, s.phase x = .opening → s.current x = none
  unopened : ∀ x, s.current x ≠ some x → (s.db.call x).phase = .idle ∨ s.current x = none ∧ s.phase x = .done .threw
  opened : ∀ x t, s.current x = some t → (s.db.call t).phase ≠ .idle
  served : ∀ x t, (x, some t) ∈ s.served → c.Within t x

omit [DecidableEq κ] in
theorem initial_joined (c : Config κ) : Joined c (initial : State κ) where
  began _ _ _ started := (started rfl).elim
  joins _ _ _ _ started := (started rfl).elim
  top := nofun
  within := nofun
  idle _ _ := rfl
  opening := nofun
  unopened _ _ := .inl rfl
  opened := nofun
  served := nofun

/-- A step that leaves every context as it is. -/
structure Moved (s s' : State κ) : Prop where
  current : s'.current = s.current
  idle : ∀ x, s'.phase x = .idle ↔ s.phase x = .idle
  began : ∀ x, (s.phase x).began → (s'.phase x).began
  done : ∀ x answer, s.phase x = .done answer → s'.phase x = .done answer
  opening : ∀ x, s'.phase x = .opening → s.current x = none
  unopened : ∀ x, (s.db.call x).phase = .idle → (s'.db.call x).phase = .idle ∨ s.current x = none ∧ s'.phase x = .done .threw
  opened : ∀ x, (s.db.call x).phase ≠ .idle → (s'.db.call x).phase ≠ .idle
  served : ∀ x t, (x, some t) ∈ s'.served → (x, some t) ∈ s.served ∨ s.current x = some t

omit [DecidableEq κ] in
theorem Joined.moved {c : Config κ} {s s' : State κ} (joined : Joined c s) (moved : Moved s s') : Joined c s' where
  began x d inside started := moved.began d (joined.began x d inside fun idle => started ((moved.idle x).mpr idle))
  joins x d t inside started := by
    rw [moved.current]
    exact joined.joins x d t inside fun idle => started ((moved.idle x).mpr idle)
  top := by
    rw [moved.current]
    exact joined.top
  within := by
    rw [moved.current]
    exact joined.within
  idle x idle := by
    rw [moved.current]
    exact joined.idle x ((moved.idle x).mp idle)
  opening x opening := by
    rw [moved.current]
    exact moved.opening x opening
  unopened x other := by
    rw [moved.current] at other ⊢
    rcases joined.unopened x other with idle | ⟨alone, threw⟩
    · exact moved.unopened x idle
    · exact .inr ⟨alone, moved.done x _ threw⟩
  opened x t := by
    rw [moved.current]
    exact fun current => moved.opened t (joined.opened x t current)
  served x t member := by
    rcases moved.served x t member with before | current
    · exact joined.served x t before
    · exact joined.within x t current

omit [DecidableEq κ] in
theorem context_cases {c : Config κ} {s : State κ} {x : κ} {current : Option κ} (context : c.context s x = some current) :
    (c.inside x = none ∧ current = none) ∨ ∃ d, c.inside x = some d ∧ s.phase d = .running ∧ current = s.current d := by
  unfold Config.context at context
  split at context
  · rename_i outermost
    exact .inl ⟨outermost, (Option.some.inj context).symm⟩
  · rename_i d inside
    split at context
    · rename_i running
      exact .inr ⟨d, inside, running, (Option.some.inj context).symm⟩
    · cases context

omit [DecidableEq κ] in
theorem atomically_eq (current : Option κ) :
    (atomically current = .running ∧ current ≠ none) ∨ (atomically current = .opening ∧ current = none) := by
  cases current with
  | none => exact .inr ⟨rfl, rfl⟩
  | some t => exact .inl ⟨rfl, nofun⟩

omit [DecidableEq κ] in
theorem start_eq (c : Config κ) (x : κ) (current : Option κ) :
    c.start x current = .running ∨ c.start x current = .looking ∨ (c.start x current = .opening ∧ current = none) := by
  unfold Config.start
  split
  · split
    · rcases atomically_eq current with ⟨joins, _⟩ | ⟨opens, none⟩
      · exact .inl joins
      · exact .inr (.inr ⟨opens, none⟩)
    · exact .inl rfl
  · split
    · exact .inl rfl
    · split
      · exact .inl rfl
      · exact .inr (.inl rfl)

theorem Joined.enter {c : Config κ} {s : State κ} (joined : Joined c s) {x : κ} {current : Option κ} (idle : s.phase x = .idle)
    (context : c.context s x = some current) : Joined c ((s.run x current).become x (c.start x current)) := by
  have outside := joined.idle x idle
  have unopened : (s.db.call x).phase = .idle := by
    rcases joined.unopened x (by rw [outside]; nofun) with unopened | ⟨_, threw⟩
    · exact unopened
    · cases idle.symm.trans threw
  have busy : ∀ {d}, (s.phase d).began → d ≠ x := by
    rintro d began rfl
    rw [idle] at began
    exact began
  have started : ∀ {y}, y ≠ x → (Function.update s.phase x (c.start x current)) y ≠ .idle → s.phase y ≠ .idle := by
    intro y differs started
    rwa [Function.update_of_ne differs] at started
  constructor
  · intro y d inside phase
    change (Function.update s.phase x (c.start x current) d).began
    by_cases here : y = x
    · subst here
      rcases context_cases context with ⟨outermost, _⟩ | ⟨d', inside', running, _⟩
      · cases outermost.symm.trans inside
      · obtain rfl := Option.some.inj (inside.symm.trans inside')
        have began : (s.phase d).began := by rw [running]; trivial
        rwa [Function.update_of_ne (busy began)]
    · have began := joined.began y d inside (started here phase)
      rwa [Function.update_of_ne (busy began)]
  · intro y d t inside phase
    change Function.update s.current x current d = some t → Function.update s.current x current y = some t
    by_cases here : y = x
    · subst here
      rcases context_cases context with ⟨outermost, _⟩ | ⟨d', inside', running, same⟩
      · cases outermost.symm.trans inside
      · obtain rfl := Option.some.inj (inside.symm.trans inside')
        have began : (s.phase d).began := by rw [running]; trivial
        rw [Function.update_of_ne (busy began), Function.update_self, same]
        exact id
    · have began := joined.began y d inside (started here phase)
      rw [Function.update_of_ne (busy began), Function.update_of_ne here]
      exact joined.joins y d t inside (started here phase)
  · intro y d
    change Function.update s.current x current y = some y → c.inside y = some d → Function.update s.current x current d = none
    by_cases here : y = x
    · subst here
      rw [Function.update_self]
      rintro rfl inside
      rcases context_cases context with ⟨_, none⟩ | ⟨d', _, _, same⟩
      · cases none
      · exact (joined.opened d' y same.symm unopened).elim
    · rw [Function.update_of_ne here]
      intro own inside
      have began := joined.began y d inside fun idle => by cases (joined.idle y idle).symm.trans own
      rw [Function.update_of_ne (busy began)]
      exact joined.top y d own inside
  · intro y t
    change Function.update s.current x current y = some t → c.Within t y
    by_cases here : y = x
    · subst here
      rw [Function.update_self]
      rintro rfl
      rcases context_cases context with ⟨_, none⟩ | ⟨d, inside, _, same⟩
      · cases none
      · exact .head inside (joined.within d t same.symm)
    · rw [Function.update_of_ne here]
      exact joined.within y t
  · intro y
    change Function.update s.phase x (c.start x current) y = .idle → Function.update s.current x current y = none
    by_cases here : y = x
    · subst here
      rw [Function.update_self]
      intro still
      rcases start_eq c y current with phase | phase | ⟨phase, _⟩ <;> cases phase.symm.trans still
    · rw [Function.update_of_ne here, Function.update_of_ne here]
      exact joined.idle y
  · intro y
    change Function.update s.phase x (c.start x current) y = .opening → Function.update s.current x current y = none
    by_cases here : y = x
    · subst here
      rw [Function.update_self, Function.update_self]
      intro opening
      rcases start_eq c y current with phase | phase | ⟨_, none⟩
      · cases phase.symm.trans opening
      · cases phase.symm.trans opening
      · exact none
    · rw [Function.update_of_ne here, Function.update_of_ne here]
      exact joined.opening y
  · intro y
    change Function.update s.current x current y ≠ some y → (s.db.call y).phase = .idle ∨
      Function.update s.current x current y = none ∧ Function.update s.phase x (c.start x current) y = .done .threw
    by_cases here : y = x
    · subst here
      exact fun _ => .inl unopened
    · rw [Function.update_of_ne here, Function.update_of_ne here]
      exact joined.unopened y
  · intro y t
    change Function.update s.current x current y = some t → (s.db.call t).phase ≠ .idle
    by_cases here : y = x
    · subst here
      rw [Function.update_self]
      rintro rfl
      rcases context_cases context with ⟨_, none⟩ | ⟨d, _, _, same⟩
      · cases none
      · exact joined.opened d t same.symm
    · rw [Function.update_of_ne here]
      exact joined.opened y t
  · exact joined.served

theorem Joined.begun {auth : AuthTransaction.AuthMail} {c : Config κ} {s : State κ} (joined : Joined c s) {x : κ}
    {db : AuthTransaction.State κ (Written κ)} (opening : s.phase x = .opening)
    (taken : AuthTransaction.step auth s.db (.begin x false) = some db) :
    Joined c (((s.withDb db).run x (some x)).become x .running) := by
  obtain ⟨_, others, _, phase, _⟩ := begin_taken taken
  have outside := joined.opening x opening
  have busy : ∀ {d}, (s.phase d).began → d ≠ x := by
    rintro d began rfl
    rw [opening] at began
    exact began
  have started : ∀ {y}, (Function.update s.phase x .running) y ≠ .idle → s.phase y ≠ .idle := by
    intro y started
    by_cases here : y = x
    · subst here
      rw [opening]
      nofun
    · rwa [Function.update_of_ne here] at started
  constructor
  · intro y d inside phase
    have began := joined.began y d inside (started phase)
    change (Function.update s.phase x .running d).began
    rwa [Function.update_of_ne (busy began)]
  · intro y d t inside phase
    have began := joined.began y d inside (started phase)
    change Function.update s.current x (some x) d = some t → Function.update s.current x (some x) y = some t
    rw [Function.update_of_ne (busy began)]
    intro current
    have joins := joined.joins y d t inside (started phase) current
    rwa [Function.update_of_ne]
    rintro rfl
    cases outside.symm.trans joins
  · intro y d
    change Function.update s.current x (some x) y = some y → c.inside y = some d → Function.update s.current x (some x) d = none
    by_cases here : y = x
    · subst here
      intro _ inside
      have began := joined.began y d inside (by rw [opening]; nofun)
      rw [Function.update_of_ne (busy began)]
      by_contra other
      obtain ⟨t, current⟩ := Option.ne_none_iff_exists'.mp other
      cases outside.symm.trans (joined.joins y d t inside (by rw [opening]; nofun) current)
    · rw [Function.update_of_ne here]
      intro own inside
      have began := joined.began y d inside fun idle => by cases (joined.idle y idle).symm.trans own
      rw [Function.update_of_ne (busy began)]
      exact joined.top y d own inside
  · intro y t
    change Function.update s.current x (some x) y = some t → c.Within t y
    by_cases here : y = x
    · subst here
      rw [Function.update_self]
      rintro ⟨⟩
      exact .refl
    · rw [Function.update_of_ne here]
      exact joined.within y t
  · intro y
    change Function.update s.phase x .running y = .idle → Function.update s.current x (some x) y = none
    by_cases here : y = x
    · subst here
      rw [Function.update_self]
      nofun
    · rw [Function.update_of_ne here, Function.update_of_ne here]
      exact joined.idle y
  · intro y
    change Function.update s.phase x .running y = .opening → Function.update s.current x (some x) y = none
    by_cases here : y = x
    · subst here
      rw [Function.update_self]
      nofun
    · rw [Function.update_of_ne here, Function.update_of_ne here]
      exact joined.opening y
  · intro y
    change Function.update s.current x (some x) y ≠ some y → (db.call y).phase = .idle ∨
      Function.update s.current x (some x) y = none ∧ Function.update s.phase x .running y = .done .threw
    by_cases here : y = x
    · subst here
      rw [Function.update_self]
      exact fun other => (other rfl).elim
    · rw [Function.update_of_ne here, Function.update_of_ne here, others y here]
      exact joined.unopened y
  · intro y t
    change Function.update s.current x (some x) y = some t → (db.call t).phase ≠ .idle
    intro current
    by_cases own : t = x
    · subst own
      rw [phase]
      nofun
    · rw [others t own]
      by_cases here : y = x
      · subst here
        rw [Function.update_self] at current
        exact (own (Option.some.inj current).symm).elim
      · rw [Function.update_of_ne here] at current
        exact joined.opened y t current
  · exact joined.served

/-- A call goes on, and what is done at the database begins no transaction. -/
theorem moved_become {s s' : State κ} {x : κ} {p : Phase} (current : s'.current = s.current) (served : s'.served = s.served)
    (phase : s'.phase = Function.update s.phase x p) (busy : s.phase x ≠ .idle) (undone : ∀ answer, s.phase x ≠ .done answer)
    (began : p.began ∨ ¬ (s.phase x).began) (busy' : p ≠ .idle) (opening : p = .opening → s.current x = none)
    (unopened : ∀ y, (s.db.call y).phase = .idle ↔ (s'.db.call y).phase = .idle)
      (joined : ∀ y, s.phase y = .opening → s.current y = none) :
    Moved s s' := by
  refine ⟨current, ?_, ?_, ?_, ?_, fun y idle => .inl ((unopened y).mp idle), fun y begun idle => begun ((unopened y).mpr idle), ?_⟩
  · intro y
    rw [phase]
    by_cases here : y = x
    · subst here
      rw [Function.update_self]
      exact iff_of_false busy' busy
    · rw [Function.update_of_ne here]
  · intro y before
    rw [phase]
    by_cases here : y = x
    · subst here
      rw [Function.update_self]
      exact began.resolve_right (not_not_intro before)
    · rwa [Function.update_of_ne here]
  · intro y answer done
    rw [phase]
    by_cases here : y = x
    · subst here
      exact (undone answer done).elim
    · rwa [Function.update_of_ne here]
  · intro y
    rw [phase]
    by_cases here : y = x
    · subst here
      rw [Function.update_self]
      exact opening
    · rw [Function.update_of_ne here]
      exact joined y
  · intro y t member
    rw [served] at member
    exact .inl member

theorem Closed.idle {db db' : AuthTransaction.State κ (Written κ)} {x : κ} (closed : Closed x db db') (y : κ) :
    (db.call y).phase = .idle ↔ (db'.call y).phase = .idle := by
  by_cases here : y = x
  · subst here
    exact iff_of_false closed.begun closed.ended
  · rw [closed.others y here]

/-- A call of the adapter. -/
structure Served (auth : AuthTransaction.AuthMail) (s s' : State κ) (x : κ) (kind : Option Kind) (fails : Bool) : Prop where
  phase : s'.phase = s.phase
  current : s'.current = s.current
  served : s'.served = s.served ++ [(x, s.current x)]
  /-- On the transaction of the context, or on the pool. -/
  db : (∃ t, s.current x = some t ∧ (s.db.call t).phase = .running ∧
      AuthTransaction.step auth s.db (.execute (.tx t) fails (.query (rows x kind))) = some s'.db ∧
      s'.wrote = (s.record x kind ((s.db.call t).tx.aborted || fails)).wrote) ∨
    s.current x = none ∧ s'.db = autocommit s.db x kind fails ∧ s'.wrote = (s.record x kind fails).wrote

theorem call_served {auth : AuthTransaction.AuthMail} {s s' : State κ} {x : κ} {kind : Option Kind} {fails : Bool}
    (taken : s.call auth x kind fails = some s') : Served auth s s' x kind fails := by
  unfold State.call at taken
  split at taken
  · rename_i t inside
    split at taken
    · rename_i running
      obtain ⟨db, executed, rfl⟩ := Option.map_eq_some_iff.mp taken
      exact ⟨rfl, rfl, rfl, .inl ⟨t, inside, running, executed, rfl⟩⟩
    · cases taken
  · rename_i alone
    cases taken
    exact ⟨rfl, rfl, rfl, .inr ⟨alone, rfl, rfl⟩⟩

omit [DecidableEq κ] in
theorem autocommit_call (db : AuthTransaction.State κ (Written κ)) (x : κ) (kind : Option Kind) (fails : Bool) :
    (autocommit db x kind fails).call = db.call := by
  unfold autocommit
  split <;> rfl

theorem Served.phases {auth : AuthTransaction.AuthMail} {s s' : State κ} {x : κ} {kind : Option Kind} {fails : Bool}
    (served : Served auth s s' x kind fails) (y : κ) : (s'.db.call y).phase = (s.db.call y).phase := by
  rcases served.db with ⟨t, _, _, executed, _⟩ | ⟨_, db, _⟩
  · exact (execute_taken executed).1 y
  · rw [db, autocommit_call]

theorem Served.moved {auth : AuthTransaction.AuthMail} {s s' : State κ} {x : κ} {kind : Option Kind} {fails : Bool}
    (served : Served auth s s' x kind fails) (joined : ∀ y, s.phase y = .opening → s.current y = none) : Moved s s' where
  current := served.current
  idle y := by rw [served.phase]
  began y began := by rwa [served.phase]
  done y answer done := by rwa [served.phase]
  opening y := by
    rw [served.phase]
    exact joined y
  unopened y idle := by
    rw [served.phases]
    exact .inl idle
  opened y begun := by rwa [served.phases]
  served y t member := by
    rw [served.served] at member
    rcases List.mem_append.mp member with before | now
    · exact .inl before
    · obtain ⟨rfl, inside⟩ := Prod.mk.inj (List.mem_singleton.mp now)
      exact .inr inside.symm

/-- What a step does. -/
inductive Acted (auth : AuthTransaction.AuthMail) (c : Config κ) (s s' : State κ) : Event κ → Prop where
  | enter (x : κ) (current : Option κ) (idle : s.phase x = .idle) (context : c.context s x = some current)
      (same : s' = (s.run x current).become x (c.start x current)) : Acted auth c s s' (.enter x)
  | looked (x : κ) (lookup : Lookup) (p : Phase) (looking : s.phase x = .looking)
      (next : p = .running ∨ p = .opening ∧ s.current x = none) (same : s' = s.become x p) : Acted auth c s s' (.looked x lookup)
  | fail (x : κ) (db : AuthTransaction.State κ (Written κ)) (opening : s.phase x = .opening)
      (begun : AuthTransaction.step auth s.db (.begin x true) = some db) (same : s' = (s.withDb db).become x (.done .threw)) :
      Acted auth c s s' (.begin x true)
  | begin (x : κ) (db : AuthTransaction.State κ (Written κ)) (opening : s.phase x = .opening)
      (begun : AuthTransaction.step auth s.db (.begin x false) = some db)
      (same : s' = ((s.withDb db).run x (some x)).become x .running) : Acted auth c s s' (.begin x false)
  | call (x : κ) (kind : Option Kind) (fails : Bool) (allowed : s.phase x = .running ∨ s.phase x = .looking ∧ kind = none)
      (served : Served auth s s' x kind fails) : Acted auth c s s' (.call x kind fails)
  | settle (x : κ) (answer : Answer) (db : AuthTransaction.State κ (Written κ)) (running : s.phase x = .running)
      (own : s.current x = some x) (settled : AuthTransaction.step auth s.db (.settle x ((c.entry x).throws answer)) = some db)
      (same : s' = (s.withDb db).become x (.closing answer)) : Acted auth c s s' (.answer x answer)
  | answer (x : κ) (answer : Answer) (running : s.phase x = .running) (other : s.current x ≠ some x)
      (same : s' = s.become x (.done answer)) : Acted auth c s s' (.answer x answer)
  | close (x : κ) (closing : Closing) (db : AuthTransaction.State κ (Written κ))
      (closed : AuthTransaction.step auth s.db (closing.event x) = some db) (same : s' = s.withDb db) :
        Acted auth c s s' (.close x closing)
  | leave (x : κ) (answer answer' : Answer) (closing : s.phase x = .closing answer) (told : answer' = answer ∨ answer' = .threw)
      (same : s' = s.become x (.done answer')) : Acted auth c s s' (.leave x)

theorem step_acted {auth : AuthTransaction.AuthMail} {c : Config κ} {s s' : State κ} {e : Event κ}
    (taken : step auth c s e = some s') : Acted auth c s s' e := by
  cases e with
  | enter x =>
    rw [step] at taken
    split at taken
    · rename_i idle
      obtain ⟨current, context, rfl⟩ := Option.map_eq_some_iff.mp taken
      exact .enter x current idle context rfl
    · cases taken
  | looked x lookup =>
    rw [step] at taken
    split at taken
    · rename_i looking
      cases taken
      refine .looked x lookup _ looking ?_ rfl
      split
      · rcases atomically_eq (s.current x) with ⟨joins, _⟩ | opens
        · exact .inl joins
        · exact .inr opens
      · exact .inl rfl
    · cases taken
  | begin x fails =>
    rw [step] at taken
    split at taken
    · rename_i opening
      obtain ⟨db, begun, rfl⟩ := Option.map_eq_some_iff.mp taken
      cases fails with
      | true => exact .fail x db opening begun rfl
      | false => exact .begin x db opening begun rfl
    · cases taken
  | call x kind fails =>
    unfold step at taken
    dsimp only at taken
    split at taken
    · rename_i running
      exact .call x _ fails (.inl running) (call_served taken)
    · rename_i looking
      exact .call x _ fails (.inr ⟨looking, rfl⟩) (call_served taken)
    · cases taken
  | answer x answer =>
    rw [step] at taken
    split at taken
    · rename_i running
      split at taken
      · rename_i own
        obtain ⟨db, settled, rfl⟩ := Option.map_eq_some_iff.mp taken
        exact .settle x answer db running own settled rfl
      · rename_i other
        cases taken
        exact .answer x answer running other rfl
    · cases taken
  | close x closing =>
    rw [step] at taken
    split at taken
    · obtain ⟨db, closed, rfl⟩ := Option.map_eq_some_iff.mp taken
      exact .close x closing db closed rfl
    · cases taken
  | leave x =>
    rw [step] at taken
    split at taken
    · rename_i answer closing _
      cases taken
      exact .leave x answer answer closing (.inl rfl) rfl
    · rename_i answer error closing _
      cases taken
      refine .leave x answer _ closing ?_ rfl
      cases error with
      | thrown => exact .inl rfl
      | aborted => exact .inr rfl
      | database => exact .inr rfl
    · cases taken

theorem step_joined {auth : AuthTransaction.AuthMail} {c : Config κ} {s s' : State κ} {e : Event κ} (joined : Joined c s)
    (taken : step auth c s e = some s') : Joined c s' := by
  cases step_acted taken with
  | enter x current idle context same =>
    subst same
    exact joined.enter idle context
  | begin x db opening begun same =>
    subst same
    exact joined.begun opening begun
  | looked x lookup p looking next same =>
    subst same
    refine joined.moved (moved_become rfl rfl rfl (by rw [looking]; nofun) (by rw [looking]; nofun) (.inr ?_) ?_ ?_
      (fun _ => Iff.rfl) joined.opening)
    · rw [looking]
      exact id
    · rcases next with rfl | ⟨rfl, _⟩ <;> nofun
    · rintro rfl
      rcases next with running | ⟨_, none⟩
      · cases running
      · exact none
  | fail x db opening failed same =>
    subst same
    obtain ⟨idle, others, _, phase, _⟩ := begin_taken failed
    have outside := joined.opening x opening
    refine joined.moved ⟨rfl, ?_, ?_, ?_, ?_, ?_, ?_, fun _ _ => .inl⟩
    · intro y
      change Function.update s.phase x (.done .threw) y = .idle ↔ s.phase y = .idle
      by_cases here : y = x
      · subst here
        rw [Function.update_self, opening]
        exact iff_of_false nofun nofun
      · rw [Function.update_of_ne here]
    · intro y began
      change (Function.update s.phase x (.done .threw) y).began
      by_cases here : y = x
      · subst here
        rw [Function.update_self]
        trivial
      · rwa [Function.update_of_ne here]
    · intro y answer done
      change Function.update s.phase x (.done .threw) y = .done answer
      by_cases here : y = x
      · subst here
        cases opening.symm.trans done
      · rwa [Function.update_of_ne here]
    · intro y
      change Function.update s.phase x (.done .threw) y = .opening → s.current y = none
      by_cases here : y = x
      · subst here
        exact fun _ => outside
      · rw [Function.update_of_ne here]
        exact joined.opening y
    · intro y idle
      change (db.call y).phase = .idle ∨ s.current y = none ∧ Function.update s.phase x (.done .threw) y = .done .threw
      by_cases here : y = x
      · subst here
        exact .inr ⟨outside, Function.update_self ..⟩
      · rw [others y here]
        exact .inl idle
    · intro y begun
      change (db.call y).phase ≠ .idle
      by_cases here : y = x
      · subst here
        exact (begun idle).elim
      · rwa [others y here]
  | call x kind fails allowed served => exact joined.moved (served.moved joined.opening)
  | settle x answer db running own settled same =>
    subst same
    exact joined.moved (moved_become rfl rfl rfl (by rw [running]; nofun) (by rw [running]; nofun) (.inl trivial) nofun nofun
      (settle_taken settled).1.idle joined.opening)
  | answer x answer running other same =>
    subst same
    exact joined.moved (moved_become rfl rfl rfl (by rw [running]; nofun) (by rw [running]; nofun) (.inl trivial) nofun nofun
      (fun _ => Iff.rfl) joined.opening)
  | close x closing db closed same =>
    subst same
    have idle := (closing_taken closed).1.idle
    exact joined.moved ⟨rfl, fun _ => Iff.rfl, fun _ => id, fun _ _ => id, joined.opening, fun y unopened =>
      .inl ((idle y).mp unopened),
      fun y begun unopened => begun ((idle y).mpr unopened), fun _ _ => .inl⟩
  | leave x answer answer' closing told same =>
    subst same
    exact joined.moved (moved_become rfl rfl rfl (by rw [closing]; nofun) (by rw [closing]; nofun) (.inl trivial) nofun nofun
      (fun _ => Iff.rfl) joined.opening)

end

end OrganizationCreate
