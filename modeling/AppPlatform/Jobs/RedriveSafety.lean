import AppPlatform.Jobs.Redrive

/-!
# What a redrive does to the job table

The invariant of the moves: what each has locked, written and checked, and what is left of a copy
that was moved.
-/

namespace Redrive
open Js Transactions
variable {τ : Type*} [DecidableEq τ]

/-- Everything with a row, a lock or a write has been used, and nothing is written with an origin. -/
structure Base (d : Db Key Row τ) (used : Key → Bool) : Prop where
  locked : Locked d
  rows : ∀ k, d.rows k ≠ none → used k = true
  locks : ∀ k, d.owner k ≠ none → used k = true
  plain : ∀ t k row, d.writes t k = some (some row) → row.origin = none

/-- No dead-letter copy is under the key, nor will be. -/
def Spent (d : Db Key Row τ) (used : Key → Bool) (k : Key) : Prop :=
  used k = true ∧ ∀ row, d.rows k = some row → row.origin = none

/-- What was checked of a copy before anything was written for it. -/
structure Picked (c : Config τ) (started : ℕ) (r : τ) (row : Row) (origin : Key) : Prop where
  waiting : row.state.waiting = true
  kept : started < row.keepUntil
  recorded : row.origin = some origin
  permitted : ∃ policy, c.policyFor r origin.1 = some policy ∧ allowed policy row.data = true

/-- The transaction has the copy locked. -/
def Holds (s : State τ) (r : τ) (copy : Key) (row : Row) : Prop :=
  s.db.owner copy = some r ∧ s.db.rows copy = some row

def Config.sentRow (c : Config τ) (s : State τ) (r : τ) (row : Row) (origin : Key) : Row :=
  c.fresh (s.started r) origin.1 row.data row.priority

def Carries (c : Config τ) (s : State τ) (r : τ) : Phase → Prop
  | .idle | .begun _ => ∀ k, s.db.writes r k = none
  | .held copy row => Holds s r copy row ∧ (row.state.waiting = true ∧ s.started r < row.keepUntil) ∧
      ∀ k, s.db.writes r k = none
  | .cleared copy row origin => Holds s r copy row ∧ Picked c (s.started r) r row origin ∧ ∀ k, s.db.writes r k = none
  | .deleted copy row origin => Holds s r copy row ∧ Picked c (s.started r) r row origin ∧
      (∀ k, k ≠ origin → s.db.writes r k = none) ∧
      (s.db.writes r origin = none ∨ s.db.writes r origin = some none ∧ isFailed (s.db.rows origin) = true)
  | .sent copy row origin => Holds s r copy row ∧ Picked c (s.started r) r row origin ∧ copy ≠ origin ∧
      (∀ k, k ≠ origin → s.db.writes r k = none) ∧
      s.db.writes r origin = some (some (c.sentRow s r row origin)) ∧
      (s.db.rows origin = none ∨ isFailed (s.db.rows origin) = true)
  | .removed copy row origin => Holds s r copy row ∧ Picked c (s.started r) r row origin ∧ copy ≠ origin ∧
      (∀ k, k ≠ origin → k ≠ copy → s.db.writes r k = none) ∧
      s.db.writes r origin = some (some (c.sentRow s r row origin)) ∧ s.db.writes r copy = some none ∧
      (s.db.rows origin = none ∨ isFailed (s.db.rows origin) = true)
  | .moved copy row origin => Picked c (s.started r) r row origin ∧ Spent s.db s.used copy
  | _ => True

structure Safe (c : Config τ) (s : State τ) : Prop where
  base : Base s.db s.used
  carries : ∀ r, Carries c s r (s.phase r)
  once : ∀ r r' copy row row' origin origin', s.phase r = .moved copy row origin →
    s.phase r' = .moved copy row' origin' → r = r'

omit [DecidableEq τ] in
theorem Holds.isolated {s t : State τ} {r : τ} {copy : Key} {row : Row} (holds : Holds s r copy row)
    (isolated : Isolated r s.db t.db) : Holds t r copy row :=
  ⟨isolated.owner copy holds.1, (isolated.rows copy holds.1).trans holds.2⟩

omit [DecidableEq τ] in
/-- What a transaction carries does not depend on the others. -/
theorem Carries.isolated {c : Config τ} {s t : State τ} {r : τ} {p : Phase} (locked : Locked s.db)
    (carries : Carries c s r p) (isolated : Isolated r s.db t.db) (started : t.started r = s.started r)
    (spent : ∀ k, Spent s.db s.used k → Spent t.db t.used k) : Carries c t r p := by
  have writes : t.db.writes r = s.db.writes r := isolated.writes
  have written : ∀ {k v}, s.db.writes r k = some v → t.db.rows k = s.db.rows k := by
    intro k v wrote
    exact isolated.rows k (locked r k (by simp [wrote]))
  have row_same : ∀ row origin, c.sentRow t r row origin = c.sentRow s r row origin := by
    intro row origin
    rw [Config.sentRow, started, Config.sentRow]
  cases p with
  | idle => exact fun k => (congrFun writes k).trans (carries k)
  | begun copy => exact fun k => (congrFun writes k).trans (carries k)
  | held copy row =>
    obtain ⟨holds, fits, unwritten⟩ := carries
    exact ⟨holds.isolated isolated, started ▸ fits, fun k => (congrFun writes k).trans (unwritten k)⟩
  | cleared copy row origin =>
    obtain ⟨holds, picked, unwritten⟩ := carries
    exact ⟨holds.isolated isolated, started ▸ picked, fun k => (congrFun writes k).trans (unwritten k)⟩
  | deleted copy row origin =>
    obtain ⟨holds, picked, unwritten, cleared⟩ := carries
    refine ⟨holds.isolated isolated, started ▸ picked, ?_, ?_⟩
    · exact fun k differs => (congrFun writes k).trans (unwritten k differs)
    · rw [writes]
      rcases cleared with nothing | ⟨gone, failed⟩
      · exact Or.inl nothing
      · exact Or.inr ⟨gone, by rw [written gone, failed]⟩
  | sent copy row origin =>
    obtain ⟨holds, picked, differs, unwritten, inserted, before⟩ := carries
    refine ⟨holds.isolated isolated, started ▸ picked, differs, ?_, ?_, ?_⟩
    · exact fun k other => (congrFun writes k).trans (unwritten k other)
    · rw [writes, row_same, inserted]
    · rw [written inserted]
      exact before
  | removed copy row origin =>
    obtain ⟨holds, picked, differs, unwritten, inserted, deleted, before⟩ := carries
    refine ⟨holds.isolated isolated, started ▸ picked, differs, ?_, ?_, ?_, ?_⟩
    · exact fun k other other' => (congrFun writes k).trans (unwritten k other other')
    · rw [writes, row_same, inserted]
    · rw [writes, deleted]
    · rw [written inserted]
      exact before
  | moved copy row origin => exact ⟨started ▸ carries.1, spent copy carries.2⟩
  | _ => trivial

/-! ### Changes of the table -/

theorem base_lock {d : Db Key Row τ} {used : Key → Bool} (base : Base d used) {r : τ} {k : Key}
    (free : d.available r k = true) (known : used k = true) : Base (d.lock r k) used where
  locked := lock_locked base.locked free
  rows := base.rows
  locks k' held := by
    by_cases same : k' = k
    · exact same ▸ known
    · exact base.locks k' (by rwa [lock_owner_other d r k same] at held)
  plain := base.plain

theorem base_write {d : Db Key Row τ} {used used' : Key → Bool} (base : Base d used) {r : τ} {k : Key} {v : Option Row}
    (free : d.available r k = true) (grows : ∀ k, used k = true → used' k = true) (known : used' k = true)
    (plain : ∀ row, v = some row → row.origin = none) : Base (d.write r k v) used' where
  locked := write_locked base.locked free v
  rows k' present := grows k' (base.rows k' present)
  locks k' held := by
    by_cases same : k' = k
    · exact same ▸ known
    · exact grows k' (base.locks k' (by rwa [write_owner_other d r k v same] at held))
  plain t k' row wrote := by
    by_cases own : t = r
    · subst own
      by_cases same : k' = k
      · subst same
        rw [write_writes_same] at wrote
        exact plain row (Option.some.inj wrote)
      · rw [write_writes_key d t k v same] at wrote
        exact base.plain t k' row wrote
    · rw [write_writes_other d r k v own] at wrote
      exact base.plain t k' row wrote

theorem base_abort {d : Db Key Row τ} {used : Key → Bool} (base : Base d used) (r : τ) : Base (d.abort r) used where
  locked := abort_locked base.locked r
  rows := base.rows
  locks k held := by
    apply base.locks k
    intro free
    simp [Db.abort, free] at held
  plain t k row wrote := by
    by_cases own : t = r
    · subst own
      simp at wrote
    · rw [abort_writes_other d r own] at wrote
      exact base.plain t k row wrote

theorem base_commit {d : Db Key Row τ} {used : Key → Bool} (base : Base d used) (r : τ) : Base (d.commit r) used where
  locked := commit_locked base.locked r
  rows k present := by
    cases wrote : d.writes r k with
    | none => exact base.rows k (by simpa [Db.commit, Db.view, wrote] using present)
    | some v =>
      apply base.locks k
      rw [base.locked r k (by simp [wrote])]
      simp
  locks := (base_abort base r).locks
  plain := (base_abort base r).plain

omit [DecidableEq τ] in
theorem base_put {d : Db Key Row τ} {used used' : Key → Bool} (base : Base d used) {k : Key} {v : Option Row}
    (grows : ∀ k, used k = true → used' k = true) (known : used' k = true) : Base (d.put k v) used' where
  locked := base.locked
  rows k' present := by
    by_cases same : k' = k
    · exact same ▸ known
    · exact grows k' (base.rows k' (by rwa [put_rows_other d k v same] at present))
  locks k' held := grows k' (base.locks k' held)
  plain := base.plain

theorem spent_commit {d : Db Key Row τ} {used : Key → Bool} (base : Base d used) {r : τ} {k : Key}
    (spent : Spent d used k) : Spent (d.commit r) used k := by
  refine ⟨spent.1, fun row present => ?_⟩
  cases wrote : d.writes r k with
  | none => exact spent.2 row (by simpa [Db.commit, Db.view, wrote] using present)
  | some v =>
    simp only [Db.commit, Db.view, wrote, Option.getD_some] at present
    exact base.plain r k row (by rw [wrote, present])

omit [DecidableEq τ] in
theorem spent_put {d : Db Key Row τ} {used used' : Key → Bool} {k k' : Key} {v : Option Row}
    (grows : ∀ k, used k = true → used' k = true)
    (plain : used k = true → ∀ row, v = some row → ∃ old, d.rows k = some old ∧ row.origin = old.origin)
    (spent : Spent d used k') : Spent (d.put k v) used' k' := by
  refine ⟨grows k' spent.1, fun row present => ?_⟩
  by_cases same : k' = k
  · subst same
    rw [put_rows_same] at present
    obtain ⟨old, before, origin⟩ := plain spent.1 row present
    exact origin.trans (spent.2 old before)
  · rw [put_rows_other d k v same] at present
    exact spent.2 row present

/-! ### Steps -/

@[simp] theorem become_same (s : State τ) (r : τ) (p : Phase) : (s.become r p).phase r = p := by
  simp [State.become]

@[simp] theorem become_other (s : State τ) {r r' : τ} (p : Phase) (differs : r' ≠ r) :
    (s.become r p).phase r' = s.phase r' := by
  simp [State.become, differs]

def Phase.Moved (p : Phase) (copy : Key) : Prop := ∃ row origin, p = .moved copy row origin

omit [DecidableEq τ] in
/-- A step of one transaction. -/
theorem Safe.advance {c : Config τ} {s t : State τ} (safe : Safe c s) (r : τ) (base : Base t.db t.used)
    (spent : ∀ k, Spent s.db s.used k → Spent t.db t.used k)
    (others : ∀ r', r' ≠ r → Isolated r' s.db t.db ∧ t.started r' = s.started r' ∧ t.phase r' = s.phase r')
    (own : Carries c t r (t.phase r))
    (found : ∀ copy, (t.phase r).Moved copy → ∃ row, s.db.rows copy = some row ∧ row.origin ≠ none) : Safe c t := by
  have carries : ∀ r', Carries c t r' (t.phase r') := by
    intro r'
    by_cases same : r' = r
    · exact same ▸ own
    · obtain ⟨isolated, started, phase⟩ := others r' same
      rw [phase]
      exact (safe.carries r').isolated safe.base.locked isolated started spent
  have earlier : ∀ {r' copy row origin}, r' ≠ r → t.phase r' = .moved copy row origin →
      s.phase r' = .moved copy row origin := fun differs moved => (others _ differs).2.2 ▸ moved
  -- a copy moved before is spent, so the acting transaction did not find it
  have conflict : ∀ {r' copy row origin row' origin'}, r' ≠ r → t.phase r' = .moved copy row origin →
      t.phase r = .moved copy row' origin' → False := by
    intro r' copy row origin row' origin' differs moved moved'
    obtain ⟨found_row, present, recorded⟩ := found copy ⟨row', origin', moved'⟩
    have before := safe.carries r'
    rw [earlier differs moved] at before
    exact recorded (before.2.2 found_row present)
  refine ⟨base, carries, fun r₁ r₂ copy row row' origin origin' first second => ?_⟩
  by_cases one : r₁ = r
  · by_cases two : r₂ = r
    · rw [one, two]
    · subst one
      exact (conflict two second first).elim
  · by_cases two : r₂ = r
    · subst two
      exact (conflict one first second).elim
    · exact safe.once r₁ r₂ copy row row' origin origin' (earlier one first) (earlier two second)

omit [DecidableEq τ] in
theorem Safe.environment {c : Config τ} {s t : State τ} (safe : Safe c s) (base : Base t.db t.used)
    (spent : ∀ k, Spent s.db s.used k → Spent t.db t.used k) (isolated : ∀ r, Isolated r s.db t.db)
    (started : t.started = s.started) (phase : t.phase = s.phase) : Safe c t := by
  refine ⟨base, fun r => ?_, fun r r' copy row row' origin origin' first second => ?_⟩
  · rw [phase]
    exact (safe.carries r).isolated safe.base.locked (isolated r) (congrFun started r) spent
  · rw [phase] at first second
    exact safe.once r r' copy row row' origin origin' first second

/-- A step that changes a phase and nothing else. -/
theorem Safe.become {c : Config τ} {s : State τ} (safe : Safe c s) (r : τ) {p : Phase} (own : Carries c s r p)
    (unmoved : ∀ copy, ¬ p.Moved copy) : Safe c (s.become r p) := by
  refine safe.advance r safe.base (fun _ spent => spent) (fun r' differs => ?_) ?_ ?_
  · exact ⟨.refl r' s.db, rfl, become_other s p differs⟩
  · rw [become_same]
    exact own.isolated safe.base.locked (.refl r s.db) rfl fun _ spent => spent
  · rw [become_same]
    exact fun copy moved => (unmoved copy moved).elim

theorem begin_safe {c : Config τ} {s : State τ} (safe : Safe c s) {r : τ} (idle : s.phase r = .idle) {p : Phase}
    (opening : p = .inTx ∨ ∃ copy, p = .begun copy) :
    Safe c { s.become r p with started := Function.update s.started r s.now } := by
  have before := safe.carries r
  rw [idle] at before
  refine safe.advance r safe.base (fun _ spent => spent) (fun r' differs => ?_) ?_ ?_
  · exact ⟨.refl r' s.db, Function.update_of_ne differs _ _, become_other s p differs⟩
  · rcases opening with rfl | ⟨copy, rfl⟩
    · simp [State.become, Carries]
    · simp only [State.become, Function.update_self]
      exact before
  · rcases opening with rfl | ⟨copy, rfl⟩ <;> simp [State.become, Phase.Moved]

theorem lock_safe {c : Config τ} {s : State τ} (safe : Safe c s) {r : τ} {copy : Key} {row : Row}
    (begun : s.phase r = .begun copy) (found : lockCopy s r copy = some row) :
    Safe c ((s.write (s.db.lock r copy)).become r (.held copy row)) := by
  unfold lockCopy at found
  split at found
  · rename_i row' unlocked present
    split at found
    · rename_i fits
      cases found
      have free : s.db.available r copy = true := by simp [Db.available, unlocked]
      have before := safe.carries r
      rw [begun] at before
      refine safe.advance r (base_lock safe.base free (safe.base.rows copy (by simp [present]))) (fun _ spent => spent)
        (fun r' differs => ⟨lock_isolated free differs, rfl, become_other _ _ differs⟩) ?_ ?_
      · rw [become_same]
        exact ⟨⟨lock_owner_same _ _ _, present⟩, fits, before⟩
      · simp [Phase.Moved]
    · cases found
  · cases found

theorem check_safe {c : Config τ} {s t : State τ} (safe : Safe c s) {r : τ} (taken : step c s (.check r) = some t) :
    Safe c t := by
  simp only [step] at taken
  split at taken
  · rename_i copy row held
    have before := safe.carries r
    rw [held] at before
    obtain ⟨holds, ⟨waiting, kept⟩, unwritten⟩ := before
    split at taken
    · cases taken
      exact safe.become r trivial (by simp [Phase.Moved])
    · rename_i origin recorded
      split at taken
      · cases taken
        exact safe.become r trivial (by simp [Phase.Moved])
      split at taken
      · cases taken
        exact safe.become r trivial (by simp [Phase.Moved])
      · rename_i policy defined
        split at taken
        · rename_i permitted
          cases taken
          have picked : Picked c (s.started r) r row origin := ⟨waiting, kept, recorded, policy, defined, permitted⟩
          exact safe.become r ⟨holds, picked, unwritten⟩ (by simp [Phase.Moved])
        · cases taken
          exact safe.become r trivial (by simp [Phase.Moved])
  · cases taken

theorem delete_safe {c : Config τ} {s t : State τ} (safe : Safe c s) {r : τ} (taken : step c s (.delete r) = some t) :
    Safe c t := by
  simp only [step] at taken
  split at taken
  · rename_i copy row origin cleared
    have before := safe.carries r
    rw [cleared] at before
    obtain ⟨holds, picked, unwritten⟩ := before
    have view : s.db.view r origin = s.db.rows origin := by simp [Db.view, unwritten]
    rw [view] at taken
    split at taken
    · rename_i failed
      split at taken
      · rename_i free
        cases taken
        have known : s.used origin = true := by
          apply safe.base.rows
          intro absent
          rw [absent] at failed
          cases failed
        have differs : copy ≠ origin := by
          rintro rfl
          rw [holds.2] at failed
          have state : row.state = .failed := of_decide_eq_true failed
          have waiting := picked.waiting
          rw [state] at waiting
          cases waiting
        refine safe.advance r (base_write safe.base free (fun _ h => h) known (by simp)) (fun _ spent => spent)
          (fun r' other => ⟨write_isolated free other _, rfl, become_other _ _ other⟩) ?_ ?_
        · rw [become_same]
          refine ⟨⟨?_, holds.2⟩, picked, fun k other => ?_, Or.inr ⟨write_writes_same _ _ _ _, failed⟩⟩
          · exact (write_owner_other _ _ _ _ differs).trans holds.1
          · exact (write_writes_key _ _ _ _ other).trans (unwritten k)
        · simp [Phase.Moved]
      · cases taken
    · cases taken
      exact safe.become r ⟨holds, picked, fun k _ => unwritten k, Or.inl (unwritten origin)⟩ (by simp [Phase.Moved])
  · cases taken

omit [DecidableEq τ] in
theorem use_grows (s : State τ) (k : Key) : ∀ k', s.used k' = true → (s.use k).used k' = true := by
  intro k' known
  by_cases same : k' = k
  · simp [State.use, same]
  · simpa [State.use, same] using known

theorem send_safe {c : Config τ} {s t : State τ} (safe : Safe c s) {r : τ} (taken : step c s (.send r) = some t) :
    Safe c t := by
  simp only [step] at taken
  split at taken
  · rename_i copy row origin deleted
    have before := safe.carries r
    rw [deleted] at before
    obtain ⟨holds, picked, unwritten, cleared⟩ := before
    split at taken
    · cases taken
    split at taken
    · cases taken
      exact safe.become r trivial (by simp [Phase.Moved])
    · rename_i absent
      split at taken
      · rename_i free
        cases taken
        have gone : s.db.rows origin = none ∨ isFailed (s.db.rows origin) = true := by
          rcases cleared with nothing | ⟨_, failed⟩
          · rw [Db.view, nothing] at absent
            exact Or.inl absent
          · exact Or.inr failed
        have differs : copy ≠ origin := by
          rintro rfl
          have waiting := picked.waiting
          rcases gone with nothing | failed
          · rw [holds.2] at nothing
            cases nothing
          · rw [holds.2] at failed
            have state : row.state = .failed := of_decide_eq_true failed
            rw [state] at waiting
            cases waiting
        have grows := use_grows s origin
        refine safe.advance r (base_write safe.base free grows (Function.update_self _ _ _) ?_)
          (fun k spent => ⟨grows k spent.1, spent.2⟩)
          (fun r' other => ⟨write_isolated free other _, rfl, become_other _ _ other⟩) ?_ ?_
        · rintro row' same
          cases same
          rfl
        · rw [become_same]
          refine ⟨⟨?_, holds.2⟩, picked, differs, fun k other => ?_, write_writes_same _ _ _ _, gone⟩
          · exact (write_owner_other _ _ _ _ differs).trans holds.1
          · exact (write_writes_key _ _ _ _ other).trans (unwritten k other)
        · simp [Phase.Moved]
      · cases taken
  · cases taken

theorem remove_safe {c : Config τ} {s t : State τ} (safe : Safe c s) {r : τ} (taken : step c s (.remove r) = some t) :
    Safe c t := by
  simp only [step] at taken
  split at taken
  · rename_i copy row origin sent
    cases taken
    have before := safe.carries r
    rw [sent] at before
    obtain ⟨holds, picked, differs, unwritten, inserted, gone⟩ := before
    have free : s.db.available r copy = true := by simp [Db.available, holds.1]
    have known := safe.base.rows copy (by simp [holds.2])
    refine safe.advance r (base_write safe.base free (fun _ h => h) known (by simp)) (fun _ spent => spent)
      (fun r' other => ⟨write_isolated free other _, rfl, become_other _ _ other⟩) ?_ ?_
    · rw [become_same]
      refine ⟨⟨write_owner_same _ _ _ _, holds.2⟩, picked, differs, fun k other other' => ?_, ?_,
        write_writes_same _ _ _ _, gone⟩
      · exact (write_writes_key _ _ _ _ other').trans (unwritten k other)
      · exact (write_writes_key _ _ _ _ (Ne.symm differs)).trans inserted
    · simp [Phase.Moved]
  · cases taken

/-- What the commit of a move makes of the table. -/
theorem commit_rows_eq {c : Config τ} {s : State τ} (safe : Safe c s) {r : τ} {copy origin : Key} {row : Row}
    (removed : s.phase r = .removed copy row origin) :
    (s.db.commit r).rows = Function.update (Function.update s.db.rows origin (some (c.sentRow s r row origin))) copy none := by
  have before := safe.carries r
  rw [removed] at before
  obtain ⟨_, _, differs, unwritten, inserted, deleted, _⟩ := before
  funext k
  rw [commit_rows, Db.view]
  by_cases isCopy : k = copy
  · simp [isCopy, deleted]
  · rw [Function.update_of_ne isCopy]
    by_cases isOrigin : k = origin
    · simp [isOrigin, inserted]
    · simp [isOrigin, unwritten k isOrigin isCopy]

theorem commit_safe {c : Config τ} {s t : State τ} (safe : Safe c s) {r : τ} (taken : step c s (.commit r) = some t) :
    Safe c t := by
  simp only [step] at taken
  split at taken
  · rename_i copy row origin removed
    cases taken
    have before := safe.carries r
    rw [removed] at before
    obtain ⟨holds, picked, differs, _⟩ := before
    refine safe.advance r (base_commit safe.base r) (fun _ spent => spent_commit safe.base spent)
      (fun r' other => ⟨commit_isolated safe.base.locked other, rfl, become_other _ _ other⟩) ?_ ?_
    · rw [become_same]
      refine ⟨picked, safe.base.rows copy (by simp [holds.2]), fun row' present => ?_⟩
      have gone : (s.db.commit r).rows copy = none := by
        rw [commit_rows_eq safe removed, Function.update_self]
      cases gone.symm.trans present
    · rw [become_same]
      rintro copy' ⟨_, _, same⟩
      cases same
      exact ⟨row, holds.2, by simp [picked.recorded]⟩
  · cases taken

theorem abort_safe {c : Config τ} {s : State τ} (safe : Safe c s) (r : τ) {p : Phase} (own : ∀ t, Carries c t r p)
    (unmoved : ∀ copy, ¬ p.Moved copy) : Safe c ((s.write (s.db.abort r)).become r p) := by
  refine safe.advance r (base_abort safe.base r) (fun _ spent => spent)
    (fun r' other => ⟨abort_isolated s.db other, rfl, become_other _ _ other⟩) ?_ ?_
  · rw [become_same]
    exact own _
  · rw [become_same]
    exact fun copy moved => (unmoved copy moved).elim

theorem enqueue_safe {c : Config τ} {s t : State τ} (safe : Safe c s) {a : τ} {k : Key} {data : Json} {priority : ℤ}
    (taken : step c s (.enqueue a k data priority) = some t) : Safe c t := by
  simp only [step] at taken
  split at taken
  · rename_i inTx
    split at taken
    · cases taken
    split at taken
    · cases taken
      exact safe
    split at taken
    · rename_i free
      cases taken
      have grows := use_grows s k
      refine safe.advance a (base_write safe.base free grows (Function.update_self _ _ _) ?_)
        (fun k' spent => ⟨grows k' spent.1, spent.2⟩) (fun r' other => ⟨write_isolated free other _, rfl, rfl⟩) ?_ ?_
      · rintro row same
        cases same
        rfl
      · show Carries c _ a (s.phase a)
        rw [inTx]
        trivial
      · rintro copy ⟨_, _, moved⟩
        cases inTx.symm.trans moved
    · cases taken
  · cases taken

theorem closeTx_safe {c : Config τ} {s t : State τ} (safe : Safe c s) {a : τ} {commit : Bool}
    (taken : step c s (.closeTx a commit) = some t) : Safe c t := by
  simp only [step] at taken
  split at taken
  · cases taken
    cases commit with
    | false => exact abort_safe safe a (fun _ => trivial) (by simp [Phase.Moved])
    | true =>
      refine safe.advance a (base_commit safe.base a) (fun _ spent => spent_commit safe.base spent)
        (fun r' other => ⟨commit_isolated safe.base.locked other, rfl, become_other _ _ other⟩) ?_ ?_
      · rw [become_same]
        trivial
      · simp [Phase.Moved]
  · cases taken

omit [DecidableEq τ] in
theorem put_safe {c : Config τ} {s : State τ} (safe : Safe c s) {k : Key} {row : Row} (unlocked : s.db.owner k = none)
    (present : s.db.rows k = some row) {v : Option Row} (kept : ∀ row', v = some row' → row'.origin = row.origin) :
    Safe c (s.write (s.db.put k v)) := by
  refine safe.environment (base_put safe.base (fun _ h => h) (safe.base.rows k (by simp [present])))
    (fun k' spent => spent_put (fun _ h => h) (fun _ row' same => ⟨row, present, kept row' same⟩) spent)
    (fun r => put_isolated unlocked v) rfl rfl

omit [DecidableEq τ] in
theorem change_safe {c : Config τ} {s t : State τ} (safe : Safe c s) {k : Key} {before : JobState → Bool}
    {after : Row → Option Row} (kept : ∀ row row', after row = some row' → row'.origin = row.origin)
    (taken : s.change k before after = some t) : Safe c t := by
  unfold State.change at taken
  split at taken
  · rename_i row unlocked present
    split at taken
    · cases taken
      exact put_safe safe unlocked present (kept row)
    · cases taken
  · cases taken

omit [DecidableEq τ] in
theorem bury_safe {c : Config τ} {s t : State τ} (safe : Safe c s) {k : Key} {copyId : Text} {row : Row}
    (taken : s.bury c k copyId row = some t) : Safe c t := by
  unfold State.bury at taken
  split at taken
  · cases taken
    exact safe
  · rename_i dlq _
    split at taken
    · cases taken
    · rename_i unused
      cases taken
      have unlocked : s.db.owner (dlq, copyId) = none := by
        by_contra held
        exact unused (safe.base.locks _ held)
      have grows := use_grows s (dlq, copyId)
      refine safe.environment (base_put safe.base grows (Function.update_self _ _ _)) (fun k' spent => ?_)
        (fun r => put_isolated unlocked _) rfl rfl
      exact spent_put grows (fun known => (unused known).elim) spent

theorem step_safe {c : Config τ} {s t : State τ} {e : Event τ} (safe : Safe c s) (taken : step c s e = some t) :
    Safe c t := by
  have kept : ∀ (state : JobState) (row row' : Row), some { row with state } = some row' → row'.origin = row.origin := by
    rintro state row row' same
    cases same
    rfl
  cases e with
  | begin r copy =>
    simp only [step] at taken
    split at taken
    · rename_i idle
      cases taken
      exact begin_safe safe idle (Or.inr ⟨copy, rfl⟩)
    · cases taken
  | lock r =>
    simp only [step] at taken
    split at taken
    · rename_i copy begun
      split at taken
      · rename_i row found
        cases taken
        exact lock_safe safe begun found
      · cases taken
        exact safe.become r trivial (by simp [Phase.Moved])
    · cases taken
  | check r => exact check_safe safe taken
  | delete r => exact delete_safe safe taken
  | send r => exact send_safe safe taken
  | remove r => exact remove_safe safe taken
  | commit r => exact commit_safe safe taken
  | rollback r =>
    simp only [step] at taken
    split at taken
    · cases taken
      exact abort_safe safe r (fun _ => trivial) (by simp [Phase.Moved])
    · cases taken
  | crash r =>
    simp only [step] at taken
    split at taken <;> cases taken
    all_goals exact abort_safe safe r (fun _ => trivial) (by simp [Phase.Moved])
  | openTx a =>
    simp only [step] at taken
    split at taken
    · rename_i idle
      cases taken
      exact begin_safe safe idle (Or.inl rfl)
    · cases taken
  | enqueue a k data priority => exact enqueue_safe safe taken
  | closeTx a commit => exact closeTx_safe safe taken
  | fetch k => exact change_safe safe (kept .active) taken
  | complete k keep =>
    simp only [step] at taken
    refine change_safe safe (fun row row' same => ?_) taken
    split at same
    · exact kept .completed row row' same
    · cases same
  | retry k =>
    simp only [step] at taken
    exact change_safe safe (kept .retry) taken
  | fail k copyId =>
    simp only [step] at taken
    split at taken
    · rename_i row t' present changed
      exact bury_safe (change_safe safe (kept .failed) changed) taken
    · cases taken
  | sweep k =>
    simp only [step] at taken
    split at taken
    · rename_i row unlocked present
      split at taken
      · cases taken
        exact put_safe safe unlocked present (by simp)
      · cases taken
    · cases taken
  | queue name present =>
    cases taken
    exact safe.environment safe.base (fun _ spent => spent) (fun r => .refl r s.db) rfl rfl
  | tick ms =>
    cases taken
    exact safe.environment safe.base (fun _ spent => spent) (fun r => .refl r s.db) rfl rfl

end Redrive
