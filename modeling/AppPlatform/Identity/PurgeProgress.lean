import AppPlatform.Identity.Accounts

/-!
# The purge makes progress

A run reads 500 candidates and then leaves those alone that the rule protects. It makes progress in
every order exactly when fewer than 500 protected candidates can stand before the others.
-/

namespace Identity.Accounts
open Js
variable {ι : Type*} [DecidableEq ι]

/-- The rule allows to delete the user. -/
def Replaceable (db : Db ι) (userId : ι) : Bool := replaceable db userId (accountsOf db userId)

theorem Replaceable_iff {db : Db ι} {userId : ι} :
    Replaceable db userId = true ↔
      (∀ a ∈ db.accounts, a.userId = userId → a.providerId = CREDENTIAL) ∧ userId ∉ db.sessions := by
  unfold Replaceable replaceable accountsOf
  by_cases linked : ((db.accounts.filter (·.userId = userId)).any fun a => decide (a.providerId ≠ CREDENTIAL)) = true
  · rw [if_pos linked]
    obtain ⟨a, member, other⟩ := List.any_eq_true.mp linked
    obtain ⟨found, own⟩ := List.mem_filter.mp member
    constructor
    · nofun
    · rintro ⟨credential, _⟩
      exact absurd (credential a found (of_decide_eq_true own)) (of_decide_eq_true other)
  · rw [if_neg linked, Bool.not_eq_true', List.any_eq_false]
    constructor
    · intro sessionless
      refine ⟨fun a found own => ?_, fun session => ?_⟩
      · by_contra other
        exact linked (List.any_eq_true.mpr ⟨a, List.mem_filter.mpr ⟨found, decide_eq_true own⟩, decide_eq_true other⟩)
      · exact sessionless userId session (decide_eq_true rfl)
    · rintro ⟨_, sessionless⟩ id member same
      exact sessionless (of_decide_eq_true same ▸ member)

theorem deleteUser_replaceable {db : Db ι} {userId : ι} (allowed : Replaceable db userId = true) (id : ι) :
    Replaceable (deleteUser db userId) id = Replaceable db id := by
  rw [Bool.eq_iff_iff, Replaceable_iff, Replaceable_iff]
  rw [Replaceable_iff] at allowed
  simp only [deleteUser, deleteRow, deleteAccounts, deleteSessions, List.mem_filter, decide_eq_true_eq, ne_eq, not_and, not_not]
  by_cases same : id = userId
  · subst same
    refine ⟨fun _ => allowed, fun _ => ⟨fun a found own => absurd own found.2, fun _ => rfl⟩⟩
  · constructor
    · rintro ⟨credential, sessionless⟩
      refine ⟨fun a found own => credential a ⟨found, fun other => same (own.symm.trans other)⟩ own,
        fun session => same (sessionless session)⟩
    · rintro ⟨credential, sessionless⟩
      exact ⟨fun a found own => credential a found.1 own, fun session => absurd session sessionless⟩

/-- A run deletes the candidates that the rule allows to delete, and counts them. -/
theorem purge_spec (db : Db ι) (candidates : List (User ι)) :
    (∀ id, Replaceable (purge db candidates).2.1 id = Replaceable db id) ∧
    (purge db candidates).1 = candidates.countP (fun u => Replaceable db u.id) ∧
    (purge db candidates).2.1.users =
      db.users.filter fun u => !(Replaceable db u.id && candidates.any fun c => c.id = u.id) := by
  induction candidates generalizing db with
  | nil => exact ⟨fun _ => rfl, rfl, by simp [purge]⟩
  | cons u candidates ih =>
    cases allowed : Replaceable db u.id with
    | false =>
      have skipped : purge db (u :: candidates) = purge db candidates := if_pos (by rw [Replaceable] at allowed; rw [allowed]; rfl)
      obtain ⟨kept, count, users⟩ := ih db
      rw [skipped]
      refine ⟨kept, ?_, ?_⟩
      · rw [count, List.countP_cons_of_neg (by rw [allowed]; nofun)]
      · rw [users]
        apply List.filter_congr
        intro v _
        by_cases same : u.id = v.id
        · rw [← same, allowed, Bool.false_and, Bool.false_and]
        · rw [List.any_cons, decide_eq_false same, Bool.false_or]
    | true =>
      obtain ⟨kept, count, users⟩ := ih (deleteUser db u.id)
      have deleted : (purge db (u :: candidates)).1 = (purge (deleteUser db u.id) candidates).1 + 1 ∧
          (purge db (u :: candidates)).2.1 = (purge (deleteUser db u.id) candidates).2.1 := by
        have taken : purge db (u :: candidates) = _ := if_neg (by rw [Replaceable] at allowed; rw [allowed]; nofun)
        rw [taken]
        exact ⟨rfl, rfl⟩
      have same : ∀ id, Replaceable (deleteUser db u.id) id = Replaceable db id := deleteUser_replaceable allowed
      simp only [same] at kept count users
      refine ⟨fun id => by rw [deleted.2, kept], ?_, ?_⟩
      · rw [deleted.1, count]
        exact (List.countP_cons_of_pos (p := fun v : User ι => Replaceable db v.id) allowed).symm
      · rw [deleted.2, users]
        show List.filter _ (db.users.filter _) = _
        rw [List.filter_filter]
        apply List.filter_congr
        intro v _
        by_cases here : u.id = v.id
        · rw [← here, allowed, List.any_cons]
          simp
        · rw [List.any_cons, decide_eq_false here, Bool.false_or, decide_eq_true (Ne.symm here), Bool.and_true]

/-- The unverified accounts older than the cutoff that the rule allows to delete, and those it protects. -/
def deletable (db : Db ι) (cutoff : ℤ) : List (User ι) := (old db cutoff).filter fun u => Replaceable db u.id

def guarded (db : Db ι) (cutoff : ℤ) : List (User ι) := (old db cutoff).filter fun u => !Replaceable db u.id

theorem exists_deletable {db : Db ι} {cutoff : ℤ} {candidates : List (User ι)} (few : (guarded db cutoff).length < 500)
    (selected : Selected db cutoff candidates) (some_ : deletable db cutoff ≠ []) :
      ∃ u ∈ candidates, u ∈ deletable db cutoff := by
  obtain ⟨rows, order, rfl⟩ := selected
  by_contra none
  have all : ∀ u ∈ rows.take 500, (!Replaceable db u.id) = true := by
    intro u member
    rw [Bool.not_eq_true', Bool.eq_false_iff]
    intro allowed
    exact none ⟨u, member, List.mem_filter.mpr ⟨order.mem_iff.mp (List.mem_of_mem_take member), allowed⟩⟩
  have inside : (rows.take 500).length ≤ (guarded db cutoff).length := by
    have sublist := (List.take_sublist 500 rows).filter fun u => !Replaceable db u.id
    rw [List.filter_eq_self.mpr all] at sublist
    have count := (order.filter fun u => !Replaceable db u.id).length_eq
    exact sublist.length_le.trans (le_of_eq count)
  rw [List.length_take] at inside
  have whole : rows.take 500 = rows := List.take_of_length_le (by omega)
  obtain ⟨u, member⟩ := List.exists_mem_of_ne_nil _ some_
  obtain ⟨found, _⟩ := List.mem_filter.mp member
  exact none ⟨u, by rw [whole]; exact order.mem_iff.mpr found, member⟩

/-- An order in which a run reads protected accounts only. -/
theorem exists_blocked {db : Db ι} {cutoff : ℤ} (many : 500 ≤ (guarded db cutoff).length) :
    ∃ candidates, Selected db cutoff candidates ∧ purge db candidates = (0, db, []) := by
  refine ⟨(guarded db cutoff).take 500,
    ⟨guarded db cutoff ++ deletable db cutoff, ?_, (List.take_append_of_le_length many).symm⟩, ?_⟩
  · have split := List.filter_append_perm (fun u : User ι => !Replaceable db u.id) (old db cutoff)
    simp only [Bool.not_not] at split
    exact split
  · have all : ∀ u ∈ (guarded db cutoff).take 500, Replaceable db u.id = false := by
      intro u member
      have kept := (List.mem_filter.mp (List.mem_of_mem_take member)).2
      rwa [Bool.not_eq_true'] at kept
    generalize (guarded db cutoff).take 500 = candidates at all
    induction candidates with
    | nil => rfl
    | cons u candidates ih =>
      have skipped : purge db (u :: candidates) = purge db candidates := by
        have kept := all u List.mem_cons_self
        rw [Replaceable] at kept
        exact if_pos (by rw [kept]; rfl)
      rw [skipped]
      exact ih fun v member => all v (List.mem_cons_of_mem _ member)

/-- Of the accounts that the rule allows to delete those stay that were not read. -/
theorem deletable_purge (db : Db ι) (cutoff : ℤ) (candidates : List (User ι)) :
    deletable (purge db candidates).2.1 cutoff =
      (deletable db cutoff).filter fun u => !candidates.any fun c => c.id = u.id := by
  obtain ⟨kept, _, users⟩ := purge_spec db candidates
  simp only [deletable, old, kept, users, List.filter_filter]
  apply List.filter_congr
  intro u _
  cases Replaceable db u.id <;> cases u.emailVerified <;> cases (candidates.any fun c => decide (c.id = u.id)) <;> simp

theorem guarded_purge (db : Db ι) (cutoff : ℤ) (candidates : List (User ι)) :
    guarded (purge db candidates).2.1 cutoff = guarded db cutoff := by
  obtain ⟨kept, _, users⟩ := purge_spec db candidates
  simp only [guarded, old, kept, users, List.filter_filter]
  apply List.filter_congr
  intro u _
  cases Replaceable db u.id <;> cases u.emailVerified <;> simp

/-! ### Repeated runs -/

/-- Runs one after another, each in an order of its own. -/
def PurgeRuns (now : ℤ) (olderThanHours : Option ℤ) : ℕ → Db ι → Db ι → Prop
  | 0, db, db' => db' = db
  | n + 1, db, db' => ∃ result, PurgeWith db now olderThanHours result ∧ PurgeRuns now olderThanHours n result.2.1 db'

/-- A run deletes an account when there is one to delete, and finitely many runs delete all of them. -/
def Progress (db : Db ι) (now : ℤ) (olderThanHours : Option ℤ) : Prop :=
  (∀ result, PurgeWith db now olderThanHours result → deletable db (cutoff now olderThanHours) ≠ [] →
    1 ≤ result.1 ∧ result.2.1.users.length < db.users.length) ∧
  ∃ n, ∀ db', PurgeRuns now olderThanHours n db db' → deletable db' (cutoff now olderThanHours) = []

theorem purge_advances {db : Db ι} {cutoff : ℤ} {candidates : List (User ι)} {u : User ι} (read : u ∈ candidates)
    (found : u ∈ deletable db cutoff) :
    1 ≤ (purge db candidates).1 ∧ (purge db candidates).2.1.users.length < db.users.length ∧
    (deletable (purge db candidates).2.1 cutoff).length < (deletable db cutoff).length := by
  obtain ⟨isOld, allowed⟩ := List.mem_filter.mp found
  obtain ⟨present, _⟩ := List.mem_filter.mp isOld
  obtain ⟨_, count, users⟩ := purge_spec db candidates
  have listed : (candidates.any fun c => decide (c.id = u.id)) = true := List.any_eq_true.mpr ⟨u, read, decide_eq_true rfl⟩
  refine ⟨?_, ?_, ?_⟩
  · rw [count]
    exact List.countP_pos_iff.mpr ⟨u, read, allowed⟩
  · rw [users, List.length_filter_lt_length_iff_exists]
    exact ⟨u, present, by rw [allowed, listed]; nofun⟩
  · rw [deletable_purge, List.length_filter_lt_length_iff_exists]
    exact ⟨u, found, by rw [listed]; nofun⟩

theorem runs_delete_all {now : ℤ} {olderThanHours : Option ℤ} {n : ℕ} {db db' : Db ι}
    (few : (guarded db (cutoff now olderThanHours)).length < 500) (enough : (deletable db (cutoff now olderThanHours)).length ≤ n)
    (runs : PurgeRuns now olderThanHours n db db') : deletable db' (cutoff now olderThanHours) = [] := by
  induction n generalizing db with
  | zero =>
    obtain rfl := runs
    exact List.length_eq_zero_iff.mp (Nat.le_zero.mp enough)
  | succ n ih =>
    obtain ⟨result, ⟨candidates, selected, rfl⟩, rest⟩ := runs
    apply ih _ _ rest
    · rw [guarded_purge]
      exact few
    · by_cases done : deletable db (cutoff now olderThanHours) = []
      · rw [deletable_purge, done]
        exact Nat.zero_le n
      · obtain ⟨u, read, found⟩ := exists_deletable few selected done
        have fewer := (purge_advances read found).2.2
        omega

/-- The purge makes progress unless 500 protected accounts can hide those it may delete. -/
theorem purge_progress (db : Db ι) (now : ℤ) (olderThanHours : Option ℤ) :
    Progress db now olderThanHours ↔
      deletable db (cutoff now olderThanHours) = [] ∨ (guarded db (cutoff now olderThanHours)).length < 500 := by
  constructor
  · rintro ⟨advances, _⟩
    by_contra stuck
    obtain ⟨some_, many⟩ := not_or.mp stuck
    obtain ⟨candidates, selected, nothing⟩ := exists_blocked (Nat.not_lt.mp many)
    have purged := (advances _ ⟨candidates, selected, rfl⟩ some_).1
    rw [nothing] at purged
    exact Nat.not_succ_le_zero 0 purged
  · rintro (none | few)
    · exact ⟨fun _ _ some_ => absurd none some_, 0, fun db' same => by rw [show db' = db from same, none]⟩
    · refine ⟨fun result run some_ => ?_, (deletable db (cutoff now olderThanHours)).length, fun db' runs =>
        runs_delete_all few le_rfl runs⟩
      obtain ⟨candidates, selected, rfl⟩ := run
      obtain ⟨u, read, found⟩ := exists_deletable few selected some_
      obtain ⟨counted, shorter, _⟩ := purge_advances read found
      exact ⟨counted, shorter⟩

/-- Guests of the tenant, who stay unverified, and one password account. -/
def guests : Db ℕ where
  users := (List.range 500).map (fun n => ⟨n, natText n ++ text "@guest.test", false, 0⟩) ++
    [⟨500, text "ann@uni.test", false, 0⟩]
  accounts := (List.range 500).map (fun n => ⟨n, text "microsoft"⟩) ++ [⟨500, CREDENTIAL⟩]
  sessions := []

/-- Five days later a run that reads the guests deletes nothing. -/
theorem guests_block_purge : ¬ Progress guests 432000000 none := by
  have squatter : Replaceable guests 500 = true := by
    rw [Replaceable_iff]
    refine ⟨fun a found own => ?_, List.not_mem_nil⟩
    rcases List.mem_append.mp found with guest | last
    · obtain ⟨n, small, rfl⟩ := List.mem_map.mp guest
      have range := List.mem_range.mp small
      have own : n = 500 := own
      omega
    · rw [List.mem_singleton.mp last]
  have some_ : deletable guests (cutoff 432000000 none) ≠ [] := by
    have here : (⟨500, text "ann@uni.test", false, 0⟩ : User ℕ) ∈ deletable guests (cutoff 432000000 none) :=
      List.mem_filter.mpr ⟨List.mem_filter.mpr ⟨List.mem_append_right _ (List.mem_singleton_self _), by decide⟩, squatter⟩
    exact List.ne_nil_of_mem here
  have many : 500 ≤ (guarded guests (cutoff 432000000 none)).length := by
    have kept : ∀ u ∈ (List.range 500).map (fun n => (⟨n, natText n ++ text "@guest.test", false, 0⟩ : User ℕ)),
        ((!u.emailVerified && decide (u.createdAt < cutoff 432000000 none)) && !Replaceable guests u.id) = true := by
      intro u member
      obtain ⟨n, small, rfl⟩ := List.mem_map.mp member
      have linked : Replaceable guests n = false := by
        rw [Bool.eq_false_iff]
        intro allowed
        have credential := (Replaceable_iff.mp allowed).1 ⟨n, text "microsoft"⟩
          (List.mem_append_left _ (List.mem_map.mpr ⟨n, small, rfl⟩)) rfl
        have other : text "microsoft" ≠ CREDENTIAL := by decide
        exact other credential
      dsimp only
      rw [linked]
      rfl
    have sublist : ((List.range 500).map (fun n => (⟨n, natText n ++ text "@guest.test", false, 0⟩ : User ℕ))).Sublist
        (guarded guests (cutoff 432000000 none)) := by
      have inside := (List.sublist_append_left
        ((List.range 500).map (fun n => (⟨n, natText n ++ text "@guest.test", false, 0⟩ : User ℕ)))
        [⟨500, text "ann@uni.test", false, 0⟩]).filter
          fun u => (!u.emailVerified && decide (u.createdAt < cutoff 432000000 none)) && !Replaceable guests u.id
      rw [List.filter_eq_self.mpr kept] at inside
      have same : guarded guests (cutoff 432000000 none) = guests.users.filter
          fun u => (!u.emailVerified && decide (u.createdAt < cutoff 432000000 none)) && !Replaceable guests u.id := by
        rw [guarded, old, List.filter_filter]
        apply List.filter_congr
        intro u _
        rw [Bool.and_comm]
      rw [same]
      exact inside
    have length := sublist.length_le
    rwa [List.length_map, List.length_range] at length
  rintro ⟨advances, _⟩
  obtain ⟨candidates, selected, nothing⟩ := exists_blocked many
  have purged := (advances _ ⟨candidates, selected, rfl⟩ some_).1
  rw [nothing] at purged
  exact Nat.not_succ_le_zero 0 purged

end Identity.Accounts
