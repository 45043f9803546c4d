import Mathlib.Logic.Function.Basic
import Mathlib.Tactic.TypeStar

/-!
# Transactions over a keyed table

Committed rows, and for each transaction the rows it locked and the writes it keeps to itself until
it commits. A row locked by one transaction is neither locked nor changed by anyone else.
-/

namespace Transactions

structure Db (κ ρ τ : Type*) where
  rows : κ → Option ρ
  owner : κ → Option τ
  writes : τ → κ → Option (Option ρ)

variable {κ ρ τ : Type*}

namespace Db

/-- The row as the transaction sees it. -/
def view (d : Db κ ρ τ) (t : τ) (k : κ) : Option ρ := (d.writes t k).getD (d.rows k)

variable [DecidableEq κ] [DecidableEq τ]

/-- Nobody else has the row locked. -/
def available (d : Db κ ρ τ) (t : τ) (k : κ) : Bool := d.owner k = none || d.owner k = some t

def lock (d : Db κ ρ τ) (t : τ) (k : κ) : Db κ ρ τ := { d with owner := Function.update d.owner k (some t) }

def write (d : Db κ ρ τ) (t : τ) (k : κ) (v : Option ρ) : Db κ ρ τ :=
  { d with
    owner := Function.update d.owner k (some t)
    writes := Function.update d.writes t (Function.update (d.writes t) k (some v)) }

/-- The transaction ends: its locks are free and its writes forgotten. -/
def abort (d : Db κ ρ τ) (t : τ) : Db κ ρ τ :=
  { d with
    owner := fun k => if d.owner k = some t then none else d.owner k
    writes := Function.update d.writes t fun _ => none }

def commit (d : Db κ ρ τ) (t : τ) : Db κ ρ τ := { d.abort t with rows := d.view t }

/-- A change outside the transactions modelled, to a row nobody has locked. -/
def put (d : Db κ ρ τ) (k : κ) (v : Option ρ) : Db κ ρ τ := { d with rows := Function.update d.rows k v }

end Db

/-- A transaction has locked what it wrote. -/
def Locked (d : Db κ ρ τ) : Prop := ∀ t k, d.writes t k ≠ none → d.owner k = some t

/-- What a transaction has locked and written is as it was. -/
structure Isolated (t : τ) (d d' : Db κ ρ τ) : Prop where
  writes : d'.writes t = d.writes t
  owner : ∀ k, d.owner k = some t → d'.owner k = some t
  rows : ∀ k, d.owner k = some t → d'.rows k = d.rows k

theorem Isolated.refl (t : τ) (d : Db κ ρ τ) : Isolated t d d := ⟨rfl, fun _ h => h, fun _ _ => rfl⟩

theorem Isolated.view {t : τ} {d d' : Db κ ρ τ} (isolated : Isolated t d d') {k : κ} (held : d.owner k = some t) :
    d'.view t k = d.view t k := by
  rw [Db.view, Db.view, isolated.writes, isolated.rows k held]

variable [DecidableEq κ] [DecidableEq τ]

section
variable (d : Db κ ρ τ) (t : τ) (k : κ) (v : Option ρ)

omit [DecidableEq τ] in
@[simp] theorem lock_rows : (d.lock t k).rows = d.rows := rfl

omit [DecidableEq τ] in
@[simp] theorem lock_writes : (d.lock t k).writes = d.writes := rfl

omit [DecidableEq τ] in
@[simp] theorem lock_owner_same : (d.lock t k).owner k = some t := Function.update_self _ _ _

omit [DecidableEq τ] in
@[simp] theorem lock_owner_other {k' : κ} (differs : k' ≠ k) : (d.lock t k).owner k' = d.owner k' :=
  Function.update_of_ne differs _ _

@[simp] theorem write_rows : (d.write t k v).rows = d.rows := rfl

@[simp] theorem write_owner_same : (d.write t k v).owner k = some t := Function.update_self _ _ _

@[simp] theorem write_owner_other {k' : κ} (differs : k' ≠ k) : (d.write t k v).owner k' = d.owner k' :=
  Function.update_of_ne differs _ _

@[simp] theorem write_writes_same : (d.write t k v).writes t k = some v := by
  simp [Db.write]

@[simp] theorem write_writes_key {k' : κ} (differs : k' ≠ k) : (d.write t k v).writes t k' = d.writes t k' := by
  simp [Db.write, differs]

@[simp] theorem write_writes_other {u : τ} (differs : u ≠ t) : (d.write t k v).writes u = d.writes u :=
  Function.update_of_ne differs _ _

omit [DecidableEq κ] in
@[simp] theorem abort_rows : (d.abort t).rows = d.rows := rfl

omit [DecidableEq κ] in
@[simp] theorem abort_writes_same (k : κ) : (d.abort t).writes t k = none := by
  simp [Db.abort]

omit [DecidableEq κ] in
@[simp] theorem abort_writes_other {u : τ} (differs : u ≠ t) : (d.abort t).writes u = d.writes u :=
  Function.update_of_ne differs _ _

omit [DecidableEq κ] in
@[simp] theorem commit_rows : (d.commit t).rows = d.view t := rfl

omit [DecidableEq τ] in
@[simp] theorem put_owner : (d.put k v).owner = d.owner := rfl

omit [DecidableEq τ] in
@[simp] theorem put_writes : (d.put k v).writes = d.writes := rfl

omit [DecidableEq τ] in
@[simp] theorem put_rows_same : (d.put k v).rows k = v := Function.update_self _ _ _

omit [DecidableEq τ] in
@[simp] theorem put_rows_other {k' : κ} (differs : k' ≠ k) : (d.put k v).rows k' = d.rows k' :=
  Function.update_of_ne differs _ _

end

/-! ### Locks and isolation -/

omit [DecidableEq κ] in
theorem available_other {d : Db κ ρ τ} {t u : τ} {k : κ} (free : d.available u k = true) (differs : t ≠ u) :
    d.owner k ≠ some t := by
  intro held
  simp only [Db.available, held, Bool.or_eq_true, decide_eq_true_eq, reduceCtorEq, false_or] at free
  exact differs (Option.some.inj free)

theorem lock_locked {d : Db κ ρ τ} (locked : Locked d) {t : τ} {k : κ} (free : d.available t k = true) :
    Locked (d.lock t k) := by
  intro u k' wrote
  have held := locked u k' wrote
  by_cases same : k' = k
  · subst same
    by_cases own : u = t
    · rw [own, lock_owner_same]
    · exact (available_other free own held).elim
  · rw [lock_owner_other d t k same, held]

theorem write_locked {d : Db κ ρ τ} (locked : Locked d) {t : τ} {k : κ} (free : d.available t k = true)
    (v : Option ρ) : Locked (d.write t k v) := by
  intro u k' wrote
  by_cases same : k' = k
  · subst same
    by_cases own : u = t
    · rw [own, write_owner_same]
    · rw [write_writes_other d t k' v own] at wrote
      exact (available_other free own (locked u k' wrote)).elim
  · rw [write_owner_other d t k v same]
    apply locked
    by_cases own : u = t
    · subst own
      rwa [write_writes_key d u k v same] at wrote
    · rwa [write_writes_other d t k v own] at wrote

omit [DecidableEq κ] in
theorem abort_locked {d : Db κ ρ τ} (locked : Locked d) (t : τ) : Locked (d.abort t) := by
  intro u k wrote
  by_cases own : u = t
  · subst own
    simp at wrote
  · rw [abort_writes_other d t own] at wrote
    have held := locked u k wrote
    have differs : d.owner k ≠ some t := by
      rw [held]
      exact fun same => own (Option.some.inj same)
    exact (if_neg differs).trans held

omit [DecidableEq κ] in
theorem commit_locked {d : Db κ ρ τ} (locked : Locked d) (t : τ) : Locked (d.commit t) := abort_locked locked t

theorem lock_isolated {d : Db κ ρ τ} {t u : τ} {k : κ} (free : d.available u k = true) (differs : t ≠ u) :
    Isolated t d (d.lock u k) where
  writes := rfl
  owner k' held := by
    have other : k' ≠ k := by
      rintro rfl
      exact available_other free differs held
    exact (Function.update_of_ne other _ _).trans held
  rows _ _ := rfl

theorem write_isolated {d : Db κ ρ τ} {t u : τ} {k : κ} (free : d.available u k = true) (differs : t ≠ u)
    (v : Option ρ) : Isolated t d (d.write u k v) where
  writes := Function.update_of_ne differs _ _
  owner k' held := by
    have other : k' ≠ k := by
      rintro rfl
      exact available_other free differs held
    exact (Function.update_of_ne other _ _).trans held
  rows _ _ := rfl

omit [DecidableEq κ] in
theorem abort_isolated (d : Db κ ρ τ) {t u : τ} (differs : t ≠ u) : Isolated t d (d.abort u) where
  writes := Function.update_of_ne differs _ _
  owner k held := by
    have other : d.owner k ≠ some u := by
      rw [held]
      exact fun same => differs (Option.some.inj same)
    exact (if_neg other).trans held
  rows _ _ := rfl

omit [DecidableEq κ] in
/-- A transaction commits nothing into the rows another one has locked. -/
theorem commit_isolated {d : Db κ ρ τ} (locked : Locked d) {t u : τ} (differs : t ≠ u) : Isolated t d (d.commit u) where
  writes := (abort_isolated d differs).writes
  owner := (abort_isolated d differs).owner
  rows k held := by
    cases wrote : d.writes u k with
    | none => simp [Db.commit, Db.view, wrote]
    | some v =>
      have owned := locked u k (by simp [wrote])
      rw [held] at owned
      exact (differs (Option.some.inj owned)).elim

omit [DecidableEq τ] in
theorem put_isolated {d : Db κ ρ τ} {t : τ} {k : κ} (free : d.owner k = none) (v : Option ρ) :
    Isolated t d (d.put k v) where
  writes := rfl
  owner _ held := held
  rows k' held := by
    have other : k' ≠ k := by
      rintro rfl
      rw [free] at held
      cases held
    exact Function.update_of_ne other _ _

end Transactions
