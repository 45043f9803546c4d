import AppPlatform.Lib.Value
import AppPlatform.Lib.Run

/-!
# Purging the sessions of a user

Sessions live in Postgres, as copies in the secondary storage, and in a list per user beside the
copies. `purgeSessions` removes them in that order. A call of the storage that fails answers `null`
or does nothing, and is counted.
-/

namespace Identity
open Js

structure Storage where
  cache : Text → Option Text
  degraded : ℕ

namespace Storage

def get (s : Storage) (fails : Bool) (key : Text) : Option Text × Storage :=
  if fails then (none, { s with degraded := s.degraded + 1 }) else (s.cache key, s)

def delete (s : Storage) (fails : Bool) (key : Text) : Storage :=
  if fails then { s with degraded := s.degraded + 1 } else { s with cache := Function.update s.cache key none }

end Storage

/-! ### A run -/

structure World where
  /-- The tokens of the user's session rows. -/
  rows : List Text
  storage : Storage

/-- What the run meets: which calls of the storage fail, and in which order the database answers. -/
structure Oracle where
  connected : Bool
  order : List Text → List Text
  order_perm : ∀ rows, (order rows).Perm rows
  tokenDelete : ℕ → Text → Bool
  availableAfter : ℕ → Bool
  listGet : Bool
  listedGet : Text → Bool
  listedDelete : Text → Bool
  listDelete : Bool
  availableAtEnd : Bool

inductive Ended where
  | returned (revoked : ℕ)
  | threw (revoked : ℕ)
  deriving DecidableEq

/-- `active-sessions-` and the id of the user. -/
def listKey (userId : Text) : Text := text "active-sessions-" ++ userId

/-- `Promise.all` over the tokens of batch `n`. -/
def deleteTokens (o : Oracle) (n : ℕ) (tokens : List Text) (s : Storage) : Storage :=
  tokens.foldl (fun s token => s.delete (o.tokenDelete n token) token) s

/-- `deleteSessions`. -/
def deleteSessions (tokens rows : List Text) : List Text := rows.filter fun token => token ∉ tokens

inductive Batches where
  | over (revoked : ℕ) (w : World)
  | failed (revoked : ℕ) (w : World)
  /-- Never reached: see `purgeRows_spec`. -/
  | endless

/-- The loop over the rows, at most `fuel` batches. -/
def purgeRows (o : Oracle) : ℕ → ℕ → ℕ → Text → World → Batches
  | 0, _, _, _, _ => .endless
  | fuel + 1, n, revoked, previous, w =>
    match (o.order w.rows).take 500 with
    | [] => .over revoked w
    | token :: rest =>
      if token = previous then .over revoked w
      else
        let storage := deleteTokens o n (token :: rest) w.storage
        if storage.degraded ≠ w.storage.degraded ∨ o.availableAfter n = false then .failed revoked ⟨w.rows, storage⟩
        else purgeRows o fuel (n + 1) (revoked + (token :: rest).length) token
          ⟨deleteSessions (token :: rest) w.rows, storage⟩

/-- The tokens a list names, each once; an unreadable list names none. -/
def listed (raw : Option Text) : List Text :=
  match raw.bind parse with
  | some (.arr entries) =>
    (entries.filterMap fun entry =>
      match entry.field? (text "token") with
      | some (.str token) => some token
      | _ => none).eraseDups
  | _ => []

def purgeListed (o : Oracle) : List Text → ℕ → Storage → ℕ × Storage
  | [], revoked, s => (revoked, s)
  | token :: rest, revoked, s =>
    match s.get (o.listedGet token) token with
    | (none, s) => purgeListed o rest revoked s
    | (some _, s) => purgeListed o rest (revoked + 1) (s.delete (o.listedDelete token) token)

def purgeList (userId : Text) (o : Oracle) (revoked : ℕ) (w : World) : Ended × World :=
  let (raw, storage) := w.storage.get o.listGet (listKey userId)
  let (revoked, storage) := purgeListed o (listed raw) revoked storage
  let storage := storage.delete o.listDelete (listKey userId)
  if storage.degraded ≠ w.storage.degraded ∨ o.availableAtEnd = false then (.threw revoked, ⟨w.rows, storage⟩)
  else (.returned revoked, ⟨w.rows, storage⟩)

def purgeSessions (userId : Text) (o : Oracle) (w : World) : Ended × World :=
  if o.connected = false then (.threw 0, w)
  else match purgeRows o (w.rows.length + 1) 0 0 [] w with
    | .over revoked w => purgeList userId o revoked w
    | .failed revoked w => (.threw revoked, w)
    | .endless => (.threw 0, w)

def isToken (token : Text) : Bool :=
  token ≠ [] && token.all fun u => isDigit u || (unit 'a' ≤ u && u ≤ unit 'z') || (unit 'A' ≤ u && u ≤ unit 'Z')

/-- A session the purge can find: it has a row, or the user's list names it. -/
def Known (userId : Text) (w : World) (token : Text) : Prop :=
  token ∈ w.rows ∨ token ∈ listed (w.storage.cache (listKey userId))

/-- A session that is not removed. -/
def Alive (w : World) (token : Text) : Prop := token ∈ w.rows ∨ w.storage.cache token ≠ none

/-! ### What a phase removes -/

/-- The storage has lost entries and counted failures, nothing else. -/
structure Shrinks (s s' : Storage) : Prop where
  cache : ∀ k, s'.cache k = s.cache k ∨ s'.cache k = none
  degraded : s.degraded ≤ s'.degraded

theorem Shrinks.refl (s : Storage) : Shrinks s s := ⟨fun _ => Or.inl rfl, le_refl _⟩

theorem Shrinks.trans {s t u : Storage} (first : Shrinks s t) (second : Shrinks t u) : Shrinks s u where
  cache k := by
    rcases second.cache k with same | gone
    · rw [same]
      exact first.cache k
    · exact Or.inr gone
  degraded := le_trans first.degraded second.degraded

theorem Shrinks.gone {s t : Storage} (shrinks : Shrinks s t) {k : Text} (gone : s.cache k = none) :
    t.cache k = none := by
  rcases shrinks.cache k with same | gone'
  · rw [same, gone]
  · exact gone'

theorem delete_shrinks (s : Storage) (fails : Bool) (k : Text) : Shrinks s (s.delete fails k) := by
  cases fails with
  | true => exact ⟨fun _ => Or.inl rfl, Nat.le_succ _⟩
  | false =>
    refine ⟨fun k' => ?_, le_refl _⟩
    by_cases same : k' = k
    · exact Or.inr (by simp [Storage.delete, same])
    · exact Or.inl (by simp [Storage.delete, same])

theorem delete_other (s : Storage) (fails : Bool) {k k' : Text} (differs : k' ≠ k) :
    (s.delete fails k).cache k' = s.cache k' := by
  cases fails <;> simp [Storage.delete, differs]

theorem delete_counted {s : Storage} {fails : Bool} {k : Text} (uncounted : (s.delete fails k).degraded = s.degraded) :
    (s.delete fails k).cache k = none := by
  cases fails with
  | true => simp [Storage.delete] at uncounted
  | false => simp [Storage.delete]

/-- A loop over tokens whose body removes the copy under each, or counts a failure. -/
structure Removes (visit : Storage → Text → Storage) : Prop where
  shrinks : ∀ s token, Shrinks s (visit s token)
  other : ∀ s token k, k ≠ token → (visit s token).cache k = s.cache k
  counted : ∀ s token, (visit s token).degraded = s.degraded → (visit s token).cache token = none

section
variable {visit : Storage → Text → Storage} (removes : Removes visit)
include removes

theorem Removes.fold_shrinks (tokens : List Text) (s : Storage) : Shrinks s (tokens.foldl visit s) := by
  induction tokens generalizing s with
  | nil => exact .refl s
  | cons token rest ih => exact (removes.shrinks s token).trans (ih _)

theorem Removes.fold_other {tokens : List Text} (s : Storage) {k : Text} (other : k ∉ tokens) :
    (tokens.foldl visit s).cache k = s.cache k := by
  induction tokens generalizing s with
  | nil => rfl
  | cons token rest ih =>
    obtain ⟨differs, later⟩ := not_or.mp (List.mem_cons.not.mp other)
    exact (ih _ later).trans (removes.other s token k differs)

theorem Removes.fold_counted {tokens : List Text} {s : Storage} (uncounted : (tokens.foldl visit s).degraded = s.degraded)
    {k : Text} (member : k ∈ tokens) : (tokens.foldl visit s).cache k = none := by
  induction tokens generalizing s with
  | nil => cases member
  | cons token rest ih =>
    have first := removes.shrinks s token
    have later := removes.fold_shrinks rest (visit s token)
    have uncounted : (rest.foldl visit (visit s token)).degraded = s.degraded := uncounted
    have here : (visit s token).degraded = s.degraded := le_antisymm (uncounted ▸ later.degraded) first.degraded
    rcases List.mem_cons.mp member with rfl | member
    · exact later.gone (removes.counted s _ here)
    · exact ih (uncounted.trans here.symm) member

theorem Removes.fold_removes {tokens : List Text} {k : Text} (removed : ∀ s, (visit s k).cache k = none)
    (member : k ∈ tokens) (s : Storage) : (tokens.foldl visit s).cache k = none := by
  induction tokens generalizing s with
  | nil => cases member
  | cons token rest ih =>
    rcases List.mem_cons.mp member with rfl | member
    · exact (removes.fold_shrinks rest _).gone (removed s)
    · exact ih member _

end

theorem delete_removes (fails : Text → Bool) : Removes fun s token => s.delete (fails token) token where
  shrinks s token := delete_shrinks s _ token
  other s _ _ differs := delete_other s _ differs
  counted _ _ uncounted := delete_counted uncounted

/-- One turn of the loop over the list. -/
def visitListed (o : Oracle) (s : Storage) (token : Text) : Storage :=
  match s.get (o.listedGet token) token with
  | (none, s) => s
  | (some _, s) => s.delete (o.listedDelete token) token

theorem purgeListed_storage (o : Oracle) (tokens : List Text) (revoked : ℕ) (s : Storage) :
    (purgeListed o tokens revoked s).2 = tokens.foldl (visitListed o) s := by
  induction tokens generalizing revoked s with
  | nil => rfl
  | cons token rest ih =>
    rw [purgeListed, List.foldl_cons, visitListed]
    split
    · rw [ih]
    · rw [ih]

theorem visitListed_absent (o : Oracle) {s : Storage} {token : Text} (answered : o.listedGet token = false)
    (absent : s.cache token = none) : visitListed o s token = s := by
  simp [visitListed, Storage.get, answered, absent]

theorem visitListed_present (o : Oracle) {s : Storage} {token v : Text} (answered : o.listedGet token = false)
    (present : s.cache token = some v) : visitListed o s token = s.delete (o.listedDelete token) token := by
  simp [visitListed, Storage.get, answered, present]

theorem visitListed_failed (o : Oracle) (s : Storage) {token : Text} (failed : o.listedGet token = true) :
    visitListed o s token = { s with degraded := s.degraded + 1 } := by
  simp [visitListed, Storage.get, failed]

theorem visitListed_removes (o : Oracle) : Removes (visitListed o) where
  shrinks s token := by
    cases answered : o.listedGet token with
    | true =>
      rw [visitListed_failed o s answered]
      exact ⟨fun _ => Or.inl rfl, Nat.le_succ _⟩
    | false =>
      cases present : s.cache token with
      | none =>
        rw [visitListed_absent o answered present]
        exact .refl s
      | some v =>
        rw [visitListed_present o answered present]
        exact delete_shrinks s _ token
  other s token k differs := by
    cases answered : o.listedGet token with
    | true => rw [visitListed_failed o s answered]
    | false =>
      cases present : s.cache token with
      | none => rw [visitListed_absent o answered present]
      | some v => rw [visitListed_present o answered present, delete_other s _ differs]
  counted s token uncounted := by
    cases answered : o.listedGet token with
    | true =>
      rw [visitListed_failed o s answered] at uncounted
      simp at uncounted
    | false =>
      cases present : s.cache token with
      | none => rw [visitListed_absent o answered present, present]
      | some v =>
        rw [visitListed_present o answered present] at uncounted ⊢
        exact delete_counted uncounted

/-- Calls that do not fail remove the copy. -/
theorem visitListed_gone (o : Oracle) {token : Text} (answered : o.listedGet token = false)
    (deleted : o.listedDelete token = false) (s : Storage) : (visitListed o s token).cache token = none := by
  cases present : s.cache token with
  | none => rw [visitListed_absent o answered present, present]
  | some v =>
    rw [visitListed_present o answered present, deleted]
    simp [Storage.delete]

theorem listKey_not_token (userId : Text) : isToken (listKey userId) = false := by
  have hyphen : unit '-' ∈ listKey userId := by
    apply List.mem_append_left
    decide
  simp only [isToken, Bool.and_eq_false_iff]
  right
  rw [List.all_eq_false]
  exact ⟨_, hyphen, by decide⟩

/-- What the loop over the rows leaves. -/
structure RowsPurged (w w' : World) : Prop where
  storage : Shrinks w.storage w'.storage
  rows : ∀ token ∈ w'.rows, token ∈ w.rows
  removed : ∀ token ∈ w.rows, token ∈ w'.rows ∨ w'.storage.cache token = none
  others : ∀ k, k ∉ w.rows → w'.storage.cache k = w.storage.cache k

theorem RowsPurged.refl (w : World) : RowsPurged w w :=
  ⟨.refl _, fun _ member => member, fun _ member => Or.inl member, fun _ _ => rfl⟩

theorem RowsPurged.trans {u v w : World} (first : RowsPurged u v) (second : RowsPurged v w) : RowsPurged u w where
  storage := first.storage.trans second.storage
  rows token member := first.rows token (second.rows token member)
  removed token member := by
    rcases first.removed token member with stays | gone
    · exact second.removed token stays
    · exact Or.inr (second.storage.gone gone)
  others k other := by
    rw [second.others k fun member => other (first.rows k member), first.others k other]

/-- The loop ends, with every row gone unless it failed. -/
theorem purgeRows_spec (o : Oracle) (fuel n revoked : ℕ) (previous : Text) (w : World) (enough : w.rows.length < fuel)
    (fresh : previous ∉ w.rows) : ∃ revoked' w', RowsPurged w w' ∧
      (purgeRows o fuel n revoked previous w = .failed revoked' w' ∨
        purgeRows o fuel n revoked previous w = .over revoked' w' ∧ w'.rows = []) := by
  induction fuel generalizing n revoked previous w with
  | zero => omega
  | succ fuel ih =>
    have perm := o.order_perm w.rows
    rw [purgeRows]
    cases batch : (o.order w.rows).take 500 with
    | nil =>
      have nothing : o.order w.rows = [] := by
        rcases List.take_eq_nil_iff.mp batch with impossible | nothing
        · omega
        · exact nothing
      rw [nothing] at perm
      exact ⟨revoked, w, .refl w, Or.inr ⟨rfl, perm.symm.eq_nil⟩⟩
    | cons token rest =>
      have known : ∀ t ∈ token :: rest, t ∈ w.rows := by
        intro t member
        rw [← batch] at member
        exact perm.mem_iff.mp (List.mem_of_mem_take member)
      have new : token ≠ previous := by
        rintro rfl
        exact fresh (known _ List.mem_cons_self)
      simp only [if_neg new]
      split
      · refine ⟨revoked, ⟨w.rows, deleteTokens o n (token :: rest) w.storage⟩,
          ⟨(delete_removes (o.tokenDelete n)).fold_shrinks _ _, fun _ h => h, fun _ h => Or.inl h, fun k other => ?_⟩,
          Or.inl rfl⟩
        exact (delete_removes (o.tokenDelete n)).fold_other _ fun member => other (known k member)
      · rename_i fine
        have uncounted := not_not.mp (not_or.mp fine).1
        have purged : RowsPurged w ⟨deleteSessions (token :: rest) w.rows, deleteTokens o n (token :: rest) w.storage⟩ := by
          refine ⟨(delete_removes (o.tokenDelete n)).fold_shrinks _ _, fun t member =>
            (List.mem_filter.mp member).1, fun t member => ?_,
            fun k other => (delete_removes (o.tokenDelete n)).fold_other _ fun member => other (known k member)⟩
          by_cases inBatch : t ∈ token :: rest
          · exact Or.inr ((delete_removes (o.tokenDelete n)).fold_counted uncounted inBatch)
          · exact Or.inl (List.mem_filter.mpr ⟨member, decide_eq_true inBatch⟩)
        have smaller : (deleteSessions (token :: rest) w.rows).length < fuel := by
          have fewer : (deleteSessions (token :: rest) w.rows).length < w.rows.length := by
            apply List.length_filter_lt_length_iff_exists.mpr
            exact ⟨token, known _ List.mem_cons_self, by simp⟩
          omega
        have gone : token ∉ deleteSessions (token :: rest) w.rows := by
          intro member
          have := (List.mem_filter.mp member).2
          simp at this
        obtain ⟨revoked', w', later, result⟩ := ih (n + 1) (revoked + (token :: rest).length) token
          ⟨deleteSessions (token :: rest) w.rows, deleteTokens o n (token :: rest) w.storage⟩ smaller gone
        exact ⟨revoked', w', purged.trans later, result⟩

/-! ### Whole runs -/

section
variable (userId : Text)

def afterListed (o : Oracle) (s : Storage) : Storage :=
  (listed (s.get o.listGet (listKey userId)).1).foldl (visitListed o) (s.get o.listGet (listKey userId)).2

theorem purgeList_storage (o : Oracle) (revoked : ℕ) (w : World) :
    (purgeList userId o revoked w).2 = ⟨w.rows, (afterListed userId o w.storage).delete o.listDelete (listKey userId)⟩ := by
  rw [purgeList]
  simp only [purgeListed_storage]
  split <;> rfl

theorem get_shrinks (s : Storage) (fails : Bool) (k : Text) : Shrinks s (s.get fails k).2 := by
  cases fails with
  | true => exact ⟨fun _ => Or.inl rfl, Nat.le_succ _⟩
  | false => exact .refl s

theorem afterListed_shrinks (o : Oracle) (s : Storage) : Shrinks s (afterListed userId o s) :=
  (get_shrinks s _ _).trans ((visitListed_removes o).fold_shrinks _ _)

theorem purgeList_shrinks (o : Oracle) (revoked : ℕ) (w : World) :
    Shrinks w.storage (purgeList userId o revoked w).2.storage := by
  rw [purgeList_storage]
  exact (afterListed_shrinks userId o w.storage).trans (delete_shrinks _ _ _)

/-- A list phase that does not throw read the list and removed every copy it names. -/
theorem purgeList_returned {o : Oracle} {revoked revoked' : ℕ} {w : World}
    (returned : (purgeList userId o revoked w).1 = .returned revoked') {token : Text}
    (named : token ∈ listed (w.storage.cache (listKey userId))) :
    (purgeList userId o revoked w).2.storage.cache token = none := by
  have after := purgeList_storage userId o revoked w
  have shrinks := afterListed_shrinks userId o w.storage
  have final := delete_shrinks (afterListed userId o w.storage) o.listDelete (listKey userId)
  have uncounted : ((afterListed userId o w.storage).delete o.listDelete (listKey userId)).degraded = w.storage.degraded := by
    rw [purgeList] at returned
    simp only [purgeListed_storage] at returned
    split at returned
    · cases returned
    · rename_i fine
      exact not_not.mp (not_or.mp fine).1
  have counted : (afterListed userId o w.storage).degraded = w.storage.degraded :=
    le_antisymm (uncounted ▸ final.degraded) shrinks.degraded
  have answered : o.listGet = false := by
    by_contra failed
    have failed : o.listGet = true := by simpa using failed
    have more := ((visitListed_removes o).fold_shrinks (listed (w.storage.get o.listGet (listKey userId)).1)
      (w.storage.get o.listGet (listKey userId)).2).degraded
    have same : (w.storage.get o.listGet (listKey userId)).2.degraded = w.storage.degraded + 1 := by
      simp [Storage.get, failed]
    rw [same] at more
    exact absurd (counted ▸ more) (by simp)
  have read : w.storage.get o.listGet (listKey userId) = (w.storage.cache (listKey userId), w.storage) := by
    simp [Storage.get, answered]
  rw [after]
  apply final.gone
  rw [afterListed, read] at counted ⊢
  exact (visitListed_removes o).fold_counted counted named

/-- The list is still there, or each copy it named is gone, when the calls that matter succeed. -/
theorem purgeList_kept {o : Oracle} {revoked : ℕ} {w : World} {token : Text} (differs : token ≠ listKey userId)
    (named : token ∈ listed (w.storage.cache (listKey userId)))
    (kept : o.listDelete = false → w.storage.cache token ≠ none →
      o.listGet = false ∧ o.listedGet token = false ∧ o.listedDelete token = false)
    (unlisted : listKey userId ∉ listed (w.storage.cache (listKey userId))) :
    (purgeList userId o revoked w).2.storage.cache token = none ∨
      token ∈ listed ((purgeList userId o revoked w).2.storage.cache (listKey userId)) := by
  rw [purgeList_storage]
  cases deleted : o.listDelete with
  | true =>
    right
    have same : ((afterListed userId o w.storage).delete true (listKey userId)).cache (listKey userId) =
        w.storage.cache (listKey userId) := by
      show (afterListed userId o w.storage).cache (listKey userId) = _
      rw [afterListed]
      cases answered : o.listGet with
      | true => rfl
      | false => exact (visitListed_removes o).fold_other _ unlisted
    simp only [same]
    exact named
  | false =>
    left
    simp only [delete_other _ false differs]
    by_cases absent : w.storage.cache token = none
    · exact (afterListed_shrinks userId o w.storage).gone absent
    · obtain ⟨answered, got, removed⟩ := kept deleted absent
      rw [afterListed, answered]
      exact (visitListed_removes o).fold_removes (visitListed_gone o got removed) named _

/-- Each listed session without a row, if the deletion of the list takes effect, is read and deleted. -/
def ListKept (w : World) (o : Oracle) : Prop :=
  o.listDelete = false → ∀ token ∈ listed (w.storage.cache (listKey userId)), token ∉ w.rows →
    w.storage.cache token ≠ none → o.listGet = false ∧ o.listedGet token = false ∧ o.listedDelete token = false

/-- The ways a run goes: it stops before the list, or every row is gone and the list is next. -/
theorem purgeSessions_cases (o : Oracle) (w : World) (tokens : ∀ token ∈ w.rows, isToken token = true) :
    ∃ w', RowsPurged w w' ∧ ((∃ revoked, purgeSessions userId o w = (.threw revoked, w')) ∨
      w'.rows = [] ∧ ∃ revoked, purgeSessions userId o w = purgeList userId o revoked w') := by
  unfold purgeSessions
  split
  · exact ⟨w, .refl w, Or.inl ⟨0, rfl⟩⟩
  · have fresh : [] ∉ w.rows := by
      intro member
      have empty := tokens [] member
      simp [isToken] at empty
    obtain ⟨revoked, w', purged, failed | ⟨ended, gone⟩⟩ :=
      purgeRows_spec o (w.rows.length + 1) 0 0 [] w (Nat.lt_succ_self _) fresh
    · rw [failed]
      exact ⟨w', purged, Or.inl ⟨revoked, rfl⟩⟩
    · rw [ended]
      exact ⟨w', purged, Or.inr ⟨gone, revoked, rfl⟩⟩

/-- Whatever fails, nothing comes back. -/
theorem purgeSessions_shrinks (o : Oracle) {w : World} (tokens : ∀ token ∈ w.rows, isToken token = true) :
    Shrinks w.storage (purgeSessions userId o w).2.storage ∧ ∀ token ∈ (purgeSessions userId o w).2.rows, token ∈ w.rows := by
  obtain ⟨w', purged, ⟨revoked, stopped⟩ | ⟨gone, revoked, reached⟩⟩ := purgeSessions_cases userId o w tokens
  · rw [stopped]
    exact ⟨purged.storage, purged.rows⟩
  · rw [reached]
    refine ⟨purged.storage.trans (purgeList_shrinks userId o revoked w'), ?_⟩
    rw [purgeList_storage]
    intro token member
    exact purged.rows token member

theorem Shrinks.listed {s t : Storage} (shrinks : Shrinks s t) {token : Text}
    (named : token ∈ listed (t.cache (listKey userId))) : token ∈ Identity.listed (s.cache (listKey userId)) := by
  rcases shrinks.cache (listKey userId) with same | gone
  · rw [← same]
    exact named
  · rw [gone] at named
    cases named

theorem purgeSessions_known (o : Oracle) {w : World} (tokens : ∀ token ∈ w.rows, isToken token = true) {token : Text}
    (known : Known userId (purgeSessions userId o w).2 token) : Known userId w token := by
  obtain ⟨shrinks, rows⟩ := purgeSessions_shrinks userId o tokens
  rcases known with row | named
  · exact Or.inl (rows token row)
  · exact Or.inr (shrinks.listed userId named)

theorem purgeSessions_gone (o : Oracle) {w : World} (tokens : ∀ token ∈ w.rows, isToken token = true) {token : Text}
    (gone : ¬ Alive w token) : ¬ Alive (purgeSessions userId o w).2 token := by
  obtain ⟨shrinks, rows⟩ := purgeSessions_shrinks userId o tokens
  obtain ⟨noRow, noCopy⟩ := not_or.mp gone
  rintro (row | copy)
  · exact noRow (rows token row)
  · exact copy (shrinks.gone (not_not.mp noCopy))

section
variable {o : Oracle} {w : World} (tokens : ∀ token, Known userId w token → isToken token = true)
include tokens

/-- No session goes out of reach in a run that keeps its list. -/
theorem purgeSessions_kept (kept : ListKept userId w o) {token : Text} (known : Known userId w token)
    (alive : Alive (purgeSessions userId o w).2 token) : Known userId (purgeSessions userId o w).2 token := by
  have proper := tokens token known
  have differs : token ≠ listKey userId := by
    intro same
    rw [same, listKey_not_token] at proper
    cases proper
  have other : listKey userId ∉ w.rows := by
    intro row
    have impossible := tokens _ (Or.inl row)
    rw [listKey_not_token] at impossible
    cases impossible
  have unlisted : listKey userId ∉ listed (w.storage.cache (listKey userId)) := by
    intro named
    have impossible := tokens _ (Or.inr named)
    rw [listKey_not_token] at impossible
    cases impossible
  obtain ⟨w', purged, ⟨revoked, stopped⟩ | ⟨gone, revoked, reached⟩⟩ :=
    purgeSessions_cases userId o w fun t row => tokens t (Or.inl row)
  · rw [stopped] at alive ⊢
    rcases known with row | named
    · rcases purged.removed token row with stays | removed
      · exact Or.inl stays
      · exact Or.inl (alive.resolve_right (not_not.mpr removed))
    · right
      rw [purged.others _ other]
      exact named
  · rw [reached] at alive ⊢
    have rows : (purgeList userId o revoked w').2.rows = [] := by rw [purgeList_storage, gone]
    have copy : (purgeList userId o revoked w').2.storage.cache token ≠ none := by
      rcases alive with row | copy
      · rw [rows] at row
        cases row
      · exact copy
    have noRow : token ∉ w.rows := by
      intro row
      rcases purged.removed token row with stays | removed
      · rw [gone] at stays
        cases stays
      · exact copy ((purgeList_shrinks userId o revoked w').gone removed)
    have list := purged.others _ other
    have named : token ∈ listed (w'.storage.cache (listKey userId)) := by
      rw [list]
      exact known.resolve_left noRow
    rw [← list] at unlisted
    have called : o.listDelete = false → w'.storage.cache token ≠ none →
        o.listGet = false ∧ o.listedGet token = false ∧ o.listedDelete token = false := by
      intro deleted present
      rw [purged.others token noRow] at present
      exact kept deleted token (list ▸ named) noRow present
    rcases purgeList_kept userId differs named called unlisted with removed | stays
    · exact (copy removed).elim
    · exact Or.inr stays

/-- A run that returns has removed every session it could find. -/
theorem purgeSessions_returned {revoked : ℕ} (returned : (purgeSessions userId o w).1 = .returned revoked)
    {token : Text} (known : Known userId w token) : ¬ Alive (purgeSessions userId o w).2 token := by
  have other : listKey userId ∉ w.rows := by
    intro row
    have impossible := tokens _ (Or.inl row)
    rw [listKey_not_token] at impossible
    cases impossible
  obtain ⟨w', purged, ⟨_, stopped⟩ | ⟨gone, revoked', reached⟩⟩ :=
    purgeSessions_cases userId o w fun t row => tokens t (Or.inl row)
  · rw [stopped] at returned
    cases returned
  · rw [reached] at returned ⊢
    have rows : (purgeList userId o revoked' w').2.rows = [] := by rw [purgeList_storage, gone]
    rintro (row | copy)
    · rw [rows] at row
      cases row
    · rcases known with row | named
      · rcases purged.removed token row with stays | removed
        · rw [gone] at stays
          cases stays
        · exact copy ((purgeList_shrinks userId o revoked' w').gone removed)
      · rw [← purged.others _ other] at named
        exact copy (purgeList_returned userId returned named)

end

/-- A run of `revokeUserSessions`; that it also moves the user's `updatedAt` touches no session. -/
def rerun (w : World) (o : Oracle) : Option World := some (purgeSessions userId o w).2

/-- The sessions of `w₀` are still within reach, or gone. -/
structure Reachable (w₀ w : World) : Prop where
  tokens : ∀ token, Known userId w token → isToken token = true
  found : ∀ token, Known userId w₀ token → Alive w token → Known userId w token

theorem rerun_reachable {w₀ w w' : World} {o : Oracle} (reachable : Reachable userId w₀ w) (kept : ListKept userId w o)
    (ran : rerun userId w o = some w') : Reachable userId w₀ w' := by
  obtain rfl : (purgeSessions userId o w).2 = w' := Option.some.inj ran
  have rows := fun token row => reachable.tokens token (Or.inl row)
  refine ⟨fun token known => reachable.tokens token (purgeSessions_known userId o rows known), ?_⟩
  intro token known alive
  have before : Alive w token := by
    by_contra gone
    exact purgeSessions_gone userId o rows gone alive
  exact purgeSessions_kept userId reachable.tokens kept (reachable.found token known before) alive

theorem rerun_gone {w w' : World} {o : Oracle} {token : Text}
    (state : (∀ token ∈ w.rows, isToken token = true) ∧ ¬ Alive w token) (ran : rerun userId w o = some w') :
    (∀ token ∈ w'.rows, isToken token = true) ∧ ¬ Alive w' token := by
  obtain rfl : (purgeSessions userId o w).2 = w' := Option.some.inj ran
  obtain ⟨rows, gone⟩ := state
  exact ⟨fun t row => rows t ((purgeSessions_shrinks userId o rows).2 t row), purgeSessions_gone userId o rows gone⟩

/-- After any runs that keep the list every session left is within reach; a run that returns removes it for good. -/
theorem purge_complete {w₀ w : World} {os : List Oracle} (run : Runs.Run (rerun userId) (ListKept userId) w₀ os w)
    (tokens : ∀ token, Known userId w₀ token → isToken token = true) :
    (∀ token, Known userId w₀ token → Alive w token → Known userId w token) ∧
      ∀ (o : Oracle) (revoked : ℕ), (purgeSessions userId o w).1 = .returned revoked →
        ∀ (later : List Oracle) (w' : World),
          Runs.Run (rerun userId) (fun _ _ => True) (purgeSessions userId o w).2 later w' →
          ∀ token, Known userId w₀ token → ¬ Alive w' token := by
  have reachable : Reachable userId w₀ w :=
    run.invariant (rerun_reachable userId) ⟨tokens, fun _ known _ => known⟩
  refine ⟨reachable.found, ?_⟩
  intro o revoked returned later w' rest token known
  have rows := fun token row => reachable.tokens token (Or.inl row)
  have gone : ¬ Alive (purgeSessions userId o w).2 token := by
    by_cases alive : Alive w token
    · exact purgeSessions_returned userId reachable.tokens returned (reachable.found token known alive)
    · exact purgeSessions_gone userId o rows alive
  have kept := fun t row => rows t ((purgeSessions_shrinks userId o rows).2 t row)
  exact (rest.invariant (fun state _ ran => rerun_gone userId state ran) ⟨kept, gone⟩).2

end

/-- The connected cache loses the calls named. -/
def losing (listGet listDelete : Bool) : Oracle := ⟨true, id, fun _ => .refl _, fun _ _ => false, fun _ => true, listGet,
  fun _ => false, fun _ => false, listDelete, true⟩

def someone : Text := text "7d9c2f4e-51b3-4c86-9a0e-3f8b6d217c54"

/-- One session, without a row, cached under `t` and named in the list of its user. -/
def onlyCached : World where
  rows := []
  storage := {
    cache := fun k =>
      if k = listKey someone then some (text "[\x7b\"token\":\"t\"\x7d]")
      else if k = text "t" then some (text "\x7b\x7d") else none
    degraded := 0 }

theorem onlyCached_listed : listed (onlyCached.storage.cache (listKey someone)) = [text "t"] := by decide +kernel

theorem onlyCached_tokens (token : Text) (known : Known someone onlyCached token) : isToken token = true := by
  rcases known with row | named
  · cases row
  · rw [onlyCached_listed, List.mem_singleton] at named
    rw [named]
    decide

theorem purge_loses : ¬ ∀ (userId : Text) (w₀ w : World) (os : List Oracle), Runs.Run (rerun userId) (fun _ _ => True) w₀ os w →
    (∀ token, Known userId w₀ token → isToken token = true) →
    (∀ token, Known userId w₀ token → Alive w token → Known userId w token) ∧
      ∀ (o : Oracle) (revoked : ℕ), (purgeSessions userId o w).1 = .returned revoked →
        ∀ token, Known userId w₀ token → ¬ Alive (purgeSessions userId o w).2 token := by
  intro complete
  have known : Known someone onlyCached (text "t") := Or.inr (onlyCached_listed ▸ List.mem_singleton.mpr rfl)
  obtain ⟨_, removed⟩ := complete someone onlyCached _ [losing true false] (.cons trivial rfl (.nil _)) onlyCached_tokens
  refine removed (losing false false) 0 ?_ (text "t") known (Or.inr ?_)
  · rfl
  · decide +kernel

theorem purge_complete_onlyCached : ¬ Alive (purgeSessions someone (losing false false)
    (purgeSessions someone (losing true true) onlyCached).2).2 (text "t") := by
  have run : Runs.Run (rerun someone) (ListKept someone) onlyCached [losing true true]
      (purgeSessions someone (losing true true) onlyCached).2 :=
    .cons (fun deleted => nomatch deleted) rfl (.nil _)
  have known : Known someone onlyCached (text "t") := Or.inr (onlyCached_listed ▸ List.mem_singleton.mpr rfl)
  exact (purge_complete someone run onlyCached_tokens).2 (losing false false) 1 (by decide +kernel) [] _ (.nil _) _ known

end Identity
