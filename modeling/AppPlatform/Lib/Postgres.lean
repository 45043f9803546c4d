import AppPlatform.Lib.Savepoints

/-!
# A transaction of PostgreSQL

A statement that fails aborts the transaction: every later one fails but the return to a savepoint.
What the frames of a transaction hold is what its statements wrote and no later statement took back.
-/

namespace Postgres
open Savepoints

inductive Scope (ν : Type*) where
  | root
  /-- `reached`: the statements on the log when it was set. -/
  | savepoint (name : ν) (reached : ℕ)

def Scope.reached {ν : Type*} : Scope ν → ℕ
  | .root => 0
  | .savepoint _ reached => reached

abbrev Stack (ν α : Type*) := List (Frame (Scope ν) α)

/-- A statement on the log. -/
inductive Entry (α : Type*) where
  | wrote (rows : List α)
  | wentBack (reached : ℕ)

structure Tx (ν α : Type*) where
  frames : Stack ν α
  aborted : Bool
  log : List (Entry α)

inductive Statement (ν α : Type*) where
  /-- Any statement on data, with the rows it writes. -/
  | query (rows : List α)
  | savepoint (name : ν)
  | release (name : ν)
  | rollbackTo (name : ν)

section
variable {ν α : Type*}

/-- `BEGIN` -/
def Tx.start : Tx ν α := ⟨[⟨.root, []⟩], false, []⟩

def Tx.fail (tx : Tx ν α) : Tx ν α := { tx with aborted := true }

variable [DecidableEq ν]

def releaseTo (name : ν) : Stack ν α → Option (Stack ν α)
  | [] => none
  | ⟨.root, _⟩ :: _ => none
  | ⟨.savepoint name' _, items⟩ :: rest =>
    if name' = name then some (append items rest) else (releaseTo name rest).map (append items)

/-- What was written since the savepoint of this name goes; the savepoint stays. -/
def backTo (name : ν) : Stack ν α → Option (ℕ × Stack ν α)
  | [] => none
  | ⟨.root, _⟩ :: _ => none
  | ⟨.savepoint name' reached, _⟩ :: rest =>
    if name' = name then some (reached, ⟨.savepoint name' reached, []⟩ :: rest) else backTo name rest

/-- `fails`: the database refuses the statement. -/
def Tx.execute (tx : Tx ν α) (fails : Bool) : Statement ν α → Tx ν α
  | .query rows =>
    if tx.aborted || fails then tx.fail else { tx with frames := append rows tx.frames, log := tx.log ++ [.wrote rows] }
  | .savepoint name =>
    if tx.aborted || fails then tx.fail else { tx with frames := ⟨.savepoint name tx.log.length, []⟩ :: tx.frames }
  | .release name =>
    if tx.aborted || fails then tx.fail
    else match releaseTo name tx.frames with
      | none => tx.fail
      | some frames => { tx with frames }
  | .rollbackTo name =>
    if fails then tx.fail
    else match backTo name tx.frames with
      | none => tx.fail
      | some (reached, frames) => ⟨frames, false, tx.log ++ [.wentBack reached]⟩

end

/-! ### The log -/

section
variable {α : Type*}

/-- The entry takes back the statement at the position. -/
def Entry.undoes (i : ℕ) : Entry α → Bool
  | .wrote _ => false
  | .wentBack reached => reached ≤ i

/-- One of the entries takes it back. -/
def undone (i : ℕ) (later : List (Entry α)) : Bool := later.any fun entry => entry.undoes i

/-- The rows of the statements from position `i` on that none of the later ones takes back. -/
def kept (i : ℕ) : List (Entry α) → List α
  | [] => []
  | .wrote rows :: later => (if undone i later then [] else rows) ++ kept (i + 1) later
  | .wentBack _ :: later => kept (i + 1) later

@[simp] theorem undone_append (i : ℕ) (log log' : List (Entry α)) : undone i (log ++ log') = (undone i log || undone i log') :=
  List.any_append

@[simp] theorem undone_wrote (i : ℕ) (rows : List α) : undone i [.wrote rows] = false := rfl

@[simp] theorem undone_wentBack (i reached : ℕ) : undone (α := α) i [.wentBack reached] = decide (reached ≤ i) := by
  simp [undone, Entry.undoes]

theorem kept_wrote (i : ℕ) (log : List (Entry α)) (rows : List α) : kept i (log ++ [.wrote rows]) = kept i log ++ rows := by
  induction log generalizing i with
  | nil =>
    rw [List.nil_append, kept, kept, kept, List.append_nil]
    rfl
  | cons entry log ih =>
    cases entry with
    | wrote rows' => rw [List.cons_append, kept, kept, ih, undone_append, undone_wrote, Bool.or_false, List.append_assoc]
    | wentBack reached => rw [List.cons_append, kept, kept, ih]

/-- Everything from the savepoint on is taken back. -/
theorem kept_undone {i reached : ℕ} (before : reached ≤ i) (log : List (Entry α)) :
    kept i (log ++ [.wentBack reached]) = [] := by
  induction log generalizing i with
  | nil => rfl
  | cons entry log ih =>
    have rest := ih (Nat.le_succ_of_le before)
    cases entry with
    | wrote rows =>
      rw [List.cons_append, kept, rest, undone_append, undone_wentBack, decide_eq_true before, Bool.or_true, if_pos rfl,
        List.append_nil]
    | wentBack _ => rw [List.cons_append, kept, rest]

/-- No statement since the savepoint went back to before it. -/
def Stands (reached : ℕ) (since : List (Entry α)) : Prop := ∀ k, .wentBack k ∈ since → reached ≤ k

theorem Stands.undone {i reached : ℕ} {since : List (Entry α)} (stands : Stands reached since) (before : i < reached) :
    undone i since = false := by
  apply List.any_eq_false.mpr
  intro entry member undone
  cases entry with
  | wrote _ => cases undone
  | wentBack k =>
    have late := stands k member
    have early : k ≤ i := of_decide_eq_true undone
    omega

/-- What is kept after the return to a savepoint is what was kept when it was set. -/
theorem kept_wentBack {i n reached : ℕ} (position : reached = i + n) {log : List (Entry α)}
    (stands : Stands reached (log.drop n)) : kept i (log ++ [.wentBack reached]) = kept i (log.take n) := by
  induction n generalizing i log with
  | zero => exact kept_undone (Nat.le_of_eq position) log
  | succ n ih =>
    cases log with
    | nil => rfl
    | cons entry log =>
      rw [List.drop_succ_cons] at stands
      have next : kept (i + 1) (log ++ [.wentBack reached]) = kept (i + 1) (log.take n) := ih (by omega) stands
      cases entry with
      | wrote rows =>
        have before : i < reached := by omega
        have split : undone i log = (undone i (log.take n) || undone i (log.drop n)) := by
          rw [← undone_append, List.take_append_drop]
        rw [stands.undone before, Bool.or_false] at split
        rw [List.cons_append, List.take_succ_cons, kept, kept, next, undone_append, undone_wentBack, split,
          decide_eq_false (Nat.not_le.mpr before), Bool.or_false]
      | wentBack _ => rw [List.cons_append, List.take_succ_cons, kept, kept, next]

end

/-! ### What a transaction holds -/

section
variable {ν α : Type*}

inductive Layered (log : List (Entry α)) : Stack ν α → Prop where
  | root (items : List α) : Layered log [⟨.root, items⟩]
  | savepoint {rest : Stack ν α} (name : ν) {reached : ℕ} (items : List α) (below : Layered log rest)
      (set : reached ≤ log.length) (older : ∀ f ∈ rest, f.scope.reached ≤ reached)
      (stands : Stands reached (log.drop reached)) (saved : written rest = kept 0 (log.take reached)) :
      Layered log (⟨.savepoint name reached, items⟩ :: rest)

/-- The frames hold what is kept of the log. -/
structure Tx.Faithful (tx : Tx ν α) : Prop where
  layered : Layered tx.log tx.frames
  holds : written tx.frames = kept 0 tx.log

theorem Tx.start_faithful : (Tx.start : Tx ν α).Faithful := ⟨.root [], rfl⟩

/-- A statement that goes back to no savepoint before those that are set leaves them as they are. -/
theorem Layered.snoc {log : List (Entry α)} {frames : Stack ν α} (layered : Layered log frames) (entry : Entry α)
    (later : ∀ k, entry = .wentBack k → ∀ f ∈ frames, f.scope.reached ≤ k) : Layered (log ++ [entry]) frames := by
  induction layered with
  | root items => exact .root items
  | savepoint name items below set older stands saved ih =>
    refine .savepoint name items (ih ?_) ?_ older ?_ ?_
    · intro k same f member
      exact later k same f (List.mem_cons_of_mem _ member)
    · rw [List.length_append]
      omega
    · intro k member
      rw [List.drop_append_of_le_length set] at member
      rcases List.mem_append.mp member with before | last
      · exact stands k before
      · exact later k (List.mem_singleton.mp last).symm _ List.mem_cons_self
    · rw [List.take_append_of_le_length set]
      exact saved

theorem Layered.reached {log : List (Entry α)} {frames : Stack ν α} (layered : Layered log frames) :
    ∀ f ∈ frames, f.scope.reached ≤ log.length := by
  intro f member
  cases layered with
  | root items =>
    rw [List.mem_singleton.mp member]
    exact Nat.zero_le _
  | savepoint name items below set older stands saved =>
    rcases List.mem_cons.mp member with top | deeper
    · rw [top]
      exact set
    · exact Nat.le_trans (older f deeper) set

/-- The rows of the innermost frame do not matter to those below. -/
theorem Layered.append {log : List (Entry α)} {frames : Stack ν α} (layered : Layered log frames) (rows : List α) :
    Layered log (append rows frames) := by
  cases layered with
  | root items => exact .root _
  | savepoint name items below set older stands saved => exact .savepoint name _ below set older stands saved

theorem Layered.written_append {log : List (Entry α)} {frames : Stack ν α} (layered : Layered log frames) (rows : List α) :
    written (Savepoints.append rows frames) = written frames ++ rows := by
  cases layered <;> exact Savepoints.written_append _ _ _

variable [DecidableEq ν]

theorem Layered.releaseTo {log : List (Entry α)} {frames frames' : Stack ν α} {name : ν} (layered : Layered log frames)
    (released : releaseTo name frames = some frames') : Layered log frames' ∧ written frames' = written frames := by
  induction layered generalizing frames' with
  | root items => cases released
  | savepoint name' items below set older stands saved ih =>
    rw [Postgres.releaseTo] at released
    split at released
    · cases released
      exact ⟨below.append items, below.written_append items⟩
    · obtain ⟨inner, found, same⟩ := Option.map_eq_some_iff.mp released
      obtain ⟨layers, kept⟩ := ih found
      rw [← same, layers.written_append, kept]
      exact ⟨layers.append items, rfl⟩

/-- The frames after the return to a savepoint are a part of those before, with nothing written since. -/
theorem Layered.backTo {log : List (Entry α)} {frames frames' : Stack ν α} {name : ν} {reached : ℕ} (layered : Layered log frames)
    (back : backTo name frames = some (reached, frames')) :
    Layered (log ++ [.wentBack reached]) frames' ∧ written frames' = kept 0 (log ++ [.wentBack reached]) := by
  induction layered with
  | root items => cases back
  | savepoint name' items below set older stands saved ih =>
    rw [Postgres.backTo] at back
    split at back
    · cases back
      constructor
      · refine Layered.snoc (.savepoint name' [] below set older stands saved) _ ?_
        intro k same f member
        cases same
        rcases List.mem_cons.mp member with top | deeper
        · rw [top]
          exact Nat.le_refl _
        · exact older f deeper
      · rw [written_cons, List.append_nil, saved, kept_wentBack (Nat.zero_add _).symm stands]
    · exact ih back

/-- Whatever a statement does, the frames hold what is kept of the log. -/
theorem Tx.Faithful.execute {tx : Tx ν α} (faithful : tx.Faithful) (fails : Bool) (st : Statement ν α) :
    (tx.execute fails st).Faithful := by
  obtain ⟨layered, holds⟩ := faithful
  have failed : tx.fail.Faithful := ⟨layered, holds⟩
  cases st with
  | query rows =>
    rw [Tx.execute]
    split
    · exact failed
    · refine ⟨(layered.append rows).snoc _ (by nofun), ?_⟩
      rw [layered.written_append, kept_wrote, holds]
  | savepoint name =>
    rw [Tx.execute]
    split
    · exact failed
    · refine ⟨.savepoint name [] layered (Nat.le_refl _) layered.reached ?_ ?_, ?_⟩
      · rw [List.drop_length]
        nofun
      · rw [List.take_length]
        exact holds
      · rw [written_cons, List.append_nil]
        exact holds
  | release name =>
    rw [Tx.execute]
    split
    · exact failed
    · split
      · exact failed
      · rename_i frames released
        obtain ⟨layers, same⟩ := layered.releaseTo released
        exact ⟨layers, same.trans holds⟩
  | rollbackTo name =>
    rw [Tx.execute]
    split
    · exact failed
    · split
      · exact failed
      · rename_i reached frames back
        exact ⟨(layered.backTo back).1, (layered.backTo back).2⟩

end

end Postgres
