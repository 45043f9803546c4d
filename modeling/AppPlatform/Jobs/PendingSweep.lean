import AppPlatform.Jobs.Redrive
import AppPlatform.Lib.Run
import AppPlatform.Lib.Text
import AppPlatform.Lib.Transactions
import Mathlib.Data.List.Count
import Mathlib.Data.List.Dedup

/-!
# The sweep of jobs that waited too long

`sweepPending` deletes what waited past its deadline, in a transaction under the lock that the library's own deletion takes, and the
worker reports how many it deleted. Any number of sweeps run, in any number of workers, between senders, workers and the library's
deletion; the answer to a query, what the server did of it and the end of the transaction are steps of their own.
-/

namespace PendingSweep
open Runs Transactions Js
open Redrive (JobState)

structure Job where
  name : Text
  state : JobState
  blocked : Bool
  keepUntil : ℕ
  deriving DecidableEq

/-- The `WHERE` of `SWEEP_SQL`. -/
def expired (queues : List Text) (now : ℕ) (job : Job) : Bool :=
  job.name ∈ queues && job.state.waiting && !job.blocked && job.keepUntil < now

/-- The queries of the transaction, in their order. -/
inductive Query where
  | start
  | lockTimeout
  | idleTimeout
  | lock
  | sweep
  | commit
  deriving DecidableEq

inductive Phase where
  | connecting
  /-- The query was sent. -/
  | sent (query : Query)
  /-- `ROLLBACK` was sent, after the query failed. -/
  | rollback (query : Query)
  | returned
  /-- After the query failed, or no client was had. -/
  | rejected (query : Option Query)
  /-- What was returned is in the metric and the log. -/
  | reported
  deriving DecidableEq

/-- The transaction on the server. -/
inductive Tx where
  | none
  | active
  | committed
  | aborted
  deriving DecidableEq

structure Call (κ : Type*) where
  queues : List Text
  phase : Phase
  tx : Tx
  /-- The rows of `gone`. -/
  deleted : List (κ × Job)

/-- `SELECT name, count(*) AS n FROM gone GROUP BY name` -/
def grouped (names : List Text) : List (Text × ℕ) := names.dedup.map fun name => (name, names.count name)

def Call.rows {κ : Type*} (call : Call κ) : List (Text × ℕ) := grouped (call.deleted.map fun e => e.2.name)

inductive Holder (τ : Type*) where
  | library
  | sweep (t : τ)
  deriving DecidableEq

structure State (κ τ : Type*) where
  now : ℕ
  db : Db κ Job τ
  holder : Option (Holder τ)
  calls : τ → Option (Call κ)
  /-- The clients that were taken from the pool and not released. -/
  clients : List τ
  /-- What committed sweeps deleted, and when. -/
  gone : List (τ × ℕ × κ × Job)
  /-- What was added to `queue.pending_dropped`. -/
  reports : List (Text × ℕ)

inductive Event (κ τ : Type*) where
  | tick
  | sweep (t : τ) (queues : List Text)
  | connected (t : τ)
  | refused (t : τ)
  /-- The server starts the transaction. -/
  | begins (t : τ)
  | locks (t : τ)
  /-- The server deletes one row of those that the statement finds. -/
  | deletes (t : τ) (k : κ)
  | commits (t : τ)
  /-- The transaction is undone: by `ROLLBACK`, a timeout or a failure. -/
  | aborts (t : τ)
  /-- The query that was sent is answered. -/
  | answered (t : τ)
  /-- The query that was sent fails, whatever the server does of it. -/
  | fails (t : τ)
  /-- `ROLLBACK` is answered or fails. -/
  | rolledBack (t : τ)
  | report (t : τ)
  /-- Somebody else inserts, changes or deletes a row that nobody has locked. -/
  | put (k : κ) (job : Option Job)
  | libraryLocks
  | libraryUnlocks

section
variable {κ τ : Type*} [DecidableEq κ] [DecidableEq τ]

def State.set (s : State κ τ) (t : τ) (call : Call κ) : State κ τ := { s with calls := Function.update s.calls t (some call) }

def Phase.query? : Phase → Option Query
  | .sent query | .rollback query => some query
  | .rejected query => query
  | _ => none

def Query.next? : Query → Option Query
  | .start => some .lockTimeout
  | .lockTimeout => some .idleTimeout
  | .idleTimeout => some .lock
  | .lock => some .sweep
  | .sweep => some .commit
  | .commit => none

def served (s : State κ τ) (t : τ) (call : Call κ) : Query → Bool
  | .lock => call.tx = .active && s.holder = some (.sweep t)
  | .commit => call.tx = .committed
  | _ => call.tx = .active

/-- The lock is free when the transaction ends. -/
def State.unlock (s : State κ τ) (t : τ) : Option (Holder τ) := if s.holder = some (.sweep t) then none else s.holder

def State.checkOut (s : State κ τ) (t : τ) : State κ τ := { s with clients := t :: s.clients }

/-- `client.release()` -/
def State.release (s : State κ τ) (t : τ) : State κ τ := { s with clients := s.clients.erase t }

def stepCall (s : State κ τ) (t : τ) (call : Call κ) : Event κ τ → Option (State κ τ)
  | .connected _ =>
    if call.phase = .connecting then some ((s.set t { call with phase := .sent .start }).checkOut t) else none
  | .refused _ => if call.phase = .connecting then some (s.set t { call with phase := .rejected none }) else none
  | .begins _ =>
    if call.phase.query? = some .start ∧ call.tx = .none then some (s.set t { call with tx := .active }) else none
  | .locks _ =>
    if call.phase.query? = some .lock ∧ call.tx = .active ∧ s.holder = none then some { s with holder := some (.sweep t) } else none
  | .deletes _ k =>
    match s.db.view t k with
    | some job =>
      if call.phase.query? = some .sweep ∧ call.tx = .active ∧ s.db.available t k = true ∧
        expired call.queues s.now job = true then
        some { s.set t { call with deleted := call.deleted ++ [(k, job)] } with db := s.db.write t k none }
      else none
    | none => none
  | .commits _ =>
    if call.phase.query? = some .commit ∧ call.tx = .active then
      some { s.set t { call with tx := .committed } with
        db := s.db.commit t, holder := s.unlock t, gone := s.gone ++ call.deleted.map fun e => (t, s.now, e) }
    else none
  | .aborts _ =>
    if call.tx = .active then some { s.set t { call with tx := .aborted } with db := s.db.abort t, holder := s.unlock t } else none
  | .answered _ =>
    match call.phase with
    | .sent query =>
      if served s t call query then
        match query.next? with
        | some next => some (s.set t { call with phase := .sent next })
        | none => some ((s.set t { call with phase := .returned }).release t)
      else none
    | _ => none
  | .fails _ =>
    match call.phase with
    | .sent query => some (s.set t { call with phase := .rollback query })
    | _ => none
  | .rolledBack _ =>
    match call.phase with
    | .rollback query => some ((s.set t { call with phase := .rejected (some query) }).release t)
    | _ => none
  | .report _ =>
    if call.phase = .returned then some { s.set t { call with phase := .reported } with reports := s.reports ++ call.rows } else none
  | _ => none

def Event.call? : Event κ τ → Option τ
  | .connected t | .refused t | .begins t | .locks t | .deletes t _ | .commits t | .aborts t | .answered t | .fails t | .rolledBack t
  | .report t => some t
  | _ => none

def step (s : State κ τ) : Event κ τ → Option (State κ τ)
  | .tick => some { s with now := s.now + 1 }
  | .sweep t queues =>
    if (s.calls t).isNone then
      some (s.set t ⟨queues, if queues = [] then .returned else .connecting, .none, []⟩)
    else none
  | .put k job => if s.db.owner k = none then some { s with db := s.db.put k job } else none
  | .libraryLocks => if s.holder = none then some { s with holder := some .library } else none
  | .libraryUnlocks => if s.holder = some .library then some { s with holder := none } else none
  | e => e.call?.bind fun t => (s.calls t).bind fun call => stepCall s t call e

end

/-! ### What a call keeps -/

/-- The call has a client of the pool. -/
def Phase.connected : Phase → Bool
  | .sent _ | .rollback _ => true
  | _ => false

theorem expired_later {queues : List Text} {now later : ℕ} {job : Job} (past : expired queues now job = true) (after : now ≤ later) :
    expired queues later job = true := by
  simp only [expired, Bool.and_eq_true, decide_eq_true_eq] at past ⊢
  exact ⟨past.1, by omega⟩

section Frames
variable {κ τ : Type*} [DecidableEq τ] {s s' : State κ τ} {t u : τ} {call : Call κ}

structure Ok (s : State κ τ) (t : τ) (call : Call κ) : Prop where
  keys : (call.deleted.map Prod.fst).Nodup
  expired : ∀ e ∈ call.deleted, expired call.queues s.now e.2 = true
  held : call.tx = .active → ∀ e ∈ call.deleted, s.db.rows e.1 = some e.2 ∧ s.db.writes t e.1 = some none
  written : ∀ k, s.db.writes t k ≠ none → call.tx = .active ∧ k ∈ call.deleted.map Prod.fst
  fresh : call.tx = .none → call.deleted = []
  guarded : call.tx = .active → call.deleted ≠ [] ∨ call.phase.query? = some .sweep → s.holder = some (.sweep t)
  holds : s.holder = some (.sweep t) → call.tx = .active
  done : call.phase = .returned ∨ call.phase = .reported → call.tx = .committed ∨ call.tx = .none
  gone : (s.gone.filter (·.1 = t)).map (·.2.2) = if call.tx = .committed then call.deleted else []
  client : s.clients.count t = if call.phase.connected then 1 else 0

structure Unused (s : State κ τ) (t : τ) : Prop where
  writes : ∀ k, s.db.writes t k = none
  holder : s.holder ≠ some (.sweep t)
  gone : s.gone.filter (·.1 = t) = []
  client : s.clients.count t = 0

structure Kept (s : State κ τ) : Prop where
  locked : Locked s.db
  ok : ∀ t call, s.calls t = some call → Ok s t call
  unused : ∀ t, s.calls t = none → Unused s t

/-- Nothing of the call's is changed. -/
structure Frame (t : τ) (s s' : State κ τ) : Prop where
  call : s'.calls t = s.calls t
  db : Isolated t s.db s'.db
  holder : s'.holder = some (.sweep t) ↔ s.holder = some (.sweep t)
  gone : s'.gone.filter (·.1 = t) = s.gone.filter (·.1 = t)
  client : s'.clients.count t = s.clients.count t
  now : s.now ≤ s'.now

theorem Frame.refl (t : τ) (s : State κ τ) : Frame t s s := ⟨rfl, .refl _ _, Iff.rfl, rfl, rfl, le_rfl⟩

theorem Ok.frame (locked : Locked s.db) (ok : Ok s t call) (frame : Frame t s s') : Ok s' t call where
  keys := ok.keys
  expired e found := expired_later (ok.expired e found) frame.now
  held active e found := by
    obtain ⟨there, wrote⟩ := ok.held active e found
    have owned : s.db.owner e.1 = some t := locked t e.1 (by rw [wrote]; exact Option.some_ne_none _)
    exact ⟨(frame.db.rows e.1 owned).trans there, by rw [frame.db.writes, wrote]⟩
  written k wrote := ok.written k (by rwa [← frame.db.writes])
  fresh := ok.fresh
  guarded active sweeping := frame.holder.mpr (ok.guarded active sweeping)
  holds holding := ok.holds (frame.holder.mp holding)
  done := ok.done
  gone := by rw [frame.gone, ok.gone]
  client := frame.client.trans ok.client

theorem Unused.frame (unused : Unused s t) (frame : Frame t s s') : Unused s' t where
  writes k := by rw [frame.db.writes, unused.writes]
  holder holding := unused.holder (frame.holder.mp holding)
  gone := frame.gone.trans unused.gone
  client := frame.client.trans unused.client

theorem unlock_other (differs : u ≠ t) : s.unlock t = some (.sweep u) ↔ s.holder = some (.sweep u) := by
  unfold State.unlock
  split
  · rename_i holding
    rw [holding]
    exact ⟨fun none => (by cases none), fun same => absurd (Holder.sweep.inj (Option.some.inj same)).symm differs⟩
  · exact Iff.rfl

theorem filter_committed (differs : u ≠ t) (gone : List (τ × ℕ × κ × Job)) (deleted : List (κ × Job)) (now : ℕ) :
    (gone ++ deleted.map fun e => (t, now, e)).filter (·.1 = u) = gone.filter (·.1 = u) := by
  have none : (deleted.map fun e => (t, now, e)).filter (·.1 = u) = [] := by
    rw [List.filter_eq_nil_iff]
    intro e found same
    obtain ⟨_, _, rfl⟩ := List.mem_map.mp found
    exact differs (of_decide_eq_true same).symm
  rw [List.filter_append, none, List.append_nil]

/-- The call is at another point of its code. -/
theorem ok_moved {next : Phase} (ok : Ok s t call) (db : s'.db = s.db) (holder : s'.holder = s.holder) (gone : s'.gone = s.gone)
    (now : s'.now = s.now) (sweeping : next.query? = some .sweep → call.tx = .active → s.holder = some (.sweep t))
    (done : next = .returned ∨ next = .reported → call.tx = .committed ∨ call.tx = .none)
    (client : s'.clients.count t = if next.connected then 1 else 0) : Ok s' t { call with phase := next } where
  keys := ok.keys
  expired := by rw [now]; exact ok.expired
  held := by rw [db]; exact ok.held
  written := by rw [db]; exact ok.written
  fresh := ok.fresh
  guarded active deleting := by
    rw [holder]
    exact deleting.elim (fun some => ok.guarded active (.inl some)) (fun same => sweeping same active)
  holds := by rw [holder]; exact ok.holds
  done := done
  gone := by rw [gone]; exact ok.gone
  client := client

theorem unlock_self (s : State κ τ) (t : τ) : s.unlock t ≠ some (.sweep t) := by
  unfold State.unlock
  split
  · exact fun none => by cases none
  · assumption

theorem Ok.gone_active (ok : Ok s t call) (active : call.tx = .active) : s.gone.filter (·.1 = t) = [] := by
  have none := ok.gone
  rw [active, if_neg (fun same => by cases same), List.map_eq_nil_iff] at none
  exact none

end Frames

/-! ### One step -/

section Steps
variable {κ τ : Type*} [DecidableEq κ] [DecidableEq τ] {s s' : State κ τ} {t u : τ} {call : Call κ} {e : Event κ τ}

/-- The code of a call goes on, and nothing of the database changes. -/
structure Moves (s : State κ τ) (t : τ) (call : Call κ) (next : Phase) (clients : List τ) : Prop where
  silent : next ≠ .reported ∧ call.phase ≠ .reported
  sweeping : next.query? = some .sweep → call.phase.query? = some .sweep ∨ s.holder = some (.sweep t)
  returned : next = .returned → call.tx = .committed
  client : s.clients.count t = (if call.phase.connected then 1 else 0) → clients.count t = if next.connected then 1 else 0
  others : ∀ u, u ≠ t → clients.count u = s.clients.count u

inductive Stepped (s : State κ τ) (t : τ) (call : Call κ) : State κ τ → Prop where
  | moves (next : Phase) (clients : List τ) : Moves s t call next clients →
      Stepped s t call { s.set t { call with phase := next } with clients := clients }
  | begins : call.phase.query? = some .start → call.tx = .none → Stepped s t call (s.set t { call with tx := .active })
  | locks : call.tx = .active → s.holder = none → Stepped s t call { s with holder := some (.sweep t) }
  | deletes (k : κ) (job : Job) : s.db.view t k = some job → call.phase.query? = some .sweep → call.tx = .active →
      s.db.available t k = true → expired call.queues s.now job = true →
      Stepped s t call { s.set t { call with deleted := call.deleted ++ [(k, job)] } with db := s.db.write t k none }
  | commits : call.phase.query? = some .commit → call.tx = .active →
      Stepped s t call { s.set t { call with tx := .committed } with
        db := s.db.commit t, holder := s.unlock t, gone := s.gone ++ call.deleted.map fun e => (t, s.now, e) }
  | aborts : call.tx = .active →
      Stepped s t call { s.set t { call with tx := .aborted } with db := s.db.abort t, holder := s.unlock t }
  | reports : call.phase = .returned →
      Stepped s t call { s.set t { call with phase := .reported } with reports := s.reports ++ call.rows }

theorem stepCall_cases (h : stepCall s t call e = some s') : Stepped s t call s' := by
  cases e with
  | connected _ =>
    simp only [stepCall, Option.ite_none_right_eq_some, Option.some.injEq] at h
    obtain ⟨connecting, rfl⟩ := h
    refine .moves (.sent .start) (t :: s.clients)
      ⟨by rw [connecting]; decide, (fun same => by cases same), (fun same => by cases same),
      ?_, fun u differs => List.count_cons_of_ne (Ne.symm differs)⟩
    rw [connecting]
    exact fun none => List.count_cons_self.trans (congrArg (· + 1) none)
  | refused _ =>
    simp only [stepCall, Option.ite_none_right_eq_some, Option.some.injEq] at h
    obtain ⟨connecting, rfl⟩ := h
    refine .moves (.rejected none) s.clients ⟨by rw [connecting]; decide, (fun same => by cases same), (fun same => by cases same), ?_,
      fun _ _ => rfl⟩
    rw [connecting]
    exact id
  | begins _ =>
    simp only [stepCall, Option.ite_none_right_eq_some, Option.some.injEq] at h
    obtain ⟨⟨starting, none⟩, rfl⟩ := h
    exact .begins starting none
  | locks _ =>
    simp only [stepCall, Option.ite_none_right_eq_some, Option.some.injEq] at h
    obtain ⟨⟨_, active, free⟩, rfl⟩ := h
    exact .locks active free
  | deletes _ k =>
    simp only [stepCall] at h
    split at h
    · rename_i job seen
      simp only [Option.ite_none_right_eq_some, Option.some.injEq] at h
      obtain ⟨⟨sweeping, active, free, past⟩, rfl⟩ := h
      exact .deletes k job seen sweeping active free past
    · cases h
  | commits _ =>
    simp only [stepCall, Option.ite_none_right_eq_some, Option.some.injEq] at h
    obtain ⟨⟨committing, active⟩, rfl⟩ := h
    exact .commits committing active
  | aborts _ =>
    simp only [stepCall, Option.ite_none_right_eq_some, Option.some.injEq] at h
    obtain ⟨active, rfl⟩ := h
    exact .aborts active
  | answered _ =>
    simp only [stepCall] at h
    split at h
    · rename_i query sent
      simp only [Option.ite_none_right_eq_some] at h
      obtain ⟨answers, h⟩ := h
      split at h
      · rename_i next later
        obtain rfl := Option.some.inj h
        refine .moves (.sent next) s.clients ⟨by rw [sent]; exact ⟨(fun same => by cases same), fun same => by cases same⟩, ?_,
          (fun same => by cases same), ?_, fun _ _ => rfl⟩
        · intro same
          cases query <;> cases later <;> cases same
          simp only [served, Bool.and_eq_true, decide_eq_true_eq] at answers
          exact .inr answers.2
        · rw [sent]
          exact id
      · rename_i last
        obtain rfl := Option.some.inj h
        refine .moves .returned (s.clients.erase t) ⟨by rw [sent]; exact ⟨(fun same => by cases same), fun same => by cases same⟩,
          (fun same => by cases same), fun _ => ?_, ?_, fun u differs => List.count_erase_of_ne differs⟩
        · cases query <;> cases last
          exact of_decide_eq_true answers
        · rw [sent]
          exact fun one => List.count_erase_self.trans (congrArg (· - 1) one)
    · cases h
  | fails _ =>
    simp only [stepCall] at h
    split at h
    · rename_i query sent
      obtain rfl := Option.some.inj h
      refine .moves (.rollback query) s.clients ⟨by rw [sent]; exact ⟨(fun same => by cases same), fun same => by cases same⟩,
        fun same => .inl (by rw [sent]; exact same), (fun same => by cases same), ?_, fun _ _ => rfl⟩
      rw [sent]
      exact id
    · cases h
  | rolledBack _ =>
    simp only [stepCall] at h
    split at h
    · rename_i query sent
      obtain rfl := Option.some.inj h
      refine .moves (.rejected (some query)) (s.clients.erase t) ⟨by rw [sent]; exact ⟨(fun same => by cases same),
        fun same => by cases same⟩, fun same => .inl (by rw [sent]; exact same), (fun same => by cases same), ?_,
        fun u differs => List.count_erase_of_ne differs⟩
      rw [sent]
      exact fun one => List.count_erase_self.trans (congrArg (· - 1) one)
    · cases h
  | report _ =>
    simp only [stepCall, Option.ite_none_right_eq_some, Option.some.injEq] at h
    obtain ⟨returned, rfl⟩ := h
    exact .reports returned
  | tick | sweep | put | libraryLocks | libraryUnlocks => cases h

theorem Stepped.frame (locked : Locked s.db) (stepped : Stepped s t call s') (differs : u ≠ t) : Frame u s s' := by
  have calls : ∀ call', (s.set t call').calls u = s.calls u := fun call' => Function.update_of_ne differs _ _
  cases stepped with
  | moves next clients moves => exact ⟨calls _, .refl _ _, Iff.rfl, rfl, moves.others u differs, le_rfl⟩
  | begins => exact ⟨calls _, .refl _ _, Iff.rfl, rfl, rfl, le_rfl⟩
  | locks active free =>
    refine ⟨rfl, .refl _ _, ?_, rfl, rfl, le_rfl⟩
    rw [free]
    exact ⟨fun same => absurd (Holder.sweep.inj (Option.some.inj same)).symm differs, fun none => by cases none⟩
  | deletes k job seen sweeping active free past => exact ⟨calls _, write_isolated free differs none, Iff.rfl, rfl, rfl, le_rfl⟩
  | commits => exact ⟨calls _, commit_isolated locked differs, unlock_other differs, filter_committed differs _ _ _, rfl, le_rfl⟩
  | aborts => exact ⟨calls _, abort_isolated _ differs, unlock_other differs, rfl, rfl, le_rfl⟩
  | reports => exact ⟨calls _, .refl _ _, Iff.rfl, rfl, rfl, le_rfl⟩

omit [DecidableEq κ] in
theorem set_call (s : State κ τ) (t : τ) (call : Call κ) : (s.set t call).calls t = some call := Function.update_self _ _ _

omit [DecidableEq κ] in
/-- A row that the transaction sees is committed, and none that it deleted. -/
theorem Ok.seen (ok : Ok s t call) (active : call.tx = .active) {k : κ} {job : Job} (seen : s.db.view t k = some job) :
    s.db.rows k = some job ∧ k ∉ call.deleted.map Prod.fst := by
  cases wrote : s.db.writes t k with
  | none =>
    rw [Db.view, wrote, Option.getD_none] at seen
    refine ⟨seen, fun deleted => ?_⟩
    obtain ⟨e, found, rfl⟩ := List.mem_map.mp deleted
    rw [(ok.held active e found).2] at wrote
    cases wrote
  | some v =>
    obtain ⟨_, deleted⟩ := ok.written k (by rw [wrote]; exact Option.some_ne_none v)
    obtain ⟨e, found, rfl⟩ := List.mem_map.mp deleted
    rw [Db.view, (ok.held active e found).2, Option.getD_some] at seen
    cases seen

theorem Stepped.ok (locked : Locked s.db) (called : s.calls t = some call) (ok : Ok s t call) (stepped : Stepped s t call s') :
    (∃ call', s'.calls t = some call' ∧ Ok s' t call') ∧ Locked s'.db := by
  cases stepped with
  | moves next clients moves =>
    refine ⟨⟨_, set_call _ _ _, ok_moved ok rfl rfl rfl rfl ?_ ?_ (moves.client ok.client)⟩, locked⟩
    · exact fun same active => (moves.sweeping same).elim (fun sweeping => ok.guarded active (.inr sweeping)) id
    · exact fun ended => ended.elim (fun same => .inl (moves.returned same)) (fun same => absurd same moves.silent.1)
  | begins starting none =>
    have empty := ok.fresh none
    have unwritten : ∀ k, s.db.writes t k = Option.none := by
      intro k
      by_contra wrote
      have active := (ok.written k wrote).1
      rw [none] at active
      cases active
    have gone := ok.gone
    rw [none] at gone
    refine ⟨⟨_, set_call _ _ _, ?_⟩, locked⟩
    exact {
      keys := ok.keys
      expired := ok.expired
      held := fun _ e found => by rw [empty] at found; cases found
      written := fun k wrote => absurd (unwritten k) wrote
      fresh := fun same => by cases same
      guarded := fun _ deleting => by
        rcases deleting with some | same
        · exact absurd empty some
        · rw [starting] at same
          cases same
      holds := fun _ => rfl
      done := fun ended => by rcases ended with same | same <;> rw [same] at starting <;> cases starting
      gone := gone
      client := ok.client }
  | locks active _ => exact ⟨⟨call, called, { ok with guarded := fun _ _ => rfl, holds := fun _ => active }⟩, locked⟩
  | deletes k job seen sweeping active free past =>
    obtain ⟨there, new⟩ := ok.seen active seen
    have other : ∀ e ∈ call.deleted, e.1 ≠ k := fun e found same => new (same ▸ List.mem_map_of_mem found)
    refine ⟨⟨_, set_call _ _ _, ?_⟩, write_locked locked free none⟩
    exact {
      keys := by
        rw [List.map_append, List.map_singleton]
        exact List.nodup_append.mpr ⟨ok.keys, List.nodup_singleton _, by
          intro a deleted b same
          rw [List.mem_singleton.mp same]
          rintro rfl
          exact new deleted⟩
      expired := fun e found => by
        rcases List.mem_append.mp found with earlier | last
        · exact ok.expired e earlier
        · rw [List.mem_singleton.mp last]
          exact past
      held := fun _ e found => by
        rcases List.mem_append.mp found with earlier | last
        · obtain ⟨row, wrote⟩ := ok.held active e earlier
          exact ⟨row, (write_writes_key s.db t k none (other e earlier)).trans wrote⟩
        · rw [List.mem_singleton.mp last]
          exact ⟨there, write_writes_same s.db t k none⟩
      written := fun k' wrote => by
        refine ⟨active, ?_⟩
        rw [List.map_append, List.mem_append]
        by_cases same : k' = k
        · exact .inr (List.mem_singleton.mpr same)
        · exact .inl (ok.written k' (by rwa [← write_writes_key s.db t k none same])).2
      fresh := fun none => by rw [active] at none; cases none
      guarded := fun _ _ => ok.guarded active (.inr sweeping)
      holds := ok.holds
      done := fun ended => by rcases ended with same | same <;> rw [same] at sweeping <;> cases sweeping
      gone := by
        change (s.gone.filter (·.1 = t)).map (·.2.2) = if call.tx = .committed then _ else []
        rw [ok.gone_active active, active]
        rfl
      client := ok.client }
  | commits committing active =>
    refine ⟨⟨_, set_call _ _ _, ?_⟩, commit_locked locked t⟩
    exact {
      keys := ok.keys
      expired := ok.expired
      held := fun same => by cases same
      written := fun k wrote => absurd (abort_writes_same s.db t k) wrote
      fresh := fun same => by cases same
      guarded := fun same => by cases same
      holds := fun holding => absurd holding (unlock_self s t)
      done := fun _ => .inl rfl
      gone := by
        rw [if_pos rfl]
        change ((s.gone ++ call.deleted.map fun e => (t, s.now, e)).filter (·.1 = t)).map (·.2.2) = call.deleted
        rw [List.filter_append, ok.gone_active active, List.nil_append, List.filter_map, List.map_map]
        simp [Function.comp_def]
      client := ok.client }
  | aborts active =>
    refine ⟨⟨_, set_call _ _ _, ?_⟩, abort_locked locked t⟩
    exact {
      keys := ok.keys
      expired := ok.expired
      held := fun same => by cases same
      written := fun k wrote => absurd (abort_writes_same s.db t k) wrote
      fresh := fun same => by cases same
      guarded := fun same => by cases same
      holds := fun holding => absurd holding (unlock_self s t)
      done := fun ended => by rcases ok.done ended with same | same <;> rw [active] at same <;> cases same
      gone := by
        change (s.gone.filter (·.1 = t)).map (·.2.2) = _
        rw [ok.gone_active active]
        rfl
      client := ok.client }
  | reports returned =>
    have before := ok.client
    rw [returned] at before
    refine ⟨⟨_, set_call _ _ _, ok_moved ok rfl rfl rfl rfl (fun same => by cases same) ?_ before⟩, locked⟩
    exact fun _ => ok.done (.inl returned)

theorem kept_step (kept : Kept s) (h : step s e = some s') : Kept s' := by
  -- an event of no call, or of one call, leaves the others as they are
  have framed : ∀ {s' : State κ τ}, Locked s'.db → (∀ u, Frame u s s') → Kept s' := by
    intro s' locked frames
    refine ⟨locked, fun u other called => ?_, fun u unused => ?_⟩
    · exact (kept.ok u other ((frames u).call.symm.trans called)).frame kept.locked (frames u)
    · exact (kept.unused u ((frames u).call.symm.trans unused)).frame (frames u)
  have one : ∀ t, e.call? = some t → (s.calls t).bind (fun call => stepCall s t call e) = some s' → Kept s' := by
    intro t _ h
    obtain ⟨call, called, h⟩ := Option.bind_eq_some_iff.mp h
    have stepped := stepCall_cases h
    obtain ⟨⟨call', called', ok⟩, locked⟩ := stepped.ok kept.locked called (kept.ok t call called)
    refine ⟨locked, fun u other found => ?_, fun u unused => ?_⟩
    · by_cases same : u = t
      · subst same
        rw [called'] at found
        obtain rfl := Option.some.inj found
        exact ok
      · have frame := stepped.frame kept.locked same
        exact (kept.ok u other (frame.call.symm.trans found)).frame kept.locked frame
    · by_cases same : u = t
      · subst same
        rw [called'] at unused
        cases unused
      · have frame := stepped.frame kept.locked same
        exact (kept.unused u (frame.call.symm.trans unused)).frame frame
  cases e with
  | tick =>
    obtain rfl := Option.some.inj h
    exact framed kept.locked fun u => ⟨rfl, .refl _ _, Iff.rfl, rfl, rfl, Nat.le_succ _⟩
  | sweep t queues =>
    simp only [step, Option.ite_none_right_eq_some, Option.some.injEq, Option.isNone_iff_eq_none] at h
    obtain ⟨unused, rfl⟩ := h
    have before := kept.unused t unused
    have frame : ∀ u, u ≠ t → Frame u s (s.set t ⟨queues, if queues = [] then .returned else .connecting, .none, []⟩) :=
      fun u differs => ⟨Function.update_of_ne differs _ _, .refl _ _, Iff.rfl, rfl, rfl, le_rfl⟩
    refine ⟨kept.locked, fun u other found => ?_, fun u none => ?_⟩
    · by_cases same : u = t
      · subst same
        rw [set_call] at found
        obtain rfl := Option.some.inj found
        exact {
          keys := List.nodup_nil
          expired := List.forall_mem_nil _
          held := fun same => by cases same
          written := fun k wrote => absurd (before.writes k) wrote
          fresh := fun _ => rfl
          guarded := fun same => by cases same
          holds := fun holding => absurd holding before.holder
          done := fun _ => .inr rfl
          gone := by
            change (s.gone.filter (·.1 = u)).map (·.2.2) = _
            rw [before.gone]
            rfl
          client := before.client.trans (by split <;> rfl) }
      · exact (kept.ok u other ((frame u same).call.symm.trans found)).frame kept.locked (frame u same)
    · by_cases same : u = t
      · subst same
        rw [set_call] at none
        cases none
      · exact (kept.unused u ((frame u same).call.symm.trans none)).frame (frame u same)
  | put k job =>
    simp only [step, Option.ite_none_right_eq_some, Option.some.injEq] at h
    obtain ⟨free, rfl⟩ := h
    exact framed kept.locked fun u => ⟨rfl, put_isolated free job, Iff.rfl, rfl, rfl, le_rfl⟩
  | libraryLocks =>
    simp only [step, Option.ite_none_right_eq_some, Option.some.injEq] at h
    obtain ⟨free, rfl⟩ := h
    refine framed kept.locked fun u => ⟨rfl, .refl _ _, ?_, rfl, rfl, le_rfl⟩
    rw [free]
    exact ⟨fun same => (by cases same), fun none => (by cases none)⟩
  | libraryUnlocks =>
    simp only [step, Option.ite_none_right_eq_some, Option.some.injEq] at h
    obtain ⟨holding, rfl⟩ := h
    refine framed kept.locked fun u => ⟨rfl, .refl _ _, ?_, rfl, rfl, le_rfl⟩
    rw [holding]
    exact ⟨fun same => (by cases same), fun none => (by cases none)⟩
  | connected t | refused t | begins t | locks t | deletes t _ | commits t | aborts t | answered t | fails t | rolledBack t | report t =>
    exact one t rfl h

end Steps

/-! ### What is reported -/

section Reports
variable {κ τ : Type*}

def total (reports : List (Text × ℕ)) (queue : Text) : ℕ := ((reports.filter (·.1 = queue)).map Prod.snd).sum

theorem total_append (earlier later : List (Text × ℕ)) (queue : Text) :
    total (earlier ++ later) queue = total earlier queue + total later queue := by
  rw [total, List.filter_append, List.map_append, List.sum_append]
  rfl

theorem total_grouped (names : List Text) (queue : Text) : total (grouped names) queue = names.count queue := by
  have chosen : (grouped names).filter (·.1 = queue) = List.replicate (names.dedup.count queue) (queue, names.count queue) := by
    rw [grouped, List.filter_map]
    change (names.dedup.filter (· = queue)).map _ = _
    rw [List.filter_eq, List.map_replicate]
  rw [total, chosen, (List.nodup_dedup names).count]
  split
  · exact Nat.add_zero _
  · rename_i missing
    exact (List.count_eq_zero_of_not_mem (mt List.mem_dedup.mpr missing)).symm

def reported (calls : τ → Option (Call κ)) (t : τ) : Bool := (calls t).any fun call => call.phase = .reported

def loss (s : State κ τ) (queue : Text) : ℕ := s.gone.countP fun e => reported s.calls e.1 && e.2.2.2.name = queue

theorem countP_either {α : Type*} {p q r : α → Bool} {l : List α} (either : ∀ a ∈ l, r a = (p a || q a))
    (apart : ∀ a ∈ l, p a = true → q a = false) : l.countP r = l.countP p + l.countP q := by
  induction l with
  | nil => rfl
  | cons a l ih =>
    have rest := ih (fun b found => either b (List.mem_cons_of_mem a found)) (fun b found => apart b (List.mem_cons_of_mem a found))
    rw [List.countP_cons, List.countP_cons, List.countP_cons, rest, either a List.mem_cons_self]
    cases first : p a with
    | true =>
      rw [apart a List.mem_cons_self first, Bool.or_false, if_pos rfl, if_neg Bool.false_ne_true]
      omega
    | false =>
      rw [Bool.false_or, if_neg Bool.false_ne_true]
      omega

variable {s s' : State κ τ}

/-- A step that reports nothing. -/
theorem loss_same (gone : s'.gone = s.gone) (calls : reported s'.calls = reported s.calls) (queue : Text) :
    loss s' queue = loss s queue := by
  rw [loss, gone, calls]
  rfl

variable [DecidableEq τ] {t : τ} {call call' : Call κ} {e : Event κ τ}

theorem reported_other {u : τ} (differs : u ≠ t) : reported (s.set t call').calls u = reported s.calls u :=
  congrArg (Option.any fun call : Call κ => call.phase = .reported) (Function.update_of_ne differs _ _)

theorem reported_set (called : s.calls t = some call) (same : call'.phase = .reported ↔ call.phase = .reported) :
    reported (s.set t call').calls = reported s.calls := by
  funext u
  by_cases own : u = t
  · subst own
    rw [reported, set_call, reported, called]
    exact decide_eq_decide.mpr same
  · exact reported_other own

theorem loss_reported (called : s.calls t = some call) (ok : Ok s t call) (returned : call.phase = .returned) (queue : Text) :
    s.gone.countP (fun e => reported (s.set t { call with phase := .reported }).calls e.1 && e.2.2.2.name = queue) =
      loss s queue + total call.rows queue := by
  have own : total call.rows queue = s.gone.countP fun e => e.1 = t && e.2.2.2.name = queue := by
    have deleted : (s.gone.filter (·.1 = t)).map (·.2.2) = call.deleted := by
      rw [ok.gone]
      rcases ok.done (.inl returned) with committed | none
      · rw [if_pos committed]
      · rw [none, if_neg (fun same => by cases same), ok.fresh none]
    rw [Call.rows, total_grouped, ← deleted, List.map_map, List.count, List.countP_map, List.countP_filter]
    refine List.countP_congr fun e _ => ?_
    simp [and_comm]
  rw [own]
  refine countP_either (fun e _ => ?_) (fun e _ both => ?_)
  · by_cases same : e.1 = t
    · rw [same, reported, set_call, decide_eq_true rfl]
      simp
    · rw [reported_other same, decide_eq_false same, Bool.false_and, Bool.or_false]
  · rw [Bool.and_eq_true] at both
    by_contra same
    rw [Bool.not_eq_false, Bool.and_eq_true, decide_eq_true_eq] at same
    rw [same.1, reported, called, Option.any_some, returned] at both
    exact absurd both.1 (by decide)

variable [DecidableEq κ]

theorem Stepped.counted (called : s.calls t = some call) (ok : Ok s t call) (stepped : Stepped s t call s') (queue : Text)
    (before : total s.reports queue = loss s queue) : total s'.reports queue = loss s' queue := by
  have unreported : ∀ (call' : Call κ) (s' : State κ τ),
    (call'.phase = .reported ↔ call.phase = .reported) → s'.gone = s.gone →
      s'.calls = (s.set t call').calls → total s.reports queue = loss s' queue := by
    intro call' s' same gone calls
    rw [before, loss_same gone (by rw [calls, reported_set called same]) queue]
  cases stepped with
  | moves next clients moves => exact unreported _ _ (iff_of_false moves.silent.1 moves.silent.2) rfl rfl
  | begins => exact unreported { call with tx := .active } _ Iff.rfl rfl rfl
  | locks => exact before
  | deletes k job => exact unreported { call with deleted := call.deleted ++ [(k, job)] } _ Iff.rfl rfl rfl
  | commits committing _ =>
    have silent : reported s.calls t = false := by
      rw [reported, called, Option.any_some, decide_eq_false_iff_not]
      intro same
      rw [same] at committing
      cases committing
    have calls : reported (s.set t { call with tx := .committed }).calls = reported s.calls := reported_set called Iff.rfl
    change total s.reports queue = (s.gone ++ call.deleted.map fun e => (t, s.now, e)).countP _
    rw [List.countP_append, before, List.countP_map]
    change loss s queue = s.gone.countP
      (fun e => reported (s.set t { call with tx := .committed }).calls e.1 && e.2.2.2.name = queue) + _
    rw [calls]
    refine (Nat.add_zero _).symm.trans (congrArg _ (List.countP_eq_zero.mpr ?_).symm)
    intro e _
    change ¬ (reported s.calls t && _) = true
    rw [silent, Bool.false_and]
    exact Bool.false_ne_true
  | aborts => exact unreported { call with tx := .aborted } _ Iff.rfl rfl rfl
  | reports returned =>
    rw [total_append, before]
    exact (loss_reported called ok returned queue).symm

theorem counted_step (kept : Kept s) (counted : ∀ queue, total s.reports queue = loss s queue)
    (h : step s e = some s') (queue : Text) :
    total s'.reports queue = loss s' queue := by
  have one : ∀ t, (s.calls t).bind (fun call => stepCall s t call e) = some s' → total s'.reports queue = loss s' queue := by
    intro t h
    obtain ⟨call, called, h⟩ := Option.bind_eq_some_iff.mp h
    exact (stepCall_cases h).counted called (kept.ok t call called) queue (counted queue)
  cases e with
  | tick =>
    obtain rfl := Option.some.inj h
    exact counted queue
  | sweep t queues =>
    simp only [step, Option.ite_none_right_eq_some, Option.some.injEq, Option.isNone_iff_eq_none] at h
    obtain ⟨unused, rfl⟩ := h
    have calls : reported (s.set t ⟨queues, if queues = [] then .returned else .connecting, .none,
      []⟩).calls = reported s.calls := by
      funext u
      by_cases same : u = t
      · subst same
        rw [reported, set_call, reported, unused]
        split <;> rfl
      · exact reported_other same
    have lost : loss (s.set t ⟨queues, if queues = [] then .returned else .connecting, .none, []⟩) queue = loss s queue := by
      rw [loss, calls]
      rfl
    exact (counted queue).trans lost.symm
  | put k job =>
    simp only [step, Option.ite_none_right_eq_some, Option.some.injEq] at h
    obtain ⟨_, rfl⟩ := h
    exact counted queue
  | libraryLocks =>
    simp only [step, Option.ite_none_right_eq_some, Option.some.injEq] at h
    obtain ⟨_, rfl⟩ := h
    exact counted queue
  | libraryUnlocks =>
    simp only [step, Option.ite_none_right_eq_some, Option.some.injEq] at h
    obtain ⟨_, rfl⟩ := h
    exact counted queue
  | connected t | refused t | begins t | locks t | deletes t _ | commits t | aborts t | answered t | fails t | rolledBack t | report t =>
    exact one t h

end Reports

/-- No sweep was called. -/
structure Fresh {κ τ : Type*} (s : State κ τ) : Prop where
  calls : ∀ t, s.calls t = none
  writes : ∀ t k, s.db.writes t k = none
  holder : ∀ t, s.holder ≠ some (.sweep t)
  gone : s.gone = []
  clients : s.clients = []
  reports : s.reports = []

section Sweeps
variable {κ τ : Type*} [DecidableEq κ] [DecidableEq τ] {s₀ s : State κ τ} {es : List (Event κ τ)}

omit [DecidableEq κ] in
theorem fresh_kept (fresh : Fresh s₀) : Kept s₀ where
  locked t k wrote := absurd (fresh.writes t k) wrote
  ok t call called := by
    rw [fresh.calls] at called
    cases called
  unused t _ := ⟨fresh.writes t, fresh.holder t, by rw [fresh.gone]; rfl, by rw [fresh.clients]; rfl⟩

theorem commits_rows (kept : Kept s) {t : τ} {s' : State κ τ} (h : step s (.commits t) = some s') :
    ∃ call, s.calls t = some call ∧
    (call.deleted.map Prod.fst).Nodup ∧ (∀ e ∈ call.deleted, s.db.rows e.1 = some e.2 ∧ expired call.queues s.now e.2 = true) ∧
    (∀ k, s'.db.rows k = if k ∈ call.deleted.map Prod.fst then none else s.db.rows k) ∧
    s'.gone = s.gone ++ call.deleted.map fun e => (t, s.now, e) := by
  obtain ⟨call, called, h⟩ := Option.bind_eq_some_iff.mp h
  simp only [stepCall, Option.ite_none_right_eq_some, Option.some.injEq] at h
  obtain ⟨⟨_, active⟩, rfl⟩ := h
  have ok := kept.ok t call called
  refine ⟨call, called, ok.keys, fun e found => ⟨(ok.held active e found).1, ok.expired e found⟩, fun k => ?_, rfl⟩
  change s.db.view t k = _
  by_cases deleted : k ∈ call.deleted.map Prod.fst
  · obtain ⟨e, found, rfl⟩ := List.mem_map.mp deleted
    rw [if_pos deleted, Db.view, (ok.held active e found).2]
    rfl
  · have unwritten : s.db.writes t k = none := by
      by_contra wrote
      exact deleted (ok.written k wrote).2
    rw [if_neg deleted, Db.view, unwritten]
    rfl

/-- However sweeps, workers, senders and the library's deletion interleave, and whatever fails: the jobs that go
when a sweep commits were there until then, waiting, past their deadline and of a watched queue, and no other row
changes; what is reported of a queue is what the sweeps that returned have deleted of it; no two sweeps delete at a
time; and a client is out of the pool once, while its queries run. -/
theorem sweep_exact (fresh : Fresh s₀) (run : Run step (fun _ _ => True) s₀ es s) :
    (∀ t s', step s (.commits t) = some s' → ∃ call, s.calls t = some call ∧
      (call.deleted.map Prod.fst).Nodup ∧
        (∀ e ∈ call.deleted, s.db.rows e.1 = some e.2 ∧ expired call.queues s.now e.2 = true) ∧
      (∀ k, s'.db.rows k = if k ∈ call.deleted.map Prod.fst then none else s.db.rows k) ∧
      s'.gone = s.gone ++ call.deleted.map fun e => (t, s.now, e)) ∧
    (∀ queue, total s.reports queue = s.gone.countP fun e => reported s.calls e.1 && e.2.2.2.name = queue) ∧
    (∀ t u call call', s.calls t = some call → s.calls u = some call' → call.tx = .active → call'.tx = .active →
      call.deleted ≠ [] → call'.deleted ≠ [] → t = u) ∧
    (∀ t call, s.calls t = some call → s.clients.count t = if call.phase.connected then 1 else 0) := by
  obtain ⟨kept, counted⟩ := run.invariant (I := fun s => Kept s ∧ ∀ queue, total s.reports queue = loss s queue)
    (fun both _ taken => ⟨kept_step both.1 taken, counted_step both.1 both.2 taken⟩)
    ⟨fresh_kept fresh, fun queue => by rw [loss, fresh.reports, fresh.gone]; rfl⟩
  refine ⟨fun t s' => commits_rows kept, counted, ?_, fun t call called => (kept.ok t call called).client⟩
  intro t u call call' called called' active active' some some'
  have first := (kept.ok t call called).guarded active (.inl some)
  have second := (kept.ok u call' called').guarded active' (.inl some')
  exact Holder.sweep.inj (Option.some.inj (first.symm.trans second))

end Sweeps

def mail (state : JobState) : Job := ⟨text "mail", state, false, 5⟩

/-- Two jobs that waited too long. -/
def backlog : State ℕ ℕ :=
  ⟨9, ⟨fun k => if k = 7 ∨ k = 8 then some (mail .created) else none, fun _ => none, fun _ _ => none⟩,
    none, fun _ => none, [], [], []⟩

/-- Two sweeps, the second behind the lock of the first. A worker takes a job before the first can delete it, fails, and leaves it to
the second. -/
def twoSweeps : List (Event ℕ ℕ) :=
  [.sweep 1 [text "mail"], .connected 1, .sweep 2 [text "mail"], .connected 2, .begins 1, .answered 1, .answered 1, .answered 1,
    .begins 2, .answered 2, .answered 2, .answered 2, .locks 1, .answered 1, .put 8 (some (mail .active)), .deletes 1 7, .answered 1,
    .commits 1, .tick, .locks 2, .answered 2, .put 8 (some (mail .retry)), .deletes 2 8, .answered 1, .answered 2, .commits 2,
    .answered 2, .report 2, .report 1]

theorem sweep_exact_two : ∃ s : State ℕ ℕ,
    (s.reports = [(text "mail", 1), (text "mail", 1)] ∧ s.gone = [(1, 9, 7, mail .created), (2, 10, 8, mail .retry)]) ∧
    (∀ t s', step s (.commits t) = some s' → ∃ call, s.calls t = some call ∧
      (call.deleted.map Prod.fst).Nodup ∧
        (∀ e ∈ call.deleted, s.db.rows e.1 = some e.2 ∧ expired call.queues s.now e.2 = true) ∧
      (∀ k, s'.db.rows k = if k ∈ call.deleted.map Prod.fst then none else s.db.rows k) ∧
      s'.gone = s.gone ++ call.deleted.map fun e => (t, s.now, e)) ∧
    (∀ queue, total s.reports queue = s.gone.countP fun e => reported s.calls e.1 && e.2.2.2.name = queue) ∧
    (∀ t u call call', s.calls t = some call → s.calls u = some call' → call.tx = .active → call'.tx = .active →
      call.deleted ≠ [] → call'.deleted ≠ [] → t = u) ∧
    (∀ t call, s.calls t = some call → s.clients.count t = if call.phase.connected then 1 else 0) := by
  have fresh : Fresh backlog := ⟨fun _ => rfl, fun _ _ => rfl, fun _ none => (by cases none), rfl, rfl, rfl⟩
  have ran : (exec step (fun _ _ => True) backlog twoSweeps).any (fun s =>
      s.reports = [(text "mail", 1), (text "mail", 1)] ∧ s.gone = [(1, 9, 7, mail .created), (2, 10, 8, mail .retry)]) = true := by
    decide +kernel
  obtain ⟨s, ran, ends⟩ := (Option.any_eq_true _ _).mp ran
  exact ⟨s, of_decide_eq_true ends, sweep_exact fresh (Run.of_exec ran)⟩

end PendingSweep
