import AppPlatform.Lib.TryFinally

/-!
# Advisory locks on pooled connections

`withAdvisoryLock` and `installJobsSchema` each hold a session-level lock on a client of a pool. Where connecting, a query or the body
fails, and whether a query that failed on the client took effect on the server, is given by a placement of failures.
-/

namespace AdvisoryLock
open Prog
variable {ε α : Type}

/-- A query that fails on the client. -/
structure Fault where
  /-- The server did what was asked, or still will. -/
  effect : Bool
  /-- The connection is lost, and with it the session on the server. -/
  lost : Bool
  deriving DecidableEq

structure Placement (ε α : Type) where
  connect : Bool
  /-- No other session holds the lock. -/
  free : Bool
  lock : Option Fault
  body : Except ε α
  /-- The connection is lost while the body runs. -/
  bodyLoses : Bool
  unlock : Option Fault

structure Session where
  obtained : Bool
  held : Bool
  lost : Bool
  /-- The body was started. -/
  ran : Bool
  /-- The argument of each `client.release`. -/
  releases : List Bool
  /-- The variable `broken` of `installJobsSchema` holds an error. -/
  broken : Bool
  deriving DecidableEq

def initial : Session := ⟨false, false, false, false, [], false⟩

inductive Raised (ε : Type) where
  | connect
  | query
  /-- A `DatabaseConnectionError`. -/
  | database
  | body (e : ε)
  deriving DecidableEq

def Session.lose (s : Session) : Session := { s with lost := true, held := false }

/-- The client went back to the pool: a truthy argument destroys it, and the pool keeps no client whose connection is lost. -/
def Session.pooled (s : Session) : Bool := s.releases.any (!·) && !s.lost

abbrev Pg (ε α : Type) := Prog Session (Raised ε) α

def connect (p : Placement ε α) : Pg ε Unit :=
  if p.connect then modify fun s => { s with obtained := true } else throw' .connect

def query (fault : Option Fault) (answer : Session → Bool) (effect : Session → Session) : Pg ε Bool := fun s =>
  match fault with
  | none => if s.lost then (.error .query, s) else (.ok (answer s), effect s)
  | some fault =>
    let served := if fault.effect && !s.lost then effect s else s
    (.error .query, if fault.lost then served.lose else served)

def Session.hold (s : Session) (held : Bool) : Session := { s with held }

def pg_try_advisory_lock (p : Placement ε α) : Pg ε Bool :=
  query p.lock (fun _ => p.free) fun s => if p.free then s.hold true else s

/-- The lock that waits until the key is free. -/
def pg_advisory_lock (p : Placement ε α) : Pg ε Bool := query p.lock (fun _ => true) (·.hold true)

def pg_advisory_unlock (p : Placement ε α) : Pg ε Bool := query p.unlock (·.held) (·.hold false)

def body (p : Placement ε α) : Pg ε α := fun s =>
  let s := { s with ran := true }
  (p.body.mapError .body, if p.bodyLoses then s.lose else s)

def release (destroy : Bool) : Pg ε Unit := modify fun s => { s with releases := s.releases ++ [destroy] }

def classifyDatabaseError (_ : Raised ε) : Raised ε := .database

def acquire (p : Placement ε α) : Pg ε Bool := do
  connect p
  pg_try_advisory_lock p

/-- `client?.release(true)` -/
def releaseObtained : Pg ε Unit := fun s => if s.obtained then release true s else (.ok (), s)

def giveUp (e : Raised ε) : Pg ε Bool := do
  releaseObtained
  throw' (classifyDatabaseError e)

def unlocked (p : Placement ε α) : Pg ε Bool := do
  let unlocked ← pg_advisory_unlock p
  pure !unlocked

def unlockAndRelease (p : Placement ε α) : Pg ε Unit := do
  let destroy ← (unlocked p).catch' fun _ => pure true
  release destroy

/-- `{ acquired: false }` -/
def skip : Pg ε (Option α) := do
  release false
  pure none

def runHolding (p : Placement ε α) : Pg ε (Option α) := do
  let value ← (body p).finally' (unlockAndRelease p)
  pure (some value)

def withAdvisoryLock (p : Placement ε α) : Pg ε (Option α) := do
  let acquired ← (acquire p).catch' giveUp
  if acquired then runHolding p else skip

def unlockOrBreak (p : Placement ε α) : Pg ε Unit :=
  (do let _ ← pg_advisory_unlock p; pure ()).catch' fun _ => modify fun s => { s with broken := true }

def locked (p : Placement ε α) : Pg ε α := do
  let _ ← pg_advisory_lock p
  (body p).finally' (unlockOrBreak p)

def installJobsSchema (p : Placement ε α) : Pg ε α := do
  connect p
  (locked p).finally' do
    let broken ← read Session.broken
    release broken

structure Sound {β : Type} (p : Placement ε α) (r : Except (Raised ε) β) (s : Session) : Prop where
  once : s.releases.length = if s.obtained then 1 else 0
  /-- What may hold the lock does not go back to the pool. -/
  clean : s.held = true → s.pooled = false
  body : ∀ e, s.ran = true → p.body = .error e → r = .error (.body e)

/-- What no query changes. -/
structure Kept (s t : Session) : Prop where
  obtained : t.obtained = s.obtained
  ran : t.ran = s.ran
  releases : t.releases = s.releases
  broken : t.broken = s.broken

theorem kept_lose (s : Session) : Kept s s.lose := ⟨rfl, rfl, rfl, rfl⟩

theorem kept_hold (s : Session) (held : Bool) : Kept s (s.hold held) := ⟨rfl, rfl, rfl, rfl⟩

theorem Kept.trans {s t u : Session} (first : Kept s t) (second : Kept t u) : Kept s u :=
  ⟨second.obtained.trans first.obtained, second.ran.trans first.ran, second.releases.trans first.releases,
    second.broken.trans first.broken⟩

theorem query_kept {fault : Option Fault} {answer : Session → Bool} {effect : Session → Session} (keeps : ∀ s, Kept s (effect s))
    (s : Session) : Kept s (query (ε := ε) fault answer effect s).2 := by
  unfold query
  cases fault with
  | none =>
    dsimp only
    split
    · exact ⟨rfl, rfl, rfl, rfl⟩
    · exact keeps s
  | some fault =>
    have served : Kept s (if fault.effect && !s.lost then effect s else s) := by
      split
      · exact keeps s
      · exact ⟨rfl, rfl, rfl, rfl⟩
    dsimp only
    split
    · exact served.trans (kept_lose _)
    · exact served

theorem query_ok {fault : Option Fault} {answer : Session → Bool} {effect : Session → Session} {s : Session} {b : Bool}
    (answered : (query (ε := ε) fault answer effect s).1 = .ok b) :
    b = answer s ∧ (query (ε := ε) fault answer effect s).2 = effect s := by
  unfold query at answered ⊢
  cases fault with
  | none =>
    dsimp only at answered ⊢
    split at answered
    · cases answered
    · rename_i alive
      cases answered
      rw [if_neg alive]
      exact ⟨rfl, rfl⟩
  | some fault => cases answered

/-! ### The leader lock -/

/-- The state of a client that was not released, where the body was not started. -/
structure Waiting (s : Session) : Prop where
  releases : s.releases = []
  ran : s.ran = false

theorem acquire_waits (p : Placement ε α) : Ensures (· = initial) (acquire p) fun r s =>
    Waiting s ∧ ∀ acquired, r = .ok acquired → s.obtained = true ∧ (acquired = false → s.held = false) := by
  refine ensures_bind (R := fun r s => Waiting s ∧ s.held = false ∧ (r = .ok () → s.obtained = true)) ?_ ?_ ?_
  · unfold connect
    split
    · refine ensures_modify ?_
      rintro _ rfl
      exact ⟨⟨rfl, rfl⟩, rfl, fun _ => rfl⟩
    · refine ensures_throw ?_
      rintro _ rfl
      exact ⟨⟨rfl, rfl⟩, rfl, nofun⟩
  · rintro ⟨⟩ s ⟨waiting, free, obtained⟩
    have keeps : ∀ s : Session, Kept s (if p.free then s.hold true else s) := by
      intro s
      split
      · exact kept_hold s true
      · exact ⟨rfl, rfl, rfl, rfl⟩
    have kept : Kept s (pg_try_advisory_lock p s).2 := query_kept keeps s
    refine ⟨⟨kept.releases.trans waiting.releases, kept.ran.trans waiting.ran⟩, fun acquired answered => ?_⟩
    obtain ⟨said, left⟩ := query_ok answered
    refine ⟨kept.obtained.trans (obtained rfl), fun refused => ?_⟩
    have taken : p.free = false := said.symm.trans refused
    have same : (pg_try_advisory_lock p s).2 = s := by
      refine left.trans ?_
      rw [taken]
      rfl
    rw [same]
    exact free
  · rintro e s ⟨waiting, _, _⟩
    exact ⟨waiting, nofun⟩

/-- A client that was obtained and not released. -/
structure Out (s : Session) : Prop where
  obtained : s.obtained = true
  releases : s.releases = []

theorem Out.kept {s t : Session} (out : Out s) (kept : Kept s t) : Out t :=
  ⟨kept.obtained.trans out.obtained, kept.releases.trans out.releases⟩

/-- Released once, and not into the pool where it may hold the lock. -/
structure Returned (s : Session) : Prop where
  once : s.releases.length = if s.obtained then 1 else 0
  clean : s.held = true → s.pooled = false

theorem returned_of_out {s : Session} (out : Out s) {destroy : Bool} (free : destroy = false → s.lost = false → s.held = false) :
    Returned { s with releases := s.releases ++ [destroy] } := by
  refine ⟨by simp [out.obtained, out.releases], fun held => ?_⟩
  cases destroy with
  | true => simp [Session.pooled, out.releases]
  | false =>
    cases lost : s.lost with
    | true => simp [Session.pooled]
    | false => exact absurd held (by rw [free rfl lost]; decide)

theorem giveUp_returned (e : Raised ε) : Ensures Waiting (giveUp e) fun r s => Returned s ∧ s.ran = false ∧
    ∃ e, r = .error e := by
  refine ensures_bind (R := fun r s => Returned s ∧ s.ran = false ∧ r = .ok ()) ?_ (fun _ => ensures_throw ?_) ?_
  · intro s waiting
    unfold releaseObtained
    split
    · rename_i obtained
      exact ⟨returned_of_out ⟨obtained, waiting.releases⟩ nofun, waiting.ran, rfl⟩
    · rename_i none
      exact ⟨⟨by simp [waiting.releases, none], fun _ => by simp [Session.pooled, waiting.releases]⟩, waiting.ran, rfl⟩
  · rintro s ⟨returned, ran, _⟩
    exact ⟨returned, ran, _, rfl⟩
  · rintro e s ⟨_, _, same⟩
    cases same

theorem body_out (p : Placement ε α) : Ensures Out (body p) fun r s =>
    Out s ∧ ∀ e, p.body = .error e → r = .error (.body e) := by
  intro s out
  unfold body
  refine ⟨?_, ?_⟩
  · dsimp only
    split
    · exact ⟨out.obtained, out.releases⟩
    · exact ⟨out.obtained, out.releases⟩
  · intro e failed
    rw [failed]
    rfl

theorem unlock_out (p : Placement ε α) : Ensures Out (pg_advisory_unlock p) fun r s => Out s ∧
    ∀ b, r = .ok b → s.held = false := by
  intro s out
  have kept : Kept s (pg_advisory_unlock p s).2 := query_kept (fun s => kept_hold s false) s
  refine ⟨out.kept kept, fun b answered => ?_⟩
  have left : (pg_advisory_unlock p s).2 = s.hold false := (query_ok answered).2
  rw [left]
  rfl

/-- Whatever the unlock comes to, the client is released once, and kept only if the lock is gone. -/
theorem unlockAndRelease_returned (p : Placement ε α) : Ensures Out (unlockAndRelease p) fun ended s =>
    ended = .ok () ∧ Returned s := by
  have unlocks : Ensures Out (unlocked p) fun r s => Out s ∧ ∀ destroy, r = .ok destroy → s.held = false := by
    refine ensures_bind (unlock_out p) (fun b => ensures_pure ?_) ?_
    · rintro s ⟨out, free⟩
      exact ⟨out, fun _ _ => free b rfl⟩
    · rintro e s ⟨out, _⟩
      exact ⟨out, nofun⟩
  have decides : Ensures Out ((unlocked p).catch' fun _ => pure true) fun r s =>
      Out s ∧ ∃ destroy, r = .ok destroy ∧ (destroy = false → s.held = false) := by
    refine ensures_catch unlocks ?_ ?_
    · rintro destroy s ⟨out, free⟩
      exact ⟨out, destroy, rfl, fun _ => free destroy rfl⟩
    · refine fun e => ensures_pure ?_
      rintro s ⟨out, _⟩
      exact ⟨out, true, rfl, nofun⟩
  refine ensures_bind decides (fun destroy => ensures_modify ?_) ?_
  · rintro s ⟨out, _, same, free⟩
    cases same
    exact ⟨rfl, returned_of_out out fun kept _ => free kept⟩
  · rintro e s ⟨_, _, same, _⟩
    cases same

theorem Returned.sound {β : Type} {p : Placement ε α} {r : Except (Raised ε) β} {s : Session} (returned : Returned s)
    (body : ∀ e, s.ran = true → p.body = .error e → r = .error (.body e)) : Sound p r s :=
  ⟨returned.once, returned.clean, body⟩

theorem skip_sound (p : Placement ε α) :
    Ensures (fun s => Out s ∧ s.ran = false ∧ s.held = false) (skip : Pg ε (Option α)) (Sound p) := by
  refine ensures_bind (R := fun r s => Returned s ∧ s.ran = false ∧ r = .ok ()) (ensures_modify ?_) (fun _ => ensures_pure ?_) ?_
  · rintro s ⟨out, ran, free⟩
    exact ⟨returned_of_out out fun _ _ => free, ran, rfl⟩
  · rintro s ⟨returned, ran, _⟩
    exact returned.sound fun e started => absurd (ran.symm.trans started) (by decide)
  · rintro e s ⟨_, _, same⟩
    cases same

theorem runHolding_sound (p : Placement ε α) : Ensures Out (runHolding p) (Sound p) := by
  have finishes : Ensures Out ((body p).finally' (unlockAndRelease p)) fun r s =>
      Returned s ∧ ∀ e, p.body = .error e → r = .error (.body e) := by
    refine ensures_finally (body_out p) fun r => ?_
    intro s before
    obtain ⟨ended, returned⟩ := unlockAndRelease_returned p s before.1
    exact ⟨ended, returned, before.2⟩
  refine ensures_bind finishes (fun value => ensures_pure ?_) ?_
  · rintro s ⟨returned, body⟩
    exact returned.sound fun e _ failed => nomatch body e failed
  · rintro thrown s ⟨returned, body⟩
    refine returned.sound fun e _ failed => ?_
    cases body e failed
    rfl

theorem withAdvisoryLock_sound (p : Placement ε α) : Ensures (· = initial) (withAdvisoryLock p) (Sound p) := by
  have acquires : Ensures (· = initial) ((acquire p).catch' giveUp) fun r s =>
      (∃ e, r = .error e ∧ Returned s ∧ s.ran = false) ∨
        ∃ acquired, r = .ok acquired ∧ Out s ∧ s.ran = false ∧ (acquired = false → s.held = false) := by
    refine ensures_catch (acquire_waits p) ?_ ?_
    · rintro acquired s ⟨waiting, taken⟩
      obtain ⟨obtained, free⟩ := taken acquired rfl
      exact .inr ⟨acquired, rfl, ⟨obtained, waiting.releases⟩, waiting.ran, free⟩
    · intro e
      refine ((giveUp_returned e).strengthen fun s before => before.1).weaken ?_
      rintro r s ⟨returned, ran, e, rfl⟩
      exact .inl ⟨e, rfl, returned, ran⟩
  refine ensures_bind acquires ?_ ?_
  · rintro acquired s (⟨e, same, _⟩ | ⟨_, same, out, ran, free⟩)
    · cases same
    · cases same
      cases acquired with
      | false => exact skip_sound p s ⟨out, ran, free rfl⟩
      | true => exact runHolding_sound p s out
  · rintro e s (⟨_, _, returned, ran⟩ | ⟨_, same, _⟩)
    · exact returned.sound fun e started => absurd (ran.symm.trans started) (by decide)
    · cases same

/-! ### The installation -/

/-- The client may go back to the pool only without the lock. -/
structure Settled (s : Session) : Prop extends Out s where
  free : s.broken = false → s.lost = false → s.held = false

theorem unlockOrBreak_settled (p : Placement ε α) : Ensures (fun s => Out s ∧ s.broken = false) (unlockOrBreak p)
    fun ended s => ended = .ok () ∧ Settled s := by
  refine ensures_catch (R := fun r s => Out s ∧ (r = .ok () → s.held = false)) ?_ ?_ ?_
  · refine ensures_bind ((unlock_out p).strengthen fun s before => before.1) (fun b => ensures_pure ?_) ?_
    · rintro s ⟨out, free⟩
      exact ⟨out, fun _ => free b rfl⟩
    · rintro e s ⟨out, _⟩
      exact ⟨out, nofun⟩
  · rintro ⟨⟩ s ⟨out, free⟩
    exact ⟨rfl, ⟨out, fun _ _ => free rfl⟩⟩
  · refine fun e => ensures_modify ?_
    rintro s ⟨out, _⟩
    exact ⟨rfl, ⟨⟨out.obtained, out.releases⟩, nofun⟩⟩

/-- The lock query failed on the client and took effect, on a connection that lives on. -/
def lockLeft : Fault := ⟨true, false⟩

theorem locked_settled {p : Placement ε α} (clean : p.lock ≠ some lockLeft) :
    Ensures (fun s => Out s ∧ s.held = false ∧ s.ran = false ∧ s.broken = false) (locked p)
      fun r s => Settled s ∧ ∀ e, s.ran = true → p.body = .error e → r = .error (.body e) := by
  have takes : Ensures (fun s => Out s ∧ s.held = false ∧ s.ran = false ∧ s.broken = false) (pg_advisory_lock p)
      fun r s => Out s ∧ s.ran = false ∧ s.broken = false ∧ ((∃ e, r = .error e) → s.lost = false → s.held = false) := by
    rintro s ⟨out, free, ran, broken⟩
    have kept : Kept s (pg_advisory_lock p s).2 := query_kept (fun s => kept_hold s true) s
    refine ⟨out.kept kept, kept.ran.trans ran, kept.broken.trans broken, ?_⟩
    rintro ⟨e, failed⟩ alive
    unfold pg_advisory_lock query at failed alive ⊢
    cases fault : p.lock with
    | none =>
      rw [fault] at failed alive
      dsimp only at failed alive ⊢
      split at failed
      · rename_i lost
        rw [if_pos lost]
        exact free
      · cases failed
    | some fault' =>
      rw [fault] at clean alive
      obtain ⟨effect, lost⟩ := fault'
      cases effect <;> cases lost
      · exact free
      · rfl
      · exact absurd rfl clean
      · rfl
  refine ensures_bind takes (fun b => ?_) ?_
  · have runs : Ensures (fun s => Out s ∧ s.broken = false) (body p) fun r s =>
        (Out s ∧ s.broken = false) ∧ ∀ e, p.body = .error e → r = .error (.body e) := by
      rintro s ⟨out, broken⟩
      obtain ⟨out', failed⟩ := body_out p s out
      refine ⟨⟨out', ?_⟩, failed⟩
      unfold body
      dsimp only
      split <;> exact broken
    refine (ensures_finally (Q := fun r s => Settled s ∧ ∀ e, p.body = .error e → r = .error (.body e)) runs
      fun r => ?_).strengthen ?_
      |>.weaken ?_
    · rintro s ⟨before, failed⟩
      obtain ⟨ended, settled⟩ := unlockOrBreak_settled p s before
      exact ⟨ended, settled, failed⟩
    · rintro s ⟨out, _, broken, _⟩
      exact ⟨out, broken⟩
    · rintro r s ⟨settled, failed⟩
      exact ⟨settled, fun e _ => failed e⟩
  · rintro e s ⟨out, ran, _, free⟩
    exact ⟨⟨out, fun _ => free ⟨e, rfl⟩⟩, fun e started => absurd (ran.symm.trans started) (by decide)⟩

theorem installJobsSchema_sound {p : Placement ε α} (clean : p.connect = true → p.lock ≠ some lockLeft) :
    Ensures (· = initial) (installJobsSchema p) (Sound p) := by
  unfold installJobsSchema
  by_cases connects : p.connect = true
  · refine ensures_bind (R := fun r s => r = .ok () ∧ Out s ∧ s.held = false ∧ s.ran = false ∧
      s.broken = false) ?_ (fun _ => ?_) ?_
    · unfold connect
      rw [if_pos connects]
      refine ensures_modify ?_
      rintro _ rfl
      exact ⟨rfl, ⟨rfl, rfl⟩, rfl, rfl, rfl⟩
    · refine ensures_finally ((locked_settled (clean connects)).strengthen fun s before => before.2) fun r => ?_
      refine ensures_bind (R := fun b s => b = .ok s.broken ∧ Settled s ∧ ∀ e, s.ran = true →
        p.body = .error e → r = .error (.body e))
        (ensures_read fun s before => ⟨rfl, before⟩) (fun broken => ensures_modify ?_) ?_
      · rintro s ⟨same, settled, failed⟩
        cases same
        exact ⟨rfl, (returned_of_out settled.toOut settled.free).sound failed⟩
      · rintro e s ⟨same, _⟩
        cases same
    · rintro e s ⟨same, _⟩
      cases same
  · refine ensures_bind (R := fun r s => s = initial ∧ ∃ e, r = .error e) ?_ (fun _ => ?_) ?_
    · unfold connect
      rw [if_neg connects]
      exact ensures_throw fun s before => ⟨before, _, rfl⟩
    · rintro s ⟨_, _, same⟩
      cases same
    · rintro e _ ⟨rfl, _⟩
      exact ⟨rfl, nofun, nofun⟩

/-- A lock that was taken by a query that failed goes back to the pool. -/
theorem installJobsSchema_leaves {p : Placement ε α} (connects : p.connect = true) (left : p.lock = some lockLeft) :
    (installJobsSchema p initial).2 = ⟨true, true, false, false, [false], false⟩ := by
  obtain ⟨_, free, _, body, bodyLoses, unlock⟩ := p
  cases connects
  cases left
  rfl

/-- For every placement of failures the leader lock is released once, never leaves its lock on a client of the pool and keeps the body's
error; and so does the installation exactly where no lock query failed after it took effect. -/
theorem advisory_locks_sound_iff (p : Placement ε α) :
    Sound p (withAdvisoryLock p initial).1 (withAdvisoryLock p initial).2 ∧
    (Sound p (installJobsSchema p initial).1 (installJobsSchema p initial).2 ↔ (p.connect = true → p.lock ≠ some lockLeft)) := by
  refine ⟨withAdvisoryLock_sound p initial rfl, ?_, fun clean => installJobsSchema_sound clean initial rfl⟩
  intro sound connects left
  have clean := sound.clean
  rw [installJobsSchema_leaves connects left] at clean
  exact absurd (clean rfl) (by decide)

/-- The lock is taken on the server and its query times out on the client. -/
def timedOut : Placement Unit Unit := ⟨true, true, some lockLeft, .ok (), false, none⟩

theorem timedOut_pools_lock : (installJobsSchema timedOut initial).2.held = true ∧
    (installJobsSchema timedOut initial).2.pooled = true ∧
    ¬Sound timedOut (installJobsSchema timedOut initial).1 (installJobsSchema timedOut initial).2 :=
  ⟨rfl, rfl, fun sound => absurd (sound.clean rfl) (by decide)⟩

end AdvisoryLock
