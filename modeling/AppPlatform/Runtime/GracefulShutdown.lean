import AppPlatform.Jobs.StopBudget
import AppPlatform.Lib.Run

/-!
# The shutdown sequence

`enableGracefulShutdown`: signals and calls that ask a process to leave, the steps that it awaits one after the other, the timer that
bounds them, and the connections of its HTTP server meanwhile. Time is in milliseconds and passes by single ticks.
-/

namespace ShutdownSequence
open Runs Js

/-- How often the sockets that are idle are closed during the drain. -/
def IDLE_SWEEP_MS : ℕ := 100

structure Setup where
  delayMs : ℕ
  timeoutMs : ℕ
  /-- `httpAdapterOf(app)` gives an adapter. -/
  http : Bool
  /-- `healthRegistryOf(app)` gives a registry. -/
  registry : Bool
  /-- The server has `closeIdleConnections`. -/
  sweeps : Bool
  deriving DecidableEq

inductive Effect where
  | beginShutdown
  | stopListening
  | closeApplication
  | flushTelemetry
  | exit (code : ℕ)
  deriving DecidableEq

/-- The step that is awaited; of the drain, when idle sockets were last closed. -/
inductive Phase where
  | delay
  | drain (swept : ℕ)
  | close
  | flush
  deriving DecidableEq

/-- `run` between two of its `await`s. -/
structure Running where
  startedAt : ℕ
  phase : Phase
  failed : Bool
  deriving DecidableEq

structure Connection where
  id : ℕ
  /-- Since when no request is in flight on it; none while one is. -/
  idleSince : Option ℕ
  deriving DecidableEq

structure State where
  now : ℕ
  running : Option Running
  listening : Bool
  connections : List Connection
  effects : List (ℕ × Effect)
  exited : Option ℕ
  deriving DecidableEq

def initial (setup : Setup) : State := ⟨0, none, setup.http, [], [], none⟩

inductive Event where
  | signal
  | shutdown
  | tick
  | accept (id : ℕ)
  | request (id : ℕ)
  | answer (id : ℕ) (keepAlive : Bool)
  | hangUp (id : ℕ)
  /-- The timer of `sleep`. -/
  | slept
  /-- The interval of `drain`. -/
  | sweep
  /-- The promise of the awaited step is fulfilled or rejected. -/
  | settled (ok : Bool)
  /-- `hardStop` -/
  | deadline
  deriving DecidableEq

def State.emit (s : State) (effect : Effect) : State := { s with effects := s.effects ++ [(s.now, effect)] }

def State.await (s : State) (q : Running) (phase : Phase) : State := { s with running := some { q with phase } }

def State.exit (s : State) (code : ℕ) : State := { s.emit (.exit code) with exited := some code }

/-- `closeIdleConnections` -/
def State.closeIdle (s : State) : State := { s with connections := s.connections.filter (·.idleSince = none) }

/-- `server?.closeIdleConnections?.()` -/
def State.sweep (setup : Setup) (s : State) : State := if setup.sweeps then s.closeIdle else s

/-- `close` of the server: nothing more is accepted, and what is idle at that moment is closed. -/
def State.stopListening (s : State) : State := { (s.emit .stopListening).closeIdle with listening := false }

/-- `run`, up to its first `await`. -/
def State.run (setup : Setup) (s : State) : State :=
  if setup.http then (if setup.registry then s.emit .beginShutdown else s).await ⟨s.now, .delay, false⟩ .delay
  else (s.emit .closeApplication).await ⟨s.now, .close, false⟩ .close

/-- `running ??= run(reason)` -/
def State.shutdown (setup : Setup) (s : State) : State := if s.running.isSome then s else s.run setup

/-- The handler of a signal: a second one is logged and ignored. -/
def State.handler (setup : Setup) (s : State) : State := if s.running.isSome then s else s.shutdown setup

/-- `run` from one `await` to the next, when the step gave `ok` or what it threw was caught. -/
def State.proceed (s : State) (q : Running) (ok : Bool) : State :=
  let q := { q with failed := q.failed || !ok }
  match q.phase with
  | .delay => s.stopListening.await q (.drain s.now)
  | .drain _ => (s.emit .closeApplication).await q .close
  | .close => (s.emit .flushTelemetry).await q .flush
  | .flush => (s.await q .flush).exit (if q.failed then 1 else 0)

/-- Whether the awaited step can settle so: the server is closed only once no connection is left. -/
def State.settles (s : State) (phase : Phase) (ok : Bool) : Bool :=
  match phase with
  | .delay => false
  | .drain _ => !ok || s.connections = []
  | .close | .flush => true

def State.has (s : State) (id : ℕ) (idle : Bool) : Bool := s.connections.any fun c => c.id = id && c.idleSince.isSome = idle

def State.mark (s : State) (id : ℕ) (idleSince : Option ℕ) : State :=
  { s with connections := s.connections.map fun c => if c.id = id then ⟨id, idleSince⟩ else c }

def State.drop (s : State) (id : ℕ) : State := { s with connections := s.connections.filter (·.id ≠ id) }

def live (setup : Setup) (s : State) : Event → Option State
  | .signal => some (s.handler setup)
  | .shutdown => some (s.shutdown setup)
  | .tick => some { s with now := s.now + 1 }
  | .accept id =>
    if s.listening = true ∧ ∀ c ∈ s.connections,
      c.id ≠ id then some { s with connections := s.connections ++ [⟨id, some s.now⟩] }
    else none
  | .request id => if s.has id true then some (s.mark id none) else none
  | .answer id keepAlive => if s.has id false then some (if keepAlive then s.mark id (some s.now) else s.drop id) else none
  | .hangUp id => some (s.drop id)
  | .slept => s.running.bind fun q => if q.phase = .delay ∧
    q.startedAt + setup.delayMs ≤ s.now then some (s.proceed q true) else none
  | .sweep => s.running.bind fun q =>
    match q.phase with
    | .drain swept =>
      if swept + IDLE_SWEEP_MS ≤ s.now then some ((s.sweep setup).await q (.drain s.now)) else none
    | _ => none
  | .settled ok => s.running.bind fun q => if s.settles q.phase ok then some (s.proceed q ok) else none
  | .deadline => s.running.bind fun q => if q.startedAt + setup.timeoutMs ≤ s.now then some (s.exit 1) else none

/-- Nothing happens in a process that has exited. -/
def step (setup : Setup) (s : State) (e : Event) : Option State := if s.exited.isSome then none else live setup s e

/-! ### What a step does -/

/-- What happens on the connections, and the time that passes. -/
structure Traffic (s : State) (e : Event) (t : State) : Prop where
  rest : t = { s with now := t.now, connections := t.connections }
  silent : e ≠ .deadline ∧ ∀ ok, e ≠ .settled ok
  clock : t.now = s.now ∨ e = .tick ∧ t.now = s.now + 1 ∧ t.connections = s.connections
  idle : ∀ c ∈ t.connections, ∀ u, c.idleSince = some u → u = s.now ∨ c ∈ s.connections
  shut : s.listening = false → s.connections = [] → t.connections = []
  busy : ∀ id, ⟨id, none⟩ ∈ s.connections → ⟨id, none⟩ ∈ t.connections ∨
    (∃ keepAlive, e = .answer id keepAlive) ∨ e = .hangUp id

inductive Moves (setup : Setup) (s : State) : Event → State → Prop where
  | begin {e : Event} (fresh : s.running = none) (asked : e = .signal ∨ e = .shutdown) : Moves setup s e (s.run setup)
  | slept {q : Running} (running : s.running = some q) (phase : q.phase = .delay) (due : q.startedAt + setup.delayMs ≤ s.now) :
      Moves setup s .slept (s.proceed q true)
  | settled {q : Running} {ok : Bool} (running : s.running = some q) (settles : s.settles q.phase ok = true) :
      Moves setup s (.settled ok) (s.proceed q ok)
  | sweep {q : Running} {swept : ℕ} (running : s.running = some q) (phase : q.phase = .drain swept)
      (due : swept + IDLE_SWEEP_MS ≤ s.now) :
      Moves setup s .sweep ((s.sweep setup).await q (.drain s.now))
  | deadline {q : Running} (running : s.running = some q) (due : q.startedAt + setup.timeoutMs ≤ s.now) :
      Moves setup s .deadline (s.exit 1)
  | traffic {e : Event} {t : State} (traffic : Traffic s e t) : Moves setup s e t

section Inversion
variable {setup : Setup} {s t : State} {e : Event}

theorem traffic_connections {connections : List Connection} (silent : e ≠ .deadline ∧ ∀ ok, e ≠ .settled ok)
    (idle : ∀ c ∈ connections, ∀ u, c.idleSince = some u → u = s.now ∨ c ∈ s.connections)
    (shut : s.listening = false → s.connections = [] → connections = [])
    (busy : ∀ id, ⟨id, none⟩ ∈ s.connections → ⟨id, none⟩ ∈ connections ∨
      (∃ keepAlive, e = .answer id keepAlive) ∨ e = .hangUp id) :
    Traffic s e { s with connections } :=
  ⟨rfl, silent, .inl rfl, idle, shut, busy⟩

theorem traffic_same (silent : e ≠ .deadline ∧ ∀ ok, e ≠ .settled ok) : Traffic s e s :=
  traffic_connections silent (fun _ member _ _ => .inr member) (fun _ none => none) fun _ busy => .inl busy

theorem traffic_drop {id : ℕ} (ended : (∃ keepAlive, e = .answer id keepAlive) ∨ e = .hangUp id) : Traffic s e (s.drop id) := by
  have silent : e ≠ .deadline ∧ ∀ ok, e ≠ .settled ok := by
    rcases ended with ⟨keepAlive, rfl⟩ | rfl <;> simp
  apply traffic_connections silent
  · intro c member u _
    exact .inr (List.mem_of_mem_filter member)
  · intro _ none
    rw [none]
    rfl
  · intro other busy
    by_cases same : other = id
    · rw [same]
      exact .inr ended
    · exact .inl (List.mem_filter.mpr ⟨busy, by simpa using same⟩)

theorem traffic_mark {id : ℕ} {since : Option ℕ} (now : ∀ u, since = some u → u = s.now)
    (ended : since = none ∨ ∃ keepAlive, e = .answer id keepAlive) (silent : e ≠ .deadline ∧ ∀ ok, e ≠ .settled ok) :
    Traffic s e (s.mark id since) := by
  apply traffic_connections silent
  · intro c member u idle
    obtain ⟨d, given, rfl⟩ := List.mem_map.mp member
    split at idle
    · exact .inl (now u idle)
    · rename_i other
      rw [if_neg other]
      exact .inr given
  · intro _ none
    rw [none]
    rfl
  · intro other busy
    by_cases same : other = id
    · rcases ended with rfl | answered
      · exact .inl (List.mem_map.mpr ⟨_, busy, by rw [if_pos same, same]⟩)
      · rw [same]
        exact .inr (.inl answered)
    · exact .inl (List.mem_map.mpr ⟨_, busy, if_neg same⟩)

theorem moves_of_live (h : live setup s e = some t) : Moves setup s e t := by
  have asked : ∀ e, e = .signal ∨ e = .shutdown → Moves setup s e (s.shutdown setup) := by
    intro e asked
    unfold State.shutdown
    cases running : s.running with
    | none => exact .begin running asked
    | some q =>
      refine .traffic (traffic_same ?_)
      rcases asked with rfl | rfl <;> simp
  cases e with
  | signal =>
    cases h
    unfold State.handler
    split
    · exact .traffic (traffic_same (by simp))
    · exact asked _ (.inl rfl)
  | shutdown =>
    cases h
    exact asked _ (.inr rfl)
  | tick =>
    cases h
    exact .traffic ⟨rfl, by simp, .inr ⟨rfl, rfl, rfl⟩, fun _ member _ _ => .inr member, fun _ none =>
      none, fun _ busy => .inl busy⟩
  | accept id =>
    simp only [live] at h
    split at h
    · rename_i fresh
      cases h
      refine .traffic (traffic_connections (by simp) ?_ ?_ fun _ busy => .inl (List.mem_append_left _ busy))
      · intro c member u idle
        rcases List.mem_append.mp member with member | member
        · exact .inr member
        · obtain rfl := List.mem_singleton.mp member
          exact .inl (Option.some.inj idle).symm
      · intro shut
        rw [shut] at fresh
        cases fresh.1
    · cases h
  | request id =>
    simp only [live] at h
    split at h
    · cases h
      exact .traffic (traffic_mark (by simp) (.inl rfl) (by simp))
    · cases h
  | answer id keepAlive =>
    simp only [live] at h
    split at h
    · cases h
      split
      · exact .traffic (traffic_mark (fun u same => (Option.some.inj same).symm) (.inr ⟨keepAlive, rfl⟩) (by simp))
      · exact .traffic (traffic_drop (.inl ⟨keepAlive, rfl⟩))
    · cases h
  | hangUp id =>
    cases h
    exact .traffic (traffic_drop (.inr rfl))
  | slept =>
    obtain ⟨q, running, h⟩ := Option.bind_eq_some_iff.mp h
    split at h
    · rename_i due
      cases h
      exact .slept running due.1 due.2
    · cases h
  | sweep =>
    obtain ⟨q, running, h⟩ := Option.bind_eq_some_iff.mp h
    split at h
    · rename_i phase
      split at h
      · rename_i due
        cases h
        exact .sweep running phase due
      · cases h
    · cases h
  | settled ok =>
    obtain ⟨q, running, h⟩ := Option.bind_eq_some_iff.mp h
    split at h
    · rename_i settles
      cases h
      exact .settled running settles
    · cases h
  | deadline =>
    obtain ⟨q, running, h⟩ := Option.bind_eq_some_iff.mp h
    split at h
    · rename_i due
      cases h
      exact .deadline running due
    · cases h

theorem moves_of_step (h : step setup s e = some t) : s.exited = none ∧ Moves setup s e t := by
  unfold step at h
  split at h
  · cases h
  · rename_i alive
    exact ⟨Option.not_isSome_iff_eq_none.mp alive, moves_of_live h⟩

end Inversion

/-! ### The order of the steps -/

def begun (setup : Setup) : List Effect := if setup.registry then [.beginShutdown] else []

/-- What precedes the close of the application. -/
def left (setup : Setup) : List Effect := if setup.http then begun setup ++ [.stopListening] else []

/-- What a shutdown does, in this order. -/
def plan (setup : Setup) : List Effect := left setup ++ [.closeApplication, .flushTelemetry]

/-- What was done when a step is awaited. -/
def done (setup : Setup) : Phase → List Effect
  | .delay => begun setup
  | .drain _ => begun setup ++ [.stopListening]
  | .close => left setup ++ [.closeApplication]
  | .flush => plan setup

def State.names (s : State) : List Effect := s.effects.map Prod.snd

/-- How far a run came. -/
structure Traced (setup : Setup) (s : State) (es : List Event) : Prop where
  fresh : s.running = none → s.names = [] ∧ s.exited = none ∧ .deadline ∉ es ∧ ∀ ok, .settled ok ∉ es
  failed : ∀ q, s.running = some q → (q.failed = true ↔ .settled false ∈ es)
  http : ∀ q, s.running = some q → setup.http = true ∨ q.phase = .close ∨ q.phase = .flush
  reached : ∀ q, s.running = some q →
    (s.exited = none ∧ .deadline ∉ es ∧ s.names = done setup q.phase) ∨
    (s.exited = some 1 ∧ .deadline ∈ es ∧ s.names = done setup q.phase ++ [.exit 1]) ∨
    (q.phase = .flush ∧ s.exited = some (if q.failed then 1 else 0) ∧ .deadline ∉ es ∧
      s.names = plan setup ++ [.exit (if q.failed then 1 else 0)])

section Order
variable {setup : Setup} {s t : State} {es : List Event} {e : Event}

@[simp] theorem names_emit (s : State) (effect : Effect) :
    (s.emit effect).names = s.names ++ [effect] := by simp [State.names, State.emit]

@[simp] theorem names_await (s : State) (q : Running) (phase : Phase) : (s.await q phase).names = s.names := rfl

@[simp] theorem names_exit (s : State) (code : ℕ) : (s.exit code).names = s.names ++ [.exit code] := names_emit s (.exit code)

@[simp] theorem names_stopListening (s : State) : s.stopListening.names = s.names ++ [.stopListening] := names_emit s .stopListening

/-- What a step that settled leads to. -/
theorem proceed_cases (s : State) (q : Running) (ok : Bool) : ∃ p : Running,
    (s.proceed q ok).running = some p ∧ p.startedAt = q.startedAt ∧ p.failed = (q.failed || !ok) ∧
      ((q.phase = .delay ∧ p.phase = .drain s.now ∧ (s.proceed q ok).exited = s.exited ∧
          (s.proceed q ok).names = s.names ++ [.stopListening]) ∨
        ((∃ swept, q.phase = .drain swept) ∧ p.phase = .close ∧ (s.proceed q ok).exited = s.exited ∧
          (s.proceed q ok).names = s.names ++ [.closeApplication]) ∨
        (q.phase = .close ∧ p.phase = .flush ∧ (s.proceed q ok).exited = s.exited ∧
          (s.proceed q ok).names = s.names ++ [.flushTelemetry]) ∨
        (q.phase = .flush ∧ p.phase = .flush ∧ (s.proceed q ok).exited = some (if p.failed then 1 else 0) ∧
          (s.proceed q ok).names = s.names ++ [.exit (if p.failed then 1 else 0)])) := by
  unfold State.proceed
  cases phase : q.phase with
  | delay => exact ⟨_, rfl, rfl, rfl, .inl ⟨rfl, rfl, rfl, by simp⟩⟩
  | drain swept => exact ⟨_, rfl, rfl, rfl, .inr (.inl ⟨⟨swept, rfl⟩, rfl, rfl, by simp⟩)⟩
  | close => exact ⟨_, rfl, rfl, rfl, .inr (.inr (.inl ⟨rfl, rfl, rfl, by simp⟩))⟩
  | flush => exact ⟨_, rfl, rfl, rfl, .inr (.inr (.inr ⟨rfl, rfl, rfl, by simp⟩))⟩

theorem done_prefix {phase : Phase} (http : setup.http = true ∨ phase = .close ∨ phase = .flush) :
    done setup phase <+: plan setup := by
  cases phase with
  | delay => simp [done, plan, left, show setup.http = true by simpa using http]
  | drain swept => simp [done, plan, left, show setup.http = true by simpa using http]
  | close => simp [done, plan]
  | flush => exact List.prefix_rfl

theorem done_close (setup : Setup) (http : setup.http = true) (swept : ℕ) :
    done setup (.drain swept) ++ [.closeApplication] = done setup .close := by
  simp [done, left, http]

theorem done_flush (setup : Setup) : done setup .close ++ [.flushTelemetry] = done setup .flush := by simp [done, plan]

theorem traced_proceed {q : Running} {ok : Bool} (traced : Traced setup s es) (alive : s.exited = none) (running : s.running = some q)
    (silent : e ≠ .deadline) (settled : ok = false ↔ e = .settled false) : Traced setup (s.proceed q ok) (es ++ [e]) := by
  obtain ⟨p, now, _, failed, cases⟩ := proceed_cases s q ok
  have before : .deadline ∉ es ∧ s.names = done setup q.phase := by
    rcases traced.reached q running with ⟨_, early, names⟩ | ⟨exited, _⟩ | ⟨_, exited, _⟩
    · exact ⟨early, names⟩
    · rw [alive] at exited
      cases exited
    · rw [alive] at exited
      cases exited
  have early : Event.deadline ∉ es ++ [e] := by
    rw [List.mem_append, List.mem_singleton]
    rintro (earlier | same)
    · exact before.1 earlier
    · exact silent same.symm
  have http := traced.http q running
  refine ⟨?_, ?_, ?_, ?_⟩
  · intro none
    rw [now] at none
    cases none
  · intro p' same
    obtain rfl : p = p' := Option.some.inj (now.symm.trans same)
    have earlier := traced.failed q running
    rw [failed, List.mem_append, List.mem_singleton, ← earlier, Bool.or_eq_true, Bool.not_eq_true', settled, eq_comm (a := e)]
  · intro p' same
    obtain rfl : p = p' := Option.some.inj (now.symm.trans same)
    rcases cases with ⟨phase, _⟩ | ⟨_, phase, _⟩ | ⟨_, phase, _⟩ | ⟨_, phase, _⟩
    · rw [phase] at http
      exact .inl (by simpa using http)
    · exact .inr (.inl phase)
    · exact .inr (.inr phase)
    · exact .inr (.inr phase)
  · intro p' same
    obtain rfl : p = p' := Option.some.inj (now.symm.trans same)
    rcases cases with ⟨phase, next, exited, names⟩ | ⟨⟨swept, phase⟩, next, exited, names⟩ |
      ⟨phase, next, exited, names⟩ | ⟨phase, next, exited, names⟩
    · refine .inl ⟨exited.trans alive, early, ?_⟩
      rw [names, before.2, phase, next]
      rfl
    · refine .inl ⟨exited.trans alive, early, ?_⟩
      rw [phase] at http
      rw [names, before.2, phase, next, done_close setup (by simpa using http)]
    · refine .inl ⟨exited.trans alive, early, ?_⟩
      rw [names, before.2, phase, next, done_flush]
    · refine .inr (.inr ⟨next, exited, early, ?_⟩)
      rw [names, before.2, phase]
      rfl

theorem traced_run (traced : Traced setup s es) (none : s.running = none) (asked : e = .signal ∨ e = .shutdown) :
    Traced setup (s.run setup) (es ++ [e]) := by
  obtain ⟨names, alive, early, unsettled⟩ := traced.fresh none
  have early : Event.deadline ∉ es ++ [e] := by
    rcases asked with rfl | rfl <;> simpa using early
  have unsettled : Event.settled false ∉ es ++ [e] := by
    rcases asked with rfl | rfl <;> simpa using unsettled false
  unfold State.run
  split
  · rename_i http
    refine ⟨nofun, ?_, ?_, ?_⟩
    · rintro q ⟨⟩
      simpa using unsettled
    · rintro q ⟨⟩
      exact .inl http
    · rintro q ⟨⟩
      refine .inl ⟨?_, early, ?_⟩
      · split <;> exact alive
      · simp only [names_await, done, begun]
        split
        · rw [names_emit, names]
          rfl
        · exact names
  · rename_i worker
    refine ⟨(fun none => by cases none), ?_, ?_, ?_⟩
    · rintro q ⟨⟩
      simpa using unsettled
    · rintro q ⟨⟩
      exact .inr (.inl rfl)
    · rintro q ⟨⟩
      refine .inl ⟨alive, early, ?_⟩
      rw [names_await, names_emit, names, done, left, if_neg worker]

theorem traced_step (traced : Traced setup s es) (h : step setup s e = some t) : Traced setup t (es ++ [e]) := by
  obtain ⟨alive, moves⟩ := moves_of_step h
  cases moves with
  | begin none asked => exact traced_run traced none asked
  | slept running phase due => exact traced_proceed traced alive running (by simp) (by simp)
  | settled running settles => exact traced_proceed traced alive running (by simp) (by simp)
  | @sweep q swept running phase due =>
    have before := traced.reached q running
    refine ⟨(fun none => by cases none), ?_, ?_, ?_⟩
    · rintro p ⟨⟩
      simpa using traced.failed q running
    · rintro p ⟨⟩
      have http := traced.http q running
      rw [phase] at http
      exact .inl (by simpa using http)
    · rintro p ⟨⟩
      rw [phase] at before
      have same : ((s.sweep setup).await q (.drain s.now)).exited = s.exited ∧
        ((s.sweep setup).await q (.drain s.now)).names = s.names := by
        unfold State.sweep
        split <;> exact ⟨rfl, rfl⟩
      rw [same.1, same.2]
      simpa [done] using before
  | @deadline q running due =>
    have before := traced.reached q running
    refine ⟨?_, ?_, traced.http, ?_⟩
    · intro none
      exact absurd (none.symm.trans running) nofun
    · intro p same
      simpa using traced.failed p same
    · intro p same
      obtain rfl : q = p := Option.some.inj (running.symm.trans same)
      refine .inr (.inl ⟨rfl, by simp, ?_⟩)
      rcases before with ⟨_, _, names⟩ | ⟨exited, _⟩ | ⟨_, exited, _⟩
      · rw [names_exit, names]
      · exact absurd (alive.symm.trans exited) nofun
      · exact absurd (alive.symm.trans exited) nofun
  | traffic traffic =>
    obtain ⟨quiet, settles⟩ := traffic.silent
    have other : ∀ ok, Event.settled ok ∈ es ++ [e] ↔ Event.settled ok ∈ es := by
      intro ok
      simpa using fun same => (settles ok same.symm).elim
    have early : Event.deadline ∈ es ++ [e] ↔ Event.deadline ∈ es := by
      simpa using fun same => (quiet same.symm).elim
    rw [traffic.rest]
    refine ⟨?_, ?_, traced.http, ?_⟩
    · intro none
      obtain ⟨names, alive, before, unsettled⟩ := traced.fresh none
      exact ⟨names, alive, by rwa [early], fun ok => by rw [other]; exact unsettled ok⟩
    · intro q running
      rw [other]
      exact traced.failed q running
    · intro q running
      rw [early]
      exact traced.reached q running

theorem done_closing {phase : Phase} (closing : .closeApplication ∈ done setup phase) : phase = .close ∨ phase = .flush := by
  cases phase with
  | delay => simp [done, begun] at closing
  | drain swept => simp [done, begun] at closing
  | close => exact .inl rfl
  | flush => exact .inr rfl

theorem Traced.closing {q : Running} (traced : Traced setup s es) (running : s.running = some q)
    (closing : .closeApplication ∈ s.names) : q.phase = .close ∨ q.phase = .flush := by
  rcases traced.reached q running with ⟨_, _, names⟩ | ⟨_, _, names⟩ | ⟨phase, _⟩
  · rw [names] at closing
    exact done_closing closing
  · rw [names, List.mem_append, List.mem_singleton] at closing
    exact done_closing (closing.resolve_right nofun)
  · exact .inr phase

theorem traced_initial (run : Run (step setup) (fun _ _ => True) (initial setup) es s) : Traced setup s es :=
  run.history (I := Traced setup) (fun traced _ taken => traced_step traced taken)
    ⟨fun _ => ⟨rfl, rfl, List.not_mem_nil, fun _ => List.not_mem_nil⟩, nofun, nofun, nofun⟩

end Order

/-- Whatever is asked how often and however the steps end, the steps are started once and in their order. The process leaves with 0
only after all of them have succeeded before the deadline, and with 1 only after one has failed or at the deadline. -/
theorem shutdown_order {setup : Setup} {s : State} {es : List Event} (run : Run (step setup) (fun _ _ => True) (initial setup) es s) :
    ∃ before, before <+: plan setup ∧
      ((s.exited = none ∧ s.names = before ∧ Event.deadline ∉ es) ∨
        (s.exited = some 0 ∧ s.names = before ++ [.exit 0] ∧ before = plan setup ∧
          Event.settled false ∉ es ∧ Event.deadline ∉ es) ∨
        (s.exited = some 1 ∧ s.names = before ++ [.exit 1] ∧
          (before = plan setup ∧ Event.settled false ∈ es ∨ Event.deadline ∈ es))) := by
  have traced := traced_initial run
  cases running : s.running with
  | none =>
    obtain ⟨names, alive, early, _⟩ := traced.fresh running
    exact ⟨[], List.nil_prefix, .inl ⟨alive, names, early⟩⟩
  | some q =>
    have reached := done_prefix (traced.http q running)
    have failed := traced.failed q running
    rcases traced.reached q running with ⟨alive, early, names⟩ | ⟨exited, late, names⟩ | ⟨_, exited, early, names⟩
    · exact ⟨_, reached, .inl ⟨alive, names, early⟩⟩
    · exact ⟨_, reached, .inr (.inr ⟨exited, names, .inr late⟩)⟩
    · refine ⟨plan setup, List.prefix_rfl, .inr ?_⟩
      cases clean : q.failed with
      | false =>
        rw [clean] at exited names failed
        exact .inl ⟨exited, names, rfl, fun bad => by simpa using failed.mpr bad, early⟩
      | true =>
        rw [clean] at exited names failed
        exact .inr ⟨exited, names, .inl ⟨rfl, failed.mp rfl⟩⟩

def leaving : List Event := [.accept 7, .request 7, .signal, .slept, .tick, .answer 7 false, .settled true, .settled true, .settled true]

def server : Setup := ⟨0, 25000, true, true, true⟩

def served : State where
  now := 1
  running := some ⟨0, .flush, false⟩
  listening := false
  connections := []
  effects := [(0, .beginShutdown), (0, .stopListening), (1, .closeApplication), (1, .flushTelemetry), (1, .exit 0)]
  exited := some 0

theorem leaving_run : Run (step server) (fun _ _ => True) (initial server) leaving served := Run.of_exec (by decide)

theorem shutdown_order_clean : ∃ before, before <+: plan server ∧
    ((served.exited = none ∧ served.names = before ∧ Event.deadline ∉ leaving) ∨
      (served.exited = some 0 ∧ served.names = before ++ [.exit 0] ∧ before = plan server ∧ Event.settled false ∉ leaving ∧
        Event.deadline ∉ leaving) ∨
      (served.exited = some 1 ∧ served.names = before ++ [.exit 1] ∧
        (before = plan server ∧ Event.settled false ∈ leaving ∨ Event.deadline ∈ leaving))) :=
  shutdown_order leaving_run

/-! ### The requests -/

structure Served (setup : Setup) (s : State) : Prop where
  worker : setup.http = false → s.listening = false ∧ s.connections = []
  listens : setup.http = true → (∀ q, s.running = some q → q.phase = .delay) → s.listening = true
  shut : ∀ q, s.running = some q → q.phase ≠ .delay → s.listening = false ∧
    (setup.http = true → q.startedAt + setup.delayMs ≤ s.now)
  drained : ∀ q, s.running = some q → q.phase = .close ∨ q.phase = .flush → q.failed = false → s.connections = []

section Requests
variable {setup : Setup} {s t : State} {es : List Event} {e : Event}

theorem served_run (served : Served setup s) (none : s.running = none) : Served setup (s.run setup) := by
  unfold State.run
  split
  · rename_i http
    have listening : s.listening = true := served.listens http fun q running => absurd (none.symm.trans running) nofun
    refine ⟨fun worker => absurd (http.symm.trans worker) nofun, ?_, ?_, ?_⟩
    · intro _ _
      split <;> exact listening
    · rintro q ⟨⟩ later
      exact absurd rfl later
    · rintro q ⟨⟩ later
      rcases later with later | later <;> cases later
  · rename_i worker
    obtain ⟨shut, quiet⟩ := served.worker (by simpa using worker)
    refine ⟨fun _ => ⟨shut, quiet⟩, fun http => absurd http worker, ?_, ?_⟩
    · rintro q ⟨⟩ _
      exact ⟨shut, fun http => absurd http worker⟩
    · rintro q ⟨⟩ _ _
      exact quiet

theorem served_proceed {q : Running} {ok : Bool} (served : Served setup s) (traced : Traced setup s es) (running : s.running = some q)
    (due : q.phase = .delay → q.startedAt + setup.delayMs ≤ s.now) (settles : q.phase ≠ .delay → s.settles q.phase ok = true) :
    Served setup (s.proceed q ok) := by
  have http := traced.http q running
  have shut := served.shut q running
  have drained := served.drained q running
  unfold State.proceed
  cases phase : q.phase with
  | delay =>
    rw [phase] at http
    have http : setup.http = true := by simpa using http
    refine ⟨fun worker => absurd (http.symm.trans worker) nofun, fun _ only => absurd (only _ rfl) nofun, ?_, ?_⟩
    · rintro p ⟨⟩ _
      exact ⟨rfl, fun _ => due phase⟩
    · rintro p ⟨⟩ later
      rcases later with later | later <;> cases later
  | drain swept =>
    obtain ⟨closed, late⟩ := shut (by rw [phase]; nofun)
    refine ⟨fun worker => ⟨closed, (served.worker worker).2⟩, fun _ only => absurd (only _ rfl) nofun, ?_, ?_⟩
    · rintro p ⟨⟩ _
      exact ⟨closed, late⟩
    · rintro p ⟨⟩ _ clean
      have settles := settles (by rw [phase]; nofun)
      simp only [Bool.or_eq_false_iff, Bool.not_eq_false'] at clean
      rw [phase, clean.2] at settles
      have none : s.connections = [] := by simpa [State.settles] using settles
      exact none
  | close =>
    obtain ⟨closed, late⟩ := shut (by rw [phase]; nofun)
    refine ⟨fun worker => ⟨closed, (served.worker worker).2⟩, fun _ only => absurd (only _ rfl) nofun, ?_, ?_⟩
    · rintro p ⟨⟩ _
      exact ⟨closed, late⟩
    · rintro p ⟨⟩ _ clean
      simp only [Bool.or_eq_false_iff] at clean
      exact drained (.inl phase) clean.1
  | flush =>
    obtain ⟨closed, late⟩ := shut (by rw [phase]; nofun)
    refine ⟨fun worker => ⟨closed, (served.worker worker).2⟩, fun _ only => absurd (only _ rfl) nofun, ?_, ?_⟩
    · rintro p ⟨⟩ _
      exact ⟨closed, late⟩
    · rintro p ⟨⟩ _ clean
      simp only [Bool.or_eq_false_iff] at clean
      exact drained (.inr phase) clean.1

theorem served_step (served : Served setup s) (traced : Traced setup s es) (h : step setup s e = some t) : Served setup t := by
  obtain ⟨alive, moves⟩ := moves_of_step h
  cases moves with
  | begin none asked => exact served_run served none
  | slept running phase due => exact served_proceed served traced running (fun _ => due) fun other => absurd phase other
  | @settled q ok running settles =>
    refine served_proceed served traced running ?_ fun _ => settles
    intro phase
    rw [phase] at settles
    cases settles
  | @sweep q swept running phase due =>
    obtain ⟨closed, late⟩ := served.shut q running (by rw [phase]; nofun)
    have same : ((s.sweep setup).await q (.drain s.now)).listening = s.listening ∧ (s.sweep setup).now = s.now := by
      unfold State.sweep
      split <;> exact ⟨rfl, rfl⟩
    have http : setup.http = true := by simpa [phase] using traced.http q running
    refine ⟨fun worker => absurd (http.symm.trans worker) nofun, fun _ only => absurd (only _ rfl) nofun, ?_, ?_⟩
    · rintro p ⟨⟩ _
      exact ⟨same.1.trans closed, fun _ => by simpa [State.await, same.2] using late http⟩
    · rintro p ⟨⟩ later
      rcases later with later | later <;> cases later
  | deadline running due => exact ⟨served.worker, served.listens, served.shut, served.drained⟩
  | traffic traffic =>
    obtain ⟨worker, listens, shut, drained⟩ := served
    have now : s.now ≤ t.now := by
      rcases traffic.clock with same | ⟨_, later, _⟩ <;> omega
    have gone := traffic.shut
    rw [traffic.rest]
    refine ⟨fun none => ⟨(worker none).1, gone (worker none).1 (worker none).2⟩, listens, ?_, ?_⟩
    · intro q running later
      exact ⟨(shut q running later).1, fun http => ((shut q running later).2 http).trans now⟩
    · intro q running later clean
      refine gone (shut q running ?_).1 (drained q running later clean)
      rcases later with phase | phase <;> rw [phase] <;> nofun

theorem served_initial (run : Run (step setup) (fun _ _ => True) (initial setup) es s) : Traced setup s es ∧ Served setup s := by
  have both := run.history (I := fun s es => Traced setup s es ∧ Served setup s)
    (fun both _ taken => ⟨traced_step both.1 taken, served_step both.2 both.1 taken⟩)
  refine both ⟨⟨fun _ => ⟨rfl, rfl, List.not_mem_nil, fun _ => List.not_mem_nil⟩,
    (fun _ none => by cases none), (fun _ none => by cases none),
    (fun _ none => by cases none)⟩, ⟨fun worker => ⟨worker, rfl⟩, fun http _ => http,
      (fun _ none => by cases none), (fun _ none => by cases none)⟩⟩

theorem mem_closeIdle {s : State} {id : ℕ} (busy : ⟨id, none⟩ ∈ s.connections) : ⟨id, none⟩ ∈ s.closeIdle.connections :=
  List.mem_filter.mpr ⟨busy, rfl⟩

theorem busy_step {id : ℕ} (h : step setup s e = some t) (busy : ⟨id, none⟩ ∈ s.connections) :
    ⟨id, none⟩ ∈ t.connections ∨ (∃ keepAlive, e = .answer id keepAlive) ∨ e = .hangUp id := by
  have proceeds : ∀ q ok, ⟨id, none⟩ ∈ (s.proceed q ok).connections := by
    intro q ok
    obtain ⟨startedAt, phase, failed⟩ := q
    cases phase with
    | delay => exact mem_closeIdle busy
    | drain swept => exact busy
    | close => exact busy
    | flush => exact busy
  obtain ⟨_, moves⟩ := moves_of_step h
  cases moves with
  | begin none asked =>
    refine .inl ?_
    unfold State.run
    split
    · change _ ∈ (if setup.registry then s.emit .beginShutdown else s).connections
      split <;> exact busy
    · exact busy
  | slept running phase due => exact .inl (proceeds _ _)
  | settled running settles => exact .inl (proceeds _ _)
  | sweep running phase due =>
    refine .inl ?_
    change _ ∈ (s.sweep setup).connections
    unfold State.sweep
    split
    · exact mem_closeIdle busy
    · exact busy
  | deadline running due => exact .inl busy
  | traffic traffic => exact traffic.busy id busy

theorem busy_request {id : ℕ} (h : step setup s (.request id) = some t) : ⟨id, none⟩ ∈ t.connections := by
  unfold step at h
  split at h
  · cases h
  · simp only [live] at h
    split at h
    · rename_i idle
      cases h
      obtain ⟨c, member, same⟩ := List.any_eq_true.mp idle
      simp only [Bool.and_eq_true, decide_eq_true_eq] at same
      exact List.mem_map.mpr ⟨c, member, if_pos same.1⟩
    · cases h

end Requests

/-- Once the application is being closed, every request that came has been answered or given up by its client, unless a step failed. -/
theorem requests_answered {setup : Setup} {s : State} {earlier later : List Event} {id : ℕ}
    (run : Run (step setup) (fun _ _ => True) (initial setup) (earlier ++ .request id :: later) s)
    (closing : .closeApplication ∈ s.names) (clean : Event.settled false ∉ earlier ++ .request id :: later) :
    (∃ keepAlive, Event.answer id keepAlive ∈ later) ∨ Event.hangUp id ∈ later := by
  obtain ⟨traced, served⟩ := served_initial run
  have none : s.connections = [] := by
    cases running : s.running with
    | none =>
      rw [(traced.fresh running).1] at closing
      cases closing
    | some q =>
      have failed := traced.failed q running
      refine served.drained q running (traced.closing running closing) ?_
      rw [Bool.eq_false_iff]
      exact fun bad => clean (failed.mp bad)
  obtain ⟨_, _, rest⟩ := run.split
  cases rest with
  | cons _ taken rest =>
    have still := rest.history
      (I := fun s es => ⟨id, Option.none⟩ ∈ s.connections ∨
        (∃ keepAlive, Event.answer id keepAlive ∈ es) ∨ Event.hangUp id ∈ es)
      (by
        intro s es e t before _ taken
        rcases before with busy | ⟨keepAlive, answered⟩ | gone
        · rcases busy_step taken busy with busy | ⟨keepAlive, rfl⟩ | rfl
          · exact .inl busy
          · exact .inr (.inl ⟨keepAlive, by simp⟩)
          · exact .inr (.inr (by simp))
        · exact .inr (.inl ⟨keepAlive, List.mem_append_left _ answered⟩)
        · exact .inr (.inr (List.mem_append_left _ gone)))
      (.inl (busy_request taken))
    rw [none] at still
    rcases still with busy | ended
    · cases busy
    · exact ended

theorem requests_answered_one : (∃ keepAlive, Event.answer 7 keepAlive ∈ leaving.drop 2) ∨ Event.hangUp 7 ∈ leaving.drop 2 :=
  @requests_answered server served [.accept 7] (leaving.drop 2) 7 leaving_run (by decide) (by decide)

/-! ### The time it takes -/

/-- Time does not pass a timer that is due. -/
def OnTime (setup : Setup) (s : State) (e : Event) : Prop :=
  e = .tick → ∀ q ∈ s.running, s.now < q.startedAt + setup.timeoutMs ∧
    (q.phase = .delay → s.now < q.startedAt + setup.delayMs) ∧
    ∀ swept ≤ s.now, q.phase = .drain swept → s.now < swept + IDLE_SWEEP_MS

instance (setup : Setup) (s : State) (e : Event) : Decidable (OnTime setup s e) := by
  unfold OnTime
  infer_instance

structure Timely (setup : Setup) (s : State) (q : Running) : Prop where
  bounded : s.now ≤ q.startedAt + setup.timeoutMs
  delay : q.phase = .delay → s.now ≤ q.startedAt + setup.delayMs
  swept : ∀ swept, q.phase = .drain swept → swept ≤ s.now ∧ s.now ≤ swept + IDLE_SWEEP_MS
  idle : setup.sweeps = true → ∀ swept, q.phase = .drain swept → ∀ c ∈ s.connections, ∀ u,
    c.idleSince = some u → swept ≤ u

section Time
variable {setup : Setup} {s t : State} {es : List Event} {e : Event}

theorem closeIdle_busy {s : State} {c : Connection} (member : c ∈ s.closeIdle.connections) : c.idleSince = none := by
  simpa using (List.mem_filter.mp member).2

theorem timely_proceed {q p : Running} {ok : Bool} (timely : Timely setup s q) (running : (s.proceed q ok).running = some p) :
    Timely setup (s.proceed q ok) p := by
  have busy : ∀ c ∈ s.closeIdle.connections, c.idleSince = none := fun c => closeIdle_busy
  obtain ⟨bounded, _, _, _⟩ := timely
  obtain ⟨startedAt, phase, failed⟩ := q
  cases phase with
  | delay =>
    cases running
    refine ⟨bounded, nofun, ?_, ?_⟩
    · rintro swept ⟨⟩
      exact ⟨le_rfl, Nat.le_add_right _ _⟩
    · intro _ swept _ c member u idle
      cases (busy c member).symm.trans idle
  | drain swept =>
    cases running
    exact ⟨bounded, nofun, nofun, nofun⟩
  | close =>
    cases running
    exact ⟨bounded, nofun, nofun, nofun⟩
  | flush =>
    cases running
    exact ⟨bounded, nofun, nofun, nofun⟩

theorem timely_step (timely : ∀ q, s.running = some q → Timely setup s q) (onTime : OnTime setup s e) (h : step setup s e = some t) :
    ∀ q, t.running = some q → Timely setup t q := by
  obtain ⟨_, moves⟩ := moves_of_step h
  cases moves with
  | begin none asked =>
    unfold State.run
    split
    · have now : (if setup.registry then s.emit .beginShutdown else s).now = s.now := by split <;> rfl
      rintro q ⟨⟩
      refine ⟨?_, fun _ => ?_, nofun, nofun⟩
      · exact now.le.trans (Nat.le_add_right _ _)
      · exact now.le.trans (Nat.le_add_right _ _)
    · rintro q ⟨⟩
      exact ⟨Nat.le_add_right _ _, nofun, nofun, nofun⟩
  | slept running phase due => exact fun p => timely_proceed (timely _ running)
  | settled running settles => exact fun p => timely_proceed (timely _ running)
  | @sweep q swept running phase due =>
    obtain ⟨bounded, _, _, _⟩ := timely q running
    have now : (s.sweep setup).now = s.now := by
      unfold State.sweep
      split <;> rfl
    rintro p ⟨⟩
    refine ⟨now.le.trans bounded, nofun, ?_, ?_⟩
    · rintro swept ⟨⟩
      exact ⟨now.ge, now.le.trans (Nat.le_add_right _ _)⟩
    · intro sweeps _ _ c member u idle
      change c ∈ (s.sweep setup).connections at member
      rw [State.sweep, if_pos sweeps] at member
      cases (closeIdle_busy member).symm.trans idle
  | deadline running due =>
    intro q running
    exact ⟨(timely q running).bounded, (timely q running).delay, (timely q running).swept, (timely q running).idle⟩
  | traffic traffic =>
    intro q running
    have before : s.running = some q := by
      rw [traffic.rest] at running
      exact running
    obtain ⟨bounded, delay, sweeps, idle⟩ := timely q before
    rcases traffic.clock with same | ⟨rfl, later, same⟩
    · refine ⟨same.le.trans bounded, fun phase => same.le.trans (delay phase), ?_, ?_⟩
      · intro swept phase
        rw [same]
        exact sweeps swept phase
      · intro on swept phase c member u since
        rcases traffic.idle c member u since with rfl | earlier
        · exact (sweeps swept phase).1
        · exact idle on swept phase c earlier u since
    · obtain ⟨early, delaying, sweeping⟩ := onTime rfl q before
      refine ⟨?_, ?_, ?_, ?_⟩
      · omega
      · intro phase
        have := delaying phase
        omega
      · intro swept phase
        have past := (sweeps swept phase).1
        have := sweeping swept past phase
        omega
      · rw [same]
        exact idle

theorem late_step (traced : Traced setup s es) (h : step setup s e = some t) (now : e = .deadline) :
    Event.deadline ∉ es ∧ ∃ q, t.running = some q ∧ q.startedAt + setup.timeoutMs ≤ t.now := by
  obtain ⟨alive, moves⟩ := moves_of_step h
  have early : Event.deadline ∉ es := by
    cases running : s.running with
    | none => exact (traced.fresh running).2.2.1
    | some q =>
      rcases traced.reached q running with ⟨_, early, _⟩ | ⟨exited, _⟩ | ⟨_, exited, _⟩
      · exact early
      · exact absurd (alive.symm.trans exited) nofun
      · exact absurd (alive.symm.trans exited) nofun
  cases moves with
  | begin none asked =>
    subst now
    rcases asked with asked | asked <;> cases asked
  | slept running phase due => cases now
  | settled running settles => cases now
  | sweep running phase due => cases now
  | deadline running due => exact ⟨early, _, running, due⟩
  | traffic traffic => exact (traffic.silent.1 now).elim

theorem done_shut {phase : Phase} (http : setup.http = true) (later : phase ≠ .delay) : .stopListening ∈ done setup phase := by
  cases phase with
  | delay => exact absurd rfl later
  | drain swept => simp [done]
  | close => simp [done, left, http]
  | flush => simp [done, plan, left, http]

/-- What holds of the states of a run on time. -/
structure Punctual (setup : Setup) (s : State) (es : List Event) : Prop where
  traced : Traced setup s es
  served : Served setup s
  timely : ∀ q, s.running = some q → Timely setup s q
  late : Event.deadline ∈ es → ∃ q, s.running = some q ∧ q.startedAt + setup.timeoutMs ≤ s.now

theorem punctual_step (before : Punctual setup s es) (onTime : OnTime setup s e) (h : step setup s e = some t) :
    Punctual setup t (es ++ [e]) := by
  obtain ⟨traced, served, timely, late⟩ := before
  refine ⟨traced_step traced h, served_step served traced h, timely_step timely onTime h, ?_⟩
  intro late'
  rcases List.mem_append.mp late' with earlier | now
  · obtain ⟨q, running, _⟩ := late earlier
    rcases traced.reached q running with ⟨_, early, _⟩ | ⟨exited, _⟩ | ⟨_, _, early, _⟩
    · exact absurd earlier early
    · exact absurd ((moves_of_step h).1.symm.trans exited) nofun
    · exact absurd earlier early
  · exact (late_step traced h (List.mem_singleton.mp now).symm).2

theorem punctual_initial (run : Run (step setup) (OnTime setup) (initial setup) es s) : Punctual setup s es := by
  refine run.history (I := Punctual setup) (fun before onTime taken => punctual_step before onTime taken) ?_
  have start := served_initial (.nil (initial setup))
  exact ⟨start.1, start.2, (fun _ none => by cases none), fun none => by cases none⟩

end Time

/-- The process that runs what was accepted. -/
def setupOf (shutdown : Shutdown.GracefulShutdown) (http registry sweeps : Bool) : Setup :=
  ⟨shutdown.endpointDelayMs, shutdown.timeoutMs, http, registry, sweeps⟩

end ShutdownSequence
