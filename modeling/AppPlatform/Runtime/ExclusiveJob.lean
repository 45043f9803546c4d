import AppPlatform.Cache.TryLock

/-!
# Jobs that run alone

`ExclusiveJob.run` in any number of processes that share a cache: a set of names in each process, and a lock of the cache for each run
that finds it available. Runs go on at the same time, and what the cache does with a command is in no order with the rest.
-/

namespace ExclusiveJob
open Js KeyValue Runs
variable {ι π ε : Type*}

/-- The calls of `run`, and the process each is made in. -/
structure Config (ι π : Type*) where
  process : ι → π
  name : ι → Text
  lockTtlMs : ι → ℚ

def Config.key (c : Config ι π) (i : ι) : Text := text "cron:" ++ c.name i

/-- The two calls of the cache that a run makes. -/
inductive Command (ι : Type*) where
  | take (i : ι)
  | free (i : ι)
  deriving DecidableEq

inductive Outcome (ε : Type*) where
  /-- The job was still running in this process. -/
  | skipped
  /-- It was running elsewhere. -/
  | refused
  /-- Taking the lock failed. -/
  | unlocked
  /-- What the job itself came to. -/
  | job (result : Except ε Unit)

inductive Phase (ε : Type*) where
  | idle
  /-- The name is in the set. -/
  | started
  | taking
  | running (locked : Bool)
  | releasing (result : Except ε Unit)
  /-- `runExclusively` has settled. -/
  | settled (outcome : Outcome ε)
  | done (outcome : Outcome ε)

/-- The run has its name in the set of its process. -/
def Phase.active : Phase ε → Bool
  | .idle | .done _ => false
  | _ => true

def Phase.runs : Phase ε → Bool
  | .running _ => true
  | _ => false

structure State (ι π ε : Type*) where
  running : π → Text → Bool
  cache : Locks.State (Command ι)
  phase : ι → Phase ε
  /-- What the jobs that have finished came to. -/
  finished : ι → Option (Except ε Unit)

def initial (now : ℕ) : State ι π ε where
  running _ _ := false
  cache := ⟨⟨fun _ => .idle⟩, .empty now, fun _ => none, fun _ => none⟩
  phase _ := .idle
  finished _ := none

/-- What `runWithoutCache` does, with or without a database to elect in. -/
inductive Election where
  | runs
  | refused
  | failed

inductive Event (ι ε : Type*) where
  | run (i : ι)
  | tryLock (i : ι) (token : Text) (connected : Bool)
  /-- `cache.isAvailable` is false. -/
  | unavailable (i : ι) (election : Election)
  /-- The server runs a command. -/
  | command (c : Command ι) (call : Call)
  | tryLocked (i : ι)
  | finish (i : ι) (result : Except ε Unit) (connected : Bool)
  | released (i : ι)
  | leave (i : ι)
  | advance (ms : ℕ)

section
variable [DecidableEq ι]

def State.become (s : State ι π ε) (i : ι) (p : Phase ε) : State ι π ε := { s with phase := Function.update s.phase i p }

def State.withCache (s : State ι π ε) (cache : Locks.State (Command ι)) : State ι π ε := { s with cache }

def State.finish (s : State ι π ε) (i : ι) (result : Except ε Unit) : State ι π ε :=
  { s with finished := Function.update s.finished i (some result) }

@[simp] theorem become_running (s : State ι π ε) (i : ι) (p : Phase ε) : (s.become i p).running = s.running := rfl

@[simp] theorem become_cache (s : State ι π ε) (i : ι) (p : Phase ε) : (s.become i p).cache = s.cache := rfl

@[simp] theorem become_finished (s : State ι π ε) (i : ι) (p : Phase ε) : (s.become i p).finished = s.finished := rfl

@[simp] theorem become_phase (s : State ι π ε) (i : ι) (p : Phase ε) :
    (s.become i p).phase = Function.update s.phase i p := rfl

omit [DecidableEq ι] in
@[simp] theorem withCache_running (s : State ι π ε) (cache : Locks.State (Command ι)) :
    (s.withCache cache).running = s.running := rfl

omit [DecidableEq ι] in
@[simp] theorem withCache_cache (s : State ι π ε) (cache : Locks.State (Command ι)) : (s.withCache cache).cache = cache := rfl

omit [DecidableEq ι] in
@[simp] theorem withCache_phase (s : State ι π ε) (cache : Locks.State (Command ι)) : (s.withCache cache).phase = s.phase := rfl

omit [DecidableEq ι] in
@[simp] theorem withCache_finished (s : State ι π ε) (cache : Locks.State (Command ι)) :
    (s.withCache cache).finished = s.finished := rfl

@[simp] theorem finish_running (s : State ι π ε) (i : ι) (result : Except ε Unit) : (s.finish i result).running = s.running := rfl

@[simp] theorem finish_cache (s : State ι π ε) (i : ι) (result : Except ε Unit) : (s.finish i result).cache = s.cache := rfl

@[simp] theorem finish_phase (s : State ι π ε) (i : ι) (result : Except ε Unit) : (s.finish i result).phase = s.phase := rfl

@[simp] theorem finish_finished (s : State ι π ε) (i : ι) (result : Except ε Unit) :
    (s.finish i result).finished = Function.update s.finished i (some result) := rfl

variable [DecidableEq π]

def State.setRunning (s : State ι π ε) (p : π) (name : Text) (running : Bool) : State ι π ε :=
  { s with running := Function.update s.running p (Function.update (s.running p) name running) }

def elected : Election → Phase ε
  | .runs => .running false
  | .refused => .settled .refused
  | .failed => .settled .unlocked

/-- The phase after the call of `tryLock` has settled. -/
def tryLocked : Locks.Phase (Command ι) → Option (Phase ε)
  | .granted => some (.running true)
  | .refused => some (.settled .refused)
  | .threw => some (.settled .unlocked)
  | _ => none

def step (c : Config ι π) (s : State ι π ε) : Event ι ε → Option (State ι π ε)
  | .run i =>
    match s.phase i with
    | .idle =>
      if s.running (c.process i) (c.name i) then some (s.become i (.done .skipped))
      else some ((s.setRunning (c.process i) (c.name i) true).become i .started)
    | _ => none
  | .tryLock i token connected =>
    match s.phase i with
    | .started =>
      (Locks.step s.cache (.tryLock (.take i) (c.key i) (c.lockTtlMs i) token connected)).map fun cache =>
        (s.withCache cache).become i .taking
    | _ => none
  | .unavailable i election =>
    match s.phase i with
    | .started => some (s.become i (elected election))
    | _ => none
  | .command command call => (Locks.step s.cache (.run command call)).map s.withCache
  | .tryLocked i =>
    match s.phase i with
    | .taking => (tryLocked (s.cache.phase (.take i))).map (s.become i)
    | _ => none
  | .finish i result connected =>
    match s.phase i with
    | .running true =>
      (Locks.step s.cache (.release (.free i) (.take i) connected)).map fun cache =>
        ((s.withCache cache).finish i result).become i (.releasing result)
    | .running false => some ((s.finish i result).become i (.settled (.job result)))
    | _ => none
  | .released i =>
    match s.phase i, s.cache.phase (.free i) with
    | .releasing result, .answered _ => some (s.become i (.settled (.job result)))
    | .releasing result, .threw => some (s.become i (.settled (.job result)))
    | _, _ => none
  | .leave i =>
    match s.phase i with
    | .settled outcome => some ((s.setRunning (c.process i) (c.name i) false).become i (.done outcome))
    | _ => none
  | .advance ms => (Locks.step s.cache (.advance ms)).map s.withCache

/-! ### Within a process -/

/-- What a step does to the names and the phases. -/
inductive Acted (c : Config ι π) (s t : State ι π ε) : Prop where
  | start (i : ι) (idle : (s.phase i).active = false) (free : s.running (c.process i) (c.name i) = false)
      (running : t.running = (s.setRunning (c.process i) (c.name i) true).running) (phase : t.phase = Function.update s.phase i .started)
  | leave (i : ι) (outcome : Outcome ε) (settled : s.phase i = .settled outcome)
      (running : t.running = (s.setRunning (c.process i) (c.name i) false).running)
      (phase : t.phase = Function.update s.phase i (.done outcome))
  | other (running : t.running = s.running) (active : ∀ i, (t.phase i).active = (s.phase i).active)

omit [DecidableEq π] in
theorem active_become {s : State ι π ε} {i : ι} {p : Phase ε} (same : p.active = (s.phase i).active) :
    ∀ j, ((s.become i p).phase j).active = (s.phase j).active := by
  intro j
  by_cases here : j = i
  · subst here
    rw [become_phase, Function.update_self, same]
  · rw [become_phase, Function.update_of_ne here]

theorem elected_active (election : Election) : (elected election : Phase ε).active = true := by
  cases election <;> rfl

omit [DecidableEq ι] in
theorem tryLocked_active {p : Locks.Phase (Command ι)} {q : Phase ε} (ended : tryLocked p = some q) : q.active = true := by
  cases p <;> cases ended <;> rfl

theorem step_acted {c : Config ι π} {s t : State ι π ε} {e : Event ι ε} (taken : step c s e = some t) : Acted c s t := by
  cases e with
  | run i =>
    rw [step] at taken
    split at taken
    · rename_i idle
      split at taken
      · cases taken
        exact .other rfl (active_become (by rw [idle]; rfl))
      · rename_i free
        cases taken
        exact .start i (by rw [idle]; rfl) (Bool.eq_false_iff.mpr free) rfl rfl
    · cases taken
  | tryLock i token connected =>
    rw [step] at taken
    split at taken
    · rename_i started
      obtain ⟨cache, _, rfl⟩ := Option.map_eq_some_iff.mp taken
      exact .other rfl (active_become (s := s.withCache cache) (by rw [withCache_phase, started]; rfl))
    · cases taken
  | unavailable i election =>
    rw [step] at taken
    split at taken
    · rename_i started
      cases taken
      exact .other rfl (active_become (by rw [started, elected_active]; rfl))
    · cases taken
  | command command call =>
    obtain ⟨cache, _, rfl⟩ := Option.map_eq_some_iff.mp taken
    exact .other rfl fun _ => rfl
  | tryLocked i =>
    rw [step] at taken
    split at taken
    · rename_i taking
      obtain ⟨q, ended, rfl⟩ := Option.map_eq_some_iff.mp taken
      exact .other rfl (active_become (by rw [taking, tryLocked_active ended]; rfl))
    · cases taken
  | finish i result connected =>
    rw [step] at taken
    split at taken
    · rename_i runs
      obtain ⟨cache, _, rfl⟩ := Option.map_eq_some_iff.mp taken
      exact .other rfl (active_become (s := (s.withCache cache).finish i result) (by rw [finish_phase, withCache_phase, runs]; rfl))
    · rename_i runs
      cases taken
      exact .other rfl (active_become (s := s.finish i result) (by rw [finish_phase, runs]; rfl))
    · cases taken
  | released i =>
    rw [step] at taken
    split at taken
    · rename_i releasing _
      cases taken
      exact .other rfl (active_become (by rw [releasing]; rfl))
    · rename_i releasing _
      cases taken
      exact .other rfl (active_become (by rw [releasing]; rfl))
    · cases taken
  | leave i =>
    rw [step] at taken
    split at taken
    · rename_i outcome settled
      cases taken
      exact .leave i outcome settled rfl rfl
    · cases taken
  | advance ms =>
    rw [step] at taken
    obtain ⟨cache, _, rfl⟩ := Option.map_eq_some_iff.mp taken
    exact .other rfl fun _ => rfl

/-- The set of a process has the names of the runs that are under way there, each of one run. -/
structure Named (c : Config ι π) (s : State ι π ε) : Prop where
  alone : ∀ i j, c.process i = c.process j → c.name i = c.name j → (s.phase i).active = true →
    (s.phase j).active = true → i = j
  listed : ∀ p name, s.running p name = true ↔ ∃ i, c.process i = p ∧ c.name i = name ∧ (s.phase i).active = true

omit [DecidableEq ι] in
theorem setRunning_eq (s : State ι π ε) (p q : π) (name name' : Text) (running : Bool) :
    (s.setRunning p name running).running q name' = if q = p ∧ name' = name then running else s.running q name' := by
  unfold State.setRunning
  by_cases process : q = p
  · subst process
    by_cases same : name' = name <;> simp [same]
  · simp [process]

theorem named_start {c : Config ι π} {s t : State ι π ε} (named : Named c s) {i : ι}
    (free : s.running (c.process i) (c.name i) = false) (running : t.running = (s.setRunning (c.process i) (c.name i) true).running)
    (phase : t.phase = Function.update s.phase i .started) : Named c t := by
  have none : ∀ j, c.process j = c.process i → c.name j = c.name i → (s.phase j).active = true → False := by
    intro j process name active
    exact absurd ((named.listed _ _).mpr ⟨j, process, name, active⟩) (Bool.eq_false_iff.mp free)
  have active : ∀ j, (t.phase j).active = true ↔ j = i ∨ (s.phase j).active = true := by
    intro j
    rw [phase]
    by_cases here : j = i
    · subst here
      simp [Phase.active]
    · simp [here]
  constructor
  · intro j k process name first second
    rcases (active j).mp first with rfl | first
    · rcases (active k).mp second with rfl | second
      · rfl
      · exact (none k process.symm name.symm second).elim
    · rcases (active k).mp second with rfl | second
      · exact (none j process name first).elim
      · exact named.alone j k process name first second
  · intro p name
    rw [running, setRunning_eq]
    split
    · rename_i here
      exact iff_of_true rfl ⟨i, here.1.symm, here.2.symm, (active i).mpr (.inl rfl)⟩
    · rename_i elsewhere
      rw [named.listed]
      constructor
      · rintro ⟨j, process, same, under⟩
        exact ⟨j, process, same, (active j).mpr (.inr under)⟩
      · rintro ⟨j, process, same, under⟩
        rcases (active j).mp under with rfl | under
        · exact absurd ⟨process.symm, same.symm⟩ elsewhere
        · exact ⟨j, process, same, under⟩

theorem named_leave {c : Config ι π} {s t : State ι π ε} (named : Named c s) {i : ι} {outcome : Outcome ε}
    (settled : s.phase i = .settled outcome) (running : t.running = (s.setRunning (c.process i) (c.name i) false).running)
    (phase : t.phase = Function.update s.phase i (.done outcome)) : Named c t := by
  have active : ∀ j, (t.phase j).active = true ↔ j ≠ i ∧ (s.phase j).active = true := by
    intro j
    rw [phase]
    by_cases here : j = i
    · subst here
      simp [Phase.active]
    · simp [here]
  constructor
  · intro j k process name first second
    exact named.alone j k process name ((active j).mp first).2 ((active k).mp second).2
  · intro p name
    rw [running, setRunning_eq]
    split
    · rename_i here
      refine iff_of_false Bool.false_ne_true ?_
      rintro ⟨j, process, same, under⟩
      obtain ⟨other, under⟩ := (active j).mp under
      exact other (named.alone j i (process.trans here.1) (same.trans here.2) under (by rw [settled]; rfl))
    · rename_i elsewhere
      rw [named.listed]
      constructor
      · rintro ⟨j, process, same, under⟩
        refine ⟨j, process, same, (active j).mpr ⟨?_, under⟩⟩
        rintro rfl
        exact elsewhere ⟨process.symm, same.symm⟩
      · rintro ⟨j, process, same, under⟩
        exact ⟨j, process, same, ((active j).mp under).2⟩

theorem step_named {c : Config ι π} {s t : State ι π ε} {e : Event ι ε} (named : Named c s) (taken : step c s e = some t) :
    Named c t := by
  cases step_acted taken with
  | start i _ free running phase => exact named_start named free running phase
  | leave i outcome settled running phase => exact named_leave named settled running phase
  | other running active =>
    constructor
    · intro i j process name first second
      exact named.alone i j process name (active i ▸ first) (active j ▸ second)
    · intro p name
      rw [running, named.listed]
      simp only [active]

/-! ### What a job comes to -/

/-- What the job came to, once it has finished. -/
def Phase.result? : Phase ε → Option (Except ε Unit)
  | .releasing result | .settled (.job result) | .done (.job result) => some result
  | _ => none

/-- A run ends with what its job came to. -/
def Kept (s : State ι π ε) : Prop := ∀ i, s.finished i = (s.phase i).result?

omit [DecidableEq π] in
theorem kept_become {s : State ι π ε} (kept : Kept s) {i : ι} {p : Phase ε} (same : p.result? = (s.phase i).result?) :
    Kept (s.become i p) := by
  intro j
  by_cases here : j = i
  · subst here
    rw [become_finished, become_phase, Function.update_self, same]
    exact kept j
  · rw [become_finished, become_phase, Function.update_of_ne here]
    exact kept j

omit [DecidableEq π] in
theorem kept_finish {s : State ι π ε} (kept : Kept s) {i : ι} {result : Except ε Unit} {p : Phase ε}
    (ends : p.result? = some result) :
    Kept ((s.finish i result).become i p) := by
  intro j
  by_cases here : j = i
  · subst here
    rw [become_finished, become_phase, finish_finished, Function.update_self, Function.update_self, ends]
  · rw [become_finished, become_phase, finish_finished, Function.update_of_ne here, Function.update_of_ne here]
    exact kept j

omit [DecidableEq ι] in
theorem tryLocked_result {p : Locks.Phase (Command ι)} {q : Phase ε} (ended : tryLocked p = some q) : q.result? = none := by
  cases p <;> cases ended <;> rfl

theorem step_kept {c : Config ι π} {s t : State ι π ε} {e : Event ι ε} (kept : Kept s)
    (taken : step c s e = some t) : Kept t := by
  cases e with
  | run i =>
    rw [step] at taken
    split at taken
    · rename_i idle
      have none : (s.phase i).result? = none := by rw [idle]; rfl
      split at taken <;> cases taken
      · exact kept_become kept none.symm
      · have started : Kept (s.setRunning (c.process i) (c.name i) true) := kept
        exact kept_become started none.symm
    · cases taken
  | tryLock i token connected =>
    rw [step] at taken
    split at taken
    · rename_i started
      obtain ⟨cache, _, rfl⟩ := Option.map_eq_some_iff.mp taken
      have called : Kept (s.withCache cache) := kept
      exact kept_become called (by rw [withCache_phase, started]; rfl)
    · cases taken
  | unavailable i election =>
    rw [step] at taken
    split at taken
    · rename_i started
      cases taken
      exact kept_become kept (by rw [started]; cases election <;> rfl)
    · cases taken
  | command command call =>
    rw [step] at taken
    obtain ⟨cache, _, rfl⟩ := Option.map_eq_some_iff.mp taken
    exact kept
  | tryLocked i =>
    rw [step] at taken
    split at taken
    · rename_i taking
      obtain ⟨q, ended, rfl⟩ := Option.map_eq_some_iff.mp taken
      exact kept_become kept (by rw [taking, tryLocked_result ended]; rfl)
    · cases taken
  | finish i result connected =>
    rw [step] at taken
    split at taken
    · obtain ⟨cache, _, rfl⟩ := Option.map_eq_some_iff.mp taken
      have called : Kept (s.withCache cache) := kept
      exact kept_finish called rfl
    · cases taken
      exact kept_finish kept rfl
    · cases taken
  | released i =>
    rw [step] at taken
    split at taken
    · rename_i releasing _
      cases taken
      exact kept_become kept (by rw [releasing]; rfl)
    · rename_i releasing _
      cases taken
      exact kept_become kept (by rw [releasing]; rfl)
    · cases taken
  | leave i =>
    rw [step] at taken
    split at taken
    · rename_i outcome settled
      cases taken
      have left : Kept (s.setRunning (c.process i) (c.name i) false) := kept
      exact kept_become left (by
        rw [show (s.setRunning (c.process i) (c.name i) false).phase i = _ from settled]
        cases outcome <;> rfl)
    · cases taken
  | advance ms =>
    rw [step] at taken
    obtain ⟨cache, _, rfl⟩ := Option.map_eq_some_iff.mp taken
    exact kept

end

end ExclusiveJob
