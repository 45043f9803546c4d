import AppPlatform.Cache.LockOwnership
import AppPlatform.Runtime.ExclusiveJob

/-!
# Jobs that run alone across processes

A job that runs under its lock holds the key of its name, for as long as it does not outrun the lock; and a key has one holder.
-/

namespace ExclusiveJob
open Js KeyValue Runs
variable {ι π ε : Type*}

/-- The lock was granted to the run, and its job is running or about to. -/
def Owns (s : State ι π ε) (i : ι) : Prop :=
  s.cache.phase (.take i) = .granted ∧ (s.phase i = .taking ∨ s.phase i = .running true)

/-- Every run finds the cache available, tokens are not drawn twice, and no job outruns its lock. -/
def Leased (c : Config ι π) (s : State ι π ε) : Event ι ε → Prop
  | .tryLock i token connected => Locks.Distinct s.cache (.tryLock (.take i) (c.key i) (c.lockTtlMs i) token connected)
  | .unavailable _ _ => False
  | .advance ms => ∀ i, Owns s i → Locks.Holds { s.cache with store := s.cache.store.advance ms } (.take i) (c.key i)
  | _ => True

structure Wired (c : Config ι π) (s : State ι π ε) : Prop where
  safe : Locks.Safe s.cache
  setting : ∀ i key token ttlMs, s.cache.phase (.take i) = .setting key token ttlMs → key = c.key i
  takes : ∀ i lock, s.cache.phase (.take i) ≠ .releasing lock
  frees : ∀ i lock, s.cache.phase (.free i) = .releasing lock → lock = .take i ∧ ∃ result, s.phase i = .releasing result
  locked : ∀ i, s.phase i ≠ .running false
  granted : ∀ i, s.phase i = .running true → s.cache.phase (.take i) = .granted
  holds : ∀ i, Owns s i → Locks.Holds s.cache (.take i) (c.key i)

theorem exclusive {c : Config ι π} {s : State ι π ε} (wired : Wired c s) {i j : ι} (name : c.name i = c.name j)
    (first : (s.phase i).runs = true) (second : (s.phase j).runs = true) : i = j := by
  have holder : ∀ i, (s.phase i).runs = true → Locks.Holds s.cache (.take i) (c.key i) := by
    intro i runs
    cases phase : s.phase i with
    | running locked =>
      cases locked with
      | false => exact (wired.locked i phase).elim
      | true => exact wired.holds i ⟨wired.granted i phase, .inr phase⟩
    | _ =>
      rw [phase] at runs
      cases runs
  have key : c.key i = c.key j := congrArg (text "cron:" ++ ·) name
  exact Command.take.inj (wired.safe.exclusive (holder i first) (key ▸ holder j second))

theorem holds_same {κ : Type*} {s t : Locks.State κ} {d : κ} {key : Text} (holds : Locks.Holds s d key) (store : t.store = s.store)
    (drawn : t.drawn d = s.drawn d) : Locks.Holds t d key := by
  obtain ⟨token, drew, stored⟩ := holds
  exact ⟨token, drawn.trans drew, store ▸ stored⟩

theorem command_granted {κ : Type*} [DecidableEq κ] {s t : Locks.State κ} {d : κ} {call : Call} (safe : Locks.Safe s)
    (taken : Locks.step s (.run d call) = some t) (granted : t.phase d = .granted) :
    ∃ key token ttlMs, s.phase d = .setting key token ttlMs ∧ Locks.Holds t d key := by
  have ungranted : ∀ (u : Locks.State κ) {p : Locks.Phase κ}, p.Ended → (u.toPhase d p).phase d ≠ .granted := by
    intro u p ended same
    rw [Calls.move_self] at same
    subst same
    exact ended
  cases Locks.step_acted taken with
  | unsent _ _ _ _ notRun => exact (notRun d call rfl).elim
  | grant _ key token ttlMs setting absent =>
    refine ⟨key, token, ttlMs, setting, token, (safe.setting d key token ttlMs setting).1, ?_⟩
    exact Store.get_set_same _ _ _ (safe.setting d key token ttlMs setting).2
  | lose => exact (ungranted s (p := .threw) trivial granted).elim
  | grantUnheard => exact (ungranted _ (p := .threw) trivial granted).elim
  | refuse c key token ttlMs call p setting ended => exact (ungranted _ ended granted).elim
  | free c lock held call p releasing found ended => exact (ungranted _ ended granted).elim
  | prolong c lock ms held call p extending found ended => exact (ungranted _ ended granted).elim

theorem command_releasing {κ : Type*} [DecidableEq κ] {s t : Locks.State κ} {d : κ} {call : Call}
    (taken : Locks.step s (.run d call) = some t) (lock : κ) : t.phase d ≠ .releasing lock := by
  obtain ⟨_, p, unsent, _, phase⟩ := Locks.run_phase taken
  intro releasing
  rw [phase, Calls.move_self] at releasing
  subst releasing
  cases unsent

theorem tryLock_called {κ : Type*} [DecidableEq κ] {s t : Locks.State κ} {d : κ} {key token : Text} {ttlMs : ℚ} {connected : Bool}
    (taken : Locks.step s (.tryLock d key ttlMs token connected) = some t) :
    t.store = s.store ∧ (∀ d', d' ≠ d → t.drawn d' = s.drawn d') ∧ t.phase d ≠ .granted ∧
      ∀ lock, t.phase d ≠ .releasing lock := by
  cases Locks.step_acted taken with
  | unsent _ _ p caller _ ended =>
    obtain rfl := Option.some.inj caller
    refine ⟨rfl, fun _ _ => rfl, ?_, ?_⟩
    · rw [Calls.move_self]
      rintro rfl
      exact ended
    · intro lock
      rw [Calls.move_self]
      rintro rfl
      exact ended
  | draw =>
    refine ⟨rfl, fun d' differs => Function.update_of_ne differs .., ?_, ?_⟩
    · rw [Calls.move_self]
      nofun
    · intro lock
      rw [Calls.move_self]
      nofun

theorem release_called {κ : Type*} [DecidableEq κ] {s t : Locks.State κ} {d lock : κ} {connected : Bool}
    (taken : Locks.step s (.release d lock connected) = some t) : t.store = s.store ∧ t.drawn = s.drawn := by
  cases Locks.step_acted taken with
  | unsent _ _ p caller _ ended => exact ⟨rfl, rfl⟩
  | release => exact ⟨rfl, rfl⟩

/-! ### Steps -/

variable [DecidableEq ι]

/-- A step that leaves the cache alone and gives no run the lock. -/
theorem wired_become {c : Config ι π} {s : State ι π ε} (wired : Wired c s) {i : ι} {p : Phase ε}
    (quiet : ∀ result, s.phase i ≠ .releasing result ∨ ∀ lock, s.cache.phase (.free i) ≠ .releasing lock)
    (unlocked : p ≠ .running false) (granted : p = .running true → s.phase i = .taking ∧ s.cache.phase (.take i) = .granted)
    (taking : p ≠ .taking) : Wired c (s.become i p) := by
  have owns : ∀ j, Owns (s.become i p) j → Owns s j := by
    rintro j ⟨lock, phase⟩
    refine ⟨lock, ?_⟩
    by_cases here : j = i
    · subst here
      rw [become_phase, Function.update_self] at phase
      rcases phase with phase | phase
      · exact (taking phase).elim
      · exact .inl (granted phase).1
    · rwa [become_phase, Function.update_of_ne here] at phase
  refine ⟨wired.safe, wired.setting, wired.takes, ?_, ?_, ?_, fun j owned => wired.holds j (owns j owned)⟩
  · intro j lock releasing
    obtain ⟨same, result, phase⟩ := wired.frees j lock releasing
    refine ⟨same, result, ?_⟩
    by_cases here : j = i
    · subst here
      rcases quiet result with other | still
      · exact (other phase).elim
      · exact (still lock releasing).elim
    · rw [become_phase, Function.update_of_ne here, phase]
  · intro j
    by_cases here : j = i
    · subst here
      rw [become_phase, Function.update_self]
      exact unlocked
    · rw [become_phase, Function.update_of_ne here]
      exact wired.locked j
  · intro j running
    by_cases here : j = i
    · subst here
      rw [become_phase, Function.update_self] at running
      exact (granted running).2
    · rw [become_phase, Function.update_of_ne here] at running
      exact wired.granted j running

theorem wired_tryLock {c : Config ι π} {s : State ι π ε} (wired : Wired c s) {i : ι} {token : Text} {connected : Bool}
    (started : s.phase i = .started)
    (distinct : Locks.Distinct s.cache (.tryLock (.take i) (c.key i) (c.lockTtlMs i) token connected)) {cache : Locks.State (Command ι)}
    (called : Locks.step s.cache (.tryLock (.take i) (c.key i) (c.lockTtlMs i) token connected) = some cache) :
    Wired c ((s.withCache cache).become i .taking) := by
  obtain ⟨store, drawn, ungranted, unreleased⟩ := tryLock_called called
  have other : ∀ {d : Command ι}, d ≠ .take i → cache.phase d = s.cache.phase d := by
    intro d differs
    exact Locks.step_others called fun same => differs (Option.some.inj same).symm
  refine ⟨Locks.step_safe wired.safe distinct called, ?_, ?_, ?_, ?_, ?_, ?_⟩
  · intro j key token' ttlMs setting
    by_cases here : j = i
    · subst here
      exact Locks.tryLock_setting called setting
    · exact wired.setting j key token' ttlMs ((other fun same => here (Command.take.inj same)).symm.trans setting)
  · intro j lock
    by_cases here : j = i
    · subst here
      exact unreleased lock
    · rw [become_cache, withCache_cache, other fun same => here (Command.take.inj same)]
      exact wired.takes j lock
  · intro j lock releasing
    rw [become_cache, withCache_cache, other (d := .free j) nofun] at releasing
    obtain ⟨same, result, phase⟩ := wired.frees j lock releasing
    refine ⟨same, result, ?_⟩
    have differs : j ≠ i := by
      rintro rfl
      rw [started] at phase
      cases phase
    rw [become_phase, Function.update_of_ne differs]
    exact phase
  · intro j
    by_cases here : j = i
    · subst here
      rw [become_phase, Function.update_self]
      nofun
    · rw [become_phase, Function.update_of_ne here]
      exact wired.locked j
  · intro j running
    by_cases here : j = i
    · subst here
      rw [become_phase, Function.update_self] at running
      cases running
    · rw [become_phase, Function.update_of_ne here] at running
      exact (other fun same => here (Command.take.inj same)).trans (wired.granted j running)
  · rintro j ⟨lock, phase⟩
    have differs : j ≠ i := by
      rintro rfl
      exact ungranted lock
    have elsewhere : Command.take j ≠ .take i := fun same => differs (Command.take.inj same)
    rw [become_phase, Function.update_of_ne differs] at phase
    exact holds_same (wired.holds j ⟨(other elsewhere).symm.trans lock, phase⟩) store (drawn _ elsewhere)

theorem wired_command {c : Config ι π} {s : State ι π ε} (wired : Wired c s) {d : Command ι} {call : Call}
    {cache : Locks.State (Command ι)} (taken : Locks.step s.cache (.run d call) = some cache) : Wired c (s.withCache cache) := by
  obtain ⟨sent, p, unsent, busy, phase⟩ := Locks.run_phase taken
  have self : cache.phase d = p := by rw [phase, Calls.move_self]
  have other : ∀ {d' : Command ι}, d' ≠ d → cache.phase d' = s.cache.phase d' := by
    intro d' differs
    exact Locks.step_others taken fun same => differs (Option.some.inj same).symm
  refine ⟨Locks.step_safe (e := .run d call) wired.safe trivial taken, ?_, ?_, ?_, wired.locked, ?_, ?_⟩
  · intro i key token ttlMs setting
    by_cases here : Command.take i = d
    · subst here
      obtain rfl := self.symm.trans setting
      cases unsent
    · exact wired.setting i key token ttlMs ((other here).symm.trans setting)
  · intro i lock
    by_cases here : Command.take i = d
    · subst here
      exact command_releasing taken lock
    · rw [withCache_cache, other here]
      exact wired.takes i lock
  · intro i lock releasing
    by_cases here : Command.free i = d
    · subst here
      exact (command_releasing taken lock releasing).elim
    · rw [withCache_cache, other here] at releasing
      exact wired.frees i lock releasing
  · intro i running
    have granted := wired.granted i running
    have differs : Command.take i ≠ d := by
      rintro rfl
      rw [granted] at sent
      cases sent
    exact (other differs).trans granted
  · rintro i ⟨lock, phase'⟩
    by_cases here : Command.take i = d
    · subst here
      obtain ⟨key, token, ttlMs, setting, holds⟩ := command_granted wired.safe taken lock
      rw [← wired.setting i key token ttlMs setting]
      exact holds
    · have owned : Owns s i := ⟨(other here).symm.trans lock, phase'⟩
      have holds := wired.holds i owned
      refine Locks.run_keeps wired.safe taken holds fun lock' releasing held => ?_
      -- only a run whose job has finished releases its lock, and no other lock holds the key
      cases d with
      | take j => exact wired.takes j lock' releasing
      | free j =>
        obtain ⟨rfl, result, ended⟩ := wired.frees j lock' releasing
        obtain rfl := Command.take.inj (wired.safe.exclusive holds held)
        rcases phase' with phase' | phase'
        · cases ended.symm.trans phase'
        · cases ended.symm.trans phase'

theorem wired_finish {c : Config ι π} {s : State ι π ε} (wired : Wired c s) {i : ι} {result : Except ε Unit} {connected : Bool}
    {cache : Locks.State (Command ι)} (called : Locks.step s.cache (.release (.free i) (.take i) connected) = some cache) :
    Wired c (((s.withCache cache).finish i result).become i (.releasing result)) := by
  obtain ⟨store, drawn⟩ := release_called called
  have other : ∀ {d : Command ι}, d ≠ .free i → cache.phase d = s.cache.phase d := by
    intro d differs
    exact Locks.step_others called fun same => differs (Option.some.inj same).symm
  refine ⟨Locks.step_safe (e := .release (.free i) (.take i) connected) wired.safe trivial called, ?_, ?_, ?_, ?_, ?_, ?_⟩
  · intro j key token ttlMs setting
    exact wired.setting j key token ttlMs ((other (d := .take j) nofun).symm.trans setting)
  · intro j lock
    rw [become_cache, finish_cache, withCache_cache, other (d := .take j) nofun]
    exact wired.takes j lock
  · intro j lock releasing
    by_cases here : j = i
    · subst here
      exact ⟨Locks.release_releasing called releasing, result, by rw [become_phase, Function.update_self]⟩
    · rw [become_cache, finish_cache, withCache_cache, other fun same => here (Command.free.inj same)] at releasing
      rw [become_phase, Function.update_of_ne here]
      exact wired.frees j lock releasing
  · intro j
    by_cases here : j = i
    · subst here
      rw [become_phase, Function.update_self]
      nofun
    · rw [become_phase, Function.update_of_ne here]
      exact wired.locked j
  · intro j running
    by_cases here : j = i
    · subst here
      rw [become_phase, Function.update_self] at running
      cases running
    · rw [become_phase, Function.update_of_ne here] at running
      exact (other (d := .take j) nofun).trans (wired.granted j running)
  · rintro j ⟨lock, phase⟩
    have differs : j ≠ i := by
      rintro rfl
      rw [become_phase, Function.update_self] at phase
      rcases phase with phase | phase <;> cases phase
    rw [become_phase, Function.update_of_ne differs] at phase
    exact holds_same (wired.holds j ⟨(other (d := .take j) nofun).symm.trans lock, phase⟩) store (congrFun drawn _)

variable [DecidableEq π]

omit [DecidableEq ι] in
theorem wired_setRunning {c : Config ι π} {s : State ι π ε} (wired : Wired c s) (p : π) (name : Text) (running : Bool) :
    Wired c (s.setRunning p name running) :=
  ⟨wired.safe, wired.setting, wired.takes, wired.frees, wired.locked, wired.granted, wired.holds⟩

theorem step_wired {c : Config ι π} {s t : State ι π ε} {e : Event ι ε} (wired : Wired c s) (leased : Leased c s e)
    (taken : step c s e = some t) : Wired c t := by
  have quiet : ∀ {p : Phase ε} {i : ι}, s.phase i = p → (∀ result, p ≠ .releasing result) →
      ∀ result, s.phase i ≠ .releasing result ∨ ∀ lock, s.cache.phase (.free i) ≠ .releasing lock := by
    intro p i phase other result
    exact .inl (phase ▸ other result)
  cases e with
  | run i =>
    rw [step] at taken
    split at taken
    · rename_i idle
      split at taken <;> cases taken
      · exact wired_become wired (quiet idle fun _ same => by cases same) (fun same => by cases same)
          (fun same => by cases same) (fun same => by cases same)
      · exact wired_become (wired_setRunning wired _ _ _) (quiet idle fun _ same => by cases same)
          (fun same => by cases same) (fun same => by cases same) (fun same => by cases same)
    · cases taken
  | tryLock i token connected =>
    rw [step] at taken
    split at taken
    · rename_i started
      obtain ⟨cache, called, rfl⟩ := Option.map_eq_some_iff.mp taken
      exact wired_tryLock wired started leased called
    · cases taken
  | unavailable i election => exact leased.elim
  | command d call =>
    rw [step] at taken
    obtain ⟨cache, called, rfl⟩ := Option.map_eq_some_iff.mp taken
    exact wired_command wired called
  | tryLocked i =>
    rw [step] at taken
    split at taken
    · rename_i taking
      obtain ⟨q, ended, rfl⟩ := Option.map_eq_some_iff.mp taken
      refine wired_become wired (quiet taking fun _ same => by cases same) ?_ ?_ ?_
      · rintro rfl
        unfold tryLocked at ended
        split at ended <;> cases ended
      · rintro rfl
        refine ⟨taking, ?_⟩
        unfold tryLocked at ended
        split at ended <;> cases ended
        assumption
      · rintro rfl
        unfold tryLocked at ended
        split at ended <;> cases ended
    · cases taken
  | finish i result connected =>
    rw [step] at taken
    split at taken
    · obtain ⟨cache, called, rfl⟩ := Option.map_eq_some_iff.mp taken
      exact wired_finish wired called
    · rename_i unlocked
      exact (wired.locked i unlocked).elim
    · cases taken
  | released i =>
    rw [step] at taken
    split at taken
    · rename_i answered
      cases taken
      exact wired_become wired (fun _ => .inr fun lock releasing => by cases answered.symm.trans releasing)
        (fun same => by cases same) (fun same => by cases same) (fun same => by cases same)
    · rename_i threw
      cases taken
      exact wired_become wired (fun _ => .inr fun lock releasing => by cases threw.symm.trans releasing)
        (fun same => by cases same) (fun same => by cases same) (fun same => by cases same)
    · cases taken
  | leave i =>
    rw [step] at taken
    split at taken
    · rename_i outcome settled
      cases taken
      exact wired_become (wired_setRunning wired _ _ _) (quiet settled fun _ same => by cases same)
        (fun same => by cases same) (fun same => by cases same) (fun same => by cases same)
    · cases taken
  | advance ms =>
    rw [step] at taken
    obtain ⟨cache, called, rfl⟩ := Option.map_eq_some_iff.mp taken
    have safe := Locks.step_safe (e := .advance ms) wired.safe trivial called
    obtain rfl := Option.some.inj called
    exact ⟨safe, wired.setting, wired.takes, wired.frees, wired.locked, wired.granted, leased⟩

/-! ### Whole runs -/

structure Start (s : State ι π ε) : Prop where
  cache : Locks.Start s.cache
  idle : ∀ i, s.phase i = .idle
  unnamed : ∀ p name, s.running p name = false
  unfinished : ∀ i, s.finished i = none

omit [DecidableEq ι] [DecidableEq π] in
theorem start_named {c : Config ι π} {s : State ι π ε} (start : Start s) : Named c s where
  alone i j _ _ active := by
    rw [start.idle i] at active
    cases active
  listed p name := by
    refine iff_of_false (by rw [start.unnamed]; exact Bool.false_ne_true) ?_
    rintro ⟨i, _, _, active⟩
    rw [start.idle i] at active
    cases active

omit [DecidableEq ι] [DecidableEq π] in
theorem start_kept {s : State ι π ε} (start : Start s) : Kept s := by
  intro i
  rw [start.unfinished i, start.idle i]
  rfl

omit [DecidableEq ι] [DecidableEq π] in
theorem start_wired {c : Config ι π} {s : State ι π ε} (start : Start s) : Wired c s where
  safe := Locks.start_safe start.cache
  setting i _ _ _ setting := by cases (start.cache.idle (.take i)).symm.trans setting
  takes i _ releasing := by cases (start.cache.idle (.take i)).symm.trans releasing
  frees i _ releasing := by cases (start.cache.idle (.free i)).symm.trans releasing
  locked i running := by cases (start.idle i).symm.trans running
  granted i running := by cases (start.idle i).symm.trans running
  holds i owned := by cases (start.cache.idle (.take i)).symm.trans owned.1

omit [DecidableEq ι] [DecidableEq π] in
theorem runs_active {p : Phase ε} (runs : p.runs = true) : p.active = true := by
  cases p with
  | running => rfl
  | _ => cases runs

theorem ended_unnamed {c : Config ι π} {s t : State ι π ε} {e : Event ι ε} {i : ι} (taken : step c s e = some t)
    (active : (s.phase i).active = true) (ended : (t.phase i).active = false) : t.running (c.process i) (c.name i) = false := by
  cases step_acted taken with
  | start j idle free running phase =>
    rw [phase] at ended
    by_cases here : i = j
    · subst here
      rw [Function.update_self] at ended
      cases ended
    · rw [Function.update_of_ne here, active] at ended
      cases ended
  | leave j outcome settled running phase =>
    by_cases here : i = j
    · subst here
      rw [running, setRunning_eq, if_pos ⟨rfl, rfl⟩]
    · rw [phase, Function.update_of_ne here, active] at ended
      cases ended
  | other running same =>
    rw [same, active] at ended
    cases ended

/-- In a process one job of a name runs at a time; the name is out of the set once the run is over, and while none is under way;
across processes too one job of a name runs at a time, as long as none outruns its lock; and a run ends with what its job came to. -/
theorem exclusive_alone {c : Config ι π} {s₀ s : State ι π ε} {events : List (Event ι ε)} (start : Start s₀)
    (run : Run (step c) (fun _ _ => True) s₀ events s) :
    (∀ i j, c.process i = c.process j → c.name i = c.name j → (s.phase i).runs = true → (s.phase j).runs = true → i = j) ∧
    (∀ e t i, step c s e = some t → (s.phase i).active = true → (t.phase i).active = false →
      t.running (c.process i) (c.name i) = false) ∧
    (∀ p name, (∀ i, c.process i = p → c.name i = name → (s.phase i).active = false) → s.running p name = false) ∧
    (Run (step c) (Leased c) s₀ events s →
      ∀ i j, c.name i = c.name j → (s.phase i).runs = true → (s.phase j).runs = true → i = j) ∧
    ∀ i result outcome, s.finished i = some result → s.phase i = .settled outcome ∨ s.phase i = .done outcome →
      outcome = .job result := by
  have named : Named c s := run.invariant (fun named _ taken => step_named named taken) (start_named start)
  have kept : Kept s := run.invariant (fun kept _ taken => step_kept kept taken) (start_kept start)
  refine ⟨?_, ?_, ?_, ?_, ?_⟩
  · intro i j process name first second
    exact named.alone i j process name (runs_active first) (runs_active second)
  · intro e t i taken active ended
    exact ended_unnamed taken active ended
  · intro p name idle
    by_contra listed
    obtain ⟨i, process, same, active⟩ := (named.listed p name).mp (Bool.not_eq_false _ ▸ listed)
    rw [idle i process same] at active
    cases active
  · intro leased i j name first second
    exact exclusive (leased.invariant step_wired (start_wired start)) name first second
  · intro i result outcome finished ended
    have came := (kept i).symm.trans finished
    rcases ended with ended | ended <;> rw [ended] at came <;> cases outcome <;> cases came <;> rfl

omit [DecidableEq ι] [DecidableEq π] in
theorem initial_start (now : ℕ) : Start (initial now : State ι π ε) := by
  refine ⟨⟨fun _ => rfl, fun _ => rfl, fun _ => rfl, fun key => ?_⟩, fun _ => rfl, fun _ _ => rfl, fun _ => rfl⟩
  exact Store.get_empty _ _

def twoProcesses : Config (Fin 2) (Fin 2) where
  process := id
  name _ := text "a"
  lockTtlMs _ := 5

/-- While the job runs in one process, the other process does not run it. -/
theorem exclusive_alone_twice : ∃ s : State (Fin 2) (Fin 2) Unit, (s.phase 0).runs = true ∧ s.phase 1 = .settled .refused ∧
    ∀ j, (s.phase j).runs = true → j = 0 := by
  have run : ∃ s : State (Fin 2) (Fin 2) Unit, Run (step twoProcesses) (Leased twoProcesses) (initial 0)
      [.run 0, .run 1, .tryLock 0 (text "s") true, .tryLock 1 (text "t") true, .command (.take 0) .ok, .command (.take 1) .ok,
        .tryLocked 1, .tryLocked 0] s ∧ (s.phase 0).runs = true ∧ s.phase 1 = .settled .refused := by
    refine ⟨_, .cons trivial rfl (.cons trivial rfl (.cons (fun _ _ => nofun) rfl (.cons ?_ rfl (.cons trivial rfl
      (.cons trivial rfl (.cons trivial rfl (.cons trivial rfl (.nil _)))))))), rfl, rfl⟩
    intro d key drawn
    by_cases here : d = .take 0
    · subst here
      have same := (Prod.mk.inj (Option.some.inj drawn)).2
      exact absurd same (by decide)
    · cases (Function.update_of_ne here ..).symm.trans drawn
  obtain ⟨s, run, runs, refused⟩ := run
  have alone := exclusive_alone (initial_start 0) (run.mono fun _ _ _ => trivial)
  exact ⟨s, runs, refused, fun j other => alone.2.2.2.1 run j 0 rfl other runs⟩

end ExclusiveJob
