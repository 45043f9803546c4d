import AppPlatform.Cache.TryLock

/-!
# A lock has one owner

Tokens are distinct, so a key names at most one holder; and a holder that has lost its key never gets it back.
-/

namespace Locks
open Js KeyValue
variable {ι : Type*}

theorem positive_of {n : ℚ} {ms : ℕ} (positive : positiveInteger? n = some ms) : 0 < ms := by
  unfold positiveInteger? at positive
  obtain ⟨⟨_, above⟩, same⟩ := Option.ite_none_right_eq_some.mp positive
  obtain rfl := Option.some.inj same
  omega

theorem lockKey_injective {key key' : Text} (same : lockKey key = lockKey key') : key = key' :=
  List.append_cancel_left same

/-- The key holds the token that the call drew for it. -/
def Holds (s : State ι) (c : ι) (key : Text) : Prop :=
  ∃ token, s.drawn c = some (key, token) ∧ s.store.get (lockKey key) = some token

structure Safe (s : State ι) : Prop where
  distinct : ∀ c c' key key' token, s.drawn c = some (key, token) → s.drawn c' = some (key', token) → c = c'
  fresh : ∀ c, s.phase c = .idle → s.drawn c = none
  setting : ∀ c key token ttlMs, s.phase c = .setting key token ttlMs → s.drawn c = some (key, token) ∧ 0 < ttlMs
  extending : ∀ c lock ms, s.phase c = .extending lock ms → 0 < ms
  owned : ∀ c held, s.locks c = some held → s.drawn c = some (held.key, held.token) ∧ ∀ key token ttlMs,
    s.phase c ≠ .setting key token ttlMs
  busy : ∀ c held, s.locks c = some held → s.phase c ≠ .idle
  stored : ∀ key token, s.store.get (lockKey key) = some token → ∃ c, s.drawn c = some (key, token)

theorem Safe.exclusive {s : State ι} (safe : Safe s) {key : Text} {c c' : ι} (holds : Holds s c key) (holds' : Holds s c' key) :
    c = c' := by
  obtain ⟨token, drawn, stored⟩ := holds
  obtain ⟨token', drawn', stored'⟩ := holds'
  obtain rfl := Option.some.inj (stored.symm.trans stored')
  exact safe.distinct c c' key key token drawn drawn'

variable [DecidableEq ι]

/-! ### What a step can do -/

def Event.caller? : Event ι → Option ι
  | .tryLock c .. => some c
  | .release c .. => some c
  | .extend c .. => some c
  | .run c _ => some c
  | .advance _ => none

/-- A call that ended, with no lock to show for it. -/
def Phase.Ended : Phase ι → Prop
  | .refused => True
  | .threw => True
  | .answered _ => True
  | _ => False

omit [DecidableEq ι] in
theorem Phase.Ended.sent {p : Phase ι} (ended : p.Ended) : p.sent = false := by
  cases p with
  | setting key token ttlMs => exact ended.elim
  | releasing lock => exact ended.elim
  | extending lock ms => exact ended.elim
  | _ => rfl

omit [DecidableEq ι] in
theorem Phase.Ended.busy {p : Phase ι} (ended : p.Ended) : p ≠ .idle := by
  rintro rfl
  exact ended

inductive Acted (s : State ι) : Event ι → State ι → Prop where
  /-- The call sends no command. -/
  | unsent (e : Event ι) (c : ι) (p : Phase ι) (caller : e.caller? = some c)
    (notRun : ∀ c call, e ≠ .run c call) (ended : p.Ended) :
      Acted s e (s.toPhase c p)
  | draw (c : ι) (key token : Text) (ttlMs : ℚ) (connected : Bool) (ms : ℕ) (idle : s.phase c = .idle) (positive : 0 < ms) :
      Acted s (.tryLock c key ttlMs token connected)
        ({ s with drawn := Function.update s.drawn c (some (key, token)) }.toPhase c (.setting key token ms))
  | release (c lock : ι) (held : CacheLock) (connected : Bool) (found : s.locks lock = some held) :
      Acted s (.release c lock connected)
        ({ s with locks := Function.update s.locks lock (some { held with released := true }) }.toPhase c (.releasing lock))
  | extend (c lock : ι) (n : ℚ) (connected : Bool) (ms : ℕ) (positive : 0 < ms) :
      Acted s (.extend c lock n connected) (s.toPhase c (.extending lock ms))
  | lose (c : ι) (sent : (s.phase c).sent = true) : Acted s (.run c .lost) (s.toPhase c .threw)
  | grant (c : ι) (key token : Text) (ttlMs : ℕ) (setting : s.phase c = .setting key token ttlMs)
      (absent : s.store.get (lockKey key) = none) :
      Acted s (.run c .ok)
        ({ s with
          store := s.store.set (lockKey key) token (some ttlMs)
          locks := Function.update s.locks c (some ⟨key, token, false⟩) }.toPhase c .granted)
  /-- The key is set, and the reply does not arrive. -/
  | grantUnheard (c : ι) (key token : Text) (ttlMs : ℕ) (setting : s.phase c = .setting key token ttlMs)
      (absent : s.store.get (lockKey key) = none) :
      Acted s (.run c .unanswered) ({ s with store := s.store.set (lockKey key) token (some ttlMs) }.toPhase c .threw)
  | refuse (c : ι) (key token : Text) (ttlMs : ℕ) (call : Call) (p : Phase ι) (setting : s.phase c = .setting key token ttlMs)
      (ended : p.Ended) : Acted s (.run c call) (s.toPhase c p)
  | free (c lock : ι) (held : CacheLock) (call : Call) (p : Phase ι) (releasing : s.phase c = .releasing lock)
      (found : s.locks lock = some held) (ended : p.Ended) :
      Acted s (.run c call) ({ s with store := s.store.delIf (lockKey held.key) held.token }.toPhase c p)
  | prolong (c lock : ι) (ms : ℕ) (held : CacheLock) (call : Call) (p : Phase ι) (extending : s.phase c = .extending lock ms)
      (found : s.locks lock = some held) (ended : p.Ended) :
      Acted s (.run c call) ({ s with store := s.store.expireIf (lockKey held.key) held.token ms }.toPhase c p)
  | advance (ms : ℕ) : Acted s (.advance ms) { s with store := s.store.advance ms }

theorem ran_acted {s t : State ι} {c : ι} {answered : Bool} (taken : ran s c answered = some t) :
    Acted s (.run c (if answered then .ok else .unanswered)) t := by
  unfold ran at taken
  split at taken
  · rename_i key token ttlMs setting
    obtain rfl := Option.some.inj taken
    unfold ranSet
    cases granted : s.store.setIfAbsent (lockKey key) token ttlMs with
    | some store =>
      obtain ⟨absent, rfl⟩ := Store.setIfAbsent_some granted
      cases answered with
      | true => exact .grant c key token ttlMs setting absent
      | false => exact .grantUnheard c key token ttlMs setting absent
    | none =>
      refine .refuse c key token ttlMs _ _ setting ?_
      split <;> trivial
  · rename_i lock releasing
    obtain ⟨held, found, rfl⟩ := Option.map_eq_some_iff.mp taken
    refine .free c lock held _ _ releasing found ?_
    split <;> trivial
  · rename_i lock ms extending
    obtain ⟨held, found, rfl⟩ := Option.map_eq_some_iff.mp taken
    refine .prolong c lock ms held _ _ extending found ?_
    split <;> trivial
  · cases taken

theorem step_acted {s t : State ι} {e : Event ι} (taken : step s e = some t) : Acted s e t := by
  cases e with
  | tryLock c key ttlMs token connected =>
    simp only [step] at taken
    split at taken
    · rename_i idle
      obtain rfl := Option.some.inj taken
      unfold tryLock
      split
      · exact .unsent _ c .threw rfl nofun trivial
      · rename_i ms positive
        split
        · exact .draw c key token ttlMs connected ms idle (positive_of positive)
        · exact .unsent _ c .refused rfl nofun trivial
    · cases taken
  | release c lock connected =>
    simp only [step] at taken
    split at taken
    · rename_i held _ found
      obtain rfl := Option.some.inj taken
      unfold release
      split
      · exact .unsent _ c (.answered false) rfl nofun trivial
      · exact .release c lock held connected found
    · cases taken
  | extend c lock n connected =>
    simp only [step] at taken
    split at taken
    · obtain rfl := Option.some.inj taken
      unfold extend
      split
      · exact .unsent _ c .threw rfl nofun trivial
      · rename_i ms positive
        split
        · exact .unsent _ c (.answered false) rfl nofun trivial
        · exact .extend c lock n connected ms (positive_of positive)
    · cases taken
  | run c call =>
    cases call with
    | lost =>
      simp only [step] at taken
      split at taken
      · rename_i sent
        obtain rfl := Option.some.inj taken
        exact .lose c sent
      · cases taken
    | unanswered => exact ran_acted taken
    | ok => exact ran_acted taken
  | advance ms =>
    obtain rfl := Option.some.inj taken
    exact .advance ms

inductive Did (s t : State ι) (e : Event ι) : Prop where
  | kept : t.store = s.store → Did s t e
  | set {c : ι} {key token : Text} {ttlMs : ℕ} {call : Call} : e = .run c call → s.phase c = .setting key token ttlMs →
      s.store.get (lockKey key) = none → t.store = s.store.set (lockKey key) token (some ttlMs) → Did s t e
  | freed {c lock : ι} {held : CacheLock} {call : Call} : e = .run c call → s.phase c = .releasing lock →
      s.locks lock = some held → t.store = s.store.delIf (lockKey held.key) held.token → Did s t e
  | extended {c lock : ι} {held : CacheLock} {call : Call} {ms : ℕ} : e = .run c call → s.phase c = .extending lock ms →
      s.locks lock = some held → t.store = s.store.expireIf (lockKey held.key) held.token ms → Did s t e
  | advanced {ms : ℕ} : e = .advance ms → t.store = s.store.advance ms → Did s t e

theorem step_did {s t : State ι} {e : Event ι} (taken : step s e = some t) : Did s t e := by
  cases step_acted taken with
  | grant c key token ttlMs setting absent => exact .set rfl setting absent rfl
  | grantUnheard c key token ttlMs setting absent => exact .set rfl setting absent rfl
  | free c lock held call p releasing found => exact .freed rfl releasing found rfl
  | prolong c lock ms held call p extending found => exact .extended rfl extending found rfl
  | advance ms => exact .advanced rfl rfl
  -- a call that is made, refused or lost leaves the store alone
  | _ => exact .kept rfl

omit [DecidableEq ι] in
theorem Did.get {s t : State ι} {e : Event ι} (did : Did s t e) (safe : Safe s) {key token : Text}
    (stored : t.store.get (lockKey key) = some token) : s.store.get (lockKey key) = some token ∨
      ∃ c ttlMs call, e = .run c call ∧ s.phase c = .setting key token ttlMs := by
  cases did with
  | kept same => exact Or.inl (same ▸ stored)
  | @set c key' token' ttlMs call event setting absent same =>
    by_cases here : key = key'
    · subst here
      rw [same, Store.get_set_same _ _ _ (safe.setting c key token' ttlMs setting).2] at stored
      obtain rfl := Option.some.inj stored
      exact Or.inr ⟨c, ttlMs, call, event, setting⟩
    · rw [same, Store.get_set_other _ _ _ fun keys => here (lockKey_injective keys)] at stored
      exact Or.inl stored
  | @freed c lock held call event releasing found same =>
    refine Or.inl ?_
    by_cases here : key = held.key
    · subst here
      rw [same, Store.get_delIf_same] at stored
      split at stored
      · cases stored
      · exact stored
    · rwa [same, Store.get_delIf_other _ _ fun keys => here (lockKey_injective keys)] at stored
  | extended event extending found same =>
    rw [same, Store.get_expireIf _ _ _ _ (safe.extending _ _ _ extending)] at stored
    exact Or.inl stored
  | @advanced ms event same =>
    rw [same] at stored
    rcases s.store.get_advance ms (lockKey key) with kept | gone
    · exact Or.inl (kept.symm.trans stored)
    · cases gone.symm.trans stored

/-! ### Every step keeps the invariant -/

theorem Safe.toPhase {s : State ι} (safe : Safe s) {c : ι} {p : Phase ι} (busy : p ≠ .idle)
    (quiet : ∀ key token ttlMs, p ≠ .setting key token ttlMs) (positive : ∀ lock ms, p = .extending lock ms → 0 < ms) :
    Safe (s.toPhase c p) := by
  refine ⟨safe.distinct, ?_, ?_, ?_, ?_, ?_, safe.stored⟩
  · intro c' idle
    by_cases here : c' = c
    · subst here
      rw [Calls.move_self] at idle
      exact (busy idle).elim
    · rw [Calls.move_other _ p here] at idle
      exact safe.fresh c' idle
  · intro c' key token ttlMs setting
    by_cases here : c' = c
    · subst here
      rw [Calls.move_self] at setting
      exact (quiet _ _ _ setting).elim
    · rw [Calls.move_other _ p here] at setting
      exact safe.setting c' key token ttlMs setting
  · intro c' lock ms extending
    by_cases here : c' = c
    · subst here
      rw [Calls.move_self] at extending
      exact positive lock ms extending
    · rw [Calls.move_other _ p here] at extending
      exact safe.extending c' lock ms extending
  · intro c' held found
    refine ⟨(safe.owned c' held found).1, ?_⟩
    by_cases here : c' = c
    · subst here
      rw [Calls.move_self]
      exact quiet
    · rw [Calls.move_other _ p here]
      exact (safe.owned c' held found).2
  · intro c' held found
    by_cases here : c' = c
    · subst here
      rw [Calls.move_self]
      exact busy
    · rw [Calls.move_other _ p here]
      exact safe.busy c' held found

omit [DecidableEq ι] in
theorem Safe.restore {s : State ι} (safe : Safe s) {store : Store Text Text}
    (stored : ∀ key token, store.get (lockKey key) = some token → ∃ c, s.drawn c = some (key, token)) :
    Safe { s with store := store } :=
  ⟨safe.distinct, safe.fresh, safe.setting, safe.extending, safe.owned, safe.busy, stored⟩

theorem Safe.relock {s : State ι} (safe : Safe s) {c : ι} {held : CacheLock} (drawn : s.drawn c = some (held.key, held.token))
    (quiet : ∀ key token ttlMs, s.phase c ≠ .setting key token ttlMs) (busy : s.phase c ≠ .idle) :
    Safe { s with locks := Function.update s.locks c (some held) } := by
  refine ⟨safe.distinct, safe.fresh, safe.setting, safe.extending, ?_, ?_, safe.stored⟩
  · intro c' held' found
    simp only [Function.update_apply] at found
    split at found
    · rename_i here
      obtain rfl := Option.some.inj found
      subst here
      exact ⟨drawn, quiet⟩
    · exact safe.owned c' held' found
  · intro c' held' found
    simp only [Function.update_apply] at found
    split at found
    · rename_i here
      subst here
      exact busy
    · exact safe.busy c' held' found

theorem Safe.ended {s : State ι} (safe : Safe s) {c : ι} {p : Phase ι} (ended : p.Ended) : Safe (s.toPhase c p) := by
  refine safe.toPhase ended.busy ?_ ?_
  · rintro _ _ _ rfl
    exact ended
  · rintro _ _ rfl
    exact ended.elim

theorem draw_safe {s : State ι} (safe : Safe s) {c : ι} {key token : Text} {ms : ℕ} (idle : s.phase c = .idle)
    (distinct : ∀ c key, s.drawn c ≠ some (key, token)) (positive : 0 < ms) :
    Safe ({ s with drawn := Function.update s.drawn c (some (key, token)) }.toPhase c (.setting key token ms)) := by
  have undrawn := safe.fresh c idle
  have drawn : ∀ c' pair, s.drawn c' = some pair → c' ≠ c := by
    rintro c' pair found rfl
    cases undrawn.symm.trans found
  refine ⟨?_, ?_, ?_, ?_, ?_, ?_, ?_⟩
  · intro c₁ c₂ key₁ key₂ token' found₁ found₂
    simp only [Function.update_apply] at found₁ found₂
    split at found₁
    · rename_i here
      obtain ⟨_, rfl⟩ := Prod.mk.inj (Option.some.inj found₁)
      split at found₂
      · rename_i here'
        exact here.trans here'.symm
      · exact (distinct c₂ key₂ found₂).elim
    · split at found₂
      · obtain ⟨_, rfl⟩ := Prod.mk.inj (Option.some.inj found₂)
        exact (distinct c₁ key₁ found₁).elim
      · exact safe.distinct c₁ c₂ key₁ key₂ token' found₁ found₂
  · intro c' idle'
    by_cases here : c' = c
    · subst here
      rw [Calls.move_self] at idle'
      cases idle'
    · rw [Calls.move_other _ _ here] at idle'
      simp only [Function.update_of_ne here]
      exact safe.fresh c' idle'
  · intro c' key' token' ttl' setting
    by_cases here : c' = c
    · subst here
      rw [Calls.move_self] at setting
      obtain ⟨rfl, rfl, rfl⟩ := Phase.setting.inj setting
      exact ⟨Function.update_self .., positive⟩
    · rw [Calls.move_other _ _ here] at setting
      simp only [Function.update_of_ne here]
      exact safe.setting c' key' token' ttl' setting
  · intro c' lock ms' extending
    by_cases here : c' = c
    · subst here
      rw [Calls.move_self] at extending
      cases extending
    · rw [Calls.move_other _ _ here] at extending
      exact safe.extending c' lock ms' extending
  · intro c' held found
    have here : c' ≠ c := drawn c' _ (safe.owned c' held found).1
    rw [Calls.move_other _ _ here]
    simp only [Function.update_of_ne here]
    exact safe.owned c' held found
  · intro c' held found
    have here : c' ≠ c := drawn c' _ (safe.owned c' held found).1
    rw [Calls.move_other _ _ here]
    exact safe.busy c' held found
  · intro key' token' stored
    obtain ⟨c', found⟩ := safe.stored key' token' stored
    refine ⟨c', ?_⟩
    simp only [Function.update_of_ne (drawn c' _ found)]
    exact found

theorem step_safe {s t : State ι} {e : Event ι} (safe : Safe s) (distinct : Distinct s e) (taken : step s e = some t) : Safe t := by
  have stored : ∀ key token, t.store.get (lockKey key) = some token → ∃ c, s.drawn c = some (key, token) := by
    intro key token present
    rcases (step_did taken).get safe present with old | ⟨c, ttlMs, call, event, setting⟩
    · exact safe.stored key token old
    · exact ⟨c, (safe.setting c key token ttlMs setting).1⟩
  cases step_acted taken with
  | unsent e c p caller notRun ended => exact safe.ended ended
  | draw c key token ttlMs connected ms idle positive => exact draw_safe safe idle distinct positive
  | release c lock held connected found =>
    have owner := (safe.owned lock held found).1
    have marked : Safe { s with locks := Function.update s.locks lock (some { held with released := true }) } :=
      safe.relock owner (safe.owned lock held found).2 (safe.busy lock held found)
    exact marked.toPhase nofun nofun nofun
  | extend c lock n connected ms positive =>
    refine safe.toPhase nofun nofun ?_
    rintro _ _ ⟨⟩
    exact positive
  | lose c => exact safe.ended trivial
  | grant c key token ttlMs setting =>
    have told : Safe ({ s with store := s.store.set (lockKey key) token (some ttlMs) }.toPhase c .granted) :=
      (safe.restore stored).toPhase nofun nofun nofun
    refine told.relock (safe.setting c key token ttlMs setting).1 ?_ ?_
    · rw [Calls.move_self]
      nofun
    · rw [Calls.move_self]
      nofun
  | grantUnheard c key token ttlMs => exact (safe.restore stored).ended trivial
  | refuse c key token ttlMs call p setting ended => exact safe.ended ended
  | free c lock held call p releasing found ended => exact (safe.restore stored).ended ended
  | prolong c lock ms held call p extending found ended => exact (safe.restore stored).ended ended
  | advance ms => exact safe.restore stored

theorem step_drawn {s t : State ι} {e : Event ι} (taken : step s e = some t) (c : ι) : t.drawn c = s.drawn c ∨
    ∃ key ttlMs token connected, e = .tryLock c key ttlMs token connected ∧ t.drawn c = some (key, token) := by
  cases step_acted taken with
  | draw c' key token ttlMs connected ms =>
    by_cases here : c = c'
    · subst here
      exact Or.inr ⟨key, ttlMs, token, connected, rfl, Function.update_self ..⟩
    · exact Or.inl (Function.update_of_ne here ..)
  | _ => exact Or.inl rfl

theorem holds_of_step {s t : State ι} {e : Event ι} {c : ι} {key : Text} (safe : Safe s) (distinct : Distinct s e)
    (taken : step s e = some t) (holds : Holds t c key) :
    Holds s c key ∨ ∃ token ttlMs call, e = .run c call ∧ s.phase c = .setting key token ttlMs := by
  obtain ⟨token, drawn, stored⟩ := holds
  have after := step_safe safe distinct taken
  rcases (step_did taken).get safe stored with old | ⟨c', ttlMs, call, event, setting⟩
  · rcases step_drawn taken c with same | ⟨key', ttlMs, token', connected, event, fresh⟩
    · exact Or.inl ⟨token, same.symm.trans drawn, old⟩
    · subst event
      obtain ⟨rfl, rfl⟩ := Prod.mk.inj (Option.some.inj (fresh.symm.trans drawn))
      obtain ⟨c', found⟩ := safe.stored _ _ old
      exact (distinct c' _ found).elim
  · subst event
    have drew := (safe.setting c' key token ttlMs setting).1
    rcases step_drawn taken c' with same | ⟨_, _, _, _, event, _⟩
    · obtain rfl := after.distinct c c' key key token drawn (same.trans drew)
      exact Or.inr ⟨token, ttlMs, call, rfl, setting⟩
    · cases event

def Uses (s : State ι) (c lock : ι) : Prop := s.phase c = .releasing lock ∨ ∃ ms, s.phase c = .extending lock ms

theorem uses_frame {s t : State ι} {c lock : ι} {call : Call} (safe : Safe s) (uses : Uses s c lock)
    (taken : step s (.run c call) = some t) {key : Text} (other : ¬ Holds s lock key) :
    t.store.live (lockKey key) = s.store.live (lockKey key) := by
  have lapsed : ∀ held, s.locks lock = some held → lockKey key = lockKey held.key →
      s.store.get (lockKey held.key) ≠ some held.token := by
    intro held found keys stored
    obtain rfl := lockKey_injective keys
    exact other ⟨held.token, (safe.owned lock held found).1, stored⟩
  cases step_did taken with
  | kept same => rw [same]
  | set event setting absent same =>
    obtain ⟨rfl, _⟩ := Event.run.inj event
    rcases uses with releasing | ⟨ms, extending⟩
    · cases releasing.symm.trans setting
    · cases extending.symm.trans setting
  | @freed c' lock' held call' event releasing found same =>
    obtain ⟨rfl, _⟩ := Event.run.inj event
    obtain rfl : lock = lock' := by
      rcases uses with here | ⟨ms, extending⟩
      · exact Phase.releasing.inj (here.symm.trans releasing)
      · cases extending.symm.trans releasing
    rw [same]
    by_cases here : lockKey key = lockKey held.key
    · rw [Store.delIf, if_neg (lapsed held found here)]
    · unfold Store.delIf
      split
      · exact Store.live_del_other _ here
      · rfl
  | @extended c' lock' held call' ms event extending found same =>
    obtain ⟨rfl, _⟩ := Event.run.inj event
    obtain rfl : lock = lock' := by
      rcases uses with releasing | ⟨ms', here⟩
      · cases releasing.symm.trans extending
      · exact (Phase.extending.inj (here.symm.trans extending)).1
    rw [same]
    by_cases here : lockKey key = lockKey held.key
    · rw [Store.expireIf, if_neg (lapsed held found here)]
    · unfold Store.expireIf
      split
      · exact Store.live_expire_other _ _ here
      · rfl
  | advanced event same => cases event

/-! ### What a step does to the phases -/

theorem run_phase {s t : State ι} {c : ι} {call : Call} (taken : step s (.run c call) = some t) :
    (s.phase c).sent = true ∧ ∃ p : Phase ι, p.sent = false ∧ p ≠ .idle ∧ t.phase = (s.toPhase c p).phase := by
  cases step_acted taken with
  | unsent _ _ _ _ notRun => exact (notRun c call rfl).elim
  | lose c sent => exact ⟨sent, .threw, rfl, nofun, rfl⟩
  | grant c key token ttlMs setting => exact ⟨by rw [setting]; rfl, .granted, rfl, nofun, rfl⟩
  | grantUnheard c key token ttlMs setting => exact ⟨by rw [setting]; rfl, .threw, rfl, nofun, rfl⟩
  | refuse c key token ttlMs call p setting ended => exact ⟨by rw [setting]; rfl, p, ended.sent, ended.busy, rfl⟩
  | free c lock held call p releasing found ended => exact ⟨by rw [releasing]; rfl, p, ended.sent, ended.busy, rfl⟩
  | prolong c lock ms held call p extending found ended => exact ⟨by rw [extending]; rfl, p, ended.sent, ended.busy, rfl⟩

theorem step_others {s t : State ι} {e : Event ι} {c : ι} (taken : step s e = some t) (other : e.caller? ≠ some c) :
    t.phase c = s.phase c := by
  have differs : ∀ c', e.caller? = some c' → c ≠ c' := by
    rintro c' caller rfl
    exact other caller
  cases step_acted taken with
  | unsent e c' p caller => exact Calls.move_other _ p (differs c' caller)
  | draw c' => exact Calls.move_other _ _ (differs c' rfl)
  | release c' => exact Calls.move_other _ _ (differs c' rfl)
  | extend c' => exact Calls.move_other _ _ (differs c' rfl)
  | lose c' => exact Calls.move_other _ _ (differs c' rfl)
  | grant c' => exact Calls.move_other _ _ (differs c' rfl)
  | grantUnheard c' => exact Calls.move_other _ _ (differs c' rfl)
  | refuse c' => exact Calls.move_other _ _ (differs c' rfl)
  | free c' => exact Calls.move_other _ _ (differs c' rfl)
  | prolong c' => exact Calls.move_other _ _ (differs c' rfl)
  | advance ms => rfl

theorem tryLock_setting {s t : State ι} {c : ι} {key key' token token' : Text} {ttlMs : ℚ} {ttlMs' : ℕ} {connected : Bool}
    (taken : step s (.tryLock c key ttlMs token connected) = some t) (setting : t.phase c = .setting key' token' ttlMs') :
    key' = key := by
  cases step_acted taken with
  | unsent _ c' p caller notRun ended =>
    obtain rfl := Option.some.inj caller
    rw [Calls.move_self] at setting
    rw [setting] at ended
    exact ended.elim
  | draw =>
    rw [Calls.move_self] at setting
    exact (Phase.setting.inj setting).1.symm

theorem release_releasing {s t : State ι} {c lock lock' : ι} {connected : Bool}
    (taken : step s (.release c lock connected) = some t) (releasing : t.phase c = .releasing lock') : lock' = lock := by
  cases step_acted taken with
  | unsent _ c' p caller notRun ended =>
    obtain rfl := Option.some.inj caller
    rw [Calls.move_self] at releasing
    rw [releasing] at ended
    exact ended.elim
  | release =>
    rw [Calls.move_self] at releasing
    exact (Phase.releasing.inj releasing).symm

theorem run_granted {s t : State ι} {c : ι} {key token : Text} {ttlMs : ℕ} {call : Call}
    (setting : s.phase c = .setting key token ttlMs)
    (taken : step s (.run c call) = some t) (granted : t.phase c = .granted) :
    s.store.get (lockKey key) = none ∧ ∃ lock, t.locks c = some lock ∧ lock.key = key := by
  have ungranted : ∀ {p : Phase ι}, p.Ended → p ≠ .granted := by
    rintro p ended rfl
    exact ended
  have phase : ∀ (u : State ι) {p : Phase ι}, (u.toPhase c p).phase c = .granted → p = .granted := fun u p granted =>
    (Calls.move_self _ c p).symm.trans granted
  cases step_acted taken with
  | unsent _ _ _ _ notRun => exact (notRun c call rfl).elim
  | lose => cases phase _ granted
  | grant c key' token' ttlMs' setting' absent =>
    obtain ⟨rfl, _⟩ := Phase.setting.inj (setting'.symm.trans setting)
    exact ⟨absent, _, Function.update_self .., rfl⟩
  | grantUnheard => cases phase _ granted
  | refuse c key token ttlMs call p setting' ended => exact (ungranted ended (phase _ granted)).elim
  | free c lock held call p releasing found ended => exact (ungranted ended (phase _ granted)).elim
  | prolong c lock ms held call p extending found ended => exact (ungranted ended (phase _ granted)).elim

theorem run_keeps {s t : State ι} {c holder : ι} {call : Call} {key : Text} (safe : Safe s)
    (taken : step s (.run c call) = some t) (holds : Holds s holder key)
    (other : ∀ lock, s.phase c = .releasing lock → ¬ Holds s lock key) : Holds t holder key := by
  obtain ⟨token, drawn, stored⟩ := holds
  have drawn' : t.drawn holder = some (key, token) := by
    rcases step_drawn taken holder with same | ⟨_, _, _, _, event, _⟩
    · exact same.trans drawn
    · cases event
  refine ⟨token, drawn', ?_⟩
  cases step_did taken with
  | kept same => rwa [same]
  | @set c' key' token' ttlMs call' event setting absent same =>
    have differs : key ≠ key' := by
      rintro rfl
      cases absent.symm.trans stored
    rwa [same, Store.get_set_other _ _ _ fun keys => differs (lockKey_injective keys)]
  | freed event releasing found same =>
    obtain ⟨rfl, _⟩ := Event.run.inj event
    have frame := uses_frame safe (Or.inl releasing) taken (other _ releasing)
    rw [Store.get, frame]
    exact stored
  | extended event extending found same =>
    rwa [same, Store.get_expireIf _ _ _ _ (safe.extending _ _ _ extending)]
  | advanced event same => cases event

theorem step_locks {s t : State ι} {e : Event ι} {c : ι} {held : CacheLock} (safe : Safe s) (taken : step s e = some t)
    (found : s.locks c = some held) : ∃ held', t.locks c = some held' ∧ held'.key = held.key := by
  cases step_acted taken with
  | release c' lock held' connected found' =>
    by_cases here : c = lock
    · subst here
      obtain rfl := Option.some.inj (found.symm.trans found')
      exact ⟨{ held with released := true }, Function.update_self .., rfl⟩
    · exact ⟨held, (Function.update_of_ne here ..).trans found, rfl⟩
  | grant c' key token ttlMs setting =>
    have other : c ≠ c' := by
      rintro rfl
      exact (safe.owned c held found).2 _ _ _ setting
    exact ⟨held, (Function.update_of_ne other ..).trans found, rfl⟩
  | _ => exact ⟨held, found, rfl⟩

theorem lapsed_stays {u s : State ι} {es : List (Event ι)} {lock : ι} {held : CacheLock} {key : Text} (safe : Safe u)
    (run : Runs.Run step Distinct u es s) (found : u.locks lock = some held) (lost : ¬ Holds u lock key) :
    ¬ Holds s lock key := by
  refine (run.invariant_under (J := Safe) (I := fun s => (∃ held', s.locks lock = some held') ∧ ¬ Holds s lock key)
    step_safe ?_ safe ⟨⟨held, found⟩, lost⟩).2
  rintro s e t safe ⟨⟨held', here⟩, lost⟩ distinct taken
  obtain ⟨held'', later, _⟩ := step_locks safe taken here
  refine ⟨⟨held'', later⟩, fun holds => ?_⟩
  rcases holds_of_step safe distinct taken holds with old | ⟨token, ttlMs, call, _, setting⟩
  · exact lost old
  · exact (safe.owned lock held' here).2 _ _ _ setting

theorem extended_holds {s t : State ι} {c lock : ι} {ms : ℕ} {held : CacheLock} (safe : Safe s)
    (extending : s.phase c = .extending lock ms) (found : s.locks lock = some held) (taken : step s (.run c .ok) = some t)
    (answer : t.phase c = .answered true) : Holds s lock held.key := by
  simp only [step, ran, extending, found, Option.map_some] at taken
  obtain rfl := Option.some.inj taken
  unfold ranExtend at answer
  simp only [Calls.move_self, if_true] at answer
  exact ⟨held.token, (safe.owned lock held found).1, of_decide_eq_true (Phase.answered.inj answer)⟩

/-- No call has begun, and no key is locked. -/
structure Start (s : State ι) : Prop where
  idle : ∀ c, s.phase c = .idle
  locks : ∀ c, s.locks c = none
  drawn : ∀ c, s.drawn c = none
  free : ∀ key, s.store.get (lockKey key) = none

omit [DecidableEq ι] in
theorem start_safe {s : State ι} (start : Start s) : Safe s where
  distinct c c' key key' token found := by cases (start.drawn c).symm.trans found
  fresh c _ := start.drawn c
  setting c key token ttlMs setting := by cases (start.idle c).symm.trans setting
  extending c lock ms extending := by cases (start.idle c).symm.trans extending
  owned c held found := by cases (start.locks c).symm.trans found
  busy c held found := by cases (start.locks c).symm.trans found
  stored key token present := by cases (start.free key).symm.trans present

/-- At every moment a key is held by one call at most; a release or an extension changes a key only when its own lock holds
it, and so never one that another call holds; and when an extension is answered "true", its lock has held the key at every
moment since the call got it. -/
theorem lock_owned {s₀ s : State ι} {es : List (Event ι)} (start : Start s₀) (run : Runs.Run step Distinct s₀ es s) :
    (∀ key c c', Holds s c key → Holds s c' key → c = c') ∧
    (∀ c lock call t key, Uses s c lock → step s (.run c call) = some t →
      t.store.live (lockKey key) ≠ s.store.live (lockKey key) → Holds s lock key) ∧
    (∀ c lock call t key c', Uses s c lock → step s (.run c call) = some t → c' ≠ lock → Holds s c' key →
      t.store.live (lockKey key) = s.store.live (lockKey key)) ∧
    (∀ c lock ms t held, s.phase c = .extending lock ms → s.locks lock = some held → step s (.run c .ok) = some t →
      t.phase c = .answered true → ∀ es₁ es₂ u held', Runs.Run step Distinct s₀ es₁ u →
        Runs.Run step Distinct u es₂ s →
      u.locks lock = some held' → Holds u lock held.key) := by
  have safe := run.invariant step_safe (start_safe start)
  refine ⟨fun key c c' => safe.exclusive, ?_, ?_, ?_⟩
  · intro c lock call t key uses taken changed
    by_contra other
    exact changed (uses_frame safe uses taken other)
  · intro c lock call t key c' uses taken differs holds
    exact uses_frame safe uses taken fun own => differs (safe.exclusive holds own)
  · intro c lock ms t held extending found taken answer es₁ es₂ u held' first second got
    by_contra lost
    have safe' := first.invariant step_safe (start_safe start)
    exact lapsed_stays safe' second got lost (extended_holds safe extending found taken answer)

def noLocks : State ℕ where
  store := .empty 0
  locks _ := none
  phase _ := .idle
  drawn _ := none

/-- A lock that lapsed and was taken over is not freed by its first holder. -/
theorem lock_owned_twice : ∃ s t : State ℕ, step s (.run 2 .ok) = some t ∧ Holds s 1 (text "k") ∧
    t.store.live (lockKey (text "k")) = s.store.live (lockKey (text "k")) := by
  have run : ∃ s t : State ℕ, Runs.Run step Distinct noLocks [.tryLock 0 (text "k") 5 (text "a") true, .run 0 .ok, .advance 5,
      .tryLock 1 (text "k") 5 (text "b") true, .run 1 .ok, .release 2 0 true] s ∧ step s (.run 2 .ok) = some t ∧
      s.phase 2 = .releasing 0 ∧ s.drawn 1 = some (text "k", text "b") ∧ s.store.get (lockKey (text "k")) = some (text "b") := by
    refine ⟨_, _, .cons (fun _ _ => nofun) rfl (.cons trivial rfl (.cons trivial rfl (.cons ?_ rfl (.cons trivial rfl
      (.cons trivial rfl (.nil _)))))), rfl, rfl, rfl, by decide +kernel⟩
    intro c key drawn
    by_cases here : c = 0
    · subst here
      have same := (Prod.mk.inj (Option.some.inj drawn)).2
      exact absurd same (by decide)
    · cases (Function.update_of_ne here ..).symm.trans drawn
  obtain ⟨s, t, run, taken, releasing, drawn, stored⟩ := run
  have holds : Holds s 1 (text "k") := ⟨text "b", drawn, stored⟩
  have owned := lock_owned ⟨fun _ => rfl, fun _ => rfl, fun _ => rfl, fun _ => rfl⟩ run
  exact ⟨s, t, taken, holds, owned.2.2.1 2 0 .ok t (text "k") 1 (Or.inl releasing) taken (by decide) holds⟩

end Locks
