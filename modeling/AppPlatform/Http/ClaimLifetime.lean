import AppPlatform.Http.ReplayStability
import AppPlatform.Lib.Lease

/-!
# The claim outlives the handler

A request renews its claim while somebody listens to its stream. When nobody leaves the stream before
the handler has finished, the claim stands from the moment it was granted until the handler has
failed or its answer is stored.
-/

namespace Idempotency
open Js
open KeyValue (Call Leased Timer)
variable {ι : Type*} [DecidableEq ι]

/-- The interval between two renewals, in milliseconds. -/
def Config.period (c : Config ι) : ℕ := 1000 * max 1 (c.leaseSeconds / 3)

structure Timed (ι : Type*) where
  state : State ι
  claimedAt : ι → ℕ
  timer : ι → Timer

def timed (now : ℕ) : Timed ι := ⟨initial now, fun _ => 0, fun _ => ⟨0, 0⟩⟩

def keepTime (w : Timed ι) (t : State ι) : Event ι → Timed ι
  | .arrive i _ => { w with state := t, claimedAt := Function.update w.claimedAt i t.cache.now }
  | .start i => { w with state := t, timer := Function.update w.timer i ⟨t.cache.now, 0⟩ }
  | .renew i _ => { w with state := t, timer := Function.update w.timer i (w.timer i).fire }
  | _ => { w with state := t }

def timedStep (c : Config ι) (w : Timed ι) (e : Event ι) : Option (Timed ι) :=
  (step c w.state e).map fun t => keepTime w t e

/-- The handler runs, or its 2xx answer is on its way to the cache. -/
def Working : Phase → Prop
  | .running | .storing (.stored _) => True
  | _ => False

/-- Every call of the cache succeeds and the calls of one request reach it in order. The handler
starts, and a renewal takes effect, less than one period late. -/
def OnTime (c : Config ι) (w : Timed ι) : Event ι → Prop
  | .arrive _ call | .store _ call => call = .ok
  | .renew i call => call = .ok ∧ (Working (w.state.phase i) → (w.timer i).due c.period ≤ w.state.cache.now)
  | .release i call => call = .ok ∧ ∀ record, w.state.phase i ≠ .storing (.stored record)
  | .tick ms => ∀ i,
    (w.state.phase i = .claimed → w.state.cache.now + ms < w.claimedAt i + c.period) ∧
    (Working (w.state.phase i) → w.state.cache.now + ms < (w.timer i).due c.period + c.period)
  | _ => True

/-- Nobody leaves the stream of a request whose handler runs. -/
def Attended (w : Timed ι) : Event ι → Prop
  | .unsubscribe i => w.state.phase i ≠ .running
  | _ => True

/-- What a step does to the claim. -/
inductive ClaimMove (c : Config ι) (s t : State ι) : Event ι → Prop where
  | keep (e : Event ι) (same : t.cache.live c.claimKey = s.cache.live c.claimKey) (now : t.cache.now = s.cache.now)
      (unrenewed : ∀ i call, e ≠ .renew i call) (ungranted : ∀ i call, e = .arrive i call → t.phase i ≠ .claimed) :
      ClaimMove c s t e
  | grant (i : ι) (call : Call) (absent : s.record c = none) (free : s.holder c = none)
      (held : Leased t.cache c.claimKey (c.claim i) (s.cache.now + c.lease)) (now : t.cache.now = s.cache.now) :
      ClaimMove c s t (.arrive i call)
  | renew (i : ι) (call : Call)
      (cache : t.cache = call.apply (fun cache => cache.expireIf c.claimKey (c.claim i) c.lease) s.cache) :
      ClaimMove c s t (.renew i call)
  | release (i : ι) (call : Call) (sent : s.release i = .sent)
      (cache : t.cache = call.apply (fun cache => cache.delIf c.claimKey (c.claim i)) s.cache) :
      ClaimMove c s t (.release i call)
  | pass (ms : ℕ) (cache : t.cache = s.cache.advance ms) : ClaimMove c s t (.tick ms)

theorem answerTo_not_claimed (record fingerprint : Text) : answerTo record fingerprint ≠ .claimed := by
  unfold answerTo
  repeat' split
  all_goals simp

theorem arrive_claim (c : Config ι) (s : State ι) (i : ι) : ClaimMove c s (arrive c s i) (.arrive i .ok) := by
  unfold arrive
  split
  · refine .keep _ rfl rfl (by simp) ?_
    rintro j call same
    cases same
    rw [become_same]
    exact answerTo_not_claimed _ _
  split
  · rename_i absent _ cache granted
    obtain ⟨free, rfl⟩ := KeyValue.Store.setIfAbsent_some granted
    exact .grant i .ok absent free (KeyValue.leased_set _ _ _ (lease_positive c)) rfl
  · refine .keep _ rfl rfl (by simp) ?_
    rintro j call same
    cases same
    rw [become_same]
    simp

theorem step_claim {c : Config ι} {w : Timed ι} {t : State ι} {e : Event ι} (allowed : OnTime c w e)
    (taken : step c w.state e = some t) : ClaimMove c w.state t e := by
  have unrelated : ∀ {e : Event ι}, (∀ i call, e ≠ .arrive i call) → ∀ i call, e = .arrive i call →
    t.phase i ≠ .claimed :=
    fun other i call same => (other i call same).elim
  cases step_taken taken with
  | arrive i => exact arrive_claim c w.state i
  | unprotect i call idle failed => exact (failed allowed).elim
  | start | emit | discard | failUnprotected | abandon => exact .keep _ rfl rfl (by simp) (unrelated (by simp))
  | fail i =>
    exact .keep _ (by rw [finalize_cache, become_cache]) (by rw [finalize_cache, become_cache]) (by simp) (unrelated (by simp))
  | keep i call =>
    cases allowed
    refine .keep _ ?_ ?_ (by simp) (unrelated (by simp))
    · rw [finalize_cache, become_cache, write_cache, Call.apply_ok]
      exact KeyValue.Store.live_set_other _ _ _ (claimKey_ne_recordKey c)
    · rw [finalize_cache, become_cache, write_cache, Call.apply_ok, KeyValue.Store.set_now]
  | finish i =>
    exact .keep _ (by rw [finalize_cache, become_cache]) (by rw [finalize_cache, become_cache]) (by simp) (unrelated (by simp))
  | renew i call => exact .renew i call rfl
  | release i call sent => exact .release i call sent rfl
  | leave i => exact .keep _ (by rw [finalize_cache]) (by rw [finalize_cache]) (by simp) (unrelated (by simp))
  | tick ms => exact .pass ms rfl

theorem held_step {c : Config ι} {s t : State ι} {e : Event ι} (move : ClaimMove c s t e) {i : ι} {d : ℕ}
    (held : Leased s.cache c.claimKey (c.claim i) d) (unreleased : ∀ call, e ≠ .release i call)
    (before : ∀ ms, e = .tick ms → s.cache.now + ms < d) :
    (Leased t.cache c.claimKey (c.claim i) d ∧ ∀ call, e = .renew i call → call = .lost) ∨
    ∃ call, e = .renew i call ∧ Leased t.cache c.claimKey (c.claim i) (s.cache.now + c.lease) := by
  have differs : ∀ {j : ι}, j ≠ i → c.claim j ≠ c.claim i := fun other same => other (c.claim_injective same)
  cases move with
  | keep _ same _ unrenewed => exact Or.inl ⟨same.trans held, fun call renewal => (unrenewed i call renewal).elim⟩
  | grant j call absent free =>
    have taken := held.get
    rw [State.holder] at free
    rw [free] at taken
    cases taken
  | renew j call cache =>
    rw [cache]
    by_cases same : j = i
    · subst same
      by_cases lost : call = .lost
      · subst lost
        exact Or.inl ⟨held, by simp⟩
      · right
        rw [Call.apply, if_neg lost]
        exact ⟨call, rfl, held.renew (lease_positive c)⟩
    · have untouched : call.apply (fun cache => cache.expireIf c.claimKey (c.claim j) c.lease) s.cache = s.cache := by
        unfold Call.apply
        split
        · rfl
        · exact held.renew_other (differs same) _
      rw [untouched]
      exact Or.inl ⟨held, by simp [same]⟩
  | release j call sent cache =>
    have other : j ≠ i := by
      rintro rfl
      exact unreleased call rfl
    have untouched : call.apply (fun cache => cache.delIf c.claimKey (c.claim j)) s.cache = s.cache := by
      unfold Call.apply
      split
      · rfl
      · exact held.release_other (differs other)
    rw [cache, untouched]
    exact Or.inl ⟨held, by simp⟩
  | pass ms cache =>
    rw [cache]
    exact Or.inl ⟨held.advance (before ms rfl), by simp⟩

omit [DecidableEq ι] in
theorem claim_now {c : Config ι} {s t : State ι} {e : Event ι} (move : ClaimMove c s t e) :
    t.cache.now = s.cache.now ∨ ∃ ms, e = .tick ms ∧ t.cache.now = s.cache.now + ms := by
  cases move with
  | keep _ _ now => exact Or.inl now
  | grant _ _ _ _ _ now => exact Or.inl now
  | renew i call cache =>
    left
    rw [cache, Call.apply]
    split
    · rfl
    · exact KeyValue.Store.expireIf_now _ _ _ _
  | release i call sent cache =>
    left
    rw [cache, Call.apply]
    split
    · rfl
    · exact KeyValue.Store.delIf_now _ _ _
  | pass ms cache =>
    right
    rw [cache]
    exact ⟨ms, rfl, rfl⟩

/-! ### Time -/

omit [DecidableEq ι] in
theorem three_periods (c : Config ι) : 3 * c.period ≤ c.lease := by
  have := c.lease_range
  unfold Config.period Config.lease
  omega

@[simp] theorem keepTime_state (w : Timed ι) (t : State ι) (e : Event ι) : (keepTime w t e).state = t := by
  cases e <;> rfl

theorem keepTime_claimedAt (w : Timed ι) (t : State ι) {e : Event ι} {i : ι} (other : ∀ call, e ≠ .arrive i call) :
    (keepTime w t e).claimedAt i = w.claimedAt i := by
  cases e with
  | arrive j call =>
    have differs : i ≠ j := by
      rintro rfl
      exact other call rfl
    exact Function.update_of_ne differs _ _
  | _ => rfl

theorem keepTime_timer (w : Timed ι) (t : State ι) {e : Event ι} {i : ι} (unstarted : e ≠ .start i)
    (unrenewed : ∀ call, e ≠ .renew i call) : (keepTime w t e).timer i = w.timer i := by
  cases e with
  | start j =>
    have differs : i ≠ j := by
      rintro rfl
      exact unstarted rfl
    exact Function.update_of_ne differs _ _
  | renew j call =>
    have differs : i ≠ j := by
      rintro rfl
      exact unrenewed call rfl
    exact Function.update_of_ne differs _ _
  | _ => rfl

/-- What holds of one request while it holds the claim. -/
structure Guarded (c : Config ι) (w : Timed ι) (i : ι) : Prop where
  claimed : w.state.phase i = .claimed →
    Leased w.state.cache c.claimKey (c.claim i) (w.claimedAt i + c.lease) ∧ w.state.cache.now < w.claimedAt i + c.period
  working : Working (w.state.phase i) →
    ∃ d, Leased w.state.cache c.claimKey (c.claim i) d ∧ (w.timer i).due c.period + c.period ≤ d
  pending : w.state.phase i = .idle ∨ w.state.phase i = .claimed ∨ w.state.phase i = .running →
    w.state.release i = .pending

/-- A stream ends with the handler, with the store or when it is left. -/
theorem step_release {c : Config ι} {s t : State ι} {e : Event ι} (taken : step c s e = some t) (i : ι) :
    t.release i = s.release i ∨ (∃ o, t.phase i = .finished o) ∨ (∃ call, e = .release i call ∧ s.release i = .sent) ∨
    e = .unsubscribe i ∧ (s.phase i = .running ∨ ∃ o, s.phase i = .storing o) := by
  have final : ∀ {u : State ι} {j : ι}, u.release = s.release → i ≠ j → (u.finalize j).release i = s.release i := by
    intro u j same differs
    unfold State.finalize
    split
    · rw [releasing_other _ _ differs, same]
    · rw [same]
  have ended : ∀ {u : State ι} {j : ι} {o : Outcome}, u.phase j = .finished o → u.release = s.release →
      (u.finalize j).release i = s.release i ∨ ∃ o, (u.finalize j).phase i = .finished o := by
    intro u j o finished same
    by_cases here : i = j
    · subst here
      exact Or.inr ⟨o, by rw [finalize_phase, finished]⟩
    · exact Or.inl (final same here)
  cases step_taken taken with
  | arrive j =>
    left
    unfold arrive
    repeat' split
    all_goals rfl
  | unprotect | start | emit | discard | failUnprotected | renew | abandon | tick => exact Or.inl rfl
  | fail j => exact (ended (become_same _ _ _) rfl).imp_right Or.inl
  | keep j =>
    apply Or.imp_right Or.inl
    exact ended (become_same _ _ _) rfl
  | finish j => exact (ended (become_same _ _ _) rfl).imp_right Or.inl
  | release j call sent =>
    by_cases same : i = j
    · subst same
      exact Or.inr (Or.inr (Or.inl ⟨call, rfl, sent⟩))
    · exact Or.inl (releasing_other _ _ same)
  | leave j busy =>
    by_cases same : i = j
    · subst same
      exact Or.inr (Or.inr (Or.inr ⟨rfl, busy⟩))
    · exact Or.inl (final rfl same)

theorem timedStep_cases {c : Config ι} {w u : Timed ι} {e : Event ι} (taken : timedStep c w e = some u) :
    ∃ t, step c w.state e = some t ∧ u = keepTime w t e := by
  obtain ⟨t, stepped, rfl⟩ := Option.map_eq_some_iff.mp taken
  exact ⟨t, stepped, rfl⟩

theorem renew_allowed {c : Config ι} {s t : State ι} {i : ι} {call : Call} (taken : step c s (.renew i call) = some t)
    (pending : s.release i = .pending) : Working (s.phase i) ∨ ∃ o, s.phase i = .storing o := by
  cases step_taken taken with
  | renew _ _ held =>
    rcases held with sent | ⟨_, running | storing⟩
    · rw [pending] at sent
      cases sent
    · left
      rw [running]
      trivial
    · exact Or.inr storing

theorem step_pending {c : Config ι} {w : Timed ι} {t : State ι} {e : Event ι} {i : ι} (guarded : Guarded c w i)
    (attended : Attended w e) (taken : step c w.state e = some t)
    (early : t.phase i = .idle ∨ t.phase i = .claimed ∨ t.phase i = .running) : t.release i = .pending := by
  have before : w.state.phase i = .idle ∨ w.state.phase i = .claimed ∨ w.state.phase i = .running := by
    rcases step_next taken i with same | next
    · rw [same] at early
      exact early
    · generalize t.phase i = q at next early
      generalize w.state.phase i = p at next
      cases next with
      | claim => exact Or.inl rfl
      | start => exact Or.inr (Or.inl rfl)
      | _ => simp_all
  have pending := guarded.pending before
  rcases step_release taken i with same | ⟨o, finished⟩ | ⟨call, _, sent⟩ | ⟨rfl, running | ⟨o, storing⟩⟩
  · exact same.trans pending
  · rw [finished] at early
    simp at early
  · rw [pending] at sent
    cases sent
  · exact (attended running).elim
  · rw [storing] at before
    simp at before

theorem step_claimed {c : Config ι} {w : Timed ι} {t : State ι} {e : Event ι} {i : ι} (guarded : Guarded c w i)
    (allowed : OnTime c w e) (taken : step c w.state e = some t) (claimed : t.phase i = .claimed) :
    Leased t.cache c.claimKey (c.claim i) ((keepTime w t e).claimedAt i + c.lease) ∧
    t.cache.now < (keepTime w t e).claimedAt i + c.period := by
  have move := step_claim allowed taken
  have positive : 0 < c.period := by
    unfold Config.period
    omega
  rcases step_next taken i with same | next
  · have held := claimed
    rw [same] at held
    obtain ⟨leased, early⟩ := guarded.claimed held
    have pending := guarded.pending (Or.inr (Or.inl held))
    have notArrival : ∀ call, e ≠ .arrive i call := by
      rintro call rfl
      simp only [step, held] at taken
      cases taken
    have notRenewal : ∀ call, e ≠ .renew i call := by
      rintro call rfl
      rcases renew_allowed taken pending with working | ⟨o, storing⟩
      · rw [held] at working
        exact working
      · rw [held] at storing
        cases storing
    have notRelease : ∀ call, e ≠ .release i call := by
      rintro call rfl
      simp only [step, pending] at taken
      cases taken
    rw [keepTime_claimedAt w t notArrival]
    have bound : ∀ ms, e = .tick ms → w.state.cache.now + ms < w.claimedAt i + c.period := by
      rintro ms rfl
      exact (allowed i).1 held
    have three := three_periods c
    constructor
    · rcases held_step move leased notRelease
        (fun ms tick => by have := bound ms tick; omega) with ⟨kept, _⟩ | ⟨call, renewal, _⟩
      · exact kept
      · exact (notRenewal call renewal).elim
    · rcases claim_now move with now | ⟨ms, tick, now⟩
      · omega
      · have := bound ms tick
        omega
  · have arrival : ∃ call, e = .arrive i call := by
      rw [claimed] at next
      generalize w.state.phase i = p at next
      generalize shape : Phase.claimed = q at next
      cases next with
      | answer call record => exact (answerTo_not_claimed _ _ shape.symm).elim
      | claim call => exact ⟨call, rfl⟩
      | _ => cases shape
    obtain ⟨call, rfl⟩ := arrival
    cases move with
    | keep _ _ _ _ ungranted => exact (ungranted i call rfl claimed).elim
    | grant _ _ _ _ held now =>
      have since : (keepTime w t (.arrive i call)).claimedAt i = t.cache.now := Function.update_self _ _ _
      rw [since, now]
      exact ⟨held, by omega⟩

theorem step_working {c : Config ι} {w : Timed ι} {t : State ι} {e : Event ι} {i : ι} (guarded : Guarded c w i)
    (allowed : OnTime c w e) (taken : step c w.state e = some t) (working : Working (t.phase i)) :
    ∃ d, Leased t.cache c.claimKey (c.claim i) d ∧ ((keepTime w t e).timer i).due c.period + c.period ≤ d := by
  have move := step_claim allowed taken
  have three := three_periods c
  by_cases start : e = .start i
  · subst start
    have claimed : w.state.phase i = .claimed := by
      cases step_taken taken with
      | start _ claimed => exact claimed
    obtain ⟨leased, early⟩ := guarded.claimed claimed
    have since : ((keepTime w t (.start i)).timer i).due c.period = t.cache.now + c.period := by
      rw [show (keepTime w t (.start i)).timer i = ⟨t.cache.now, 0⟩ from Function.update_self _ _ _, Timer.start_due]
    rcases claim_now move with now | ⟨ms, tick, _⟩
    · rcases held_step move leased (by simp) (by simp) with ⟨kept, _⟩ | ⟨call, renewal, _⟩
      · exact ⟨_, kept, by rw [since]; omega⟩
      · cases renewal
    · cases tick
  · have before : Working (w.state.phase i) ∧
      (w.state.phase i = .running ∨ ∃ record, w.state.phase i = .storing (.stored record)) := by
      rcases step_next taken i with same | next
      · rw [same] at working
        generalize w.state.phase i = p at working
        cases p with
        | running => exact ⟨trivial, Or.inl rfl⟩
        | storing o =>
          cases o with
          | stored record => exact ⟨trivial, Or.inr ⟨record, rfl⟩⟩
          | _ => exact working.elim
        | _ => exact working.elim
      · generalize t.phase i = q at next working
        generalize w.state.phase i = p at next
        cases next with
        | start => exact (start rfl).elim
        | emit => exact ⟨trivial, Or.inl rfl⟩
        | answer call record =>
          unfold answerTo at working
          repeat' split at working
          all_goals exact working.elim
        | _ => exact working.elim
    obtain ⟨busy, shape⟩ := before
    obtain ⟨d, leased, ahead⟩ := guarded.working busy
    have notRelease : ∀ call, e ≠ .release i call := by
      rintro call rfl
      rcases shape with running | ⟨record, storing⟩
      · simp only [step, guarded.pending (Or.inr (Or.inr running))] at taken
        cases taken
      · exact allowed.2 record storing
    have bound : ∀ ms, e = .tick ms → w.state.cache.now + ms < d := by
      rintro ms rfl
      have := (allowed i).2 busy
      omega
    rcases held_step move leased notRelease bound with ⟨kept, lost⟩ | ⟨call, rfl, renewed⟩
    · have notRenewal : ∀ call, e ≠ .renew i call := by
        rintro call rfl
        have failed := lost call rfl
        rw [allowed.1] at failed
        cases failed
      refine ⟨d, kept, ?_⟩
      rw [keepTime_timer w t start notRenewal]
      exact ahead
    · refine ⟨_, renewed, ?_⟩
      have due := allowed.2 busy
      rw [show (keepTime w t (.renew i call)).timer i = (w.timer i).fire from Function.update_self _ _ _, Timer.fire_due]
      omega

theorem step_guarded {c : Config ι} {w u : Timed ι} {e : Event ι} (guarded : ∀ i, Guarded c w i) (allowed : OnTime c w e)
    (attended : Attended w e) (taken : timedStep c w e = some u) (i : ι) : Guarded c u i := by
  obtain ⟨t, stepped, rfl⟩ := timedStep_cases taken
  constructor
  · rw [keepTime_state]
    exact step_claimed (guarded i) allowed stepped
  · rw [keepTime_state]
    exact step_working (guarded i) allowed stepped
  · rw [keepTime_state]
    exact step_pending (guarded i) attended stepped

/-- The request was granted the claim, and its handler has neither failed nor had its answer stored. -/
def Unfinished (p : Phase) : Prop := p = .claimed ∨ Working p

omit [DecidableEq ι] in
theorem Guarded.holds {c : Config ι} {w : Timed ι} {i : ι} (guarded : Guarded c w i)
    (unfinished : Unfinished (w.state.phase i)) : w.state.holder c = some (c.claim i) := by
  rcases unfinished with claimed | working
  · exact (guarded.claimed claimed).1.get
  · obtain ⟨d, leased, _⟩ := guarded.working working
    exact leased.get

/-- What is stored and what is about to be stored can be read back, and nothing is stored under a claim. -/
structure Clean (c : Config ι) (s : State ι) : Prop where
  storing : ∀ i record, s.phase i = .storing (.stored record) → Readable (c.fingerprint i) record
  record : ∀ record, s.record c = some record → ∃ fingerprint, Readable fingerprint record
  fresh : ∀ i, Unfinished (s.phase i) → s.record c = none

theorem step_storing {c : Config ι} {s t : State ι} {e : Event ι} (clean : Clean c s) (taken : step c s e = some t) (i : ι)
    (record : Text) (storing : t.phase i = .storing (.stored record)) : Readable (c.fingerprint i) record := by
  rcases step_recording taken (Or.inl storing) with (before | finished) | ⟨reply, body, _, same⟩
  · exact clean.storing i record before
  · rw [finished_stays taken finished] at storing
    cases storing
  · exact outcomeOf_readable same

omit [DecidableEq ι] in
theorem record_of_entry {c : Config ι} {s t : State ι} {e : Event ι} (move : EntryMove c s t e) :
    t.record c = s.record c ∨ t.record c = none ∨
    ∃ i call record, e = .store i call ∧ s.phase i = .storing (.stored record) ∧ t.record c = some record := by
  cases move with
  | keep _ same _ => exact Or.inl (by rw [State.record, KeyValue.Store.get, same]; rfl)
  | write i call record storing _ written =>
    exact Or.inr (Or.inr ⟨i, call, record, rfl, storing, by rw [State.record, KeyValue.Store.get, written]; rfl⟩)
  | pass ms cache =>
    rcases s.cache.get_advance ms c.recordKey with same | gone
    · exact Or.inl (by rw [State.record, cache, same]; rfl)
    · exact Or.inr (Or.inl (by rw [State.record, cache, gone]))

theorem step_fresh {c : Config ι} {w : Timed ι} {t : State ι} {e : Event ι} (guarded : ∀ i, Guarded c w i)
    (clean : Clean c w.state) (allowed : OnTime c w e) (taken : step c w.state e = some t) (i : ι)
    (unfinished : Unfinished (t.phase i)) : t.record c = none := by
  have ended : ∀ call, e ≠ .store i call := by
    rintro call rfl
    have finished : ∃ o, t.phase i = .finished o := by
      cases step_taken taken with
      | keep => exact ⟨_, by rw [finalize_phase, become_same]⟩
      | finish => exact ⟨_, by rw [finalize_phase, become_same]⟩
    obtain ⟨o, finished⟩ := finished
    rw [finished] at unfinished
    rcases unfinished with claimed | working
    · cases claimed
    · exact working
  have absent : w.state.record c = none ∧ (Unfinished (w.state.phase i) ∨ ∃ call, e = .arrive i call) := by
    rcases step_next taken i with same | next
    · rw [same] at unfinished
      exact ⟨clean.fresh i unfinished, Or.inl unfinished⟩
    · by_cases arrival : ∃ call, e = .arrive i call
      · obtain ⟨call, rfl⟩ := arrival
        have claimed : t.phase i = .claimed := by
          generalize t.phase i = q at next unfinished
          generalize w.state.phase i = p at next
          cases next with
          | claim => rfl
          | answer _ record =>
            rcases unfinished with claimed | working
            · exact claimed
            · unfold answerTo at working
              repeat' split at working
              all_goals exact working.elim
          | _ =>
            rcases unfinished with claimed | working
            · exact claimed
            · exact working.elim
        cases step_claim allowed taken with
        | keep _ _ _ _ ungranted => exact (ungranted i call rfl claimed).elim
        | grant _ _ absent => exact ⟨absent, Or.inr ⟨call, rfl⟩⟩
      · have before : Unfinished (w.state.phase i) := by
          generalize t.phase i = q at next unfinished
          generalize w.state.phase i = p at next
          cases next with
          | start => exact Or.inl rfl
          | emit => exact Or.inr trivial
          | answer call => exact (arrival ⟨call, rfl⟩).elim
          | refuse call => exact (arrival ⟨call, rfl⟩).elim
          | unprotect call => exact (arrival ⟨call, rfl⟩).elim
          | claim call => exact (arrival ⟨call, rfl⟩).elim
          | _ => rcases unfinished with claimed | working <;> first | cases claimed | exact working.elim
        exact ⟨clean.fresh i before, Or.inl before⟩
  rcases record_of_entry (step_entry taken) with same | gone | ⟨j, call, record, rfl, storing, _⟩
  · exact same.trans absent.1
  · exact gone
  · rcases absent.2 with busy | ⟨call', impossible⟩
    · -- two requests at work would hold the same claim
      have mine := (guarded i).holds busy
      rw [(guarded j).holds (Or.inr (by rw [storing]; trivial))] at mine
      obtain rfl := c.claim_injective (Option.some.inj mine)
      exact (ended call rfl).elim
    · cases impossible

theorem step_clean {c : Config ι} {w : Timed ι} {t : State ι} {e : Event ι} (guarded : ∀ i, Guarded c w i)
    (clean : Clean c w.state) (allowed : OnTime c w e) (taken : step c w.state e = some t) : Clean c t where
  storing := step_storing clean taken
  record record present := by
    rcases record_of_entry (step_entry taken) with same | gone | ⟨i, _, record', _, storing, written⟩
    · exact clean.record record (same.symm.trans present)
    · rw [gone] at present
      cases present
    · cases written.symm.trans present
      exact ⟨_, clean.storing i _ storing⟩
  fresh := step_fresh guarded clean allowed taken

theorem timed_guarded {c : Config ι} {now : ℕ} {es : List (Event ι)} {w : Timed ι}
    (run : Runs.Run (timedStep c) (fun w e => OnTime c w e ∧ Attended w e) (timed now) es w) :
    (∀ i, Guarded c w i) ∧ Clean c w.state := by
  have start : (∀ i, Guarded c (timed now) i) ∧ Clean c (timed now : Timed ι).state := by
    refine ⟨fun i => ?_, ?_⟩
    · constructor <;> simp [timed, initial, Working]
    · constructor <;> simp [timed, initial, State.record, Unfinished, Working]
  refine run.invariant (I := fun w => (∀ i, Guarded c w i) ∧ Clean c w.state) ?_ start
  intro w e u both allowed taken
  refine ⟨step_guarded both.1 allowed.1 allowed.2 taken, ?_⟩
  obtain ⟨t, stepped, rfl⟩ := timedStep_cases taken
  rw [keepTime_state]
  exact step_clean both.1 both.2 allowed.1 stepped

theorem arrive_refused {c : Config ι} {s t : State ι} (clean : Clean c s) {i j : ι} (held : s.holder c = some (c.claim i))
    (taken : step c s (.arrive j .ok) = some t) : ∃ answer, t.phase j = .answered answer := by
  simp only [step] at taken
  split at taken
  · rw [if_pos trivial] at taken
    cases taken
    unfold arrive
    split
    · rename_i record present
      obtain ⟨fingerprint, readable⟩ := clean.record record present
      obtain ⟨_, _, _, answered⟩ := answerTo_readable readable (c.fingerprint j)
      rw [become_same]
      exact ⟨_, answered⟩
    split
    · rename_i cache granted
      obtain ⟨free, _⟩ := KeyValue.Store.setIfAbsent_some granted
      rw [State.holder, free] at held
      cases held
    · rw [become_same]
      exact ⟨_, rfl⟩
  · cases taken

/-- Leaving the stream of a running handler frees its key: the next request starts a second handler. -/
theorem leaving_frees {c : Config ι} {w : Timed ι} {i j : ι} (guarded : Guarded c w i) (clean : Clean c w.state)
    (running : w.state.phase i = .running) (idle : w.state.phase j = .idle) :
    ∃ s t u, step c w.state (.unsubscribe i) = some s ∧ step c s (.release i .ok) = some t ∧
      step c t (.arrive j .ok) = some u ∧ u.phase i = .running ∧ u.phase j = .claimed := by
  have unfinished : Unfinished (w.state.phase i) := by
    rw [running]
    exact Or.inr trivial
  have held : w.state.cache.get c.claimKey = some (c.claim i) := guarded.holds unfinished
  have absent : w.state.cache.get c.recordKey = none := clean.fresh i unfinished
  have left : w.state.finalize i = w.state.releasing i .sent := finalize_pending (guarded.pending (by simp [running]))
  let t := ((w.state.releasing i .sent).write (w.state.cache.delIf c.claimKey (c.claim i))).releasing i .done
  have differs : i ≠ j := by
    rintro rfl
    rw [running] at idle
    cases idle
  obtain ⟨u, arrived, granted⟩ : ∃ u, step c t (.arrive j .ok) = some u ∧ u.phase j = .claimed := by
    apply arrive_granted
    · exact idle
    · exact (KeyValue.Store.get_delIf_other _ _ (claimKey_ne_recordKey c).symm).trans absent
    · exact (KeyValue.Store.get_delIf_same _ _ _).trans (if_pos held)
  refine ⟨w.state.releasing i .sent, t, u, ?_, ?_, arrived, ?_, granted⟩
  · simp only [step, running, left]
  · simp [step, t]
  · rcases step_next arrived i with same | next
    · exact same.trans running
    · have still : t.phase i = .running := running
      rw [still] at next
      generalize u.phase i = q at next
      cases next

/-- While nobody leaves the stream of a running handler, the claim stands until the handler has failed
or its answer is stored, and requests that arrive meanwhile are answered without running. Whoever leaves
it lets a second handler start. -/
theorem claim_outlives_handler (c : Config ι) (now : ℕ) {es : List (Event ι)} {w : Timed ι}
    (run : Runs.Run (timedStep c) (fun w e => OnTime c w e ∧ Attended w e) (timed now) es w) {i : ι}
    (unfinished : Unfinished (w.state.phase i)) :
    w.state.holder c = some (c.claim i) ∧
    (∀ j t, step c w.state (.arrive j .ok) = some t → ∃ answer, t.phase j = .answered answer) ∧
    (w.state.phase i = .running → ∀ j, w.state.phase j = .idle →
      ∃ s t u, step c w.state (.unsubscribe i) = some s ∧ step c s (.release i .ok) = some t ∧
        step c t (.arrive j .ok) = some u ∧ u.phase i = .running ∧ u.phase j = .claimed) := by
  obtain ⟨guarded, clean⟩ := timed_guarded run
  have held := (guarded i).holds unfinished
  exact ⟨held, fun j t => arrive_refused clean held, fun running j => leaving_frees (guarded i) clean running⟩

theorem claim_outlives_numbered : ∃ w : Timed ℕ, w.state.phase 0 = .running ∧ w.state.cache.now = 20000 ∧
    w.state.holder numbered = some (numbered.claim 0) := by
  have punctual : ∀ w : Timed ℕ, w.state.phase = Function.update (Function.update (fun _ => .idle) 0 .claimed) 0 .running →
      w.state.cache.now = 0 → (w.timer 0).due numbered.period = 20000 → OnTime numbered w (.tick 20000) := by
    intro w phases start due i
    rw [phases, start]
    by_cases first : i = 0
    · subst first
      rw [Function.update_self, due]
      exact ⟨by simp, fun _ => by decide⟩
    · rw [Function.update_of_ne first, Function.update_of_ne first]
      exact ⟨by simp, fun working => working.elim⟩
  have run : ∃ w, Runs.Run (timedStep numbered) (fun w e => OnTime numbered w e ∧ Attended w e) (timed 0)
      [.arrive 0 .ok, .start 0, .tick 20000, .renew 0 .ok] w ∧ w.state.phase 0 = .running ∧ w.state.cache.now = 20000 :=
    ⟨_, .cons ⟨rfl, trivial⟩ rfl (.cons ⟨trivial, trivial⟩ rfl (.cons ⟨punctual _ rfl rfl rfl, trivial⟩ rfl
      (.cons ⟨⟨rfl, fun _ => by decide⟩, trivial⟩ rfl (.nil _)))), rfl, rfl⟩
  obtain ⟨w, run, running, now⟩ := run
  have unfinished : Unfinished (w.state.phase 0) := by
    rw [running]
    exact Or.inr trivial
  exact ⟨w, running, now, (claim_outlives_handler numbered 0 run unfinished).1⟩

/-- An outer timeout leaves the stream of request 0 while its handler runs: the claim is released and request 1 is granted it. -/
theorem timeout_frees_running : ∃ w : Timed ℕ,
    Runs.Run (timedStep numbered) (OnTime numbered) (timed 0)
      [.arrive 0 .ok, .start 0, .unsubscribe 0, .release 0 .ok, .arrive 1 .ok] w ∧
    w.state.phase 0 = .running ∧ w.state.phase 1 = .claimed ∧ w.state.holder numbered = some (numbered.claim 1) := by
  refine ⟨_, .cons rfl rfl (.cons trivial rfl (.cons trivial rfl (.cons ⟨rfl, ?_⟩ rfl (.cons rfl rfl (.nil _))))), rfl, rfl, rfl⟩
  intro record storing
  cases storing

end Idempotency
