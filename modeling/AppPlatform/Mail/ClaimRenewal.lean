import AppPlatform.Mail.AtMostOnce
import AppPlatform.Lib.Lease

/-!
# A live attempt and its claim

The lease is two ticks of the renewal timer long. A renewal that fails leaves the claim one tick and
whatever the last one that took effect came late; the next renewal has to come within that.
-/

namespace Mail
open Js
open KeyValue (Call Leased Timer)
variable {ι : Type*}

def MAIL_CLAIM_RENEW_SECONDS : ℕ := 30

def renewPeriod : ℕ := 1000 * MAIL_CLAIM_RENEW_SECONDS

def leaseMs : ℕ := 1000 * MAIL_CLAIM_LEASE_SECONDS

/-- The attempt has its claim and has neither recorded its delivery nor given the claim back. -/
def Live : Phase → Prop
  | .waiting _ | .sleeping _ _ | .sending _ | .marking _ | .failing _ => True
  | _ => False

/-- The renewals of one attempt: its timer, whether the last one failed, and by how much the last
one that took effect came after its tick. -/
structure Renewals where
  timer : Timer
  missed : Bool
  late : ℕ

def Renewals.due (r : Renewals) : ℕ := r.timer.due renewPeriod

/-- The claim itself counts as on time. -/
def Renewals.start (now : ℕ) : Renewals := ⟨⟨now, 0⟩, false, 0⟩

def Renewals.renew (r : Renewals) (call : Call) (now : ℕ) : Renewals :=
  if call = .lost then { r with timer := r.timer.fire, missed := true } else ⟨r.timer.fire, false, now - r.due⟩

/-- When the claim ends unless it is renewed. -/
def Renewals.deadline (r : Renewals) : ℕ := r.due + (if r.missed then 0 else renewPeriod) + r.late

structure Tracked (ι : Type*) where
  state : State ι
  renewals : Renewals

def tracking (now : ℕ) : Tracked ι := ⟨initial now, .start now⟩

variable [DecidableEq ι]

/-- The renewals of attempt `i` after an event at time `now`. -/
def Renewals.after (r : Renewals) (i : ι) (now : ℕ) : Event ι → Renewals
  | .claim j _ => if j = i then .start now else r
  | .renew j call => if j = i then r.renew call now else r
  | _ => r

def track (c : Config ι) (i : ι) (w : Tracked ι) (e : Event ι) : Option (Tracked ι) :=
  (step c w.state e).map fun t => ⟨t, w.renewals.after i w.state.store.now e⟩

/-- Each renewal of attempt `i` takes effect, or fails, at its tick or less than one tick later, and
no two in a row fail. -/
def Scheduled (i : ι) (w : Tracked ι) : Event ι → Prop
  | .renew j call => j = i → Live (w.state.phase i) → w.renewals.due ≤ w.state.store.now ∧
    (call = .lost → w.renewals.missed = false)
  | .tick ms => Live (w.state.phase i) → w.state.store.now + ms < w.renewals.due + renewPeriod
  | _ => True

/-- After a failed renewal the next one comes, or the attempt is over, sooner after its tick than the
last one that took effect came after its own. No record of a delivery lapses while the attempt lives. -/
def Prompt (c : Config ι) (i : ι) (w : Tracked ι) : Event ι → Prop
  | .tick ms => Live (w.state.phase i) →
    (w.renewals.missed = true → w.state.store.now + ms < w.renewals.due + w.renewals.late) ∧
    ∀ id, w.state.value c = some (sentValue id) → (w.state.store.advance ms).get c.key = some (sentValue id)
  | _ => True

/-- What a step does to the ledger. -/
inductive LedgerMove (c : Config ι) (s t : State ι) : Event ι → Prop where
  | keep (e : Event ι) (store : t.store = s.store) (unrenewed : ∀ i call, e ≠ .renew i call)
      (ungranted : ∀ i, e = .claim i .ok → s.value c ≠ none) : LedgerMove c s t e
  | grant (i : ι) (call : Call) (absent : s.value c = none)
      (held : Leased t.store c.key (claimedValue (c.token i)) (s.store.now + leaseMs)) : LedgerMove c s t (.claim i call)
  | mark (i : ι) (call : Call) (id : Text) (sent : t.value c = some (sentValue id)) : LedgerMove c s t (.mark i call)
  | renew (i : ι) (call : Call)
      (store : t.store = call.apply (fun store => renew store c.key (c.token i) MAIL_CLAIM_LEASE_SECONDS) s.store) :
      LedgerMove c s t (.renew i call)
  | release (i : ι) (call : Call) (store : t.store = call.apply (fun store => release store c.key (c.token i)) s.store)
      (ended : ¬ Live (t.phase i)) : LedgerMove c s t (.release i call)
  | pass (ms : ℕ) (store : t.store = s.store.advance ms) : LedgerMove c s t (.tick ms)

theorem claim_ledger {c : Config ι} (s : State ι) (i : ι) (call : Call) (p : Phase) :
    LedgerMove c s ((s.write (call.apply (fun _ => (claim s.store c.key (c.token i) MAIL_CLAIM_LEASE_SECONDS).2) s.store)).become
      i p) (.claim i call) := by
  cases value : s.store.get c.key with
  | none =>
    by_cases lost : call = .lost
    · subst lost
      exact .keep _ rfl (by simp) (by simp)
    · refine .grant i call value ?_
      rw [become_store, write_store, Call.apply, if_neg lost, claim_absent value]
      exact KeyValue.leased_set _ _ _ (by decide)
  | some v =>
    refine .keep _ ?_ (by simp) fun _ _ absent => by cases value.symm.trans absent
    rw [become_store, write_store, claim_present value, Call.apply]
    split <;> rfl

theorem step_ledger {c : Config ι} {s t : State ι} {e : Event ι} (taken : step c s e = some t) : LedgerMove c s t e := by
  cases step_taken taken with
  | claim i call => exact claim_ledger s i call _
  | mark i call id =>
    by_cases lost : call = .lost
    · subst lost
      exact .keep _ rfl (by simp) (by simp)
    · apply LedgerMove.mark i call id
      rw [State.value, become_store, write_store, Call.apply, if_neg lost]
      exact KeyValue.Store.get_set_same _ _ _ (by decide)
  | renew i call => exact .renew i call rfl
  | release i call =>
    refine .release i call rfl ?_
    rw [become_same]
    exact id
  | tick ms => exact .pass ms rfl
  -- no other event is a call of the ledger
  | _ => exact .keep _ rfl (by simp) (by simp)

/-- An attempt comes to life by a claim that is granted. -/
theorem step_live {c : Config ι} {s t : State ι} {e : Event ι} (taken : step c s e = some t) {i : ι}
    (live : Live (t.phase i)) : Live (s.phase i) ∨ e = .claim i .ok ∧ s.value c = none := by
  have moved : ∀ {j : ι} {p : Phase}, t.phase = (s.become j p).phase →
      (j = i → Live p → Live (s.phase i) ∨ e = .claim i .ok ∧ s.value c = none) →
      Live (s.phase i) ∨ e = .claim i .ok ∧ s.value c = none := by
    intro j p change legal
    rw [change] at live
    by_cases same : i = j
    · subst same
      rw [become_same] at live
      exact legal rfl live
    · rw [become_other s p same] at live
      exact Or.inl live
  have stays : ∀ {j : ι} {p : Phase}, t.phase = (s.become j p).phase → Live (s.phase j) →
      Live (s.phase i) ∨ e = .claim i .ok ∧ s.value c = none := by
    intro j p change before
    refine moved change ?_
    rintro rfl _
    exact Or.inl before
  have ends : ∀ {j : ι} {p : Phase}, t.phase = (s.become j p).phase → ¬ Live p →
      Live (s.phase i) ∨ e = .claim i .ok ∧ s.value c = none := by
    intro j p change ended
    exact moved change fun _ alive => (ended alive).elim
  cases step_taken taken with
  | claim j call =>
    refine moved rfl ?_
    rintro rfl granted
    split at granted
    · rename_i ok
      subst ok
      refine Or.inr ⟨rfl, ?_⟩
      cases value : s.store.get c.key with
      | none => exact value
      | some v =>
        cases result : (claim s.store c.key (c.token j) MAIL_CLAIM_LEASE_SECONDS).1 with
        | claimed token => exact (claim_granted value _ token _ result).elim
        | _ =>
          rw [result] at granted
          exact granted.elim
    · exact granted.elim
  | slot j answer waitedMs waiting => exact stays rfl (by rw [waiting]; trivial)
  | wake j waitedMs waitMs sleeping => exact stays rfl (by rw [sleeping]; trivial)
  | rouse j waitedMs waitMs sleeping => exact stays rfl (by rw [sleeping]; trivial)
  | accept j sending => exact stays rfl (by rw [sending]; trivial)
  | sent j id sending => exact stays rfl (by rw [sending]; trivial)
  | refuse j accepted sending => exact stays rfl (by rw [sending]; trivial)
  | acceptLate j => exact ends rfl id
  | mark j => exact ends rfl id
  | release j => exact ends rfl id
  | crash j => exact ends rfl id
  | orphan j => exact ends rfl id
  | orphanMarking j => exact ends rfl id
  | abort j => exact Or.inl live
  | renew j => exact Or.inl live
  | tick ms => exact Or.inl live

/-! ### The deadline -/

theorem renew_deadline {r : Renewals} {call : Call} {now : ℕ} (due : r.due ≤ now) (apart : call = .lost → r.missed = false) :
    (r.renew call now).deadline = if call = .lost then r.deadline else now + leaseMs := by
  have two : leaseMs = renewPeriod + renewPeriod := by decide
  unfold Renewals.renew
  split
  · rename_i lost
    simp only [Renewals.deadline, Renewals.due, Timer.fire_due, apart lost, if_true, Bool.false_eq_true, if_false]
    omega
  · simp only [Renewals.deadline, Renewals.due, Timer.fire_due, Bool.false_eq_true, if_false] at due ⊢
    omega

theorem start_deadline (now : ℕ) : (Renewals.start now).deadline = now + leaseMs := by
  have two : leaseMs = renewPeriod + renewPeriod := by decide
  simp only [Renewals.deadline, Renewals.start, Renewals.due, Timer.start_due, Bool.false_eq_true, if_false]
  omega

/-- A live attempt holds its claim until the deadline, unless another one recorded the delivery. -/
def Kept (c : Config ι) (i : ι) (w : Tracked ι) : Prop :=
  Live (w.state.phase i) →
    Leased w.state.store c.key (claimedValue (c.token i)) w.renewals.deadline ∨ ∃ id, w.state.value c = some (sentValue id)

theorem live_not_claiming {c : Config ι} {s t : State ι} {i : ι} {call : Call} (taken : step c s (.claim i call) = some t) :
    ¬ Live (s.phase i) := by
  cases step_taken taken with
  | claim _ _ idle =>
    rw [idle]
    exact id

theorem after_other (r : Renewals) {i : ι} (now : ℕ) {e : Event ι} (unclaimed : ∀ call, e ≠ .claim i call)
    (unrenewed : ∀ call, e ≠ .renew i call) : r.after i now e = r := by
  cases e with
  | claim j call => exact if_neg (by rintro rfl; exact unclaimed call rfl)
  | renew j call => exact if_neg (by rintro rfl; exact unrenewed call rfl)
  | _ => rfl

omit [DecidableEq ι] in
/-- The claim of attempt `i` stands, or another attempt recorded the delivery; no other attempt has the claim. -/
theorem not_own {c : Config ι} {s : State ι} {i j : ι} {d : ℕ} (differs : j ≠ i)
    (held : Leased s.store c.key (claimedValue (c.token i)) d ∨ ∃ id, s.value c = some (sentValue id)) :
    s.value c ≠ some (claimedValue (c.token j)) := by
  intro own
  rcases held with leased | ⟨id, sent⟩
  · exact claimed_differs c differs (leased.get.symm.trans own)
  · exact claimed_ne_sent _ _ (Option.some.inj (own.symm.trans sent))

omit [DecidableEq ι] in
theorem renew_kept {c : Config ι} {i : ι} {s t : State ι} {r : Renewals} {call : Call}
    (held : Leased s.store c.key (claimedValue (c.token i)) r.deadline ∨ ∃ id, s.value c = some (sentValue id))
    (due : r.due ≤ s.store.now) (apart : call = .lost → r.missed = false)
    (store : t.store = call.apply (fun store => renew store c.key (c.token i) MAIL_CLAIM_LEASE_SECONDS) s.store) :
    Leased t.store c.key (claimedValue (c.token i)) (r.renew call s.store.now).deadline ∨
      ∃ id, t.value c = some (sentValue id) := by
  rw [renew_deadline due apart, store]
  by_cases lost : call = .lost
  · subst lost
    have same : t.value c = s.value c := by rw [State.value, store]; rfl
    rw [same]
    exact held
  · rw [if_neg lost, Call.apply, if_neg lost]
    rcases held with leased | ⟨id, sent⟩
    · exact Or.inl (leased.renew (by decide))
    · right
      have other : s.store.get c.key ≠ some (claimedValue (c.token i)) := by
        intro own
        exact claimed_ne_sent _ _ (Option.some.inj (own.symm.trans sent))
      refine ⟨id, ?_⟩
      rw [State.value, store, Call.apply, if_neg lost, renew_other other]
      exact sent

theorem step_kept {c : Config ι} {i : ι} {w u : Tracked ι} {e : Event ι} (kept : Kept c i w) (scheduled : Scheduled i w e)
    (prompt : Prompt c i w e) (taken : track c i w e = some u) : Kept c i u := by
  obtain ⟨t, stepped, rfl⟩ := Option.map_eq_some_iff.mp taken
  intro live
  have ledger := step_ledger stepped
  rcases step_live stepped live with before | ⟨rfl, absent⟩
  · have held := kept before
    have unclaimed : ∀ call, e ≠ .claim i call := by
      rintro call rfl
      exact live_not_claiming stepped before
    have unchanged : t.store = w.state.store → (∀ call, e ≠ .renew i call) →
        Leased t.store c.key (claimedValue (c.token i)) (w.renewals.after i w.state.store.now e).deadline ∨
          ∃ id, t.value c = some (sentValue id) := by
      intro store unrenewed
      rw [after_other _ _ unclaimed unrenewed, State.value, store]
      exact held
    cases ledger with
    | keep _ store unrenewed => exact unchanged store (unrenewed i)
    | grant j call absent =>
      rcases held with leased | ⟨id, sent⟩
      · cases absent.symm.trans leased.get
      · cases absent.symm.trans sent
    | mark j call id sent => exact Or.inr ⟨id, sent⟩
    | renew j call store =>
      by_cases same : j = i
      · subst same
        obtain ⟨due, apart⟩ := scheduled rfl before
        have own : w.renewals.after j w.state.store.now (.renew j call) = w.renewals.renew call w.state.store.now := if_pos rfl
        rw [own]
        exact renew_kept held due apart store
      · exact unchanged (stranger_harmless (Or.inr rfl) (not_own same held) stepped) (by simp [same])
    | release j call store ended =>
      have other : j ≠ i := by
        rintro rfl
        exact ended live
      exact unchanged (stranger_harmless (Or.inl rfl) (not_own other held) stepped) (by simp)
    | pass ms store =>
      obtain ⟨soon, recorded⟩ := prompt before
      have next := scheduled before
      rw [State.value, store]
      rcases held with leased | ⟨id, sent⟩
      · left
        apply leased.advance
        unfold Renewals.deadline
        cases missed : w.renewals.missed with
        | true => simpa using soon missed
        | false =>
          simp only [Bool.false_eq_true, if_false]
          omega
      · exact Or.inr ⟨id, recorded id sent⟩
  · left
    have started : w.renewals.after i w.state.store.now (.claim i .ok) = .start w.state.store.now := if_pos rfl
    rw [started, start_deadline]
    cases ledger with
    | keep _ _ _ ungranted => exact (ungranted i rfl absent).elim
    | grant _ _ _ held => exact held

theorem run_kept {c : Config ι} {i : ι} {now : ℕ} {es : List (Event ι)} {w : Tracked ι}
    (run : Runs.Run (track c i) (fun w e => Scheduled i w e ∧ Prompt c i w e) (tracking now) es w) : Kept c i w :=
  run.invariant (fun kept allowed taken => step_kept kept allowed.1 allowed.2 taken) fun live => live.elim

theorem claim_refused {c : Config ι} {s t : State ι} {j : ι} {call : Call} (present : s.value c ≠ none)
    (taken : step c s (.claim j call) = some t) : t.store = s.store ∧ ¬ Live (t.phase j) := by
  constructor
  · cases step_ledger taken with
    | keep _ store => exact store
    | grant _ _ absent => exact (present absent).elim
  · intro live
    rcases step_live taken live with before | ⟨_, absent⟩
    · exact live_not_claiming taken before
    · exact present absent

/-- While a live attempt's renewals keep to their ticks and the one after a failed one is less late
than the last that took effect, the key holds its claim, or the delivery another attempt recorded, and
no attempt is granted the claim. Where the one after a failed renewal is later, the claim has expired. -/
theorem live_claim_kept (c : Config ι) (i : ι) (now : ℕ) {es : List (Event ι)} {w : Tracked ι}
    (run : Runs.Run (track c i) (fun w e => Scheduled i w e ∧ Prompt c i w e) (tracking now) es w)
    (live : Live (w.state.phase i)) :
    (w.state.value c = some (claimedValue (c.token i)) ∨ ∃ id, w.state.value c = some (sentValue id)) ∧
    (∀ j call t, step c w.state (.claim j call) = some t → t.store = w.state.store ∧ ¬ Live (t.phase j)) ∧
    ∀ ms t, w.state.value c = some (claimedValue (c.token i)) → w.renewals.missed = true →
      w.renewals.due + w.renewals.late ≤ w.state.store.now + ms → step c w.state (.tick ms) = some t → t.value c = none := by
  have held := run_kept run live
  refine ⟨held.imp_left Leased.get, fun j call t => claim_refused ?_, fun ms t own missed late taken => ?_⟩
  · rcases held with leased | ⟨id, sent⟩
    · intro absent
      cases absent.symm.trans leased.get
    · intro absent
      cases absent.symm.trans sent
  · rcases held with leased | ⟨id, sent⟩
    · cases taken
      apply leased.lapse
      rw [Renewals.deadline, missed]
      exact late
    · exact (claimed_ne_sent _ _ (Option.some.inj (own.symm.trans sent))).elim

/-- The first renewal of attempt 0 takes effect 5 ms late, the second fails, the third comes on time. -/
theorem live_claim_kept_numbered : ∃ w : Tracked ℕ, Live (w.state.phase 0) ∧ w.state.store.now = 90000 ∧
    (w.state.value numbered = some (claimedValue (numbered.token 0)) ∨ ∃ id, w.state.value numbered = some (sentValue id)) := by
  have prompt : ∀ (w : Tracked ℕ) (ms : ℕ), w.state.value numbered = some (claimedValue (numbered.token 0)) →
      (w.renewals.missed = true → w.state.store.now + ms < w.renewals.due + w.renewals.late) →
      Prompt numbered 0 w (.tick ms) := by
    intro w ms own soon _
    refine ⟨soon, fun id sent => ?_⟩
    exact (claimed_ne_sent _ _ (Option.some.inj (own.symm.trans sent))).elim
  have run : ∃ w, Runs.Run (track numbered 0) (fun w e => Scheduled 0 w e ∧ Prompt numbered 0 w e) (tracking 0)
      [.claim 0 .ok, .tick 30005, .renew 0 .ok, .tick 29995, .renew 0 .lost, .tick 30000, .renew 0 .ok] w ∧
      Live (w.state.phase 0) ∧ w.state.store.now = 90000 :=
    ⟨_, .cons ⟨trivial, trivial⟩ rfl
      (.cons ⟨fun _ => by decide, prompt _ _ rfl (by decide)⟩ rfl
      (.cons ⟨fun _ _ => by decide, trivial⟩ rfl
      (.cons ⟨fun _ => by decide, prompt _ _ rfl (by decide)⟩ rfl
      (.cons ⟨fun _ _ => by decide, trivial⟩ rfl
      (.cons ⟨fun _ => by decide, prompt _ _ rfl (by decide)⟩ rfl
      (.cons ⟨fun _ _ => by decide, trivial⟩ rfl (.nil _))))))), trivial, rfl⟩
  obtain ⟨w, run, live, now⟩ := run
  exact ⟨w, live, now, (live_claim_kept numbered 0 0 run live).1⟩

/-- The first renewal of attempt 0 fails. At 60 s its claim has expired before the second renewal, due then, and attempt 1 is
granted the claim while attempt 0 lives. -/
theorem missed_renewal_loses : ∃ w : Tracked ℕ,
    Runs.Run (track numbered 0) (Scheduled 0) (tracking 0)
      [.claim 0 .ok, .tick 30000, .renew 0 .lost, .tick 30000, .claim 1 .ok] w ∧
    Live (w.state.phase 0) ∧ Live (w.state.phase 1) ∧
    w.state.value numbered = some (claimedValue (numbered.token 1)) :=
  ⟨_, .cons trivial rfl (.cons (fun _ => by decide) rfl (.cons (fun _ _ => by decide) rfl
    (.cons (fun _ => by decide) rfl (.cons trivial rfl (.nil _))))), trivial, trivial, rfl⟩

end Mail
