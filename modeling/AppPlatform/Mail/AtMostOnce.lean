import AppPlatform.Mail.Attempts

/-!
# At most one message per key

While no claim lapses before its attempt is over, a delivery is recorded and the sender fails only
when the provider did not accept, the provider accepts one message at most.
-/

namespace Mail
open Js
open KeyValue (Call)
variable {ι : Type*}

def State.value (c : Config ι) (s : State ι) : Option Text := s.store.get c.key

/-- The provider may still accept the message of this attempt. -/
def Unaccepted : Phase → Prop
  | .waiting _ | .sleeping _ _ | .sending false | .orphaned false => True
  | _ => False

/-- The provider accepted the message and the ledger does not say so yet. -/
def Unrecorded : Phase → Prop
  | .sending true | .orphaned true | .marking _ => True
  | _ => False

theorem not_unrecorded {p : Phase} (open_ : Unaccepted p) : ¬ Unrecorded p := by
  unfold Unaccepted at open_
  split at open_
  · exact id
  · exact id
  · exact id
  · exact id
  · exact open_.elim

/-- No claim lapses between its grant and the record of its delivery, which is made, the sender
throws only when the provider did not accept, and the mark of a delivery does not expire. -/
def Assumed (c : Config ι) (s : State ι) : Event ι → Prop
  | .mark _ call => call = .ok
  | .refuse i => s.phase i = .sending false
  | .tick ms =>
    (∀ i, Unaccepted (s.phase i) ∨ Unrecorded (s.phase i) → s.value c = some (claimedValue (c.token i)) →
      (s.store.advance ms).get c.key = some (claimedValue (c.token i))) ∧
    ∀ id, s.value c = some (sentValue id) → (s.store.advance ms).get c.key = some (sentValue id)
  | _ => True

/-- What holds of one attempt when the key holds `value`. -/
structure Sound (c : Config ι) (value : Option Text) (accepted : List ι) (i : ι) (p : Phase) : Prop where
  unaccepted : Unaccepted p → value = some (claimedValue (c.token i)) ∧ accepted = []
  unrecorded : Unrecorded p → value = some (claimedValue (c.token i))
  settled : i ∈ accepted → Unrecorded p ∨ ∃ id, value = some (sentValue id)
  recorded : p = .delivered true → ∃ id, value = some (sentValue id)

structure Safe (c : Config ι) (s : State ι) : Prop where
  each : ∀ i, Sound c (s.value c) s.accepted i (s.phase i)
  unique : s.accepted.length ≤ 1

variable [DecidableEq ι]

/-- What an allowed step of a safe state does. -/
inductive Move (c : Config ι) (s : State ι) : State ι → Prop where
  | grant (i : ι) (p : Phase) (absent : s.value c = none) (notMarking : ¬ Unrecorded p) (undelivered : p ≠ .delivered true) :
      Move c s ((s.write (s.store.set c.key (claimedValue (c.token i)) (some (1000 * MAIL_CLAIM_LEASE_SECONDS)))).become i p)
  | still (t : State ι) (store : t.store = s.store) (accepted : t.accepted = s.accepted) (phase : t.phase = s.phase) :
      Move c s t
  | shift (i : ι) (p : Phase) (t : State ι) (store : t.store = s.store) (accepted : t.accepted = s.accepted)
      (phase : t.phase = (s.become i p).phase) (open_ : Unaccepted p → Unaccepted (s.phase i))
      (ahead : Unrecorded (s.phase i) ↔ Unrecorded p) (undelivered : p ≠ .delivered true) : Move c s t
  | accept (i : ι) (p : Phase) (open_ : Unaccepted (s.phase i)) (ahead : Unrecorded p) (undelivered : p ≠ .delivered true) :
      Move c s ((s.accept i).become i p)
  | mark (i : ι) (id : Text) (marking : s.phase i = .marking id) :
      Move c s ((s.write (markSent s.store c.key id MAIL_SENT_TTL_SECONDS)).become i (.delivered true))
  | free (i : ι) (cause : Failure) (failing : s.phase i = .failing cause) :
      Move c s ((s.write (release s.store c.key (c.token i))).become i (.failed cause))
  | renew (i : ι) : Move c s (s.write (renew s.store c.key (c.token i) MAIL_CLAIM_LEASE_SECONDS))
  | tick (ms : ℕ)
      (claims : ∀ i, Unaccepted (s.phase i) ∨ Unrecorded (s.phase i) → s.value c = some (claimedValue (c.token i)) →
        (s.write (s.store.advance ms)).value c = some (claimedValue (c.token i)))
      (marks : ∀ id, s.value c = some (sentValue id) → (s.write (s.store.advance ms)).value c = some (sentValue id)) :
      Move c s (s.write (s.store.advance ms))

theorem waitForSlot_cases (aborted : Bool) (waitedMs : ℕ) (answer : Option ℕ) :
    ¬ Unrecorded (waitForSlot aborted waitedMs answer) ∧ waitForSlot aborted waitedMs answer ≠ .delivered true := by
  unfold waitForSlot
  repeat' split
  all_goals simp [Unrecorded]

theorem claim_moves {c : Config ι} {s : State ι} {i : ι} (idle : s.phase i = .idle) (call : Call) :
    Move c s ((s.write (call.apply (fun _ => (claim s.store c.key (c.token i) MAIL_CLAIM_LEASE_SECONDS).2) s.store)).become i
      (if call = .ok then afterClaim (claim s.store c.key (c.token i) MAIL_CLAIM_LEASE_SECONDS).1 else .unclaimed)) := by
  have before : ¬ Unrecorded (s.phase i) := by simp [idle, Unrecorded]
  cases value : s.store.get c.key with
  | none =>
    rw [claim_absent value]
    cases call with
    | lost => exact .shift i .unclaimed _ rfl rfl rfl False.elim ⟨fun h => (before h).elim, False.elim⟩ (by simp)
    | unanswered => exact .grant i .unclaimed value id (by simp)
    | ok => exact .grant i (.waiting 0) value id (by simp)
  | some v =>
    have unchanged : call.apply (fun _ => (claim s.store c.key (c.token i) MAIL_CLAIM_LEASE_SECONDS).2) s.store = s.store := by
      rw [claim_present value, KeyValue.Call.apply]
      split <;> rfl
    have notGranted := claim_granted value (c.token i) (c.token i) MAIL_CLAIM_LEASE_SECONDS
    refine .shift i _ _ unchanged rfl rfl ?_ ?_ ?_
    all_goals
      split
      · cases result : (claim s.store c.key (c.token i) MAIL_CLAIM_LEASE_SECONDS).1 with
        | claimed token => exact (claim_granted value _ token _ result).elim
        | _ => simp [afterClaim, Unaccepted, Unrecorded, idle]
      · simp [Unaccepted, Unrecorded, idle]

theorem step_moves {c : Config ι} {s t : State ι} {e : Event ι} (assumed : Assumed c s e) (taken : step c s e = some t) :
    Move c s t := by
  cases step_taken taken with
  | claim i call idle => exact claim_moves idle call
  | slot i answer waitedMs waiting =>
    obtain ⟨notAhead, undelivered⟩ := waitForSlot_cases (s.aborted i) waitedMs answer
    refine .shift i _ _ rfl rfl rfl (fun _ => by simp [waiting, Unaccepted]) ⟨fun h => ?_, fun h => (notAhead h).elim⟩
      undelivered
    simp [waiting, Unrecorded] at h
  | wake i waitedMs waitMs sleeping =>
    exact .shift i _ _ rfl rfl rfl (by simp [sleeping, Unaccepted]) (by simp [sleeping, Unrecorded]) (by simp)
  | rouse i waitedMs waitMs sleeping =>
    exact .shift i _ _ rfl rfl rfl (by simp [Unaccepted]) (by simp [sleeping, Unrecorded]) (by simp)
  | abort i => exact .still _ rfl rfl rfl
  | accept i sending => exact .accept i _ (by simp [sending, Unaccepted]) (by simp [Unrecorded]) (by simp)
  | acceptLate i orphaned => exact .accept i _ (by simp [orphaned, Unaccepted]) (by simp [Unrecorded]) (by simp)
  | sent i id sending =>
    exact .shift i _ _ rfl rfl rfl (by simp [Unaccepted]) (by simp [sending, Unrecorded]) (by simp)
  | refuse i =>
    have sending : s.phase i = .sending false := assumed
    exact .shift i _ _ rfl rfl rfl (by simp [Unaccepted]) (by simp [sending, Unrecorded]) (by simp)
  | mark i call id marking =>
    cases assumed
    exact .mark i id marking
  | renew i call =>
    cases call with
    | lost => exact .still _ rfl rfl rfl
    | unanswered => exact .renew i
    | ok => exact .renew i
  | release i call cause failing =>
    cases call with
    | lost => exact .shift i _ _ rfl rfl rfl (by simp [Unaccepted]) (by simp [failing, Unrecorded]) (by simp)
    | unanswered => exact .free i cause failing
    | ok => exact .free i cause failing
  | crash i unsent =>
    have before : ¬ Unrecorded (s.phase i) := by
      rcases unsent with ⟨_, phase⟩ | ⟨_, _, phase⟩ | ⟨_, phase⟩ <;> simp [phase, Unrecorded]
    exact .shift i _ _ rfl rfl rfl (by simp [Unaccepted]) ⟨fun h => (before h).elim, fun h => h.elim⟩ (by simp)
  | orphan i accepted sending =>
    cases accepted with
    | false => exact .shift i _ _ rfl rfl rfl (by simp [sending, Unaccepted]) (by simp [sending, Unrecorded]) (by simp)
    | true => exact .shift i _ _ rfl rfl rfl (by simp [Unaccepted]) (by simp [sending, Unrecorded]) (by simp)
  | orphanMarking i id marking =>
    exact .shift i _ _ rfl rfl rfl (by simp [Unaccepted]) (by simp [marking, Unrecorded]) (by simp)
  | tick ms => exact .tick ms assumed.1 assumed.2

omit [DecidableEq ι] in
theorem initial_safe (c : Config ι) (now : ℕ) : Safe c (initial now) where
  each i := {
    unaccepted := by simp [initial, Unaccepted]
    unrecorded := by simp [initial, Unrecorded]
    settled := by simp [initial]
    recorded := by simp [initial] }
  unique := by simp [initial]

omit [DecidableEq ι] in
theorem claimed_differs (c : Config ι) {i j : ι} (differs : j ≠ i) :
    some (claimedValue (c.token i)) ≠ some (claimedValue (c.token j)) := by
  intro same
  exact differs (c.token_injective (claimedValue_injective (Option.some.inj same))).symm

omit [DecidableEq ι] in
theorem Safe.nothing_accepted {c : Config ι} {s : State ι} (safe : Safe c s) (absent : s.value c = none) :
    s.accepted = [] := by
  apply List.eq_nil_iff_forall_not_mem.mpr
  intro i member
  rcases (safe.each i).settled member with ahead | ⟨id, sent⟩
  · have held := (safe.each i).unrecorded ahead
    rw [absent] at held
    cases held
  · rw [absent] at sent
    cases sent

omit [DecidableEq ι] in
/-- Only one attempt is between its claim and the record of its delivery. -/
theorem Safe.alone {c : Config ι} {s : State ι} (safe : Safe c s) {i j : ι}
    (held : s.value c = some (claimedValue (c.token i))) (differs : j ≠ i) :
    ¬ Unaccepted (s.phase j) ∧ ¬ Unrecorded (s.phase j) := by
  refine ⟨fun open_ => ?_, fun ahead => ?_⟩
  · exact claimed_differs c differs (held.symm.trans ((safe.each j).unaccepted open_).1)
  · exact claimed_differs c differs (held.symm.trans ((safe.each j).unrecorded ahead))

theorem grant_safe {c : Config ι} {s : State ι} (safe : Safe c s) {i : ι} {p : Phase} (absent : s.value c = none)
    (notMarking : ¬ Unrecorded p) (undelivered : p ≠ .delivered true) :
    Safe c ((s.write (s.store.set c.key (claimedValue (c.token i)) (some (1000 * MAIL_CLAIM_LEASE_SECONDS)))).become i p) := by
  have none_accepted := safe.nothing_accepted absent
  have value : ((s.write (s.store.set c.key (claimedValue (c.token i)) (some (1000 * MAIL_CLAIM_LEASE_SECONDS)))).become
      i p).value c = some (claimedValue (c.token i)) :=
    KeyValue.Store.get_set_same _ _ _ (by decide)
  refine ⟨fun j => ?_, by simp [none_accepted]⟩
  rw [value, become_accepted, write_accepted, none_accepted]
  by_cases same : j = i
  · subst same
    rw [become_same]
    exact ⟨fun _ => ⟨rfl, rfl⟩, fun ahead => (notMarking ahead).elim, fun member => (List.not_mem_nil member).elim,
      fun delivered => (undelivered delivered).elim⟩
  · rw [become_other _ _ same]
    have before := safe.each j
    rw [absent] at before
    refine ⟨fun open_ => ?_, fun ahead => ?_, fun member => (List.not_mem_nil member).elim, fun delivered => ?_⟩
    · cases (before.unaccepted open_).1
    · cases before.unrecorded ahead
    · obtain ⟨id, impossible⟩ := before.recorded delivered
      cases impossible

theorem shift_safe {c : Config ι} {s t : State ι} (safe : Safe c s) {i : ι} {p : Phase} (store : t.store = s.store)
    (accepted : t.accepted = s.accepted) (phase : t.phase = (s.become i p).phase)
    (open_ : Unaccepted p → Unaccepted (s.phase i)) (ahead : Unrecorded (s.phase i) ↔ Unrecorded p)
    (undelivered : p ≠ .delivered true) : Safe c t := by
  have value : t.value c = s.value c := by rw [State.value, store, State.value]
  refine ⟨fun j => ?_, by rw [accepted]; exact safe.unique⟩
  rw [value, accepted, phase]
  by_cases same : j = i
  · subst same
    rw [become_same]
    have before := safe.each j
    refine ⟨fun h => before.unaccepted (open_ h), fun h => before.unrecorded (ahead.mpr h), fun member => ?_,
      fun delivered => (undelivered delivered).elim⟩
    exact (before.settled member).imp_left ahead.mp
  · rw [become_other _ _ same]
    exact safe.each j

theorem accept_safe {c : Config ι} {s : State ι} (safe : Safe c s) {i : ι} {p : Phase} (open_ : Unaccepted (s.phase i))
    (ahead : Unrecorded p) (undelivered : p ≠ .delivered true) : Safe c ((s.accept i).become i p) := by
  obtain ⟨held, none_accepted⟩ := (safe.each i).unaccepted open_
  have value : ((s.accept i).become i p).value c = some (claimedValue (c.token i)) := held
  refine ⟨fun j => ?_, by simp [none_accepted]⟩
  rw [value, become_accepted, accept_accepted, none_accepted]
  by_cases same : j = i
  · subst same
    rw [become_same]
    exact ⟨fun h => (not_unrecorded h ahead).elim, fun _ => rfl, fun _ => Or.inl ahead,
      fun delivered => (undelivered delivered).elim⟩
  · rw [become_other _ _ same, accept_phase]
    obtain ⟨notOpen, notAhead⟩ := safe.alone held same
    refine ⟨fun h => (notOpen h).elim, fun h => (notAhead h).elim, fun member => ?_, fun delivered => ?_⟩
    · exact (same (List.mem_singleton.mp member)).elim
    · obtain ⟨id, sent⟩ := (safe.each j).recorded delivered
      rw [held] at sent
      exact (claimed_ne_sent _ _ (Option.some.inj sent)).elim

theorem mark_safe {c : Config ι} {s : State ι} (safe : Safe c s) {i : ι} {id : Text} (marking : s.phase i = .marking id) :
    Safe c ((s.write (markSent s.store c.key id MAIL_SENT_TTL_SECONDS)).become i (.delivered true)) := by
  have held := (safe.each i).unrecorded (by simp [marking, Unrecorded])
  have value : ((s.write (markSent s.store c.key id MAIL_SENT_TTL_SECONDS)).become i (.delivered true)).value c =
      some (sentValue id) := KeyValue.Store.get_set_same _ _ _ (by decide)
  refine ⟨fun j => ?_, safe.unique⟩
  rw [value]
  by_cases same : j = i
  · subst same
    rw [become_same]
    exact ⟨fun h => h.elim, fun h => h.elim, fun _ => Or.inr ⟨id, rfl⟩, fun _ => ⟨id, rfl⟩⟩
  · rw [become_other _ _ same, write_phase]
    obtain ⟨notOpen, notAhead⟩ := safe.alone held same
    exact ⟨fun h => (notOpen h).elim, fun h => (notAhead h).elim, fun _ => Or.inr ⟨id, rfl⟩, fun _ => ⟨id, rfl⟩⟩

omit [DecidableEq ι] in
/-- The key may lose the claim of an attempt that is over, and nothing else. -/
theorem weaken_safe {c : Config ι} {s t : State ι} (safe : Safe c s) (accepted : t.accepted = s.accepted)
    (phase : t.phase = s.phase)
    (claims : ∀ i, Unaccepted (s.phase i) ∨ Unrecorded (s.phase i) → s.value c = some (claimedValue (c.token i)) →
      t.value c = some (claimedValue (c.token i)))
    (marks : ∀ id, s.value c = some (sentValue id) → t.value c = some (sentValue id)) : Safe c t := by
  refine ⟨fun i => ?_, by rw [accepted]; exact safe.unique⟩
  rw [accepted, phase]
  have before := safe.each i
  refine ⟨fun open_ => ?_, fun ahead => claims i (Or.inr ahead) (before.unrecorded ahead), fun member => ?_,
    fun delivered => ?_⟩
  · obtain ⟨held, none_accepted⟩ := before.unaccepted open_
    exact ⟨claims i (Or.inl open_) held, none_accepted⟩
  · rcases before.settled member with ahead | ⟨id, sent⟩
    · exact Or.inl ahead
    · exact Or.inr ⟨id, marks id sent⟩
  · obtain ⟨id, sent⟩ := before.recorded delivered
    exact ⟨id, marks id sent⟩

theorem free_safe {c : Config ι} {s : State ι} (safe : Safe c s) {i : ι} {cause : Failure}
    (failing : s.phase i = .failing cause) :
    Safe c ((s.write (release s.store c.key (c.token i))).become i (.failed cause)) := by
  have value : (s.write (release s.store c.key (c.token i))).value c =
      if s.value c = some (claimedValue (c.token i)) then none else s.value c := s.store.get_delIf_same _ _
  have released : Safe c (s.write (release s.store c.key (c.token i))) := by
    refine weaken_safe safe rfl rfl ?_ ?_
    · intro j active held
      have differs : j ≠ i := by
        rintro rfl
        simp [failing, Unaccepted, Unrecorded] at active
      rw [value, held, if_neg (claimed_differs c (Ne.symm differs))]
    · intro id sent
      rw [value, sent, if_neg fun same => claimed_ne_sent _ _ (Option.some.inj same).symm]
  exact shift_safe released rfl rfl rfl (by simp [Unaccepted]) (by simp [failing, Unrecorded]) (by simp)

omit [DecidableEq ι] in
theorem renew_value (c : Config ι) (s : State ι) (i : ι) :
    (s.write (renew s.store c.key (c.token i) MAIL_CLAIM_LEASE_SECONDS)).value c = s.value c :=
  s.store.get_expireIf _ _ _ (by decide)

theorem step_safe {c : Config ι} {s t : State ι} (safe : Safe c s) (move : Move c s t) : Safe c t := by
  cases move with
  | grant i p absent notMarking undelivered => exact grant_safe safe absent notMarking undelivered
  | still t store accepted phase =>
    have value : t.value c = s.value c := by rw [State.value, store, State.value]
    exact weaken_safe safe accepted phase (fun _ _ held => value.trans held) (fun _ sent => value.trans sent)
  | shift i p t store accepted phase open_ ahead undelivered =>
    exact shift_safe safe store accepted phase open_ ahead undelivered
  | accept i p open_ ahead undelivered => exact accept_safe safe open_ ahead undelivered
  | mark i id marking => exact mark_safe safe marking
  | free i cause failing => exact free_safe safe failing
  | renew i =>
    have value := renew_value c s i
    exact weaken_safe safe rfl rfl (fun _ _ held => value.trans held) (fun _ sent => value.trans sent)
  | tick ms claims marks => exact weaken_safe safe rfl rfl claims marks

/-- No step undoes the mark of a delivery. -/
theorem step_sent {c : Config ι} {s t : State ι} (safe : Safe c s) (move : Move c s t) {id : Text}
    (sent : s.value c = some (sentValue id)) : t.value c = some (sentValue id) := by
  cases move with
  | grant i p absent =>
    rw [absent] at sent
    cases sent
  | still t store => rw [State.value, store, ← State.value, sent]
  | shift i p t store => rw [State.value, store, ← State.value, sent]
  | accept => exact sent
  | mark i id' marking =>
    have held := (safe.each i).unrecorded (by simp [marking, Unrecorded])
    rw [sent] at held
    exact (claimed_ne_sent _ _ (Option.some.inj held).symm).elim
  | free i =>
    have notOwn : s.store.get c.key ≠ some (claimedValue (c.token i)) := by
      rw [show s.store.get c.key = some (sentValue id) from sent]
      exact fun same => claimed_ne_sent _ _ (Option.some.inj same).symm
    rw [release_other notOwn]
    exact sent
  | renew i => exact (renew_value c s i).trans sent
  | tick ms claims marks => exact marks id sent

theorem run_safe {c : Config ι} {now : ℕ} {s : State ι} {es : List (Event ι)}
    (run : Runs.Run (step c) (Assumed c) (initial now) es s) : Safe c s :=
  run.invariant (fun safe assumed taken => step_safe safe (step_moves assumed taken)) (initial_safe c now)

theorem run_sent {c : Config ι} {s t : State ι} {es : List (Event ι)} (run : Runs.Run (step c) (Assumed c) s es t)
    (safe : Safe c s) {id : Text} (sent : s.value c = some (sentValue id)) : t.value c = some (sentValue id) :=
  run.invariant_under (fun safe assumed taken => step_safe safe (step_moves assumed taken))
    (fun safe sent assumed taken => step_sent safe (step_moves assumed taken) sent) safe sent

theorem claim_after_sent {c : Config ι} {s t : State ι} {i : ι} {id : Text} (sent : s.value c = some (sentValue id))
    (taken : step c s (.claim i .ok) = some t) : t.phase i = .skipped id := by
  simp only [step] at taken
  split at taken
  · rw [claim_sent sent, if_pos trivial] at taken
    cases taken
    exact become_same _ i _
  · cases taken

/-- Neither call of an attempt that does not own the claim changes the entry or its deadline. -/
theorem stranger_harmless {c : Config ι} {s t : State ι} {i : ι} {call : Call} {e : Event ι}
    (kind : e = .release i call ∨ e = .renew i call) (notOwn : s.value c ≠ some (claimedValue (c.token i)))
    (taken : step c s e = some t) : t.store = s.store := by
  have apply_same : ∀ effect : Store → Store, effect s.store = s.store → call.apply effect s.store = s.store := by
    intro effect same
    unfold KeyValue.Call.apply
    split
    · rfl
    · exact same
  rcases kind with rfl | rfl
  · simp only [step] at taken
    split at taken
    · cases taken
      exact apply_same _ (release_other notOwn)
    · cases taken
  · simp only [step] at taken
    split at taken
    · cases taken
      exact apply_same _ (renew_other notOwn _)
    · cases taken

theorem accepted_at_most_once (c : Config ι) (now : ℕ) {es : List (Event ι)} {s : State ι}
    (run : Runs.Run (step c) (Assumed c) (initial now) es s) :
    s.accepted.length ≤ 1 ∧
    (∀ i, s.phase i = .delivered true → ∃ id, s.value c = some (sentValue id) ∧
      ∀ fs t, Runs.Run (step c) (Assumed c) s fs t → t.value c = some (sentValue id) ∧
        ∀ j u, step c t (.claim j .ok) = some u → u.phase j = .skipped id) ∧
    ∀ i call e t, e = .release i call ∨ e = .renew i call → s.value c ≠ some (claimedValue (c.token i)) →
      step c s e = some t → t.store = s.store := by
  have safe := run_safe run
  refine ⟨safe.unique, fun i delivered => ?_, fun i call e t kind notOwn taken => stranger_harmless kind notOwn taken⟩
  obtain ⟨id, sent⟩ := (safe.each i).recorded delivered
  refine ⟨id, sent, fun fs t later => ?_⟩
  have kept := run_sent later safe sent
  exact ⟨kept, fun j u taken => claim_after_sent kept taken⟩

def numbered : Config ℕ where
  key := text "mail:sent:0"
  token := natText
  token_injective := natText_injective

theorem accepted_once_numbered : ∃ s : State ℕ, s.accepted = [0] ∧ s.phase 0 = .delivered true ∧ s.accepted.length ≤ 1 ∧
    ∃ id, s.value numbered = some (sentValue id) := by
  have run : ∃ s : State ℕ, Runs.Run (step numbered) (Assumed numbered) (initial 0)
      [.claim 0 .ok, .claim 1 .ok, .slot 0 (some 0), .accept 0, .sent 0 (text "m1"), .renew 0 .ok, .mark 0 .ok] s ∧
      s.accepted = [0] ∧ s.phase 0 = .delivered true :=
    ⟨_, .cons trivial rfl (.cons trivial rfl (.cons trivial rfl (.cons trivial rfl (.cons trivial rfl
      (.cons trivial rfl (.cons rfl rfl (.nil _))))))), rfl, rfl⟩
  obtain ⟨s, run, accepted, delivered⟩ := run
  obtain ⟨once, recorded, _⟩ := accepted_at_most_once numbered 0 run
  obtain ⟨id, sent, _⟩ := recorded 0 delivered
  exact ⟨s, accepted, delivered, once, id, sent⟩

end Mail
