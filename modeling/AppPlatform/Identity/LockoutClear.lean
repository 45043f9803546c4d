import AppPlatform.Identity.LockoutBounds

/-!
# Cleared accounts

A generation forgets the counters of the one before. It forgets nothing when it has been in use already: the
key of the generation may lapse, and two calls may store one after the other what they read at once.
-/

namespace Identity.Lockout
open Js KeyValue
variable {ι : Type*} [DecidableEq ι] {digest : Text → Text}

/-- The store works, and no counter of the generation that `clearAttempts` stores lives from before this call, or before
another that is done. -/
def Unused (digest : Text → Text) (s : State ι) : Event ι → Prop
  | .set c call => call = .ok ∧ ∀ subject gen, s.phase c = .bumping subject gen → ∀ a k, digest a.subject = digest subject →
      s.store.live (Counter.key digest a (bump gen) k) ≠ none →
      s.began c ≤ s.opened (k.key digest a (bump gen)) ∧ s.forgotten (digest subject) ≤ s.opened (k.key digest a (bump gen))
  | e => Working s e

omit [DecidableEq ι] in
theorem Unused.working {s : State ι} {e : Event ι} (unused : Unused digest s e) : Working s e := by
  cases e with
  | set c call => exact unused.1
  | admitAttempt c a => exact unused
  | clearAttempts c subject => exact unused
  | generation c call => exact unused
  | increment c counter call => exact unused
  | advance ms => exact unused

/-- The longest window of a counter. -/
def longest : ℕ := 3600 * 1000

theorem window_longest (k : Counter) : k.windowSeconds * 1000 ≤ longest := by
  cases k <;> decide

abbrev State.generation (digest : Text → Text) (s : State ι) (subject : Text) : ℕ := Lockout.generation digest s.store subject .ok

structure Cleared (digest : Text → Text) (s : State ι) : Prop where
  counts : Counts digest s
  lately : ∀ a gen k e, s.store.live (Counter.key digest a gen k) = some e → ∃ d, e.deadline = some d ∧
    d ≤ s.store.now + longest
  past : ∀ d, s.forgotten d ≤ s.serial
  began : ∀ c, ((∃ subject, s.phase c = .clearing subject) ∨ ∃ subject gen, s.phase c = .bumping subject
    gen) → s.began c ≤ s.serial
  current : ∀ subject a k, digest a.subject = digest subject →
    s.store.live (Counter.key digest a (s.generation digest subject) k) ≠ none →
    s.forgotten (digest subject) ≤ s.opened (k.key digest a (s.generation digest subject))
  outlived : ∀ subject a gen k e, digest a.subject = digest subject → s.store.live (Counter.key digest a gen k) = some e →
    s.opened (k.key digest a gen) < s.forgotten (digest subject) →
    ∃ g d, s.store.live (lockoutKeys.gen digest subject) = some g ∧ g.deadline = some d ∧ ∀ d', e.deadline = some d' → d' ≤ d

theorem genKey_digest {subject subject' : Text} : lockoutKeys.gen digest subject = lockoutKeys.gen digest subject' ↔
    digest subject = digest subject' := by
  constructor
  · intro same
    exact List.append_cancel_left (List.append_cancel_left same)
  · intro same
    rw [lockoutKeys.gen, lockoutKeys.gen, same]

/-! ### Every step keeps the invariant -/

/-- A step of a call that touches neither the store nor a counter. -/
theorem Cleared.toPhase {s : State ι} (cleared : Cleared digest s) {c : ι} {p : Phase}
    {attempt : ι → Option Attempt} {began : ι → ℕ}
    (counts : Counts digest ({ s with attempt := attempt, began := began }.toPhase c p)) (others : ∀ c' ≠ c, began c' = s.began c')
    (own : ((∃ subject, p = .clearing subject) ∨ ∃ subject gen, p = .bumping subject gen) → began c ≤ s.serial) :
    Cleared digest ({ s with attempt := attempt, began := began }.toPhase c p) := by
  refine ⟨counts, cleared.lately, cleared.past, ?_, cleared.current, cleared.outlived⟩
  intro c' clears
  by_cases here : c' = c
  · subst here
    rw [Calls.move_self] at clears
    exact own clears
  · rw [Calls.move_other _ p here] at clears
    exact (others c' here).trans_le (cleared.began c' clears)

theorem incremented_live {s : State ι} (counts : Counts digest s) (c : ι) (a : Attempt) (gen : ℕ) (k : Counter) {key : Text}
    {e : Entry ℕ} (live : (incremented digest s c a gen k .ok).store.live key = some e) :
    (incremented digest s c a gen k .ok).opened key = s.serial ∧ e.deadline = some (s.store.now + k.windowSeconds * 1000) ∨
      ∃ e₀, s.store.live key = some e₀ ∧ e₀.deadline = e.deadline ∧
        (incremented digest s c a gen k .ok).opened key = s.opened key := by
  dsimp only [incremented, increment, State.toPhase] at live ⊢
  by_cases here : key = k.key digest a gen
  · subst here
    rw [Function.update_self]
    by_cases found : s.store.live (k.key digest a gen) = none
    · rw [(Store.count_absent k.window_positive found).2] at live
      obtain rfl := Option.some.inj live
      rw [found]
      exact Or.inl ⟨rfl, rfl⟩
    · obtain ⟨e₀, found⟩ := Option.ne_none_iff_exists'.mp found
      rw [(Store.count_present _ found (counts.value a gen k e₀ found).2.1).2] at live
      obtain rfl := Option.some.inj live
      refine Or.inr ⟨e₀, found, rfl, ?_⟩
      rw [found]
      rfl
  · rw [Store.live_count_other _ _ here] at live
    rw [Function.update_of_ne here]
    exact Or.inr ⟨e, live, rfl, rfl⟩

theorem incremented_gen (s : State ι) (c : ι) (a : Attempt) (gen : ℕ) (k : Counter) (subject : Text) :
    (incremented digest s c a gen k .ok).store.live (lockoutKeys.gen digest subject) =
      s.store.live (lockoutKeys.gen digest subject) :=
  Store.live_count_other _ _ (key_ne_gen digest a gen k subject).symm

omit [DecidableEq ι] in
theorem Decision.judges {a : Attempt} {gen n : ℕ} {k : Counter} {p : Phase} (decision : Decision a gen n k p) :
    ¬ ((∃ subject, p = .clearing subject) ∨ ∃ subject gen, p = .bumping subject gen) := by
  rintro (⟨_, rfl⟩ | ⟨_, _, rfl⟩) <;> cases decision

theorem incremented_cleared {s : State ι} (cleared : Cleared digest s) {c : ι} {a : Attempt} {gen : ℕ} {k : Counter}
    (counting : s.phase c = .counting a gen k) : Cleared digest (incremented digest s c a gen k .ok) := by
  have now : (incremented digest s c a gen k .ok).store.now = s.store.now := Store.count_now ..
  have generation : ∀ subject, (incremented digest s c a gen k .ok).generation digest subject = s.generation digest subject := by
    intro subject
    unfold State.generation Lockout.generation Store.get
    rw [incremented_gen]
  refine ⟨incremented_counts cleared.counts counting, ?_, ?_, ?_, ?_, ?_⟩
  · intro a' gen' k' e live
    rw [now]
    rcases incremented_live cleared.counts c a gen k live with ⟨_, deadline⟩ | ⟨e₀, old, same, _⟩
    · exact ⟨_, deadline, Nat.add_le_add_left (window_longest k) _⟩
    · rw [← same]
      exact cleared.lately a' gen' k' e₀ old
  · exact fun d => Nat.le_succ_of_le (cleared.past d)
  · intro c' clears
    have differs : c' ≠ c := by
      rintro rfl
      have reached : (incremented digest s c' a gen k .ok).phase c' = decided a gen k _ := Calls.move_self ..
      rw [reached] at clears
      exact (decision a gen k _).judges clears
    have same : (incremented digest s c a gen k .ok).phase c' = s.phase c' := Calls.move_other _ _ differs
    rw [same] at clears
    exact Nat.le_succ_of_le (cleared.began c' clears)
  · intro subject a' k' same alive
    rw [generation] at alive ⊢
    obtain ⟨e, live⟩ := Option.ne_none_iff_exists'.mp alive
    rcases incremented_live cleared.counts c a gen k live with ⟨fresh, _⟩ | ⟨e₀, old, _, opened⟩
    · rw [fresh]
      exact cleared.past _
    · rw [opened]
      exact cleared.current subject a' k' same (by rw [old]; nofun)
  · intro subject a' gen' k' e same live before
    rw [incremented_gen]
    rcases incremented_live cleared.counts c a gen k live with ⟨fresh, _⟩ | ⟨e₀, old, deadline, opened⟩
    · rw [fresh] at before
      exact absurd (cleared.past (digest subject)) (Nat.not_le_of_lt before)
    · rw [opened] at before
      rw [← deadline]
      exact cleared.outlived subject a' gen' k' e₀ same old before

theorem stored_cleared {s : State ι} (cleared : Cleared digest s) {c : ι} {subject : Text} {gen : ℕ}
    (bumping : s.phase c = .bumping subject gen) (unused : Unused digest s (.set c .ok))
    (counts : Counts digest (stored digest s c subject gen .ok)) : Cleared digest (stored digest s c subject gen .ok) := by
  have ttl : 0 < genSeconds * 1000 := by decide
  have live : ∀ a gen' k, (stored digest s c subject gen .ok).store.live (Counter.key digest a gen' k) =
      s.store.live (k.key digest a gen') := fun a gen' k => Store.live_set_other _ _ _ (key_ne_gen digest a gen' k subject)
  have own : (stored digest s c subject gen .ok).store.live (lockoutKeys.gen digest subject) =
      some ⟨bump gen, some (s.store.now + genSeconds * 1000)⟩ := Store.live_set_same _ _ _ ttl
  have other : ∀ subject', digest subject' ≠ digest subject →
      (stored digest s c subject gen .ok).store.live (lockoutKeys.gen digest subject') =
        s.store.live (lockoutKeys.gen digest subject') :=
    fun subject' differs => Store.live_set_other _ _ _ fun same => differs (genKey_digest.mp same)
  have began : s.began c ≤ s.serial := cleared.began c (Or.inr ⟨subject, gen, bumping⟩)
  refine ⟨counts, ?_, ?_, ?_, ?_, ?_⟩
  · intro a gen' k e found
    rw [live] at found
    exact cleared.lately a gen' k e found
  · intro d
    dsimp only [stored, State.toPhase]
    by_cases here : d = digest subject
    · rw [here, Function.update_self]
      exact Nat.max_le.mpr ⟨cleared.past _, began⟩
    · rw [Function.update_of_ne here]
      exact cleared.past d
  · intro c' clears
    by_cases here : c' = c
    · subst here
      have reached : (stored digest s c' subject gen .ok).phase c' = .cleared := Calls.move_self ..
      rw [reached] at clears
      rcases clears with ⟨_, same⟩ | ⟨_, _, same⟩ <;> cases same
    · have same : (stored digest s c subject gen .ok).phase c' = s.phase c' := Calls.move_other _ _ here
      rw [same] at clears
      exact cleared.began c' clears
  · intro subject' a k same alive
    by_cases here : digest subject' = digest subject
    · have generation : (stored digest s c subject gen .ok).generation digest subject' = bump gen := by
        unfold State.generation Lockout.generation Store.get
        rw [if_pos rfl, genKey_digest.mpr here, own]
        rfl
      rw [generation] at alive ⊢
      rw [live] at alive
      dsimp only [stored, State.toPhase]
      rw [here, Function.update_self]
      obtain ⟨after, later⟩ := unused.2 subject gen bumping a k (same.trans here) alive
      exact Nat.max_le.mpr ⟨later, after⟩
    · have generation : (stored digest s c subject gen .ok).generation digest subject' = s.generation digest subject' := by
        unfold State.generation Lockout.generation Store.get
        rw [other subject' here]
      rw [generation] at alive ⊢
      rw [live] at alive
      dsimp only [stored, State.toPhase]
      rw [Function.update_of_ne here]
      exact cleared.current subject' a k same alive
  · intro subject' a gen' k e same found before
    rw [live] at found
    dsimp only [stored, State.toPhase] at before
    by_cases here : digest subject' = digest subject
    · obtain ⟨d, deadline, late⟩ := cleared.lately a gen' k e found
      refine ⟨_, s.store.now + genSeconds * 1000, (congrArg _ (genKey_digest.mpr here)).trans own, rfl, fun d' same' => ?_⟩
      obtain rfl := Option.some.inj (deadline.symm.trans same')
      have long : longest ≤ genSeconds * 1000 := by decide
      exact late.trans (Nat.add_le_add_left long _)
    · rw [Function.update_of_ne here] at before
      rw [other subject' here]
      exact cleared.outlived subject' a gen' k e same found before

omit [DecidableEq ι] in
/-- A counter from before a call that is done lapses before the generation does. -/
theorem advanced_cleared {s : State ι} (cleared : Cleared digest s) (ms : ℕ)
    (counts : Counts digest { s with store := s.store.advance ms }) : Cleared digest { s with store := s.store.advance ms } := by
  refine ⟨counts, ?_, cleared.past, cleared.began, ?_, ?_⟩
  · intro a gen k e left
    obtain ⟨d, deadline, late⟩ := cleared.lately a gen k e (Store.live_of_advance left).1
    exact ⟨d, deadline, late.trans (Nat.add_le_add_right (Nat.le_add_right _ _) _)⟩
  · intro subject a k same alive
    by_contra lost
    obtain ⟨e, left⟩ := Option.ne_none_iff_exists'.mp alive
    obtain ⟨found, before⟩ := Store.live_of_advance left
    obtain ⟨g, d, gen, deadline, latest⟩ := cleared.outlived subject a _ k e same found (Nat.lt_of_not_le lost)
    obtain ⟨d', deadline', _⟩ := cleared.lately a _ k e found
    have kept := Store.live_advance_of gen deadline (Nat.lt_of_lt_of_le (before d' deadline') (latest d' deadline'))
    have generation : State.generation digest { s with store := s.store.advance ms } subject = s.generation digest subject := by
      unfold State.generation Lockout.generation Store.get
      rw [kept, gen]
    rw [generation] at found lost
    exact lost (cleared.current subject a k same (by rw [found]; nofun))
  · intro subject a gen k e same left early
    obtain ⟨found, before⟩ := Store.live_of_advance left
    obtain ⟨g, d, gen', deadline, latest⟩ := cleared.outlived subject a gen k e same found early
    obtain ⟨d', deadline', _⟩ := cleared.lately a gen k e found
    exact ⟨g, d, Store.live_advance_of gen' deadline (Nat.lt_of_lt_of_le (before d' deadline') (latest d' deadline')), deadline,
      latest⟩

theorem step_cleared {s t : State ι} {e : Event ι} (cleared : Cleared digest s) (unused : Unused digest s e)
    (taken : step digest s e = some t) : Cleared digest t := by
  have counts := step_counts cleared.counts unused.working taken
  unfold step at taken
  split at taken
  · split at taken
    · obtain rfl := Option.some.inj taken
      exact cleared.toPhase counts (fun _ _ => rfl) (by rintro (⟨_, same⟩ | ⟨_, _, same⟩) <;> cases same)
    · cases taken
  · split at taken
    · obtain rfl := Option.some.inj taken
      refine cleared.toPhase counts (fun c' differs => Function.update_of_ne differs ..) fun _ => ?_
      rw [Function.update_self]
    · cases taken
  · split at taken
    · obtain rfl := Option.some.inj taken
      exact cleared.toPhase counts (fun _ _ => rfl) (by rintro (⟨_, same⟩ | ⟨_, _, same⟩) <;> cases same)
    · rename_i clearing
      obtain rfl := Option.some.inj taken
      exact cleared.toPhase counts (fun _ _ => rfl) fun _ => cleared.began _ (Or.inl ⟨_, clearing⟩)
    · cases taken
  · split at taken
    · rename_i counting
      obtain ⟨rfl, next⟩ := Option.ite_none_right_eq_some.mp taken
      obtain rfl := Option.some.inj next
      obtain rfl := unused
      exact incremented_cleared cleared counting
    · cases taken
  · split at taken
    · rename_i bumping
      obtain rfl := Option.some.inj taken
      obtain rfl := unused.1
      exact stored_cleared cleared bumping unused counts
    · cases taken
  · obtain rfl := Option.some.inj taken
    exact advanced_cleared cleared _ counts

/-! ### Attempts that begin later -/

/-- An attempt on the account sees no counter that was started before the mark. -/
structure Since (digest : Text → Text) (account : Text) (mark : ℕ) (y : ι) (s : State ι) : Prop where
  serial : mark ≤ s.serial
  forgotten : mark ≤ s.forgotten account
  counting : ∀ a gen k, s.phase y = .counting a gen k → digest a.subject = account → ∀ a' k', digest a'.subject = account →
    s.store.live (Counter.key digest a' gen k') ≠ none → mark ≤ s.opened (k'.key digest a' gen)
  counted : ∀ a k r, s.attempt y = some a → digest a.subject = account → s.counted y k = some r → mark ≤ r.window

variable {account : Text} {mark : ℕ} {y : ι}

omit [DecidableEq ι] in
theorem Decision.same {a a' : Attempt} {gen gen' n : ℕ} {k k' : Counter} {p : Phase} (decision : Decision a gen n k p)
    (next : p = .counting a' gen' k') : a' = a ∧ gen' = gen := by
  cases decision with
  | refused => cases next
  | device => cases next
  | address => cases next
  | together =>
    cases next
    exact ⟨rfl, rfl⟩
  | spent =>
    cases next
    exact ⟨rfl, rfl⟩
  | total =>
    cases next
    exact ⟨rfl, rfl⟩

theorem Since.increment {s : State ι} (since : Since digest account mark y s) (counts : Counts digest s) {c : ι} {a : Attempt}
    {gen : ℕ} {k : Counter} (counting : s.phase c = .counting a gen k) :
    Since digest account mark y (incremented digest s c a gen k .ok) := by
  obtain ⟨r, reply, phase⟩ := incremented_reply counts c a gen k
  refine ⟨Nat.le_succ_of_le since.serial, since.forgotten, ?_, ?_⟩
  · intro a' gen' k' reached same a'' k'' same' alive
    have before : ∃ k₀, s.phase y = .counting a' gen' k₀ := by
      rw [phase] at reached
      by_cases here : y = c
      · subst here
        rw [Function.update_self] at reached
        obtain ⟨rfl, rfl⟩ := (decision a gen k r.n).same reached
        exact ⟨k, counting⟩
      · rw [Function.update_of_ne here] at reached
        exact ⟨k', reached⟩
    obtain ⟨k₀, before⟩ := before
    obtain ⟨e, live⟩ := Option.ne_none_iff_exists'.mp alive
    rcases incremented_live counts c a gen k live with ⟨fresh, _⟩ | ⟨e₀, old, _, opened⟩
    · rw [fresh]
      exact since.serial
    · rw [opened]
      exact since.counting a' gen' k₀ before same a'' k'' same' (by rw [old]; nofun)
  · intro a' k' r' attempt same found
    rcases reply.cases found with ⟨rfl, rfl, rfl⟩ | old
    · have judged := counts.made y a (by rw [counting]; rfl)
      obtain rfl := Option.some.inj (judged.symm.trans attempt)
      rcases reply.joined with ⟨_, _, fresh⟩ | ⟨alive, _, opened⟩
      · rw [fresh]
        exact since.serial
      · rw [opened]
        exact since.counting a gen k' counting same a k' same alive
    · exact since.counted a' k' r' attempt same old

/-- A call that counts after another has moved on was counting before. -/
theorem counting_of_toPhase {s : State ι} {c : ι} {p : Phase} {a : Attempt} {gen : ℕ} {k : Counter}
    (reached : (s.toPhase c p).phase y = .counting a gen k) (quiet : ∀ a gen k, p ≠ .counting a gen k) :
    s.phase y = .counting a gen k := by
  by_cases here : y = c
  · subst here
    exact absurd ((Calls.move_self _ y p).symm.trans reached) (quiet a gen k)
  · exact (Calls.move_other _ p here).symm.trans reached

theorem Since.step {s t : State ι} {e : Event ι} (since : Since digest account mark y s) (cleared : Cleared digest s)
    (unused : Unused digest s e) (taken : step digest s e = some t) : Since digest account mark y t := by
  have counts := cleared.counts
  unfold Lockout.step at taken
  split at taken
  · split at taken
    · rename_i c a _ idle
      obtain rfl := Option.some.inj taken
      refine ⟨since.serial, since.forgotten, ?_, ?_⟩
      · intro a' gen k reached
        exact since.counting a' gen k (counting_of_toPhase reached nofun)
      · intro a' k r attempt same found
        have differs : y ≠ c := by
          rintro rfl
          cases (counts.ahead y k (by rw [idle]; trivial)).symm.trans found
        exact since.counted a' k r ((Function.update_of_ne differs ..).symm.trans attempt) same found
    · cases taken
  · split at taken
    · obtain rfl := Option.some.inj taken
      refine ⟨since.serial, since.forgotten, ?_, since.counted⟩
      intro a gen k reached
      exact since.counting a gen k (counting_of_toPhase reached nofun)
    · cases taken
  · split at taken
    · rename_i c call _ a reading
      obtain rfl := Option.some.inj taken
      obtain rfl := unused
      refine ⟨since.serial, since.forgotten, ?_, since.counted⟩
      intro a' gen k reached same a'' k'' same' alive
      by_cases here : y = c
      · subst here
        obtain ⟨rfl, rfl, _⟩ := Phase.counting.inj ((Calls.move_self ..).symm.trans reached)
        have current := cleared.current a.subject a'' k'' (same'.trans same.symm) alive
        rw [same] at current
        exact since.forgotten.trans current
      · exact since.counting a' gen k ((Calls.move_other _ _ here).symm.trans reached) same a'' k'' same' alive
    · obtain rfl := Option.some.inj taken
      refine ⟨since.serial, since.forgotten, ?_, since.counted⟩
      intro a gen k reached
      exact since.counting a gen k (counting_of_toPhase reached nofun)
    · cases taken
  · split at taken
    · rename_i counting
      obtain ⟨rfl, next⟩ := Option.ite_none_right_eq_some.mp taken
      obtain rfl := Option.some.inj next
      obtain rfl := unused
      exact since.increment counts counting
    · cases taken
  · split at taken
    · rename_i c call _ subject gen bumping
      obtain rfl := Option.some.inj taken
      obtain rfl := unused.1
      refine ⟨since.serial, ?_, ?_, since.counted⟩
      · dsimp only [stored, State.toPhase]
        by_cases here : account = digest subject
        · subst here
          rw [Function.update_self]
          exact since.forgotten.trans (Nat.le_max_left _ _)
        · rw [Function.update_of_ne here]
          exact since.forgotten
      · intro a gen' k reached same a' k' same' alive
        have live : (stored digest s c subject gen .ok).store.live (k'.key digest a' gen') = s.store.live (k'.key digest a' gen') :=
          Store.live_set_other _ _ _ (key_ne_gen digest a' gen' k' subject)
        rw [live] at alive
        exact since.counting a gen' k (counting_of_toPhase reached nofun) same a' k' same' alive
    · cases taken
  · obtain rfl := Option.some.inj taken
    refine ⟨since.serial, since.forgotten, ?_, since.counted⟩
    intro a gen k reached same a' k' same' alive
    obtain ⟨e, left⟩ := Option.ne_none_iff_exists'.mp alive
    refine since.counting a gen k reached same a' k' same' ?_
    rw [(Store.live_of_advance left).1]
    nofun

/-! ### Whole runs -/

omit [DecidableEq ι] in
theorem start_cleared {s : State ι} (start : Start digest s) : Cleared digest s where
  counts := start_counts start
  lately a gen k e live := by cases (start.counters a gen k).symm.trans live
  past d := by
    rw [start.forgotten]
    exact Nat.zero_le _
  began c clears := by
    rw [start.idle] at clears
    rcases clears with ⟨_, same⟩ | ⟨_, _, same⟩ <;> cases same
  current subject a k _ alive := (alive (start.counters ..)).elim
  outlived subject a gen k e _ live := by cases (start.counters a gen k).symm.trans live

/-- What a call of `clearAttempts` has come to. -/
def Clears (digest : Text → Text) (c : ι) (subject : Text) (mark : ℕ) (s : State ι) : Prop :=
  (s.phase c = .clearing subject ∨ ∃ gen, s.phase c = .bumping subject gen) ∧ s.began c = mark ∨
    s.phase c = .cleared ∧ mark ≤ s.forgotten (digest subject)

omit [DecidableEq ι] in
theorem Clears.frame {s t : State ι} {c : ι} {subject : Text} (clears : Clears digest c subject mark s)
    (phase : t.phase c = s.phase c) (began : t.began c = s.began c)
    (forgotten : s.forgotten (digest subject) ≤ t.forgotten (digest subject)) : Clears digest c subject mark t := by
  unfold Clears at clears ⊢
  rw [phase, began]
  rcases clears with waits | ⟨done, late⟩
  · exact Or.inl waits
  · exact Or.inr ⟨done, late.trans forgotten⟩

omit [DecidableEq ι] in
theorem Clears.busy {s : State ι} {c : ι} {subject : Text} (clears : Clears digest c subject mark s) :
    s.phase c ≠ .idle ∧ (∀ a, s.phase c ≠ .reading a) ∧ ∀ a gen k, s.phase c ≠ .counting a gen k := by
  rcases clears with ⟨clearing | ⟨gen, bumping⟩, _⟩ | ⟨done, _⟩
  · rw [clearing]
    exact ⟨nofun, nofun, nofun⟩
  · rw [bumping]
    exact ⟨nofun, nofun, nofun⟩
  · rw [done]
    exact ⟨nofun, nofun, nofun⟩

theorem step_clears {s t : State ι} {e : Event ι} {c : ι} {subject : Text} (clears : Clears digest c subject mark s)
    (taken : step digest s e = some t) : Clears digest c subject mark t := by
  obtain ⟨called, unread, uncounted⟩ := clears.busy
  unfold step at taken
  split at taken
  · split at taken
    · rename_i idle
      obtain rfl := Option.some.inj taken
      refine clears.frame (Calls.move_other _ _ ?_) rfl (Nat.le_refl _)
      rintro rfl
      exact called idle
    · cases taken
  · split at taken
    · rename_i idle
      obtain rfl := Option.some.inj taken
      have differs : c ≠ _ := fun here => called (here ▸ idle)
      exact clears.frame (Calls.move_other _ _ differs) (Function.update_of_ne differs ..) (Nat.le_refl _)
    · cases taken
  · split at taken
    · rename_i a reading
      obtain rfl := Option.some.inj taken
      refine clears.frame (Calls.move_other _ _ ?_) rfl (Nat.le_refl _)
      rintro rfl
      exact unread a reading
    · rename_i c' call _ subject' clearing
      obtain rfl := Option.some.inj taken
      by_cases here : c = c'
      · subst here
        rcases clears with ⟨waits, began⟩ | ⟨done, _⟩
        · rcases waits with same | ⟨gen, bumping⟩
          · obtain rfl := Phase.clearing.inj (clearing.symm.trans same)
            exact Or.inl ⟨Or.inr ⟨_, Calls.move_self ..⟩, began⟩
          · cases clearing.symm.trans bumping
        · cases clearing.symm.trans done
      · exact clears.frame (Calls.move_other _ _ here) rfl (Nat.le_refl _)
    · cases taken
  · split at taken
    · rename_i a gen k counting
      obtain ⟨rfl, next⟩ := Option.ite_none_right_eq_some.mp taken
      obtain rfl := Option.some.inj next
      refine clears.frame (Calls.move_other _ _ ?_) rfl (Nat.le_refl _)
      rintro rfl
      exact uncounted a gen k counting
    · cases taken
  · split at taken
    · rename_i c' call _ subject' gen bumping
      obtain rfl := Option.some.inj taken
      by_cases here : c = c'
      · subst here
        rcases clears with ⟨waits, rfl⟩ | ⟨done, _⟩
        · rcases waits with clearing | ⟨gen', same⟩
          · cases bumping.symm.trans clearing
          · obtain ⟨rfl, _⟩ := Phase.bumping.inj (bumping.symm.trans same)
            refine Or.inr ⟨Calls.move_self .., ?_⟩
            dsimp only [stored, State.toPhase]
            rw [Function.update_self]
            exact Nat.le_max_right _ _
        · cases bumping.symm.trans done
      · refine clears.frame (Calls.move_other _ _ here) rfl ?_
        dsimp only [stored, State.toPhase]
        by_cases same : digest subject = digest subject'
        · rw [same, Function.update_self]
          exact Nat.le_max_left _ _
        · rw [Function.update_of_ne same]
    · cases taken
  · obtain rfl := Option.some.inj taken
    exact clears.frame rfl rfl (Nat.le_refl _)

/-- An attempt that was counted before a call of `clearAttempts` began is not counted in the window of a counter that answers
an attempt begun on the account after the call was done. -/
theorem cleared_stays_cleared {s₀ s₁ u s₂ s₃ : State ι} {es₁ es₂ es₃ : List (Event ι)} (start : Start digest s₀)
    (before : Runs.Run (step digest) (Unused digest) s₀ es₁ s₁) {c : ι} {subject : Text}
    (called : step digest s₁ (.clearAttempts c subject) = some u) (during : Runs.Run (step digest) (Unused digest) u es₂ s₂)
    (done : s₂.phase c = .cleared) (after : Runs.Run (step digest) (Unused digest) s₂ es₃ s₃) {x y : ι} {k k' : Counter}
    {r r' : Counted} (counted : s₁.counted x k = some r) (begins : s₂.phase y = .idle) {a : Attempt}
    (attempt : s₃.attempt y = some a) (same : digest a.subject = digest subject) (answered : s₃.counted y k' = some r') :
    ¬ (r.key = r'.key ∧ r.window = r'.window) := by
  have safe₁ := before.invariant step_cleared (start_cleared start)
  have safe := step_cleared safe₁ (e := .clearAttempts c subject) trivial called
  have safe₂ := during.invariant step_cleared safe
  have forgotten : s₁.serial ≤ s₂.forgotten (digest subject) := by
    have clears : Clears digest c subject s₁.serial u := by
      simp only [step] at called
      split at called
      · obtain rfl := Option.some.inj called
        exact Or.inl ⟨Or.inl (Calls.move_self ..), Function.update_self ..⟩
      · cases called
    rcases during.invariant (fun clears _ => step_clears clears) clears with ⟨waits, _⟩ | ⟨_, late⟩
    · rcases waits with clearing | ⟨gen, bumping⟩
      · cases done.symm.trans clearing
      · cases done.symm.trans bumping
    · exact late
  have since : Since digest (digest subject) s₁.serial y s₂ := by
    refine ⟨forgotten.trans (safe₂.past _), forgotten, ?_, ?_⟩
    · intro a gen k counting
      cases begins.symm.trans counting
    · intro a k r _ _ found
      cases (safe₂.counts.ahead y k (by rw [begins]; trivial)).symm.trans found
  have answer := (after.invariant_under (J := Cleared digest) (I := Since digest (digest subject) s₁.serial y) step_cleared
    (fun cleared since => since.step cleared) safe₂ since).counted a k' r' attempt same answered
  rintro ⟨_, window⟩
  have old := (safe₁.counts.answer x k r counted).1
  omega

theorem first_key_differs (a : Attempt) (k : Counter) : k.key id a (bump 0) ≠ Counter.here.key id fromAddress 0 := by
  intro same
  obtain ⟨rfl, kind⟩ := key_counter same
  simp only [Counter.key, lockoutKeys.accountAndIp, lockoutKeys.counter, kind, List.append_assoc] at same
  have rest := List.append_cancel_left (List.append_cancel_left (List.append_cancel_left same))
  exact absurd (Option.some.inj (congrArg List.head? rest)) (by decide)

/-- An attempt, a call that clears the account, and an attempt after it. -/
theorem cleared_stays_cleared_once : ∃ (s₁ s₃ : State ℕ) (r r' : Counted), s₁.counted 0 .here = some r ∧
    s₃.counted 2 .here = some r' ∧ ¬ (r.key = r'.key ∧ r.window = r'.window) := by
  have runs : ∃ s₁ u v s₂ s₃ : State ℕ,
      Runs.Run (step id) (Unused id) noAttempts [.admitAttempt 0 fromAddress, .generation 0 .ok, .increment 0 .here .ok] s₁ ∧
      step id s₁ (.clearAttempts 1 fromAddress.subject) = some u ∧ Runs.Run (step id) (Unused id) u [.generation 1 .ok] v ∧
      step id v (.set 1 .ok) = some s₂ ∧
      Runs.Run (step id) (Unused id) s₂ [.admitAttempt 2 fromAddress, .generation 2 .ok, .increment 2 .here .ok] s₃ ∧
      v.phase 1 = .bumping fromAddress.subject 0 ∧ v.store = s₁.store ∧
      s₁.store = ((Store.empty 0).count (Counter.here.key id fromAddress 0)
        (Counter.here.windowSeconds * 1000)).1 ∧ s₂.phase 1 = .cleared ∧ s₂.phase 2 = .idle ∧
      s₃.attempt 2 = some fromAddress ∧ (s₁.counted 0 .here).isSome ∧ (s₃.counted 2 .here).isSome :=
    ⟨_, _, _, _, _, .cons trivial rfl (.cons rfl rfl (.cons rfl rfl (.nil _))), rfl, .cons rfl rfl (.nil _), rfl,
      .cons trivial rfl (.cons rfl rfl (.cons rfl rfl (.nil _))), rfl, rfl, rfl, rfl, rfl, rfl, rfl, rfl⟩
  obtain ⟨s₁, u, v, s₂, s₃, before, called, reads, sets, after, bumping, store, live, done, begins,
    attempt, first, second⟩ := runs
  obtain ⟨r, counted⟩ := Option.isSome_iff_exists.mp first
  obtain ⟨r', answered⟩ := Option.isSome_iff_exists.mp second
  have unused : Unused id v (.set 1 .ok) := by
    refine ⟨rfl, fun subject gen same a k _ alive => ?_⟩
    obtain ⟨rfl, rfl⟩ := Phase.bumping.inj (bumping.symm.trans same)
    have counter : k.key id a (bump 0) = Counter.here.key id fromAddress 0 := by
      by_contra differs
      rw [store, live] at alive
      exact alive (Store.live_count_other _ _ differs)
    exact (first_key_differs a k counter).elim
  exact ⟨s₁, s₃, r, r', counted, answered, cleared_stays_cleared (noAttempts_start id) before called (reads.snoc unused sets) done
    after counted begins attempt rfl answered⟩

/-- The generation lapses thirty days after it was stored, and the next call stores it again: ten minutes later an attempt is
counted with one that was made before that call. -/
theorem lapsed_generation_restored :
    ¬ ∀ (s₀ s₁ u s₂ s₃ : State ℕ) (es₁ es₂ es₃ : List (Event ℕ)) (c x y : ℕ) (subject : Text)
    (k k' : Counter) (r r' : Counted) (a : Attempt), Start id s₀ → Runs.Run (step id) Working s₀ es₁ s₁ →
      step id s₁ (.clearAttempts c subject) = some u → Runs.Run (step id) Working u es₂ s₂ → s₂.phase c = .cleared →
      Runs.Run (step id) Working s₂ es₃ s₃ → s₁.counted x k = some r → s₂.phase y = .idle → s₃.attempt y = some a →
      id a.subject = id subject → s₃.counted y k' = some r' → ¬ (r.key = r'.key ∧ r.window = r'.window) := by
  intro forgets
  refine forgets noAttempts _ _ _ _
    [.clearAttempts 0 fromAddress.subject, .generation 0 .ok, .set 0 .ok, .advance (29 * 24 * 3600000 + 23 * 3600000 + 50 * 60000),
      .admitAttempt 1 fromAddress, .generation 1 .ok, .increment 1 .here .ok, .advance (10 * 60000)]
    [.generation 2 .ok, .set 2 .ok] [.admitAttempt 3 fromAddress, .generation 3 .ok, .increment 3 .here .ok] 2 1 3 fromAddress.subject
    .here .here ⟨lockoutKeys.accountAndIp id .signin 1 fromAddress.subject fromAddress.ip, 0, 1⟩
    ⟨lockoutKeys.accountAndIp id .signin 1 fromAddress.subject fromAddress.ip, 0, 2⟩ fromAddress (noAttempts_start id)
    (.cons trivial rfl (.cons rfl rfl (.cons rfl rfl (.cons trivial rfl (.cons trivial rfl (.cons rfl rfl (.cons rfl rfl
      (.cons trivial rfl (.nil _))))))))) rfl (.cons rfl rfl (.cons rfl rfl (.nil _))) rfl
    (.cons trivial rfl (.cons rfl rfl (.cons rfl rfl (.nil _)))) (by decide +kernel) rfl rfl rfl
    (by decide +kernel) ⟨rfl, rfl⟩

end Identity.Lockout
