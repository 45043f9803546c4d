import AppPlatform.Identity.LockoutBounds

/-!
# Strangers and known devices

Two runs are compared that differ in the attempts of strangers, which carry no valid cookie. What a known
device is answered before the address path depends on the generation and on its own counters, and no stranger
writes these.
-/

namespace Identity.Lockout
open Js KeyValue
variable {ι : Type*} {digest : Text → Text} {stranger : ι → Bool}

def Counter.ofDevice : Counter → Bool
  | .mine => true
  | .together => true
  | .here => false
  | .total => false

/-- What both runs have: all but the attempts of strangers and the commands of the address path. -/
def kept (stranger : ι → Bool) : Event ι → Bool
  | .admitAttempt c _ => !stranger c
  | .generation c _ => !stranger c
  | .increment c k _ => !stranger c && k.ofDevice
  | .clearAttempts .. => true
  | .set .. => true
  | .advance _ => true

/-- Strangers make attempts without a valid cookie. -/
def Strange (stranger : ι → Bool) (_ : State ι) : Event ι → Prop
  | .admitAttempt c a => stranger c = true → a.device? = none
  | .clearAttempts c _ => stranger c = false
  | _ => True

/-- The attempt is past the device path, or was never on it. -/
def Phase.strayed : Phase → Prop
  | .counting _ _ k => k.ofDevice = false
  | .refused => True
  | .admitted .address _ => True
  | _ => False

def Phase.outside : Phase → Prop
  | .idle => True
  | .reading a => a.device? = none
  | p => p.strayed

theorem Phase.outside_of_strayed {p : Phase} (strayed : p.strayed) : p.outside := by
  cases p with
  | counting a gen k => exact strayed
  | admitted path ms => exact strayed
  | idle => trivial
  | reading a => exact False.elim strayed
  | refused => trivial
  | clearing subject => exact strayed
  | bumping subject gen => exact strayed
  | cleared => exact strayed

/-- The same phase, or both off the device path. -/
def Alike (p q : Phase) : Prop := p = q ∨ p.strayed ∧ q.strayed

theorem Alike.eq {p q : Phase} (alike : Alike p q) (on : ¬ q.strayed) : p = q :=
  alike.resolve_right fun both => on both.2

structure Same (digest : Text → Text) (stranger : ι → Bool) (s t : State ι) : Prop where
  now : s.store.now = t.store.now
  gen : ∀ subject, s.store.live (lockoutKeys.gen digest subject) = t.store.live (lockoutKeys.gen digest subject)
  devices : ∀ a gen (k : Counter), k.ofDevice = true → s.store.live (k.key digest a gen) = t.store.live (k.key digest a gen)
  phase : ∀ c, stranger c = false → Alike (s.phase c) (t.phase c)
  outside : ∀ c, stranger c = true → (s.phase c).outside ∧ (t.phase c).outside
  answers : ∀ c (k : Counter), stranger c = false → k.ofDevice = true →
    (s.counted c k).map Counted.n = (t.counted c k).map Counted.n

theorem Same.symm {s t : State ι} (same : Same digest stranger s t) : Same digest stranger t s := by
  refine ⟨same.now.symm, fun subject => (same.gen subject).symm, fun a gen k device => (same.devices a gen k device).symm, ?_,
    fun c strange => (same.outside c strange).symm, fun c k known device => (same.answers c k known device).symm⟩
  intro c known
  rcases same.phase c known with here | ⟨left, right⟩
  · exact Or.inl here.symm
  · exact Or.inr ⟨right, left⟩

theorem generation_congr {s t : State ι} (same : Same digest stranger s t) (subject : Text) (call : Call) :
    generation digest s.store subject call = generation digest t.store subject call := by
  unfold generation Store.get
  rw [same.gen]

/-! ### Steps of one run -/

variable [DecidableEq ι]

theorem strayed_next {a : Attempt} {gen n : ℕ} {k : Counter} (address : k.ofDevice = false) : (decided a gen k n).strayed := by
  have next := decision a gen k n
  generalize decided a gen k n = p at next
  cases next with
  | refused => trivial
  | together => cases address
  | device => cases address
  | spent => cases address
  | total => rfl
  | address => trivial

/-- A call moves on in one run. -/
theorem Same.move {s s' t : State ι} (same : Same digest stranger s t) {c : ι} {p : Phase} (now : s'.store.now = s.store.now)
    (gen : ∀ subject, s'.store.live (lockoutKeys.gen digest subject) = s.store.live (lockoutKeys.gen digest subject))
    (devices : ∀ a gen (k : Counter), k.ofDevice = true → s'.store.live (k.key digest a gen) = s.store.live (k.key digest a gen))
    (phase : s'.phase = Function.update s.phase c p)
      (answers : ∀ c' (k : Counter), k.ofDevice = true → s'.counted c' k = s.counted c' k)
    (strange : stranger c = true → p.outside) (known : stranger c = false → (s.phase c).strayed ∧ p.strayed) :
    Same digest stranger s' t := by
  refine ⟨now.trans same.now, fun subject => (gen subject).trans (same.gen subject), ?_, ?_, ?_, ?_⟩
  · exact fun a gen' k device => (devices a gen' k device).trans (same.devices a gen' k device)
  · intro c' known'
    rw [phase]
    by_cases here : c' = c
    · subst here
      rw [Function.update_self]
      obtain ⟨before, after⟩ := known known'
      rcases same.phase c' known' with equal | ⟨_, right⟩
      · exact Or.inr ⟨after, equal ▸ before⟩
      · exact Or.inr ⟨after, right⟩
    · rw [Function.update_of_ne here]
      exact same.phase c' known'
  · intro c' strange'
    rw [phase]
    by_cases here : c' = c
    · subst here
      rw [Function.update_self]
      exact ⟨strange strange', (same.outside c' strange').2⟩
    · rw [Function.update_of_ne here]
      exact same.outside c' strange'
  · intro c' k known' device
    rw [answers c' k device]
    exact same.answers c' k known' device

/-- A call of a stranger, or on the address path, changes neither generations nor the counters of devices. -/
theorem Same.left {s s' t : State ι} {e : Event ι} (same : Same digest stranger s t) (other : kept stranger e = false)
    (strange : Strange stranger s e) (taken : step digest s e = some s') : Same digest stranger s' t := by
  cases e with
  | clearAttempts c subject => cases other
  | set c call => cases other
  | advance ms => cases other
  | admitAttempt c a =>
    have here : stranger c = true := by simpa [kept] using other
    simp only [step] at taken
    split at taken
    · obtain rfl := Option.some.inj taken
      refine same.move rfl (fun _ => rfl) (fun _ _ _ _ => rfl) rfl (fun _ _ _ => rfl) (fun _ => strange here) fun known => ?_
      cases known.symm.trans here
    · cases taken
  | generation c call =>
    have here : stranger c = true := by simpa [kept] using other
    have outside := (same.outside c here).1
    simp only [step] at taken
    split at taken
    · rename_i a reading
      obtain rfl := Option.some.inj taken
      rw [reading] at outside
      refine same.move rfl (fun _ => rfl) (fun _ _ _ _ => rfl) rfl (fun _ _ _ => rfl) (fun _ => ?_) fun known => ?_
      · have plain : a.device? = none := outside
        simp only [Attempt.first, plain, Option.isSome_none, Bool.false_eq_true, if_false]
        rfl
      · cases known.symm.trans here
    · rename_i clearing
      rw [clearing] at outside
      exact False.elim outside
    · cases taken
  | increment c k call =>
    simp only [step] at taken
    split at taken
    · rename_i a gen k' counting
      obtain ⟨rfl, next⟩ := Option.ite_none_right_eq_some.mp taken
      obtain rfl := Option.some.inj next
      have address : k'.ofDevice = false := by
        cases strange' : stranger c with
        | false => simpa [kept, strange'] using other
        | true =>
          have outside := (same.outside c strange').1
          rw [counting] at outside
          exact outside
      have strayed : (s.phase c).strayed := by
        rw [counting]
        exact address
      refine same.move (incremented_now ..) (fun subject => incremented_elsewhere (key_ne_gen digest a gen k' subject).symm) ?_ rfl ?_
        (fun _ => Phase.outside_of_strayed (strayed_next address)) fun _ => ⟨strayed, strayed_next address⟩
      · intro a' gen' k device
        refine incremented_elsewhere fun keys => ?_
        rw [(key_counter keys).1, address] at device
        cases device
      · intro c' k device
        dsimp only [incremented, State.toPhase]
        have differs : k ≠ k' := by
          rintro rfl
          cases address.symm.trans device
        by_cases own : c' = c
        · subst own
          rw [Function.update_self, Function.update_of_ne differs]
        · rw [Function.update_of_ne own]
    · cases taken

/-! ### Steps of both runs -/

/-- The same call moves on in both. -/
theorem Same.both {s s' t t' : State ι} (same : Same digest stranger s t) {c : ι} {p : Phase} (now : s'.store.now = t'.store.now)
    (gen : ∀ subject, s'.store.live (lockoutKeys.gen digest subject) = t'.store.live (lockoutKeys.gen digest subject))
    (devices : ∀ a gen (k : Counter), k.ofDevice = true → s'.store.live (k.key digest a gen) = t'.store.live (k.key digest a gen))
    (left : s'.phase = Function.update s.phase c p) (right : t'.phase = Function.update t.phase c p)
    (answers : ∀ c' (k : Counter), stranger c' = false → k.ofDevice = true →
      (s'.counted c' k).map Counted.n = (t'.counted c' k).map Counted.n) (known : stranger c = false) :
    Same digest stranger s' t' := by
  refine ⟨now, gen, devices, ?_, ?_, answers⟩
  · intro c' known'
    rw [left, right]
    by_cases here : c' = c
    · subst here
      rw [Function.update_self, Function.update_self]
      exact Or.inl rfl
    · rw [Function.update_of_ne here, Function.update_of_ne here]
      exact same.phase c' known'
  · intro c' strange
    have here : c' ≠ c := by
      rintro rfl
      cases strange.symm.trans known
    rw [left, right, Function.update_of_ne here, Function.update_of_ne here]
    exact same.outside c' strange

omit [DecidableEq ι] in
/-- A command of the device path is answered the same. -/
theorem increment_congr {s t : State ι} (same : Same digest stranger s t) (a : Attempt) (gen : ℕ) {k : Counter}
    (device : k.ofDevice = true) (call : Call) {key : Text} (live : s.store.live key = t.store.live key) :
    (increment s.store (k.key digest a gen) k.windowSeconds call).2 = (increment t.store (k.key digest a gen) k.windowSeconds call).2 ∧
      (increment s.store (k.key digest a gen) k.windowSeconds call).1.live key =
        (increment t.store (k.key digest a gen) k.windowSeconds call).1.live key := by
  have counted := Store.count_congr (same.devices a gen k device) live same.now (k.windowSeconds * 1000)
  cases call with
  | lost => exact ⟨rfl, live⟩
  | unanswered => exact ⟨rfl, counted.2⟩
  | ok => exact counted

theorem Same.step {s s' t t' : State ι} {e : Event ι} (same : Same digest stranger s t) (both : kept stranger e = true)
    (strange : Strange stranger s e) (taken : step digest s e = some s') (taken' : step digest t e = some t') :
    Same digest stranger s' t' := by
  cases e with
  | admitAttempt c a =>
    have known : stranger c = false := by simpa [kept] using both
    simp only [Lockout.step] at taken taken'
    split at taken
    · split at taken'
      · obtain rfl := Option.some.inj taken
        obtain rfl := Option.some.inj taken'
        exact same.both same.now same.gen same.devices rfl rfl same.answers known
      · cases taken'
    · cases taken
  | clearAttempts c subject =>
    simp only [Lockout.step] at taken taken'
    split at taken
    · split at taken'
      · obtain rfl := Option.some.inj taken
        obtain rfl := Option.some.inj taken'
        exact same.both same.now same.gen same.devices rfl rfl same.answers strange
      · cases taken'
    · cases taken
  | generation c call =>
    have known : stranger c = false := by simpa [kept] using both
    simp only [Lockout.step] at taken taken'
    have alike := same.phase c known
    split at taken'
    · rename_i a reading
      obtain rfl := Option.some.inj taken'
      rw [reading] at alike
      have reading' := alike.eq fun strayed => strayed
      rw [reading'] at taken
      obtain rfl := Option.some.inj taken
      rw [generation_congr same]
      exact same.both same.now same.gen same.devices rfl rfl same.answers known
    · rename_i subject clearing
      obtain rfl := Option.some.inj taken'
      rw [clearing] at alike
      have clearing' := alike.eq fun strayed => strayed
      rw [clearing'] at taken
      obtain rfl := Option.some.inj taken
      rw [generation_congr same]
      exact same.both same.now same.gen same.devices rfl rfl same.answers known
    · cases taken'
  | increment c k call =>
    have both' : stranger c = false ∧ k.ofDevice = true := by simpa [kept] using both
    obtain ⟨known, device⟩ := both'
    simp only [Lockout.step] at taken taken'
    have alike := same.phase c known
    split at taken'
    · rename_i a gen k' counting
      obtain ⟨rfl, next'⟩ := Option.ite_none_right_eq_some.mp taken'
      obtain rfl := Option.some.inj next'
      rw [counting] at alike
      have counting' := alike.eq fun strayed => by
        have address : k'.ofDevice = false := strayed
        cases address.symm.trans device
      rw [counting'] at taken
      obtain ⟨_, next⟩ := Option.ite_none_right_eq_some.mp taken
      obtain rfl := Option.some.inj next
      have answer := (increment_congr same a gen device call (same.devices a gen k' device)).1
      refine same.both ?_ ?_ ?_ rfl ?_ ?_ known
      · rw [incremented_now, incremented_now, same.now]
      · exact fun subject => (increment_congr same a gen device call (same.gen subject)).2
      · exact fun a' gen' k device' => (increment_congr same a gen device call (same.devices a' gen' k device')).2
      · dsimp only [incremented, State.toPhase]
        rw [answer]
        rfl
      · intro c' k known' device'
        dsimp only [incremented, State.toPhase]
        by_cases own : c' = c
        · subst own
          rw [Function.update_self, Function.update_self]
          by_cases here : k = k'
          · subst here
            rw [Function.update_self, Function.update_self]
            exact congrArg some answer
          · rw [Function.update_of_ne here, Function.update_of_ne here]
            exact same.answers c' k known' device'
        · rw [Function.update_of_ne own, Function.update_of_ne own]
          exact same.answers c' k known' device'
    · cases taken'
  | set c call =>
    simp only [Lockout.step] at taken taken'
    split at taken'
    · rename_i subject gen bumping
      obtain rfl := Option.some.inj taken'
      have known : stranger c = false := by
        by_contra strange'
        have outside := (same.outside c (Bool.eq_true_of_not_eq_false strange')).2
        rw [bumping] at outside
        exact outside
      have alike := same.phase c known
      rw [bumping] at alike
      rw [alike.eq fun strayed => strayed] at taken
      obtain rfl := Option.some.inj taken
      have stores : ∀ key, s.store.live key = t.store.live key →
          (stored digest s c subject gen call).store.live key = (stored digest t c subject gen call).store.live key := by
        intro key live
        unfold stored Call.apply
        dsimp only [State.toPhase]
        split
        · exact live
        · exact Store.live_set_congr live same.now _ _
      refine same.both ?_ (fun subject => stores _ (same.gen subject)) (fun a gen k device => stores _ (same.devices a gen k device))
        rfl rfl same.answers known
      unfold stored Call.apply
      dsimp only [State.toPhase]
      split
      · exact same.now
      · exact same.now
    · cases taken'
  | advance ms =>
    obtain rfl := Option.some.inj taken
    obtain rfl := Option.some.inj taken'
    refine ⟨congrArg (· + ms) same.now, fun subject => Store.live_advance_congr (same.gen subject) same.now ms, ?_, same.phase,
      same.outside, same.answers⟩
    exact fun a gen k device => Store.live_advance_congr (same.devices a gen k device) same.now ms

/-! ### What a shared budget decides -/

/-- What the counter of all devices answers decides whether the attempt passes by the device path. -/
def Judged (s : State ι) : Prop :=
  ∀ c r, s.counted c .together = some r → r.n ≤ Counter.together.limit ∧ s.phase c = .admitted .device 0 ∨
    Counter.together.limit < r.n ∧ (s.phase c).strayed

theorem Judged.move {s : State ι} (judged : Judged s) {t : State ι} {c : ι} {p : Phase}
    (phase : t.phase = Function.update s.phase c p)
    (counted : ∀ c', t.counted c' .together = s.counted c' .together) (early : s.phase c ≠ .admitted .device 0)
    (strayed : (s.phase c).strayed → p.strayed) : Judged t := by
  intro c' r found
  rw [counted] at found
  rw [phase]
  by_cases here : c' = c
  · subst here
    rw [Function.update_self]
    rcases judged c' r found with ⟨_, admitted⟩ | ⟨above, off⟩
    · exact (early admitted).elim
    · exact Or.inr ⟨above, strayed off⟩
  · rw [Function.update_of_ne here]
    exact judged c' r found

theorem step_judged {s t : State ι} {e : Event ι} (judged : Judged s) (taken : step digest s e = some t) : Judged t := by
  unfold step at taken
  split at taken
  · split at taken
    · rename_i idle
      obtain rfl := Option.some.inj taken
      exact judged.move rfl (fun _ => rfl) (by rw [idle]; nofun) (by rw [idle]; exact False.elim)
    · cases taken
  · split at taken
    · rename_i idle
      obtain rfl := Option.some.inj taken
      exact judged.move rfl (fun _ => rfl) (by rw [idle]; nofun) (by rw [idle]; exact False.elim)
    · cases taken
  · split at taken
    · rename_i reading
      obtain rfl := Option.some.inj taken
      exact judged.move rfl (fun _ => rfl) (by rw [reading]; nofun) (by rw [reading]; exact False.elim)
    · rename_i clearing
      obtain rfl := Option.some.inj taken
      exact judged.move rfl (fun _ => rfl) (by rw [clearing]; nofun) (by rw [clearing]; exact False.elim)
    · cases taken
  · split at taken
    · rename_i c k call _ a gen k' counting
      obtain ⟨rfl, next⟩ := Option.ite_none_right_eq_some.mp taken
      obtain rfl := Option.some.inj next
      by_cases here : k' = .together
      · subst here
        intro c' r found
        by_cases own : c' = c
        · subst own
          dsimp only [incremented, State.toPhase] at found ⊢
          rw [Function.update_self, Function.update_self] at found
          obtain rfl := Option.some.inj found
          rw [Calls.move_self]
          generalize increment s.store _ _ call = reply
          have next := decision a gen .together reply.2
          generalize decided a gen .together reply.2 = p at next
          cases next with
          | refused _ above => exact Or.inr ⟨above, trivial⟩
          | device small => exact Or.inl ⟨small, rfl⟩
          | spent above => exact Or.inr ⟨above, rfl⟩
        · dsimp only [incremented, State.toPhase] at found ⊢
          rw [Function.update_of_ne own] at found
          rw [Calls.move_other _ _ own]
          exact judged c' r found
      · refine judged.move rfl ?_ (by rw [counting]; nofun) ?_
        · intro c'
          dsimp only [incremented, State.toPhase]
          by_cases own : c' = c
          · subst own
            rw [Function.update_self, Function.update_of_ne fun same => here same.symm]
          · rw [Function.update_of_ne own]
        · rw [counting]
          exact strayed_next
    · cases taken
  · split at taken
    · rename_i bumping
      obtain rfl := Option.some.inj taken
      exact judged.move rfl (fun _ => rfl) (by rw [bumping]; nofun) (by rw [bumping]; exact False.elim)
    · cases taken
  · obtain rfl := Option.some.inj taken
    exact judged

/-- No call has begun; the store may hold anything. -/
structure Uncalled (s : State ι) : Prop where
  idle : ∀ c, s.phase c = .idle
  counted : ∀ c k, s.counted c k = none

omit [DecidableEq ι] in
theorem uncalled_same {s : State ι} (uncalled : Uncalled s) : Same digest stranger s s := by
  refine ⟨rfl, fun _ => rfl, fun _ _ _ _ => rfl, fun _ _ => Or.inl rfl, fun c _ => ?_, fun _ _ _ _ => rfl⟩
  rw [uncalled.idle]
  exact ⟨trivial, trivial⟩

omit [DecidableEq ι] in
theorem uncalled_judged {s : State ι} (uncalled : Uncalled s) : Judged s := by
  intro c r found
  cases (uncalled.counted c .together).symm.trans found

/-- Of two runs that differ in the attempts of strangers only, an attempt by a known device that is within its own limit, and so
asks for the budget of all devices, and is within this budget in one run is admitted by the device path, without a delay, in
both; its counters answer the same. -/
theorem strangers_change_nothing {s₀ s t : State ι} {es fs : List (Event ι)} (uncalled : Uncalled s₀)
    (run : Runs.Run (step digest) (Strange stranger) s₀ es s) (run' : Runs.Run (step digest) (Strange stranger) s₀ fs t)
    (same : es.filter (kept stranger) = fs.filter (kept stranger)) {c : ι} (known : stranger c = false) {together : Counted}
    (asked : s.counted c .together = some together) (left : together.n ≤ knownDevice.accountMaxAttempts) :
    s.phase c = .admitted .device 0 ∧ t.phase c = .admitted .device 0 ∧
      ∀ k : Counter, k.ofDevice = true → (s.counted c k).map Counted.n = (t.counted c k).map Counted.n := by
  have alike : Same digest stranger s t := by
    refine Runs.Run.matched (R := Same digest stranger) ?_ ?_ ?_ run run' same (uncalled_same uncalled)
    · exact fun same other strange taken => same.left other strange taken
    · exact fun same other strange taken => (same.symm.left other strange taken).symm
    · exact fun same both strange _ taken taken' => same.step both strange taken taken'
  have judged := run.invariant (fun judged _ taken => step_judged judged taken) (uncalled_judged uncalled)
  have admitted : s.phase c = .admitted .device 0 := by
    rcases judged c together asked with ⟨_, admitted⟩ | ⟨above, _⟩
    · exact admitted
    · exact absurd left (Nat.not_le_of_lt above)
  refine ⟨admitted, ?_, fun k device => alike.answers c k known device⟩
  rcases alike.phase c known with equal | ⟨strayed, _⟩
  · exact equal.symm.trans admitted
  · rw [admitted] at strayed
    exact False.elim strayed

def fromDevice (deviceId : Text) : Attempt := { fromAddress with deviceId := some deviceId }

/-- A device is admitted, with a stranger's attempt before its own and without. -/
theorem strangers_change_nothing_once : ∃ s t : State ℕ, s.phase 0 = .admitted .device 0 ∧ t.phase 0 = .admitted .device 0 ∧
    t.counted 1 .here ≠ none := by
  have runs : ∃ s t : State ℕ,
      Runs.Run (step id) (Strange (· == 1)) noAttempts [.admitAttempt 0 (fromDevice (text "d")), .generation 0 .ok,
        .increment 0 .mine .ok, .increment 0 .together .ok] s ∧
      Runs.Run (step id) (Strange (· == 1)) noAttempts [.admitAttempt 1 fromAddress, .generation 1 .ok, .increment 1 .here .ok,
        .admitAttempt 0 (fromDevice (text "d")), .generation 0 .ok, .increment 0 .mine .ok, .increment 0 .together .ok] t ∧
      s.counted 0 .together = some ⟨Counter.together.key id (fromDevice (text "d")) 0, 1, 1⟩ ∧ t.counted 1 .here ≠ none :=
    ⟨_, _, .cons nofun rfl (.cons trivial rfl (.cons trivial rfl (.cons trivial rfl (.nil _)))),
      .cons (fun _ => rfl) rfl (.cons trivial rfl (.cons trivial rfl (.cons nofun rfl (.cons trivial rfl (.cons trivial rfl
        (.cons trivial rfl (.nil _))))))), rfl, nofun⟩
  obtain ⟨s, t, run, run', asked, counted⟩ := runs
  obtain ⟨admitted, admitted', _⟩ := strangers_change_nothing ⟨fun _ => rfl, fun _ _ => rfl⟩ run run' rfl rfl asked (by decide)
  exact ⟨s, t, admitted, admitted', counted⟩

end Identity.Lockout
