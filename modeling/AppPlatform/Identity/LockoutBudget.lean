import AppPlatform.Identity.LockoutBounds
import Mathlib.Algebra.Order.BigOperators.Group.Finset

/-!
# The budget of all devices

A device spends the budget of its account by every attempt that its own limit lets through, five in each of
its own windows; a window of the budget may hold four of these and more.
-/

namespace Identity.Lockout
open Js KeyValue
variable {ι : Type*} {digest : Text → Text}

/-- The calls that are counted in the window of a key that is open. -/
def charges (s : State ι) (key : Text) : List ι := if (s.store.live key).isSome then s.charged key else []

/-- The store works, and all attempts but one are made with the cookie of one device. -/
def Alone (device : Text) (other : ι) (s : State ι) : Event ι → Prop
  | .admitAttempt c a => c ≠ other → a.device? = some device
  | e => Working s e

theorem Alone.working {device : Text} {other : ι} {s : State ι} {e : Event ι} (alone : Alone device other s e) : Working s e := by
  cases e with
  | admitAttempt c a => trivial
  | clearAttempts c subject => exact alone
  | generation c call => exact alone
  | increment c k call => exact alone
  | set c call => exact alone
  | advance ms => exact alone

structure Spent (digest : Text → Text) (device : Text) (other : ι) (s : State ι) : Prop where
  counts : Counts digest s
  nodup : ∀ a gen (k : Counter) e, s.store.live (k.key digest a gen) = some e → (s.charged (k.key digest a gen)).Nodup
  charged : ∀ a gen (k : Counter) e, s.store.live (k.key digest a gen) = some e → ∀ c ∈ s.charged (k.key digest a gen),
    CountedIn s c k (k.key digest a gen) (s.opened (k.key digest a gen))
  attempt : ∀ c a, s.attempt c = some a → c ≠ other → a.device? = some device

variable {device : Text} {other : ι}

/-- Counters may lapse, and calls go on. -/
theorem Spent.restore {s t : State ι} (spent : Spent digest device other s) (counts : Counts digest t)
    (fewer : ∀ a gen (k : Counter) e, t.store.live (k.key digest a gen) = some e → s.store.live (k.key digest a gen) = some e)
    (charged : t.charged = s.charged) (opened : t.opened = s.opened) (counted : t.counted = s.counted)
    (attempt : ∀ c a, t.attempt c = some a → c ≠ other → a.device? = some device) : Spent digest device other t := by
  refine ⟨counts, ?_, ?_, attempt⟩
  · intro a gen k e live
    rw [charged]
    exact spent.nodup a gen k e (fewer a gen k e live)
  · intro a gen k e live c member
    rw [charged] at member
    unfold CountedIn
    rw [opened, counted]
    exact spent.charged a gen k e (fewer a gen k e live) c member

variable [DecidableEq ι]

theorem incremented_spent {s : State ι} (spent : Spent digest device other s) {c : ι} {a : Attempt} {gen : ℕ} {k : Counter}
    (counting : s.phase c = .counting a gen k) : Spent digest device other (incremented digest s c a gen k .ok) := by
  obtain ⟨r, reply, _⟩ := incremented_reply spent.counts c a gen k
  have new : s.counted c k = none := spent.counts.ahead c k (by rw [counting]; exact Nat.le_refl _)
  have unlisted : ∀ a' gen' e, s.store.live (k.key digest a' gen') = some e → c ∉ s.charged (k.key digest a' gen') := by
    intro a' gen' e live member
    obtain ⟨r', found, _⟩ := spent.charged a' gen' k e live c member
    cases new.symm.trans found
  refine ⟨incremented_counts spent.counts counting, ?_, ?_, spent.attempt⟩
  · intro a' gen' k' e live
    by_cases here : k'.key digest a' gen' = k.key digest a gen
    · rw [here]
      rcases reply.joined with ⟨_, charged, _⟩ | ⟨alive, charged, _⟩
      · rw [charged]
        exact List.nodup_singleton c
      · obtain ⟨e₀, live₀⟩ := Option.ne_none_iff_exists'.mp alive
        rw [charged]
        refine List.nodup_append.mpr ⟨spent.nodup a gen k e₀ live₀, List.nodup_singleton c, ?_⟩
        intro c' member c'' single same
        obtain rfl := List.mem_singleton.mp single
        exact unlisted a gen e₀ live₀ (same ▸ member)
    · rw [reply.charged _ here]
      rw [reply.others _ here] at live
      exact spent.nodup a' gen' k' e live
  · intro a' gen' k' e live c' member
    by_cases here : k'.key digest a' gen' = k.key digest a gen
    · obtain ⟨rfl, _⟩ := key_counter here
      rw [here] at member ⊢
      rw [reply.opened, Function.update_self]
      by_cases own : c' = c
      · subst own
        exact ⟨r, reply.self, reply.asked, rfl⟩
      · rcases reply.joined with ⟨_, charged, _⟩ | ⟨alive, charged, window⟩
        · rw [charged] at member
          exact (own (List.mem_singleton.mp member)).elim
        · rw [charged] at member
          obtain ⟨e₀, live₀⟩ := Option.ne_none_iff_exists'.mp alive
          have old := (List.mem_append.mp member).resolve_right fun single => own (List.mem_singleton.mp single)
          obtain ⟨r', found, key, window'⟩ := spent.charged a gen k' e₀ live₀ c' old
          exact ⟨r', (reply.other fun same => own same.1).trans found, key, window'.trans window.symm⟩
    · rw [reply.charged _ here] at member
      rw [reply.others _ here] at live
      rw [reply.opened, Function.update_of_ne here]
      obtain ⟨r', found, key, window⟩ := spent.charged a' gen' k' e live c' member
      refine ⟨r', (reply.other ?_).trans found, key, window⟩
      rintro ⟨rfl, rfl⟩
      cases new.symm.trans found

theorem step_spent {s t : State ι} {e : Event ι} (spent : Spent digest device other s) (alone : Alone device other s e)
    (taken : step digest s e = some t) : Spent digest device other t := by
  have counts := step_counts spent.counts alone.working taken
  unfold step at taken
  split at taken
  · split at taken
    · rename_i c a _ _
      obtain rfl := Option.some.inj taken
      refine spent.restore counts (fun _ _ _ _ live => live) rfl rfl rfl ?_
      intro c' a' attempt differs
      by_cases own : c' = c
      · subst own
        have made : (admitAttempt s c' a).attempt c' = some a := Function.update_self ..
        obtain rfl := Option.some.inj (made.symm.trans attempt)
        exact alone differs
      · exact spent.attempt c' a' ((Function.update_of_ne own ..).symm.trans attempt) differs
    · cases taken
  · split at taken
    · obtain rfl := Option.some.inj taken
      exact spent.restore counts (fun _ _ _ _ live => live) rfl rfl rfl spent.attempt
    · cases taken
  · split at taken
    · obtain rfl := Option.some.inj taken
      exact spent.restore counts (fun _ _ _ _ live => live) rfl rfl rfl spent.attempt
    · obtain rfl := Option.some.inj taken
      exact spent.restore counts (fun _ _ _ _ live => live) rfl rfl rfl spent.attempt
    · cases taken
  · split at taken
    · rename_i counting
      obtain ⟨rfl, next⟩ := Option.ite_none_right_eq_some.mp taken
      obtain rfl := Option.some.inj next
      obtain rfl := alone
      exact incremented_spent spent counting
    · cases taken
  · split at taken
    · rename_i c call _ subject gen bumping
      obtain rfl := Option.some.inj taken
      obtain rfl := alone
      refine spent.restore counts (fun a gen' k e live => ?_) rfl rfl rfl spent.attempt
      exact (Store.live_set_other _ _ _ (key_ne_gen digest a gen' k subject)).symm.trans live
    · cases taken
  · obtain rfl := Option.some.inj taken
    exact spent.restore counts (fun _ _ _ _ left => (Store.live_of_advance left).1) rfl rfl rfl spent.attempt

/-! ### Whole runs -/

omit [DecidableEq ι] in
theorem start_spent {s : State ι} (start : Start digest s) : Spent digest device other s where
  counts := start_counts start
  nodup a gen k e live := by cases (start.counters a gen k).symm.trans live
  charged a gen k e live := by cases (start.counters a gen k).symm.trans live
  attempt c a attempt := by cases (start.attempt c).symm.trans attempt

omit [DecidableEq ι] in
/-- Those that are counted in a window of the budget were let through by their own counter. -/
theorem charges_within {s : State ι} (spent : Spent digest device other s) {a : Attempt} {gen : ℕ} {c : ι}
    (member : c ∈ charges s (Counter.together.key digest a gen)) : Within s c .mine ∧ (s.counted c .together).isSome := by
  unfold charges at member
  split at member
  · rename_i alive
    obtain ⟨e, live⟩ := Option.isSome_iff_exists.mp alive
    obtain ⟨r, found, _⟩ := spent.charged a gen .together e live c member
    have counted := Option.isSome_iff_exists.mpr ⟨r, found⟩
    exact ⟨spent.counts.mine c (Or.inr counted), counted⟩
  · cases member

omit [DecidableEq ι] in
theorem charges_windows {s : State ι} (spent : Spent digest device other s) (a : Attempt) (gen : ℕ)
    {windows : Finset (Text × ℕ)}
      (held : ∀ c ∈ charges s (Counter.together.key digest a gen), ∀ r, s.counted c .mine = some r →
      (r.key, r.window) ∈ windows) :
    (charges s (Counter.together.key digest a gen)).length ≤ windows.card * knownDevice.maxAttempts := by
  classical
  have nodup : (charges s (Counter.together.key digest a gen)).Nodup := by
    unfold charges
    split
    · rename_i alive
      obtain ⟨e, live⟩ := Option.isSome_iff_exists.mp alive
      exact spent.nodup a gen .together e live
    · exact List.nodup_nil
  let window : ι → Text × ℕ := fun c => ((s.counted c .mine).map fun r => (r.key, r.window)).getD ([], 0)
  have maps : ∀ c ∈ (charges s (Counter.together.key digest a gen)).toFinset, window c ∈ windows := by
    intro c member
    have member' := List.mem_toFinset.mp member
    obtain ⟨⟨r, found, _⟩, _⟩ := charges_within spent member'
    dsimp only [window]
    rw [found]
    exact held c member' r found
  have small : ∀ w ∈ windows, {c ∈ (charges s (Counter.together.key digest a gen)).toFinset | window c = w}.card ≤
      knownDevice.maxAttempts := by
    intro w _
    have calls := (Finset.nodup_toList {c ∈ (charges s (Counter.together.key digest a gen)).toFinset | window c = w})
    rw [← Finset.length_toList]
    have within : ∀ c ∈ {c ∈ (charges s (Counter.together.key digest a gen)).toFinset | window c = w}.toList,
        Within s c .mine ∧ CountedIn s c .mine w.1 w.2 := by
      intro c member
      obtain ⟨charged, same⟩ := Finset.mem_filter.mp (Finset.mem_toList.mp member)
      obtain ⟨⟨r, found, limit⟩, _⟩ := charges_within spent (List.mem_toFinset.mp charged)
      dsimp only [window] at same
      rw [found] at same
      subst same
      exact ⟨⟨r, found, limit⟩, r, found, rfl, rfl⟩
    exact window_bound spent.counts calls within
  have total := Finset.card_le_mul_card_image_of_maps_to maps knownDevice.maxAttempts small
  rw [List.toFinset_card_of_nodup nodup, Nat.mul_comm] at total
  exact total

/-- An attempt that its own limit lets through passes by the device path if and only if fewer than `accountMaxAttempts` attempts
of the other device are counted in the window of the budget that is open. These all passed that device's own limit, and in
three of its windows there are not so many. -/
theorem budget_left {s₀ s t : State ι} {es : List (Event ι)} (start : Start digest s₀)
    (run : Runs.Run (step digest) (Alone device other) s₀ es s) {a : Attempt} {gen : ℕ}
    (asks : s.phase other = .counting a gen .together) (taken : step digest s (.increment other .together .ok) = some t) :
    (t.phase other = .admitted .device 0 ↔
      (charges s (Counter.together.key digest a gen)).length < knownDevice.accountMaxAttempts) ∧
    (∀ c ∈ charges s (Counter.together.key digest a gen), Within s c .mine ∧
      ∃ a', s.attempt c = some a' ∧ a'.device? = some device) ∧
    (∀ windows : Finset (Text × ℕ), windows.card ≤ 3 → (∀ c ∈ charges s (Counter.together.key digest a gen), ∀ r,
      s.counted c .mine = some r → (r.key, r.window) ∈ windows) → t.phase other = .admitted .device 0) := by
  have spent : Spent digest device other s := run.invariant step_spent (start_spent start)
  have first : t.phase other = .admitted .device 0 ↔
      (charges s (Counter.together.key digest a gen)).length < knownDevice.accountMaxAttempts := by
    simp only [step, asks, if_true] at taken
    obtain rfl := Option.some.inj taken
    obtain ⟨r, reply, phase⟩ := incremented_reply spent.counts other a gen .together
    have length : r.n = (charges s (Counter.together.key digest a gen)).length + 1 := by
      unfold charges
      rw [← reply.length]
      rcases reply.joined with ⟨absent, charged, _⟩ | ⟨alive, charged, _⟩
      · rw [charged, absent]
        rfl
      · rw [charged, if_pos (Option.isSome_iff_ne_none.mpr alive), List.length_append, List.length_singleton]
    rw [phase, Function.update_self]
    have next := decision a gen .together r.n
    generalize decided a gen .together r.n = p at next
    cases next with
    | refused _ above =>
      have above' : knownDevice.accountMaxAttempts < r.n := above
      constructor
      · nofun
      · intro
        omega
    | device small =>
      have small' : r.n ≤ knownDevice.accountMaxAttempts := small
      exact ⟨fun _ => by omega, fun _ => rfl⟩
    | spent above =>
      have above' : knownDevice.accountMaxAttempts < r.n := above
      constructor
      · nofun
      · intro
        omega
  refine ⟨first, ?_, ?_⟩
  · intro c member
    obtain ⟨within, counted⟩ := charges_within spent member
    obtain ⟨r, found, _⟩ := id within
    obtain ⟨_, _, a', _, attempt, _⟩ := spent.counts.answer c .mine r found
    refine ⟨within, a', attempt, spent.attempt c a' attempt ?_⟩
    rintro rfl
    rw [spent.counts.ahead c .together (by rw [asks]; exact Nat.le_refl _)] at counted
    cases counted
  · intro windows few held
    refine first.mpr ((charges_windows spent a gen held).trans_lt ?_)
    calc windows.card * knownDevice.maxAttempts ≤ 3 * knownDevice.maxAttempts := Nat.mul_le_mul_right _ few
      _ < knownDevice.accountMaxAttempts := by decide

instance (device : Text) (other : ℕ) (s : State ℕ) : (e : Event ℕ) → Decidable (Alone device other s e)
  | .admitAttempt c a => inferInstanceAs (Decidable (c ≠ other → a.device? = some device))
  | .clearAttempts c subject => inferInstanceAs (Decidable (Working s (.clearAttempts c subject)))
  | .generation c call => inferInstanceAs (Decidable (Working s (.generation c call)))
  | .increment c k call => inferInstanceAs (Decidable (Working s (.increment c k call)))
  | .set c call => inferInstanceAs (Decidable (Working s (.set c call)))
  | .advance ms => inferInstanceAs (Decidable (Working s (.advance ms)))

def asksBudget (deviceId : Text) (c : ℕ) : List (Event ℕ) :=
  [.admitAttempt c { fromAddress with deviceId := some deviceId }, .generation c .ok, .increment c .mine .ok]

def spends (c : ℕ) : List (Event ℕ) := asksBudget (text "d") c ++ [.increment c .together .ok]

/-- After one attempt of another device. -/
theorem budget_left_once : ∃ s t : State ℕ, step id s (.increment 20 .together .ok) = some t ∧
    (charges s (Counter.together.key id { fromAddress with deviceId := some (text "e") } 0)).length = 1 ∧
    t.phase 20 = .admitted .device 0 := by
  have check : ∃ s ∈ Runs.exec (step id) (Alone (text "d") 20) noAttempts (spends 0 ++ asksBudget (text "e") 20),
      s.phase 20 = .counting { fromAddress with deviceId := some (text "e") } 0 .together ∧
      (charges s (Counter.together.key id { fromAddress with deviceId := some (text "e") } 0)).length = 1 ∧
      (step id s (.increment 20 .together .ok)).isSome := by decide +kernel
  obtain ⟨s, reached, asks, one, next⟩ := check
  obtain ⟨t, taken⟩ := Option.isSome_iff_exists.mp next
  refine ⟨s, t, taken, one, ?_⟩
  have left := (budget_left (noAttempts_start id) (Runs.Run.of_exec reached) asks taken).1
  exact left.mpr (by rw [one]; decide)

/-! ### A device that spends the whole budget -/

def ownDevice : Attempt := { fromAddress with deviceId := some (text "d") }

def otherDevice : Attempt := { fromAddress with deviceId := some (text "e") }

/-- `n` attempts of the device are counted in the open window of the budget and `m` in its own. -/
structure Spending (s : State ℕ) (c n m now lapses ends : ℕ) : Prop where
  idle : ∀ c', c ≤ c' → s.phase c' = .idle
  gen : s.store.get (lockoutKeys.gen id fromAddress.subject) = none
  now : s.store.now = now
  mine : s.store.live (Counter.mine.key id ownDevice 0) = if m = 0 then none else some ⟨m, some lapses⟩
  together : s.store.live (Counter.together.key id ownDevice 0) = if n = 0 then none else some ⟨n, some ends⟩
  other : s.store.live (Counter.mine.key id otherDevice 0) = none

theorem other_key : Counter.mine.key id otherDevice 0 ≠ Counter.mine.key id ownDevice 0 := by
  intro same
  have ids := List.append_cancel_left (List.append_cancel_left same)
  exact absurd ids (by decide)

theorem other_counter {a a' : Attempt} {gen gen' : ℕ} {k k' : Counter} (differs : k ≠ k') :
    k.key digest a gen ≠ k'.key digest a' gen' := fun same => differs (key_counter same).1

/-- The state in which an attempt by a device asks for the budget. -/
def asking (s : State ℕ) (c : ℕ) (a : Attempt) : State ℕ :=
  incremented id ((admitAttempt s c a).toPhase c (.counting a 0 .mine)) c a 0 .mine .ok

/-- An attempt that its own counter lets through comes to ask for the budget. -/
theorem asks_once {s : State ℕ} {c : ℕ} {deviceId : Text} (idle : s.phase c = .idle)
    (gen : s.store.get (lockoutKeys.gen id fromAddress.subject) = none)
    (known : { fromAddress with deviceId := some deviceId }.first = .mine)
    (alone : c ≠ 20 → { fromAddress with deviceId := some deviceId }.device? = some (text "d"))
    (own : (s.store.count (Counter.mine.key id { fromAddress with deviceId := some deviceId } 0)
      (Counter.mine.windowSeconds * 1000)).2 ≤ knownDevice.maxAttempts) :
    Runs.Run (step id) (Alone (text "d") 20) s (asksBudget deviceId c)
        (asking s c { fromAddress with deviceId := some deviceId }) ∧
      (asking s c { fromAddress with deviceId := some deviceId }).phase c =
        .counting { fromAddress with deviceId := some deviceId } 0 .together := by
  let a : Attempt := { fromAddress with deviceId := some deviceId }
  let s₁ := admitAttempt s c a
  let s₂ := s₁.toPhase c (.counting a 0 .mine)
  have admitted : step id s (.admitAttempt c a) = some s₁ := by simp only [step, idle, s₁]
  have reads : step id s₁ (.generation c .ok) = some s₂ := by
    have zero : generation id s₁.store fromAddress.subject .ok = 0 := congrArg (Option.getD · 0) gen
    have read : step id s₁ (.generation c .ok) =
        some (s₁.toPhase c (.counting a (generation id s₁.store fromAddress.subject .ok) a.first)) := by
      simp only [step, s₁, admitAttempt, Calls.move_self]
      rfl
    rw [read, zero, known]
  have counts : step id s₂ (.increment c .mine .ok) = some (asking s c a) := by
    simp only [step, s₂, s₁, Calls.move_self, if_true, asking]
  have next : (asking s c a).phase c = .counting a 0 .together := by
    have told : (asking s c a).phase c = decided a 0 .mine _ := Calls.move_self ..
    rw [told]
    exact if_neg (Nat.not_lt_of_le own)
  exact ⟨.cons alone admitted (.cons rfl reads (.cons rfl counts (.nil _))), next⟩

/-- An attempt that its own counter lets through is counted in the budget. -/
theorem spends_once {s : State ℕ} {c n m now lapses ends : ℕ} (spending : Spending s c n m now lapses ends)
    (own : m < knownDevice.maxAttempts) (first : m = 0 → lapses = now + 900000) (opens : n = 0 → ends = now + 3600000) :
    ∃ t, Runs.Run (step id) (Alone (text "d") 20) s (spends c) t ∧ Spending t (c + 1) (n + 1) (m + 1) now lapses ends := by
  obtain ⟨answer, live⟩ := Store.count_window (Counter.window_positive .mine) spending.mine fun fresh =>
    (first fresh).trans (congrArg (· + 900000) spending.now.symm)
  obtain ⟨asks, next⟩ := asks_once (spending.idle c (Nat.le_refl c)) spending.gen rfl (fun _ => rfl) (answer.trans_le own)
  let s₃ := asking s c ownDevice
  let s₄ := incremented id s₃ c ownDevice 0 .together .ok
  have now₃ : s₃.store.now = s.store.now := Store.count_now ..
  have shared : s₃.store.live (Counter.together.key id ownDevice 0) = if n = 0 then none else some ⟨n, some ends⟩ :=
    (incremented_elsewhere (other_counter (by decide))).trans spending.together
  obtain ⟨answer', live'⟩ := Store.count_window (Counter.window_positive .together) shared fun fresh =>
    (opens fresh).trans (congrArg (· + 3600000) (now₃.trans spending.now).symm)
  have counts : step id s₃ (.increment c .together .ok) = some s₄ := by
    have next' : s₃.phase c = .counting ownDevice 0 .together := next
    simp only [step, next', if_true, s₄]
  refine ⟨s₄, asks.append (.cons rfl counts (.nil _)), ?_⟩
  refine ⟨?_, ?_, ?_, ?_, ?_, ?_⟩
  · intro c' later
    have differs : c' ≠ c := by omega
    have same : s₄.phase c' = s.phase c' := by
      simp only [s₄, s₃, asking, incremented, admitAttempt, State.toPhase, Calls.move, Function.update_of_ne differs]
    rw [same]
    exact spending.idle c' (by omega)
  · have same : s₄.store.live (lockoutKeys.gen id fromAddress.subject) = s.store.live (lockoutKeys.gen id fromAddress.subject) :=
      (incremented_elsewhere (key_ne_gen id ownDevice 0 .together _).symm).trans
        (incremented_elsewhere (key_ne_gen id ownDevice 0 .mine _).symm)
    rw [Store.get, same]
    exact spending.gen
  · exact (Store.count_now ..).trans (now₃.trans spending.now)
  · exact (incremented_elsewhere (other_counter (by decide))).trans live
  · exact live'
  · exact (incremented_elsewhere (other_counter (by decide))).trans ((incremented_elsewhere other_key).trans spending.other)

theorem spends_several {s : State ℕ} {c n now ends : ℕ} (spending : Spending s c n 0 now (now + 900000) ends)
    (opens : n = 0 → ends = now + 3600000) {j : ℕ} (own : j ≤ knownDevice.maxAttempts) :
    ∃ t es, Runs.Run (step id) (Alone (text "d") 20) s es t ∧ Spending t (c + j) (n + j) j now (now + 900000) ends := by
  induction j with
  | zero => exact ⟨s, [], .nil s, spending⟩
  | succ j ih =>
    obtain ⟨t, es, run, spent⟩ := ih (Nat.le_of_succ_le own)
    obtain ⟨u, once, spent'⟩ := spends_once spent own (fun _ => rfl) fun fresh => opens (by omega)
    exact ⟨u, _, run.append once, spent'⟩

/-- The device's own window lapses, and that of the budget stays open. -/
theorem spends_pause {s : State ℕ} {c n m now ends : ℕ} (spending : Spending s c n m now (now + 900000) ends)
    (remains : now + 900000 < ends) :
    Spending { s with store := s.store.advance 900000 } c n 0 (now + 900000) (now + 900000 + 900000) ends := by
  refine ⟨spending.idle, ?_, congrArg (· + 900000) spending.now, ?_, ?_, ?_⟩
  · rcases s.store.get_advance 900000 (lockoutKeys.gen id fromAddress.subject) with same | gone
    · exact same.trans spending.gen
    · exact gone
  · rw [if_pos rfl]
    by_contra alive
    obtain ⟨e, left⟩ := Option.ne_none_iff_exists'.mp alive
    obtain ⟨found, before⟩ := Store.live_of_advance left
    rw [spending.mine] at found
    obtain ⟨_, same⟩ := Option.ite_none_left_eq_some.mp found
    obtain rfl := Option.some.inj same
    have earlier := before _ rfl
    rw [spending.now] at earlier
    exact Nat.lt_irrefl _ earlier
  · have kept := spending.together
    rw [← spending.now] at remains
    by_cases fresh : n = 0
    · rw [if_pos fresh] at kept ⊢
      rcases s.store.live_advance 900000 (Counter.together.key id ownDevice 0) with same | gone
      · exact same.trans kept
      · exact gone
    · rw [if_neg fresh] at kept ⊢
      exact Store.live_advance_of kept rfl remains
  · rcases s.store.live_advance 900000 (Counter.mine.key id otherDevice 0) with same | gone
    · exact same.trans spending.other
    · exact gone

theorem noAttempts_spending : Spending noAttempts 0 0 0 0 900000 3600000 :=
  ⟨fun _ _ => rfl, rfl, rfl, rfl, rfl, rfl⟩

/-- Five attempts in each of four windows. -/
theorem spends_all : ∃ s es, Runs.Run (step id) (Alone (text "d") 20) noAttempts es s ∧
    Spending s 20 20 5 2700000 3600000 3600000 := by
  obtain ⟨t₁, es₁, run₁, spent₁⟩ := spends_several noAttempts_spending (fun _ => rfl) (j := 5) (by decide)
  have pause₁ := spends_pause spent₁ (by decide)
  obtain ⟨t₂, es₂, run₂, spent₂⟩ := spends_several pause₁ nofun (j := 5) (by decide)
  have pause₂ := spends_pause spent₂ (by decide)
  obtain ⟨t₃, es₃, run₃, spent₃⟩ := spends_several pause₂ nofun (j := 5) (by decide)
  have pause₃ := spends_pause spent₃ (by decide)
  obtain ⟨t₄, es₄, run₄, spent₄⟩ := spends_several pause₃ nofun (j := 5) (by decide)
  have passes : ∀ t, Alone (text "d") 20 t (.advance 900000) := fun _ => trivial
  exact ⟨t₄, _, (run₁.snoc (passes t₁) rfl).append
    ((run₂.snoc (passes t₂) rfl).append ((run₃.snoc (passes t₃) rfl).append run₄)),
    spent₄⟩

/-- Twenty attempts of one device, five in each of four windows of its own, leave nothing to another within the hour. -/
theorem device_spends_budget :
    ¬ ∀ (s₀ s t : State ℕ) (es : List (Event ℕ)) (device : Text) (other : ℕ) (a : Attempt) (gen : ℕ),
    Start id s₀ → Runs.Run (step id) (Alone device other) s₀ es s → s.phase other = .counting a gen .together →
      a.device? ≠ some device → step id s (.increment other .together .ok) = some t → t.phase other = .admitted .device 0 := by
  obtain ⟨s, es, run, spending⟩ := spends_all
  intro passes
  obtain ⟨answer, _⟩ := Store.count_absent (Counter.window_positive .mine) spending.other
  obtain ⟨asks, next⟩ := asks_once (spending.idle 20 (Nat.le_refl _)) spending.gen rfl (fun own => absurd rfl own)
    (answer.trans_le (by decide))
  let s₃ := asking s 20 otherDevice
  let s₄ := incremented id s₃ 20 otherDevice 0 .together .ok
  have shared : s₃.store.live (Counter.together.key id otherDevice 0) = some ⟨20, some 3600000⟩ :=
    (incremented_elsewhere (other_counter (by decide))).trans spending.together
  obtain ⟨answer', _⟩ := Store.count_present (Counter.together.windowSeconds * 1000) shared (by decide)
  have counts : step id s₃ (.increment 20 .together .ok) = some s₄ := by
    have next' : s₃.phase 20 = .counting otherDevice 0 .together := next
    simp only [step, next', if_true, s₄]
  have strays : s₄.phase 20 = .counting otherDevice 0 .here := by
    have told : s₄.phase 20 = decided otherDevice 0 .together _ := Calls.move_self ..
    rw [told]
    refine if_neg (Nat.not_le_of_lt ?_)
    exact Nat.lt_of_lt_of_eq (by decide : knownDevice.accountMaxAttempts < 20 + 1) answer'.symm
  have passed := passes noAttempts s₃ s₄ _ (text "d") 20 otherDevice 0 (noAttempts_start id) (run.append asks) next (by decide)
    counts
  cases strays.symm.trans passed

end Identity.Lockout
