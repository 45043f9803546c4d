import AppPlatform.Identity.Lockout
import Mathlib.Data.Finset.Card
import Mathlib.Order.Interval.Finset.Nat

/-!
# How many attempts are let through

The calls that a counter's window counts are answered different numbers, and those that pass are answered at
most the limit.
-/

namespace Identity.Lockout
open Js KeyValue

def Counter.tag : Counter → Text
  | .mine => text ":dev:"
  | .together => text ":devs:"
  | .here => text ":ip:"
  | .total => text ":acct:"

theorem key_shape (digest : Text → Text) (a : Attempt) (gen : ℕ) (k : Counter) :
    ∃ tail, k.key digest a gen = text "lockout:" ++ (a.kind.text ++ (k.tag ++ tail)) := by
  cases k with
  | mine => exact ⟨natText gen ++ (text ":" ++ digest a.subject) ++ (text ":" ++ a.device?.getD []), by
      simp only [Counter.key, lockoutKeys.device, lockoutKeys.counter, Counter.tag, List.append_assoc]⟩
  | together => exact ⟨natText gen ++ (text ":" ++ digest a.subject), rfl⟩
  | here => exact ⟨natText gen ++ (text ":" ++ digest a.subject) ++ (text ":" ++ a.ip), by
      simp only [Counter.key, lockoutKeys.accountAndIp, lockoutKeys.counter, Counter.tag, List.append_assoc]⟩
  | total => exact ⟨natText gen ++ (text ":" ++ digest a.subject), rfl⟩

theorem key_ne_gen (digest : Text → Text) (a : Attempt) (gen : ℕ) (k : Counter) (subject : Text) :
    k.key digest a gen ≠ lockoutKeys.gen digest subject := by
  intro same
  obtain ⟨tail, shape⟩ := key_shape digest a gen k
  rw [shape] at same
  have rest := List.append_cancel_left same
  have first := congrArg List.head? rest
  revert first
  cases a.kind with
  | signin => exact fun first => absurd (Option.some.inj first) (by decide)
  | twoFactor => exact fun first => absurd (Option.some.inj first) (by decide)

theorem tag_injective {k k' : Counter} {tail tail' : Text} (same : k.tag ++ tail = k'.tag ++ tail') : k = k' := by
  have second := congrArg (fun t => t[1]?) same
  have fifth := congrArg (fun t => t[4]?) same
  cases k <;> cases k' <;> first
    | rfl
    | exact absurd (Option.some.inj second) (by decide)
    | exact absurd (Option.some.inj fifth) (by decide)

theorem key_counter {digest : Text → Text} {a a' : Attempt} {gen gen' : ℕ} {k k' : Counter}
    (same : k.key digest a gen = k'.key digest a' gen') : k = k' ∧ a.kind = a'.kind := by
  obtain ⟨tail, shape⟩ := key_shape digest a gen k
  obtain ⟨tail', shape'⟩ := key_shape digest a' gen' k'
  rw [shape, shape'] at same
  have rest := List.append_cancel_left same
  have first := congrArg List.head? rest
  revert rest first
  cases a.kind <;> cases a'.kind <;> intro rest first
  · exact ⟨tag_injective (List.append_cancel_left rest), rfl⟩
  · exact absurd (Option.some.inj first) (by decide)
  · exact absurd (Option.some.inj first) (by decide)
  · exact ⟨tag_injective (List.append_cancel_left rest), rfl⟩

def Counter.rank : Counter → ℕ
  | .mine => 0
  | .together => 1
  | .here => 2
  | .total => 3

/-- The call has not reached the counter. -/
def Phase.ahead : Phase → Counter → Prop
  | .idle, _ => True
  | .reading _, _ => True
  | .counting _ _ k, k' => k.rank ≤ k'.rank
  | _, _ => False

variable {ι : Type*}

/-- The attempt that is being judged. -/
def Phase.made : Phase → Option Attempt
  | .reading a => some a
  | .counting a _ _ => some a
  | _ => none

/-- The call was let through by a counter. -/
def Within (s : State ι) (c : ι) (k : Counter) : Prop := ∃ r, s.counted c k = some r ∧ r.n ≤ k.limit

structure Counts (digest : Text → Text) (s : State ι) : Prop where
  value : ∀ a gen k e, s.store.live (Counter.key digest a gen k) = some e →
    e.value = (s.charged (k.key digest a gen)).length ∧ 0 < e.value ∧ s.opened (k.key digest a gen) < s.serial
  answer : ∀ c k r, s.counted c k = some r → r.window < s.serial ∧ 0 < r.n ∧
    ∃ a gen, s.attempt c = some a ∧ r.key = Counter.key digest a gen k
  made : ∀ c a, (s.phase c).made = some a → s.attempt c = some a
  highest : ∀ c k r e, s.counted c k = some r → s.store.live r.key = some e → r.window = s.opened r.key → r.n ≤ e.value
  distinct : ∀ c c' k k' r r', s.counted c k = some r → s.counted c' k' = some r' → r.key = r'.key → r.window = r'.window →
    r.n = r'.n → c = c'
  ahead : ∀ c k, (s.phase c).ahead k → s.counted c k = none
  mine : ∀ c, (∃ a gen, s.phase c = .counting a gen .together) ∨ (s.counted c .together).isSome → Within s c .mine
  here : ∀ c, (∃ a gen, s.phase c = .counting a gen .total) ∨ (s.counted c .total).isSome → Within s c .here
  device : ∀ c ms, s.phase c = .admitted .device ms → Within s c .together
  address : ∀ c ms, s.phase c = .admitted .address ms → Within s c .total

/-! ### Every step keeps the invariant -/

/-- A phase in which nothing has been answered. -/
def Phase.early : Phase → Prop
  | .counting _ _ .together => False
  | .counting _ _ .total => False
  | .admitted .. => False
  | _ => True

variable {digest : Text → Text} [DecidableEq ι]

theorem Counts.toPhase {s : State ι} (counts : Counts digest s) {c : ι} {p : Phase} (ahead : ∀ k, p.ahead k → (s.phase c).ahead k)
    (made : ∀ a, p.made = some a → s.attempt c = some a) (early : p.early) : Counts digest (s.toPhase c p) := by
  refine ⟨counts.value, counts.answer, ?_, counts.highest, counts.distinct, ?_, ?_, ?_, ?_, ?_⟩
  · intro c' a judged
    by_cases here : c' = c
    · subst here
      rw [Calls.move_self] at judged
      exact made a judged
    · rw [Calls.move_other _ p here] at judged
      exact counts.made c' a judged
  · intro c' k before
    by_cases here : c' = c
    · subst here
      rw [Calls.move_self] at before
      exact counts.ahead c' k (ahead k before)
    · rw [Calls.move_other _ p here] at before
      exact counts.ahead c' k before
  · intro c' reached
    by_cases here : c' = c
    · subst here
      rw [Calls.move_self] at reached
      refine counts.mine c' (Or.inr (reached.resolve_left ?_))
      rintro ⟨a, gen, rfl⟩
      exact early
    · rw [Calls.move_other _ p here] at reached
      exact counts.mine c' reached
  · intro c' reached
    by_cases here : c' = c
    · subst here
      rw [Calls.move_self] at reached
      refine counts.here c' (Or.inr (reached.resolve_left ?_))
      rintro ⟨a, gen, rfl⟩
      exact early
    · rw [Calls.move_other _ p here] at reached
      exact counts.here c' reached
  · intro c' ms reached
    by_cases here : c' = c
    · subst here
      rw [Calls.move_self] at reached
      subst reached
      exact False.elim early
    · rw [Calls.move_other _ p here] at reached
      exact counts.device c' ms reached
  · intro c' ms reached
    by_cases here : c' = c
    · subst here
      rw [Calls.move_self] at reached
      subst reached
      exact False.elim early
    · rw [Calls.move_other _ p here] at reached
      exact counts.address c' ms reached

omit [DecidableEq ι] in
/-- Counters may lapse. -/
theorem Counts.restore {s : State ι} (counts : Counts digest s) {store : Store Text ℕ}
    (fewer : ∀ a gen k e, store.live (Counter.key digest a gen k) = some e → s.store.live (k.key digest a gen) = some e) :
    Counts digest { s with store := store } := by
  refine ⟨fun a gen k e live => counts.value a gen k e (fewer a gen k e live), counts.answer, counts.made, ?_, counts.distinct,
    counts.ahead, counts.mine, counts.here, counts.device, counts.address⟩
  intro c k r e found live same
  obtain ⟨_, _, a, gen, _, key⟩ := counts.answer c k r found
  refine counts.highest c k r e found ?_ same
  rw [key] at live ⊢
  exact fewer a gen k e live

omit [DecidableEq ι] in
theorem Counts.remark {s : State ι} (counts : Counts digest s) {began : ι → ℕ} {forgotten : Text → ℕ} :
    Counts digest { s with began := began, forgotten := forgotten } :=
  ⟨counts.value, counts.answer, counts.made, counts.highest, counts.distinct, counts.ahead, counts.mine, counts.here,
    counts.device, counts.address⟩

theorem admit_counts {s : State ι} (counts : Counts digest s) {c : ι} (a : Attempt) (idle : s.phase c = .idle) :
    Counts digest (admitAttempt s c a) := by
  have unanswered : ∀ k, s.counted c k = none := fun k => counts.ahead c k (by rw [idle]; trivial)
  have marked : Counts digest { s with attempt := Function.update s.attempt c (some a) } := by
    refine ⟨counts.value, ?_, ?_, counts.highest, counts.distinct, counts.ahead, counts.mine, counts.here, counts.device,
      counts.address⟩
    · intro c' k r found
      have differs : c' ≠ c := by
        rintro rfl
        cases (unanswered k).symm.trans found
      obtain ⟨window, above, a', gen, attempt, key⟩ := counts.answer c' k r found
      exact ⟨window, above, a', gen, (Function.update_of_ne differs ..).trans attempt, key⟩
    · intro c' a' judged
      have differs : c' ≠ c := by
        rintro rfl
        dsimp only at judged
        rw [idle] at judged
        cases judged
      exact (Function.update_of_ne differs ..).trans (counts.made c' a' judged)
  refine Counts.toPhase (p := .reading a) marked (fun k _ => ?_) (fun a' same => ?_) trivial
  · dsimp only
    rw [idle]
    trivial
  · obtain rfl := Option.some.inj same
    exact Function.update_self ..

theorem incremented_elsewhere {s : State ι} {c : ι} {a : Attempt} {gen : ℕ} {k : Counter} {call : Call} {key : Text}
    (differs : key ≠ k.key digest a gen) : (incremented digest s c a gen k call).store.live key = s.store.live key := by
  cases call with
  | lost => rfl
  | unanswered => exact Store.live_count_other _ _ differs
  | ok => exact Store.live_count_other _ _ differs

theorem incremented_now (s : State ι) (c : ι) (a : Attempt) (gen : ℕ) (k : Counter) (call : Call) :
    (incremented digest s c a gen k call).store.now = s.store.now := by
  cases call with
  | lost => rfl
  | unanswered => exact Store.count_now ..
  | ok => exact Store.count_now ..

inductive Decision (a : Attempt) (gen n : ℕ) : Counter → Phase → Prop where
  | refused (k : Counter) : k.limit < n → Decision a gen n k .refused
  | together : n ≤ Counter.mine.limit → Decision a gen n .mine (.counting a gen .together)
  | device : n ≤ Counter.together.limit → Decision a gen n .together (.admitted .device 0)
  | spent : Counter.together.limit < n → Decision a gen n .together (.counting a gen .here)
  | total : n ≤ Counter.here.limit → Decision a gen n .here (.counting a gen .total)
  | address : n ≤ Counter.total.limit → Decision a gen n .total (.admitted .address (delayMs n))

theorem decision (a : Attempt) (gen : ℕ) (k : Counter) (n : ℕ) : Decision a gen n k (decided a gen k n) := by
  cases k with
  | mine =>
    simp only [decided]
    split
    · exact .refused .mine ‹_›
    · exact .together (Nat.le_of_not_lt ‹_›)
  | together =>
    simp only [decided]
    split
    · exact .device ‹_›
    · exact .spent (Nat.lt_of_not_le ‹_›)
  | here =>
    simp only [decided]
    split
    · exact .refused .here ‹_›
    · exact .total (Nat.le_of_not_lt ‹_›)
  | total =>
    simp only [decided]
    split
    · exact .refused .total ‹_›
    · exact .address (Nat.le_of_not_lt ‹_›)

theorem Decision.made {a a' : Attempt} {gen n : ℕ} {k : Counter} {p : Phase} (decision : Decision a gen n k p)
    (made : p.made = some a') : some a = some a' := by
  cases decision with
  | refused => cases made
  | device => cases made
  | address => cases made
  | together => exact made
  | spent => exact made
  | total => exact made

/-- The counters are asked in order. -/
theorem Decision.ahead {a : Attempt} {gen n : ℕ} {k k' : Counter} {p : Phase} (decision : Decision a gen n k p)
    (ahead : p.ahead k') : k.rank < k'.rank := by
  cases decision with
  | refused => exact False.elim ahead
  | together => exact Nat.lt_of_lt_of_le (by decide) (ahead : Counter.together.rank ≤ k'.rank)
  | device => exact False.elim ahead
  | spent => exact Nat.lt_of_lt_of_le (by decide) (ahead : Counter.here.rank ≤ k'.rank)
  | total => exact Nat.lt_of_lt_of_le (by decide) (ahead : Counter.total.rank ≤ k'.rank)
  | address => exact False.elim ahead

/-- The number a call is answered, in the window it is counted in. -/
structure Reply (s t : State ι) (key : Text) (c : ι) (k : Counter) (r : Counted) : Prop where
  asked : r.key = key
  counted : t.counted = Function.update s.counted c (Function.update (s.counted c) k (some r))
  opened : t.opened = Function.update s.opened key r.window
  serial : t.serial = s.serial + 1
  window : r.window ≤ s.serial
  live : ∃ e, t.store.live key = some e ∧ e.value = r.n
  length : (t.charged key).length = r.n
  positive : 0 < r.n
  charged : ∀ key', key' ≠ key → t.charged key' = s.charged key'
  others : ∀ key', key' ≠ key → t.store.live key' = s.store.live key'
  above : ∀ c' k' r', s.counted c' k' = some r' → r'.key = key → r'.window = r.window → r'.n < r.n
  joined : s.store.live key = none ∧ t.charged key = [c] ∧ r.window = s.serial ∨
    s.store.live key ≠ none ∧ t.charged key = s.charged key ++ [c] ∧ r.window = s.opened key

theorem Counter.window_positive (k : Counter) : 0 < k.windowSeconds * 1000 := by
  cases k <;> decide

theorem incremented_reply {s : State ι} (counts : Counts digest s) (c : ι) (a : Attempt) (gen : ℕ) (k : Counter) :
    ∃ r, Reply s (incremented digest s c a gen k .ok) (k.key digest a gen) c k r ∧
      (incremented digest s c a gen k .ok).phase = Function.update s.phase c (decided a gen k r.n) := by
  refine ⟨⟨k.key digest a gen, if (s.store.live (k.key digest a gen)).isSome then s.opened (k.key digest a gen) else s.serial,
    (s.store.count (k.key digest a gen) (k.windowSeconds * 1000)).2⟩, ?_, rfl⟩
  by_cases found : s.store.live (k.key digest a gen) = none
  · obtain ⟨one, live⟩ := Store.count_absent k.window_positive found
    refine ⟨rfl, rfl, rfl, rfl, ?_, ⟨_, live, one.symm⟩, ?_, ?_, ?_, ?_, ?_, ?_⟩
    all_goals dsimp only [incremented, increment, State.toPhase]
    · rw [found]
      exact Nat.le_refl _
    · rw [Function.update_self, found, one]
      rfl
    · rw [one]
      exact Nat.zero_lt_one
    · exact fun key' differs => Function.update_of_ne differs ..
    · exact fun key' differs => Store.live_count_other _ _ differs
    · intro c' k' r' old _ same
      rw [found] at same
      exact absurd same (Nat.ne_of_lt (counts.answer c' k' r' old).1)
    · rw [Function.update_self, found]
      exact Or.inl ⟨rfl, rfl, rfl⟩
  · obtain ⟨e, found⟩ := Option.ne_none_iff_exists'.mp found
    obtain ⟨length, above, opened⟩ := counts.value a gen k e found
    obtain ⟨next, live⟩ := Store.count_present (k.windowSeconds * 1000) found above
    refine ⟨rfl, rfl, rfl, rfl, ?_, ⟨_, live, next.symm⟩, ?_, ?_, ?_, ?_, ?_, ?_⟩
    all_goals dsimp only [incremented, increment, State.toPhase]
    · rw [found]
      exact Nat.le_of_lt opened
    · rw [Function.update_self, found, next, length]
      exact List.length_append
    · rw [next]
      exact Nat.succ_pos _
    · exact fun key' differs => Function.update_of_ne differs ..
    · exact fun key' differs => Store.live_count_other _ _ differs
    · intro c' k' r' old key same
      rw [found, Option.isSome_some, if_pos rfl] at same
      rw [next]
      rw [← key] at found same
      exact Nat.lt_succ_of_le (counts.highest c' k' r' e old found same)
    · rw [Function.update_self, found]
      exact Or.inr ⟨nofun, rfl, rfl⟩

theorem Reply.self {s t : State ι} {key : Text} {c : ι} {k : Counter} {r : Counted} (reply : Reply s t key c k r) :
    t.counted c k = some r := by
  rw [reply.counted, Function.update_self, Function.update_self]

theorem Reply.other {s t : State ι} {key : Text} {c c' : ι} {k k' : Counter} {r : Counted} (reply : Reply s t key c k r)
    (differs : ¬ (c' = c ∧ k' = k)) : t.counted c' k' = s.counted c' k' := by
  rw [reply.counted]
  by_cases here : c' = c
  · subst here
    rw [Function.update_self, Function.update_of_ne fun same => differs ⟨rfl, same⟩]
  · rw [Function.update_of_ne here]

/-- An answer is either an old one or the new one. -/
theorem Reply.cases {s t : State ι} {key : Text} {c c' : ι} {k k' : Counter} {r r' : Counted} (reply : Reply s t key c k r)
    (found : t.counted c' k' = some r') : c' = c ∧ k' = k ∧ r' = r ∨ s.counted c' k' = some r' := by
  by_cases here : c' = c ∧ k' = k
  · obtain ⟨rfl, rfl⟩ := here
    exact Or.inl ⟨rfl, rfl, Option.some.inj (found.symm.trans reply.self)⟩
  · exact Or.inr ((reply.other here).symm.trans found)

theorem Reply.within {s t : State ι} {key : Text} {c c' : ι} {k k' : Counter} {r : Counted} (reply : Reply s t key c k r)
    (new : s.counted c k = none) (within : Within s c' k') : Within t c' k' := by
  obtain ⟨r', found, small⟩ := within
  refine ⟨r', (reply.other ?_).trans found, small⟩
  rintro ⟨rfl, rfl⟩
  cases new.symm.trans found

/-- What was asked before a counter was within its limit: the step after `k` is reached only if `k` was. -/
theorem Reply.reaches {s t : State ι} {key : Text} {c : ι} {a : Attempt} {gen : ℕ} {k earlier later : Counter} {r : Counted}
    {p : Phase} (reply : Reply s t key c k r) (new : s.counted c k = none) (counting : s.phase c = .counting a gen k)
    (phase : t.phase = Function.update s.phase c p)
    (next : ∀ a' gen', p = .counting a' gen' later → k = earlier ∧ r.n ≤ k.limit)
    (before : ∀ c', (∃ a gen, s.phase c' = .counting a gen later) ∨ (s.counted c' later).isSome → Within s c' earlier) :
    ∀ c', (∃ a gen, t.phase c' = .counting a gen later) ∨ (t.counted c' later).isSome → Within t c' earlier := by
  intro c' reached
  rw [phase] at reached
  by_cases here : c' = c
  · subst here
    rw [Function.update_self] at reached
    rcases reached with ⟨a', gen', asks⟩ | answered
    · obtain ⟨rfl, small⟩ := next a' gen' asks
      exact ⟨r, reply.self, small⟩
    · obtain ⟨r', found⟩ := Option.isSome_iff_exists.mp answered
      rcases reply.cases found with ⟨_, rfl, rfl⟩ | old
      · exact reply.within new (before c' (Or.inl ⟨a, gen, counting⟩))
      · exact reply.within new (before c' (Or.inr (Option.isSome_iff_exists.mpr ⟨r', old⟩)))
  · rw [Function.update_of_ne here, reply.other fun same => here same.1] at reached
    exact reply.within new (before c' reached)

theorem Reply.admits {s t : State ι} {key : Text} {c : ι} {k last : Counter} {r : Counted} {p : Phase} {path : Path}
    (reply : Reply s t key c k r) (new : s.counted c k = none) (phase : t.phase = Function.update s.phase c p)
    (next : ∀ ms, p = .admitted path ms → k = last ∧ r.n ≤ k.limit)
    (before : ∀ c' ms, s.phase c' = .admitted path ms → Within s c' last) :
    ∀ c' ms, t.phase c' = .admitted path ms → Within t c' last := by
  intro c' ms reached
  rw [phase] at reached
  by_cases here : c' = c
  · subst here
    rw [Function.update_self] at reached
    obtain ⟨rfl, small⟩ := next ms reached
    exact ⟨r, reply.self, small⟩
  · rw [Function.update_of_ne here] at reached
    exact reply.within new (before c' ms reached)

theorem incremented_counts {s : State ι} (counts : Counts digest s) {c : ι} {a : Attempt} {gen : ℕ} {k : Counter}
    (counting : s.phase c = .counting a gen k) : Counts digest (incremented digest s c a gen k .ok) := by
  obtain ⟨r, reply, phase⟩ := incremented_reply counts c a gen k
  have next := decision a gen k r.n
  have new : s.counted c k = none := counts.ahead c k (by rw [counting]; exact Nat.le_refl _)
  have attempt : s.attempt c = some a := counts.made c a (by rw [counting]; rfl)
  refine ⟨?_, ?_, ?_, ?_, ?_, ?_, ?_, ?_, ?_, ?_⟩
  · intro a' gen' k' e live
    rw [reply.opened, reply.serial]
    by_cases here : k'.key digest a' gen' = k.key digest a gen
    · rw [here] at live ⊢
      obtain ⟨e', found, value⟩ := reply.live
      obtain rfl := Option.some.inj (found.symm.trans live)
      rw [Function.update_self, reply.length, value]
      exact ⟨rfl, reply.positive, Nat.lt_succ_of_le reply.window⟩
    · rw [reply.others _ here] at live
      rw [Function.update_of_ne here, reply.charged _ here]
      obtain ⟨length, above, opened⟩ := counts.value a' gen' k' e live
      exact ⟨length, above, Nat.lt_succ_of_lt opened⟩
  · intro c' k' r' found
    rw [reply.serial]
    rcases reply.cases found with ⟨rfl, rfl, rfl⟩ | old
    · exact ⟨Nat.lt_succ_of_le reply.window, reply.positive, a, gen, attempt, reply.asked⟩
    · obtain ⟨window, above, shape⟩ := counts.answer c' k' r' old
      exact ⟨Nat.lt_succ_of_lt window, above, shape⟩
  · intro c' a' judged
    rw [phase] at judged
    by_cases here : c' = c
    · subst here
      rw [Function.update_self] at judged
      exact attempt.trans (next.made judged)
    · rw [Function.update_of_ne here] at judged
      exact counts.made c' a' judged
  · intro c' k' r' e found live same
    rw [reply.opened] at same
    by_cases here : r'.key = k.key digest a gen
    · rw [here] at live same
      obtain ⟨e', found', value⟩ := reply.live
      obtain rfl := Option.some.inj (found'.symm.trans live)
      rw [Function.update_self] at same
      rcases reply.cases found with ⟨rfl, rfl, rfl⟩ | old
      · exact Nat.le_of_eq value.symm
      · rw [value]
        exact Nat.le_of_lt (reply.above c' k' r' old here same)
    · rw [reply.others _ here] at live
      rw [Function.update_of_ne here] at same
      rcases reply.cases found with ⟨rfl, rfl, rfl⟩ | old
      · exact (here reply.asked).elim
      · exact counts.highest c' k' r' e old live same
  · intro c₁ c₂ k₁ k₂ r₁ r₂ found₁ found₂ key window n
    rcases reply.cases found₁ with ⟨rfl, rfl, rfl⟩ | old₁
    · rcases reply.cases found₂ with ⟨rfl, rfl, rfl⟩ | old₂
      · rfl
      · exact absurd n (Nat.ne_of_gt (reply.above c₂ k₂ r₂ old₂ (key.symm.trans reply.asked) window.symm))
    · rcases reply.cases found₂ with ⟨rfl, rfl, rfl⟩ | old₂
      · exact absurd n (Nat.ne_of_lt (reply.above c₁ k₁ r₁ old₁ (key.trans reply.asked) window))
      · exact counts.distinct c₁ c₂ k₁ k₂ r₁ r₂ old₁ old₂ key window n
  · intro c' k' before
    rw [phase] at before
    by_cases here : c' = c
    · subst here
      rw [Function.update_self] at before
      have later := next.ahead before
      rw [reply.other fun same => absurd (same.2 ▸ later) (Nat.lt_irrefl _)]
      exact counts.ahead c' k' (by rw [counting]; exact Nat.le_of_lt later)
    · rw [Function.update_of_ne here] at before
      rw [reply.other fun same => here same.1]
      exact counts.ahead c' k' before
  · refine reply.reaches new counting phase ?_ counts.mine
    intro a' gen' asks
    rw [asks] at next
    cases next with
    | together small => exact ⟨rfl, small⟩
  · refine reply.reaches new counting phase ?_ counts.here
    intro a' gen' asks
    rw [asks] at next
    cases next with
    | total small => exact ⟨rfl, small⟩
  · refine reply.admits new phase ?_ counts.device
    intro ms admitted
    rw [admitted] at next
    cases next with
    | device small => exact ⟨rfl, small⟩
  · refine reply.admits new phase ?_ counts.address
    intro ms admitted
    rw [admitted] at next
    cases next with
    | address small => exact ⟨rfl, small⟩

theorem step_counts {s t : State ι} {e : Event ι} (counts : Counts digest s) (works : Working s e)
    (taken : step digest s e = some t) : Counts digest t := by
  unfold step at taken
  split at taken
  · split at taken
    · rename_i idle
      obtain rfl := Option.some.inj taken
      exact admit_counts counts _ idle
    · cases taken
  · split at taken
    · obtain rfl := Option.some.inj taken
      exact Counts.toPhase (p := .clearing _) counts.remark (fun k => False.elim) nofun trivial
    · cases taken
  · split at taken
    · rename_i a reading
      obtain rfl := Option.some.inj taken
      refine counts.toPhase (fun k _ => by rw [reading]; trivial) (fun a' same => ?_) ?_
      · obtain rfl := Option.some.inj same
        exact counts.made _ a (by rw [reading]; rfl)
      · unfold Attempt.first
        split <;> trivial
    · obtain rfl := Option.some.inj taken
      exact counts.toPhase (fun k => False.elim) nofun trivial
    · cases taken
  · split at taken
    · rename_i counting
      obtain ⟨rfl, next⟩ := Option.ite_none_right_eq_some.mp taken
      obtain rfl := Option.some.inj next
      obtain rfl := works
      exact incremented_counts counts counting
    · cases taken
  · split at taken
    · rename_i c call _ subject gen bumping
      obtain rfl := Option.some.inj taken
      obtain rfl := works
      have made : Counts digest
          { s with store := s.store.set (lockoutKeys.gen digest subject) (bump gen) (some (genSeconds * 1000)) } := by
        refine counts.restore fun a gen' k e live => ?_
        rwa [Store.live_set_other _ _ _ (key_ne_gen digest a gen' k subject)] at live
      exact Counts.toPhase (p := .cleared) made.remark (fun k => False.elim) nofun trivial
    · cases taken
  · obtain rfl := Option.some.inj taken
    refine counts.restore fun a gen k e live => ?_
    rcases s.store.live_advance _ (k.key digest a gen) with same | gone
    · exact same.symm.trans live
    · cases gone.symm.trans live

/-! ### Whole runs -/

omit [DecidableEq ι] in
theorem start_counts {s : State ι} (start : Start digest s) : Counts digest s where
  value a gen k e live := by cases (start.counters a gen k).symm.trans live
  answer c k r found := by cases (start.counted c k).symm.trans found
  made c a judged := by
    rw [start.idle] at judged
    cases judged
  highest c k r e found := by cases (start.counted c k).symm.trans found
  distinct c c' k k' r r' found := by cases (start.counted c k).symm.trans found
  ahead c k _ := start.counted c k
  mine c reached := by
    rw [start.idle, start.counted] at reached
    rcases reached with ⟨_, _, counting⟩ | answered
    · cases counting
    · cases answered
  here c reached := by
    rw [start.idle, start.counted] at reached
    rcases reached with ⟨_, _, counting⟩ | answered
    · cases counting
    · cases answered
  device c ms admitted := by cases (start.idle c).symm.trans admitted
  address c ms admitted := by cases (start.idle c).symm.trans admitted

/-- The call was let through. -/
def Passed (s : State ι) (c : ι) (path : Path) : Prop := ∃ ms, s.phase c = .admitted path ms

/-- The call was counted in a window of the key. -/
def CountedIn (s : State ι) (c : ι) (k : Counter) (key : Text) (window : ℕ) : Prop :=
  ∃ r, s.counted c k = some r ∧ r.key = key ∧ r.window = window

omit [DecidableEq ι] in
theorem window_bound {s : State ι} (counts : Counts digest s) {k : Counter} {key : Text} {window : ℕ} {calls : List ι}
    (distinct : calls.Nodup) (within : ∀ c ∈ calls, Within s c k ∧ CountedIn s c k key window) : calls.length ≤ k.limit := by
  have answers : ∀ c ∈ calls, ∃ r, s.counted c k = some r ∧ r.key = key ∧ r.window = window ∧
    0 < r.n ∧ r.n ≤ k.limit := by
    intro c member
    obtain ⟨⟨r, found, small⟩, r', found', same, here⟩ := within c member
    obtain rfl := Option.some.inj (found.symm.trans found')
    exact ⟨r, found, same, here, (counts.answer c k r found).2.1, small⟩
  let answer : ι → ℕ := fun c => ((s.counted c k).map Counted.n).getD 0
  have numbers : (calls.map answer).Nodup := by
    refine (List.nodup_map_iff_inj_on distinct).mpr fun c member c' member' same => ?_
    obtain ⟨r, found, key₁, window₁, _⟩ := answers c member
    obtain ⟨r', found', key₂, window₂, _⟩ := answers c' member'
    dsimp only [answer] at same
    rw [found, found'] at same
    exact counts.distinct c c' k k r r' found found' (key₁.trans key₂.symm) (window₁.trans window₂.symm) same
  have range : (calls.map answer).toFinset ⊆ Finset.Icc 1 k.limit := by
    intro n member
    obtain ⟨c, member', rfl⟩ := List.mem_map.mp (List.mem_toFinset.mp member)
    obtain ⟨r, found, _, _, above, small⟩ := answers c member'
    dsimp only [answer]
    rw [found]
    exact Finset.mem_Icc.mpr ⟨above, small⟩
  have card := Finset.card_le_card range
  rwa [List.toFinset_card_of_nodup numbers, List.length_map, Nat.card_Icc, Nat.add_sub_cancel] at card

/-- Of the attempts of a kind on an account, in one generation, that are counted in one window: at most `maxAttempts` pass by the
address path from one address, at most `ceiling` from all of them, at most `accountMaxAttempts` by the device path, and at
most `maxAttempts` of these by one device. Every attempt that passes is counted under the keys of its own account, address
and device. -/
theorem lockout_bound {s₀ s : State ι} {es : List (Event ι)} (start : Start digest s₀)
    (run : Runs.Run (step digest) Working s₀ es s) :
    (∀ kind gen subject window (calls : List ι), calls.Nodup →
      (∀ ip, (∀ c ∈ calls, Passed s c .address ∧
        CountedIn s c .here (lockoutKeys.accountAndIp digest kind gen subject ip) window) →
        calls.length ≤ perAccountAndIp.maxAttempts) ∧
      ((∀ c ∈ calls, Passed s c .address ∧ CountedIn s c .total (lockoutKeys.account digest kind gen subject) window) →
        calls.length ≤ perAccount.ceiling) ∧
      ((∀ c ∈ calls, Passed s c .device ∧ CountedIn s c .together (lockoutKeys.devices digest kind gen subject) window) →
        calls.length ≤ knownDevice.accountMaxAttempts) ∧
      (∀ deviceId, (∀ c ∈ calls, Passed s c .device ∧
          CountedIn s c .mine (lockoutKeys.device digest kind gen subject deviceId) window) →
        calls.length ≤ knownDevice.maxAttempts)) ∧
    (∀ c path, Passed s c path → ∃ a, s.attempt c = some a ∧
      ∀ k ∈ (match path with | .address => [Counter.here, .total] | .device => [.mine, .together]),
        ∃ gen window, CountedIn s c k (k.key digest a gen) window) := by
  have counts := run.invariant step_counts (start_counts start)
  have address : ∀ c, Passed s c .address → Within s c .here ∧ Within s c .total := by
    rintro c ⟨ms, passed⟩
    obtain ⟨r, found, small⟩ := counts.address c ms passed
    exact ⟨counts.here c (Or.inr (Option.isSome_iff_exists.mpr ⟨r, found⟩)), r, found, small⟩
  have device : ∀ c, Passed s c .device → Within s c .mine ∧ Within s c .together := by
    rintro c ⟨ms, passed⟩
    obtain ⟨r, found, small⟩ := counts.device c ms passed
    exact ⟨counts.mine c (Or.inr (Option.isSome_iff_exists.mpr ⟨r, found⟩)), r, found, small⟩
  have counted : ∀ c k, Within s c k → ∃ a, s.attempt c = some a ∧ ∃ gen window, CountedIn s c k
    (k.key digest a gen) window := by
    intro c k ⟨r, found, _⟩
    obtain ⟨_, _, a, gen, attempt, key⟩ := counts.answer c k r found
    exact ⟨a, attempt, gen, r.window, r, found, key, rfl⟩
  refine ⟨fun kind gen subject window calls distinct => ⟨fun ip all => ?_, fun all => ?_, fun all => ?_, fun id all => ?_⟩, ?_⟩
  · exact window_bound counts (k := .here) distinct fun c member => ⟨(address c (all c member).1).1, (all c member).2⟩
  · exact window_bound counts (k := .total) distinct fun c member => ⟨(address c (all c member).1).2, (all c member).2⟩
  · exact window_bound counts (k := .together) distinct fun c member => ⟨(device c (all c member).1).2, (all c member).2⟩
  · exact window_bound counts (k := .mine) distinct fun c member => ⟨(device c (all c member).1).1, (all c member).2⟩
  · intro c path passed
    cases path with
    | address =>
      obtain ⟨here, total⟩ := address c passed
      obtain ⟨a, attempt, first⟩ := counted c .here here
      obtain ⟨a', attempt', second⟩ := counted c .total total
      obtain rfl := Option.some.inj (attempt.symm.trans attempt')
      refine ⟨a, attempt, fun k member => ?_⟩
      rcases List.mem_pair.mp member with rfl | rfl
      · exact first
      · exact second
    | device =>
      obtain ⟨mine, together⟩ := device c passed
      obtain ⟨a, attempt, first⟩ := counted c .mine mine
      obtain ⟨a', attempt', second⟩ := counted c .together together
      obtain rfl := Option.some.inj (attempt.symm.trans attempt')
      refine ⟨a, attempt, fun k member => ?_⟩
      rcases List.mem_pair.mp member with rfl | rfl
      · exact first
      · exact second

def noAttempts : State ℕ where
  store := .empty 0
  phase _ := .idle
  attempt _ := none
  serial := 0
  opened _ := 0
  charged _ := []
  counted _ _ := none
  began _ := 0
  forgotten _ := 0

theorem noAttempts_start (digest : Text → Text) : Start digest noAttempts :=
  ⟨fun _ => rfl, fun _ _ _ => rfl, fun _ _ => rfl, fun _ => rfl, fun _ => rfl⟩

def fromAddress : Attempt where
  kind := .signin
  subject := text "a@b.vn"
  ip := text "192.0.2.7"
  deviceId := none

/-- Six attempts from one address, one from another and one of a known device, all under way before the first is counted. -/
def atOnce : List (Event ℕ) :=
  (List.range 6).map (.admitAttempt · fromAddress) ++
    [.admitAttempt 6 { fromAddress with ip := text "192.0.2.8" }, .admitAttempt 7 { fromAddress with deviceId := some (text "d") }] ++
    (List.range 8).map (.generation · .ok) ++
    [.increment 0 .here .ok, .increment 7 .mine .ok, .increment 3 .here .ok, .increment 0 .total .ok, .increment 6 .here .ok,
      .increment 1 .here .ok, .advance 1000, .increment 4 .here .ok, .increment 2 .here .ok, .increment 5 .here .ok,
      .increment 6 .total .ok, .increment 3 .total .ok, .increment 7 .together .ok, .increment 1 .total .ok, .increment 2 .total .ok,
      .increment 4 .total .ok]

/-- Five of them pass from the one address and the sixth is refused; the windows were opened by the increments 0, 3 and 1. -/
theorem lockout_bound_at_once : ∃ s : State ℕ, s.phase 5 = .refused ∧
    ((∀ c ∈ [0, 1, 2, 3, 4], Passed s c .address ∧
        CountedIn s c .here (lockoutKeys.accountAndIp id .signin 0 (text "a@b.vn") (text "192.0.2.7")) 0) ∧
      [0, 1, 2, 3, 4].length ≤ perAccountAndIp.maxAttempts) ∧
    ((∀ c ∈ [0, 1, 2, 3, 4, 6], Passed s c .address ∧
      CountedIn s c .total (lockoutKeys.account id .signin 0 (text "a@b.vn")) 3) ∧
      [0, 1, 2, 3, 4, 6].length ≤ perAccount.ceiling) ∧
    (∀ c ∈ [7], Passed s c .device ∧ CountedIn s c .mine (lockoutKeys.device id .signin 0 (text "a@b.vn") (text "d")) 1) ∧
      [7].length ≤ knownDevice.maxAttempts := by
  have check : ∃ s ∈ Runs.exec (step id) Working noAttempts atOnce, s.phase 5 = .refused ∧ s.phase 7 = .admitted .device 0 ∧
      (∀ c ∈ [0, 1, 2, 3, 4, 6], s.phase c = .admitted .address (if c = 4 then 200 else 0)) ∧
      (∀ c ∈ [0, 1, 2, 3, 4], (s.counted c .here).map (fun r => (r.key, r.window)) =
        some (lockoutKeys.accountAndIp id .signin 0 (text "a@b.vn") (text "192.0.2.7"), 0)) ∧
      (∀ c ∈ [0, 1, 2, 3, 4, 6], (s.counted c .total).map (fun r => (r.key, r.window)) =
        some (lockoutKeys.account id .signin 0 (text "a@b.vn"), 3)) ∧
      (s.counted 7 .mine).map (fun r => (r.key, r.window)) =
        some (lockoutKeys.device id .signin 0 (text "a@b.vn") (text "d"), 1) := by
    decide +kernel
  obtain ⟨s, reached, refused, known, passed, here, total, mine⟩ := check
  have counted : ∀ {c k key window}, (s.counted c k).map (fun r => (r.key, r.window)) = some (key, window) →
      CountedIn s c k key window := by
    intro c k key window same
    obtain ⟨r, found, pair⟩ := Option.map_eq_some_iff.mp same
    cases pair
    exact ⟨r, found, rfl, rfl⟩
  have bound := (lockout_bound (noAttempts_start id) (Runs.Run.of_exec reached)).1 .signin 0 (text "a@b.vn")
  have first : ∀ c ∈ [0, 1, 2, 3, 4], Passed s c .address ∧
      CountedIn s c .here (lockoutKeys.accountAndIp id .signin 0 (text "a@b.vn") (text "192.0.2.7")) 0 := fun c member =>
    ⟨⟨_, passed c (List.mem_append_left [6] member)⟩, counted (here c member)⟩
  have all : ∀ c ∈ [0, 1, 2, 3, 4, 6], Passed s c .address ∧
      CountedIn s c .total (lockoutKeys.account id .signin 0 (text "a@b.vn")) 3 := fun c member =>
    ⟨⟨_, passed c member⟩, counted (total c member)⟩
  have own : ∀ c ∈ [7], Passed s c .device ∧
      CountedIn s c .mine (lockoutKeys.device id .signin 0 (text "a@b.vn") (text "d")) 1 := by
    intro c member
    obtain rfl := List.mem_singleton.mp member
    exact ⟨⟨0, known⟩, counted mine⟩
  exact ⟨s, refused, ⟨first, (bound 0 _ (by decide)).1 (text "192.0.2.7") first⟩, ⟨all, (bound 3 _ (by decide)).2.1 all⟩, own,
    (bound 1 _ (by decide)).2.2.2 (text "d") own⟩

end Identity.Lockout
