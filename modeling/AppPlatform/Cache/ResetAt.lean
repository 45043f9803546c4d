import AppPlatform.Cache.SlidingWindow
import Mathlib.Order.Bounds.Basic

/-!
# When a slot is free again

`resetAt` is the second at which the window next frees a slot. A call that is rejected reads it off the
oldest entry; a call that is admitted takes its own time for it, as if it had found the window empty.
-/

namespace RateLimiter
open Js

def OneLimit (key : Text) (limit windowSeconds : ℤ) (_ : State) : Event → Prop
  | .consume key' limit' windowSeconds' _ => key' = key → limit' = limit ∧ windowSeconds' = windowSeconds
  | _ => True

/-- An entry is the time of its call and the member made of it. -/
def Stamped (now : ℕ) (e : ℤ × Text) : Prop := ∃ n random, n ≤ now ∧ e = ((n : ℤ), memberOf n random)

theorem Stamped.mono {now later : ℕ} (le : now ≤ later) {e : ℤ × Text} (stamped : Stamped now e) : Stamped later e := by
  obtain ⟨n, random, past, rfl⟩ := stamped
  exact ⟨n, random, past.trans le, rfl⟩

theorem memberOf_time {m n : ℕ} {random random' : Text} (same : memberOf m random = memberOf n random') : m = n := by
  have plain : ∀ n, unit ':' ∉ natText n := fun n member => absurd (natText_digits n _ member) (by decide)
  exact natText_injective (before_first (plain m) (plain n) same).1

/-- The set of the key has at most as many entries as the limit, each with the time of its call. -/
structure Counting (key : Text) (limit : ℤ) (s : State) : Prop where
  few : ((s.keys (redisKey key)).set.card : ℤ) ≤ limit
  stamped : ∀ e ∈ (s.keys (redisKey key)).set, Stamped s.now e

variable {key random : Text} {limit windowSeconds : ℤ} {s t : State}

theorem current_card (k : Key) (now : ℤ) : (k.current now).set.card ≤ k.set.card := by
  unfold Key.current
  split
  · exact Nat.zero_le _
  · exact le_rfl

theorem trimmed_card (s : State) (key : Text) (windowSeconds : ℤ) :
    (s.trimmed key windowSeconds).set.card ≤ (s.keys (redisKey key)).set.card :=
  (SortedSet.card_filter_le _ _).trans (current_card _ _)

theorem mem_trimmed_stored {e : ℤ × Text} (inside : e ∈ (s.trimmed key windowSeconds).set) : e ∈ (s.keys (redisKey key)).set :=
  (mem_view.mp (mem_trimmed.mp inside).1).1

theorem consume_counting (counting : Counting key limit s) :
    Counting key limit (consumeRateLimit s key limit windowSeconds random).1 := by
  have fewer := trimmed_card s key windowSeconds
  have few := counting.few
  by_cases room : ((s.trimmed key windowSeconds).set.card : ℤ) < limit
  · rw [consume_admitted random room]
    constructor
    · have one := SortedSet.card_add_le (s.trimmed key windowSeconds).set s.now (memberOf s.now random)
      simp only [Function.update_self]
      omega
    · intro e inside
      simp only [Function.update_self, SortedSet.mem_add] at inside
      rcases inside with rfl | ⟨old, _⟩
      · exact ⟨s.now, random, le_rfl, rfl⟩
      · exact counting.stamped e (mem_trimmed_stored old)
  · rw [(consume_rejected random room).1]
    constructor
    · simp only [Function.update_self]
      omega
    · intro e inside
      simp only [Function.update_self] at inside
      exact counting.stamped e (mem_trimmed_stored inside)

theorem step_counting {e : Event} (counting : Counting key limit s) (one : OneLimit key limit windowSeconds s e)
    (taken : step s e = some t) : Counting key limit t := by
  cases e with
  | consume key' limit' windowSeconds' random =>
    obtain rfl := Option.some.inj taken
    by_cases same : key' = key
    · obtain ⟨rfl, rfl⟩ := one same
      rw [same]
      exact consume_counting counting
    · have apart : redisKey key ≠ redisKey key' := fun eq => same (redisKey_injective eq).symm
      have keys : (consumeRateLimit s key' limit' windowSeconds' random).1.keys (redisKey key) = s.keys (redisKey key) := by
        simp [consumeRateLimit, apart]
      exact ⟨by rw [keys]; exact counting.few, by rw [keys]; exact counting.stamped⟩
  | refund key' id =>
    obtain rfl := Option.some.inj taken
    by_cases same : redisKey key = redisKey key'
    · have keys : (refundRateLimit s key' id).keys (redisKey key) = ((s.keys (redisKey key)).current s.now).remove id := by
        simp [refundRateLimit, same]
      constructor
      · have fewer := (SortedSet.card_filter_le ((s.keys (redisKey key)).current s.now).set fun e =>
          e.2 ≠ id).trans (current_card _ _)
        have few := counting.few
        rw [keys, Key.remove, SortedSet.remove]
        dsimp only
        omega
      · intro e inside
        rw [keys] at inside
        exact counting.stamped e (mem_current.mp (SortedSet.mem_remove.mp inside).1).1
    · have keys : (refundRateLimit s key' id).keys (redisKey key) = s.keys (redisKey key) := by simp [refundRateLimit, same]
      exact ⟨by rw [keys]; exact counting.few, by rw [keys]; exact counting.stamped⟩
  | tick ms =>
    obtain rfl := Option.some.inj taken
    exact ⟨counting.few, fun e inside => (counting.stamped e inside).mono (Nat.le_add_right _ _)⟩

/-! ### The answer -/

/-- What `resetAt` promises, for the window as the call leaves it. -/
structure Exact (key : Text) (limit windowSeconds : ℤ) (after : State) (decision : Decision) : Prop where
  earliest : IsLeast {second | ∃ e ∈ (after.keys (redisKey key)).set, e.1 + windowSeconds * 1000 ≤ second * 1000} decision.resetAt
  admitted : decision.allowed = false → ∀ ms random, decision.resetAt * 1000 ≤ after.now + (ms : ℕ) →
    (consumeRateLimit { after with now := after.now + ms } key limit windowSeconds random).2.any Decision.allowed = true
  none : ∀ e ∈ (after.keys (redisKey key)).set, decision.resetAt * 1000 < e.1 + windowSeconds * 1000 + 1000

def ResetExact (key : Text) (limit windowSeconds : ℤ) (s : State) (random : Text) : Prop :=
  ∃ decision, (consumeRateLimit s key limit windowSeconds random).2 = some decision ∧
    Exact key limit windowSeconds (consumeRateLimit s key limit windowSeconds random).1 decision

/-- The first whole second at or after a time. -/
def secondOf (ms : ℤ) : ℤ := (ms + 999) / 1000

/-- The call is rejected, or no entry that it counts is of an earlier second. -/
def SameSecond (key : Text) (limit windowSeconds : ℤ) (s : State) : Prop :=
  ((s.trimmed key windowSeconds).set.card : ℤ) < limit →
    ∀ e ∈ (s.trimmed key windowSeconds).set, secondOf e.1 = secondOf s.now

theorem isLeast_oldest (window : ℤ) {set : SortedSet Text} {oldest : ℤ × Text} (inside : oldest ∈ set)
    (first : ∀ e ∈ set, oldest.1 ≤ e.1) :
    IsLeast {second | ∃ e ∈ set, e.1 + window ≤ second * 1000} (secondOf (oldest.1 + window)) := by
  unfold secondOf
  constructor
  · exact ⟨oldest, inside, by omega⟩
  · rintro second ⟨e, member, expired⟩
    have before := first e member
    omega

theorem least_none {set : SortedSet Text} {window second : ℤ}
    (least : IsLeast {second | ∃ e ∈ set, e.1 + window ≤ second * 1000} second) :
    ∀ e ∈ set, second * 1000 < e.1 + window + 1000 := by
  intro e member
  by_contra! early
  have bound := least.2 (show second - 1 ∈ _ from ⟨e, member, by omega⟩)
  omega

theorem consume_full (full : ¬((s.trimmed key windowSeconds).set.card : ℤ) < limit) (random : Text) :
    (consumeRateLimit s key limit windowSeconds random).2 = (s.trimmed key windowSeconds).set.first?.map fun oldest =>
      ⟨false, 0, secondOf (oldest.1 + windowSeconds * 1000), none⟩ := by
  unfold consumeRateLimit slidingWindow
  unfold State.trimmed at full ⊢
  simp only [if_neg full, Option.map_map]
  rfl

/-- Once the oldest entry has expired there is room again. -/
theorem room_later (few : ((s.keys (redisKey key)).set.card : ℤ) ≤ limit) (positive : 1 ≤ limit) {e : ℤ × Text}
    (inside : e ∈ (s.keys (redisKey key)).set) (expired : e.1 + windowSeconds * 1000 ≤ s.now) (random : Text) :
    (consumeRateLimit s key limit windowSeconds random).2.any Decision.allowed = true := by
  have room : ((s.trimmed key windowSeconds).set.card : ℤ) < limit := by
    unfold State.trimmed Key.current
    split
    · have none : (Key.absent.trim (s.now - windowSeconds * 1000)).set.card = 0 := rfl
      omega
    · have fewer : ((s.keys (redisKey key)).set.removeUpTo (s.now - windowSeconds * 1000)).card < (s.keys (redisKey key)).set.card :=
        SortedSet.card_removeUpTo_lt inside (by omega)
      unfold Key.trim
      dsimp only
      omega
  rw [consume_admitted random room]
  rfl

theorem rejected_exact (counting : Counting key limit s) (positive : 1 ≤ limit)
    (full : ¬((s.trimmed key windowSeconds).set.card : ℤ) < limit) (random : Text) : ResetExact key limit windowSeconds s random := by
  obtain ⟨oldest, first⟩ := SortedSet.first?_isSome (s := (s.trimmed key windowSeconds).set) (by omega)
  obtain ⟨inside, before⟩ := SortedSet.first?_le first
  have answer := consume_full full random
  rw [first] at answer
  refine ⟨_, answer, ?_⟩
  rw [(consume_rejected random full).1]
  have least := isLeast_oldest (windowSeconds * 1000) inside before
  constructor
  · simpa only [Function.update_self] using least
  · intro _ ms random' reached
    have few := counting.few
    have fewer := trimmed_card s key windowSeconds
    refine room_later (e := oldest) ?_ positive ?_ ?_ random'
    · simp only [Function.update_self]
      omega
    · simpa only [Function.update_self] using inside
    · simp only [secondOf] at reached ⊢
      push_cast
      omega
  · simpa only [Function.update_self] using least_none least

theorem admitted_exact (counting : Counting key limit s)
    (room : ((s.trimmed key windowSeconds).set.card : ℤ) < limit) (random : Text) :
    ResetExact key limit windowSeconds s random ↔ ∀ e ∈ (s.trimmed key windowSeconds).set, secondOf e.1 = secondOf s.now := by
  have past : ∀ e ∈ (s.trimmed key windowSeconds).set, e.1 ≤ s.now := by
    intro e inside
    obtain ⟨n, _, le, rfl⟩ := counting.stamped e (mem_trimmed_stored inside)
    exact Int.ofNat_le.mpr le
  -- an entry that the new one replaces is of the same time
  have replaced : ∀ e ∈ (s.trimmed key windowSeconds).set, e.2 = memberOf s.now random → e.1 = s.now := by
    intro e inside same
    obtain ⟨n, _, _, rfl⟩ := counting.stamped e (mem_trimmed_stored inside)
    exact congrArg Nat.cast (memberOf_time same)
  unfold ResetExact
  rw [consume_admitted random room]
  simp only [Option.some.injEq, exists_eq_left']
  constructor
  · intro correct e inside
    have le := past e inside
    by_cases same : e.2 = memberOf s.now random
    · rw [replaced e inside same]
    · have none := correct.none e (by
        simp only [Function.update_self]
        exact SortedSet.mem_add.mpr (.inr ⟨inside, same⟩))
      unfold secondOf
      dsimp only at none
      omega
  · intro same
    have least : IsLeast {second | ∃ e ∈ (s.trimmed key windowSeconds).set.add s.now (memberOf s.now random),
        e.1 + windowSeconds * 1000 ≤ second * 1000} (secondOf (s.now + windowSeconds * 1000)) := by
      constructor
      · refine ⟨(↑s.now, memberOf s.now random), SortedSet.mem_add.mpr (.inl rfl), ?_⟩
        unfold secondOf
        omega
      · rintro second ⟨e, inside, expired⟩
        have atSecond : secondOf e.1 = secondOf s.now := by
          rcases SortedSet.mem_add.mp inside with rfl | ⟨old, _⟩
          · rfl
          · exact same e old
        unfold secondOf at atSecond ⊢
        omega
    refine ⟨?_, fun refused => Bool.noConfusion refused, ?_⟩
    · simpa only [Function.update_self] using! least
    · simpa only [Function.update_self] using! least_none least

theorem fresh_counting (fresh : Fresh key s) (positive : 1 ≤ limit) : Counting key limit s := by
  constructor
  · rw [fresh.stored]
    exact zero_le_one.trans positive
  · intro e inside
    rw [fresh.stored] at inside
    exact (SortedSet.notMem_empty e inside).elim

/-- In every state that a key with one limit and one window reaches, `resetAt` is exact for a call exactly when the call is
rejected, or finds no entry of an earlier second. -/
theorem resetAt_exact_iff {s₀ : State} {es : List Event} (positive : 1 ≤ limit) (fresh : Fresh key s₀)
    (run : Runs.Run step (OneLimit key limit windowSeconds) s₀ es s) (random : Text) :
    ResetExact key limit windowSeconds s random ↔ SameSecond key limit windowSeconds s := by
  have counting := run.invariant step_counting (fresh_counting fresh positive)
  unfold SameSecond
  by_cases room : ((s.trimmed key windowSeconds).set.card : ℤ) < limit
  · rw [admitted_exact counting room random]
    exact ⟨fun same _ => same, fun same => same room⟩
  · exact iff_of_true (rejected_exact counting positive room random) fun admitted => absurd admitted room

/-- A key with one call of half a minute ago. -/
def halfMinute : List Event := [.consume (text "ip") 5 60 (text "a"), .tick 30000]

theorem halfMinute_run : ∃ s, Runs.Run step (OneLimit (text "ip") 5 60) noCalls halfMinute s ∧ s.now = 30000 ∧
    (s.trimmed (text "ip") 60).set.entries = [(0, memberOf 0 (text "a"))] :=
  ⟨_, .cons (fun _ => ⟨rfl, rfl⟩) rfl (.cons trivial rfl (.nil _)), rfl, by decide +kernel⟩

theorem resetAt_exact_halfMinute : ∃ s, s.now = 30000 ∧
    (ResetExact (text "ip") 5 60 s (text "b") ↔ SameSecond (text "ip") 5 60 s) := by
  obtain ⟨s, run, now, _⟩ := halfMinute_run
  exact ⟨s, now, resetAt_exact_iff (by decide) ⟨rfl, rfl⟩ run (text "b")⟩

/-- The second call of a window of a minute, half a minute after the first. -/
theorem second_call_late : ¬∀ (s₀ s : State) (es : List Event), Fresh (text "ip") s₀ →
    Runs.Run step (OneLimit (text "ip") 5 60) s₀ es s → ∀ random, ResetExact (text "ip") 5 60 s random := by
  intro all
  obtain ⟨s, run, now, entries⟩ := halfMinute_run
  have counting : Counting (text "ip") 5 s := run.invariant step_counting (fresh_counting ⟨rfl, rfl⟩ (by decide))
  have room : ((s.trimmed (text "ip") 60).set.card : ℤ) < 5 := by
    rw [SortedSet.card, entries]
    decide
  have same := (admitted_exact counting room (text "b")).mp (all noCalls s halfMinute ⟨rfl, rfl⟩ run (text "b"))
    (0, memberOf 0 (text "a")) (SortedSet.mem_def.mpr (entries ▸ List.mem_cons_self))
  rw [now] at same
  exact absurd same (by decide)

end RateLimiter
