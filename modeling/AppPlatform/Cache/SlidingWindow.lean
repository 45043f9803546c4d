import AppPlatform.Lib.Run
import AppPlatform.Lib.SortedSet
import AppPlatform.Lib.Text

/-!
# The sliding-window rate limiter

A key holds the calls it admitted, scored by their times, and expires a window after the last one. The
script runs as one step; a call and the server read one clock, in milliseconds. Without a client every call
is admitted and nothing is kept, so the client is there.
-/

namespace RateLimiter
open Js

structure Key where
  set : SortedSet Text
  deadline : Option ℤ

def Key.absent : Key := ⟨.empty, none⟩

def Key.current (k : Key) (now : ℤ) : Key := if k.deadline.any (· ≤ now) then .absent else k

/-- A key without entries is gone, and its deadline with it. -/
def Key.trim (k : Key) (bound : ℤ) : Key :=
  let set := k.set.removeUpTo bound
  ⟨set, if set.card = 0 then none else k.deadline⟩

/-- What the script answers: whether the call is admitted, what remains, and when a slot is free again. -/
structure Reply where
  allowed : Bool
  remaining : ℤ
  resetAtMs : ℤ

/-- `SLIDING_WINDOW_LUA`. There is no answer when the script fails, on an oldest entry that is not there. -/
def slidingWindow (key : Key) (now window limit : ℤ) (member : Text) : Key × Option Reply :=
  let trimmed := (key.current now).trim (now - window)
  let count : ℤ := trimmed.set.card
  if count < limit then
    (⟨trimmed.set.add now member, some (now + window)⟩, some ⟨true, limit - count - 1, now + window⟩)
  else
    (trimmed, trimmed.set.first?.map fun oldest => ⟨false, 0, oldest.1 + window⟩)

/-- What `consumeRateLimit` resolves to; a call that is admitted has an id. -/
structure Decision where
  allowed : Bool
  remaining : ℤ
  resetAt : ℤ
  id : Option Text

/-- `taken` lists, for each key, the calls that were admitted and not refunded, and `used` the members of all calls:
no call reads them. -/
structure State where
  keys : Text → Key
  now : ℕ
  taken : Text → List (ℤ × Text)
  used : Text → List Text

def redisKey (key : Text) : Text := text "rl:" ++ key

/-- `random` is the part of the member that `Math.random` gives. -/
def memberOf (nowMs : ℕ) (random : Text) : Text := natText nowMs ++ unit ':' :: random

def consumeRateLimit (s : State) (key : Text) (limit windowSeconds : ℤ) (random : Text) : State × Option Decision :=
  let member := memberOf s.now random
  let (after, reply) := slidingWindow (s.keys (redisKey key)) s.now (windowSeconds * 1000) limit member
  let allowed := reply.any Reply.allowed
  ({ s with
      keys := Function.update s.keys (redisKey key) after
      taken := if allowed then Function.update s.taken key ((↑s.now, member) :: s.taken key) else s.taken
      used := Function.update s.used key (member :: s.used key) },
    reply.map fun reply =>
      ⟨reply.allowed, max 0 reply.remaining, (reply.resetAtMs + 999) / 1000, if reply.allowed then some member else none⟩)

/-- A key whose last entry is removed is gone. -/
def Key.remove (k : Key) (member : Text) : Key :=
  let set := k.set.remove member
  ⟨set, if set.card = 0 then none else k.deadline⟩

def refundRateLimit (s : State) (key id : Text) : State := { s with
  keys := Function.update s.keys (redisKey key) (((s.keys (redisKey key)).current s.now).remove id)
  taken := Function.update s.taken key ((s.taken key).filter fun e => e.2 ≠ id) }

inductive Event where
  | consume (key : Text) (limit windowSeconds : ℤ) (random : Text)
  | refund (key id : Text)
  | tick (ms : ℕ)

def step (s : State) : Event → Option State
  | .consume key limit windowSeconds random => some (consumeRateLimit s key limit windowSeconds random).1
  | .refund key id => some (refundRateLimit s key id)
  | .tick ms => some { s with now := s.now + ms }

def State.view (s : State) (key : Text) : SortedSet Text := ((s.keys (redisKey key)).current s.now).set

def Uniform (key : Text) (limit windowSeconds : ℤ) (s : State) : Event → Prop
  | .consume key' limit' windowSeconds' random => key' = key →
      limit' = limit ∧ windowSeconds' = windowSeconds ∧ memberOf s.now random ∉ s.used key
  | _ => True

theorem redisKey_injective {key key' : Text} (same : redisKey key = redisKey key') : key = key' :=
  List.append_cancel_left same

theorem mem_current {k : Key} {now : ℤ} {e : ℤ × Text} :
    e ∈ (k.current now).set ↔ e ∈ k.set ∧ k.deadline.any (· ≤ now) = false := by
  unfold Key.current
  split
  · rename_i expired
    constructor
    · intro inside
      exact (SortedSet.notMem_empty e inside).elim
    · rintro ⟨_, alive⟩
      cases expired.symm.trans alive
  · rename_i alive
    exact ⟨fun inside => ⟨inside, Bool.eq_false_iff.mpr alive⟩, And.left⟩

theorem mem_view {s : State} {key : Text} {e : ℤ × Text} : e ∈ s.view key ↔
    e ∈ (s.keys (redisKey key)).set ∧ (s.keys (redisKey key)).deadline.any (· ≤ ↑s.now) = false :=
  mem_current

theorem current_deadline {k : Key} {now : ℤ} (alive : k.deadline.any (· ≤ now) = false) : k.current now = k := by
  unfold Key.current
  rw [alive]
  rfl

/-- Entries are there until the deadline of the key, which is at least a window after each of them. -/
def Covered (window : ℤ) (k : Key) : Prop := ∀ e ∈ k.set, ∃ deadline, k.deadline = some deadline ∧ e.1 + window ≤ deadline

theorem covered_current {window now : ℤ} {k : Key} (covered : Covered window k) : Covered window (k.current now) := by
  intro e inside
  obtain ⟨stored, alive⟩ := mem_current.mp inside
  rw [current_deadline alive]
  exact covered e stored

theorem covered_restrict {window : ℤ} {k : Key} {set : SortedSet Text} (covered : Covered window k)
    (inside : ∀ e ∈ set, e ∈ k.set) : Covered window ⟨set, if set.card = 0 then none else k.deadline⟩ := by
  intro e member
  obtain ⟨deadline, same, later⟩ := covered e (inside e member)
  have some : 0 < set.card := List.length_pos_of_mem member
  refine ⟨deadline, ?_, later⟩
  simp only [if_neg (Nat.pos_iff_ne_zero.mp some), same]

theorem restrict_alive {now : ℤ} {k : Key} {set : SortedSet Text} :
    Option.any (· ≤ now) (if set.card = 0 then none else (k.current now).deadline) = false := by
  split
  · rfl
  · unfold Key.current
    split
    · rfl
    · rename_i alive
      exact Bool.eq_false_iff.mpr alive

/-! ### What holds at every moment -/

/-- The calls among these whose time is in the half-open interval of a window from `start`. -/
def within (window start : ℤ) (calls : List (ℤ × Text)) : List (ℤ × Text) :=
  calls.filter fun e => start ≤ e.1 ∧ e.1 < start + window

structure Safe (key : Text) (limit window : ℤ) (s : State) : Prop where
  counted : ∀ e ∈ s.taken key, ↑s.now < e.1 + window → e ∈ s.view key
  taken : ∀ e ∈ (s.keys (redisKey key)).set, e ∈ s.taken key
  past : ∀ e ∈ s.taken key, e.1 ≤ ↑s.now
  used : ∀ e ∈ s.taken key, e.2 ∈ s.used key
  unique : ((s.taken key).map Prod.snd).Nodup
  covered : Covered window (s.keys (redisKey key))
  bounded : ∀ start, (within window start (s.taken key)).length ≤ limit

theorem Safe.congr {key : Text} {limit window : ℤ} {s t : State} (safe : Safe key limit window s) (now : t.now = s.now)
    (keys : t.keys (redisKey key) = s.keys (redisKey key)) (taken : t.taken key = s.taken key)
    (used : t.used key = s.used key) : Safe key limit window t := by
  refine ⟨?_, ?_, ?_, ?_, ?_, ?_, ?_⟩
  · intro e member young
    rw [mem_view, keys, now, ← mem_view]
    rw [taken] at member
    rw [now] at young
    exact safe.counted e member young
  · rw [keys, taken]
    exact safe.taken
  · rw [taken, now]
    exact safe.past
  · rw [taken, used]
    exact safe.used
  · rw [taken]
    exact safe.unique
  · rw [keys]
    exact safe.covered
  · rw [taken]
    exact safe.bounded

theorem tick_safe {key : Text} {limit window : ℤ} {s : State} (safe : Safe key limit window s) (ms : ℕ) :
    Safe key limit window { s with now := s.now + ms } where
  counted := by
    intro e member young
    have later : ((s.now + ms : ℕ) : ℤ) = s.now + ms := by omega
    simp only [later] at young
    obtain ⟨stored, _⟩ := mem_view.mp (safe.counted e member (by omega))
    obtain ⟨deadline, same, covers⟩ := safe.covered e stored
    refine mem_view.mpr ⟨stored, ?_⟩
    simp only [same, Option.any_some, decide_eq_false_iff_not]
    omega
  taken := safe.taken
  past e member := by
    have before := safe.past e member
    simp only
    omega
  used := safe.used
  unique := safe.unique
  covered := safe.covered
  bounded := safe.bounded

theorem refund_safe {key : Text} {limit window : ℤ} {s : State} (safe : Safe key limit window s) (id : Text) :
    Safe key limit window (refundRateLimit s key id) := by
  have keys : (refundRateLimit s key id).keys (redisKey key) = ((s.keys (redisKey key)).current s.now).remove id := by
    simp [refundRateLimit]
  have taken : (refundRateLimit s key id).taken key = (s.taken key).filter fun e => e.2 ≠ id := by
    simp [refundRateLimit]
  refine ⟨?_, ?_, ?_, ?_, ?_, ?_, ?_⟩
  · intro e member young
    rw [taken] at member
    obtain ⟨before, other⟩ := List.mem_filter.mp member
    rw [mem_view, keys]
    exact ⟨SortedSet.mem_remove.mpr ⟨safe.counted e before young, by simpa using other⟩, restrict_alive⟩
  · intro e member
    rw [keys] at member
    obtain ⟨current, other⟩ := SortedSet.mem_remove.mp member
    rw [taken]
    exact List.mem_filter.mpr ⟨safe.taken e (mem_current.mp current).1, by simpa using other⟩
  · intro e member
    rw [taken] at member
    exact safe.past e (List.mem_filter.mp member).1
  · intro e member
    rw [taken] at member
    exact safe.used e (List.mem_filter.mp member).1
  · rw [taken]
    exact safe.unique.sublist (List.filter_sublist.map _)
  · rw [keys]
    exact covered_restrict (covered_current safe.covered) fun e member => (SortedSet.mem_remove.mp member).1
  · intro start
    rw [taken]
    have fewer : (within window start ((s.taken key).filter fun e => e.2 ≠ id)).length ≤
        (within window start (s.taken key)).length := (List.filter_sublist.filter _).length_le
    have bounded := safe.bounded start
    omega

/-! ### Calls -/

/-- The key as the script counts it. -/
def State.trimmed (s : State) (key : Text) (windowSeconds : ℤ) : Key :=
  ((s.keys (redisKey key)).current s.now).trim (s.now - windowSeconds * 1000)

theorem mem_trimmed {s : State} {key : Text} {windowSeconds : ℤ} {e : ℤ × Text} :
    e ∈ (s.trimmed key windowSeconds).set ↔ e ∈ s.view key ∧ ↑s.now - windowSeconds * 1000 < e.1 :=
  SortedSet.mem_removeUpTo

theorem consume_admitted {s : State} {key : Text} {limit windowSeconds : ℤ} (random : Text)
    (room : ((s.trimmed key windowSeconds).set.card : ℤ) < limit) :
    consumeRateLimit s key limit windowSeconds random = ({ s with
      keys := Function.update s.keys (redisKey key)
        ⟨(s.trimmed key windowSeconds).set.add s.now (memberOf s.now random), some (s.now + windowSeconds * 1000)⟩
      taken := Function.update s.taken key ((↑s.now, memberOf s.now random) :: s.taken key)
      used := Function.update s.used key (memberOf s.now random :: s.used key) },
      some ⟨true, max 0 (limit - (s.trimmed key windowSeconds).set.card - 1), (s.now + windowSeconds * 1000 + 999) / 1000,
        some (memberOf s.now random)⟩) := by
  unfold consumeRateLimit slidingWindow
  unfold State.trimmed at room ⊢
  simp only [if_pos room, Option.any_some, Option.map_some, if_true]

theorem consume_rejected {s : State} {key : Text} {limit windowSeconds : ℤ} (random : Text)
    (full : ¬ ((s.trimmed key windowSeconds).set.card : ℤ) < limit) :
    (consumeRateLimit s key limit windowSeconds random).1 = { s with
      keys := Function.update s.keys (redisKey key) (s.trimmed key windowSeconds)
      used := Function.update s.used key (memberOf s.now random :: s.used key) } ∧
    ∀ decision, (consumeRateLimit s key limit windowSeconds random).2 = some decision → decision.allowed = false := by
  unfold consumeRateLimit slidingWindow
  unfold State.trimmed at full ⊢
  simp only [if_neg full]
  constructor
  · cases ((s.keys (redisKey key)).current ↑s.now |>.trim (↑s.now - windowSeconds * 1000)).set.first? <;> rfl
  · intro decision answer
    obtain ⟨reply, found, rfl⟩ := Option.map_eq_some_iff.mp answer
    obtain ⟨oldest, _, rfl⟩ := Option.map_eq_some_iff.mp found
    rfl

theorem reject_safe {key random : Text} {limit windowSeconds : ℤ} {s : State} (safe : Safe key limit (windowSeconds * 1000) s)
    (full : ¬ ((s.trimmed key windowSeconds).set.card : ℤ) < limit) :
    Safe key limit (windowSeconds * 1000) (consumeRateLimit s key limit windowSeconds random).1 := by
  rw [(consume_rejected random full).1]
  refine ⟨?_, ?_, safe.past, ?_, safe.unique, ?_, safe.bounded⟩
  · intro e member young
    simp only at young
    rw [mem_view]
    simp only [Function.update_self]
    exact ⟨mem_trimmed.mpr ⟨safe.counted e member young, by omega⟩, restrict_alive⟩
  · intro e member
    simp only [Function.update_self] at member
    exact safe.taken e (mem_view.mp (mem_trimmed.mp member).1).1
  · intro e member
    simp only [Function.update_self]
    exact List.mem_cons_of_mem _ (safe.used e member)
  · simp only [Function.update_self]
    exact covered_restrict (covered_current safe.covered) fun e member => (SortedSet.mem_removeUpTo.mp member).1

theorem within_counted {key : Text} {limit windowSeconds start : ℤ} {s : State} (safe : Safe key limit (windowSeconds * 1000) s)
    (inside : start ≤ ↑s.now ∧ ↑s.now < start + windowSeconds * 1000) :
    (within (windowSeconds * 1000) start (s.taken key)).length ≤ (s.trimmed key windowSeconds).set.card := by
  apply SortedSet.length_le_card
  · exact (List.Nodup.of_map _ safe.unique).filter _
  · intro e member
    obtain ⟨taken, young⟩ := List.mem_filter.mp member
    simp only [Bool.decide_and, Bool.and_eq_true, decide_eq_true_eq] at young
    exact mem_trimmed.mpr ⟨safe.counted e taken (by omega), by omega⟩

theorem admit_safe {key random : Text} {limit windowSeconds : ℤ} {s : State} (safe : Safe key limit (windowSeconds * 1000) s)
    (fresh : memberOf s.now random ∉ s.used key) (room : ((s.trimmed key windowSeconds).set.card : ℤ) < limit) :
    Safe key limit (windowSeconds * 1000) (consumeRateLimit s key limit windowSeconds random).1 := by
  rw [consume_admitted random room]
  have others : ∀ e ∈ s.taken key, e.2 ≠ memberOf s.now random := by
    intro e member same
    exact fresh (same ▸ safe.used e member)
  refine ⟨?_, ?_, ?_, ?_, ?_, ?_, ?_⟩
  · intro e member young
    simp only [Function.update_self] at member
    simp only at young
    rw [mem_view]
    simp only [Function.update_self, Option.any_some, decide_eq_false_iff_not, SortedSet.mem_add]
    rcases List.mem_cons.mp member with rfl | before
    · simp only at young
      exact ⟨Or.inl rfl, by omega⟩
    · have past := safe.past e before
      exact ⟨Or.inr ⟨mem_trimmed.mpr ⟨safe.counted e before young, by omega⟩, others e before⟩, by omega⟩
  · intro e member
    simp only [Function.update_self, SortedSet.mem_add] at member
    simp only [Function.update_self]
    rcases member with rfl | ⟨old, _⟩
    · exact List.mem_cons_self
    · exact List.mem_cons_of_mem _ (safe.taken e (mem_view.mp (mem_trimmed.mp old).1).1)
  · intro e member
    simp only [Function.update_self] at member
    rcases List.mem_cons.mp member with rfl | before
    · exact le_refl _
    · exact safe.past e before
  · intro e member
    simp only [Function.update_self] at member ⊢
    rcases List.mem_cons.mp member with rfl | before
    · exact List.mem_cons_self
    · exact List.mem_cons_of_mem _ (safe.used e before)
  · simp only [Function.update_self, List.map_cons]
    refine List.nodup_cons.mpr ⟨?_, safe.unique⟩
    intro present
    obtain ⟨e, member, same⟩ := List.mem_map.mp present
    exact others e member same
  · simp only [Function.update_self]
    intro e member
    refine ⟨_, rfl, ?_⟩
    rcases SortedSet.mem_add.mp member with rfl | ⟨old, _⟩
    · exact le_refl _
    · have past := safe.past e (safe.taken e (mem_view.mp (mem_trimmed.mp old).1).1)
      omega
  · intro start
    simp only [Function.update_self]
    by_cases inside : start ≤ ↑s.now ∧ ↑s.now < start + windowSeconds * 1000
    · have counted := within_counted safe inside
      have longer : (within (windowSeconds * 1000) start ((↑s.now, memberOf s.now random) :: s.taken key)).length =
          (within (windowSeconds * 1000) start (s.taken key)).length + 1 := by
        simp [within, inside]
      omega
    · have same : within (windowSeconds * 1000) start ((↑s.now, memberOf s.now random) :: s.taken key) =
          within (windowSeconds * 1000) start (s.taken key) := List.filter_cons_of_neg (by simpa using inside)
      rw [same]
      exact safe.bounded start

theorem other_safe {key key' : Text} {limit window : ℤ} {s : State} (safe : Safe key limit window s) (differs : key ≠ key')
    (limit' windowSeconds' : ℤ) (random id : Text) : Safe key limit window (consumeRateLimit s key' limit' windowSeconds' random).1 ∧
      Safe key limit window (refundRateLimit s key' id) := by
  have apart : redisKey key ≠ redisKey key' := fun same => differs (redisKey_injective same)
  constructor
  · refine safe.congr rfl ?_ ?_ ?_
    · simp [consumeRateLimit, apart]
    · simp only [consumeRateLimit]
      split
      · exact Function.update_of_ne differs ..
      · rfl
    · simp [consumeRateLimit, differs]
  · refine safe.congr rfl ?_ ?_ rfl
    · simp [refundRateLimit, apart]
    · simp [refundRateLimit, differs]

theorem step_safe {key : Text} {limit windowSeconds : ℤ} {s t : State} {e : Event} (safe : Safe key limit (windowSeconds * 1000) s)
    (uniform : Uniform key limit windowSeconds s e) (taken : step s e = some t) : Safe key limit (windowSeconds * 1000) t := by
  cases e with
  | consume key' limit' windowSeconds' random =>
    obtain rfl := Option.some.inj taken
    by_cases same : key = key'
    · subst same
      obtain ⟨rfl, rfl, fresh⟩ := uniform rfl
      by_cases room : ((s.trimmed key windowSeconds').set.card : ℤ) < limit'
      · exact admit_safe safe fresh room
      · exact reject_safe safe room
    · exact (other_safe safe same _ _ _ []).1
  | refund key' id =>
    obtain rfl := Option.some.inj taken
    by_cases same : key = key'
    · subst same
      exact refund_safe safe id
    · exact (other_safe safe same 0 0 [] id).2
  | tick ms =>
    obtain rfl := Option.some.inj taken
    exact tick_safe safe ms

structure Fresh (key : Text) (s : State) : Prop where
  stored : s.keys (redisKey key) = .absent
  taken : s.taken key = []

theorem fresh_safe {key : Text} {limit window : ℤ} {s : State} (fresh : Fresh key s) (positive : 1 ≤ limit) :
    Safe key limit window s := by
  have none : ∀ e ∈ s.taken key, False := by
    intro e member
    rw [fresh.taken] at member
    cases member
  have empty : ∀ e ∈ (s.keys (redisKey key)).set, False := by
    intro e member
    rw [fresh.stored] at member
    exact SortedSet.notMem_empty e member
  refine ⟨fun e member => (none e member).elim, fun e member => (empty e member).elim, fun e member => (none e member).elim,
    fun e member => (none e member).elim, ?_, fun e member => (empty e member).elim, ?_⟩
  · rw [fresh.taken]
    exact List.nodup_nil
  · intro start
    rw [fresh.taken]
    simp [within]
    omega

/-- At every moment of a run whose calls on the key agree on the limit and the window: no window holds more calls that were
admitted and not refunded than the limit; every such call of the last window is still there; a rejected call adds no
entry; and a refund removes the entry of its call and no other. -/
theorem limiter_safe {key : Text} {limit windowSeconds : ℤ} {s₀ s : State} {es : List Event} (positive : 1 ≤ limit)
    (fresh : Fresh key s₀) (run : Runs.Run step (Uniform key limit windowSeconds) s₀ es s) :
    (∀ start, (within (windowSeconds * 1000) start (s.taken key)).length ≤ limit) ∧
    (∀ e ∈ s.taken key, ↑s.now < e.1 + windowSeconds * 1000 → e ∈ s.view key) ∧
    (∀ random, ((consumeRateLimit s key limit windowSeconds random).2.any Decision.allowed = false) →
      ∀ e ∈ (consumeRateLimit s key limit windowSeconds random).1.view key, e ∈ s.view key) ∧
    (∀ id e, e ∈ (refundRateLimit s key id).view key ↔ e ∈ s.view key ∧ e.2 ≠ id) ∧
    (∀ e ∈ s.view key, ∀ e' ∈ s.view key, e.2 = e'.2 → e = e') := by
  have safe := run.invariant step_safe (fresh_safe fresh positive)
  refine ⟨safe.bounded, safe.counted, ?_, ?_, fun e member e' member' => SortedSet.eq_of_member member member'⟩
  · intro random rejected e member
    by_cases room : ((s.trimmed key windowSeconds).set.card : ℤ) < limit
    · rw [consume_admitted random room] at rejected
      cases rejected
    · rw [(consume_rejected random room).1, mem_view] at member
      simp only [Function.update_self] at member
      exact (mem_trimmed.mp member.1).1
  · intro id e
    rw [mem_view]
    simp only [refundRateLimit, Function.update_self, Key.remove, SortedSet.mem_remove]
    constructor
    · exact fun both => both.1
    · exact fun both => ⟨both, restrict_alive⟩

def noCalls : State where
  keys _ := .absent
  now := 0
  taken _ := []
  used _ := []

/-- Of two calls in a window of a second with a limit of one, the second is rejected. -/
theorem limiter_safe_twice : ∃ s : State, (s.taken (text "ip")).length = 1 ∧
    ∀ start, (within 1000 start (s.taken (text "ip"))).length ≤ (1 : ℤ) := by
  have run : ∃ s, Runs.Run step (Uniform (text "ip") 1 1) noCalls
      [.consume (text "ip") 1 1 (text "a"), .tick 999, .consume (text "ip") 1 1 (text "b")] s ∧ (s.taken (text "ip")).length = 1 :=
    ⟨_, .cons (fun _ => ⟨rfl, rfl, List.not_mem_nil⟩) rfl (.cons trivial rfl
      (.cons (fun _ => ⟨rfl, rfl, by decide +kernel⟩) rfl (.nil _))), by decide +kernel⟩
  obtain ⟨s, run, one⟩ := run
  exact ⟨s, one, (limiter_safe (by decide) ⟨rfl, rfl⟩ run).1⟩

end RateLimiter
