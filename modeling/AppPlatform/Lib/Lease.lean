import AppPlatform.Lib.KeyValue
import Mathlib.Tactic.Ring

/-!
# Leases

A key that holds its owner's value until a deadline. The owner renews it at the ticks of a timer;
nobody else's renewal or release touches it.
-/

namespace KeyValue
variable {κ β : Type*} {s : Store κ β} {k : κ} {v : β} {d : ℕ}

def Leased (s : Store κ β) (k : κ) (v : β) (d : ℕ) : Prop := s.live k = some ⟨v, some d⟩

theorem Leased.get (leased : Leased s k v d) : s.get k = some v := by
  rw [Store.get, leased]
  rfl

theorem Leased.advance (leased : Leased s k v d) {ms : ℕ} (before : s.now + ms < d) : Leased (s.advance ms) k v d :=
  Store.live_advance_of leased rfl before

theorem Leased.lapse (leased : Leased s k v d) {ms : ℕ} (after : d ≤ s.now + ms) : (s.advance ms).get k = none := by
  have gone : (s.advance ms).live k = none := by
    rw [Store.live_advance_eq, leased, Option.filter_some, alive, decide_eq_false (by omega)]
    rfl
  rw [Store.get, gone]
  rfl

section
variable [DecidableEq κ]

theorem leased_set (s : Store κ β) (k : κ) (v : β) {ttl : ℕ} (positive : 0 < ttl) :
    Leased (s.set k v (some ttl)) k v (s.now + ttl) :=
  s.live_set_same k v positive

theorem Leased.refused (leased : Leased s k v d) (v' : β) (ttl : ℕ) : s.setIfAbsent k v' ttl = none := by
  rw [Store.setIfAbsent, leased.get]
  rfl

variable [DecidableEq β]

theorem Leased.renew (leased : Leased s k v d) {ttl : ℕ} (positive : 0 < ttl) :
    Leased (s.expireIf k v ttl) k v (s.now + ttl) := by
  rw [Leased, s.live_expireIf_same k v positive, if_pos leased.get]

theorem Leased.renew_other (leased : Leased s k v d) {v' : β} (differs : v' ≠ v) (ttl : ℕ) : s.expireIf k v' ttl = s := by
  rw [Store.expireIf, leased.get, if_neg fun same => differs (Option.some.inj same).symm]

theorem Leased.release_other (leased : Leased s k v d) {v' : β} (differs : v' ≠ v) : s.delIf k v' = s := by
  rw [Store.delIf, leased.get, if_neg fun same => differs (Option.some.inj same).symm]

end

/-- `setInterval`: when it was started and how often it has fired. -/
structure Timer where
  startedAt : ℕ
  fired : ℕ

namespace Timer

/-- The time of the next tick. -/
def due (t : Timer) (period : ℕ) : ℕ := t.startedAt + (t.fired + 1) * period

def fire (t : Timer) : Timer := { t with fired := t.fired + 1 }

theorem fire_due (t : Timer) (period : ℕ) : t.fire.due period = t.due period + period := by
  rw [due, due, fire]
  ring

theorem start_due (now period : ℕ) : (Timer.mk now 0).due period = now + period := by
  rw [due, Nat.zero_add, Nat.one_mul]

end Timer

end KeyValue
