import Mathlib.Data.Int.Notation
import Mathlib.Data.Nat.Notation
import Mathlib.Logic.Function.Basic
import Mathlib.Tactic.TypeStar

/-!
# A key-value store with deadlines

The part of a Valkey server the scripts use: keys hold a value and may have a deadline, on the
server's clock in milliseconds. A key set for `ttl` milliseconds at time `t` is absent from
`t + ttl` on.
-/

namespace KeyValue

structure Entry (β : Type*) where
  value : β
  deadline : Option ℕ

structure Store (κ β : Type*) where
  entries : κ → Option (Entry β)
  now : ℕ

/-- What becomes of a call: it never reaches the server, takes effect unanswered, or succeeds. -/
inductive Call where
  | lost
  | unanswered
  | ok
  deriving DecidableEq

/-- The part of the call that reached the server. -/
def Call.apply (call : Call) {α : Type*} (effect : α → α) (s : α) : α := if call = .lost then s else effect s

@[simp] theorem Call.apply_ok {α : Type*} (effect : α → α) (s : α) : Call.ok.apply effect s = effect s := rfl

variable {κ β : Type*}

def alive (now : ℕ) : Option ℕ → Bool
  | none => true
  | some deadline => now < deadline

namespace Store

def empty (now : ℕ) : Store κ β := ⟨fun _ => none, now⟩

/-- The entry under a key whose deadline has not passed. -/
def live (s : Store κ β) (k : κ) : Option (Entry β) := (s.entries k).filter fun e => alive s.now e.deadline

/-- `GET`. -/
def get (s : Store κ β) (k : κ) : Option β := (s.live k).map Entry.value

def advance (s : Store κ β) (ms : ℕ) : Store κ β := { s with now := s.now + ms }

/-- `PTTL`: negative for a key that is absent or has no deadline. -/
def pttl (s : Store κ β) (k : κ) : ℤ :=
  match s.live k with
  | none => -2
  | some e =>
    match e.deadline with
    | none => -1
    | some d => d - s.now

theorem pttl_live {s : Store κ β} {k : κ} {v : β} {d : ℕ} (found : s.live k = some ⟨v, some d⟩) :
    s.pttl k = (d : ℤ) - s.now := by
  rw [pttl, found]

/-- A time to live is positive when the key is there and has a deadline. -/
theorem pttl_pos {s : Store κ β} {k : κ} : 0 < s.pttl k ↔ ∃ v d, s.live k = some ⟨v, some d⟩ := by
  constructor
  · intro positive
    cases found : s.live k with
    | none =>
      rw [pttl, found] at positive
      have impossible : (0 : ℤ) < -2 := positive
      omega
    | some e =>
      obtain ⟨v, deadline⟩ := e
      cases deadline with
      | none =>
        rw [pttl, found] at positive
        have impossible : (0 : ℤ) < -1 := positive
        omega
      | some d => exact ⟨v, d, rfl⟩
  · rintro ⟨v, d, found⟩
    have lives : s.now < d := of_decide_eq_true (Option.filter_eq_some_iff.mp found).2
    rw [pttl_live found]
    omega

variable [DecidableEq κ]

/-- `SET`, with `PX ttl` or without a deadline. -/
def set (s : Store κ β) (k : κ) (v : β) (ttl : Option ℕ) : Store κ β :=
  { s with entries := Function.update s.entries k (some ⟨v, ttl.map (s.now + ·)⟩) }

/-- `DEL`. -/
def del (s : Store κ β) (k : κ) : Store κ β := { s with entries := Function.update s.entries k none }

/-- `PEXPIRE`. -/
def expire (s : Store κ β) (k : κ) (ttl : ℕ) : Store κ β :=
  match s.live k with
  | some e => { s with entries := Function.update s.entries k (some { e with deadline := some (s.now + ttl) }) }
  | none => s

@[simp] theorem set_now (s : Store κ β) (k : κ) (v : β) (ttl : Option ℕ) : (s.set k v ttl).now = s.now := rfl

@[simp] theorem del_now (s : Store κ β) (k : κ) : (s.del k).now = s.now := rfl

omit [DecidableEq κ] in
@[simp] theorem advance_now (s : Store κ β) (ms : ℕ) : (s.advance ms).now = s.now + ms := rfl

@[simp] theorem expire_now (s : Store κ β) (k : κ) (ttl : ℕ) : (s.expire k ttl).now = s.now := by
  unfold expire
  split <;> rfl

omit [DecidableEq κ] in
@[simp] theorem live_empty (now : ℕ) (k : κ) : (empty now : Store κ β).live k = none := rfl

omit [DecidableEq κ] in
@[simp] theorem get_empty (now : ℕ) (k : κ) : (empty now : Store κ β).get k = none := rfl

theorem live_set_same (s : Store κ β) (k : κ) (v : β) {ttl : ℕ} (positive : 0 < ttl) :
    (s.set k v (some ttl)).live k = some ⟨v, some (s.now + ttl)⟩ := by
  simp [live, set, alive, positive]

@[simp] theorem live_set_other (s : Store κ β) {k k' : κ} (v : β) (ttl : Option ℕ) (differs : k' ≠ k) :
    (s.set k v ttl).live k' = s.live k' := by
  simp [live, set, differs]

@[simp] theorem live_del_same (s : Store κ β) (k : κ) : (s.del k).live k = none := by
  simp [live, del]

@[simp] theorem live_del_other (s : Store κ β) {k k' : κ} (differs : k' ≠ k) : (s.del k).live k' = s.live k' := by
  simp [live, del, differs]

theorem live_expire_same (s : Store κ β) (k : κ) {ttl : ℕ} (positive : 0 < ttl) :
    (s.expire k ttl).live k = (s.live k).map fun e => { e with deadline := some (s.now + ttl) } := by
  unfold expire
  split
  · rename_i e found
    rw [found]
    simp [live, alive, positive]
  · rename_i absent
    rw [absent]
    rfl

@[simp] theorem live_expire_other (s : Store κ β) {k k' : κ} (ttl : ℕ) (differs : k' ≠ k) :
    (s.expire k ttl).live k' = s.live k' := by
  unfold expire
  split
  · simp [live, differs]
  · rfl

theorem get_set_same (s : Store κ β) (k : κ) (v : β) {ttl : ℕ} (positive : 0 < ttl) :
    (s.set k v (some ttl)).get k = some v := by
  rw [get, live_set_same s k v positive]
  rfl

@[simp] theorem get_set_other (s : Store κ β) {k k' : κ} (v : β) (ttl : Option ℕ) (differs : k' ≠ k) :
    (s.set k v ttl).get k' = s.get k' := by
  rw [get, live_set_other s v ttl differs, get]

@[simp] theorem get_del_same (s : Store κ β) (k : κ) : (s.del k).get k = none := by
  rw [get, live_del_same]
  rfl

@[simp] theorem get_del_other (s : Store κ β) {k k' : κ} (differs : k' ≠ k) : (s.del k).get k' = s.get k' := by
  rw [get, live_del_other s differs, get]

theorem get_expire_same (s : Store κ β) (k : κ) {ttl : ℕ} (positive : 0 < ttl) : (s.expire k ttl).get k = s.get k := by
  rw [get, live_expire_same s k positive, get, Option.map_map]
  rfl

@[simp] theorem get_expire_other (s : Store κ β) {k k' : κ} (ttl : ℕ) (differs : k' ≠ k) :
    (s.expire k ttl).get k' = s.get k' := by
  rw [get, live_expire_other s ttl differs, get]

omit [DecidableEq κ] in
/-- Time takes a key away or leaves it as it is. -/
theorem live_advance (s : Store κ β) (ms : ℕ) (k : κ) :
    (s.advance ms).live k = s.live k ∨ (s.advance ms).live k = none := by
  simp only [live, advance]
  cases h : s.entries k with
  | none => exact Or.inr rfl
  | some e =>
    rcases e with ⟨v, _ | deadline⟩
    · exact Or.inl rfl
    · rw [Option.filter_some, Option.filter_some]
      by_cases later : s.now + ms < deadline
      · have earlier : s.now < deadline := by omega
        left
        rw [alive, alive, decide_eq_true later, decide_eq_true earlier]
      · right
        rw [alive, decide_eq_false later]
        rfl

omit [DecidableEq κ] in
theorem pttl_advance {s : Store κ β} {k : κ} (absent : s.pttl k ≤ 0) (ms : ℕ) : (s.advance ms).pttl k ≤ 0 := by
  by_contra positive
  obtain ⟨v, d, found⟩ := pttl_pos.mp (Int.not_le.mp positive)
  rcases s.live_advance ms k with same | gone
  · have before := pttl_pos.mpr ⟨v, d, same.symm.trans found⟩
    omega
  · rw [gone] at found
    cases found

omit [DecidableEq κ] in
theorem live_of_advance {s : Store κ β} {ms : ℕ} {k : κ} {e : Entry β} (left : (s.advance ms).live k = some e) :
    s.live k = some e ∧ ∀ d, e.deadline = some d → s.now + ms < d := by
  have same : s.live k = some e := by
    rcases s.live_advance ms k with same | gone
    · exact same.symm.trans left
    · cases gone.symm.trans left
  refine ⟨same, fun d deadline => ?_⟩
  have lives := (Option.filter_eq_some_iff.mp left).2
  rw [deadline] at lives
  exact of_decide_eq_true lives

omit [DecidableEq κ] in
theorem live_advance_of {s : Store κ β} {ms d : ℕ} {k : κ} {e : Entry β} (present : s.live k = some e)
    (deadline : e.deadline = some d) (before : s.now + ms < d) : (s.advance ms).live k = some e := by
  obtain ⟨entry, _⟩ := Option.filter_eq_some_iff.mp present
  refine Option.filter_eq_some_iff.mpr ⟨entry, ?_⟩
  rw [deadline]
  exact decide_eq_true before

omit [DecidableEq κ] in
theorem get_advance (s : Store κ β) (ms : ℕ) (k : κ) :
    (s.advance ms).get k = s.get k ∨ (s.advance ms).get k = none := by
  rcases s.live_advance ms k with same | gone
  · exact Or.inl (by rw [get, same, get])
  · exact Or.inr (by rw [get, gone]; rfl)

omit [DecidableEq κ] in
theorem live_advance_eq (s : Store κ β) (ms : ℕ) (k : κ) :
    (s.advance ms).live k = (s.live k).filter fun e => alive (s.now + ms) e.deadline := by
  cases found : s.live k with
  | none =>
    rcases s.live_advance ms k with same | gone
    · exact same.trans found
    · exact gone
  | some e =>
    have entry := (Option.filter_eq_some_iff.mp found).1
    change (s.entries k).filter _ = _
    rw [entry]
    rfl

omit [DecidableEq κ] in
/-- A time to live runs down to nothing. -/
theorem pttl_advance_max (s : Store κ β) (k : κ) (ms : ℕ) : max ((s.advance ms).pttl k) 0 = max (max (s.pttl k) 0 - ms) 0 := by
  by_cases running : 0 < s.pttl k
  · obtain ⟨v, d, found⟩ := pttl_pos.mp running
    have before := pttl_live found
    have after := s.live_advance_eq ms k
    rw [found, Option.filter_some] at after
    by_cases later : s.now + ms < d
    · rw [alive, decide_eq_true later] at after
      have left := pttl_live after
      rw [advance_now] at left
      push_cast at left
      omega
    · rw [alive, decide_eq_false later] at after
      have gone : (s.advance ms).pttl k = -2 := by
        rw [pttl, after]
        rfl
      omega
  · have still := pttl_advance (Int.not_lt.mp running) ms
    omega

omit [DecidableEq κ] in
theorem live_advance_congr {s t : Store κ β} {k : κ} (live : s.live k = t.live k) (now : s.now = t.now) (ms : ℕ) :
    (s.advance ms).live k = (t.advance ms).live k := by
  rw [live_advance_eq, live_advance_eq, live, now]

theorem live_set_congr {s t : Store κ β} {k k' : κ} (live : s.live k' = t.live k') (now : s.now = t.now) (v : β)
    (ttl : Option ℕ) : (s.set k v ttl).live k' = (t.set k v ttl).live k' := by
  by_cases here : k' = k
  · subst here
    simp [KeyValue.Store.live, set, now]
  · rw [live_set_other s v ttl here, live_set_other t v ttl here, live]

theorem live_expire_congr {s t : Store κ β} {k k' : κ} (same : s.live k = t.live k) (live : s.live k' = t.live k')
    (now : s.now = t.now) (ttl : ℕ) : (s.expire k ttl).live k' = (t.expire k ttl).live k' := by
  by_cases here : k' = k
  · subst here
    unfold expire
    rw [← same]
    split
    · simp [KeyValue.Store.live, now]
    · exact same
  · rw [live_expire_other s ttl here, live_expire_other t ttl here, live]

/-! ### Counters -/

/-- `INCR`. -/
def incr (s : Store κ ℕ) (k : κ) : Store κ ℕ × ℕ :=
  match s.live k with
  | some e => ({ s with entries := Function.update s.entries k (some { e with value := e.value + 1 }) }, e.value + 1)
  | none => (s.set k 1 none, 1)

/-- `INCR`, and `PEXPIRE` when it starts the counter. -/
def count (s : Store κ ℕ) (k : κ) (ttl : ℕ) : Store κ ℕ × ℕ :=
  if (s.incr k).2 = 1 then ((s.incr k).1.expire k ttl, 1) else s.incr k

@[simp] theorem incr_now (s : Store κ ℕ) (k : κ) : (s.incr k).1.now = s.now := by
  unfold incr
  split <;> rfl

@[simp] theorem count_now (s : Store κ ℕ) (k : κ) (ttl : ℕ) : (s.count k ttl).1.now = s.now := by
  unfold count
  split
  · rw [expire_now, incr_now]
  · exact incr_now s k

theorem live_incr_other (s : Store κ ℕ) {k k' : κ} (differs : k' ≠ k) : (s.incr k).1.live k' = s.live k' := by
  unfold incr
  split
  · simp [live, differs]
  · exact live_set_other s 1 none differs

@[simp] theorem live_count_other (s : Store κ ℕ) {k k' : κ} (ttl : ℕ) (differs : k' ≠ k) :
    (s.count k ttl).1.live k' = s.live k' := by
  unfold count
  split
  · rw [live_expire_other _ ttl differs, live_incr_other s differs]
  · exact live_incr_other s differs

theorem incr_congr {s t : Store κ ℕ} {k k' : κ} (same : s.live k = t.live k) (live : s.live k' = t.live k') (now : s.now = t.now) :
    (s.incr k).2 = (t.incr k).2 ∧ (s.incr k).1.live k' = (t.incr k).1.live k' := by
  unfold incr
  rw [← same]
  split
  · refine ⟨rfl, ?_⟩
    by_cases here : k' = k
    · subst here
      simp [KeyValue.Store.live, now]
    · simp only [KeyValue.Store.live, Function.update_of_ne here] at live ⊢
      exact live
  · exact ⟨rfl, live_set_congr live now 1 none⟩

theorem count_congr {s t : Store κ ℕ} {k k' : κ} (same : s.live k = t.live k) (live : s.live k' = t.live k') (now : s.now = t.now)
    (ttl : ℕ) : (s.count k ttl).2 = (t.count k ttl).2 ∧ (s.count k ttl).1.live k' = (t.count k ttl).1.live k' := by
  obtain ⟨answer, after⟩ := incr_congr same live now
  obtain ⟨_, after'⟩ := incr_congr same same now
  have now' : (s.incr k).1.now = (t.incr k).1.now := by rw [incr_now, incr_now, now]
  unfold count
  rw [← answer]
  split
  · exact ⟨rfl, live_expire_congr after' after now' ttl⟩
  · exact ⟨answer, after⟩

theorem count_absent {s : Store κ ℕ} {k : κ} {ttl : ℕ} (positive : 0 < ttl) (absent : s.live k = none) :
    (s.count k ttl).2 = 1 ∧ (s.count k ttl).1.live k = some ⟨1, some (s.now + ttl)⟩ := by
  have first : s.incr k = (s.set k 1 none, 1) := by
    unfold incr
    rw [absent]
  unfold count
  rw [first, if_pos rfl]
  refine ⟨rfl, ?_⟩
  have kept : (s.set k 1 none).live k = some ⟨1, none⟩ := by
    simp [live, set, KeyValue.alive]
  rw [live_expire_same _ k positive, kept]
  rfl

theorem count_present {s : Store κ ℕ} {k : κ} {e : Entry ℕ} (ttl : ℕ) (present : s.live k = some e) (positive : 0 < e.value) :
    (s.count k ttl).2 = e.value + 1 ∧ (s.count k ttl).1.live k = some { e with value := e.value + 1 } := by
  have next : s.incr k = ({ s with entries := Function.update s.entries k (some { e with value := e.value + 1 }) }, e.value + 1) := by
    unfold incr
    rw [present]
  have lives : alive s.now e.deadline = true := (Option.filter_eq_some_iff.mp present).2
  unfold count
  rw [next, if_neg (by dsimp only; omega)]
  refine ⟨rfl, ?_⟩
  simp [live, lives]

theorem count_window {s : Store κ ℕ} {k : κ} {n d ttl : ℕ} (positive : 0 < ttl)
    (counted : s.live k = if n = 0 then none else some ⟨n, some d⟩) (first : n = 0 → d = s.now + ttl) :
    (s.count k ttl).2 = n + 1 ∧ (s.count k ttl).1.live k = some ⟨n + 1, some d⟩ := by
  by_cases fresh : n = 0
  · subst fresh
    rw [if_pos rfl] at counted
    rw [first rfl]
    exact count_absent positive counted
  · rw [if_neg fresh] at counted
    exact count_present ttl counted (Nat.pos_of_ne_zero fresh)

/-! ### Claims

A claim is a key that holds its owner's token. -/

/-- `SET` with `NX`: nothing when the key is present. -/
def setIfAbsent (s : Store κ β) (k : κ) (v : β) (ttl : ℕ) : Option (Store κ β) :=
  if (s.get k).isSome then none else some (s.set k v (some ttl))

variable [DecidableEq β]

/-- `DEL` if the key holds the value. -/
def delIf (s : Store κ β) (k : κ) (v : β) : Store κ β := if s.get k = some v then s.del k else s

/-- `PEXPIRE` if the key holds the value. -/
def expireIf (s : Store κ β) (k : κ) (v : β) (ttl : ℕ) : Store κ β :=
  if s.get k = some v then s.expire k ttl else s

@[simp] theorem delIf_now (s : Store κ β) (k : κ) (v : β) : (s.delIf k v).now = s.now := by
  unfold delIf
  split <;> rfl

@[simp] theorem expireIf_now (s : Store κ β) (k : κ) (v : β) (ttl : ℕ) : (s.expireIf k v ttl).now = s.now := by
  unfold expireIf
  split <;> simp

omit [DecidableEq β] in
theorem setIfAbsent_some {s t : Store κ β} {k : κ} {v : β} {ttl : ℕ} (granted : s.setIfAbsent k v ttl = some t) :
    s.get k = none ∧ t = s.set k v (some ttl) := by
  unfold setIfAbsent at granted
  split at granted
  · cases granted
  · rename_i absent
    exact ⟨Option.not_isSome_iff_eq_none.mp absent, (Option.some.inj granted).symm⟩

omit [DecidableEq β] in
theorem setIfAbsent_of_absent {s : Store κ β} {k : κ} (absent : s.get k = none) (v : β) (ttl : ℕ) :
    s.setIfAbsent k v ttl = some (s.set k v (some ttl)) := by
  rw [setIfAbsent, absent]
  rfl

/-- Only the owner frees a claim. -/
theorem get_delIf_same (s : Store κ β) (k : κ) (v : β) :
    (s.delIf k v).get k = if s.get k = some v then none else s.get k := by
  unfold delIf
  split <;> simp

@[simp] theorem get_delIf_other (s : Store κ β) {k k' : κ} (v : β) (differs : k' ≠ k) :
    (s.delIf k v).get k' = s.get k' := by
  unfold delIf
  split
  · exact s.get_del_other differs
  · rfl

theorem live_expireIf_same (s : Store κ β) (k : κ) (v : β) {ttl : ℕ} (positive : 0 < ttl) :
    (s.expireIf k v ttl).live k =
      if s.get k = some v then some ⟨v, some (s.now + ttl)⟩ else s.live k := by
  unfold expireIf
  split
  · rename_i held
    rw [live_expire_same s k positive]
    cases found : s.live k with
    | none => rw [get, found] at held; cases held
    | some e =>
      rw [get, found] at held
      cases held
      rfl
  · rfl

@[simp] theorem live_delIf_other (s : Store κ β) {k k' : κ} (v : β) (differs : k' ≠ k) :
    (s.delIf k v).live k' = s.live k' := by
  unfold delIf
  split
  · exact s.live_del_other differs
  · rfl

@[simp] theorem live_expireIf_other (s : Store κ β) {k k' : κ} (v : β) (ttl : ℕ) (differs : k' ≠ k) :
    (s.expireIf k v ttl).live k' = s.live k' := by
  unfold expireIf
  split
  · exact s.live_expire_other ttl differs
  · rfl

theorem get_expireIf (s : Store κ β) (k k' : κ) (v : β) {ttl : ℕ} (positive : 0 < ttl) :
    (s.expireIf k v ttl).get k' = s.get k' := by
  unfold expireIf
  split
  · by_cases same : k' = k
    · subst same
      exact s.get_expire_same k' positive
    · exact s.get_expire_other ttl same
  · rfl

end Store

end KeyValue
