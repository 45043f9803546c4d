import AppPlatform.Mail.MailState

/-!
# The state in memory refines the state on Valkey

Call for call both states give the same answer, whatever the order of calls and the time between
them, as long as no ledger key lies under the prefixes of the pacing keys and every text survives
the wire. Both states are related by what they would answer: entries by their deadlines, cooldowns
by what is left of them, buckets by their level from now on.
-/

namespace Mail
open Js

def answers {σ : Type} (perform : σ → Operation → Reply × σ) : σ → List Operation → List Reply
  | _, [] => []
  | s, op :: ops => (perform s op).1 :: answers perform (perform s op).2 ops

/-- A key that no pacing script uses. -/
def LedgerKey (key : Text) : Prop :=
  isWellFormed key = true ∧ ¬ text "mail:rate:" <+: key ∧ ¬ text "mail:cooldown:" <+: key

/-- Keys of the ledger, well-formed texts and positive times. -/
def Operation.Admissible : Operation → Prop
  | .claim key leaseSeconds _ => LedgerKey key ∧ 0 < leaseSeconds
  | .markSent key id ttlSeconds => LedgerKey key ∧ isWellFormed id = true ∧ 0 < ttlSeconds
  | .renew key _ leaseSeconds => LedgerKey key ∧ 0 < leaseSeconds
  | .release key _ => LedgerKey key
  | .takeSlot mailbox => isWellFormed mailbox = true
  | .backOff mailbox seconds => isWellFormed mailbox = true ∧ 0 < seconds
  | .pass _ => True

theorem wire_eq {t : Text} (wellFormed : isWellFormed t = true) : wire t = t := toWellFormed_eq wellFormed

namespace Memory

@[simp] theorem live_entry (m : Memory) (key : Text) : (m.live key).2.entry = m.entry := (live_spec m key).2.1

@[simp] theorem live_now (m : Memory) (key : Text) : (m.live key).2.now = m.now := (live_spec m key).2.2.1

@[simp] theorem live_buckets (m : Memory) (key : Text) : (m.live key).2.buckets = m.buckets := (live_spec m key).2.2.2.1

@[simp] theorem live_cooldowns (m : Memory) (key : Text) : (m.live key).2.cooldowns = m.cooldowns := (live_spec m key).2.2.2.2

theorem claim_absent {m : Memory} {key : Text} (absent : m.entry key = none) (token : Text) (leaseSeconds : ℕ) :
    m.claim key token leaseSeconds = (.claimed token, (m.live key).2.set key (claimedValue token) leaseSeconds) := by
  have read := (live_spec m key).1
  rw [absent] at read
  unfold claim
  generalize m.live key = l at read
  obtain ⟨value, m'⟩ := l
  cases read
  rfl

theorem claim_held {m : Memory} {key t : Text} {d : ℕ} (held : m.entry key = some ⟨claimedValue t, d⟩) (token : Text)
    (leaseSeconds : ℕ) : m.claim key token leaseSeconds = (.inFlight, (m.live key).2) := by
  have read := (live_spec m key).1
  rw [held] at read
  unfold claim
  generalize m.live key = l at read
  obtain ⟨value, m'⟩ := l
  cases read
  rfl

theorem claim_sent {m : Memory} {key id : Text} {d : ℕ} (sent : m.entry key = some ⟨sentValue id, d⟩) (token : Text)
    (leaseSeconds : ℕ) : m.claim key token leaseSeconds = (.sent id, (m.live key).2) := by
  have read := (live_spec m key).1
  rw [sent] at read
  have tagged : (text "sent:").isPrefixOf (sentValue id) = true := List.isPrefixOf_iff_prefix.mpr ⟨id, rfl⟩
  unfold claim
  generalize m.live key = l at read
  obtain ⟨value, m'⟩ := l
  cases read
  exact if_pos tagged

theorem renew_eq (m : Memory) (key token : Text) (leaseSeconds : ℕ) :
    m.renew key token leaseSeconds =
      if (m.entry key).map MemoryEntry.value = some (claimedValue token) then
        (true, (m.live key).2.set key (claimedValue token) leaseSeconds)
      else (false, (m.live key).2) := by
  rw [← (live_spec m key).1]
  by_cases own : (m.live key).1 = some (claimedValue token)
  · rw [if_pos own]
    exact if_neg (not_not.mpr own)
  · rw [if_neg own]
    exact if_pos own

theorem release_eq (m : Memory) (key token : Text) :
    m.release key token =
      if (m.entry key).map MemoryEntry.value = some (claimedValue token) then
        { (m.live key).2 with entries := Function.update (m.live key).2.entries key none }
      else (m.live key).2 := by
  rw [release, ← (live_spec m key).1]

theorem entry_pass (m : Memory) (ms : ℕ) (key : Text) :
    ({ m with now := m.now + ms } : Memory).entry key = (m.entry key).filter fun e => m.now + ms < e.expiresAt := by
  rw [entry, entry, Option.filter_filter]
  congr 1
  funext e
  by_cases later : m.now + ms < e.expiresAt
  · have earlier : m.now < e.expiresAt := by omega
    simp [later, earlier]
  · simp [later]

end Memory

section
variable {lower : Text → Text} {tokV tokM : ℕ → Text}

variable (tokV tokM) in
/-- What the two states keep under a ledger key. -/
inductive SameEntry : Option (KeyValue.Entry Text) → Option MemoryEntry → Prop
  | absent : SameEntry none none
  | claimed (n d : ℕ) : SameEntry (some ⟨claimedValue (tokV n), some d⟩) (some ⟨claimedValue (tokM n), d⟩)
  | sent (id : Text) (d : ℕ) : SameEntry (some ⟨sentValue id, some d⟩) (some ⟨sentValue id, d⟩)

variable (tokV tokM) in
/-- The same answer, a token by the place where it was drawn. -/
inductive SameReply : Reply → Reply → Prop
  | granted (n : ℕ) : SameReply (.claim (.claimed (tokV n))) (.claim (.claimed (tokM n)))
  | same (r : Reply) (ungranted : ∀ t, r ≠ .claim (.claimed t)) : SameReply r r

variable (tokV tokM) in
structure Refines (v : Valkey) (m : Memory) : Prop where
  clock : v.micros / 1000 = m.now
  strings_now : v.server.strings.now = m.now
  buckets_now : v.server.buckets.now = m.now
  entries : ∀ key, LedgerKey key → SameEntry tokV tokM (v.server.strings.live key) (m.entry key)
  cooldowns : ∀ name, isWellFormed name = true →
    max (v.server.strings.pttl (text "mail:cooldown:" ++ name)) 0 = max ((m.cooldowns name).getD 0 - m.now) 0
  bucketed : ∀ key, Bucketed v.server key
  levels : ∀ name, isWellFormed name = true → ∀ later, m.now ≤ later →
    TokenBucket.levelOf mailRate later (v.server.buckets.get (text "mail:rate:" ++ name)) =
      TokenBucket.levelOf mailRate later (m.buckets name)

theorem create_refines (micros : ℕ) : Refines tokV tokM (.create micros) (.create (micros / 1000)) where
  clock := rfl
  strings_now := rfl
  buckets_now := rfl
  entries _ _ := .absent
  cooldowns name _ := by
    have none : (Valkey.create micros).server.strings.pttl (text "mail:cooldown:" ++ name) = -2 := rfl
    have empty : ((Memory.create (micros / 1000)).cooldowns name).getD 0 = 0 := rfl
    have now : (Memory.create (micros / 1000)).now = micros / 1000 := rfl
    omega
  bucketed _ _ live := by cases live
  levels _ _ _ _ := rfl

/-! ### The ledger -/

theorem ledger_ne_cooldown {key : Text} (ledger : LedgerKey key) (name : Text) : text "mail:cooldown:" ++ name ≠ key := by
  intro same
  exact ledger.2.2 ⟨name, same⟩

theorem pttl_congr {s t : Store} {key : Text} (live : s.live key = t.live key) (now : s.now = t.now) :
    s.pttl key = t.pttl key := by
  rw [KeyValue.Store.pttl, live, now, KeyValue.Store.pttl]

theorem Refines.write {v : Valkey} {m m' : Memory} {strings : Store} {key : Text} (refines : Refines tokV tokM v m)
    (ledger : LedgerKey key) (now : strings.now = v.server.strings.now)
    (others : ∀ key', key' ≠ key → strings.live key' = v.server.strings.live key')
    (others' : ∀ key', key' ≠ key → m'.entry key' = m.entry key')
    (rest : m'.now = m.now ∧ m'.buckets = m.buckets ∧ m'.cooldowns = m.cooldowns)
    (same : SameEntry tokV tokM (strings.live key) (m'.entry key)) : Refines tokV tokM (v.writeStrings strings) m' := by
  obtain ⟨now', buckets', cooldowns'⟩ := rest
  refine ⟨?_, ?_, ?_, ?_, ?_, refines.bucketed, ?_⟩
  · rw [now']
    exact refines.clock
  · rw [now']
    exact now.trans refines.strings_now
  · rw [now']
    exact refines.buckets_now
  · intro key' ledger'
    by_cases here : key' = key
    · subst here
      exact same
    · rw [others' key' here]
      show SameEntry tokV tokM (strings.live key') _
      rw [others key' here]
      exact refines.entries key' ledger'
  · intro name wellFormed
    rw [cooldowns', now']
    show max (strings.pttl _) 0 = _
    rw [pttl_congr (others _ (ledger_ne_cooldown ledger name)) now]
    exact refines.cooldowns name wellFormed
  · rw [now', buckets']
    exact refines.levels

/-- Reading drops an entry that has expired, which no answer shows. -/
theorem Refines.read {v : Valkey} {m : Memory} (refines : Refines tokV tokM v m) (key : Text) :
    Refines tokV tokM v (m.live key).2 := by
  refine ⟨?_, ?_, ?_, ?_, ?_, refines.bucketed, ?_⟩
  · rw [Memory.live_now]
    exact refines.clock
  · rw [Memory.live_now]
    exact refines.strings_now
  · rw [Memory.live_now]
    exact refines.buckets_now
  · rw [Memory.live_entry]
    exact refines.entries
  · rw [Memory.live_cooldowns, Memory.live_now]
    exact refines.cooldowns
  · rw [Memory.live_buckets, Memory.live_now]
    exact refines.levels

theorem Refines.set {v : Valkey} {m : Memory} {key value value' : Text} {seconds : ℕ} (refines : Refines tokV tokM v m)
    (ledger : LedgerKey key) (positive : 0 < seconds)
    (same : ∀ d, SameEntry tokV tokM (some ⟨value, some d⟩) (some ⟨value', d⟩)) :
    Refines tokV tokM (v.writeStrings (v.server.strings.set key value (some (1000 * seconds)))) (m.set key value' seconds) := by
  apply refines.write ledger (KeyValue.Store.set_now _ _ _ _)
  · exact fun key' differs => KeyValue.Store.live_set_other _ _ _ differs
  · exact fun key' differs => Memory.entry_set_other m value' seconds differs
  · exact ⟨rfl, rfl, rfl⟩
  · rw [KeyValue.Store.live_set_same _ _ _ (by omega), Memory.entry_set_same m key value' positive, refines.strings_now,
      Nat.mul_comm 1000 seconds]
    exact same _

theorem claim_refines {v : Valkey} {m : Memory} {key : Text} {leaseSeconds : ℕ} (refines : Refines tokV tokM v m)
    (ledger : LedgerKey key) (positive : 0 < leaseSeconds) (n : ℕ) :
    SameReply tokV tokM (v.perform lower tokV (.claim key leaseSeconds n)).1 (m.perform lower tokM (.claim key leaseSeconds n)).1 ∧
    Refines tokV tokM (v.perform lower tokV (.claim key leaseSeconds n)).2 (m.perform lower tokM (.claim key leaseSeconds n)).2 := by
  have kept := refines.entries key ledger
  simp only [Valkey.perform, Memory.perform, wire_eq ledger.1]
  generalize found : v.server.strings.live key = e at kept
  generalize found' : m.entry key = e' at kept
  have got : v.server.strings.get key = e.map KeyValue.Entry.value := by rw [KeyValue.Store.get, found]
  induction kept with
  | absent =>
    rw [claim_absent got, Memory.claim_absent found']
    exact ⟨.granted n, (refines.read key).set ledger positive (.claimed n)⟩
  | claimed n' d =>
    rw [claim_held got, Memory.claim_held found']
    exact ⟨.same _ (by simp), refines.read key⟩
  | sent id d =>
    rw [claim_sent got, Memory.claim_sent found']
    exact ⟨.same _ (by simp), refines.read key⟩

theorem SameEntry.holder {e : Option (KeyValue.Entry Text)} {e' : Option MemoryEntry} (same : SameEntry tokV tokM e e')
    (tokV_injective : Function.Injective tokV) (tokM_injective : Function.Injective tokM) (n : ℕ) :
    e.map KeyValue.Entry.value = some (claimedValue (tokV n)) ↔
      e'.map MemoryEntry.value = some (claimedValue (tokM n)) := by
  induction same with
  | absent => simp
  | claimed n' d =>
    simp only [Option.map_some, Option.some.injEq]
    constructor
    · intro own
      rw [tokV_injective (claimedValue_injective own)]
    · intro own
      rw [tokM_injective (claimedValue_injective own)]
  | sent id d =>
    have other : ∀ t, sentValue id ≠ claimedValue t := fun t same => claimed_ne_sent t id same.symm
    simp [other]

theorem renew_refines {v : Valkey} {m : Memory} {key : Text} {leaseSeconds : ℕ} (refines : Refines tokV tokM v m)
    (tokV_injective : Function.Injective tokV) (tokM_injective : Function.Injective tokM)
    (ledger : LedgerKey key) (positive : 0 < leaseSeconds) (n : ℕ) :
    SameReply tokV tokM (v.perform lower tokV (.renew key n leaseSeconds)).1 (m.perform lower tokM (.renew key n leaseSeconds)).1 ∧
    Refines tokV tokM (v.perform lower tokV (.renew key n leaseSeconds)).2 (m.perform lower tokM (.renew key n leaseSeconds)).2 := by
  have holder := (refines.entries key ledger).holder tokV_injective tokM_injective n
  simp only [Valkey.perform, Memory.perform, wire_eq ledger.1, Memory.renew_eq]
  by_cases own : v.server.strings.get key = some (claimedValue (tokV n))
  · have own' := holder.mp own
    rw [decide_eq_true own, if_pos own']
    refine ⟨.same _ (by simp), ?_⟩
    have renewed : renew v.server.strings key (tokV n) leaseSeconds = v.server.strings.expire key (1000 * leaseSeconds) := if_pos own
    rw [renewed]
    apply (refines.read key).write ledger (KeyValue.Store.expire_now _ _ _)
    · exact fun key' differs => KeyValue.Store.live_expire_other _ _ differs
    · exact fun key' differs => Memory.entry_set_other _ _ _ differs
    · exact ⟨rfl, rfl, rfl⟩
    · obtain ⟨e, found, value⟩ := Option.map_eq_some_iff.mp own
      show SameEntry tokV tokM _ (((m.live key).2.set key (claimedValue (tokM n)) leaseSeconds).entry key)
      rw [KeyValue.Store.live_expire_same _ _ (by omega), found, Memory.entry_set_same _ _ _ positive, Memory.live_now,
        refines.strings_now, Nat.mul_comm 1000 leaseSeconds, Option.map_some, value]
      exact .claimed n _
  · have other' := fun own' => own (holder.mpr own')
    rw [decide_eq_false own, if_neg other', renew_other own]
    exact ⟨.same _ (by simp), refines.read key⟩

theorem release_refines {v : Valkey} {m : Memory} {key : Text} (refines : Refines tokV tokM v m)
    (tokV_injective : Function.Injective tokV) (tokM_injective : Function.Injective tokM) (ledger : LedgerKey key) (n : ℕ) :
    Refines tokV tokM (v.perform lower tokV (.release key n)).2 (m.perform lower tokM (.release key n)).2 := by
  have holder := (refines.entries key ledger).holder tokV_injective tokM_injective n
  simp only [Valkey.perform, Memory.perform, wire_eq ledger.1, Memory.release_eq]
  by_cases own : v.server.strings.get key = some (claimedValue (tokV n))
  · have own' := holder.mp own
    rw [if_pos own']
    have released : release v.server.strings key (tokV n) = v.server.strings.del key := if_pos own
    rw [released]
    apply (refines.read key).write ledger (KeyValue.Store.del_now _ _)
    · exact fun key' differs => KeyValue.Store.live_del_other _ differs
    · intro key' differs
      simp only [Memory.entry, Function.update_of_ne differs]
    · exact ⟨rfl, rfl, rfl⟩
    · rw [KeyValue.Store.live_del_same]
      have gone : ({ (m.live key).2 with entries := Function.update (m.live key).2.entries key none } : Memory).entry key = none := by
        simp [Memory.entry]
      rw [gone]
      exact .absent
  · have other' := fun own' => own (holder.mpr own')
    rw [if_neg other', release_other own]
    exact refines.read key

/-! ### Pacing -/

theorem wire_keys {lower : Text → Text} {mailbox : Text} (wellFormed : isWellFormed (lower mailbox) = true) :
    wire (rateKey lower mailbox) = text "mail:rate:" ++ lower mailbox ∧
    wire (cooldownKey lower mailbox) = text "mail:cooldown:" ++ lower mailbox := by
  rw [wire_rateKey, wire_cooldownKey, mailboxOf, wire_eq wellFormed]
  exact ⟨rfl, rfl⟩

theorem takeSlot_cooling {m : Memory} {mailbox : Text} (cooling : 0 < (m.cooldowns (lower mailbox)).getD 0 - m.now) :
    m.takeSlot lower mailbox = ((m.cooldowns (lower mailbox)).getD 0 - m.now, m) := if_pos cooling

theorem takeSlot_open {m : Memory} {mailbox : Text} (ready : (m.cooldowns (lower mailbox)).getD 0 - m.now ≤ 0) :
    m.takeSlot lower mailbox =
      if 1 ≤ TokenBucket.levelOf mailRate m.now (m.buckets (lower mailbox)) then
        (0, m.fill (lower mailbox) ⟨TokenBucket.levelOf mailRate m.now (m.buckets (lower mailbox)) - 1, m.now⟩)
      else (⌈(1 - TokenBucket.levelOf mailRate m.now (m.buckets (lower mailbox))) / ratePerMs⌉,
        m.fill (lower mailbox) ⟨TokenBucket.levelOf mailRate m.now (m.buckets (lower mailbox)), m.now⟩) := by
  have found : TokenBucket.levelOf mailRate m.now (m.buckets (lower mailbox)) =
      min (MAIL_RATE.burst : ℚ) (((m.buckets (lower mailbox)).getD ⟨MAIL_RATE.burst, m.now⟩).tokens +
        ((m.now : ℚ) - ((m.buckets (lower mailbox)).getD ⟨MAIL_RATE.burst, m.now⟩).asOf) * ratePerMs) := by
    cases m.buckets (lower mailbox) with
    | none => simp [TokenBucket.levelOf, mailRate]
    | some b => rfl
  rw [Memory.takeSlot]
  simp only
  rw [if_neg (by omega), found]

/-- Both states fill the bucket of one mailbox alike. -/
theorem Refines.fill {v : Valkey} {m : Memory} {name : Text} {tokens : ℚ} (refines : Refines tokV tokM v m)
    (nonneg : 0 ≤ tokens) (fits : tokens ≤ mailRate.burst) :
    Refines tokV tokM { v with server := v.server.fill (text "mail:rate:" ++ name) ⟨tokens, m.now⟩ }
      (m.fill name ⟨tokens, m.now⟩) := by
  refine ⟨refines.clock, refines.strings_now, refines.buckets_now, refines.entries, refines.cooldowns, ?_, ?_⟩
  · intro key
    by_cases here : key = text "mail:rate:" ++ name
    · subst here
      rw [← refines.buckets_now]
      exact fill_bucketed nonneg fits
    · intro e live
      rw [fill_live_other _ _ here] at live
      exact refines.bucketed key e live
  · intro name' wellFormed later order
    by_cases here : name' = name
    · subst here
      have filled := fill_holds v.server (text "mail:rate:" ++ name') ⟨tokens, m.now⟩ later
        (by rw [fill_now, refines.buckets_now]; exact order)
      have same : (m.fill name' ⟨tokens, m.now⟩).buckets name' = some ⟨tokens, m.now⟩ := Function.update_self _ _ _
      rw [same]
      exact filled
    · have other : text "mail:rate:" ++ name' ≠ text "mail:rate:" ++ name := fun same => here (List.append_cancel_left same)
      have untouched : (m.fill name ⟨tokens, m.now⟩).buckets name' = m.buckets name' := Function.update_of_ne here _ _
      rw [untouched, KeyValue.Store.get, fill_live_other _ _ other]
      exact refines.levels name' wellFormed later order

theorem takeSlot_refines {v : Valkey} {m : Memory} {mailbox : Text} (refines : Refines tokV tokM v m)
    (wellFormed : isWellFormed (lower mailbox) = true) :
    SameReply tokV tokM (v.perform lower tokV (.takeSlot mailbox)).1 (m.perform lower tokM (.takeSlot mailbox)).1 ∧
    Refines tokV tokM (v.perform lower tokV (.takeSlot mailbox)).2 (m.perform lower tokM (.takeSlot mailbox)).2 := by
  obtain ⟨rate, cooldown⟩ := wire_keys wellFormed
  have waits := refines.cooldowns _ wellFormed
  simp only [Valkey.perform, Memory.perform]
  rw [takeSlot, rate, cooldown]
  by_cases cooling : 0 < v.server.strings.pttl (text "mail:cooldown:" ++ lower mailbox)
  · rw [TAKE_SLOT_cooling cooling, takeSlot_cooling (by omega)]
    have agree : v.server.strings.pttl (text "mail:cooldown:" ++ lower mailbox) =
      (m.cooldowns (lower mailbox)).getD 0 - m.now := by omega
    rw [agree]
    exact ⟨.same _ (by simp), refines⟩
  · have level : v.server.left (text "mail:rate:" ++ lower mailbox) m.now = TokenBucket.levelOf mailRate m.now
      (m.buckets (lower mailbox)) :=
      refines.levels _ wellFormed m.now le_rfl
    have nonneg := (refines.bucketed (text "mail:rate:" ++ lower mailbox)).left_nonneg
    have fits := left_le_burst v.server (text "mail:rate:" ++ lower mailbox) m.now
    rw [refines.buckets_now] at nonneg
    rw [TAKE_SLOT_open (by omega), takeSlot_open (by omega), refines.clock, ← level]
    by_cases whole : 1 ≤ v.server.left (text "mail:rate:" ++ lower mailbox) m.now
    · rw [if_pos whole, if_pos whole]
      exact ⟨.same _ (by simp), refines.fill (by linarith) (by linarith)⟩
    · rw [if_neg whole, if_neg whole]
      exact ⟨.same _ (by simp), refines.fill nonneg fits⟩

theorem ceil_seconds (seconds : ℕ) : ⌈(seconds : ℚ) * 1000⌉ = (seconds : ℤ) * 1000 := by
  have cast : (seconds : ℚ) * 1000 = (((seconds : ℤ) * 1000 : ℤ) : ℚ) := by push_cast; rfl
  rw [cast, Int.ceil_intCast]

theorem backOff_refines {v : Valkey} {m : Memory} {mailbox : Text} {seconds : ℕ} (refines : Refines tokV tokM v m)
    (wellFormed : isWellFormed (lower mailbox) = true) (positive : 0 < seconds) :
    SameReply tokV tokM (v.perform lower tokV (.backOff mailbox seconds)).1 (m.perform lower tokM (.backOff mailbox seconds)).1 ∧
    Refines tokV tokM (v.perform lower tokV (.backOff mailbox seconds)).2 (m.perform lower tokM (.backOff mailbox seconds)).2 := by
  obtain ⟨_, cooldown⟩ := wire_keys wellFormed
  have waits := refines.cooldowns _ wellFormed
  simp only [Valkey.perform, Memory.perform, backOff, BACK_OFF, Memory.backOff]
  rw [cooldown, ceil_seconds]
  by_cases longer : v.server.strings.pttl (text "mail:cooldown:" ++ lower mailbox) < (seconds : ℤ) * 1000
  · rw [if_pos longer, if_pos (by omega), if_pos (by omega)]
    refine ⟨.same _ (by simp), ⟨refines.clock, refines.strings_now, refines.buckets_now, ?_, ?_,
      refines.bucketed, refines.levels⟩⟩
    · intro key ledger
      show SameEntry tokV tokM ((v.server.strings.set _ _ _).live key) (m.entry key)
      rw [KeyValue.Store.live_set_other _ _ _ (ledger_ne_cooldown ledger _).symm]
      exact refines.entries key ledger
    · intro name wellFormed'
      by_cases here : name = lower mailbox
      · subst here
        have set := v.server.strings.live_set_same (text "mail:cooldown:" ++ lower mailbox) (text "1")
          (show 0 < ((seconds : ℤ) * 1000).toNat by omega)
        have left := KeyValue.Store.pttl_live set
        rw [KeyValue.Store.set_now] at left
        dsimp only
        rw [Function.update_self, Option.getD_some, left]
        push_cast
        omega
      · have other : text "mail:cooldown:" ++ name ≠ text "mail:cooldown:" ++ lower mailbox :=
          fun same => here (List.append_cancel_left same)
        dsimp only
        rw [Function.update_of_ne here]
        show max ((v.server.strings.set _ _ _).pttl _) 0 = _
        rw [pttl_congr (KeyValue.Store.live_set_other _ _ _ other) (KeyValue.Store.set_now _ _ _ _)]
        exact refines.cooldowns name wellFormed'
  · rw [if_neg longer, if_neg (by omega)]
    exact ⟨.same _ (by simp), refines⟩

/-! ### Runs -/

theorem SameEntry.pass {e : Option (KeyValue.Entry Text)} {e' : Option MemoryEntry} (same : SameEntry tokV tokM e e') (now : ℕ) :
    SameEntry tokV tokM (e.filter fun e => KeyValue.alive now e.deadline) (e'.filter fun e => now < e.expiresAt) := by
  induction same with
  | absent => exact .absent
  | claimed n d =>
    rw [Option.filter_some, Option.filter_some]
    by_cases alive : now < d
    · rw [KeyValue.alive, decide_eq_true alive]
      exact .claimed n d
    · rw [KeyValue.alive, decide_eq_false alive]
      exact .absent
  | sent id d =>
    rw [Option.filter_some, Option.filter_some]
    by_cases alive : now < d
    · rw [KeyValue.alive, decide_eq_true alive]
      exact .sent id d
    · rw [KeyValue.alive, decide_eq_false alive]
      exact .absent

/-- An entry, a cooldown and a bucket run out in both states alike: a bucket that expires is full by then. -/
theorem pass_refines {v : Valkey} {m : Memory} (refines : Refines tokV tokM v m) (ms : ℕ) :
    Refines tokV tokM (v.perform lower tokV (.pass ms)).2 (m.perform lower tokM (.pass ms)).2 := by
  have clock := refines.clock
  have strings := refines.strings_now
  have buckets := refines.buckets_now
  simp only [Valkey.perform, Memory.perform]
  refine ⟨?_, ?_, ?_, ?_, ?_, fun key => advance_bucketed (refines.bucketed key) ms, ?_⟩
  · show (v.micros + 1000 * ms) / 1000 = m.now + ms
    omega
  · show v.server.strings.now + ms = m.now + ms
    omega
  · show v.server.buckets.now + ms = m.now + ms
    omega
  · intro key ledger
    rw [Memory.entry_pass]
    show SameEntry tokV tokM ((v.server.strings.advance ms).live key) _
    rw [KeyValue.Store.live_advance_eq, strings]
    exact (refines.entries key ledger).pass _
  · intro name wellFormed
    have waits := refines.cooldowns name wellFormed
    show max ((v.server.strings.advance ms).pttl _) 0 = _
    rw [KeyValue.Store.pttl_advance_max, waits]
    push_cast
    omega
  · intro name wellFormed later order
    have order : m.now + ms ≤ later := order
    rw [level_advance (refines.bucketed _) (by rw [buckets]; exact order)]
    exact refines.levels name wellFormed later (by omega)

theorem perform_refines {v : Valkey} {m : Memory} {op : Operation} (refines : Refines tokV tokM v m)
    (tokV_injective : Function.Injective tokV) (tokM_injective : Function.Injective tokM)
    (lower_wellFormed : ∀ t, isWellFormed t = true → isWellFormed (lower t) = true) (admissible : op.Admissible) :
    SameReply tokV tokM (v.perform lower tokV op).1 (m.perform lower tokM op).1 ∧
    Refines tokV tokM (v.perform lower tokV op).2 (m.perform lower tokM op).2 := by
  cases op with
  | claim key leaseSeconds n => exact claim_refines refines admissible.1 admissible.2 n
  | markSent key id ttlSeconds =>
    obtain ⟨ledger, wellFormed, positive⟩ := admissible
    simp only [Valkey.perform, Memory.perform, wire_eq ledger.1, wire_eq wellFormed]
    exact ⟨.same _ (by simp), refines.set ledger positive (.sent id)⟩
  | renew key n leaseSeconds => exact renew_refines refines tokV_injective tokM_injective admissible.1 admissible.2 n
  | release key n => exact ⟨.same .done (by simp), release_refines refines tokV_injective tokM_injective admissible n⟩
  | takeSlot mailbox => exact takeSlot_refines refines (lower_wellFormed _ admissible)
  | backOff mailbox seconds => exact backOff_refines refines (lower_wellFormed _ admissible.1) admissible.2
  | pass ms => exact ⟨.same .done (by simp), pass_refines refines ms⟩

/-- Call for call the same answers. -/
theorem memory_refines (tokV_injective : Function.Injective tokV) (tokM_injective : Function.Injective tokM)
    (lower_wellFormed : ∀ t, isWellFormed t = true → isWellFormed (lower t) = true) (micros : ℕ) (ops : List Operation)
    (admissible : ∀ op ∈ ops, op.Admissible) :
    List.Forall₂ (SameReply tokV tokM) (answers (Valkey.perform lower tokV) (.create micros) ops)
      (answers (Memory.perform lower tokM) (.create (micros / 1000)) ops) := by
  have start : Refines tokV tokM (.create micros) (.create (micros / 1000)) := create_refines micros
  revert start
  generalize Valkey.create micros = v
  generalize Memory.create (micros / 1000) = m
  intro start
  induction ops generalizing v m with
  | nil => exact .nil
  | cons op ops ih =>
    obtain ⟨same, next⟩ := perform_refines start tokV_injective tokM_injective lower_wellFormed (admissible op List.mem_cons_self)
    exact .cons same (ih (fun op' member => admissible op' (List.mem_cons_of_mem _ member)) _ _ next)

end

/-- The n-th token. -/
def drawn (n : ℕ) : Text := List.replicate n 118

theorem drawn_injective : Function.Injective drawn := by
  intro n n' same
  have lengths := congrArg List.length same
  rwa [drawn, drawn, List.length_replicate, List.length_replicate] at lengths

theorem memory_refines_numbered :
    List.Forall₂ (SameReply drawn drawn)
      (answers (Valkey.perform id drawn) (.create 0)
        [.claim (text "k") 60 0, .backOff (text "a") 1, .takeSlot (text "a"), .pass 60000, .claim (text "k") 60 1])
      (answers (Memory.perform id drawn) (.create 0)
        [.claim (text "k") 60 0, .backOff (text "a") 1, .takeSlot (text "a"), .pass 60000, .claim (text "k") 60 1]) := by
  have ledger : LedgerKey (text "k") := ⟨by decide, by decide, by decide⟩
  apply memory_refines drawn_injective drawn_injective (fun t wellFormed => wellFormed)
  intro op member
  simp only [List.mem_cons, List.not_mem_nil, or_false] at member
  rcases member with rfl | rfl | rfl | rfl | rfl
  · exact ⟨ledger, by decide⟩
  · exact ⟨by decide, by decide⟩
  · exact (by decide : isWellFormed (text "a") = true)
  · exact trivial
  · exact ⟨ledger, by decide⟩

theorem SameReply.eq {tokV tokM : ℕ → Text} {r r' : Reply} (same : SameReply tokV tokM r r')
    (ungranted : ∀ t, r ≠ .claim (.claimed t)) : r = r' := by
  induction same with
  | granted n => exact absurd rfl (ungranted _)
  | same => rfl

theorem second_differs {tokV tokM : ℕ → Text} {first first' r r' : Reply} (ungranted : ∀ t, r ≠ .claim (.claimed t))
    (differs : r ≠ r') : ¬ List.Forall₂ (SameReply tokV tokM) [first, r] [first', r'] := by
  intro same
  obtain ⟨_, rest⟩ := List.forall₂_cons.mp same
  obtain ⟨second, _⟩ := List.forall₂_cons.mp rest
  exact differs (second.eq ungranted)

theorem first_slot (m : Memory) {mailbox : Text} (ready : m.cooldowns mailbox = none) (fresh : m.buckets mailbox = none) :
    (m.takeSlot id mailbox).1 = 0 := by
  have waits : (m.cooldowns (id mailbox)).getD 0 - m.now ≤ 0 := by
    rw [id_eq, ready, Option.getD_none]
    omega
  have full : 1 ≤ TokenBucket.levelOf mailRate m.now (m.buckets (id mailbox)) := by
    rw [id_eq, fresh]
    exact mailRate.one_le_burst
  rw [takeSlot_open waits, if_pos full]

/-- A ledger key that is a cooldown's key, an id and two keys that do not survive the wire, and two mailboxes that do not. -/
theorem shared_keys_differ :
    (¬ List.Forall₂ (SameReply drawn drawn)
      (answers (Valkey.perform id drawn) (.create 0) [.claim (text "mail:cooldown:a") 60 0, .takeSlot (text "a")])
      (answers (Memory.perform id drawn) (.create 0) [.claim (text "mail:cooldown:a") 60 0, .takeSlot (text "a")])) ∧
    (¬ List.Forall₂ (SameReply drawn drawn)
      (answers (Valkey.perform id drawn) (.create 0) [.markSent (text "k") [0xD800] 60, .claim (text "k") 60 0])
      (answers (Memory.perform id drawn) (.create 0) [.markSent (text "k") [0xD800] 60, .claim (text "k") 60 0])) ∧
    (¬ List.Forall₂ (SameReply drawn drawn)
      (answers (Valkey.perform id drawn) (.create 0) [.claim [0xD800] 60 0, .claim [0xDC00] 60 1])
      (answers (Memory.perform id drawn) (.create 0) [.claim [0xD800] 60 0, .claim [0xDC00] 60 1])) ∧
    ¬ List.Forall₂ (SameReply drawn drawn)
      (answers (Valkey.perform id drawn) (.create 0) [.backOff [0xD800] 60, .takeSlot [0xDC00]])
      (answers (Memory.perform id drawn) (.create 0) [.backOff [0xD800] 60, .takeSlot [0xDC00]]) := by
  refine ⟨?_, ?_, ?_, ?_⟩
  · have valkey : answers (Valkey.perform id drawn) (.create 0) [.claim (text "mail:cooldown:a") 60 0, .takeSlot (text "a")] =
        [.claim (.claimed []), .slot 60000] := rfl
    rw [valkey]
    apply second_differs (by simp)
    show Reply.slot 60000 ≠ .slot (Memory.takeSlot id _ (text "a")).1
    rw [first_slot _ rfl rfl]
    decide
  · show ¬ List.Forall₂ _ [Reply.done, .claim (.sent [0xFFFD])] [Reply.done, .claim (.sent [0xD800])]
    exact second_differs (by simp) (by decide)
  · show ¬ List.Forall₂ _ [Reply.claim (.claimed []), .claim .inFlight] [Reply.claim (.claimed []), .claim (.claimed (drawn 1))]
    exact second_differs (by simp) (by decide)
  · have backed : (Valkey.create 0).perform id drawn (.backOff [0xD800] 60) =
        (.done, (Valkey.create 0).writeStrings
          ((Valkey.create 0).server.strings.set (text "mail:cooldown:" ++ [0xFFFD]) (text "1") (some 60000))) := by
      simp only [Valkey.perform, backOff, ceil_seconds]
      rfl
    have valkey : answers (Valkey.perform id drawn) (.create 0) [.backOff [0xD800] 60, .takeSlot [0xDC00]] = [.done, .slot 60000] := by
      rw [answers, backed]
      rfl
    rw [valkey]
    apply second_differs (by simp)
    show Reply.slot 60000 ≠ .slot (Memory.takeSlot id _ [0xDC00]).1
    rw [first_slot _ (by simp [Memory.perform, Memory.backOff, Memory.create]) (by simp [Memory.perform, Memory.backOff, Memory.create])]
    decide

end Mail
