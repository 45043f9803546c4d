import AppPlatform.Lib.TokenBucket
import AppPlatform.Lib.Utf8
import AppPlatform.Mail.Ledger

/-!
# Pacing per mailbox

A token bucket and a cooldown for each mailbox, on the server's clock. The bucket is a hash that
expires; the cooldown is a key whose remaining time to live is the wait. `lower` stands for
`String.prototype.toLowerCase`.
-/

namespace Mail
open Js
open TokenBucket (Bucket Rate)

structure Limits where
  perMinute : ℕ
  burst : ℕ

def MAIL_RATE : Limits := ⟨20, 5⟩

/-- The server: its strings (ledger entries and cooldowns) and its hashes (buckets). No script is
given a key of the other kind, so they are kept apart. -/
structure Server where
  strings : Store
  buckets : KeyValue.Store Text (Bucket ℚ)

def Server.empty (now : ℕ) : Server := ⟨.empty now, .empty now⟩

def Server.advance (s : Server) (ms : ℕ) : Server := ⟨s.strings.advance ms, s.buckets.advance ms⟩

/-- What the server keeps of a text: it is sent as UTF-8. -/
def wire (t : Text) : Text := toWellFormed t

/-- `HSET` of both fields, then `PEXPIRE`. -/
def Server.fill (s : Server) (key : Text) (b : Bucket ℚ) : Server :=
  { s with buckets := s.buckets.set key b (some 120000) }

/-- The script. `time` is the reply of `TIME`, in seconds and microseconds. -/
def TAKE_SLOT (s : Server) (bucketKey cooldownKey : Text) (ratePerMs burst : ℚ) (time : ℕ × ℕ) : ℤ × Server :=
  let cooldown := s.strings.pttl cooldownKey
  if 0 < cooldown then (cooldown, s)
  else
    let now := time.1 * 1000 + time.2 / 1000
    let state := (s.buckets.get bucketKey).getD ⟨burst, now⟩
    let tokens := min burst (state.tokens + ((now : ℚ) - state.asOf) * ratePerMs)
    if 1 ≤ tokens then (0, s.fill bucketKey ⟨tokens - 1, now⟩)
    else (⌈(1 - tokens) / ratePerMs⌉, s.fill bucketKey ⟨tokens, now⟩)

/-- The script. A `PX` that is not positive is an error. -/
def BACK_OFF (s : Server) (cooldownKey : Text) (ms : ℤ) : Option Server :=
  if s.strings.pttl cooldownKey < ms then
    if 0 < ms then some { s with strings := s.strings.set cooldownKey (text "1") (some ms.toNat) } else none
  else some s

section
variable (lower : Text → Text)

/-- The mailbox as the server tells it from others. -/
def mailboxOf (mailbox : Text) : Text := wire (lower mailbox)

def rateKey (mailbox : Text) : Text := text "mail:rate:" ++ lower mailbox

def cooldownKey (mailbox : Text) : Text := text "mail:cooldown:" ++ lower mailbox

def ratePerMs : ℚ := MAIL_RATE.perMinute / 60000

def takeSlot (s : Server) (mailbox : Text) (time : ℕ × ℕ) : ℤ × Server :=
  TAKE_SLOT s (wire (rateKey lower mailbox)) (wire (cooldownKey lower mailbox)) ratePerMs MAIL_RATE.burst time

def backOff (s : Server) (mailbox : Text) (seconds : ℚ) : Option Server :=
  BACK_OFF s (wire (cooldownKey lower mailbox)) ⌈seconds * 1000⌉

/-! ### Workers -/

structure Pacing where
  server : Server
  micros : ℕ
  /-- The bucket and the time of every grant. -/
  grants : List (Text × ℕ)

def Pacing.start (micros : ℕ) : Pacing := ⟨.empty (micros / 1000), micros, []⟩

/-- `TIME`. -/
def timeOf (micros : ℕ) : ℕ × ℕ := (micros / 1000000, micros % 1000000)

inductive PacingEvent where
  | takeSlot (mailbox : Text)
  | backOff (mailbox : Text) (seconds : ℚ)
  | wait (micros : ℕ)

def Pacing.answer (s : Pacing) (mailbox : Text) : ℤ := (takeSlot lower s.server mailbox (timeOf s.micros)).1

def Pacing.step (s : Pacing) : PacingEvent → Pacing
  | .takeSlot mailbox =>
    { s with
      server := (takeSlot lower s.server mailbox (timeOf s.micros)).2
      grants := if s.answer lower mailbox = 0 then (wire (rateKey lower mailbox), s.micros) :: s.grants else s.grants }
  | .backOff mailbox seconds => { s with server := (backOff lower s.server mailbox seconds).getD s.server }
  | .wait micros =>
    { s with
      server := s.server.advance ((s.micros + micros) / 1000 - s.micros / 1000)
      micros := s.micros + micros }

def Pacing.run (s : Pacing) (es : List PacingEvent) : Pacing := es.foldl (Pacing.step lower) s

end

theorem timeOf_ms (micros : ℕ) : (timeOf micros).1 * 1000 + (timeOf micros).2 / 1000 = micros / 1000 := by
  unfold timeOf
  omega

/-- The rate the scripts are called with. -/
def mailRate : Rate ℚ where
  inflow := ratePerMs
  burst := MAIL_RATE.burst
  inflow_pos := by norm_num [ratePerMs, MAIL_RATE]
  one_le_burst := by norm_num [MAIL_RATE]

/-- The tokens the script finds. -/
def Server.left (s : Server) (bucketKey : Text) (now : ℕ) : ℚ := TokenBucket.levelOf mailRate now (s.buckets.get bucketKey)

theorem TAKE_SLOT_open {s : Server} {bucketKey cooldownKey : Text} (ready : s.strings.pttl cooldownKey ≤ 0) (micros : ℕ) :
    TAKE_SLOT s bucketKey cooldownKey ratePerMs MAIL_RATE.burst (timeOf micros) =
      if 1 ≤ s.left bucketKey (micros / 1000) then
        (0, s.fill bucketKey ⟨s.left bucketKey (micros / 1000) - 1, micros / 1000⟩)
      else (⌈(1 - s.left bucketKey (micros / 1000)) / ratePerMs⌉,
        s.fill bucketKey ⟨s.left bucketKey (micros / 1000), micros / 1000⟩) := by
  have found : s.left bucketKey (micros / 1000) =
      min (MAIL_RATE.burst : ℚ) (((s.buckets.get bucketKey).getD ⟨MAIL_RATE.burst, micros / 1000⟩).tokens +
        (((micros / 1000 : ℕ) : ℚ) - ((s.buckets.get bucketKey).getD ⟨MAIL_RATE.burst, micros / 1000⟩).asOf) * ratePerMs) := by
    unfold Server.left
    cases s.buckets.get bucketKey with
    | none => simp [TokenBucket.levelOf, mailRate]
    | some b => rfl
  rw [TAKE_SLOT, if_neg (by omega)]
  simp only [timeOf_ms]
  rw [found]

theorem TAKE_SLOT_cooling {s : Server} {bucketKey cooldownKey : Text} (cooling : 0 < s.strings.pttl cooldownKey)
    (ratePerMs burst : ℚ) (time : ℕ × ℕ) :
    TAKE_SLOT s bucketKey cooldownKey ratePerMs burst time = (s.strings.pttl cooldownKey, s) := if_pos cooling

theorem wait_positive {left : ℚ} (short : ¬ 1 ≤ left) : 0 < ⌈(1 - left) / ratePerMs⌉ := by
  have inflow : 0 < ratePerMs := mailRate.inflow_pos
  rw [Int.ceil_pos]
  exact div_pos (by linarith) inflow

@[simp] theorem fill_strings (s : Server) (key : Text) (b : Bucket ℚ) : (s.fill key b).strings = s.strings := rfl

@[simp] theorem fill_now (s : Server) (key : Text) (b : Bucket ℚ) : (s.fill key b).buckets.now = s.buckets.now := rfl

theorem fill_live_same (s : Server) (key : Text) (b : Bucket ℚ) :
    (s.fill key b).buckets.live key = some ⟨b, some (s.buckets.now + 120000)⟩ :=
  KeyValue.Store.live_set_same _ _ _ (by decide)

theorem fill_live_other (s : Server) {key key' : Text} (b : Bucket ℚ) (differs : key' ≠ key) :
    (s.fill key b).buckets.live key' = s.buckets.live key' :=
  KeyValue.Store.live_set_other _ _ _ differs

theorem TAKE_SLOT_strings (s : Server) (bucketKey cooldownKey : Text) (ratePerMs burst : ℚ) (time : ℕ × ℕ) :
    (TAKE_SLOT s bucketKey cooldownKey ratePerMs burst time).2.strings = s.strings := by
  unfold TAKE_SLOT
  dsimp only
  repeat' split
  all_goals rfl

theorem BACK_OFF_buckets (s : Server) (cooldownKey : Text) (ms : ℤ) :
    ((BACK_OFF s cooldownKey ms).getD s).buckets = s.buckets := by
  unfold BACK_OFF
  repeat' split
  all_goals rfl

/-- No call shortens a cooldown. -/
theorem BACK_OFF_pttl (s : Server) (cooldownKey key : Text) (ms : ℤ) :
    s.strings.pttl key ≤ ((BACK_OFF s cooldownKey ms).getD s).strings.pttl key := by
  unfold BACK_OFF
  split
  · rename_i longer
    split
    · rename_i positive
      simp only [Option.getD_some]
      by_cases same : key = cooldownKey
      · subst same
        have set := s.strings.live_set_same key (text "1") (show 0 < ms.toNat by omega)
        have after : (s.strings.set key (text "1") (some ms.toNat)).pttl key = ms := by
          rw [KeyValue.Store.pttl, set, KeyValue.Store.set_now]
          push_cast
          omega
        omega
      · have other : (s.strings.set cooldownKey (text "1") (some ms.toNat)).pttl key = s.strings.pttl key := by
          rw [KeyValue.Store.pttl, KeyValue.Store.live_set_other _ _ _ same, KeyValue.Store.set_now, KeyValue.Store.pttl]
        omega
    · exact le_rfl
  · exact le_rfl

/-- What the server keeps under a bucket's key: a bucket that expires two minutes after it was filled. -/
def Bucketed (s : Server) (key : Text) : Prop :=
  ∀ e, s.buckets.live key = some e →
    TokenBucket.Valid mailRate s.buckets.now e.value ∧ e.deadline = some (e.value.asOf + 120000)

theorem two_minutes_fill {b : Bucket ℚ} {now : ℕ} (nonneg : 0 ≤ b.tokens) (old : b.asOf + 120000 ≤ now) :
    TokenBucket.level mailRate now b = mailRate.burst := by
  apply TokenBucket.level_full nonneg
  have elapsed : (120000 : ℚ) ≤ (now : ℚ) - b.asOf := by
    have cast : ((b.asOf + 120000 : ℕ) : ℚ) ≤ now := Nat.cast_le.mpr old
    push_cast at cast
    linarith
  have inflow := mul_le_mul_of_nonneg_right elapsed mailRate.inflow_pos.le
  have filled : mailRate.burst ≤ 120000 * mailRate.inflow := by norm_num [mailRate, ratePerMs, MAIL_RATE]
  linarith

theorem level_advance {s : Server} {key : Text} (bucketed : Bucketed s key) {ms later : ℕ} (order : s.buckets.now + ms ≤ later) :
    TokenBucket.levelOf mailRate later ((s.advance ms).buckets.get key) =
      TokenBucket.levelOf mailRate later (s.buckets.get key) := by
  unfold Server.advance KeyValue.Store.get
  rw [KeyValue.Store.live_advance_eq]
  cases found : s.buckets.live key with
  | none => rfl
  | some e =>
    obtain ⟨valid, deadline⟩ := bucketed e found
    rw [Option.filter_some, deadline]
    by_cases fresh : s.buckets.now + ms < e.value.asOf + 120000
    · rw [KeyValue.alive, decide_eq_true fresh]
      rfl
    · rw [KeyValue.alive, decide_eq_false fresh]
      exact (two_minutes_fill valid.nonneg (by omega)).symm

theorem Bucketed.left_nonneg {s : Server} {key : Text} (bucketed : Bucketed s key) : 0 ≤ s.left key s.buckets.now := by
  unfold Server.left KeyValue.Store.get
  cases found : s.buckets.live key with
  | none =>
    have burst := mailRate.one_le_burst
    simp only [Option.map_none, TokenBucket.levelOf, Option.elim_none]
    linarith
  | some e => exact (bucketed e found).1.level_nonneg

theorem left_le_burst (s : Server) (key : Text) (now : ℕ) : s.left key now ≤ mailRate.burst :=
  TokenBucket.levelOf_le_burst _ _

theorem fill_bucketed {s : Server} {key : Text} {tokens : ℚ} (nonneg : 0 ≤ tokens) (fits : tokens ≤ mailRate.burst) :
    Bucketed (s.fill key ⟨tokens, s.buckets.now⟩) key := by
  intro e live
  rw [fill_live_same] at live
  cases live
  exact ⟨⟨nonneg, fits, le_rfl⟩, rfl⟩

theorem fill_left (s : Server) (key : Text) {tokens : ℚ} (fits : tokens ≤ mailRate.burst) :
    (s.fill key ⟨tokens, s.buckets.now⟩).left key s.buckets.now = tokens := by
  rw [Server.left, KeyValue.Store.get, fill_live_same]
  exact TokenBucket.level_same _ fits

theorem advance_bucketed {s : Server} {key : Text} (bucketed : Bucketed s key) (ms : ℕ) : Bucketed (s.advance ms) key := by
  intro e live
  obtain ⟨before, _⟩ := KeyValue.Store.live_of_advance live
  obtain ⟨valid, deadline⟩ := bucketed e before
  refine ⟨⟨valid.nonneg, valid.le_burst, ?_⟩, deadline⟩
  exact valid.before.trans (Nat.le_add_right _ _)

/-! ### The grants of one bucket -/

def grantTimes (key : Text) (grants : List (Text × ℕ)) : List ℕ :=
  (grants.filter fun g => g.1 = key).map fun g => g.2 / 1000

structure Paced (s : Pacing) (key : Text) : Prop where
  clock : s.server.buckets.now = s.micros / 1000
  bucketed : Bucketed s.server key
  metered : TokenBucket.Metered mailRate s.server.buckets.now (s.server.left key s.server.buckets.now) (grantTimes key s.grants)

theorem start_paced (micros : ℕ) (key : Text) : Paced (.start micros) key where
  clock := rfl
  bucketed e live := by cases live
  metered := TokenBucket.metered_nil _ (left_le_burst _ _ _)

theorem takeSlot_paced {lower : Text → Text} {s : Pacing} {key : Text} (paced : Paced s key) (mailbox : Text) :
    Paced (s.step lower (.takeSlot mailbox)) key := by
  have clock := paced.clock
  by_cases cooling : 0 < s.server.strings.pttl (wire (cooldownKey lower mailbox))
  · have taken : takeSlot lower s.server mailbox (timeOf s.micros) =
      (s.server.strings.pttl (wire (cooldownKey lower mailbox)), s.server) :=
      TAKE_SLOT_cooling cooling _ _ _
    have refused : s.answer lower mailbox ≠ 0 := by
      rw [Pacing.answer, taken]
      exact ne_of_gt cooling
    rw [Pacing.step, taken, if_neg refused]
    exact paced
  · have taken : takeSlot lower s.server mailbox (timeOf s.micros) = _ := TAKE_SLOT_open (by omega) s.micros
    rw [← clock] at taken
    by_cases here : key = wire (rateKey lower mailbox)
    · subst here
      have nonneg := paced.bucketed.left_nonneg
      have fits := left_le_burst s.server (wire (rateKey lower mailbox)) s.server.buckets.now
      by_cases whole : 1 ≤ s.server.left (wire (rateKey lower mailbox)) s.server.buckets.now
      · rw [if_pos whole] at taken
        have granted : s.answer lower mailbox = 0 := by rw [Pacing.answer, taken]
        rw [Pacing.step, taken, if_pos granted]
        refine ⟨clock, fill_bucketed (by linarith) (by linarith), ?_⟩
        have times : grantTimes (wire (rateKey lower mailbox)) ((wire (rateKey lower mailbox), s.micros) :: s.grants) =
            s.server.buckets.now :: grantTimes (wire (rateKey lower mailbox)) s.grants := by
          simp [grantTimes, clock]
        rw [times, fill_now, fill_left _ _ (by linarith)]
        exact paced.metered.grant whole
      · rw [if_neg whole] at taken
        have refused : s.answer lower mailbox ≠ 0 := by
          rw [Pacing.answer, taken]
          exact ne_of_gt (wait_positive whole)
        rw [Pacing.step, taken, if_neg refused]
        refine ⟨clock, fill_bucketed nonneg fits, ?_⟩
        rw [fill_now, fill_left _ _ fits]
        exact paced.metered
    · have untouched : ∀ b, Bucketed (s.server.fill (wire (rateKey lower mailbox)) b) key ∧
          (s.server.fill (wire (rateKey lower mailbox)) b).left key s.server.buckets.now = s.server.left key s.server.buckets.now := by
        intro b
        constructor
        · intro e live
          rw [fill_live_other _ _ here] at live
          exact paced.bucketed e live
        · rw [Server.left, KeyValue.Store.get, fill_live_other _ _ here, Server.left, KeyValue.Store.get]
      have times : grantTimes key (if s.answer lower mailbox = 0 then (wire (rateKey lower mailbox), s.micros) ::
        s.grants else s.grants) =
          grantTimes key s.grants := by
        split
        · simp [grantTimes, Ne.symm here]
        · rfl
      rw [Pacing.step, taken]
      split
      · refine ⟨clock, (untouched _).1, ?_⟩
        dsimp only
        rw [times, fill_now, (untouched _).2]
        exact paced.metered
      · refine ⟨clock, (untouched _).1, ?_⟩
        dsimp only
        rw [times, fill_now, (untouched _).2]
        exact paced.metered

theorem wait_paced {lower : Text → Text} {s : Pacing} {key : Text} (paced : Paced s key) (micros : ℕ) :
    Paced (s.step lower (.wait micros)) key := by
  have clock := paced.clock
  have now : (s.step lower (.wait micros)).server.buckets.now = s.server.buckets.now +
    ((s.micros + micros) / 1000 - s.micros / 1000) := rfl
  refine ⟨?_, advance_bucketed paced.bucketed _, ?_⟩
  · rw [now, clock]
    show _ = (s.micros + micros) / 1000
    omega
  · have left := level_advance paced.bucketed (le_refl (s.server.buckets.now + ((s.micros + micros) / 1000 - s.micros / 1000)))
    rw [now]
    refine paced.metered.later (Nat.le_add_right _ _) (left_le_burst _ _ _) ?_
    show TokenBucket.levelOf mailRate _ ((s.server.advance _).buckets.get key) ≤ _
    rw [left]
    exact TokenBucket.levelOf_later _ (Nat.le_add_right _ _)

theorem step_paced {lower : Text → Text} {s : Pacing} {key : Text} (paced : Paced s key) (e : PacingEvent) :
    Paced (s.step lower e) key := by
  cases e with
  | takeSlot mailbox => exact takeSlot_paced paced mailbox
  | backOff mailbox seconds =>
    have buckets : (s.step lower (.backOff mailbox seconds)).server.buckets = s.server.buckets := BACK_OFF_buckets _ _ _
    refine ⟨?_, ?_, ?_⟩
    · rw [buckets]
      exact paced.clock
    · unfold Bucketed
      rw [buckets]
      exact paced.bucketed
    · unfold Server.left
      rw [buckets]
      exact paced.metered
  | wait micros => exact wait_paced paced micros

theorem run_paced {lower : Text → Text} {s : Pacing} {key : Text} (paced : Paced s key) (es : List PacingEvent) :
    Paced (s.run lower es) key := by
  induction es generalizing s with
  | nil => exact paced
  | cons e es ih => exact ih (step_paced paced e)

/-! ### Waiting for a slot -/

theorem wire_plain {s : Text} (plain : s.all (fun u => !isSurrogate u) = true) (t : Text) : wire (s ++ t) = s ++ wire t := by
  apply toWellFormed_append
  intro u member
  have here := List.all_eq_true.mp plain u member
  rwa [Bool.not_eq_true'] at here

theorem wire_rateKey (lower : Text → Text) (mailbox : Text) :
    wire (rateKey lower mailbox) = text "mail:rate:" ++ mailboxOf lower mailbox :=
  wire_plain (by decide) _

theorem wire_cooldownKey (lower : Text → Text) (mailbox : Text) :
    wire (cooldownKey lower mailbox) = text "mail:cooldown:" ++ mailboxOf lower mailbox :=
  wire_plain (by decide) _

theorem rateKey_ne {lower : Text → Text} {m m' : Text} (differs : mailboxOf lower m ≠ mailboxOf lower m') :
    wire (rateKey lower m) ≠ wire (rateKey lower m') := by
  rw [wire_rateKey, wire_rateKey]
  exact fun same => differs (List.append_cancel_left same)

theorem cooldownKey_ne {lower : Text → Text} {m m' : Text} (differs : mailboxOf lower m ≠ mailboxOf lower m') :
    wire (cooldownKey lower m) ≠ wire (cooldownKey lower m') := by
  rw [wire_cooldownKey, wire_cooldownKey]
  exact fun same => differs (List.append_cancel_left same)

/-- The call is made for the mailbox. -/
def PacingEvent.Concerns (lower : Text → Text) (mailbox : Text) : PacingEvent → Prop
  | .takeSlot m | .backOff m _ => mailboxOf lower m = mailboxOf lower mailbox
  | .wait _ => False

/-- The server answers for the key as if it held `b`, now and later. -/
def Holds (s : Server) (key : Text) (b : Bucket ℚ) : Prop :=
  ∀ later, s.buckets.now ≤ later →
    TokenBucket.levelOf mailRate later (s.buckets.get key) = TokenBucket.level mailRate later b

theorem fill_holds (s : Server) (key : Text) (b : Bucket ℚ) : Holds (s.fill key b) key b := by
  intro later _
  rw [KeyValue.Store.get, fill_live_same]
  rfl

theorem advance_holds {s : Server} {key : Text} {b : Bucket ℚ} (bucketed : Bucketed s key) (holds : Holds s key b) (ms : ℕ) :
    Holds (s.advance ms) key b := by
  intro later order
  rw [level_advance bucketed order]
  exact holds later ((Nat.le_add_right _ _).trans order)

theorem BACK_OFF_other {s : Server} {cooldownKey key : Text} (differs : key ≠ cooldownKey) (ms : ℤ) :
    ((BACK_OFF s cooldownKey ms).getD s).strings.pttl key = s.strings.pttl key := by
  unfold BACK_OFF
  split
  · split
    · simp only [Option.getD_some]
      rw [KeyValue.Store.pttl, KeyValue.Store.live_set_other _ _ _ differs, KeyValue.Store.set_now, KeyValue.Store.pttl]
    · rfl
  · rfl

/-- The mailbox is in no cooldown and its bucket fills from `b`. -/
structure Filling (lower : Text → Text) (mailbox : Text) (b : Bucket ℚ) (s : Pacing) : Prop where
  paced : Paced s (wire (rateKey lower mailbox))
  ready : s.server.strings.pttl (wire (cooldownKey lower mailbox)) ≤ 0
  holds : Holds s.server (wire (rateKey lower mailbox)) b

theorem step_filling {lower : Text → Text} {mailbox : Text} {b : Bucket ℚ} {s : Pacing} (filling : Filling lower mailbox b s)
    {e : PacingEvent} (elsewhere : ¬ e.Concerns lower mailbox) : Filling lower mailbox b (s.step lower e) := by
  refine ⟨step_paced filling.paced e, ?_, ?_⟩
  · cases e with
    | takeSlot m =>
      show ((takeSlot lower s.server m (timeOf s.micros)).2.strings.pttl _) ≤ 0
      rw [takeSlot, TAKE_SLOT_strings]
      exact filling.ready
    | backOff m seconds =>
      show (((backOff lower s.server m seconds).getD s.server).strings.pttl _) ≤ 0
      rw [backOff, BACK_OFF_other (cooldownKey_ne (Ne.symm elsewhere))]
      exact filling.ready
    | wait micros => exact KeyValue.Store.pttl_advance filling.ready _
  · cases e with
    | takeSlot m =>
      have other := rateKey_ne (Ne.symm elsewhere)
      have untouched : (takeSlot lower s.server m (timeOf s.micros)).2.buckets.live (wire (rateKey lower mailbox)) =
          s.server.buckets.live (wire (rateKey lower mailbox)) ∧
          (takeSlot lower s.server m (timeOf s.micros)).2.buckets.now = s.server.buckets.now := by
        unfold takeSlot TAKE_SLOT
        dsimp only
        split
        · exact ⟨rfl, rfl⟩
        split
        · exact ⟨fill_live_other _ _ other, rfl⟩
        · exact ⟨fill_live_other _ _ other, rfl⟩
      intro later order
      show TokenBucket.levelOf mailRate later ((takeSlot lower s.server m (timeOf s.micros)).2.buckets.get _) = _
      rw [KeyValue.Store.get, untouched.1]
      exact filling.holds later (untouched.2 ▸ order)
    | backOff m seconds =>
      have buckets : (s.step lower (.backOff m seconds)).server.buckets = s.server.buckets := BACK_OFF_buckets _ _ _
      unfold Holds
      rw [buckets]
      exact filling.holds
    | wait micros => exact advance_holds filling.paced.bucketed filling.holds _

theorem run_filling {lower : Text → Text} {mailbox : Text} {b : Bucket ℚ} {s : Pacing} (filling : Filling lower mailbox b s)
    {es : List PacingEvent} (elsewhere : ∀ e ∈ es, ¬ e.Concerns lower mailbox) : Filling lower mailbox b (s.run lower es) := by
  induction es generalizing s with
  | nil => exact filling
  | cons e es ih =>
    exact ih (step_filling filling (elsewhere e List.mem_cons_self)) fun e' member =>
      elsewhere e' (List.mem_cons_of_mem _ member)

theorem wait_suffices {lower : Text → Text} {mailbox : Text} {s : Pacing} (paced : Paced s (wire (rateKey lower mailbox)))
    (ready : s.server.strings.pttl (wire (cooldownKey lower mailbox)) ≤ 0) (wait : 0 < s.answer lower mailbox)
    {es : List PacingEvent} (elsewhere : ∀ e ∈ es, ¬ e.Concerns lower mailbox)
    (waited : (s.micros : ℤ) + 1000 * s.answer lower mailbox ≤ ((s.step lower (.takeSlot mailbox)).run lower es).micros) :
    ((s.step lower (.takeSlot mailbox)).run lower es).answer lower mailbox = 0 := by
  have taken : takeSlot lower s.server mailbox (timeOf s.micros) = _ := TAKE_SLOT_open ready s.micros
  rw [← paced.clock] at taken
  have short : ¬ 1 ≤ s.server.left (wire (rateKey lower mailbox)) s.server.buckets.now := by
    intro whole
    rw [if_pos whole] at taken
    rw [Pacing.answer, taken] at wait
    exact lt_irrefl _ wait
  rw [if_neg short] at taken
  have asked : s.answer lower mailbox = ⌈(1 - s.server.left (wire (rateKey lower mailbox)) s.server.buckets.now) / ratePerMs⌉ := by
    rw [Pacing.answer, taken]
  have filling : Filling lower mailbox ⟨s.server.left (wire (rateKey lower mailbox)) s.server.buckets.now, s.server.buckets.now⟩
      (s.step lower (.takeSlot mailbox)) := by
    refine ⟨step_paced paced _, ?_, ?_⟩
    · show ((takeSlot lower s.server mailbox (timeOf s.micros)).2.strings.pttl _) ≤ 0
      rw [takeSlot, TAKE_SLOT_strings]
      exact ready
    · show Holds (takeSlot lower s.server mailbox (timeOf s.micros)).2 _ _
      rw [taken]
      exact fill_holds _ _ _
  have after := run_filling filling elsewhere
  generalize (s.step lower (.takeSlot mailbox)).run lower es = u at after waited ⊢
  have clock := after.paced.clock
  have start := paced.clock
  have whole : 1 ≤ u.server.left (wire (rateKey lower mailbox)) (u.micros / 1000) := by
    rw [Server.left, after.holds _ (by omega)]
    apply TokenBucket.level_after_wait
    change _ + ⌈(1 - _) / ratePerMs⌉ ≤ _
    rw [← asked]
    omega
  rw [Pacing.answer, takeSlot, TAKE_SLOT_open after.ready, if_pos whole]

theorem grants_in_minute {s : Pacing} {key : Text} (paced : Paced s key) (a : ℕ) :
    (s.grants.filter fun g => g.1 = key ∧ a ≤ g.2 ∧ g.2 ≤ a + 60000000).length ≤ MAIL_RATE.burst + MAIL_RATE.perMinute := by
  have sublist : (s.grants.filter fun g => g.1 = key ∧ a ≤ g.2 ∧ g.2 ≤ a + 60000000).length ≤
      TokenBucket.countIn (a / 1000) (a / 1000 + 60000) (grantTimes key s.grants) := by
    unfold TokenBucket.countIn grantTimes
    rw [List.filter_map, List.length_map, List.filter_filter]
    apply List.Sublist.length_le
    apply List.monotone_filter_right
    intro g inside
    obtain ⟨here, after, before⟩ := of_decide_eq_true inside
    have window : a / 1000 ≤ g.2 / 1000 ∧ g.2 / 1000 ≤ a / 1000 + 60000 := by omega
    simp [here, window]
  have window := paced.metered.windows (a / 1000) 60000
  have total : mailRate.burst + ((60000 : ℕ) : ℚ) * mailRate.inflow = ((MAIL_RATE.burst + MAIL_RATE.perMinute : ℕ) : ℚ) := by
    norm_num [mailRate, ratePerMs, MAIL_RATE]
  rw [total] at window
  exact sublist.trans (Nat.cast_le.mp window)

/-- At most 25 slots of a mailbox in any closed minute and none in a cooldown, which no call shortens;
and a wait answered outside a cooldown is long enough. -/
theorem mailbox_rate (lower : Text → Text) (micros : ℕ) (es : List PacingEvent) (mailbox : Text) :
    let s := (Pacing.start micros).run lower es
    let t := s.step lower (.takeSlot mailbox)
    let cooldown := fun u : Pacing => u.server.strings.pttl (wire (cooldownKey lower mailbox))
    (∀ a, (s.grants.filter fun g => g.1 = wire (rateKey lower mailbox) ∧ a ≤ g.2 ∧ g.2 ≤ a + 60000000).length ≤
      MAIL_RATE.burst + MAIL_RATE.perMinute) ∧
    (0 < cooldown s → s.answer lower mailbox ≠ 0 ∧ t.grants = s.grants) ∧
    (∀ m seconds, cooldown s ≤ cooldown (s.step lower (.backOff m seconds))) ∧
    (cooldown s ≤ 0 → 0 < s.answer lower mailbox → ∀ fs, (∀ e ∈ fs, ¬ e.Concerns lower mailbox) →
      (s.micros : ℤ) + 1000 * s.answer lower mailbox ≤ (t.run lower fs).micros → (t.run lower fs).answer lower mailbox = 0) := by
  intro s t cooldown
  have paced : Paced s (wire (rateKey lower mailbox)) := run_paced (start_paced micros _) es
  refine ⟨grants_in_minute paced, fun cooling => ?_, fun m seconds => ?_, fun ready wait fs elsewhere waited => ?_⟩
  · have refused : s.answer lower mailbox ≠ 0 := by
      rw [Pacing.answer, takeSlot, TAKE_SLOT_cooling cooling]
      exact ne_of_gt cooling
    exact ⟨refused, if_neg refused⟩
  · exact BACK_OFF_pttl _ _ _ _
  · exact wait_suffices paced ready wait elsewhere waited

end Mail
