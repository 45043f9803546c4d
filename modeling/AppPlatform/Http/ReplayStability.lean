import AppPlatform.Http.StoredReplay

/-!
# A stored response stays

Release and renewal compare the claim with the request's own token; `store` does not. A request whose
claim lapsed and was taken over still writes its response, over the one its successor stored, and a
handler that emits twice writes over its own. When only the request that was granted the claim last
stores, and once, a stored response stays for its lifetime.
-/

namespace Idempotency
open Js
open KeyValue (Call)
variable {ι : Type*} [DecidableEq ι]

/-- The requests, with what their handlers emitted before the last emission, on its way to the cache. `last` was granted the
claim last, and `wrote` have written a response. -/
structure Watched (ι : Type*) where
  state : State ι
  earlier : ι → List Text
  last : Option ι
  wrote : List ι

def watching (now : ℕ) : Watched ι := ⟨initial now, fun _ => [], none, []⟩

/-- In `step` a handler emits once. Here that is its last emission, and each one before it is stored as it comes. -/
inductive Happening (ι : Type*) where
  | step (e : Event ι)
  | emitEarlier (i : ι) (reply : Reply) (body : Value)
  | storeEarlier (i : ι) (call : Call)

def grantedTo (before : Option ι) (i : ι) : Phase → Option ι
  | .claimed => some i
  | _ => before

/-- The request that writes a response by this step. -/
def writer (s : State ι) : Event ι → Option ι
  | .store i call =>
    match s.phase i with
    | .storing (.stored _) => if call = .lost then none else some i
    | _ => none
  | _ => none

/-- `concatMap` stores one emission after the other: the last one waits for those before it. -/
def queued (w : Watched ι) : Event ι → Bool
  | .store i _ => w.earlier i ≠ []
  | _ => false

/-- When the stream breaks off, only the first emission may be on its way. -/
def kept (w : Watched ι) : Event ι → ι → List Text
  | .fail i | .unsubscribe i => Function.update w.earlier i ((w.earlier i).take 1)
  | _ => w.earlier

def watch (c : Config ι) (w : Watched ι) : Happening ι → Option (Watched ι)
  | .step e =>
    if queued w e then none
    else (step c w.state e).map fun t =>
      { state := t
        earlier := kept w e
        last := match e with
          | .arrive i _ => grantedTo w.last i (t.phase i)
          | _ => w.last
        wrote := (writer w.state e).toList ++ w.wrote }
  | .emitEarlier i reply body =>
    match w.state.phase i, w.state.release i with
    | .running, .pending =>
      match outcomeOf (c.fingerprint i) reply body with
      | .stored record => some { w with earlier := Function.update w.earlier i (w.earlier i ++ [record]) }
      | _ => some w
    | _, _ => none
  | .storeEarlier i call =>
    match w.earlier i with
    | record :: rest =>
      some { w with
        state := w.state.write (call.apply (fun cache => cache.set c.recordKey record (some Config.ttl)) w.state.cache)
        earlier := Function.update w.earlier i rest
        wrote := if call = .lost then w.wrote else i :: w.wrote }
    | [] => none

/-- The response of a request is written to the cache. -/
inductive Writes (w : Watched ι) : Happening ι → ι → Text → Prop where
  | last {i : ι} {call : Call} {record : Text} : w.state.phase i = .storing (.stored record) → call ≠ .lost →
      Writes w (.step (.store i call)) i record
  | earlier {i : ι} {call : Call} {record : Text} {rest : List Text} : w.earlier i = record :: rest → call ≠ .lost →
      Writes w (.storeEarlier i call) i record

/-- No request writes a response once a later request was granted the claim, or a second one of its own. -/
def Unsuperseded (w : Watched ι) (h : Happening ι) : Prop := ∀ i record, Writes w h i record → w.last = some i ∧ i ∉ w.wrote

inductive EntryMove (c : Config ι) (s t : State ι) : Event ι → Prop where
  | keep (e : Event ι) (same : t.cache.live c.recordKey = s.cache.live c.recordKey) (now : t.cache.now = s.cache.now) :
      EntryMove c s t e
  | write (i : ι) (call : Call) (record : Text) (storing : s.phase i = .storing (.stored record)) (sent : call ≠ .lost)
      (written : t.cache.live c.recordKey = some ⟨record, some (s.cache.now + Config.ttl)⟩)
      (now : t.cache.now = s.cache.now) : EntryMove c s t (.store i call)
  | pass (ms : ℕ) (cache : t.cache = s.cache.advance ms) : EntryMove c s t (.tick ms)

theorem arrive_entry (c : Config ι) (s : State ι) (i : ι) :
    (arrive c s i).cache.live c.recordKey = s.cache.live c.recordKey ∧ (arrive c s i).cache.now = s.cache.now := by
  unfold arrive
  split
  · exact ⟨rfl, rfl⟩
  split
  · rename_i cache granted
    obtain ⟨_, rfl⟩ := KeyValue.Store.setIfAbsent_some granted
    exact ⟨KeyValue.Store.live_set_other _ _ _ (claimKey_ne_recordKey c).symm, rfl⟩
  · exact ⟨rfl, rfl⟩

omit [DecidableEq ι] in
/-- A call about the claim leaves the entry of the response alone. -/
theorem apply_entry {c : Config ι} {cache : KeyValue.Store Text Text} (call : Call)
    {f : KeyValue.Store Text Text → KeyValue.Store Text Text}
    (live : (f cache).live c.recordKey = cache.live c.recordKey) (now : (f cache).now = cache.now) :
    (call.apply f cache).live c.recordKey = cache.live c.recordKey ∧ (call.apply f cache).now = cache.now := by
  unfold Call.apply
  split
  · exact ⟨rfl, rfl⟩
  · exact ⟨live, now⟩

omit [DecidableEq ι] in
theorem claimed_entry (c : Config ι) (i : ι) (cache : KeyValue.Store Text Text) :
    (claimed c i cache).live c.recordKey = cache.live c.recordKey ∧ (claimed c i cache).now = cache.now := by
  unfold claimed
  split
  · exact ⟨rfl, rfl⟩
  · cases granted : cache.setIfAbsent c.claimKey (c.claim i) c.lease with
    | none => exact ⟨rfl, rfl⟩
    | some cache' =>
      obtain ⟨_, rfl⟩ := KeyValue.Store.setIfAbsent_some granted
      exact ⟨KeyValue.Store.live_set_other _ _ _ (claimKey_ne_recordKey c).symm, rfl⟩

theorem step_entry {c : Config ι} {s t : State ι} {e : Event ι} (taken : step c s e = some t) : EntryMove c s t e := by
  have elsewhere := (claimKey_ne_recordKey c).symm
  cases step_taken taken with
  | arrive i => exact .keep _ (arrive_entry c s i).1 (arrive_entry c s i).2
  | unprotect i call =>
    obtain ⟨live, now⟩ := claimed_entry c i s.cache
    obtain ⟨live, now⟩ := apply_entry call live now
    exact .keep _ live now
  | start | emit | discard | failUnprotected | abandon => exact .keep _ rfl rfl
  | fail i => exact .keep _ (by rw [finalize_cache, become_cache]) (by rw [finalize_cache, become_cache])
  | keep i call record storing =>
    by_cases lost : call = .lost
    · subst lost
      exact .keep _ (by rw [finalize_cache]; rfl) (by rw [finalize_cache]; rfl)
    · apply EntryMove.write i call record storing lost
      · rw [finalize_cache, become_cache, write_cache, Call.apply, if_neg lost]
        exact KeyValue.Store.live_set_same _ _ _ ttl_positive
      · rw [finalize_cache, become_cache, write_cache, Call.apply, if_neg lost]
        rfl
  | finish i => exact .keep _ (by rw [finalize_cache, become_cache]) (by rw [finalize_cache, become_cache])
  | renew i call =>
    obtain ⟨live, now⟩ := apply_entry call (KeyValue.Store.live_expireIf_other s.cache (c.claim i) c.lease elsewhere)
      (KeyValue.Store.expireIf_now _ _ _ _)
    exact .keep _ live now
  | release i call =>
    obtain ⟨live, now⟩ := apply_entry call (KeyValue.Store.live_delIf_other s.cache (c.claim i) elsewhere)
      (KeyValue.Store.delIf_now _ _ _)
    exact .keep _ live now
  | leave i => exact .keep _ (by rw [finalize_cache]) (by rw [finalize_cache])
  | tick ms => exact .pass ms rfl

theorem watch_step {c : Config ι} {w u : Watched ι} {e : Event ι} (taken : watch c w (.step e) = some u) :
    step c w.state e = some u.state ∧ u.wrote = (writer w.state e).toList ++ w.wrote ∧ u.earlier = kept w e := by
  rw [watch] at taken
  split at taken
  · cases taken
  · obtain ⟨t, stepped, rfl⟩ := Option.map_eq_some_iff.mp taken
    exact ⟨stepped, rfl, rfl⟩

/-- The claim is granted only while no response is stored. -/
theorem watch_last {c : Config ι} {w u : Watched ι} {h : Happening ι} (taken : watch c w h = some u) :
    u.last = w.last ∨ w.state.record c = none := by
  cases h with
  | step e =>
    rw [watch] at taken
    split at taken
    · cases taken
    obtain ⟨t, stepped, rfl⟩ := Option.map_eq_some_iff.mp taken
    cases step_taken stepped with
    | arrive i =>
      unfold arrive
      split
      · left
        simp only [become_same]
        unfold answerTo
        repeat' split
        all_goals rfl
      · rename_i absent
        exact Or.inr absent
    | unprotect =>
      left
      simp only [become_same]
      rfl
    | _ => exact Or.inl rfl
  | emitEarlier i reply body =>
    simp only [watch] at taken
    repeat' split at taken
    all_goals cases taken
    all_goals exact Or.inl rfl
  | storeEarlier i call =>
    simp only [watch] at taken
    split at taken
    · cases taken
      exact Or.inl rfl
    · cases taken

/-- What a happening does to the cache entry of the record, and to the requests that have written. -/
inductive Change (c : Config ι) (w u : Watched ι) (h : Happening ι) : Prop where
  | keep (same : u.state.cache.live c.recordKey = w.state.cache.live c.recordKey) (now : u.state.cache.now = w.state.cache.now)
  | write (i : ι) (record : Text) (writes : Writes w h i record)
      (written : u.state.cache.live c.recordKey = some ⟨record, some (w.state.cache.now + Config.ttl)⟩)
      (now : u.state.cache.now = w.state.cache.now) (noted : i ∈ u.wrote)
  | pass (ms : ℕ) (cache : u.state.cache = w.state.cache.advance ms)

theorem watch_change {c : Config ι} {w u : Watched ι} {h : Happening ι} (taken : watch c w h = some u) :
    Change c w u h ∧ ∀ i ∈ w.wrote, i ∈ u.wrote := by
  cases h with
  | step e =>
    obtain ⟨stepped, wrote, _⟩ := watch_step taken
    refine ⟨?_, fun i member => wrote ▸ List.mem_append_right _ member⟩
    cases step_entry stepped with
    | keep _ same now => exact .keep same now
    | write i call record storing sent written now =>
      refine .write i record (.last storing sent) written now ?_
      rw [wrote, writer, storing]
      simp [sent]
    | pass ms cache => exact .pass ms cache
  | emitEarlier i reply body =>
    simp only [watch] at taken
    repeat' split at taken
    all_goals cases taken
    all_goals exact ⟨.keep rfl rfl, fun _ => id⟩
  | storeEarlier i call =>
    simp only [watch] at taken
    split at taken
    · rename_i record rest next
      obtain rfl := Option.some.inj taken
      by_cases lost : call = .lost
      · subst lost
        exact ⟨.keep rfl rfl, fun _ => id⟩
      · rw [if_neg lost]
        refine ⟨.write i record (.earlier next lost) ?_ ?_ List.mem_cons_self, fun _ => List.mem_cons_of_mem _⟩
        · rw [write_cache, Call.apply, if_neg lost]
          exact KeyValue.Store.live_set_same _ _ _ ttl_positive
        · rw [write_cache, Call.apply, if_neg lost]
          rfl
    · cases taken

omit [DecidableEq ι] in
theorem Change.forward {c : Config ι} {w u : Watched ι} {h : Happening ι} (change : Change c w u h) :
    w.state.cache.now ≤ u.state.cache.now := by
  cases change with
  | keep _ now => omega
  | write _ _ _ _ now => omega
  | pass ms cache =>
    rw [cache, KeyValue.Store.advance_now]
    omega

/-- The response of request `i`, written at time `since`, is in the cache and its request is the last claimant. -/
def Settled (c : Config ι) (i : ι) (record : Text) (since : ℕ) (w : Watched ι) : Prop :=
  w.state.cache.now < since + Config.ttl →
    w.last = some i ∧ i ∈ w.wrote ∧ w.state.cache.live c.recordKey = some ⟨record, some (since + Config.ttl)⟩

omit [DecidableEq ι] in
theorem Settled.record {c : Config ι} {i : ι} {record : Text} {since : ℕ} {w : Watched ι} (settled : Settled c i record since w)
    (alive : w.state.cache.now < since + Config.ttl) : w.state.record c = some record := by
  rw [State.record, KeyValue.Store.get, (settled alive).2.2]
  rfl

theorem watch_settled {c : Config ι} {i : ι} {record : Text} {since : ℕ} {w u : Watched ι} {h : Happening ι}
    (settled : Settled c i record since w) (allowed : Unsuperseded w h) (taken : watch c w h = some u) :
    Settled c i record since u := by
  intro alive
  obtain ⟨change, wrote⟩ := watch_change taken
  have earlier := change.forward
  obtain ⟨last, written, live⟩ := settled (by omega)
  have present := settled.record (by omega)
  have unclaimed : u.last = some i := by
    rcases watch_last taken with same | absent
    · exact same.trans last
    · rw [present] at absent
      cases absent
  refine ⟨unclaimed, wrote i written, ?_⟩
  cases change with
  | keep same => exact same.trans live
  | write j _ writes =>
    -- only the last claimant writes, and it has written
    obtain ⟨holder, unwritten⟩ := allowed j _ writes
    rw [last] at holder
    cases holder
    exact (unwritten written).elim
  | pass ms cache =>
    rw [cache] at alive ⊢
    exact KeyValue.Store.live_advance_of live rfl alive

theorem write_settled {c : Config ι} {i : ι} {record : Text} {w u : Watched ι} {h : Happening ι} (writes : Writes w h i record)
    (allowed : Unsuperseded w h) (taken : watch c w h = some u) : Settled c i record w.state.cache.now u := by
  intro _
  have holder := (allowed i record writes).1
  cases writes with
  | @last _ call _ storing sent =>
    obtain ⟨stepped, wrote, _⟩ := watch_step taken
    have last : u.last = w.last := by
      rw [watch] at taken
      split at taken
      · cases taken
      · obtain ⟨t, _, rfl⟩ := Option.map_eq_some_iff.mp taken
        rfl
    refine ⟨last.trans holder, ?_, ?_⟩
    · rw [wrote, writer, storing]
      simp [sent]
    · simp only [step, storing] at stepped
      rw [← Option.some.inj stepped, finalize_cache, become_cache, write_cache, Call.apply, if_neg sent]
      exact KeyValue.Store.live_set_same _ _ _ ttl_positive
  | @earlier _ call _ rest next sent =>
    simp only [watch, next, if_neg sent] at taken
    obtain rfl := Option.some.inj taken
    refine ⟨holder, List.mem_cons_self, ?_⟩
    rw [write_cache, Call.apply, if_neg sent]
    exact KeyValue.Store.live_set_same _ _ _ ttl_positive

/-! ### What is written -/

/-- Every response that is written, or on its way, can be read back. -/
def Legible (c : Config ι) (w : Watched ι) : Prop :=
  ∀ i record, Recording (w.state.phase i) record ∨ record ∈ w.earlier i → Readable (c.fingerprint i) record

omit [DecidableEq ι] in
theorem watching_legible (c : Config ι) (now : ℕ) : Legible c (watching now) := by
  rintro i record ((impossible | impossible) | impossible) <;> cases impossible

theorem mem_update {earlier : ι → List Text} {i j : ι} {records : List Text} {record : Text}
    (waiting : record ∈ Function.update earlier j records i) : i = j ∧ record ∈ records ∨ record ∈ earlier i := by
  by_cases same : i = j
  · subst same
    rw [Function.update_self] at waiting
    exact Or.inl ⟨rfl, waiting⟩
  · rw [Function.update_of_ne same] at waiting
    exact Or.inr waiting

theorem mem_kept {w : Watched ι} {e : Event ι} {i : ι} {record : Text} (waiting : record ∈ kept w e i) :
    record ∈ w.earlier i := by
  unfold kept at waiting
  split at waiting
  · rcases mem_update waiting with ⟨rfl, first⟩ | before
    · exact List.mem_of_mem_take first
    · exact before
  · rcases mem_update waiting with ⟨rfl, first⟩ | before
    · exact List.mem_of_mem_take first
    · exact before
  · exact waiting

theorem watch_legible {c : Config ι} {w u : Watched ι} {h : Happening ι} (legible : Legible c w)
    (taken : watch c w h = some u) : Legible c u := by
  intro i record there
  cases h with
  | step e =>
    obtain ⟨stepped, _, earlier⟩ := watch_step taken
    rcases there with recording | waiting
    · rcases step_recording stepped recording with before | ⟨reply, body, _, same⟩
      · exact legible i record (Or.inl before)
      · exact outcomeOf_readable same
    · rw [earlier] at waiting
      exact legible i record (Or.inr (mem_kept waiting))
  | emitEarlier j reply body =>
    simp only [watch] at taken
    repeat' split at taken
    · rename_i emitted outcome
      obtain rfl := Option.some.inj taken
      rcases there with recording | waiting
      · exact legible i record (Or.inl recording)
      · rcases mem_update waiting with ⟨rfl, longer⟩ | before
        · rw [List.mem_append, List.mem_singleton] at longer
          rcases longer with before | rfl
          · exact legible i record (Or.inr before)
          · exact outcomeOf_readable outcome
        · exact legible i record (Or.inr before)
    · obtain rfl := Option.some.inj taken
      exact legible i record there
    · cases taken
  | storeEarlier j call =>
    simp only [watch] at taken
    split at taken
    · rename_i written rest next
      obtain rfl := Option.some.inj taken
      rcases there with recording | waiting
      · exact legible i record (Or.inl recording)
      · rcases mem_update waiting with ⟨rfl, behind⟩ | before
        · exact legible i record (Or.inr (next ▸ List.mem_cons_of_mem _ behind))
        · exact legible i record (Or.inr before)
    · cases taken

/-- When only the request that was granted the claim last writes, and once, then from the moment a response
is written until it expires it is the response in the cache, and the answer to every request. -/
theorem replay_stable (c : Config ι) (now : ℕ) {es fs : List (Happening ι)} {w t u : Watched ι} {h : Happening ι} {i : ι}
    {record : Text} (run : Runs.Run (watch c) Unsuperseded (watching now) es w) (writes : Writes w h i record)
    (allowed : Unsuperseded w h) (written : watch c w h = some t) (later : Runs.Run (watch c) Unsuperseded t fs u)
    (alive : u.state.cache.now < w.state.cache.now + Config.ttl) :
    u.state.record c = some record ∧
    ∀ j v, step c u.state (.arrive j .ok) = some v → Replayed c i record j (v.phase j) := by
  have settled := later.invariant watch_settled (write_settled writes allowed written)
  have present := settled.record alive
  have legible := run.invariant (fun legible _ taken => watch_legible legible taken) (watching_legible c now)
  have readable : Readable (c.fingerprint i) record := by
    cases writes with
    | last storing => exact legible i record (Or.inl (Or.inl storing))
    | earlier next => exact legible i record (Or.inr (next ▸ List.mem_cons_self))
  exact ⟨present, fun j v taken => readable.replayed present taken⟩

/-! ### A claim that is taken over -/

/-- A request that holds the claim, whose handler outlives it. -/
def outlived : List (Happening ℕ) :=
  [.step (.arrive 0 .ok), .step (.start 0), .step (.tick 60000), .step (.arrive 1 .ok), .step (.start 1)]

omit [DecidableEq ι] in
theorem unwritten {w : Watched ι} {h : Happening ι} (none : ∀ i record, ¬Writes w h i record) : Unsuperseded w h :=
  fun i record writes => (none i record writes).elim

theorem watch_emit {c : Config ι} {w : Watched ι} {i : ι} {reply : Reply} {body : Value} {record : Text}
    (running : w.state.phase i = .running) (pending : w.state.release i = .pending)
    (outcome : outcomeOf (c.fingerprint i) reply body = .stored record) : watch c w (.step (.emit i reply body)) =
      some { w with state := w.state.become i (.storing (.stored record)) } := by
  have free : ¬queued w (.emit i reply body) = true := Bool.false_ne_true
  rw [watch, if_neg free, step, running]
  dsimp only
  rw [if_pos pending, outcome]
  rfl

/-- Request 1 takes the claim over and stores; request 0 fails after that, and request 2 gets what request 1 answered. -/
theorem replay_stable_numbered : ∃ (u : Watched ℕ) (v : State ℕ) (record : Text), u.state.phase 0 = .finished .threw ∧
    u.state.cache.now = 3660000 ∧ step numbered u.state (.arrive 2 .ok) = some v ∧
    outcomeOf (text "a") located thing = .stored record ∧ Replayed numbered 1 record 2 (v.phase 2) := by
  obtain ⟨record, outcome, _⟩ := outcome_round_trip (text "a") thing (show 200 ≤ located.statusCode ∧ _ by decide)
  have run : ∃ w t u : Watched ℕ, Runs.Run (watch numbered) Unsuperseded (watching 0)
        (outlived ++ [.step (.emit 1 located thing)]) w ∧
      w.state.phase 1 = .storing (.stored record) ∧ w.last = some 1 ∧ w.wrote = [] ∧ w.state.cache.now = 60000 ∧
      watch numbered w (.step (.store 1 .ok)) = some t ∧
      Runs.Run (watch numbered) Unsuperseded t [.step (.release 1 .ok), .step (.fail 0), .step (.tick 3600000)] u ∧
      u.state.phase 0 = .finished .threw ∧ u.state.phase 2 = .idle ∧ u.state.cache.now = w.state.cache.now + 3600000 :=
    ⟨_, _, _, .cons (unwritten nofun) rfl (.cons (unwritten nofun) rfl (.cons (unwritten nofun) rfl
      (.cons (unwritten nofun) rfl (.cons (unwritten nofun) rfl
        (.cons (unwritten nofun) (watch_emit rfl rfl outcome) (.nil _)))))), rfl, rfl, rfl, rfl, rfl,
      .cons (unwritten nofun) rfl (.cons (unwritten nofun) rfl (.cons (unwritten nofun) rfl (.nil _))), rfl, rfl, rfl⟩
  obtain ⟨w, t, u, run, storing, last, wrote, since, stored, later, failed, idle, now⟩ := run
  have allowed : Unsuperseded w (.step (.store 1 .ok)) := by
    rintro i _ (_ | _)
    exact ⟨last, by rw [wrote]; exact List.not_mem_nil⟩
  have alive : u.state.cache.now < w.state.cache.now + Config.ttl := by
    rw [now]
    exact Nat.add_lt_add_left (by decide) _
  obtain ⟨_, answers⟩ := replay_stable numbered 0 run (.last storing (by decide)) allowed stored later alive
  have arrived : ∃ v, step numbered u.state (.arrive 2 .ok) = some v := by
    simp only [step, idle]
    exact ⟨_, rfl⟩
  obtain ⟨v, arrived⟩ := arrived
  exact ⟨u, v, record, failed, by rw [now, since], arrived, outcome, answers 2 v arrived⟩

/-- Request 0 outlives its claim; request 1 takes the key, answers 201 and stores that. Request 0 then answers 202, and from
then on the key answers 202. -/
theorem late_store_replaces : ∃ (w t u : Watched ℕ) (v : State ℕ),
    Runs.Run (watch numbered) (fun _ _ => True) (watching 0) (outlived ++ [.step (.emit 1 created .function)]) w ∧
    Writes w (.step (.store 1 .ok)) 1 (stringify (marker (text "a") 201)) ∧
    watch numbered w (.step (.store 1 .ok)) = some t ∧
    Runs.Run (watch numbered) (fun _ _ => True) t
      [.step (.emit 0 ⟨202, fun _ => .missing⟩ .function), .step (.store 0 .ok)] u ∧
    u.state.cache.now < w.state.cache.now + Config.ttl ∧
    u.state.record numbered ≠ some (stringify (marker (text "a") 201)) ∧
    step numbered u.state (.arrive 2 .ok) = some v ∧
    ¬ Replayed numbered 1 (stringify (marker (text "a") 201)) 2 (v.phase 2) := by
  have first := parseStored_marker (text "a") (show 201 < 2 ^ 53 by norm_num)
  have second := parseStored_marker (text "a") (show 202 < 2 ^ 53 by norm_num)
  have statuses : ofRat ((201 : ℕ) : ℚ) ≠ ofRat ((202 : ℕ) : ℚ) := by
    rw [ofRat_double (isDouble_nat (by norm_num)), ofRat_double (isDouble_nat (by norm_num))]
    simp
  have run : ∃ w t u : Watched ℕ,
      Runs.Run (watch numbered) (fun _ _ => True) (watching 0) (outlived ++ [.step (.emit 1 created .function)]) w ∧
      w.state.phase 1 = .storing (.stored (stringify (marker (text "a") 201))) ∧ w.state.cache.now = 60000 ∧
      watch numbered w (.step (.store 1 .ok)) = some t ∧
      Runs.Run (watch numbered) (fun _ _ => True) t
        [.step (.emit 0 ⟨202, fun _ => .missing⟩ .function), .step (.store 0 .ok)] u ∧
      u.state.record numbered = some (stringify (marker (text "a") 202)) ∧ u.state.phase 2 = .idle ∧
      u.state.cache.now = 60000 :=
    ⟨_, _, _, .cons trivial rfl (.cons trivial rfl (.cons trivial rfl (.cons trivial rfl (.cons trivial rfl
      (.cons trivial rfl (.nil _)))))), rfl, rfl, rfl, .cons trivial rfl (.cons trivial rfl (.nil _)), rfl, rfl, rfl⟩
  obtain ⟨w, t, u, run, storing, since, stored, later, present, idle, now⟩ := run
  have arrived : ∃ v, step numbered u.state (.arrive 2 .ok) = some v := by
    rw [step, idle]
    exact ⟨_, rfl⟩
  obtain ⟨v, arrived⟩ := arrived
  have alive : u.state.cache.now < w.state.cache.now + Config.ttl := by
    rw [now, since]
    decide
  refine ⟨w, t, u, v, run, .last storing (by decide), stored, later, alive, ?_, arrived, ?_⟩
  · rw [present]
    intro same
    rw [Option.some.inj same, first] at second
    exact statuses (congrArg StoredResponse.s (Option.some.inj second))
  · rintro ⟨stored, parsed, _, answered⟩
    rw [first] at parsed
    cases parsed
    rw [arrive_answered present arrived, answerTo, second] at answered
    rw [if_neg (fun differs => differs rfl)] at answered
    exact statuses (Answer.notReplayable.inj (Phase.answered.inj answered)).symm

end Idempotency
