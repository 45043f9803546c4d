import AppPlatform.Http.Idempotency

/-!
# One execution per record key

While no claim lapses under a running handler and the cache answers, requests with one record key
execute one at a time, and none executes once a 2xx answer is stored.
-/

namespace Idempotency
open Js
open KeyValue (Call)
variable {ι : Type*} [DecidableEq ι]

def State.record (c : Config ι) (s : State ι) : Option Text := s.cache.get c.recordKey

def State.holder (c : Config ι) (s : State ι) : Option Text := s.cache.get c.claimKey

/-- The cache answers, no stream is torn down, no claim lapses under an execution and no record expires. -/
def Steady (c : Config ι) (s : State ι) : Event ι → Prop
  | .arrive _ call | .store _ call | .renew _ call | .release _ call => call = .ok
  | .unsubscribe _ => False
  | .tick ms =>
    (∀ i, Executing (s.phase i) → s.holder c = some (c.claim i) →
      (s.cache.advance ms).get c.claimKey = some (c.claim i)) ∧
    ∀ record, s.record c = some record → (s.cache.advance ms).get c.recordKey = some record
  | _ => True

/-- The record answers later requests with this fingerprint. -/
def Readable (fingerprint record : Text) : Prop := ∃ stored, parseStored record = some stored ∧ stored.f = fingerprint

/-- What holds of one request when `record` and `holder` are in the cache. -/
structure Sound (c : Config ι) (record holder : Option Text) (i : ι) (p : Phase) (r : Release) : Prop where
  guarded : p ≠ .unprotected
  holds : Executing p → holder = some (c.claim i)
  fresh : Executing p → record = none
  listening : (∀ o, p ≠ .finished o) → r = .pending
  kept : ∀ kept, p = .finished (.stored kept) → record = some kept
  own : ∀ kept, holder = some (c.claim i) → record = some kept → p = .finished (.stored kept)
  freed : r = .done → holder ≠ some (c.claim i)
  readable : ∀ kept, p = .storing (.stored kept) ∨ p = .finished (.stored kept) → Readable (c.fingerprint i) kept

structure Safe (c : Config ι) (s : State ι) : Prop where
  each : ∀ i, Sound c (s.record c) (s.holder c) i (s.phase i) (s.release i)
  written : ∀ record, s.record c = some record → ∃ i, s.phase i = .finished (.stored record)
  claimant : ∀ token, s.holder c = some token → ∃ i, token = c.claim i

/-- What a steady step of a safe state does. -/
inductive Move (c : Config ι) (s : State ι) : State ι → Prop where
  | answer (i : ι) (record : Text) (idle : s.phase i = .idle) (present : s.record c = some record) :
      Move c s (s.become i (answerTo record (c.fingerprint i)))
  | refuse (i : ι) (idle : s.phase i = .idle) (absent : s.record c = none) :
      Move c s (s.become i (.answered (.inFlight (min c.leaseSeconds 5))))
  | claim (i : ι) (idle : s.phase i = .idle) (absent : s.record c = none) (free : s.holder c = none) :
      Move c s ((s.write (s.cache.set c.claimKey (c.claim i) (some c.lease))).become i .claimed)
  | start (i : ι) (claimed : s.phase i = .claimed) : Move c s (s.become i .running)
  | emit (i : ι) (reply : Reply) (body : Value) (running : s.phase i = .running) :
      Move c s (s.become i (.storing (outcomeOf (c.fingerprint i) reply body)))
  | fail (i : ι) (running : s.phase i = .running) : Move c s ((s.become i (.finished .threw)).releasing i .sent)
  | keep (i : ι) (record : Text) (storing : s.phase i = .storing (.stored record)) :
      Move c s (((s.write (s.cache.set c.recordKey record (some Config.ttl))).become i
        (.finished (.stored record))).releasing i .sent)
  | finish (i : ι) (o : Outcome) (storing : s.phase i = .storing o) (empty : ∀ record, o ≠ .stored record) :
      Move c s ((s.become i (.finished o)).releasing i .sent)
  | renew (i : ι) : Move c s (s.write (s.cache.expireIf c.claimKey (c.claim i) c.lease))
  | release (i : ι) (sent : s.release i = .sent) :
      Move c s ((s.write (s.cache.delIf c.claimKey (c.claim i))).releasing i .done)
  | tick (ms : ℕ) (claims : ∀ i, Executing (s.phase i) → s.holder c = some (c.claim i) →
        (s.write (s.cache.advance ms)).holder c = some (c.claim i))
      (records : ∀ record, s.record c = some record → (s.write (s.cache.advance ms)).record c = some record) :
      Move c s (s.write (s.cache.advance ms))

theorem finalize_pending {s : State ι} {i : ι} (pending : s.release i = .pending) : s.finalize i = s.releasing i .sent :=
  if_pos pending

theorem step_moves {c : Config ι} {s t : State ι} {e : Event ι} (safe : Safe c s) (steady : Steady c s e)
    (taken : step c s e = some t) : Move c s t := by
  have pending : ∀ {i p}, s.phase i = p → (∀ o, p ≠ .finished o) → s.release i = .pending := fun h unfinished =>
    (safe.each _).listening (h ▸ unfinished)
  cases step_taken taken with
  | arrive i idle =>
    rw [arrive]
    split
    · rename_i record present
      exact .answer i record idle present
    · rename_i absent
      split
      · rename_i cache granted
        obtain ⟨free, rfl⟩ := KeyValue.Store.setIfAbsent_some granted
        exact .claim i idle absent free
      · exact .refuse i idle absent
  | unprotect i call idle failed => exact (failed steady).elim
  | start i claimed => exact .start i claimed
  | emit i reply body running => exact .emit i reply body running
  | discard i reply body handling =>
    rcases handling with ⟨running, left⟩ | unprotected
    · exact (left (pending running (by simp))).elim
    · exact ((safe.each i).guarded unprotected).elim
  | fail i running =>
    rw [finalize_pending (by simpa using pending running (by simp))]
    exact .fail i running
  | failUnprotected i unprotected => exact ((safe.each i).guarded unprotected).elim
  | keep i call record storing =>
    cases steady
    rw [finalize_pending (by simpa using pending storing (by simp)), if_pos rfl, KeyValue.Call.apply_ok]
    exact .keep i record storing
  | finish i call o storing empty =>
    rw [finalize_pending (by simpa using pending storing (by simp))]
    exact .finish i o storing empty
  | renew i call =>
    cases steady
    exact .renew i
  | release i call sent =>
    cases steady
    exact .release i sent
  | abandon | leave => exact steady.elim
  | tick ms => exact .tick ms steady.1 steady.2

omit [DecidableEq ι] in
theorem initial_safe (c : Config ι) (now : ℕ) : Safe c (initial now) where
  each i := {
    guarded := by simp [initial]
    holds := by simp [initial, Executing]
    fresh := by simp [initial, Executing]
    listening := fun _ => rfl
    kept := by simp [initial]
    own := by simp [initial, State.holder]
    freed := by simp [initial]
    readable := by simp [initial] }
  written record present := by simp [initial, State.record] at present
  claimant token held := by simp [initial, State.holder] at held

theorem answerTo_readable {fingerprint record : Text} (readable : Readable fingerprint record) (fingerprint' : Text) :
    ∃ stored, parseStored record = some stored ∧ stored.f = fingerprint ∧
      answerTo record fingerprint' = .answered (if fingerprint ≠ fingerprint' then .keyReused
        else if stored.isMarker then .notReplayable stored.s else .replay stored) := by
  obtain ⟨stored, parsed, same⟩ := readable
  refine ⟨stored, parsed, same, ?_⟩
  rw [answerTo, parsed]
  simp only [same]
  split
  · rfl
  split <;> rfl

theorem outcomeOf_readable {fingerprint record : Text} {reply : Reply} {body : Value}
    (h : outcomeOf fingerprint reply body = .stored record) : Readable fingerprint record := by
  unfold outcomeOf at h
  split at h
  · cases h
  · rename_i success
    split at h
    · rename_i built
      cases h
      obtain ⟨stored, parsed, same, _⟩ := parseStored_recordFor (by omega) built
      exact ⟨stored, parsed, same⟩
    · cases h

omit [DecidableEq ι] in
theorem claim_differs (c : Config ι) {i j : ι} (differs : j ≠ i) : some (c.claim i) ≠ some (c.claim j) := by
  intro same
  exact differs (c.claim_injective (Option.some.inj same)).symm

omit [DecidableEq ι] in
theorem sound_executing {c : Config ι} {record holder : Option Text} {i : ι} {p : Phase} {r : Release}
    (fresh : record = none) (held : holder = some (c.claim i)) (pending : r = .pending) (executing : Executing p)
    (guarded : p ≠ .unprotected) (readable : ∀ kept, p = .storing (.stored kept) → Readable (c.fingerprint i) kept) :
    Sound c record holder i p r where
  guarded := guarded
  holds _ := held
  fresh _ := fresh
  listening _ := pending
  kept kept finished := by
    rw [finished] at executing
    exact executing.elim
  own kept _ present := by
    rw [fresh] at present
    cases present
  freed released := by
    rw [pending] at released
    cases released
  readable kept shape := by
    rcases shape with storing | finished
    · exact readable kept storing
    · rw [finished] at executing
      exact executing.elim

omit [DecidableEq ι] in
theorem sound_unstored {c : Config ι} {record holder : Option Text} {i : ι} {o : Outcome} (fresh : record = none)
    (empty : ∀ kept, o ≠ .stored kept) : Sound c record holder i (.finished o) .sent where
  guarded := by simp
  holds executing := executing.elim
  fresh executing := executing.elim
  listening unfinished := (unfinished o rfl).elim
  kept kept finished := (empty kept (Phase.finished.inj finished)).elim
  own kept _ present := by
    rw [fresh] at present
    cases present
  freed released := by cases released
  readable kept shape := by
    rcases shape with storing | finished
    · cases storing
    · exact (empty kept (Phase.finished.inj finished)).elim

omit [DecidableEq ι] in
theorem sound_answered {c : Config ι} {record holder : Option Text} {i : ι} {r : Release} {answer : Answer}
    (before : Sound c record holder i .idle r) : Sound c record holder i (.answered answer) r where
  guarded := by simp
  holds executing := executing.elim
  fresh executing := executing.elim
  listening _ := before.listening (by simp)
  kept kept finished := by cases finished
  own kept held present := by cases before.own kept held present
  freed := before.freed
  readable kept shape := by rcases shape with h | h <;> cases h

omit [DecidableEq ι] in
theorem Safe.request {c : Config ι} {s t : State ι} (safe : Safe c s) (i : ι) (cache : t.cache = s.cache)
    (others : ∀ j, j ≠ i → t.phase j = s.phase j ∧ t.release j = s.release j)
    (changed : Sound c (s.record c) (s.holder c) i (t.phase i) (t.release i))
    (unstored : ∀ record, s.phase i ≠ .finished (.stored record)) : Safe c t := by
  have record : t.record c = s.record c := by rw [State.record, cache, State.record]
  have holder : t.holder c = s.holder c := by rw [State.holder, cache, State.holder]
  refine ⟨fun j => ?_, fun kept present => ?_, fun token held => safe.claimant token (holder ▸ held)⟩
  · rw [record, holder]
    by_cases same : j = i
    · rw [same]
      exact changed
    · rw [(others j same).1, (others j same).2]
      exact safe.each j
  · rw [record] at present
    obtain ⟨j, finished⟩ := safe.written kept present
    have differs : j ≠ i := by
      rintro rfl
      exact unstored kept finished
    exact ⟨j, (others j differs).1.trans finished⟩

theorem become_others (s : State ι) (i : ι) (p : Phase) :
    ∀ j, j ≠ i → (s.become i p).phase j = s.phase j ∧ (s.become i p).release j = s.release j :=
  fun _ differs => ⟨become_other s p differs, rfl⟩

theorem releasing_others (s : State ι) (i : ι) (p : Phase) (r : Release) :
    ∀ j, j ≠ i → ((s.become i p).releasing i r).phase j = s.phase j ∧
      ((s.become i p).releasing i r).release j = s.release j :=
  fun _ differs => ⟨become_other s p differs, by simp [State.releasing, differs]⟩

@[simp] theorem releasing_same (s : State ι) (i : ι) (r : Release) : (s.releasing i r).release i = r := by
  simp [State.releasing]

@[simp] theorem releasing_other (s : State ι) {i j : ι} (r : Release) (differs : j ≠ i) :
    (s.releasing i r).release j = s.release j := by
  simp [State.releasing, differs]

theorem claim_safe {c : Config ι} {s : State ι} (safe : Safe c s) {i : ι} (idle : s.phase i = .idle)
    (absent : s.record c = none) (free : s.holder c = none) :
    Safe c ((s.write (s.cache.set c.claimKey (c.claim i) (some c.lease))).become i .claimed) := by
  have record : ((s.write (s.cache.set c.claimKey (c.claim i) (some c.lease))).become i .claimed).record c = none := by
    rw [State.record, become_cache, write_cache, KeyValue.Store.get_set_other _ _ _ (claimKey_ne_recordKey c).symm]
    exact absent
  have holder : ((s.write (s.cache.set c.claimKey (c.claim i) (some c.lease))).become i .claimed).holder c =
      some (c.claim i) := KeyValue.Store.get_set_same _ _ _ (lease_positive c)
  refine ⟨fun j => ?_, fun kept present => ?_, fun token held => ⟨i, ?_⟩⟩
  · rw [record, holder]
    by_cases same : j = i
    · subst same
      have pending := (safe.each j).listening (by simp [idle])
      apply sound_executing rfl rfl pending
      · simp [Executing]
      · simp
      · simp
    · rw [become_other _ _ same]
      have before := safe.each j
      rw [absent, free] at before
      exact {
        guarded := before.guarded
        holds := fun executing => by cases before.holds executing
        fresh := fun _ => rfl
        listening := before.listening
        kept := before.kept
        own := fun _ _ present => by cases present
        freed := fun _ => claim_differs c same
        readable := before.readable }
  · rw [record] at present
    cases present
  · rw [holder] at held
    exact (Option.some.inj held).symm

theorem keep_safe {c : Config ι} {s : State ι} (safe : Safe c s) {i : ι} {record : Text}
    (storing : s.phase i = .storing (.stored record)) :
    Safe c (((s.write (s.cache.set c.recordKey record (some Config.ttl))).become i
      (.finished (.stored record))).releasing i .sent) := by
  have executing : Executing (s.phase i) := by simp [storing, Executing]
  have held := (safe.each i).holds executing
  have absent := (safe.each i).fresh executing
  have readable := (safe.each i).readable record (Or.inl storing)
  generalize after : ((s.write (s.cache.set c.recordKey record (some Config.ttl))).become i
    (.finished (.stored record))).releasing i .sent = t
  have recorded : t.record c = some record := by
    subst after
    exact KeyValue.Store.get_set_same _ _ _ ttl_positive
  have holder : t.holder c = some (c.claim i) := by
    subst after
    rw [State.holder, releasing_cache, become_cache, write_cache,
      KeyValue.Store.get_set_other _ _ _ (claimKey_ne_recordKey c)]
    exact held
  have finished : t.phase i = .finished (.stored record) ∧ t.release i = .sent := by
    subst after
    simp
  have others : ∀ j, j ≠ i → t.phase j = s.phase j ∧ t.release j = s.release j := by
    subst after
    exact releasing_others _ i _ _
  refine ⟨fun j => ?_, fun kept present => ?_, fun token claimed => ⟨i, ?_⟩⟩
  · rw [recorded, holder]
    by_cases same : j = i
    · rw [same, finished.1, finished.2]
      exact {
        guarded := by simp
        holds := fun impossible => impossible.elim
        fresh := fun impossible => impossible.elim
        listening := fun unfinished => (unfinished _ rfl).elim
        kept := fun kept done => by cases done; rfl
        own := fun kept _ present => by cases present; rfl
        freed := fun released => by cases released
        readable := fun kept shape => by
          rcases shape with h | h
          · cases h
          · cases h
            exact readable }
    · rw [(others j same).1, (others j same).2]
      have before := safe.each j
      rw [absent, held] at before
      exact {
        guarded := before.guarded
        holds := before.holds
        fresh := fun impossible => (claim_differs c same (before.holds impossible)).elim
        listening := before.listening
        kept := fun kept done => by cases before.kept kept done
        own := fun _ claimed _ => (claim_differs c same claimed).elim
        freed := before.freed
        readable := before.readable }
  · rw [recorded] at present
    cases present
    exact ⟨i, finished.1⟩
  · rw [holder] at claimed
    exact (Option.some.inj claimed).symm

omit [DecidableEq ι] in
/-- A step that leaves the requests and the record alone and takes at most a claim nobody executes under. -/
theorem Safe.weaken {c : Config ι} {s t : State ι} (safe : Safe c s) (phase : t.phase = s.phase)
    (record : t.record c = s.record c) (release : ∀ i, t.release i = s.release i ∨
      (t.release i = .done ∧ (∃ o, s.phase i = .finished o) ∧ t.holder c ≠ some (c.claim i)))
    (holder : t.holder c = s.holder c ∨ t.holder c = none)
    (executing : ∀ i, Executing (s.phase i) → t.holder c = some (c.claim i)) : Safe c t := by
  have earlier : ∀ {token}, t.holder c = some token → s.holder c = some token := by
    intro token held
    rcases holder with same | gone
    · rw [← same, held]
    · rw [gone] at held
      cases held
  refine ⟨fun i => ?_, fun kept present => ?_, fun token held => safe.claimant token (earlier held)⟩
  · rw [record, phase]
    have before := safe.each i
    exact {
      guarded := before.guarded
      holds := executing i
      fresh := before.fresh
      listening := fun unfinished => by
        rcases release i with same | ⟨_, ⟨o, finished⟩, _⟩
        · rw [same]
          exact before.listening unfinished
        · exact (unfinished o finished).elim
      kept := before.kept
      own := fun kept held present => before.own kept (earlier held) present
      freed := fun released held => by
        rcases release i with same | ⟨_, _, free⟩
        · exact before.freed (same ▸ released) (earlier held)
        · exact free held
      readable := before.readable }
  · rw [record] at present
    rw [phase]
    exact safe.written kept present

theorem release_safe {c : Config ι} {s : State ι} (safe : Safe c s) {i : ι} (sent : s.release i = .sent) :
    Safe c ((s.write (s.cache.delIf c.claimKey (c.claim i))).releasing i .done) := by
  have holder : ((s.write (s.cache.delIf c.claimKey (c.claim i))).releasing i .done).holder c =
      if s.holder c = some (c.claim i) then none else s.holder c := s.cache.get_delIf_same c.claimKey (c.claim i)
  have finished : ∃ o, s.phase i = .finished o := by
    by_contra unfinished
    have pending := (safe.each i).listening (fun o same => unfinished ⟨o, same⟩)
    rw [pending] at sent
    cases sent
  refine safe.weaken rfl ?_ ?_ ?_ ?_
  · exact s.cache.get_delIf_other _ (claimKey_ne_recordKey c).symm
  · intro j
    by_cases same : j = i
    · subst same
      refine Or.inr ⟨by simp, finished, ?_⟩
      rw [holder]
      split
      · simp
      · assumption
    · left
      simp [same]
  · rw [holder]
    split
    · exact Or.inr rfl
    · exact Or.inl rfl
  · intro j executing
    have held := (safe.each j).holds executing
    have differs : j ≠ i := by
      rintro rfl
      obtain ⟨o, finished⟩ := finished
      rw [finished] at executing
      exact executing
    rw [holder, held, if_neg (claim_differs c (Ne.symm differs))]

theorem step_safe {c : Config ι} {s t : State ι} (safe : Safe c s) (move : Move c s t) : Safe c t := by
  cases move with
  | answer i record idle present =>
    obtain ⟨k, finished⟩ := safe.written record present
    obtain ⟨stored, _, _, answered⟩ :=
      answerTo_readable ((safe.each k).readable record (Or.inr finished)) (c.fingerprint i)
    rw [answered]
    refine safe.request i rfl (become_others s i _) ?_ (by simp [idle])
    rw [become_same]
    exact sound_answered (idle ▸ safe.each i)
  | refuse i idle absent =>
    refine safe.request i rfl (become_others s i _) ?_ (by simp [idle])
    rw [become_same]
    exact sound_answered (idle ▸ safe.each i)
  | claim i idle absent free => exact claim_safe safe idle absent free
  | start i claimed =>
    have executing : Executing (s.phase i) := by simp [claimed, Executing]
    have before := safe.each i
    refine safe.request i rfl (become_others s i _) ?_ (by simp [claimed])
    rw [become_same]
    apply sound_executing (before.fresh executing) (before.holds executing)
    · exact before.listening (by simp [claimed])
    · simp [Executing]
    · simp
    · simp
  | emit i reply body running =>
    have executing : Executing (s.phase i) := by simp [running, Executing]
    have before := safe.each i
    refine safe.request i rfl (become_others s i _) ?_ (by simp [running])
    rw [become_same]
    apply sound_executing (before.fresh executing) (before.holds executing)
    · exact before.listening (by simp [running])
    · simp [Executing]
    · simp
    · intro kept storing
      exact outcomeOf_readable (Phase.storing.inj storing)
  | fail i running =>
    have fresh := (safe.each i).fresh (by simp [running, Executing])
    refine safe.request i rfl (releasing_others s i _ _) ?_ (by simp [running])
    simp only [releasing_phase, become_same, releasing_same]
    exact sound_unstored fresh (by simp)
  | keep i record storing => exact keep_safe safe storing
  | finish i o storing empty =>
    have fresh := (safe.each i).fresh (by simp [storing, Executing])
    refine safe.request i rfl (releasing_others s i _ _) ?_ (by simp [storing])
    simp only [releasing_phase, become_same, releasing_same]
    exact sound_unstored fresh empty
  | renew i =>
    have unchanged := fun k => s.cache.get_expireIf c.claimKey k (c.claim i) (lease_positive c)
    refine safe.weaken rfl (unchanged _) (fun _ => Or.inl rfl) (Or.inl (unchanged _)) fun j executing => ?_
    exact (unchanged _).trans ((safe.each j).holds executing)
  | release i sent => exact release_safe safe sent
  | tick ms claims records =>
    refine safe.weaken rfl ?_ (fun _ => Or.inl rfl) (s.cache.get_advance ms _) fun i executing => ?_
    · rcases s.cache.get_advance ms c.recordKey with same | gone
      · exact same
      · cases present : s.record c with
        | none => exact gone
        | some record => exact records record present
    · exact claims i executing ((safe.each i).holds executing)

theorem run_safe {c : Config ι} {now : ℕ} {s : State ι} {es : List (Event ι)}
    (run : Runs.Run (step c) (Steady c) (initial now) es s) : Safe c s :=
  run.invariant (fun safe steady taken => step_safe safe (step_moves safe steady taken)) (initial_safe c now)

/-! ### What a run leaves -/

def Recording (p : Phase) (record : Text) : Prop := p = .storing (.stored record) ∨ p = .finished (.stored record)

theorem step_recording {c : Config ι} {s t : State ι} {e : Event ι} (taken : step c s e = some t) {i : ι} {record : Text}
    (recording : Recording (t.phase i) record) : Recording (s.phase i) record ∨
      ∃ reply body, e = .emit i reply body ∧ outcomeOf (c.fingerprint i) reply body = .stored record := by
  rcases step_next taken i with same | next
  · exact Or.inl (same ▸ recording)
  · generalize t.phase i = p at next recording
    generalize s.phase i = q at next
    have unrecorded : ∀ {p}, (∀ o, p ≠ .storing o) → (∀ o, p ≠ .finished o) → ¬ Recording p record := by
      intro p notStoring notFinished recording
      rcases recording with h | h
      · exact notStoring _ h
      · exact notFinished _ h
    cases next with
    | answer call text =>
      rw [answerTo] at recording
      repeat' split at recording
      all_goals exact (unrecorded (by simp) (by simp) recording).elim
    | emit reply body =>
      rcases recording with storing | impossible
      · exact Or.inr ⟨reply, body, rfl, Phase.storing.inj storing⟩
      · cases impossible
    | keep call text =>
      rcases recording with impossible | finished
      · cases impossible
      · cases finished
        exact Or.inl (Or.inl rfl)
    | finish call o empty =>
      rcases recording with impossible | finished
      · cases impossible
      · exact (empty _ (Phase.finished.inj finished)).elim
    | _ => rcases recording with h | h <;> cases h

theorem run_recording {c : Config ι} {ok : State ι → Event ι → Prop} {s t : State ι} {es : List (Event ι)}
    (run : Runs.Run (step c) ok s es t) {i : ι} {record : Text} (recording : Recording (t.phase i) record) :
    Recording (s.phase i) record ∨
      ∃ reply body, .emit i reply body ∈ es ∧ outcomeOf (c.fingerprint i) reply body = .stored record := by
  induction run with
  | nil => exact Or.inl recording
  | cons _ taken _ ih =>
    rcases ih recording with before | ⟨reply, body, member, same⟩
    · rcases step_recording taken before with earlier | ⟨reply, body, rfl, same⟩
      · exact Or.inl earlier
      · exact Or.inr ⟨reply, body, List.mem_cons_self, same⟩
    · exact Or.inr ⟨reply, body, List.mem_cons_of_mem _ member, same⟩

theorem run_finished {c : Config ι} {ok : State ι → Event ι → Prop} {s t : State ι} {es : List (Event ι)}
    (run : Runs.Run (step c) ok s es t) {i : ι} {o : Outcome} (finished : s.phase i = .finished o) :
    t.phase i = .finished o :=
  run.invariant (fun before _ taken => finished_stays taken before) finished

omit [DecidableEq ι] in
theorem Safe.exclusive {c : Config ι} {s : State ι} (safe : Safe c s) {i j : ι} (first : Executing (s.phase i))
    (second : Executing (s.phase j)) : i = j := by
  have same := ((safe.each i).holds first).symm.trans ((safe.each j).holds second)
  exact c.claim_injective (Option.some.inj same)

omit [DecidableEq ι] in
theorem Safe.quiet {c : Config ι} {s : State ι} (safe : Safe c s) {i : ι} {record : Text}
    (stored : s.phase i = .finished (.stored record)) (j : ι) : ¬ Executing (s.phase j) := by
  intro executing
  have present := (safe.each i).kept record stored
  rw [(safe.each j).fresh executing] at present
  cases present

/-- The answer to a request that arrives when the record of request `i` is stored. -/
def Replayed (c : Config ι) (i : ι) (record : Text) (j : ι) (p : Phase) : Prop :=
  ∃ stored, parseStored record = some stored ∧ stored.f = c.fingerprint i ∧
    p = .answered (if c.fingerprint i ≠ c.fingerprint j then .keyReused
      else if stored.isMarker then .notReplayable stored.s else .replay stored)

theorem arrive_answered {c : Config ι} {s t : State ι} {j : ι} {record : Text} (present : s.record c = some record)
    (taken : step c s (.arrive j .ok) = some t) : t.phase j = answerTo record (c.fingerprint j) := by
  have found : s.cache.get c.recordKey = some record := present
  simp only [step] at taken
  split at taken
  · rw [if_pos trivial, arrive, found] at taken
    cases taken
    exact become_same s j _
  · cases taken

theorem Readable.replayed {c : Config ι} {s t : State ι} {i j : ι} {record : Text}
    (readable : Readable (c.fingerprint i) record) (present : s.record c = some record)
    (taken : step c s (.arrive j .ok) = some t) : Replayed c i record j (t.phase j) := by
  obtain ⟨response, parsed, same, answered⟩ := answerTo_readable readable (c.fingerprint j)
  exact ⟨response, parsed, same, (arrive_answered present taken).trans answered⟩

theorem Safe.replayed {c : Config ι} {s t : State ι} (safe : Safe c s) {i j : ι} {record : Text}
    (stored : s.phase i = .finished (.stored record)) (taken : step c s (.arrive j .ok) = some t) :
    Replayed c i record j (t.phase j) :=
  ((safe.each i).readable record (Or.inr stored)).replayed ((safe.each i).kept record stored) taken

theorem arrive_granted {c : Config ι} {s : State ι} {j : ι} (idle : s.phase j = .idle) (absent : s.record c = none)
    (free : s.holder c = none) : ∃ t, step c s (.arrive j .ok) = some t ∧ t.phase j = .claimed := by
  have absent : s.cache.get c.recordKey = none := absent
  refine ⟨arrive c s j, ?_, ?_⟩
  · rw [step, idle]
    exact if_pos rfl
  · rw [arrive, absent]
    simp only [KeyValue.Store.setIfAbsent_of_absent free, become_same]

def Outcome.Failed : Outcome → Prop
  | .threw | .unsuccessful _ => True
  | _ => False

/-- A failing execution ends with no record under the key. -/
theorem fail_unrecorded {c : Config ι} {s t : State ι} {e : Event ι} (safe : Safe c s) (steady : Steady c s e)
    (taken : step c s e = some t) {i : ι} {o : Outcome} (failed : o.Failed) (before : s.phase i ≠ .finished o)
    (after : t.phase i = .finished o) : t.record c = none := by
  have ending : ∀ {j : ι} {u : State ι}, Executing (s.phase j) → u.cache = s.cache → u.record c = none := by
    intro j u executing cache
    rw [State.record, cache]
    exact (safe.each j).fresh executing
  have elsewhere : ∀ {j : ι} {p : Phase}, (s.become j p).phase i = .finished o → p ≠ .finished o → False := by
    intro j p finished differs
    by_cases same : i = j
    · rw [same, become_same] at finished
      exact differs finished
    · rw [become_other s p same] at finished
      exact before finished
  have move := step_moves safe steady taken
  cases move with
  | answer j record idle present =>
    obtain ⟨k, finished⟩ := safe.written record present
    obtain ⟨_, _, _, answered⟩ :=
      answerTo_readable ((safe.each k).readable record (Or.inr finished)) (c.fingerprint j)
    exact (elsewhere after (by rw [answered]; simp)).elim
  | refuse | start | emit => exact (elsewhere after (by simp)).elim
  | claim j => exact (elsewhere after (by simp)).elim
  | fail j running => exact ending (show Executing (s.phase j) by simp [running, Executing]) rfl
  | keep j record storing =>
    refine (elsewhere after ?_).elim
    rintro same
    cases same
    exact failed.elim
  | finish j o' storing => exact ending (show Executing (s.phase j) by simp [storing, Executing]) rfl
  | renew | release | tick => exact (before after).elim

/-- The release of a request leaves no claim of it, and frees the key if the claim was still its own. -/
theorem release_frees {c : Config ι} {s t : State ι} (safe : Safe c s) {i : ι} {o : Outcome} (failed : o.Failed)
    (finished : s.phase i = .finished o) (taken : step c s (.release i .ok) = some t) :
    t.record c = s.record c ∧ t.holder c ≠ some (c.claim i) ∧
    (s.holder c = some (c.claim i) → t.record c = none ∧ t.holder c = none) := by
  simp only [step] at taken
  split at taken
  · cases taken
    have record : s.record c = s.cache.get c.recordKey := rfl
    have unchanged := s.cache.get_delIf_other (c.claim i) (claimKey_ne_recordKey c).symm
    have freed := s.cache.get_delIf_same c.claimKey (c.claim i)
    refine ⟨unchanged, ?_, fun own => ⟨unchanged.trans ?_, freed.trans (if_pos own)⟩⟩
    · intro held
      have after := freed.symm.trans held
      split at after
      · cases after
      · rename_i other
        exact other after
    · rw [← record]
      cases present : s.record c with
      | none => rfl
      | some kept =>
        have stored := (safe.each i).own kept own present
        cases finished.symm.trans stored
        exact failed.elim
  · cases taken

/-- Requests with one record key, from an empty cache, while the cache answers, no stream is torn
down and neither claims nor the record lapse. -/
theorem one_execution_per_key (c : Config ι) (now : ℕ) {es : List (Event ι)} {s : State ι}
    (run : Runs.Run (step c) (Steady c) (initial now) es s) :
    (∀ i j, Executing (s.phase i) → Executing (s.phase j) → i = j) ∧
    (∀ i record, s.phase i = .finished (.stored record) →
      (∃ reply body, .emit i reply body ∈ es ∧ outcomeOf (c.fingerprint i) reply body = .stored record) ∧
      ∀ fs t, Runs.Run (step c) (Steady c) s fs t →
        (∀ j, ¬ Executing (t.phase j)) ∧
        ∀ j u, step c t (.arrive j .ok) = some u → Replayed c i record j (u.phase j)) ∧
    (∀ i o, o.Failed →
      (∀ e t, Steady c s e → step c s e = some t → s.phase i ≠ .finished o → t.phase i = .finished o →
        t.record c = none) ∧
      ∀ t, s.phase i = .finished o → step c s (.release i .ok) = some t →
        t.record c = s.record c ∧ t.holder c ≠ some (c.claim i) ∧
        (s.holder c = some (c.claim i) → t.record c = none ∧ t.holder c = none) ∧
        (t.record c = none → t.holder c = none → ∀ j, t.phase j = .idle →
          ∃ u, step c t (.arrive j .ok) = some u ∧ u.phase j = .claimed)) := by
  have safe := run_safe run
  refine ⟨fun i j => safe.exclusive, fun i record stored => ⟨?_, fun fs t later => ?_⟩, fun i o failed => ⟨?_, ?_⟩⟩
  · rcases run_recording run (Or.inr stored) with impossible | emitted
    · rcases impossible with h | h <;> cases h
    · exact emitted
  · have after := run_safe (run.append later)
    have kept := run_finished later stored
    exact ⟨fun j => after.quiet kept j, fun j u taken => after.replayed kept taken⟩
  · intro e t steady taken before finished
    exact fail_unrecorded safe steady taken failed before finished
  · intro t finished taken
    obtain ⟨unchanged, lost, freed⟩ := release_frees safe failed finished taken
    exact ⟨unchanged, lost, freed, fun absent free j idle => arrive_granted idle absent free⟩

def numbered : Config ℕ where
  recordKey := text "idem"
  leaseSeconds := 60
  lease_range := by decide
  claim := natText
  claim_injective := natText_injective
  fingerprint _ := text "a"

def created : Reply := ⟨201, fun _ => .missing⟩

theorem one_execution_numbered : ∃ s, s.phase 0 = .finished (.stored (stringify (marker (text "a") 201))) ∧
    (∀ j, ¬ Executing (s.phase j)) ∧ ∀ u, step numbered s (.arrive 1 .ok) = some u →
      Replayed numbered 0 (stringify (marker (text "a") 201)) 1 (u.phase 1) := by
  have run : ∃ s, Runs.Run (step numbered) (Steady numbered) (initial 0)
      [.arrive 0 .ok, .start 0, .emit 0 created .function, .store 0 .ok, .release 0 .ok] s ∧
      s.phase 0 = .finished (.stored (stringify (marker (text "a") 201))) :=
    ⟨_, .cons rfl rfl (.cons trivial rfl (.cons trivial rfl (.cons rfl rfl (.cons rfl rfl (.nil _))))), rfl⟩
  obtain ⟨s, run, stored⟩ := run
  have after := ((one_execution_per_key numbered 0 run).2.1 0 _ stored).2 [] s (.nil s)
  exact ⟨s, stored, after.1, fun u taken => after.2 1 u taken⟩

end Idempotency
