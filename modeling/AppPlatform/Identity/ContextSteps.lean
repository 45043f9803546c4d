import AppPlatform.Identity.Context

/-!
# What a step of a call does

An inversion of `step`: the phases a call can move to, what becomes of the sessions, and who remembers a
membership.
-/

namespace Identity.Context
open Js
variable {ι : Type*} [DecidableEq ι]

/-- Where a call goes on when its fallback is this context. -/
def decided (contextId : Option Text) : Purpose → Phase
  | .create token session merged =>
    .inserting token (spread session (spread (merged.getD []) [(text "contextId", contextId.elim .null .str)]))
  | .replace token userId seen found => .replacing token userId seen found contextId

def deciding (c : Config) (purpose : Purpose) (userId : Text) : Phase :=
  if c.initial then .choosing purpose userId else decided none purpose

def Event.caller? : Event ι → Option ι
  | .begin r _ => some r
  | .staffHook r _ => some r
  | .initial r _ => some r
  | .membership r _ => some r
  | .insert r => some r
  | .load r _ => some r
  | .list r _ => some r
  | .update r _ => some r
  | .resume r => some r
  | .signOut _ => none
  | .tick _ => none

def remembers (s : State ι) : Event ι → Option (Text × Text)
  | .membership r (.value true) =>
    match s.phase r with
    | .approving _ userId candidate => some (userId, candidate)
    | .checking _ userId seen _ => some (userId, seen)
    | _ => none
  | .resume r =>
    match s.phase r with
    | .replied (.setting _ userId (some next) _) (.written true true) => some (userId, next)
    | _ => none
  | _ => none

inductive Next (c : Config) (s : State ι) : Phase → Event ι → Phase → Prop where
  | begun {r : ι} {call : Call} : Next c s .idle (.begin r call) (begun call)
  | hookFailed {r : ι} {token : Text} {session : Row} {staff : Staff} :
      Next c s (.hooking token session) (.staffHook r staff) .failed
  | hookPlain {r : ι} {token : Text} {session row : Row} {staff : Staff} :
      Next c s (.hooking token session) (.staffHook r staff) (.inserting token row)
  | hookFallback {r : ι} {token userId : Text} {session : Row} {merged : Option Row} {staff : Staff} :
      Next c s (.hooking token session) (.staffHook r staff) (deciding c (.create token session merged) userId)
  | noCandidate {r : ι} {purpose : Purpose} {userId : Text} {answer : Answer Value} :
      Next c s (.choosing purpose userId) (.initial r answer) (decided none purpose)
  | candidate {r : ι} {purpose : Purpose} {userId candidate : Text} {value : Value} : isUuid value = some candidate →
      Next c s (.choosing purpose userId) (.initial r (.value value)) (.approving purpose userId candidate)
  | approved {r : ι} {purpose : Purpose} {userId candidate : Text} :
      Next c s (.approving purpose userId candidate) (.membership r (.value true)) (decided (some candidate) purpose)
  | notApproved {r : ι} {purpose : Purpose} {userId candidate : Text} {answer : Answer Bool} :
      Next c s (.approving purpose userId candidate) (.membership r answer) (decided none purpose)
  | served {r : ι} {p : Phase} {token : Text} {found : Option Found} : p.load? = some token →
      Next c s p (.load r found) (.replied p (.found found))
  | listed {r : ι} {contextId : Text} {target : Option Text} {seen : List Text} {count : ℕ}
      {rows : List (Text × Value)} : Next c s (.scanning contextId target seen count) (.list r rows)
        (.replied (.scanning contextId target seen count) (.rows rows))
  | written {r : ι} {p : Phase} {token : Text} {contextId : Option Text} {outcome : Outcome} {updated : Bool} :
      p.write? = some (token, contextId) →
      Next c s p (.update r outcome) (.replied p (.written (outcome = .done) updated))
  | found {r : ι} {token : Text} {found : Option Found} :
      (∀ answer userId contextId, found = some answer → isUuid answer.contextId = some contextId →
        answer.userId = .str userId →
        answer.expiresAt.any (· ≤ s.now) ∨ isBelieved s.now userId contextId s.believed) →
      Next c s (.replied (.finding token) (.found found)) (.resume r) (.returned found)
  | unsure {r : ι} {token userId contextId : Text} {found : Found} : isUuid found.contextId = some contextId →
      found.userId = .str userId →
      Next c s (.replied (.finding token) (.found (some found))) (.resume r) (.checking token userId contextId found)
  | kept {r : ι} {token userId seen : Text} {found : Found} {answer : Answer Bool} : answer ≠ .value false →
      Next c s (.checking token userId seen found) (.membership r answer) (.returned (some found))
  | lost {r : ι} {token userId seen : Text} {found : Found} : Next c s (.checking token userId seen found)
      (.membership r (.value false)) (deciding c (.replace token userId seen found) userId)
  | loaded {r : ι} {token userId next : Text} {found : Found} {previous : Option Text} :
      Next c s (.replied (.loading token (some next)) (.found (some found))) (.resume r) (.asking token userId next previous)
  | loadedNone {r : ι} {token userId : Text} {found : Found} {previous : Option Text} :
      Next c s (.replied (.loading token none) (.found (some found))) (.resume r) (.setting token userId none previous)
  | notLoaded {r : ι} {token : Text} {next : Option Text} {found : Option Found} :
      Next c s (.replied (.loading token next) (.found found)) (.resume r) .failed
  | allowed {r : ι} {token userId next : Text} {previous : Option Text} : Next c s (.asking token userId next previous)
      (.membership r (.value true)) (.setting token userId (some next) previous)
  | refused {r : ι} {token userId next : Text} {previous : Option Text} {answer : Answer Bool} :
      Next c s (.asking token userId next previous) (.membership r answer) .failed
  | inserted {r : ι} {token : Text} {row : Row} : Next c s (.inserting token row) (.insert r) (.created token)
  | notInserted {r : ι} {token : Text} {row : Row} : Next c s (.inserting token row) (.insert r) .failed
  | replaced {r : ι} {token userId seen : Text} {found : Found} {replacement : Option Text} {answered updated : Bool} :
      Next c s (.replied (.replacing token userId seen found replacement) (.written answered updated)) (.resume r)
        (.returned (some { found with contextId := replacement.elim .null .str }))
  | switched {r : ι} {token userId : Text} {next previous : Option Text} {updated : Bool} :
      Next c s (.replied (.setting token userId next previous) (.written true updated)) (.resume r) (.switched token next)
  | notSwitched {r : ι} {token userId : Text} {next previous : Option Text} {updated : Bool} :
      Next c s (.replied (.setting token userId next previous) (.written false updated)) (.resume r) .failed
  | clearedOne {r : ι} {contextId : Text} {target : Option Text} {seen : List Text} {count : ℕ}
      {row : Text × Value} {batch : List (Text × Value)} {updated : Bool} :
      Next c s (.replied (.clearing contextId target seen count (row :: batch)) (.written true updated)) (.resume r)
        (if batch = [] then .scanning contextId target seen (count + 1)
          else .clearing contextId target seen (count + 1) batch)
  | notCleared {r : ι} {contextId : Text} {target : Option Text} {seen : List Text} {count : ℕ}
      {row : Text × Value} {batch : List (Text × Value)} {updated : Bool} :
      Next c s (.replied (.clearing contextId target seen count (row :: batch)) (.written false updated)) (.resume r) .failed
  | wentOn {r : ι} {p : Phase} {answered updated : Bool} : p.write? = none →
      Next c s (.replied p (.written answered updated)) (.resume r) p
  | batch {r : ι} {contextId : Text} {target : Option Text} {seen : List Text} {count : ℕ} {rows : List (Text × Value)} :
      rows.filter (·.1 ∉ seen) ≠ [] → Next c s (.replied (.scanning contextId target seen count) (.rows rows)) (.resume r)
        (.clearing contextId target (seen ++ (rows.filter (·.1 ∉ seen)).map Prod.fst) count (rows.filter (·.1 ∉ seen)))
  | cleared {r : ι} {contextId : Text} {target : Option Text} {seen : List Text} {count : ℕ} {rows : List (Text × Value)} :
      rows.filter (·.1 ∉ seen) = [] →
      Next c s (.replied (.scanning contextId target seen count) (.rows rows)) (.resume r) (.cleared count)

/-- The call `r` goes on to the phase `p`; apart from that only what is remembered changes, and it gains no
membership but the `learned` one. -/
structure Moved (s t : State ι) (r : ι) (p : Phase) (learned : Option (Text × Text)) : Prop where
  sessions : t.sessions = s.sessions
  now : t.now = s.now
  phase : t.phase = Function.update s.phase r p
  believed : ∀ key till, t.believed.lookup key = some till → s.believed.lookup key = some till ∨
    ∃ userId contextId, learned = some (userId, contextId) ∧ key = keyOf userId contextId

theorem moved_toPhase (s : State ι) (r : ι) (p : Phase) (learned : Option (Text × Text)) :
    Moved s (s.toPhase r p) r p learned :=
  ⟨rfl, rfl, rfl, fun _ _ present => Or.inl present⟩

omit [DecidableEq ι] in
theorem lookup_believe {c : Config} {now till : ℤ} {userId contextId key : Text} {believed : Believed}
    (present : (believe c now userId contextId believed).lookup key = some till) :
    believed.lookup key = some till ∨ key = keyOf userId contextId := by
  by_cases same : key = keyOf userId contextId
  · exact Or.inr same
  · refine Or.inl ?_
    unfold believe at present
    split at present
    · exact present
    · have kept := Memo.lookup_of_remember same present
      exact (AList.lookup_erase_ne same).symm.trans kept

theorem lookup_forget {userId key : Text} {contextId : Option Text} {till : ℤ} {believed : Believed}
    (present : (forget userId contextId believed).lookup key = some till) : believed.lookup key = some till := by
  have erased : ∀ {key' : Text} {believed : Believed}, (believed.erase key').lookup key = some till →
      believed.lookup key = some till := by
    intro key' believed present
    by_cases same : key = key'
    · rw [same, AList.lookup_erase] at present
      cases present
    · exact (AList.lookup_erase_ne same).symm.trans present
  unfold forget at present
  split at present
  · exact erased present
  · generalize believed.keys = keys at present
    induction keys generalizing believed with
    | nil => exact present
    | cons key' keys ih =>
      have before := ih present
      dsimp only at before
      split at before
      · exact erased before
      · exact before

theorem moved_forget (s : State ι) (r : ι) (p : Phase) (learned : Option (Text × Text)) (userId : Text)
    (contextId : Option Text) : Moved s ((s.forget userId contextId).toPhase r p) r p learned :=
  ⟨rfl, rfl, rfl, fun _ _ present => Or.inl (lookup_forget present)⟩

theorem moved_believe (c : Config) (s : State ι) (r : ι) (p : Phase) (userId contextId : Text) :
    Moved s ((s.believe c userId contextId).toPhase r p) r p (some (userId, contextId)) :=
  ⟨rfl, rfl, rfl, fun _ _ present => (lookup_believe present).imp id fun same => ⟨userId, contextId, rfl, same⟩⟩

/-- Approvals are history: no call reads them. -/
theorem Moved.of_approve {s t : State ι} {r r' : ι} {p : Phase} {learned : Option (Text × Text)} {userId contextId : Text}
    (moved : Moved (s.approve r' userId contextId) t r p learned) : Moved s t r p learned :=
  ⟨moved.sessions, moved.now, moved.phase, moved.believed⟩

theorem fellBack_toPhase (s : State ι) (r : ι) (contextId : Option Text) (purpose : Purpose) :
    fellBack s r contextId purpose = s.toPhase r (decided contextId purpose) := by
  cases purpose <;> rfl

theorem fallback_toPhase (c : Config) (s : State ι) (r : ι) (purpose : Purpose) (userId : Text) :
    fallback c s r purpose userId = s.toPhase r (deciding c purpose userId) := by
  unfold fallback deciding
  split
  · rfl
  · exact fellBack_toPhase s r none purpose

/-! ### One function at a time -/

theorem hooked_moves (c : Config) {s : State ι} {r : ι} {token : Text} {session : Row} (staff : Staff) :
    ∃ p, Next c s (.hooking token session) (.staffHook r staff) p ∧ Moved s (hooked c s r token session staff) r p none := by
  unfold hooked
  split
  · unfold createBefore
    split
    · rw [fallback_toPhase]
      exact ⟨_, .hookFallback, moved_toPhase ..⟩
    · exact ⟨_, .hookPlain, moved_toPhase ..⟩
  · exact ⟨_, .hookFailed, moved_toPhase ..⟩

theorem answeredInitial_moves (c : Config) {s : State ι} {r : ι} (purpose : Purpose) (userId : Text) (answer : Answer Value) :
    ∃ p, Next c s (.choosing purpose userId) (.initial r answer) p ∧
      Moved s (answeredInitial s r purpose userId answer) r p none := by
  unfold answeredInitial
  split
  · split
    · rename_i uuid
      exact ⟨_, .candidate uuid, moved_toPhase ..⟩
    · rw [fellBack_toPhase]
      exact ⟨_, .noCandidate, moved_toPhase ..⟩
  · rw [fellBack_toPhase]
    exact ⟨_, .noCandidate, moved_toPhase ..⟩

theorem answeredMembership_moves {c : Config} {s t : State ι} {r : ι} {answer : Answer Bool}
    (taken : answeredMembership c s r answer (s.phase r) = some t) :
    ∃ p, Next c s (s.phase r) (.membership r answer) p ∧ Moved s t r p (remembers s (.membership r answer)) := by
  cases phase : s.phase r with
  | approving purpose userId candidate =>
    rw [phase] at taken
    rcases answer with (_ | _) | _
    · obtain rfl := Option.some.inj taken
      rw [fellBack_toPhase]
      exact ⟨_, .notApproved, moved_toPhase ..⟩
    · obtain rfl := Option.some.inj taken
      rw [fellBack_toPhase]
      simp only [remembers, phase]
      exact ⟨_, .approved, (moved_believe c (s.approve r userId candidate) r _ userId candidate).of_approve⟩
    · obtain rfl := Option.some.inj taken
      rw [fellBack_toPhase]
      exact ⟨_, .notApproved, moved_toPhase ..⟩
  | checking token userId seen found =>
    rw [phase] at taken
    rcases answer with (_ | _) | _
    · obtain rfl := Option.some.inj taken
      rw [fallback_toPhase]
      exact ⟨_, .lost, moved_forget ..⟩
    · obtain rfl := Option.some.inj taken
      simp only [remembers, phase]
      exact ⟨_, .kept nofun, (moved_believe c (s.approve r userId seen) r _ userId seen).of_approve⟩
    · obtain rfl := Option.some.inj taken
      exact ⟨_, .kept nofun, moved_toPhase ..⟩
  | asking token userId next previous =>
    rw [phase] at taken
    rcases answer with (_ | _) | _
    · obtain rfl := Option.some.inj taken
      exact ⟨_, .refused, moved_toPhase ..⟩
    · obtain rfl := Option.some.inj taken
      exact ⟨_, .allowed, (moved_toPhase (s.approve r userId next) ..).of_approve⟩
    · obtain rfl := Option.some.inj taken
      exact ⟨_, .refused, moved_toPhase ..⟩
  | _ =>
    rw [phase] at taken
    cases taken

theorem foundSession_moves (c : Config) {s : State ι} {r : ι} (token : Text) (found : Option Found) :
    ∃ p, Next c s (.replied (.finding token) (.found found)) (.resume r) p ∧
      Moved s (foundSession s r token found) r p none := by
  unfold foundSession
  split
  · exact ⟨_, .found nofun, moved_toPhase ..⟩
  · split
    · rename_i answer contextId userId uuid user
      split
      · rename_i trusted
        refine ⟨_, .found ?_, moved_toPhase ..⟩
        rintro _ userId' contextId' ⟨⟩ uuid' user'
        obtain rfl := Option.some.inj (uuid.symm.trans uuid')
        obtain rfl := Value.str.inj (user.symm.trans user')
        simpa using trusted
      · exact ⟨_, .unsure uuid user, moved_toPhase ..⟩
    · rename_i answer other
      refine ⟨_, .found ?_, moved_toPhase ..⟩
      rintro _ userId contextId ⟨⟩ uuid user
      exact (other _ _ uuid user).elim

theorem loadedSession_moves (c : Config) {s : State ι} {r : ι} (token : Text) (next : Option Text) (found : Option Found) :
    ∃ p, Next c s (.replied (.loading token next) (.found found)) (.resume r) p ∧
      Moved s (loadedSession s r token next found) r p none := by
  unfold loadedSession
  split
  · split
    · exact ⟨_, .loaded, moved_toPhase ..⟩
    · exact ⟨_, .loadedNone, moved_toPhase ..⟩
    · exact ⟨_, .notLoaded, moved_toPhase ..⟩
  · exact ⟨_, .notLoaded, moved_toPhase ..⟩

theorem scanned_moves (c : Config) {s : State ι} {r : ι} (contextId : Text) (userId : Option Text) (seen : List Text)
    (count : ℕ) (rows : List (Text × Value)) :
    ∃ p, Next c s (.replied (.scanning contextId userId seen count) (.rows rows)) (.resume r) p ∧
      Moved s (scanned s r contextId userId seen count rows) r p none := by
  unfold scanned
  dsimp only
  split
  · rename_i done
    refine ⟨_, .cleared done, ?_⟩
    cases userId with
    | none => exact moved_toPhase ..
    | some userId => exact moved_forget ..
  · rename_i more
    exact ⟨_, .batch more, moved_toPhase ..⟩

theorem afterUpdate_moves (c : Config) {s : State ι} {r : ι} {p : Phase} {answered updated : Bool}
    (waits : s.phase r = .replied p (.written answered updated)) :
    ∃ p', Next c s (.replied p (.written answered updated)) (.resume r) p' ∧
      Moved s (afterUpdate c s r answered updated p) r p' (remembers s (.resume r)) := by
  cases p with
  | replacing token userId seen found replacement => exact ⟨_, .replaced, moved_toPhase ..⟩
  | setting token userId next previous =>
    cases answered with
    | true =>
      refine ⟨_, .switched, ?_⟩
      cases next with
      | none => exact moved_forget ..
      | some next =>
        cases updated with
        | true =>
          simp only [remembers, waits]
          exact moved_believe ..
        | false => exact moved_toPhase ..
    | false => exact ⟨_, .notSwitched, moved_toPhase ..⟩
  | clearing contextId target seen count batch =>
    rcases batch with _ | ⟨⟨token, userId⟩, batch⟩
    · exact ⟨_, .wentOn rfl, moved_toPhase ..⟩
    · cases answered with
      | true =>
        refine ⟨_, .clearedOne, ?_⟩
        cases userId with
        | str userId => exact moved_forget ..
        | _ => exact moved_toPhase ..
      | false => exact ⟨_, .notCleared, moved_toPhase ..⟩
  | _ => exact ⟨_, .wentOn rfl, moved_toPhase ..⟩

theorem resumed_moves {c : Config} {s t : State ι} {r : ι} {p : Phase} {reply : Reply} (waits : s.phase r = .replied p reply)
    (taken : resumed c s r p reply = some t) :
    ∃ p', Next c s (.replied p reply) (.resume r) p' ∧ Moved s t r p' (remembers s (.resume r)) := by
  unfold resumed at taken
  split at taken
  · obtain rfl := Option.some.inj taken
    simp only [remembers, waits]
    exact foundSession_moves ..
  · obtain rfl := Option.some.inj taken
    simp only [remembers, waits]
    exact loadedSession_moves ..
  · obtain rfl := Option.some.inj taken
    simp only [remembers, waits]
    exact scanned_moves ..
  · obtain rfl := Option.some.inj taken
    exact afterUpdate_moves c waits
  · cases taken

/-! ### One step -/

/-- What a step does to the state. -/
inductive Did (c : Config) (s t : State ι) (e : Event ι) : Prop where
  | moved {r : ι} {p : Phase} : e.caller? = some r → Next c s (s.phase r) e p → Moved s t r p (remembers s e) → Did c s t e
  | inserted {r : ι} {token : Text} {row : Row} : e = .insert r → s.phase r = .inserting token row → token ∉ s.sessions →
      t = ({ s with sessions := s.sessions.insert token (.live (sessionOf row r)) } : State ι).toPhase r (.created token) →
      Did c s t e
  | wrote {r : ι} {outcome : Outcome} {token : Text} {contextId : Option Text} {p : Phase} : e = .update r outcome →
      outcome ≠ .lost → (s.phase r).write? = some (token, contextId) → Next c s (s.phase r) e p →
      Moved (s.writeContext r token contextId) t r p (remembers s e) → Did c s t e
  | signedOut {token : Text} : e = .signOut token → t = { s with sessions := s.sessions.insert token .ended } → Did c s t e
  | ticked {now : ℤ} : e = .tick now → t = { s with now := now } → Did c s t e

theorem updated_did (c : Config) {s : State ι} {r : ι} {outcome : Outcome} {token : Text} {contextId : Option Text}
    (writes : (s.phase r).write? = some (token, contextId)) :
    Did c s (updated s r token contextId outcome) (.update r outcome) := by
  unfold updated
  dsimp only
  split
  · exact .moved rfl (.written writes) (moved_toPhase ..)
  · rename_i made
    exact .wrote rfl made writes (.written writes) (moved_toPhase ..)

theorem step_did {c : Config} {s t : State ι} {e : Event ι} (taken : step c s e = some t) : Did c s t e := by
  unfold step at taken
  split at taken
  · split at taken
    · rename_i r call idle
      obtain rfl := Option.some.inj taken
      exact .moved rfl (idle ▸ .begun) (moved_toPhase ..)
    · cases taken
  · split at taken
    · rename_i r staff _ token session hooking
      obtain rfl := Option.some.inj taken
      obtain ⟨p, next, moved⟩ := hooked_moves c (r := r) staff
      exact .moved rfl (hooking ▸ next) moved
    · cases taken
  · split at taken
    · rename_i r answer _ purpose userId choosing
      obtain rfl := Option.some.inj taken
      obtain ⟨p, next, moved⟩ := answeredInitial_moves c (r := r) purpose userId answer
      exact .moved rfl (choosing ▸ next) moved
    · cases taken
  · obtain ⟨p, next, moved⟩ := answeredMembership_moves taken
    exact .moved rfl next moved
  · split at taken
    · rename_i r _ token row inserting
      split at taken
      · obtain rfl := Option.some.inj taken
        exact .moved rfl (inserting ▸ .notInserted) (moved_toPhase ..)
      · rename_i unused
        obtain rfl := Option.some.inj taken
        exact .inserted rfl inserting unused rfl
    · cases taken
  · split at taken
    · rename_i r found _ token waits
      obtain rfl := Option.some.inj taken
      exact .moved rfl (.served waits) (moved_toPhase ..)
    · cases taken
  · split at taken
    · rename_i r rows _ contextId target seen count scanning
      obtain rfl := Option.some.inj taken
      have next : Next c s (s.phase r) (.list r rows) (.replied (s.phase r) (.rows rows)) := by
        rw [scanning]
        exact .listed
      exact .moved rfl next (moved_toPhase ..)
    · cases taken
  · split at taken
    · rename_i r outcome _ token contextId writes
      obtain rfl := Option.some.inj taken
      exact updated_did c writes
    · cases taken
  · split at taken
    · rename_i r _ p reply waits
      obtain ⟨p', next, moved⟩ := resumed_moves waits taken
      exact .moved rfl (waits ▸ next) moved
    · cases taken
  · split at taken
    · obtain rfl := Option.some.inj taken
      exact .signedOut rfl rfl
    · cases taken
  · obtain rfl := Option.some.inj taken
    exact .ticked rfl rfl

theorem Did.phase {c : Config} {s t : State ι} {e : Event ι} (did : Did c s t e) (r : ι) :
    t.phase r = s.phase r ∨ e.caller? = some r ∧ Next c s (s.phase r) e (t.phase r) := by
  have moves : ∀ {u : State ι} {r' : ι} {p : Phase} {learned : Option (Text × Text)}, e.caller? = some r' →
      Next c s (s.phase r') e p → u.phase = s.phase → Moved u t r' p learned →
      t.phase r = s.phase r ∨ e.caller? = some r ∧ Next c s (s.phase r) e (t.phase r) := by
    intro u r' p learned caller next same moved
    by_cases here : r = r'
    · subst here
      refine Or.inr ⟨caller, ?_⟩
      rw [moved.phase, Function.update_self]
      exact next
    · refine Or.inl ?_
      rw [moved.phase, Function.update_of_ne here, same]
  cases did with
  | moved caller next moved => exact moves caller next rfl moved
  | @inserted r' token row event inserting unused same =>
    subst event same
    have next : Next c s (s.phase r') (.insert r') (.created token) := inserting ▸ .inserted
    have phases : ({ s with sessions := s.sessions.insert token (.live (sessionOf row r')) } : State ι).phase = s.phase := rfl
    exact moves rfl next phases (moved_toPhase _ r' _ none)
  | @wrote r' outcome token contextId p event made writes next moved =>
    subst event
    refine moves rfl next ?_ moved
    unfold State.writeContext
    split <;> rfl
  | signedOut event same =>
    subst same
    exact Or.inl rfl
  | ticked event same =>
    subst same
    exact Or.inl rfl

/-- Only a call that was told of a membership remembers it. -/
theorem Did.believed {c : Config} {s t : State ι} {e : Event ι} (did : Did c s t e) {key : Text} {till : ℤ}
    (present : t.believed.lookup key = some till) : s.believed.lookup key = some till ∨
      ∃ userId contextId, remembers s e = some (userId, contextId) ∧ key = keyOf userId contextId := by
  cases did with
  | moved caller next moved => exact moved.believed key till present
  | inserted event inserting unused same =>
    subst same
    exact Or.inl present
  | wrote event made writes next moved =>
    refine (moved.believed key till present).imp_left fun before => ?_
    unfold State.writeContext at before
    split at before <;> exact before
  | signedOut event same =>
    subst same
    exact Or.inl present
  | ticked event same =>
    subst same
    exact Or.inl present

omit [DecidableEq ι] in
theorem session?_congr {s t : State ι} (same : t.sessions = s.sessions) (token : Text) :
    t.session? token = s.session? token := by
  unfold State.session?
  rw [same]

omit [DecidableEq ι] in
theorem session?_writeContext {s : State ι} {r : ι} {token token' : Text} {contextId : Option Text} {session : Session ι}
    (found : (s.writeContext r token contextId).session? token' = some session) :
    s.session? token' = some session ∨ token' = token ∧ ∃ before, s.session? token = some before ∧
      session = { before with contextId := contextId.elim .null .str, writer := r } := by
  unfold State.writeContext at found
  split at found
  · rename_i before present
    by_cases same : token' = token
    · subst same
      rw [session?_insert_same] at found
      exact Or.inr ⟨rfl, before, present, (Option.some.inj found).symm⟩
    · rw [session?_insert_other _ _ same] at found
      exact Or.inl found
  · exact Or.inl found

omit [DecidableEq ι] in
theorem writeContext_holds {s : State ι} {r : ι} {token : Text} {contextId : Option Text} {session : Session ι}
    (found : (s.writeContext r token contextId).session? token = some session) :
    session.contextId = contextId.elim .null .str := by
  unfold State.writeContext at found
  split at found
  · rw [session?_insert_same] at found
    obtain rfl := Option.some.inj found
    rfl
  · rename_i absent
    cases absent.symm.trans found

/-- A session was there before, or a call has inserted it or written its context. -/
inductive Stored (s : State ι) (e : Event ι) (token : Text) (session : Session ι) : Prop where
  | before : s.session? token = some session → Stored s e token session
  | inserted {r : ι} {row : Row} : e = .insert r → s.phase r = .inserting token row → token ∉ s.sessions →
      session = sessionOf row r → Stored s e token session
  | written {r : ι} {outcome : Outcome} {contextId : Option Text} {before : Session ι} : e = .update r outcome →
      outcome ≠ .lost → (s.phase r).write? = some (token, contextId) → s.session? token = some before →
      session = { before with contextId := contextId.elim .null .str, writer := r } → Stored s e token session

theorem Did.stored {c : Config} {s t : State ι} {e : Event ι} (did : Did c s t e) {token : Text} {session : Session ι}
    (found : t.session? token = some session) : Stored s e token session := by
  cases did with
  | moved caller next moved => exact .before ((session?_congr moved.sessions token).symm.trans found)
  | @inserted r token' row event inserting unused same =>
    subst same
    rw [toPhase_session?] at found
    by_cases here : token = token'
    · subst here
      rw [session?_insert_same] at found
      exact .inserted event inserting unused (Option.some.inj found).symm
    · rw [session?_insert_other _ _ here] at found
      exact .before found
  | wrote event made writes next moved =>
    rw [session?_congr moved.sessions] at found
    rcases session?_writeContext found with old | ⟨rfl, before, present, same⟩
    · exact .before old
    · exact .written event made writes present same
  | @signedOut token' event same =>
    subst same
    by_cases here : token = token'
    · subst here
      simp [State.session?] at found
    · rw [session?_insert_other _ _ here] at found
      exact .before found
  | ticked event same =>
    subst same
    exact .before found

theorem Did.minted {c : Config} {s t : State ι} {e : Event ι} (did : Did c s t e) {token : Text}
    (minted : token ∈ s.sessions) : token ∈ t.sessions := by
  cases did with
  | moved caller next moved =>
    rw [moved.sessions]
    exact minted
  | inserted event inserting unused same =>
    subst same
    exact (AList.mem_insert _).mpr (Or.inr minted)
  | wrote event made writes next moved =>
    rw [moved.sessions]
    unfold State.writeContext
    split
    · exact (AList.mem_insert _).mpr (Or.inr minted)
    · exact minted
  | signedOut event same =>
    subst same
    exact (AList.mem_insert _).mpr (Or.inr minted)
  | ticked event same =>
    subst same
    exact minted

end Identity.Context
