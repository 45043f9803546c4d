import AppPlatform.Identity.Context
import AppPlatform.Lib.Run

/-!
# Sessions hold approved contexts only

Whoever writes the context of a session writes none, or a UUID that `membership` approved for the
session's user in the same call.
-/

namespace Identity.Context
open Js
variable {ι : Type*}

def FromLibrary (s : State ι) : Event ι → Prop
  | .begin _ (.create _ session) => ∃ userId, session.lookup (text "userId") = some (.str userId)
  | .load r found => ∀ token, (s.phase r).load? = some token → Loads s token found
  | _ => True

/-- The context is none, or one the call `r` was told its user is a member of. -/
def Approved (s : State ι) (r : ι) (userId : Text) (contextId : Option Text) : Prop :=
  ∀ context, contextId = some context → uuidText context = true ∧ (userId, context) ∈ s.approved r

/-- The token was minted for a session of this user. -/
def Owned (s : State ι) (token userId : Text) : Prop :=
  ∃ slot, s.sessions.lookup token = some slot ∧ ∀ session, slot = .live session → session.userId = .str userId

/-- The row carries a string for its user, and an approved context. -/
def ApprovedRow (s : State ι) (r : ι) (row : Row) : Prop :=
  ∃ userId contextId, row.lookup (text "userId") = some (.str userId) ∧
    row.lookup (text "contextId") = some (contextId.elim .null .str) ∧ Approved s r userId contextId

/-- The hooks before have merged nothing but an earlier end of the session. -/
def Plain (merged : Option Row) : Prop := merged = none ∨ ∃ expiresAt, merged = some [(text "expiresAt", expiresAt)]

def SoundPurpose (s : State ι) (userId : Text) : Purpose → Prop
  | .create _ session merged => session.lookup (text "userId") = some (.str userId) ∧ Plain merged
  | .replace token owner _ _ => owner = userId ∧ Owned s token userId

def SoundReply (s : State ι) (p : Phase) : Reply → Prop
  | .found found => ∀ token answer userId, p.load? = some token → found = some answer → answer.userId = .str userId →
      Owned s token userId
  | _ => True

def Sound (s : State ι) (r : ι) : Phase → Prop
  | .hooking _ session => ∃ userId, session.lookup (text "userId") = some (.str userId)
  | .choosing purpose userId => SoundPurpose s userId purpose
  | .approving purpose userId candidate => SoundPurpose s userId purpose ∧ uuidText candidate = true
  | .inserting _ row => ApprovedRow s r row
  | .checking token userId _ _ => Owned s token userId
  | .replacing token userId _ _ replacement => Owned s token userId ∧ Approved s r userId replacement
  | .loading _ next => ∀ context, next = some context → uuidText context = true
  | .asking token userId next _ => Owned s token userId ∧ uuidText next = true
  | .setting token userId next _ => Owned s token userId ∧ Approved s r userId next
  | .replied p reply => Sound s r p ∧ SoundReply s p reply
  | _ => True

/-- The stored context is none, or one its last writer was told the user is a member of. -/
def Good (s : State ι) (session : Session ι) : Prop :=
  session.contextId = .null ∨ ∃ userId context, session.userId = .str userId ∧ session.contextId = .str context ∧
    uuidText context = true ∧ (userId, context) ∈ s.approved session.writer

structure Safe (s : State ι) : Prop where
  calls : ∀ r, Sound s r (s.phase r)
  stored : ∀ token session, s.session? token = some session → Good s session

theorem isUuid_proper {value : Value} {t : Text} (uuid : isUuid value = some t) : uuidText t = true := by
  unfold isUuid at uuid
  split at uuid
  · obtain ⟨proper, same⟩ := Option.ite_none_right_eq_some.mp uuid
    obtain rfl := Option.some.inj same
    exact proper
  · cases uuid

/-! ### What is learned is kept -/

/-- Approvals are kept, and a minted token keeps its user. -/
structure Grows (s t : State ι) : Prop where
  approved : ∀ r, ∀ pair ∈ s.approved r, pair ∈ t.approved r
  owned : ∀ token userId, Owned s token userId → Owned t token userId

theorem Grows.refl (s : State ι) : Grows s s := ⟨fun _ _ member => member, fun _ _ owned => owned⟩

theorem Approved.grows {s t : State ι} {r : ι} {userId : Text} {contextId : Option Text}
    (approved : Approved s r userId contextId) (grows : Grows s t) : Approved t r userId contextId := by
  intro context same
  obtain ⟨uuid, member⟩ := approved context same
  exact ⟨uuid, grows.approved r _ member⟩

theorem SoundPurpose.grows {s t : State ι} {userId : Text} {purpose : Purpose} (sound : SoundPurpose s userId purpose)
    (grows : Grows s t) : SoundPurpose t userId purpose := by
  cases purpose with
  | create token session merged => exact sound
  | replace token owner seen found => exact ⟨sound.1, grows.owned token userId sound.2⟩

theorem SoundReply.grows {s t : State ι} {p : Phase} {reply : Reply} (sound : SoundReply s p reply) (grows : Grows s t) :
    SoundReply t p reply := by
  cases reply with
  | found found =>
    intro token answer userId loads same user
    exact grows.owned token userId (sound token answer userId loads same user)
  | _ => trivial

theorem Sound.grows {s t : State ι} {r : ι} {p : Phase} (sound : Sound s r p) (grows : Grows s t) : Sound t r p := by
  induction p with
  | choosing purpose userId => exact SoundPurpose.grows sound grows
  | approving purpose userId candidate => exact ⟨sound.1.grows grows, sound.2⟩
  | inserting token row =>
    obtain ⟨userId, contextId, user, context, approved⟩ := sound
    exact ⟨userId, contextId, user, context, approved.grows grows⟩
  | checking token userId seen found => exact grows.owned token userId sound
  | replacing token userId seen found replacement => exact ⟨grows.owned token userId sound.1, sound.2.grows grows⟩
  | asking token userId next previous => exact ⟨grows.owned token userId sound.1, sound.2⟩
  | setting token userId next previous => exact ⟨grows.owned token userId sound.1, sound.2.grows grows⟩
  | replied p reply ih => exact ⟨ih sound.1, sound.2.grows grows⟩
  | _ => exact sound

theorem Good.grows {s t : State ι} {session : Session ι} (good : Good s session) (grows : Grows s t) : Good t session := by
  rcases good with none | ⟨userId, context, user, stored, uuid, member⟩
  · exact Or.inl none
  · exact Or.inr ⟨userId, context, user, stored, uuid, grows.approved _ _ member⟩

theorem Safe.grows {s t : State ι} (safe : Safe s) (grows : Grows s t) (sessions : t.sessions = s.sessions)
    (phases : t.phase = s.phase) : Safe t where
  calls r := by
    rw [phases]
    exact (safe.calls r).grows grows
  stored token session found := by
    unfold State.session? at found
    rw [sessions] at found
    exact (safe.stored token session found).grows grows

theorem Safe.toPhase [DecidableEq ι] {s : State ι} (safe : Safe s) {r : ι} {p : Phase} (sound : Sound s r p) :
    Safe (s.toPhase r p) where
  calls r' := by
    have kept : Grows s (s.toPhase r p) := ⟨fun _ _ member => member, fun _ _ owned => owned⟩
    by_cases same : r' = r
    · subst same
      rw [Calls.move_self]
      exact sound.grows kept
    · rw [Calls.move_other _ p same]
      exact (safe.calls r').grows kept
  stored token session found := safe.stored token session found

theorem Safe.believe {c : Config} {s : State ι} (safe : Safe s) (userId contextId : Text) :
    Safe (s.believe c userId contextId) :=
  safe.grows ⟨fun _ _ member => member, fun _ _ owned => owned⟩ rfl rfl

theorem Safe.forget {s : State ι} (safe : Safe s) (userId : Text) (contextId : Option Text) :
    Safe (s.forget userId contextId) :=
  safe.grows ⟨fun _ _ member => member, fun _ _ owned => owned⟩ rfl rfl

theorem approve_grows [DecidableEq ι] (s : State ι) (r : ι) (userId contextId : Text) : Grows s (s.approve r userId contextId) := by
  refine ⟨?_, fun _ _ owned => owned⟩
  intro r' pair member
  unfold State.approve
  by_cases same : r' = r
  · subst same
    simp [member]
  · simpa [same] using member

theorem Safe.approve [DecidableEq ι] {s : State ι} (safe : Safe s) (r : ι) (userId contextId : Text) :
    Safe (s.approve r userId contextId) :=
  safe.grows (approve_grows s r userId contextId) rfl rfl

theorem approve_approved [DecidableEq ι] (s : State ι) (r : ι) {userId contextId : Text} (uuid : uuidText contextId = true) :
    Approved (s.approve r userId contextId) r userId (some contextId) := by
  rintro context ⟨⟩
  exact ⟨uuid, by simp [State.approve]⟩

theorem approved_none (s : State ι) (r : ι) (userId : Text) : Approved s r userId none := nofun

/-! ### Writes -/

theorem owned_insert {s : State ι} {token : Text} {slot : Slot ι}
    (same : ∀ userId, Owned s token userId → ∀ session, slot = .live session → session.userId = .str userId)
    (token' userId : Text) (owned : Owned s token' userId) :
    Owned { s with sessions := s.sessions.insert token slot } token' userId := by
  by_cases here : token' = token
  · subst here
    exact ⟨slot, AList.lookup_insert _, same userId owned⟩
  · obtain ⟨slot', found, user⟩ := owned
    refine ⟨slot', ?_, user⟩
    simpa [AList.lookup_insert_ne here] using found

theorem session?_slot {s : State ι} {token : Text} {session : Session ι} (found : s.session? token = some session) :
    s.sessions.lookup token = some (.live session) := by
  unfold State.session? at found
  split at found
  · rename_i session' present
    obtain rfl := Option.some.inj found
    exact present
  · cases found

theorem Owned.user {s : State ι} {token userId : Text} {session : Session ι} (owned : Owned s token userId)
    (found : s.session? token = some session) : session.userId = .str userId := by
  obtain ⟨slot, present, user⟩ := owned
  exact user session (Option.some.inj (present.symm.trans (session?_slot found)))

theorem insert_safe {s : State ι} (safe : Safe s) {token : Text} {slot : Slot ι}
    (same : ∀ userId, Owned s token userId → ∀ session, slot = .live session → session.userId = .str userId)
    (good : ∀ session, slot = .live session → Good s session) :
    Safe { s with sessions := s.sessions.insert token slot } := by
  have grows : Grows s { s with sessions := s.sessions.insert token slot } :=
    ⟨fun _ _ member => member, owned_insert same⟩
  refine ⟨fun r => (safe.calls r).grows grows, ?_⟩
  intro token' session found
  by_cases here : token' = token
  · subst here
    have present := session?_slot found
    simp only [AList.lookup_insert] at present
    exact (good session (Option.some.inj present)).grows grows
  · rw [session?_insert_other s slot here] at found
    exact (safe.stored token' session found).grows grows

theorem writeContext_safe {s : State ι} (safe : Safe s) {r : ι} {token : Text} {contextId : Option Text}
    (allowed : contextId = none ∨ ∃ userId, Owned s token userId ∧ Approved s r userId contextId) :
    Safe (s.writeContext r token contextId) := by
  unfold State.writeContext
  split
  · rename_i session found
    apply insert_safe safe
    · rintro userId owned _ ⟨⟩
      have user := owned.user found
      exact user
    · rintro _ ⟨⟩
      rcases allowed with rfl | ⟨userId, owned, approved⟩
      · exact Or.inl rfl
      · cases contextId with
        | none => exact Or.inl rfl
        | some context =>
          obtain ⟨uuid, member⟩ := approved context rfl
          have user := owned.user found
          exact Or.inr ⟨userId, context, user, rfl, uuid, member⟩
  · exact safe

/-- A call that is about to write may write what it is about to. -/
theorem write_allowed {s : State ι} (safe : Safe s) {r : ι} {token : Text} {contextId : Option Text}
    (writes : (s.phase r).write? = some (token, contextId)) :
    contextId = none ∨ ∃ userId, Owned s token userId ∧ Approved s r userId contextId := by
  have sound := safe.calls r
  generalize s.phase r = p at writes sound
  unfold Phase.write? at writes
  split at writes
  · cases writes
    exact Or.inr ⟨_, sound⟩
  · cases writes
    exact Or.inr ⟨_, sound⟩
  · cases writes
    exact Or.inl rfl
  · cases writes

theorem spread_capped (session : Row) (expiresAt value : Value) :
    spread session (spread [(text "expiresAt", expiresAt)] [(text "contextId", value)]) =
      setField (setField session (text "expiresAt") expiresAt) (text "contextId") value := by
  have order : spread [(text "expiresAt", expiresAt)] [(text "contextId", value)] =
      [(text "expiresAt", expiresAt), (text "contextId", value)] := by
    have differs : text "expiresAt" ≠ text "contextId" := by decide
    have after : precedes (text "contextId") (text "expiresAt") = false := by decide
    simp [spread, setField, differs, after]
  rw [order]
  rfl

theorem created_row {s : State ι} {r : ι} {session : Row} {merged : Option Row} {userId : Text} {contextId : Option Text}
    (user : session.lookup (text "userId") = some (.str userId)) (plain : Plain merged)
    (approved : Approved s r userId contextId) : ApprovedRow s r
      (spread session (spread (merged.getD []) [(text "contextId", contextId.elim .null .str)])) := by
  have other : text "userId" ≠ text "contextId" := by decide
  have other' : text "userId" ≠ text "expiresAt" := by decide
  refine ⟨userId, contextId, ?_, ?_, approved⟩
  · rcases plain with rfl | ⟨expiresAt, rfl⟩
    · exact (lookup_setField_other session _ other).trans user
    · rw [Option.getD_some, spread_capped, lookup_setField_other _ _ other, lookup_setField_other _ _ other']
      exact user
  · rcases plain with rfl | ⟨expiresAt, rfl⟩
    · exact lookup_setField_same session _ _
    · rw [Option.getD_some, spread_capped]
      exact lookup_setField_same _ _ _

theorem staff_chain {session current : Row} {merged : Option Row} {staff : Staff} {userId : Text}
    (user : session.lookup (text "userId") = some (.str userId))
    (passed : staff.result.bind (chainHook session none) = some (current, merged)) :
    current.lookup (text "userId") = some (.str userId) ∧ Plain merged := by
  cases staff with
  | refused => cases passed
  | threw => cases passed
  | passed =>
    cases passed
    exact ⟨user, Or.inl rfl⟩
  | capped expiresAt =>
    have other : text "userId" ≠ text "expiresAt" := by decide
    cases passed
    refine ⟨(lookup_setField_other session expiresAt other).trans user, Or.inr ⟨expiresAt, rfl⟩⟩

/-! ### The calls -/

section
variable [DecidableEq ι] {s : State ι} (safe : Safe s)
include safe

theorem fellBack_safe {r : ι} {purpose : Purpose} {userId : Text} {contextId : Option Text}
    (sound : SoundPurpose s userId purpose) (approved : Approved s r userId contextId) :
    Safe (fellBack s r contextId purpose) := by
  cases purpose with
  | create token session merged => exact safe.toPhase (created_row sound.1 sound.2 approved)
  | replace token owner seen found =>
    obtain ⟨rfl, owned⟩ := sound
    exact safe.toPhase ⟨owned, approved⟩

theorem fallback_safe (c : Config) {r : ι} {purpose : Purpose} {userId : Text} (sound : SoundPurpose s userId purpose) :
    Safe (fallback c s r purpose userId) := by
  unfold fallback
  split
  · exact safe.toPhase sound
  · exact fellBack_safe safe sound (approved_none s r userId)

theorem hooked_safe (c : Config) {r : ι} {token : Text} {session : Row} {staff : Staff} {userId : Text}
    (user : session.lookup (text "userId") = some (.str userId)) : Safe (hooked c s r token session staff) := by
  unfold hooked
  split
  · rename_i current merged passed
    obtain ⟨kept, plain⟩ := staff_chain user passed
    unfold createBefore
    rw [kept]
    exact fallback_safe safe c ⟨user, plain⟩
  · exact safe.toPhase trivial

theorem answeredInitial_safe {r : ι} {purpose : Purpose} {userId : Text} (answer : Answer Value)
    (sound : SoundPurpose s userId purpose) : Safe (answeredInitial s r purpose userId answer) := by
  unfold answeredInitial
  split
  · rename_i candidate
    split
    · rename_i context uuid
      exact safe.toPhase ⟨sound, isUuid_proper uuid⟩
    · exact fellBack_safe safe sound (approved_none s r userId)
  · exact fellBack_safe safe sound (approved_none s r userId)

theorem answeredMembership_safe {c : Config} {r : ι} {answer : Answer Bool} {p : Phase} {t : State ι} (sound : Sound s r p)
    (taken : answeredMembership c s r answer p = some t) : Safe t := by
  cases p with
  | approving purpose userId candidate =>
    obtain ⟨purposeSound, uuid⟩ := sound
    have refused : Safe (fellBack s r none purpose) := fellBack_safe safe purposeSound (approved_none s r userId)
    rcases answer with (_ | _) | _
    · obtain rfl := Option.some.inj taken
      exact refused
    · obtain rfl := Option.some.inj taken
      have grows : Grows s ((s.approve r userId candidate).believe c userId candidate) :=
        ⟨(approve_grows s r userId candidate).approved, (approve_grows s r userId candidate).owned⟩
      exact fellBack_safe ((safe.approve r userId candidate).believe userId candidate) (purposeSound.grows grows)
        (approve_approved s r uuid)
    · obtain rfl := Option.some.inj taken
      exact refused
  | checking token userId seen found =>
    rcases answer with (_ | _) | _
    · obtain rfl := Option.some.inj taken
      exact fallback_safe (safe.forget userId (some seen)) c ⟨rfl, sound⟩
    · obtain rfl := Option.some.inj taken
      exact ((safe.approve r userId seen).believe userId seen).toPhase trivial
    · obtain rfl := Option.some.inj taken
      exact safe.toPhase trivial
  | asking token userId next previous =>
    obtain ⟨owned, uuid⟩ := sound
    rcases answer with (_ | _) | _
    · obtain rfl := Option.some.inj taken
      exact safe.toPhase trivial
    · obtain rfl := Option.some.inj taken
      exact (safe.approve r userId next).toPhase
        ⟨(approve_grows s r userId next).owned token userId owned, approve_approved s r uuid⟩
    · obtain rfl := Option.some.inj taken
      exact safe.toPhase trivial
  | _ => cases taken

theorem afterUpdate_safe (c : Config) (r : ι) (answered updated : Bool) (p : Phase) (sound : Sound s r p) :
    Safe (afterUpdate c s r answered updated p) := by
  unfold afterUpdate
  split
  · exact safe.toPhase trivial
  · split
    · split
      · exact (safe.forget _ _).toPhase trivial
      · split
        · exact (safe.believe _ _).toPhase trivial
        · exact safe.toPhase trivial
    · exact safe.toPhase trivial
  · split
    · dsimp only
      split <;> split
      all_goals first | exact (safe.forget _ _).toPhase trivial | exact safe.toPhase trivial
    · exact safe.toPhase trivial
  · exact safe.toPhase sound

theorem scanned_safe (r : ι) (contextId : Text) (userId : Option Text) (seen : List Text) (count : ℕ)
    (rows : List (Text × Value)) : Safe (scanned s r contextId userId seen count rows) := by
  unfold scanned
  dsimp only
  split
  · cases userId with
    | none => exact safe.toPhase trivial
    | some userId => exact (safe.forget userId _).toPhase trivial
  · exact safe.toPhase trivial

theorem updated_safe {r : ι} {token : Text} {contextId : Option Text} (outcome : Outcome)
    (writes : (s.phase r).write? = some (token, contextId)) : Safe (updated s r token contextId outcome) := by
  have written : Safe (s.writeContext r token contextId) := writeContext_safe safe (write_allowed safe writes)
  have phases : (s.writeContext r token contextId).phase r = s.phase r := by
    unfold State.writeContext
    split <;> rfl
  unfold updated
  dsimp only
  split
  · exact safe.toPhase ⟨safe.calls r, trivial⟩
  · refine written.toPhase ⟨?_, trivial⟩
    have sound := written.calls r
    rw [phases] at sound
    exact sound

theorem foundSession_safe {r : ι} {token : Text} {found : Option Found}
    (owned : ∀ answer userId, found = some answer → answer.userId = .str userId → Owned s token userId) :
    Safe (foundSession s r token found) := by
  unfold foundSession
  split
  · exact safe.toPhase trivial
  · rename_i answer
    split
    · rename_i contextId userId _ user
      split
      · exact safe.toPhase trivial
      · exact safe.toPhase (owned answer userId rfl user)
    · exact safe.toPhase trivial

theorem loadedSession_safe {r : ι} {token : Text} {next : Option Text} {found : Option Found}
    (uuid : ∀ context, next = some context → uuidText context = true)
    (owned : ∀ answer userId, found = some answer → answer.userId = .str userId → Owned s token userId) :
    Safe (loadedSession s r token next found) := by
  unfold loadedSession
  split
  · rename_i answer
    split
    · rename_i userId context user
      exact safe.toPhase ⟨owned answer userId rfl user, uuid context rfl⟩
    · rename_i userId user
      exact safe.toPhase ⟨owned answer userId rfl user, approved_none s r userId⟩
    · exact safe.toPhase trivial
  · exact safe.toPhase trivial

theorem resumed_safe {c : Config} {r : ι} {p : Phase} {reply : Reply} {t : State ι} (sound : Sound s r p)
    (replied : SoundReply s p reply) (taken : resumed c s r p reply = some t) : Safe t := by
  unfold resumed at taken
  split at taken
  · obtain rfl := Option.some.inj taken
    exact foundSession_safe safe fun answer userId => replied _ answer userId rfl
  · obtain rfl := Option.some.inj taken
    exact loadedSession_safe safe sound fun answer userId => replied _ answer userId rfl
  · obtain rfl := Option.some.inj taken
    exact scanned_safe safe r _ _ _ _ _
  · obtain rfl := Option.some.inj taken
    exact afterUpdate_safe safe c r _ _ _ sound
  · cases taken

end

theorem Loads.reply {s : State ι} {p : Phase} {found : Option Found}
    (loads : ∀ token, p.load? = some token → Loads s token found) : SoundReply s p (.found found) := by
  rintro token answer userId waits same user
  obtain ⟨session, present, owner⟩ := loads token waits answer same
  refine ⟨_, session?_slot present, ?_⟩
  rintro _ ⟨⟩
  exact owner.symm.trans user

theorem begun_sound {s : State ι} {r : ι} {call : Call} (library : FromLibrary s (.begin r call)) : Sound s r (begun call) := by
  cases call with
  | create token session => exact library
  | findSession token => trivial
  | setContext token body =>
    simp only [begun]
    split
    · exact nofun
    · rename_i context uuid
      rintro _ ⟨⟩
      exact isUuid_proper uuid
    · trivial
  | clearContext contextId userId =>
    simp only [begun]
    split <;> trivial

theorem step_safe [DecidableEq ι] {c : Config} {s t : State ι} {e : Event ι} (safe : Safe s) (library : FromLibrary s e)
    (taken : step c s e = some t) : Safe t := by
  cases e with
  | begin r call =>
    simp only [step] at taken
    split at taken
    · obtain rfl := Option.some.inj taken
      exact safe.toPhase (begun_sound library)
    · cases taken
  | staffHook r staff =>
    simp only [step] at taken
    split at taken
    · rename_i token session hooking
      obtain rfl := Option.some.inj taken
      have sound := safe.calls r
      rw [hooking] at sound
      obtain ⟨userId, user⟩ := sound
      exact hooked_safe safe c user
    · cases taken
  | initial r answer =>
    simp only [step] at taken
    split at taken
    · rename_i purpose userId choosing
      obtain rfl := Option.some.inj taken
      have sound := safe.calls r
      rw [choosing] at sound
      exact answeredInitial_safe safe answer sound
    · cases taken
  | membership r answer => exact answeredMembership_safe safe (safe.calls r) taken
  | insert r =>
    simp only [step] at taken
    split at taken
    · rename_i token row inserting
      split at taken
      · obtain rfl := Option.some.inj taken
        exact safe.toPhase trivial
      · rename_i unused
        obtain rfl := Option.some.inj taken
        have sound := safe.calls r
        rw [inserting] at sound
        obtain ⟨userId, contextId, user, context, approved⟩ := sound
        refine Safe.toPhase (insert_safe safe ?_ ?_) trivial
        · rintro _ ⟨slot, present, _⟩
          have absent := AList.lookup_eq_none.mpr unused
          cases absent.symm.trans present
        · rintro _ ⟨⟩
          simp only [Good, sessionOf, user, context, Option.getD_some]
          cases contextId with
          | none => exact Or.inl rfl
          | some contextId =>
            obtain ⟨uuid, member⟩ := approved contextId rfl
            exact Or.inr ⟨userId, contextId, rfl, rfl, uuid, member⟩
    · cases taken
  | load r found =>
    simp only [step] at taken
    split at taken
    · obtain rfl := Option.some.inj taken
      exact safe.toPhase ⟨safe.calls r, Loads.reply library⟩
    · cases taken
  | list r rows =>
    simp only [step] at taken
    split at taken
    · obtain rfl := Option.some.inj taken
      exact safe.toPhase ⟨safe.calls r, trivial⟩
    · cases taken
  | update r outcome =>
    simp only [step] at taken
    split at taken
    · rename_i token contextId writes
      obtain rfl := Option.some.inj taken
      exact updated_safe safe outcome writes
    · cases taken
  | resume r =>
    simp only [step] at taken
    split at taken
    · rename_i p reply waits
      have sound := safe.calls r
      rw [waits] at sound
      exact resumed_safe safe sound.1 sound.2 taken
    · cases taken
  | signOut token =>
    simp only [step] at taken
    split at taken
    · obtain rfl := Option.some.inj taken
      exact insert_safe safe (fun _ _ _ => nofun) (fun _ => nofun)
    · cases taken
  | tick now =>
    obtain rfl := Option.some.inj taken
    exact safe.grows ⟨fun _ _ member => member, fun _ _ owned => owned⟩ rfl rfl

/-- No session, and no call has begun. -/
structure Empty (s : State ι) : Prop where
  sessions : s.sessions = ∅
  idle : ∀ r, s.phase r = .idle

theorem empty_safe {s : State ι} (empty : Empty s) : Safe s where
  calls r := by
    rw [empty.idle r]
    trivial
  stored token session found := by
    have present := session?_slot found
    rw [empty.sessions] at present
    cases present

/-- At every moment the context of a session is none, or a UUID for which `membership` answered "true" for the
session's user in the call that wrote it. -/
theorem only_approved_contexts [DecidableEq ι] {c : Config} {s₀ s : State ι} {es : List (Event ι)} (empty : Empty s₀)
    (run : Runs.Run (step c) FromLibrary s₀ es s) {token : Text} {session : Session ι}
    (found : s.session? token = some session) : session.contextId = .null ∨
      ∃ userId context, session.userId = .str userId ∧ session.contextId = .str context ∧ uuidText context = true ∧
        (userId, context) ∈ s.approved session.writer :=
  (run.invariant step_safe (empty_safe empty)).stored token session found

def noSessions : State ℕ where
  sessions := ∅
  believed := ∅
  now := 0
  phase _ := .idle
  approved _ := []

def workspaceA : Text := text "0194a000-0000-7000-8000-00000000000a"

/-- A session starts in the context `initial` names, whatever context its row came with. -/
theorem only_approved_first : ∃ s : State ℕ, ∃ session, s.session? (text "t") = some session ∧
    session.contextId = .str workspaceA ∧ (session.contextId = .null ∨
      ∃ userId context, session.userId = .str userId ∧ session.contextId = .str context ∧ uuidText context = true ∧
        (userId, context) ∈ s.approved session.writer) := by
  have run : ∃ s : State ℕ, ∃ session, Runs.Run (step ⟨true, 60000⟩) FromLibrary noSessions
      [.begin 0 (.create (text "t") [(text "userId", .str (text "u")), (text "contextId", .str (text "x"))]),
        .staffHook 0 .passed, .initial 0 (.value (.str workspaceA)), .membership 0 (.value true), .insert 0] s ∧
      s.session? (text "t") = some session ∧ session.contextId = .str workspaceA :=
    ⟨_, _, .cons ⟨text "u", rfl⟩ rfl (.cons trivial rfl (.cons trivial rfl (.cons trivial rfl (.cons trivial rfl (.nil _))))),
      rfl, rfl⟩
  obtain ⟨s, session, run, found, context⟩ := run
  exact ⟨s, session, found, context, only_approved_contexts ⟨rfl, fun _ => rfl⟩ run found⟩

end Identity.Context
