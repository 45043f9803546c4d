import AppPlatform.Identity.Accounts
import AppPlatform.Lib.Run
import Mathlib.Data.Fintype.Basic
import Mathlib.Data.List.Nodup
import Mathlib.Logic.Function.Basic

/-!
# The removal of unverified accounts among other requests

`purgeWith` and `replaceUnverifiedAccount` statement by statement: the read of the unverified users, for
each of them the read of its accounts and of its sessions, and the three statements of `deleteUser`.
Between any two of them a user verifies an address, links an account or signs in.
-/

namespace Identity.Accounts.Race
open Js Runs
variable {ι ω : Type*}

/-- Where a worker stands. The head of the list is the candidate it is at. -/
inductive Phase (ι : Type*) where
  | idle
  /-- The users were read as unverified. -/
  | candidates (ids : List ι)
  /-- The accounts of the first were read: nothing but credential accounts. -/
  | checked (id : ι) (rest : List ι)
  /-- Its sessions were read: there was none. -/
  | deleting (id : ι) (rest : List ι)
  | sessionsDeleted (id : ι) (rest : List ι) (used : Bool)
  | accountsDeleted (id : ι) (rest : List ι) (used : Bool)

structure State (ι ω : Type*) where
  db : Db ι
  phase : ω → Phase ι
  /-- The users deleted, and whether they were in use at one of the three statements of `deleteUser`. -/
  deleted : List (ι × Bool)

inductive Event (ι ω : Type*) where
  /-- `purgeWith` reads its candidates. -/
  | purge (w : ω) (candidates : List (User ι)) (cutoff : ℤ)
  /-- `replaceUnverifiedAccount` finds a user by address. -/
  | replace (w : ω) (email : Text)
  | readAccounts (w : ω)
  | readSessions (w : ω)
  | deleteSessions (w : ω)
  | deleteAccounts (w : ω)
  | deleteRow (w : ω)
  /-- The loop is through. -/
  | finish (w : ω)
  | verify (id : ι)
  | link (id : ι) (providerId : Text)
  | signIn (id : ι)

section
variable [DecidableEq ι] [DecidableEq ω]

def verified (db : Db ι) (id : ι) : Bool := db.users.any fun u => u.id = id && u.emailVerified

def hasSession (db : Db ι) (id : ι) : Bool := db.sessions.any (· = id)

def linked (db : Db ι) (id : ι) : Bool := db.accounts.any fun a => a.userId = id && a.providerId ≠ CREDENTIAL

def inUse (db : Db ι) (id : ι) : Bool := verified db id || hasSession db id || linked db id

def present (db : Db ι) (id : ι) : Bool := db.users.any (·.id = id)

def verify (db : Db ι) (id : ι) : Db ι :=
  { db with users := db.users.map fun u => if u.id = id then { u with emailVerified := true } else u }

def link (db : Db ι) (id : ι) (providerId : Text) : Db ι := { db with accounts := ⟨id, providerId⟩ :: db.accounts }

def signIn (db : Db ι) (id : ι) : Db ι := { db with sessions := id :: db.sessions }

def State.moveTo (s : State ι ω) (w : ω) (p : Phase ι) : State ι ω := { s with phase := Function.update s.phase w p }

def step (s : State ι ω) : Event ι ω → Option (State ι ω)
  | .purge w candidates cutoff =>
    match s.phase w with
    | .idle => if candidates.all (· ∈ old s.db cutoff) && candidates.length ≤ 500 then
        some (s.moveTo w (.candidates (candidates.map (·.id)))) else none
    | _ => none
  | .replace w email =>
    match s.phase w, s.db.users.find? (·.email = email) with
    | .idle, some user => some (if user.emailVerified then s else s.moveTo w (.candidates [user.id]))
    | .idle, none => some s
    | _, _ => none
  | .readAccounts w =>
    match s.phase w with
    | .candidates (id :: rest) =>
      some (s.moveTo w (if (accountsOf s.db id).any (·.providerId ≠ CREDENTIAL) then .candidates rest else .checked id rest))
    | _ => none
  | .readSessions w =>
    match s.phase w with
    | .checked id rest => some (s.moveTo w (if hasSession s.db id then .candidates rest else .deleting id rest))
    | _ => none
  | .deleteSessions w =>
    match s.phase w with
    | .deleting id rest =>
      some { s.moveTo w (.sessionsDeleted id rest (inUse s.db id)) with db := Accounts.deleteSessions s.db id }
    | _ => none
  | .deleteAccounts w =>
    match s.phase w with
    | .sessionsDeleted id rest used =>
      some { s.moveTo w (.accountsDeleted id rest (used || inUse s.db id)) with db := Accounts.deleteAccounts s.db id }
    | _ => none
  | .deleteRow w =>
    match s.phase w with
    | .accountsDeleted id rest used =>
      some { s.moveTo w (.candidates rest) with
        db := Accounts.deleteRow s.db id
        deleted := if present s.db id then (id, used || inUse s.db id) :: s.deleted else s.deleted }
    | _ => none
  | .finish w =>
    match s.phase w with
    | .candidates [] => some (s.moveTo w .idle)
    | _ => none
  | .verify id => if present s.db id then some { s with db := verify s.db id } else none
  | .link id providerId => if present s.db id then some { s with db := link s.db id providerId } else none
  | .signIn id => if present s.db id then some { s with db := signIn s.db id } else none

end

/-- No worker is at work. -/
def start (db : Db ι) : State ι ω := ⟨db, fun _ => .idle, []⟩

section
variable [DecidableEq ι]

/-- The worker deletes the user if nobody else comes in between: what it has yet to read does not stop it. -/
def Phase.deletes (db : Db ι) (id : ι) : Phase ι → Bool
  | .idle => false
  | .candidates ids => ids.contains id && !linked db id && !hasSession db id
  | .checked id' rest => !hasSession db id && (id' = id || (rest.contains id && !linked db id))
  | .deleting id' rest | .sessionsDeleted id' rest _ | .accountsDeleted id' rest _ =>
    id' = id || (rest.contains id && !linked db id && !hasSession db id)

def Undisturbed (s : State ι ω) : Event ι ω → Prop
  | .verify id => ∀ w, (s.phase w).deletes (verify s.db id) id = false
  | .link id providerId => providerId = CREDENTIAL ∨ ∀ w, (s.phase w).deletes (link s.db id providerId) id = false
  | .signIn id => ∀ w, (s.phase w).deletes (signIn s.db id) id = false
  | _ => True

end

section
variable [DecidableEq ι]

def Phase.used : Phase ι → Bool
  | .sessionsDeleted _ _ used | .accountsDeleted _ _ used => used
  | .idle | .candidates _ | .checked _ _ | .deleting _ _ => false

/-- The worker is after users that are not in use. -/
structure Current (db : Db ι) (p : Phase ι) : Prop where
  unused : ∀ id, p.deletes db id = true → inUse db id = false
  began : p.used = false

/-- The user stands as it stood. -/
structure Alike (db db' : Db ι) (id : ι) : Prop where
  verified : verified db' id = verified db id
  hasSession : hasSession db' id = hasSession db id
  linked : linked db' id = linked db id

theorem Alike.inUse {db db' : Db ι} {id : ι} (alike : Alike db db' id) : inUse db' id = inUse db id := by
  simp only [Race.inUse, alike.verified, alike.hasSession, alike.linked]

theorem Alike.deletes {db db' : Db ι} {id : ι} (alike : Alike db db' id) (p : Phase ι) : p.deletes db' id = p.deletes db id := by
  cases p <;> simp only [Phase.deletes, alike.hasSession, alike.linked]

/-- What happens to one user matters to the workers that are after it. -/
theorem Current.change {db db' : Db ι} {p : Phase ι} (current : Current db p)
    (alike : ∀ id, p.deletes db' id = true → Alike db db' id) : Current db' p where
  unused id after := by
    have before : p.deletes db id = true := by rw [← (alike id after).deletes, after]
    rw [(alike id after).inUse]
    exact current.unused id before
  began := current.began

/-- A worker goes on to a phase in which it is after nobody else. -/
theorem Current.next {db : Db ι} {p q : Phase ι} (current : Current db p)
    (fewer : ∀ id, q.deletes db id = true → p.deletes db id = true)
    (began : q.used = false) : Current db q where
  unused id after := current.unused id (fewer id after)
  began := began

theorem inUse_eq_false {db : Db ι} {id : ι} :
    inUse db id = false ↔ verified db id = false ∧ hasSession db id = false ∧ linked db id = false := by
  rw [inUse, Bool.or_eq_false_iff, Bool.or_eq_false_iff, and_assoc]

theorem linked_accountsOf {db : Db ι} {id : ι} : linked db id = (accountsOf db id).any (·.providerId ≠ CREDENTIAL) := by
  rw [linked, accountsOf, List.any_filter]

/-- Dropping what belongs to one user leaves what is said of another. -/
theorem any_filter_other {α : Type*} {l : List α} (owner : α → ι) {p : α → Bool} {id x : ι} (other : x ≠ id) :
    ((l.filter fun a => owner a ≠ id).any fun a => owner a = x && p a) = l.any fun a => owner a = x && p a := by
  rw [List.any_filter]
  congr 1
  funext a
  by_cases own : owner a = x
  · simp [own, other]
  · simp [own]

/-- Nothing is left that is said of the user itself. -/
theorem any_filter_own {α : Type*} {l : List α} (owner : α → ι) {p : α → Bool} (id : ι) :
    ((l.filter fun a => owner a ≠ id).any fun a => owner a = id && p a) = false := by
  rw [List.any_filter, List.any_eq_false]
  intro a _
  by_cases own : owner a = id
  · simp [own]
  · simp [own]

theorem hasSession_and_true {db : Db ι} {id : ι} : hasSession db id = db.sessions.any fun y => y = id && true := by
  simp only [hasSession, Bool.and_true]

section
variable {db : Db ι} {id x : ι}

theorem deleteSessions_other (other : x ≠ id) : Alike db (Accounts.deleteSessions db id) x := by
  refine ⟨rfl, ?_, rfl⟩
  rw [hasSession_and_true, hasSession_and_true]
  exact any_filter_other (fun y => y) other

theorem deleteAccounts_other (other : x ≠ id) : Alike db (Accounts.deleteAccounts db id) x := ⟨rfl, rfl, any_filter_other _ other⟩

theorem deleteRow_other (other : x ≠ id) : Alike db (Accounts.deleteRow db id) x := ⟨any_filter_other _ other, rfl, rfl⟩

variable (unused : inUse db id = false) (x)
include unused

theorem deleteSessions_alike : Alike db (Accounts.deleteSessions db id) x := by
  by_cases own : x = id
  · subst own
    refine ⟨rfl, ?_, rfl⟩
    rw [(inUse_eq_false.mp unused).2.1, hasSession_and_true]
    exact any_filter_own (fun y => y) x
  · exact deleteSessions_other own

theorem deleteAccounts_alike : Alike db (Accounts.deleteAccounts db id) x := by
  by_cases own : x = id
  · subst own
    refine ⟨rfl, rfl, ?_⟩
    rw [(inUse_eq_false.mp unused).2.2]
    exact any_filter_own _ x
  · exact deleteAccounts_other own

theorem deleteRow_alike : Alike db (Accounts.deleteRow db id) x := by
  by_cases own : x = id
  · subst own
    refine ⟨?_, rfl, rfl⟩
    rw [(inUse_eq_false.mp unused).1]
    exact any_filter_own _ x
  · exact deleteRow_other own

end

theorem verify_alike {db : Db ι} {id x : ι} (other : x ≠ id) : Alike db (verify db id) x := by
  refine ⟨?_, rfl, rfl⟩
  rw [verified, verify, List.any_map, verified]
  congr 1
  funext u
  by_cases here : u.id = id
  · simp [here, Ne.symm other]
  · simp [here]

theorem link_alike {db : Db ι} {id x : ι} {providerId : Text} (harmless : x ≠ id ∨ providerId = CREDENTIAL) :
    Alike db (link db id providerId) x := by
  refine ⟨rfl, rfl, ?_⟩
  rw [linked, link, List.any_cons]
  rcases harmless with other | credential
  · simp [Ne.symm other, linked]
  · simp [credential, linked]

theorem signIn_alike {db : Db ι} {id x : ι} (other : x ≠ id) : Alike db (signIn db id) x := by
  refine ⟨rfl, ?_, rfl⟩
  rw [hasSession, signIn, List.any_cons, decide_eq_false (Ne.symm other), Bool.false_or, hasSession]

theorem verify_present {db : Db ι} {id : ι} (stays : present db id = true) : present (verify db id) id = true := by
  rw [present, List.any_eq_true] at stays ⊢
  obtain ⟨u, found, own⟩ := stays
  have own : u.id = id := of_decide_eq_true own
  exact ⟨_, List.mem_map_of_mem found, by rw [if_pos own]; exact decide_eq_true own⟩

theorem verify_verified {db : Db ι} {id : ι} (stays : present db id = true) : verified (verify db id) id = true := by
  rw [present, List.any_eq_true] at stays
  obtain ⟨u, found, own⟩ := stays
  have own : u.id = id := of_decide_eq_true own
  rw [verified, List.any_eq_true]
  exact ⟨_, List.mem_map_of_mem found, by rw [if_pos own]; simp [own]⟩

/-- A user that steps in before any worker is after it. -/
theorem Current.other {db db' : Db ι} {p : Phase ι} {id : ι} (current : Current db p) (alike : ∀ x, x ≠ id → Alike db db' x)
    (spared : p.deletes db' id = false) : Current db' p := by
  apply current.change
  intro x after
  apply alike
  rintro rfl
  rw [spared] at after
  cases after

variable [DecidableEq ω]

/-- Ids are the keys of the users. -/
structure Sound (s : State ι ω) : Prop where
  unique : (s.db.users.map (·.id)).Nodup
  current : ∀ w, Current s.db (s.phase w)
  deleted : ∀ e ∈ s.deleted, e.2 = false

omit [DecidableEq ω] in
theorem Sound.at {s : State ι ω} (sound : Sound s) {w : ω} {p : Phase ι} (here : s.phase w = p) : Current s.db p := by
  rw [← here]
  exact sound.current w

theorem current_idle {db : Db ι} : Current db .idle := ⟨fun _ deletes => (by cases deletes), rfl⟩

omit [DecidableEq ω] in
theorem start_sound {db : Db ι} (unique : (db.users.map (·.id)).Nodup) : Sound (start db : State ι ω) where
  unique := unique
  current _ := current_idle
  deleted _ member := by cases member

theorem Sound.move {s : State ι ω} (sound : Sound s) (w : ω) {p : Phase ι} {db : Db ι} {deleted : List (ι × Bool)}
    (alike : ∀ x, Alike s.db db x) (unique : (db.users.map (·.id)).Nodup) (current : Current s.db p)
    (unused : ∀ e ∈ deleted, e.2 = false) : Sound { s.moveTo w p with db, deleted } := by
  refine ⟨unique, fun v => ?_, unused⟩
  by_cases here : v = w
  · subst here
    show Current db (Function.update s.phase v p v)
    rw [Function.update_self]
    exact current.change fun x _ => alike x
  · show Current db (Function.update s.phase w p v)
    rw [Function.update_of_ne here]
    exact (sound.current v).change fun x _ => alike x

theorem Sound.moveTo {s : State ι ω} (sound : Sound s) (w : ω) {p : Phase ι} (current : Current s.db p) : Sound (s.moveTo w p) :=
  sound.move w (fun _ => ⟨rfl, rfl, rfl⟩) sound.unique current sound.deleted

omit [DecidableEq ω] [DecidableEq ι] in
theorem same_user {db : Db ι} (unique : (db.users.map (·.id)).Nodup) {u v : User ι} (found : u ∈ db.users)
    (present : v ∈ db.users) (same : v.id = u.id) : v = u :=
  List.inj_on_of_nodup_map unique present found same

theorem verified_eq_false {db : Db ι} (unique : (db.users.map (·.id)).Nodup) {u : User ι} (found : u ∈ db.users)
    (unverified : u.emailVerified = false) : verified db u.id = false := by
  rw [verified, List.any_eq_false]
  intro v member
  rw [Bool.and_eq_true, decide_eq_true_eq]
  rintro ⟨same, isVerified⟩
  rw [same_user unique found member same, unverified] at isVerified
  cases isVerified

theorem current_candidates {db : Db ι} {ids : List ι} (unverified : ∀ id ∈ ids, verified db id = false) :
    Current db (.candidates ids) := by
  refine ⟨fun id deletes => ?_, rfl⟩
  simp only [Phase.deletes, Bool.and_eq_true, Bool.not_eq_true', List.contains_iff_mem] at deletes
  obtain ⟨⟨member, unlinked⟩, sessionless⟩ := deletes
  exact inUse_eq_false.mpr ⟨unverified id member, sessionless, unlinked⟩

/-! ### What a worker learns -/

theorem Current.linked {db : Db ι} {id : ι} {rest : List ι} (current : Current db (.candidates (id :: rest))) :
    Current db (.candidates rest) := by
  refine current.next (fun x after => ?_) rfl
  simp only [Phase.deletes, List.contains_cons, Bool.and_eq_true, Bool.or_eq_true] at after ⊢
  exact ⟨⟨.inr after.1.1, after.1.2⟩, after.2⟩

theorem Current.unlinked {db : Db ι} {id : ι} {rest : List ι} (current : Current db (.candidates (id :: rest)))
    (unlinked : Race.linked db id = false) : Current db (.checked id rest) := by
  refine current.next (fun x after => ?_) rfl
  simp only [Phase.deletes, List.contains_cons, Bool.and_eq_true, Bool.or_eq_true, Bool.not_eq_true', decide_eq_true_eq,
    beq_iff_eq] at after ⊢
  obtain ⟨sessionless, rfl | ⟨member, free⟩⟩ := after
  · exact ⟨⟨.inl rfl, unlinked⟩, sessionless⟩
  · exact ⟨⟨.inr member, free⟩, sessionless⟩

theorem Current.hasSession {db : Db ι} {id : ι} {rest : List ι} (current : Current db (.checked id rest)) :
    Current db (.candidates rest) := by
  refine current.next (fun x after => ?_) rfl
  simp only [Phase.deletes, Bool.and_eq_true, Bool.or_eq_true] at after ⊢
  exact ⟨after.2, .inr after.1⟩

theorem Current.sessionless {db : Db ι} {id : ι} {rest : List ι} (current : Current db (.checked id rest))
    (sessionless : Race.hasSession db id = false) : Current db (.deleting id rest) := by
  refine current.next (fun x after => ?_) rfl
  simp only [Phase.deletes, Bool.and_eq_true, Bool.or_eq_true, Bool.not_eq_true', decide_eq_true_eq] at after ⊢
  rcases after with rfl | ⟨⟨member, free⟩, none⟩
  · exact ⟨sessionless, .inl rfl⟩
  · exact ⟨none, .inr ⟨member, free⟩⟩

theorem Current.deleted {db : Db ι} {id : ι} {rest : List ι} {used : Bool} (current : Current db (.accountsDeleted id rest used)) :
    Current db (.candidates rest) := by
  refine current.next (fun x after => ?_) rfl
  simp only [Phase.deletes, Bool.or_eq_true] at after ⊢
  exact .inr after

/-- Every statement of `deleteUser` finds a user that is not in use. -/
theorem Current.first {db : Db ι} {p : Phase ι} {id : ι} (current : Current db p) (first : p.deletes db id = true) :
    (p.used || inUse db id) = false := by
  rw [current.began, current.unused id first]
  rfl

theorem step_sound {s s' : State ι ω} {e : Event ι ω} (sound : Sound s) (undisturbed : Undisturbed s e)
    (taken : step s e = some s') : Sound s' := by
  cases e with
  | purge w candidates cutoff =>
    simp only [step] at taken
    split at taken
    · simp only [Option.ite_none_right_eq_some, Bool.and_eq_true, List.all_eq_true, decide_eq_true_eq, Option.some.injEq] at taken
      obtain ⟨⟨listed, _⟩, rfl⟩ := taken
      apply sound.moveTo w
      apply current_candidates
      intro id member
      obtain ⟨u, found, rfl⟩ := List.mem_map.mp member
      obtain ⟨present, unverified⟩ := List.mem_filter.mp (listed u found)
      simp only [Bool.and_eq_true, Bool.not_eq_true'] at unverified
      exact verified_eq_false sound.unique present unverified.1
    · cases taken
  | replace w email =>
    simp only [step] at taken
    split at taken
    · rename_i user _ found
      obtain rfl := Option.some.inj taken
      split
      · exact sound
      · rename_i unverified
        apply sound.moveTo w
        apply current_candidates
        intro id member
        rw [List.mem_singleton.mp member]
        exact verified_eq_false sound.unique (List.mem_of_find?_eq_some found) (Bool.eq_false_iff.mpr unverified)
    · cases taken
      exact sound
    · cases taken
  | readAccounts w =>
    simp only [step] at taken
    split at taken
    · rename_i id rest here
      obtain rfl := Option.some.inj taken
      apply sound.moveTo w
      split
      · exact (sound.at here).linked
      · rename_i credential
        apply (sound.at here).unlinked
        rw [linked_accountsOf]
        exact Bool.eq_false_iff.mpr credential
    · cases taken
  | readSessions w =>
    simp only [step] at taken
    split at taken
    · rename_i id rest here
      obtain rfl := Option.some.inj taken
      apply sound.moveTo w
      split
      · exact (sound.at here).hasSession
      · rename_i none
        exact (sound.at here).sessionless (Bool.eq_false_iff.mpr none)
    · cases taken
  | deleteSessions w =>
    simp only [step] at taken
    split at taken
    · rename_i id rest here
      obtain rfl := Option.some.inj taken
      have current := sound.at here
      have first : (Phase.deleting id rest).deletes s.db id = true := by simp [Phase.deletes]
      have unused : inUse s.db id = false := current.unused id first
      exact sound.move w (deleteSessions_alike · unused) sound.unique (current.next (fun _ after => after) unused) sound.deleted
    · cases taken
  | deleteAccounts w =>
    simp only [step] at taken
    split at taken
    · rename_i id rest used here
      obtain rfl := Option.some.inj taken
      have current := sound.at here
      have first : (Phase.sessionsDeleted id rest used).deletes s.db id = true := by simp [Phase.deletes]
      have unused : inUse s.db id = false := current.unused id first
      exact sound.move w (deleteAccounts_alike · unused) sound.unique (current.next (fun _ after => after) (current.first first))
        sound.deleted
    · cases taken
  | deleteRow w =>
    simp only [step] at taken
    split at taken
    · rename_i id rest used here
      obtain rfl := Option.some.inj taken
      have current := sound.at here
      have first : (Phase.accountsDeleted id rest used).deletes s.db id = true := by simp [Phase.deletes]
      have unused : inUse s.db id = false := current.unused id first
      have unique : ((Accounts.deleteRow s.db id).users.map (·.id)).Nodup :=
        sound.unique.sublist (List.filter_sublist.map _)
      refine sound.move w (deleteRow_alike · unused) unique current.deleted fun e member => ?_
      split at member
      · rcases List.mem_cons.mp member with rfl | before
        · exact current.first first
        · exact sound.deleted e before
      · exact sound.deleted e member
    · cases taken
  | finish w =>
    simp only [step] at taken
    split at taken
    · obtain rfl := Option.some.inj taken
      exact sound.moveTo w current_idle
    · cases taken
  | verify id =>
    simp only [step, Option.ite_none_right_eq_some, Option.some.injEq] at taken
    obtain ⟨_, rfl⟩ := taken
    refine ⟨?_, fun w => ?_, sound.deleted⟩
    · have ids : (verify s.db id).users.map (·.id) = s.db.users.map (·.id) := by
        rw [verify, List.map_map]
        apply List.map_congr_left
        intro u _
        by_cases here : u.id = id
        · simp [here]
        · simp [here]
      rw [ids]
      exact sound.unique
    · exact (sound.current w).other (fun _ other => verify_alike other) (undisturbed w)
  | link id providerId =>
    simp only [step, Option.ite_none_right_eq_some, Option.some.injEq] at taken
    obtain ⟨_, rfl⟩ := taken
    refine ⟨sound.unique, fun w => ?_, sound.deleted⟩
    rcases undisturbed with credential | spared
    · exact (sound.current w).change fun _ _ => link_alike (.inr credential)
    · exact (sound.current w).other (fun _ other => link_alike (.inl other)) (spared w)
  | signIn id =>
    simp only [step, Option.ite_none_right_eq_some, Option.some.injEq] at taken
    obtain ⟨_, rfl⟩ := taken
    refine ⟨sound.unique, fun w => ?_, sound.deleted⟩
    exact (sound.current w).other (fun _ other => signIn_alike other) (undisturbed w)

/-! ### A worker that goes on alone -/

/-- The user may yet be deleted in use. -/
def Reaches (s : State ι ω) (id : ι) : Prop := ∃ fs t, Run step (fun _ _ => True) s fs t ∧ (id, true) ∈ t.deleted

theorem Reaches.step {s t : State ι ω} {e : Event ι ω} {id : ι} (taken : step s e = some t) (reaches : Reaches t id) :
    Reaches s id := by
  obtain ⟨fs, u, run, deleted⟩ := reaches
  exact ⟨e :: fs, u, .cons trivial taken run, deleted⟩

omit [DecidableEq ι] in
theorem moveTo_phase (s : State ι ω) (w : ω) (p : Phase ι) : (s.moveTo w p).phase w = p := Function.update_self ..

theorem accountsDeleted_reaches {s : State ι ω} {w : ω} {id : ι} {rest : List ι} {used : Bool}
    (here : s.phase w = .accountsDeleted id rest used)
    (stays : present s.db id = true) (inUse : (used || inUse s.db id) = true) : Reaches s id := by
  refine ⟨[.deleteRow w], _, .cons trivial (by rw [step, here]) (.nil _), ?_⟩
  rw [if_pos stays, inUse]
  exact List.mem_cons_self

theorem sessionsDeleted_reaches {s : State ι ω} {w : ω} {id : ι} {rest : List ι} {used : Bool}
    (here : s.phase w = .sessionsDeleted id rest used)
    (stays : present s.db id = true) (inUse : (used || inUse s.db id) = true) : Reaches s id := by
  refine Reaches.step (e := .deleteAccounts w) (by rw [step, here]) ?_
  refine accountsDeleted_reaches (moveTo_phase s w _) stays ?_
  rw [inUse, Bool.true_or]

theorem deleting_reaches {s : State ι ω} {w : ω} {id : ι} {rest : List ι} (here : s.phase w = .deleting id rest)
    (stays : present s.db id = true) (inUse : inUse s.db id = true) : Reaches s id := by
  refine Reaches.step (e := .deleteSessions w) (by rw [step, here]) ?_
  refine sessionsDeleted_reaches (moveTo_phase s w _) stays ?_
  rw [inUse, Bool.true_or]

theorem checked_reaches {s : State ι ω} {w : ω} {id : ι} {rest : List ι} (here : s.phase w = .checked id rest)
    (stays : present s.db id = true) (inUse : inUse s.db id = true) (sessionless : hasSession s.db id = false) : Reaches s id := by
  refine Reaches.step (e := .readSessions w) (by rw [step, here]) ?_
  rw [if_neg (Bool.eq_false_iff.mp sessionless)]
  exact deleting_reaches (moveTo_phase s w _) stays inUse

/-- The user has verified its address, and nothing else tells that it is in use. -/
structure Overlooked (db : Db ι) (id : ι) : Prop where
  verified : verified db id = true
  sessionless : hasSession db id = false
  unlinked : linked db id = false

omit [DecidableEq ω] in
theorem Overlooked.present {db : Db ι} {id : ι} (overlooked : Overlooked db id) : Race.present db id = true := by
  have verified := overlooked.verified
  rw [Race.verified, List.any_eq_true] at verified
  obtain ⟨u, found, own⟩ := verified
  rw [Race.present, List.any_eq_true]
  exact ⟨u, found, (Bool.and_eq_true _ _ ▸ own).1⟩

theorem Overlooked.inUse {db : Db ι} {id : ι} (overlooked : Overlooked db id) : Race.inUse db id = true := by
  rw [Race.inUse, overlooked.verified]
  rfl

omit [DecidableEq ω] in
theorem overlooked_of_inUse {db : Db ι} {id : ι} (inUse : Race.inUse db id = true) (sessionless : hasSession db id = false)
    (unlinked : linked db id = false) : Overlooked db id := by
  rw [Race.inUse, sessionless, unlinked, Bool.or_false, Bool.or_false] at inUse
  exact ⟨inUse, sessionless, unlinked⟩

omit [DecidableEq ω] in
/-- The worker is at the user, or comes to it. -/
theorem own_or_later {db : Db ι} {id x : ι} {rest : List ι}
    (deletes : (decide (x = id) || (rest.contains id && !linked db id && !hasSession db id)) = true) :
    x = id ∨ id ≠ x ∧ id ∈ rest ∧ hasSession db id = false ∧ linked db id = false := by
  by_cases own : x = id
  · exact .inl own
  · simp only [own, decide_false, Bool.false_or, Bool.and_eq_true, Bool.not_eq_true', List.contains_iff_mem] at deletes
    exact .inr ⟨Ne.symm own, deletes.1.1, deletes.2, deletes.1.2⟩

theorem Overlooked.alike {db db' : Db ι} {id : ι} (overlooked : Overlooked db id) (alike : Alike db db' id) : Overlooked db' id :=
  ⟨by rw [alike.verified, overlooked.verified], by rw [alike.hasSession, overlooked.sessionless],
    by rw [alike.linked, overlooked.unlinked]⟩

section turn
variable {w : ω} {id x : ι} {rest : List ι} (other : id ≠ x)
  (turn : ∀ s : State ι ω, s.phase w = .candidates rest → Overlooked s.db id → Reaches s id)
include other turn

theorem turn_accountsDeleted {s : State ι ω} {used : Bool} (here : s.phase w = .accountsDeleted x rest used)
    (overlooked : Overlooked s.db id) : Reaches s id := by
  refine Reaches.step (e := .deleteRow w) (by rw [step, here]) ?_
  exact turn _ (moveTo_phase s w _) (overlooked.alike (deleteRow_other other))

theorem turn_sessionsDeleted {s : State ι ω} {used : Bool} (here : s.phase w = .sessionsDeleted x rest used)
    (overlooked : Overlooked s.db id) : Reaches s id := by
  refine Reaches.step (e := .deleteAccounts w) (by rw [step, here]) ?_
  exact turn_accountsDeleted other turn (moveTo_phase s w _) (overlooked.alike (deleteAccounts_other other))

theorem turn_deleting {s : State ι ω} (here : s.phase w = .deleting x rest) (overlooked : Overlooked s.db id) : Reaches s id := by
  refine Reaches.step (e := .deleteSessions w) (by rw [step, here]) ?_
  exact turn_sessionsDeleted other turn (moveTo_phase s w _) (overlooked.alike (deleteSessions_other other))

theorem turn_checked {s : State ι ω} (here : s.phase w = .checked x rest) (overlooked : Overlooked s.db id) : Reaches s id := by
  refine Reaches.step (e := .readSessions w) (by rw [step, here]) ?_
  cases found : hasSession s.db x with
  | true => exact turn _ (moveTo_phase s w _) overlooked
  | false => exact turn_deleting other turn (moveTo_phase s w _) overlooked

end turn

theorem candidates_reaches {w : ω} {id : ι} {ids : List ι} (member : id ∈ ids) {s : State ι ω}
    (here : s.phase w = .candidates ids) (overlooked : Overlooked s.db id) : Reaches s id := by
  induction ids generalizing s with
  | nil => cases member
  | cons x rest ih =>
    refine Reaches.step (e := .readAccounts w) (by rw [step, here]) ?_
    by_cases own : id = x
    · subst own
      have credential : ¬ (accountsOf s.db id).any (·.providerId ≠ CREDENTIAL) := by
        rw [← linked_accountsOf, overlooked.unlinked]
        exact Bool.false_ne_true
      rw [if_neg credential]
      exact checked_reaches (moveTo_phase s w _) overlooked.present overlooked.inUse overlooked.sessionless
    · have later : id ∈ rest := (List.mem_cons.mp member).resolve_left own
      have turn : ∀ t : State ι ω, t.phase w = .candidates rest → Overlooked t.db id → Reaches t id := fun _ => ih later
      split
      · exact turn _ (moveTo_phase s w _) overlooked
      · exact turn_checked own turn (moveTo_phase s w _) overlooked

/-- A worker that goes on alone deletes whom it is said to delete. -/
theorem deletes_reaches {s : State ι ω} {w : ω} {id : ι} (deletes : (s.phase w).deletes s.db id = true)
    (stays : present s.db id = true) (inUse : inUse s.db id = true) : Reaches s id := by
  cases here : s.phase w with
  | idle =>
    rw [here] at deletes
    cases deletes
  | candidates ids =>
    simp only [here, Phase.deletes, Bool.and_eq_true, Bool.not_eq_true', List.contains_iff_mem] at deletes
    obtain ⟨⟨member, unlinked⟩, sessionless⟩ := deletes
    exact candidates_reaches member here (overlooked_of_inUse inUse sessionless unlinked)
  | checked x rest =>
    simp only [here, Phase.deletes, Bool.and_eq_true, Bool.or_eq_true, Bool.not_eq_true', List.contains_iff_mem,
      decide_eq_true_eq] at deletes
    obtain ⟨sessionless, own | ⟨member, unlinked⟩⟩ := deletes
    · subst own
      exact checked_reaches here stays inUse sessionless
    · by_cases own : id = x
      · subst own
        exact checked_reaches here stays inUse sessionless
      · exact turn_checked own (fun _ => candidates_reaches member) here (overlooked_of_inUse inUse sessionless unlinked)
  | deleting x rest =>
    rw [here, Phase.deletes] at deletes
    rcases own_or_later deletes with rfl | ⟨other, member, sessionless, unlinked⟩
    · exact deleting_reaches here stays inUse
    · exact turn_deleting other (fun _ => candidates_reaches member) here (overlooked_of_inUse inUse sessionless unlinked)
  | sessionsDeleted x rest used =>
    rw [here, Phase.deletes] at deletes
    rcases own_or_later deletes with rfl | ⟨other, member, sessionless, unlinked⟩
    · exact sessionsDeleted_reaches here stays (by rw [inUse, Bool.or_true])
    · exact turn_sessionsDeleted other (fun _ => candidates_reaches member) here (overlooked_of_inUse inUse sessionless unlinked)
  | accountsDeleted x rest used =>
    rw [here, Phase.deletes] at deletes
    rcases own_or_later deletes with rfl | ⟨other, member, sessionless, unlinked⟩
    · exact accountsDeleted_reaches here stays (by rw [inUse, Bool.or_true])
    · exact turn_accountsDeleted other (fun _ => candidates_reaches member) here (overlooked_of_inUse inUse sessionless unlinked)

/-- A user that steps in although a worker deletes it is in use from then on. -/
theorem disturbed_reaches {s s' : State ι ω} {e : Event ι ω} (taken : step s e = some s') (disturbed : ¬ Undisturbed s e) :
    ∃ id, Reaches s' id := by
  cases e with
  | verify id =>
    simp only [step, Option.ite_none_right_eq_some, Option.some.injEq] at taken
    obtain ⟨stays, rfl⟩ := taken
    simp only [Undisturbed, not_forall, Bool.not_eq_false] at disturbed
    obtain ⟨w, deletes⟩ := disturbed
    refine ⟨id, deletes_reaches (w := w) deletes (verify_present stays) ?_⟩
    rw [inUse, verify_verified stays]
    rfl
  | link id providerId =>
    simp only [step, Option.ite_none_right_eq_some, Option.some.injEq] at taken
    obtain ⟨stays, rfl⟩ := taken
    simp only [Undisturbed, not_or, not_forall, Bool.not_eq_false] at disturbed
    obtain ⟨other, w, deletes⟩ := disturbed
    refine ⟨id, deletes_reaches (w := w) deletes stays ?_⟩
    have linked : linked (link s.db id providerId) id = true := by
      rw [linked, link, List.any_cons]
      simp [other]
    rw [inUse, linked, Bool.or_true]
  | signIn id =>
    simp only [step, Option.ite_none_right_eq_some, Option.some.injEq] at taken
    obtain ⟨stays, rfl⟩ := taken
    simp only [Undisturbed, not_forall, Bool.not_eq_false] at disturbed
    obtain ⟨w, deletes⟩ := disturbed
    refine ⟨id, deletes_reaches (w := w) deletes stays ?_⟩
    have session : hasSession (signIn s.db id) id = true := by
      rw [hasSession, signIn, List.any_cons]
      simp
    rw [inUse, session, Bool.or_true, Bool.true_or]
  | purge | replace | readAccounts | readSessions | deleteSessions | deleteAccounts | deleteRow | finish =>
    exact (disturbed trivial).elim

/-- In a run in which no user steps in that a worker deletes all the same, no user is deleted that is in use.
A step of that kind can be followed by such a deletion. -/
theorem unused_deleted {db : Db ι} (unique : (db.users.map (·.id)).Nodup) {s : State ι ω} {es : List (Event ι ω)}
    (run : Run step Undisturbed (start db) es s) :
    (∀ d ∈ s.deleted, d.2 = false) ∧
      ∀ e s', step s e = some s' → ¬ Undisturbed s e →
        ∃ fs t, Run step (fun _ _ => True) s' fs t ∧ ∃ d ∈ t.deleted, d.2 = true := by
  refine ⟨(run.invariant (I := Sound) step_sound (start_sound unique)).deleted, fun e s' taken disturbed => ?_⟩
  obtain ⟨id, fs, t, run', deleted⟩ := disturbed_reaches taken disturbed
  exact ⟨fs, t, run', (id, true), deleted, rfl⟩

end

instance [DecidableEq ι] [DecidableEq ω] [Fintype ω] (s : State ι ω) (e : Event ι ω) : Decidable (Undisturbed s e) := by
  cases e <;> unfold Undisturbed <;> infer_instance

def signedUp : Db ℕ where
  users := [⟨1, text "mai@example.com", false, 0⟩, ⟨2, text "lan@example.com", false, 0⟩]
  accounts := [⟨1, CREDENTIAL⟩, ⟨2, CREDENTIAL⟩]
  sessions := []

/-- The second verifies her address while the first is deleted. -/
theorem unused_deleted_verify : ∃ s : State ℕ Unit, s.deleted = [(1, false)] ∧ ∀ d ∈ s.deleted, d.2 = false := by
  have check : ∃ s ∈ exec step Undisturbed (start signedUp : State ℕ Unit)
      [.purge () [⟨1, text "mai@example.com", false, 0⟩] 1, .readAccounts (), .readSessions (), .deleteSessions (), .verify 2,
        .deleteAccounts (), .deleteRow (), .finish ()], s.deleted = [(1, false)] := by
    decide +kernel
  obtain ⟨s, reached, deleted⟩ := check
  have unique : (signedUp.users.map (·.id)).Nodup := by decide
  exact ⟨s, deleted, (unused_deleted unique (Run.of_exec reached)).1⟩

/-- A user that verifies her address, links an account or signs in after the purge has read of her is deleted in use. -/
theorem deleted_in_use : ¬ ∀ (s : State ℕ Unit) (es : List (Event ℕ Unit)),
    Run step (fun _ _ => True) (start signedUp) es s → ∀ e ∈ s.deleted, e.2 = false := by
  intro spares
  have check : ∃ s ∈ exec step (fun _ _ => True) (start signedUp : State ℕ Unit)
      [.purge () [⟨1, text "mai@example.com", false, 0⟩] 1, .readAccounts (), .readSessions (), .verify 1, .deleteSessions (),
        .deleteAccounts (), .deleteRow ()], s.deleted = [(1, true)] := by
    decide +kernel
  obtain ⟨s, reached, deleted⟩ := check
  have unused := spares s _ (Run.of_exec reached) (1, true) (by rw [deleted]; exact List.mem_singleton_self _)
  cases unused

end Identity.Accounts.Race
