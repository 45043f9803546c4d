import AppPlatform.Identity.StaffSession

/-!
# The cap holds wherever a session is read or written

A staff address is staff to every path without a lookup, so each path clamps or hides by the session's
own age. Of a user who is not staff the memo of no process says otherwise, so every path leaves the
library's answer alone.
-/

namespace Identity.StaffSession
open Js

section
variable (lower : Text → Text) (setting : Setting)

/-- The address is in a staff domain. -/
def Staff (userId : Text) : Prop := ∃ email, setting.users userId = some email ∧ staffEmailIn lower email setting.staffDomains = true

/-- Neither such an address nor a Microsoft account. -/
def NonStaff (userId : Text) : Prop :=
  (∀ email, setting.users userId = some email → staffEmailIn lower email setting.staffDomains = false) ∧
    setting.microsoft userId = false

variable {π : Type*}

/-- Every process remembers what the accounts say. -/
def Remembered (s : State π) : Prop := ∀ p id hit, (s.memo p).lookup id = some hit → hit.staff = setting.microsoft id

def Attested : Event π → Prop
  | .create n => n.signIn ≠ none ∨ n.callback = true → setting.microsoft n.session.userId = true
  | _ => True

end

variable {lower : Text → Text} {setting : Setting} {userId : Text}

/-! ### The hooks -/

theorem newDate_eq {t v : ℤ} (written : newDate t = some v) : v = t := by
  unfold newDate at written
  split at written
  · exact (Option.some.inj written).symm
  · cases written

/-- What is written lies within the cap. Where the cap is a date it is one too: the one asked for if that is earlier, or else the cap. -/
structure Capped (createdAt : ℤ) (requested written : Date) : Prop where
  bounded : ∀ t, written = some t → t ≤ createdAt + capMs
  valid : newDate (createdAt + capMs) ≠ none →
    ∃ t, written = some t ∧ t ≤ createdAt + capMs ∧ ∀ r, requested = some r → t = min r (createdAt + capMs)

theorem capped_earliest (createdAt : ℤ) (requested : Date) :
    Capped createdAt requested (earliest requested (afterCap (some createdAt))) := by
  cases dated : newDate (createdAt + capMs) with
  | none =>
    have written : earliest requested (afterCap (some createdAt)) = none := by
      rw [afterCap, Option.bind_some, dated]
      cases requested <;> rfl
    rw [written]
    exact ⟨nofun, fun valid => (valid dated).elim⟩
  | some cap =>
    obtain rfl := newDate_eq dated
    rw [afterCap, Option.bind_some, dated]
    cases requested with
    | none => exact ⟨fun t written => (Option.some.inj written).ge, fun _ => ⟨_, rfl, le_rfl, nofun⟩⟩
    | some r =>
      have earlier : earliest (some r) (some (createdAt + capMs)) = some (min r (createdAt + capMs)) := by
        by_cases le : r ≤ createdAt + capMs
        · rw [min_eq_left le]
          exact if_pos (decide_eq_true le)
        · rw [min_eq_right (by omega)]
          exact if_neg fun same => le (of_decide_eq_true same)
      rw [earlier]
      refine ⟨fun t written => ?_, fun _ => ⟨_, rfl, min_le_right _ _, fun r' same => by rw [Option.some.inj same]⟩⟩
      cases written
      exact min_le_right _ _

theorem Staff.isStaff (staff : Staff lower setting userId) : isStaff lower setting userId = true := by
  obtain ⟨email, found, inside⟩ := staff
  rw [StaffSession.isStaff, found, Option.any_some, inside, Bool.or_true]

theorem NonStaff.isStaff (other : NonStaff lower setting userId) : isStaff lower setting userId = false := by
  rw [StaffSession.isStaff, other.2, Bool.false_or]
  cases found : setting.users userId with
  | none => rfl
  | some email => exact other.1 email found

theorem Staff.created (staff : Staff lower setting userId) (signIn : Option Text) (callback accepts : Bool) (e : Date) (c now : ℤ) :
    createBefore lower setting userId signIn callback accepts (some e) (some (some c)) now = .refused ∨
    createBefore lower setting userId signIn callback accepts (some e) (some (some c)) now =
      .expiresAt (earliest e (afterCap (some c))) := by
  unfold createBefore
  rw [staff.isStaff]
  cases goesOn setting userId signIn callback accepts with
  | false => exact Or.inl rfl
  | true => exact Or.inr rfl

theorem NonStaff.created (other : NonStaff lower setting userId) {signIn : Option Text} {callback : Bool}
    (attested : signIn ≠ none ∨ callback = true → setting.microsoft userId = true) (accepts : Bool)
      (e c : Option Date) (now : ℤ) :
    createBefore lower setting userId signIn callback accepts e c now = .unchanged := by
  have plain : signIn = none ∧ callback = false := by
    constructor
    · by_contra signed
      rw [other.2] at attested
      exact Bool.false_ne_true (attested (Or.inl signed))
    · rw [Bool.eq_false_iff]
      intro called
      rw [other.2] at attested
      exact Bool.false_ne_true (attested (Or.inr called))
  obtain ⟨rfl, rfl⟩ := plain
  simp [createBefore, goesOn, other.isStaff]

theorem Staff.classify {email : Text} (inside : staffEmailIn lower email setting.staffDomains = true) (memo : Classified) (now : ℤ)
    (id : Option Text) : classify lower setting memo now id email = (true, memo) := if_pos inside

theorem NonStaff.classify (other : NonStaff lower setting userId) {memo : Classified} {email : Text}
    (remembered : ∀ hit, memo.lookup userId = some hit → hit.staff = setting.microsoft userId)
    (found : setting.users userId = some email) (now : ℤ) :
    (classify lower setting memo now (some userId) email).1 = false := by
  unfold StaffSession.classify
  rw [other.1 email found, if_neg Bool.false_ne_true]
  simp only
  split
  · rename_i hit fresh
    have known := (Option.filter_eq_some_iff.mp fresh).1
    exact (remembered hit known).trans other.2
  · exact other.2

theorem classify_remembered {memo : Classified} (remembered : ∀ id hit, memo.lookup id = some hit → hit.staff = setting.microsoft id)
    (now : ℤ) (id : Option Text) (email : Text) {id' : Text} {hit : Classification}
    (found : (classify lower setting memo now id email).2.lookup id' = some hit) : hit.staff = setting.microsoft id' := by
  unfold classify at found
  split at found
  · exact remembered id' hit found
  split at found
  · exact remembered id' hit found
  split at found
  · exact remembered id' hit found
  · rename_i id _ _
    by_cases same : id' = id
    · subst same
      rw [remember, Memo.lookup_remember] at found
      cases found
      rfl
    · exact remembered id' hit (Memo.lookup_of_remember same found)

/-! ### Reads and listings -/

variable {π : Type*} {s : State π}

theorem load_eq {token : Text} {x : Session} {email : Text} (loaded : s.load setting token = some (x, email)) :
    s.sessions.lookup token = some x ∧ setting.users x.userId = some email := by
  obtain ⟨x', stored, rest⟩ := Option.bind_eq_some_iff.mp loaded
  obtain ⟨email', user, same⟩ := Option.map_eq_some_iff.mp rest
  cases same
  exact ⟨stored, user⟩

theorem findSession_remembered (remembered : Remembered setting s) (p : π) (token : Text) (request : Bool)
    (id : Text) (hit : Classification)
    (found : (findSession lower setting s p token request).memo.lookup id = some hit) : hit.staff = setting.microsoft id := by
  unfold findSession at found
  split at found
  · exact remembered p id hit found
  · rename_i x email _
    dsimp only at found
    split at found
    · exact remembered p id hit found
    · have kept : (classify lower setting (s.memo p) s.now (some x.userId) email).2.lookup id = some hit →
        hit.staff = setting.microsoft id :=
        classify_remembered (remembered p) s.now (some x.userId) email
      generalize classify lower setting (s.memo p) s.now (some x.userId) email = answer at found kept
      obtain ⟨staff, memo⟩ := answer
      dsimp only at found kept
      split at found
      · exact kept found
      · split at found
        · exact kept found
        · exact kept found

theorem listSessions_remembered (remembered : Remembered setting s) (p : π) (userId : Text) (active : Bool)
    (id : Text) (hit : Classification)
    (found : (listSessions lower setting s p userId active).2.lookup id = some hit) : hit.staff = setting.microsoft id := by
  unfold listSessions at found
  dsimp only at found
  split at found
  · exact remembered p id hit found
  · split at found
    · exact remembered p id hit found
    · rename_i email _
      have kept : (classify lower setting (s.memo p) s.now (some userId) email).2.lookup id = some hit →
        hit.staff = setting.microsoft id :=
        classify_remembered (remembered p) s.now (some userId) email
      generalize classify lower setting (s.memo p) s.now (some userId) email = answer at found kept
      obtain ⟨staff, memo⟩ := answer
      dsimp only at found kept
      split at found
      · exact kept found
      · exact kept found

/-- A read of a staff session: the cap is its expiry once it is past the cap, and the stored one before. -/
theorem Staff.read (p : π) {token : Text} {x : Session} {email : Text} (inside : staffEmailIn lower email setting.staffDomains = true)
    (loaded : s.load setting token = some (x, email)) (request : Bool) :
    (findSession lower setting s p token request).session =
      some (if (x.expiresAt.any (· > x.createdAt + capMs) && decide (x.createdAt + capMs < s.now)) = true then
        { x with expiresAt := newDate (x.createdAt + capMs) } else x) := by
  unfold findSession
  rw [loaded]
  dsimp only
  rw [Staff.classify inside]
  dsimp only
  generalize x.expiresAt.any (· > x.createdAt + capMs) = overCap
  generalize decide (x.createdAt + capMs < s.now) = pastCap
  generalize x.expiresAt.any (fun e => decide (e - (setting.expiresIn - setting.updateAge) * 1000 ≤ s.now)) = due
  cases overCap <;> cases pastCap <;> cases due <;> rfl

theorem Staff.read_expired (staff : Staff lower setting userId) {p : π} {token : Text} {request : Bool} {x : Session}
    (read : (findSession lower setting s p token request).session = some x) (own : x.userId = userId)
    (past : x.createdAt + capMs < s.now) : ∀ t, x.expiresAt = some t → t ≤ s.now := by
  cases loaded : s.load setting token with
  | none =>
    rw [findSession, loaded] at read
    cases read
  | some found =>
    obtain ⟨stored, email⟩ := found
    obtain ⟨_, user⟩ := load_eq loaded
    have same : stored.userId = x.userId := by
      unfold findSession at read
      rw [loaded] at read
      dsimp only at read
      repeat' split at read
      all_goals
        cases read
        rfl
    obtain ⟨email', user', inside⟩ := staff
    rw [same, own, user'] at user
    cases user
    rw [Staff.read p inside loaded] at read
    intro t written
    split at read
    · cases read
      have bound := newDate_eq written
      have past : stored.createdAt + capMs < s.now := past
      omega
    · rename_i within
      cases read
      rw [written, Option.any_some, decide_eq_true past, Bool.and_true, decide_eq_true_eq] at within
      omega

theorem Staff.read_alive (staff : Staff lower setting userId) (p : π) {token : Text} {x : Session}
    (stored : s.sessions.lookup token = some x) (own : x.userId = userId) (within : s.now ≤ x.createdAt + capMs) (request : Bool) :
    (findSession lower setting s p token request).session = some x := by
  obtain ⟨email, user, inside⟩ := staff
  have loaded : s.load setting token = some (x, email) := by
    rw [State.load, stored, Option.bind_some, own, user]
    rfl
  have later : decide (x.createdAt + capMs < s.now) = false := decide_eq_false (by omega)
  rw [Staff.read p inside loaded, later, Bool.and_false, if_neg Bool.false_ne_true]

theorem NonStaff.read (other : NonStaff lower setting userId) (remembered : Remembered setting s) (p : π) {token : Text} {x : Session}
    {email : Text} (loaded : s.load setting token = some (x, email)) (own : x.userId = userId) (request : Bool) :
    (findSession lower setting s p token request).session = some x ∧ (findSession lower setting s p token request).skip = false := by
  obtain ⟨_, user⟩ := load_eq loaded
  rw [own] at user
  have answer := other.classify (remembered p userId) user s.now
  unfold findSession
  rw [loaded]
  dsimp only
  rw [own]
  generalize StaffSession.classify lower setting (s.memo p) s.now (some userId) email = a at answer
  obtain ⟨staff, memo⟩ := a
  obtain rfl : staff = false := answer
  split
  · exact ⟨rfl, rfl⟩
  · exact ⟨rfl, rfl⟩

theorem Staff.list (staff : Staff lower setting userId) (p : π) (active : Bool) :
    (listSessions lower setting s p userId active).1 =
      (s.listed userId active).filter fun x => !decide (x.createdAt + capMs < s.now) := by
  obtain ⟨email, user, inside⟩ := staff
  unfold listSessions
  dsimp only
  split
  · rename_i young
    symm
    rw [List.filter_eq_self]
    intro x member
    rw [Bool.not_eq_true', List.any_eq_false] at young
    rw [Bool.not_eq_true']
    exact Bool.not_eq_true _ ▸ young x member
  · rw [user]
    dsimp only
    rw [Staff.classify inside]
    rfl

theorem NonStaff.list (other : NonStaff lower setting userId) (remembered : Remembered setting s) (p : π) (active : Bool) :
    (listSessions lower setting s p userId active).1 = s.listed userId active := by
  unfold listSessions
  dsimp only
  split
  · rfl
  cases user : setting.users userId with
  | none => rfl
  | some email =>
    have answer := other.classify (remembered p userId) user s.now
    dsimp only
    rw [answer]
    rfl

/-! ### Runs -/

variable [DecidableEq π]

theorem update_remembered (remembered : Remembered setting s) {p : π} {memo : Classified}
    (kept : ∀ id hit, memo.lookup id = some hit → hit.staff = setting.microsoft id) :
    Remembered setting { s with memo := Function.update s.memo p memo } := by
  intro q id hit found
  by_cases here : q = p
  · subst here
    have found : ((Function.update s.memo q memo) q).lookup id = some hit := found
    rw [Function.update_self] at found
    exact kept id hit found
  · have found : ((Function.update s.memo p memo) q).lookup id = some hit := found
    rw [Function.update_of_ne here] at found
    exact remembered q id hit found

theorem step_remembered (remembered : Remembered setting s) (e : Event π) : Remembered setting (step lower setting s e) := by
  cases e with
  | create n =>
    simp only [step]
    repeat' split
    all_goals exact remembered
  | refresh token expiresAt =>
    simp only [step]
    repeat' split
    all_goals exact remembered
  | read p token request =>
    have kept : Remembered setting { s with memo := Function.update s.memo p (findSession lower setting s p token request).memo } :=
      update_remembered remembered (findSession_remembered remembered p token request)
    simp only [step]
    split
    · exact kept
    · exact kept
  | list p userId active => exact update_remembered remembered (listSessions_remembered remembered p userId active)
  | pass ms => exact remembered

theorem run_remembered (remembered : Remembered setting s) (es : List (Event π)) : Remembered setting (run lower setting s es) := by
  induction es generalizing s with
  | nil => exact remembered
  | cons e es ih => exact ih (step_remembered remembered e)

omit [DecidableEq π] in
theorem lookup_write (x : Session) : (s.write x).sessions.lookup x.token = some x := Memo.lookup_put_same _ _ _

theorem step_keeps {token : Text} {x : Session} (stored : s.sessions.lookup token = some x) (e : Event π)
    (read : ∀ p request, e = .read p token request → (findSession lower setting s p token request).session = some x)
    (alive : expired x s.now = false) :
    ∃ x', (step lower setting s e).sessions.lookup token = some x' ∧ x'.userId = x.userId ∧ x'.createdAt = x.createdAt := by
  have present : token ∈ s.sessions := AList.lookup_isSome.mp (by rw [stored]; rfl)
  cases e with
  | create n =>
    have other : n.session.token ∉ s.sessions → token ≠ n.session.token := by
      rintro absent rfl
      exact absent present
    have written : ∀ y : Session, y.token = n.session.token → n.session.token ∉ s.sessions →
      (s.write y).sessions.lookup token = some x := by
      intro y same absent
      have differs : token ≠ y.token := same ▸ other absent
      exact (Memo.lookup_put_ne differs).trans stored
    simp only [step]
    split
    · exact ⟨x, stored, rfl, rfl⟩
    · rename_i absent
      split
      · exact ⟨x, stored, rfl, rfl⟩
      · exact ⟨x, written _ rfl absent, rfl, rfl⟩
      · exact ⟨x, written _ rfl absent, rfl, rfl⟩
  | refresh token' expiresAt =>
    simp only [step]
    split
    · exact ⟨x, stored, rfl, rfl⟩
    · rename_i x' stored'
      by_cases here : token = token'
      · subst here
        obtain rfl : x = x' := Option.some.inj (stored.symm.trans stored')
        split
        · exact ⟨_, Memo.lookup_put_same _ _ _, rfl, rfl⟩
        · exact ⟨_, Memo.lookup_put_same _ _ _, rfl, rfl⟩
      · split
        · exact ⟨x, (Memo.lookup_put_ne here).trans stored, rfl, rfl⟩
        · exact ⟨x, (Memo.lookup_put_ne here).trans stored, rfl, rfl⟩
  | read p token' request =>
    simp only [step]
    split
    · rename_i gone
      by_cases here : token = token'
      · subst here
        rw [read p request rfl, Option.any_some, alive] at gone
        cases gone
      · exact ⟨x, (AList.lookup_erase_ne here).trans stored, rfl, rfl⟩
    · exact ⟨x, stored, rfl, rfl⟩
  | list p userId active => exact ⟨x, stored, rfl, rfl⟩
  | pass ms => exact ⟨x, stored, rfl, rfl⟩

/-- The cap of staff on every path, and no path that changes anything for others. -/
theorem staff_session_cap (lower : Text → Text) (setting : Setting) {s₀ : State π}
    (fresh : ∀ p, s₀.memo p = ∅) (es : List (Event π)) :
    let s := run lower setting s₀ es
    (∀ userId, Staff lower setting userId →
      (∀ p token request x, (findSession lower setting s p token request).session = some x → x.userId = userId →
        x.createdAt + capMs < s.now → ∀ t, x.expiresAt = some t → t ≤ s.now) ∧
      (∀ n x, n.session.userId = userId → n.session.token ∉ s.sessions →
        (step lower setting s (.create n)).sessions.lookup n.session.token = some x →
        x.createdAt = n.session.createdAt ∧ Capped x.createdAt n.session.expiresAt x.expiresAt) ∧
      (∀ token requested x x', s.sessions.lookup token = some x → x.userId = userId →
        (step lower setting s (.refresh token requested)).sessions.lookup token = some x' →
        x'.createdAt = x.createdAt ∧ Capped x.createdAt requested x'.expiresAt) ∧
      (∀ p active x, x ∈ (listSessions lower setting s p userId active).1 → s.now ≤ x.createdAt + capMs) ∧
      (∀ token x, s.sessions.lookup token = some x → x.userId = userId → s.now ≤ x.createdAt + capMs →
        (∀ p request, (findSession lower setting s p token request).session = some x) ∧
        (∀ p active, x ∈ s.listed userId active → x ∈ (listSessions lower setting s p userId active).1) ∧
        (expired x s.now = false → ∀ e, ∃ x', (step lower setting s e).sessions.lookup token = some x' ∧
          x'.createdAt = x.createdAt))) ∧
    ∀ userId, NonStaff lower setting userId →
      (∀ p token request x email, s.load setting token = some (x, email) → x.userId = userId →
        (findSession lower setting s p token request).session = some x ∧
          (findSession lower setting s p token request).skip = false) ∧
      (∀ p active, (listSessions lower setting s p userId active).1 = s.listed userId active) ∧
      (∀ n, n.session.userId = userId → Attested setting (.create n : Event π) → n.session.token ∉ s.sessions →
        (step lower setting s (.create n)).sessions.lookup n.session.token = some n.session) ∧
      ∀ token requested x, s.sessions.lookup token = some x → x.userId = userId →
        (step lower setting s (.refresh token requested)).sessions.lookup token = some { x with expiresAt := requested } := by
  intro s
  have remembered : Remembered setting s := by
    apply run_remembered
    intro p id hit found
    rw [fresh p] at found
    cases found
  refine ⟨fun userId staff => ⟨?_, ?_, ?_, ?_, ?_⟩, fun userId other => ⟨?_, ?_, ?_, ?_⟩⟩
  · intro p token request x read own past
    exact staff.read_expired read own past
  · intro n x own absent written
    subst own
    simp only [step, if_neg absent] at written
    rcases staff.created n.signIn n.callback n.accepts n.session.expiresAt n.session.createdAt s.now with refused | bounded
    · rw [refused] at written
      exact absurd (AList.lookup_isSome.mp (by rw [written]; rfl)) absent
    · rw [bounded] at written
      dsimp only at written
      rw [show n.session.token = ({ n.session with
        expiresAt := earliest n.session.expiresAt (afterCap (some n.session.createdAt))
          } : Session).token from rfl, lookup_write] at written
      cases written
      exact ⟨rfl, capped_earliest _ _⟩
  · intro token requested x x' stored own written
    subst own
    simp only [step, stored, updateBefore, staff.isStaff, Bool.not_true, Bool.false_eq_true, if_false] at written
    rw [Memo.lookup_put_same] at written
    cases written
    exact ⟨rfl, capped_earliest _ _⟩
  · intro p active x member
    rw [staff.list] at member
    have young := (List.mem_filter.mp member).2
    rw [Bool.not_eq_true', decide_eq_false_iff_not] at young
    omega
  · intro token x stored own within
    refine ⟨fun p request => staff.read_alive p stored own within request, fun p active member => ?_, fun alive e => ?_⟩
    · rw [staff.list]
      refine List.mem_filter.mpr ⟨member, ?_⟩
      rw [Bool.not_eq_true', decide_eq_false_iff_not]
      omega
    · obtain ⟨x', kept, _, age⟩ := step_keeps stored e (fun p request _ => staff.read_alive p stored own within request) alive
      exact ⟨x', kept, age⟩
  · intro p token request x email loaded own
    exact other.read remembered p loaded own request
  · intro p active
    exact other.list remembered p active
  · intro n own attested absent
    subst own
    simp only [step, if_neg absent]
    rw [other.created attested]
    exact lookup_write n.session
  · intro token requested x stored own
    subst own
    simp only [step, stored, updateBefore, other.isStaff, Bool.not_false, if_true]
    exact Memo.lookup_put_same _ _ _

def oneStaff : Setting where
  users id := if id = text "u" then some (text "Ann@qnsc.vn") else none
  accounts _ := []
  staffDomains := [text "qnsc.vn"]
  onStaffSignIn := false
  expiresIn := 604800
  updateAge := 86400

/-- A session of the user that was stored for a week before there was a cap. -/
def weekLong : State Unit where
  sessions := AList.singleton (text "t") ⟨text "t", text "u", 1700000000000, some 1700604800000⟩
  memo _ := ∅
  now := 1700040000000

/-- A second session of the user, as the library would have it for a week. -/
def signedIn : New := ⟨⟨text "v", text "u", 1700040000000, some 1700644800000⟩, none, false, true⟩

/-- The first session is past its cap by now; the second was created within it, and is refreshed for an hour and then for a week. -/
theorem staff_session_cap_weekLong :
    let s := run toLowerCase oneStaff weekLong [.create signedIn, .read () (text "t") true, .pass 10000000]
    (∃ x, (findSession toLowerCase oneStaff s () (text "t") true).session = some x ∧ ∀ t, x.expiresAt = some t → t ≤ s.now) ∧
    (∃ x, (step toLowerCase oneStaff s (.refresh (text "v") (some 1700053600000))).sessions.lookup (text "v") = some x ∧
      ∃ t, x.expiresAt = some t ∧ t ≤ 1700083200000 ∧ t = 1700053600000) ∧
    ∃ x, (step toLowerCase oneStaff s (.refresh (text "v") (some 1700654800000))).sessions.lookup (text "v") = some x ∧
      ∃ t, x.expiresAt = some t ∧ t ≤ 1700083200000 := by
  intro s
  obtain ⟨staff, _⟩ := staff_session_cap toLowerCase oneStaff (show ∀ p, weekLong.memo p = ∅ from fun _ => rfl)
    [.create signedIn, .read () (text "t") true, .pass 10000000]
  obtain ⟨read, _, refresh, _⟩ := staff (text "u") ⟨text "Ann@qnsc.vn", rfl, by decide⟩
  have stored : s.sessions.lookup (text "v") = some ⟨text "v", text "u", 1700040000000, some 1700083200000⟩ := by rfl
  refine ⟨⟨⟨text "t", text "u", 1700000000000, some 1700043200000⟩, by rfl, ?_⟩, ⟨_, rfl, ?_⟩, ⟨_, rfl, ?_⟩⟩
  · exact read () (text "t") true _ (by rfl) rfl (by decide)
  · obtain ⟨t, written, within, asked⟩ := (refresh (text "v") (some 1700053600000) _ _ stored rfl rfl).2.valid (by decide)
    exact ⟨t, written, within, asked _ rfl⟩
  · obtain ⟨t, written, within, _⟩ := (refresh (text "v") (some 1700654800000) _ _ stored rfl rfl).2.valid (by decide)
    exact ⟨t, written, within⟩

end Identity.StaffSession
