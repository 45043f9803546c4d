import AppPlatform.Identity.BannedGuard
import AppPlatform.Lib.Run

/-!
# A ban takes effect at once

After `setUserBanned` forgot what was remembered, nothing in the process believes the user not banned
unless a call still waits with the row from before the ban.
-/

namespace Identity.BannedGuard
open Js
variable {ι : Type*} [DecidableEq ι]

/-- The row bans its user up to the moment `horizon`. -/
def BannedUntil (horizon : ℤ) (row : UserRow) : Prop :=
  row.banned = some true ∧ (row.banExpires = .never ∨ ∃ ms, row.banExpires = .at ms ∧ horizon < ms)

/-- No un-ban: whoever writes the row of `userId` leaves it banned while the run lasts. -/
def StaysBanned (horizon : ℤ) (userId : Text) (s : State ι) : Event ι → Prop
  | .write userId' row => userId' = userId → ∃ banned, row = some banned ∧ BannedUntil horizon banned
  | .update r => ∀ reason, s.phase r ≠ .updating userId false reason
  | .tick now => now ≤ horizon
  | _ => True

/-- In `s₀` the call waits with a row of `userId` that does not ban at the time of `s`. -/
def Stale (userId : Text) (s₀ s : State ι) (r : ι) : Prop :=
  ∃ asker fresh, s₀.phase r = .read asker fresh ∧ asker.userId = userId ∧ freshlyBanned fresh s.now = false

theorem isBannedRow_until {horizon now : ℤ} {row : UserRow} (banned : BannedUntil horizon row) (early : now ≤ horizon) :
    isBannedRow row now = true := by
  obtain ⟨flag, never | ⟨ms, expires, later⟩⟩ := banned
  · simp [isBannedRow, flag, never]
  · have before : now < ms := by omega
    simp [isBannedRow, flag, expires, before]

theorem bannedRow_until (horizon : ℤ) (reason : Option Text) (now : ℤ) :
    BannedUntil horizon (bannedRow true reason now) :=
  ⟨rfl, Or.inl rfl⟩

/-! ### The row -/

/-- The row of the user bans while the run lasts. -/
def RowBans (horizon : ℤ) (userId : Text) (s : State ι) : Prop :=
  s.now ≤ horizon ∧ ∃ row, s.users userId = some row ∧ BannedUntil horizon row

theorem ask_users (s : State ι) (r : ι) (asker : Asker) : (ask s r asker).users = s.users ∧ (ask s r asker).now = s.now ∧
    (ask s r asker).believedNotBanned = s.believedNotBanned := by
  unfold ask
  split <;> exact ⟨rfl, rfl, rfl⟩

theorem foundSession_users (s : State ι) (r : ι) (found : Option Found) : (foundSession s r found).users = s.users ∧
    (foundSession s r found).now = s.now ∧ (foundSession s r found).believedNotBanned = s.believedNotBanned := by
  unfold foundSession
  split
  · exact ⟨rfl, rfl, rfl⟩
  · split
    · exact ⟨rfl, rfl, rfl⟩
    · split
      · exact ⟨rfl, rfl, rfl⟩
      · exact ask_users s r _

theorem resumed_users (s : State ι) (r : ι) (asker : Asker) (fresh : Option UserRow) :
    (resumed s r asker fresh).users = s.users ∧ (resumed s r asker fresh).now = s.now := by
  unfold resumed
  split <;> exact ⟨rfl, rfl⟩

/-- What a step does: an update of a row, a write by someone else, the clock, or neither rows nor clock. -/
inductive Touches (s t : State ι) : Event ι → Prop where
  | updates {r : ι} {userId : Text} {banned : Bool} {reason : Option Text} :
      s.phase r = .updating userId banned reason →
      t = ({ s with users := Function.update s.users userId ((s.users userId).map fun _ => bannedRow banned reason s.now) } :
        State ι).toPhase r (.updated userId banned) →
      Touches s t (.update r)
  | writes {userId : Text} {row : Option UserRow} :
      t = { s with users := Function.update s.users userId row } → Touches s t (.write userId row)
  | ticks {now : ℤ} : t = { s with now := now } → Touches s t (.tick now)
  | neither {e : Event ι} : t.users = s.users → t.now = s.now → Touches s t e

theorem step_touches {s t : State ι} {e : Event ι} (taken : step s e = some t) : Touches s t e := by
  cases step_taken taken with
  | begin r => exact .neither rfl rfl
  | found r found => exact .neither (foundSession_users s r found).1 (foundSession_users s r found).2.1
  | check r => exact .neither (ask_users s r _).1 (ask_users s r _).2.1
  | query r => exact .neither rfl rfl
  | resume r => exact .neither (resumed_users s r _ _).1 (resumed_users s r _ _).2
  | lookup r => exact .neither rfl rfl
  | update r userId banned reason updating => exact .updates updating rfl
  | forget r => exact .neither rfl rfl
  | write userId row => exact .writes rfl
  | tick now => exact .ticks rfl

theorem step_rowBans {horizon : ℤ} {userId : Text} {s t : State ι} {e : Event ι} (bans : RowBans horizon userId s)
    (stays : StaysBanned horizon userId s e) (taken : step s e = some t) : RowBans horizon userId t := by
  obtain ⟨early, row, present, banned⟩ := bans
  cases step_touches taken with
  | @updates r userId' flag reason updating next =>
    subst next
    refine ⟨early, ?_⟩
    by_cases same : userId = userId'
    · subst same
      have flagged : flag = true := by
        cases flag with
        | true => rfl
        | false => exact (stays reason updating).elim
      refine ⟨bannedRow flag reason s.now, ?_, ?_⟩
      · simp [present]
      · rw [flagged]
        exact bannedRow_until horizon reason s.now
    · refine ⟨row, ?_, banned⟩
      simpa [same] using present
  | @writes userId' row' next =>
    subst next
    refine ⟨early, ?_⟩
    by_cases same : userId = userId'
    · subst same
      obtain ⟨banned', same, bans⟩ := stays rfl
      exact ⟨banned', by simp [same], bans⟩
    · exact ⟨row, by simpa [same] using present, banned⟩
  | ticks next =>
    subst next
    exact ⟨stays, row, present, banned⟩
  | neither users now =>
    refine ⟨by rw [now]; exact early, row, ?_, banned⟩
    rw [users]
    exact present

/-! ### What the calls answer -/

/-- A call about `userId` has, or will have, the answer "banned". -/
def Sound (horizon : ℤ) (userId : Text) : Phase → Prop
  | .read asker fresh => asker.userId = userId → ∃ row, fresh = some row ∧ BannedUntil horizon row
  | .session found returned => found.id = some userId → returned.expiresAt = 0
  | .answered id banned => id = userId → banned = true
  | _ => True

theorem answer_true_sound (horizon : ℤ) (userId : Text) (asker : Asker) : Sound horizon userId (asker.answer true) := by
  cases asker with
  | session found id named => exact fun _ => rfl
  | isBanned id => exact fun _ => rfl

theorem answer_false_sound (horizon : ℤ) {userId : Text} {asker : Asker} (other : asker.userId ≠ userId) :
    Sound horizon userId (asker.answer false) := by
  cases asker with
  | session found id named =>
    intro same
    rw [named] at same
    exact (other (Option.some.inj same)).elim
  | isBanned id => exact fun same => (other same).elim

/-- The call that steps ends in a sound phase, the others stay where they are. -/
def Advances (horizon : ℤ) (userId : Text) (s t : State ι) : Prop :=
  ∀ c, t.phase c = s.phase c ∨ Sound horizon userId (t.phase c)

section
variable {horizon : ℤ} {userId : Text}

theorem toPhase_advances (s : State ι) (r : ι) {p : Phase} (sound : Sound horizon userId p) :
    Advances horizon userId s (s.toPhase r p) := by
  intro c
  by_cases same : c = r
  · right
    rw [same, Calls.move_self]
    exact sound
  · left
    exact Calls.move_other _ p same

theorem ask_advances {s : State ι} (forgotten : userId ∉ s.believedNotBanned) (r : ι) (asker : Asker) :
    Advances horizon userId s (ask s r asker) := by
  unfold ask
  split
  · rename_i believed
    apply toPhase_advances
    apply answer_false_sound
    intro same
    unfold State.believed at believed
    rw [same, AList.lookup_eq_none.mpr forgotten] at believed
    cases believed
  · exact toPhase_advances s r trivial

theorem foundSession_advances {s : State ι} (forgotten : userId ∉ s.believedNotBanned) (r : ι) (found : Option Found) :
    Advances horizon userId s (foundSession s r found) := by
  unfold foundSession
  split
  · exact toPhase_advances s r trivial
  · split
    · exact toPhase_advances s r fun _ => rfl
    · split
      · rename_i named
        apply toPhase_advances
        intro same
        rw [named] at same
        cases same
      · exact ask_advances forgotten r _

/-- A call with a row that bans answers "banned"; one about another user remembers nothing of this one. -/
theorem resumed_advances {s : State ι} (forgotten : userId ∉ s.believedNotBanned) (r : ι) {asker : Asker} {fresh : Option UserRow}
    (bans : asker.userId = userId → freshlyBanned fresh s.now = true) :
    Advances horizon userId s (resumed s r asker fresh) ∧ userId ∉ (resumed s r asker fresh).believedNotBanned := by
  unfold resumed
  split
  · refine ⟨toPhase_advances (s.forgetBan asker.userId) r (answer_true_sound ..), ?_⟩
    intro member
    exact forgotten (AList.mem_erase.mp member).2
  · rename_i notBanned
    have other : asker.userId ≠ userId := fun same => notBanned (bans same)
    exact ⟨toPhase_advances (s.rememberNotBanned asker.userId) r (answer_false_sound horizon other),
      Memo.notMem_remember other.symm forgotten⟩

end

/-- Nothing is remembered of the user, and every call but those that waited with a stale row is sound or
was over when the memo was forgotten. -/
structure Effective (horizon : ℤ) (userId : Text) (s₀ s : State ι) : Prop where
  bans : RowBans horizon userId s
  forgotten : userId ∉ s.believedNotBanned
  calls : ∀ c, s.phase c = s₀.phase c ∨ Sound horizon userId (s.phase c)

/-- No un-ban, and no call goes on with a row that it already had when the memo was forgotten and that does not ban now. -/
def Undisturbed (horizon : ℤ) (userId : Text) (s₀ s : State ι) (e : Event ι) : Prop :=
  StaysBanned horizon userId s e ∧ ∀ r, e = .resume r → ¬ Stale userId s₀ s r

theorem step_effective {horizon : ℤ} {userId : Text} {s₀ s t : State ι} {e : Event ι}
    (effective : Effective horizon userId s₀ s) (ok : Undisturbed horizon userId s₀ s e) (taken : step s e = some t) :
    Effective horizon userId s₀ t := by
  obtain ⟨bans, forgotten, calls⟩ := effective
  obtain ⟨stays, notStale⟩ := ok
  have bans' := step_rowBans bans stays taken
  suffices advances : Advances horizon userId s t ∧ userId ∉ t.believedNotBanned by
    refine ⟨bans', advances.2, fun c => ?_⟩
    rcases advances.1 c with same | sound
    · rw [same]
      exact calls c
    · exact Or.inr sound
  cases step_taken taken with
  | begin r call =>
    refine ⟨toPhase_advances s r ?_, forgotten⟩
    unfold begun
    split
    · trivial
    · trivial
    · split <;> trivial
  | found r found =>
    refine ⟨foundSession_advances forgotten r found, ?_⟩
    rw [(foundSession_users s r found).2.2]
    exact forgotten
  | check r =>
    refine ⟨ask_advances forgotten r _, ?_⟩
    rw [(ask_users s r _).2.2]
    exact forgotten
  | query r =>
    obtain ⟨_, row, present, banned⟩ := bans
    refine ⟨toPhase_advances s r ?_, forgotten⟩
    rintro rfl
    exact ⟨row, present, banned⟩
  | resume r asker fresh reads =>
    apply resumed_advances forgotten
    intro about
    rcases calls r with same | sound
    · -- the call has not moved since the memo was forgotten
      by_contra notBanned
      exact notStale r rfl ⟨asker, fresh, same.symm.trans reads, about, Bool.eq_false_iff.mpr notBanned⟩
    · rw [reads] at sound
      obtain ⟨row, rfl, banned⟩ := sound about
      exact isBannedRow_until banned bans.1
  | lookup r =>
    refine ⟨toPhase_advances s r ?_, forgotten⟩
    split <;> trivial
  | update r => exact ⟨toPhase_advances _ r trivial, forgotten⟩
  | forget r id =>
    refine ⟨toPhase_advances (s.forgetBan id) r trivial, ?_⟩
    intro member
    exact forgotten (AList.mem_erase.mp member).2
  | write id row => exact ⟨fun _ => Or.inl rfl, forgotten⟩
  | tick now => exact ⟨fun _ => Or.inl rfl, forgotten⟩

theorem update_rowBans {horizon : ℤ} {userId : Text} {reason : Option Text} {s t : State ι} {r : ι}
    (updating : s.phase r = .updating userId true reason) (known : s.users userId ≠ none) (early : s.now ≤ horizon)
    (taken : step s (.update r) = some t) : RowBans horizon userId t := by
  obtain ⟨row, present⟩ := Option.ne_none_iff_exists'.mp known
  simp only [step, updating] at taken
  obtain rfl := Option.some.inj taken
  exact ⟨early, bannedRow true reason s.now, by simp [present], bannedRow_until horizon reason s.now⟩

theorem forget_effective {horizon : ℤ} {userId : Text} {s t : State ι} {r : ι} (bans : RowBans horizon userId s)
    (updated : s.phase r = .updated userId true) (taken : step s (.forget r) = some t) :
    Effective horizon userId t t := by
  simp only [step, updated] at taken
  obtain rfl := Option.some.inj taken
  exact ⟨bans, Memo.notMem_erase userId _, fun _ => Or.inl rfl⟩

/-- Every question and every session read that starts after the ban is answered "banned", as long as no call that waited with
a row when the memo was forgotten goes on with it while it does not ban. -/
theorem ban_at_once {horizon : ℤ} {userId : Text} {reason : Option Text} {r : ι} {s₀ s₁ s₂ s₃ s₄ : State ι}
    {es es' : List (Event ι)} (updating : s₀.phase r = .updating userId true reason) (known : s₀.users userId ≠ none)
    (early : s₀.now ≤ horizon) (update : step s₀ (.update r) = some s₁)
    (between : Runs.Run step (StaysBanned horizon userId) s₁ es s₂) (updated : s₂.phase r = .updated userId true)
    (forget : step s₂ (.forget r) = some s₃) (after : Runs.Run step (Undisturbed horizon userId s₃) s₃ es' s₄)
    {c : ι} (starts : s₃.phase c = .idle) :
    (∀ banned, s₄.phase c = .answered userId banned → banned = true) ∧
      ∀ found returned, s₄.phase c = .session found returned → found.id = some userId → returned.expiresAt = 0 := by
  have bans₁ := update_rowBans updating known early update
  have bans₂ := between.invariant (fun bans stays taken => step_rowBans bans stays taken) bans₁
  have effective₃ := forget_effective bans₂ updated forget
  have effective₄ := after.invariant (fun effective ok taken => step_effective effective ok taken) effective₃
  have call := effective₄.calls c
  rw [starts] at call
  constructor
  · intro banned answered
    rcases call with idle | sound
    · cases idle.symm.trans answered
    · rw [answered] at sound
      exact sound rfl
  · intro found returned answered named
    rcases call with idle | sound
    · cases idle.symm.trans answered
    · rw [answered] at sound
      exact sound named

theorem resumed_memo (s : State ι) (r : ι) (asker : Asker) (fresh : Option UserRow)
    (small : Memo.size s.believedNotBanned ≤ memoMax) :
    Memo.size (resumed s r asker fresh).believedNotBanned ≤ memoMax := by
  unfold resumed
  split
  · exact (Memo.size_erase_le asker.userId s.believedNotBanned).trans small
  · exact Memo.size_remember_le (by decide) small

theorem step_memo {s t : State ι} {e : Event ι} (small : Memo.size s.believedNotBanned ≤ memoMax)
    (taken : step s e = some t) : Memo.size t.believedNotBanned ≤ memoMax := by
  cases step_taken taken with
  | found r found =>
    rw [(foundSession_users s r found).2.2]
    exact small
  | check r =>
    rw [(ask_users s r _).2.2]
    exact small
  | resume r asker fresh => exact resumed_memo s r asker fresh small
  | forget r userId => exact (Memo.size_erase_le userId s.believedNotBanned).trans small
  | _ => exact small

/-- The memo never holds more users than it may. -/
theorem memo_bounded {s₀ s : State ι} {es : List (Event ι)} (run : Runs.Run step (fun _ _ => True) s₀ es s)
    (small : Memo.size s₀.believedNotBanned ≤ memoMax) : Memo.size s.believedNotBanned ≤ memoMax :=
  run.invariant (fun small _ taken => step_memo small taken) small

def banUser : Text := text "3f6c1d2e-9b4a-4c57-8e21-5a0d7c9b1e34"

def unbanned : UserRow := ⟨some false, none, .never, 0⟩

def beforeBan : State ℕ where
  users := fun userId => if userId = banUser then some unbanned else none
  believedNotBanned := ∅
  now := 1700000000000
  phase _ := .idle

/-- Call 1 asks and reads the row, then call 0 bans, then call 1 goes on. -/
theorem stale_row_disturbs : ¬ ∀ (horizon : ℤ) (userId : Text) (reason : Option Text) (r : ℕ)
    (start s₀ s₁ s₂ s₃ s₄ : State ℕ) (before es es' : List (Event ℕ)), (∀ c, start.phase c = .idle) →
    Runs.Run step (fun _ _ => True) start before s₀ → s₀.phase r = .updating userId true reason →
    s₀.users userId ≠ none → s₀.now ≤ horizon → step s₀ (.update r) = some s₁ →
    Runs.Run step (StaysBanned horizon userId) s₁ es s₂ → s₂.phase r = .updated userId true →
    step s₂ (.forget r) = some s₃ → Runs.Run step (StaysBanned horizon userId) s₃ es' s₄ →
    ∀ c, s₃.phase c = .idle → ∀ banned, s₄.phase c = .answered userId banned → banned = true := by
  intro atOnce
  have banned := atOnce 1700000000000 banUser none 0 beforeBan _ _ _ _ _
    [.begin 1 (.isUserBanned banUser), .check 1, .query 1, .begin 0 (.setUserBanned banUser true none true), .lookup 0]
    [] [.resume 1, .begin 2 (.isUserBanned banUser), .check 2] (fun _ => rfl)
    (.cons trivial rfl (.cons trivial rfl (.cons trivial rfl (.cons trivial rfl (.cons trivial rfl (.nil _))))))
    rfl (by decide +kernel) (by decide) rfl (.nil _) rfl rfl
    (.cons trivial rfl (.cons trivial rfl (.cons trivial rfl (.nil _)))) 2 rfl false rfl
  cases banned

/-- The user until the ban: banned for another minute. -/
def bannedBefore : UserRow := ⟨some true, none, .at 1700000060000, 0⟩

/-- Call 1 waits with the row from before the ban, call 0 is about to ban. -/
def banning : State ℕ :=
  (beforeBan.toPhase 1 (.read (.isBanned banUser) (some bannedBefore))).toPhase 0 (.updating banUser true none)

/-- Call 1 goes on while its row still bans, and a question that starts afterwards reads the new row. -/
theorem ban_at_once_waiting : ∃ s : State ℕ, ∃ banned, s.phase 2 = .answered banUser banned ∧ banned = true := by
  have run : ∃ s₁ s₃ s₄ : State ℕ, step banning (.update 0) = some s₁ ∧ s₁.phase 0 = .updated banUser true ∧
      step s₁ (.forget 0) = some s₃ ∧ s₃.phase 2 = .idle ∧ s₄.phase 2 = .answered banUser true ∧
      Runs.Run step (Undisturbed 1700000100000 banUser s₃) s₃
        [.begin 2 (.isUserBanned banUser), .check 2, .tick 1700000030000, .resume 1, .query 2, .tick 1700000090000, .resume 2]
        s₄ := by
    refine ⟨_, _, _, rfl, rfl, rfl, rfl, ?_, .cons ⟨trivial, nofun⟩ rfl (.cons ⟨trivial, nofun⟩ rfl
      (.cons ⟨?_, nofun⟩ rfl (.cons ⟨trivial, ?_⟩ rfl (.cons ⟨trivial, nofun⟩ rfl (.cons ⟨?_, nofun⟩ rfl
        (.cons ⟨trivial, ?_⟩ rfl (.nil _)))))))⟩
    · rfl
    · exact (by decide : (1700000030000 : ℤ) ≤ 1700000100000)
    · rintro r same ⟨asker, fresh, reads, _, notBanned⟩
      cases same
      cases reads
      cases notBanned
    · exact (by decide : (1700000090000 : ℤ) ≤ 1700000100000)
    · rintro r same ⟨asker, fresh, reads, _⟩
      cases same
      cases reads
  obtain ⟨s₁, s₃, s₄, update, updated, forget, starts, answered, after⟩ := run
  exact ⟨s₄, true, answered,
    (ban_at_once rfl (by decide +kernel) (by decide) update (.nil _) updated forget after starts).1 true answered⟩

end Identity.BannedGuard
