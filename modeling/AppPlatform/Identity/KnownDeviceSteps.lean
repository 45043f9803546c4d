import AppPlatform.Identity.KnownDeviceCalls

/-!
# What a step does

Two inversions of `step`: what becomes of the rows and the cookies, and how the call that acts moves on.
-/

namespace Identity.KnownDevice
open Js
variable {ι : Type*} [DecidableEq ι]

/-- The step writes `updatedAt`. -/
inductive Writes (s : State ι) : Event ι → ℤ → Prop where
  | write {r : ι} {fellBack : Bool} {date : ℤ} : s.phase r = .bumping fellBack date → Writes s (.write r) date
  | swap {r : ι} {device : Device} {inputs : EpochInputs} {next : ℤ} : s.phase r = .swapping device inputs next →
      s.user = some ⟨inputs.userUpdatedAt, 0⟩ → Writes s (.swap r) next

/-- The row of the user a call has read to judge its cookie. -/
def Phase.stamp : Phase → Option Stamp
  | .reading goal (some (some stamp)) _ => if goal.judges then some stamp else none
  | _ => none

/-- What a step does to the state. -/
inductive Does (site : Site) (s t : State ι) (e : Event ι) : Prop where
  | begins {r : ι} {cookie : Option Text} {p : Phase} :
      t = ({ s with request := Function.update s.request r cookie } : State ι).toPhase r p →
      s.phase r = .idle → p ≠ .idle → p.stamp = none → Does site s t e
  | moves {r : ι} {p : Phase} : t = s.toPhase r p → s.phase r ≠ .idle → p ≠ .idle →
      p.stamp = none ∨ p.stamp = (s.phase r).stamp ∨ p.stamp = s.user → Does site s t e
  | judges {r : ι} {p : Phase} {inputs : Option EpochInputs} : t = (s.compute inputs).toPhase r p → s.phase r ≠ .idle →
      p ≠ .idle → p.stamp = none → Does site s t e
  | accepts {r : ι} {p : Phase} {cookie : Parsed} {inputs : EpochInputs} {stamp : Stamp} :
      t = ((s.compute (some inputs)).accept r).toPhase r p → e = .resume r → (s.phase r).stamp = some stamp →
      site.parsed (s.request r) = some cookie → fingerprint site.config inputs = cookie.epoch →
      stamp.ms = inputs.userUpdatedAt → p ≠ .idle → p.stamp = none → Does site s t e
  | issues {r : ι} {p : Phase} {device : Device} {inputs : EpochInputs} :
      t = ((s.compute (some inputs)).issue (some (site.signed device inputs))).toPhase r p → s.phase r ≠ .idle →
      p ≠ .idle → p.stamp = none → Does site s t e
  | writes {r : ι} {p : Phase} {ms : ℤ} : t = (s.moveUser ms).toPhase r p → Writes s e ms → s.phase r ≠ .idle →
      p ≠ .idle → p.stamp = none → Does site s t e
  | sets {credential : Option Credential} : t = { s with credential := credential } → Does site s t e
  | ticks {now : ℤ} : t = { s with now := now } → Does site s t e

/-- Phases of a call that has read nothing, or is over without a bump. -/
inductive Quiet : Phase → Prop where
  | reads (goal : Goal) : Quiet (.reading goal none none)
  | checked (device : Option Device) : Quiet (.checked device)
  | minted (written : Option Issued) : Quiet (.minted written)
  | noted : Quiet (.noted none)

theorem Quiet.busy {p : Phase} (quiet : Quiet p) : p ≠ .idle := by
  cases quiet <;> nofun

theorem Quiet.blank {p : Phase} (quiet : Quiet p) : p.stamp = none := by
  cases quiet <;> rfl

theorem answered_none (s : State ι) (r : ι) (goal : Goal) : ∃ p, Quiet p ∧ answered s r goal none = s.toPhase r p := by
  cases goal with
  | check => exact ⟨_, .checked none, rfl⟩
  | remember deviceId => exact ⟨_, .reads (.mint ⟨deviceId, seconds s.now⟩), rfl⟩
  | mint device => exact ⟨_, .checked none, rfl⟩
  | snapshot => exact ⟨_, .checked none, rfl⟩

theorem validDevice_quiet (site : Site) (s : State ι) (r : ι) (goal : Goal) :
    ∃ p, Quiet p ∧ validDevice site s r goal = s.toPhase r p := by
  unfold validDevice
  split
  · exact ⟨_, .reads goal, rfl⟩
  · exact answered_none s r goal

theorem begun_quiet (site : Site) (s : State ι) (r : ι) (call : Call) : ∃ p, Quiet p ∧ begun site s r call = s.toPhase r p := by
  cases call with
  | check => exact validDevice_quiet site s r _
  | remember deviceId => exact validDevice_quiet site s r _
  | revokeOthers => exact ⟨_, .reads .snapshot, rfl⟩
  | revokeAll => exact ⟨_, .noted, rfl⟩

/-- An answer accepts the request's cookie, which is then in the epoch that was read, or accepts none. -/
theorem answered_does {site : Site} {s : State ι} {r : ι} {goal : Goal} {user : Option Stamp}
    {credential : Option Credential} (judges : goal.judges = true)
    (reads : s.phase r = .reading goal (some user) (some credential)) :
    Does site s (answered (s.compute (inputsOf user credential)) r goal
      ((site.parsed (s.request r)).filter (site.inEpoch (inputsOf user credential)))) (.resume r) := by
  cases judged : (site.parsed (s.request r)).filter (site.inEpoch (inputsOf user credential)) with
  | none =>
    obtain ⟨p, quiet, same⟩ := answered_none (s.compute (inputsOf user credential)) r goal
    rw [same]
    exact .judges rfl (by rw [reads]; nofun) quiet.busy quiet.blank
  | some cookie =>
    obtain ⟨carried, epoch⟩ := Option.filter_eq_some_iff.mp judged
    obtain ⟨inputs, read, same⟩ := (inEpoch_iff carried).mp epoch
    obtain ⟨stamp, rfl, ms⟩ := inputsOf_some read
    rw [read]
    refine .accepts rfl rfl ?_ carried same ms nofun rfl
    simp [reads, Phase.stamp, judges]

theorem resumed_does {site : Site} {s : State ι} {r : ι} {goal : Goal} {user : Option Stamp}
    {credential : Option Credential} (reads : s.phase r = .reading goal (some user) (some credential)) :
    Does site s (resumed site s r (inputsOf user credential) goal) (.resume r) := by
  have started : s.phase r ≠ .idle := by
    rw [reads]
    nofun
  cases goal with
  | check => exact answered_does rfl reads
  | remember deviceId => exact answered_does rfl reads
  | mint device =>
    simp only [resumed]
    cases inputsOf user credential with
    | none => exact .moves rfl started nofun (Or.inl rfl)
    | some inputs =>
      rw [Site.write_some]
      exact .issues rfl started nofun rfl
  | snapshot =>
    simp only [resumed]
    split
    · rename_i inputs read
      obtain ⟨stamp, rfl, ms⟩ := inputsOf_some read
      unfold noteDevice
      split
      · exact .moves rfl started nofun (Or.inl rfl)
      · rename_i cookie judged
        obtain ⟨carried, _⟩ := Option.filter_eq_some_iff.mp judged
        split
        · rename_i epoch
          obtain ⟨inputs', found, same⟩ := (inEpoch_iff carried).mp epoch
          obtain rfl := Option.some.inj found
          refine .accepts rfl rfl ?_ carried same ms nofun rfl
          simp [reads, Phase.stamp, Goal.judges]
        · exact .judges rfl started nofun rfl
    · exact .moves rfl started nofun (Or.inl rfl)

theorem step_does {site : Site} {s t : State ι} {e : Event ι} (taken : step site s e = some t) : Does site s t e := by
  have busy : ∀ {r : ι} {p : Phase}, s.phase r = p → p ≠ .idle → s.phase r ≠ .idle := by
    intro r p same other
    rw [same]
    exact other
  unfold step at taken
  split at taken
  · obtain ⟨idle, next⟩ := Option.ite_none_right_eq_some.mp taken
    obtain rfl := Option.some.inj next
    obtain ⟨p, quiet, same⟩ := begun_quiet (ι := ι) site _ _ _
    exact .begins same idle quiet.busy quiet.blank
  · split at taken
    · rename_i r goal credential reads
      obtain rfl := Option.some.inj taken
      refine .moves rfl (busy reads nofun) nofun ?_
      cases user : s.user with
      | none => exact Or.inl rfl
      | some stamp =>
        cases judges : goal.judges with
        | false => exact Or.inl (by simp [Phase.stamp, judges])
        | true => exact Or.inr (Or.inr (by simp [Phase.stamp, judges]))
    · cases taken
  · split at taken
    · rename_i r goal user reads
      obtain rfl := Option.some.inj taken
      refine .moves rfl (busy reads nofun) nofun (Or.inr (Or.inl ?_))
      rw [reads]
      rcases user with _ | (_ | stamp) <;> rfl
    · cases taken
  · split at taken
    · rename_i r goal user credential reads
      obtain rfl := Option.some.inj taken
      exact resumed_does reads
    · cases taken
  · split at taken
    · rename_i r device inputs noted
      obtain rfl := Option.some.inj taken
      exact .moves rfl (busy noted nofun) nofun (Or.inl rfl)
    · rename_i r noted
      obtain rfl := Option.some.inj taken
      exact .moves rfl (busy noted nofun) nofun (Or.inl rfl)
    · cases taken
  · split at taken
    · rename_i r device inputs next swapping
      split at taken
      · rename_i unmoved
        obtain rfl := Option.some.inj taken
        exact .writes rfl (.swap swapping unmoved) (busy swapping nofun) nofun rfl
      · obtain rfl := Option.some.inj taken
        exact .moves rfl (busy swapping nofun) nofun (Or.inl rfl)
    · cases taken
  · split at taken
    · rename_i r device inputs next won
      obtain rfl := Option.some.inj taken
      rw [Site.write_some]
      exact .issues rfl (busy won nofun) nofun rfl
    · cases taken
  · split at taken
    · rename_i r inputs lost
      split at taken
      · obtain rfl := Option.some.inj taken
        exact .moves rfl (busy lost nofun) nofun (Or.inl rfl)
      · obtain rfl := Option.some.inj taken
        exact .moves rfl (busy lost nofun) nofun (Or.inl rfl)
    · cases taken
  · split at taken
    · rename_i r fellBack date bumping
      obtain rfl := Option.some.inj taken
      exact .writes rfl (.write bumping) (busy bumping nofun) nofun rfl
    · cases taken
  · obtain rfl := Option.some.inj taken
    exact .sets rfl
  · obtain rfl := Option.some.inj taken
    exact .ticks rfl

/-! ### The rows and the cookies -/

/-- A cookie that was set is kept, and so is an epoch that was computed. -/
theorem step_issued {site : Site} {s t : State ι} {e : Event ι} (does : Does site s t e) :
    (∀ i ∈ s.issued, i ∈ t.issued) ∧ ∀ inputs ∈ s.computed, inputs ∈ t.computed := by
  have same : (∀ i ∈ s.issued, i ∈ s.issued) ∧ ∀ inputs ∈ s.computed, inputs ∈ s.computed := ⟨fun _ => id, fun _ => id⟩
  have more : ∀ inputs : Option EpochInputs, (∀ i ∈ s.issued, i ∈ s.issued) ∧
      ∀ i ∈ s.computed, i ∈ (s.compute inputs).computed := fun _ => ⟨fun _ => id, fun _ => List.mem_append_right _⟩
  cases does with
  | begins next => exact next ▸ same
  | moves next => exact next ▸ same
  | judges next => exact next ▸ more _
  | accepts next => exact next ▸ more _
  | issues next => exact next ▸ ⟨fun _ => List.mem_append_right _, (more _).2⟩
  | writes next => exact next ▸ same
  | sets next => exact next ▸ same
  | ticks next => exact next ▸ same

/-- Every cookie that was set is signed for its inputs, whose epoch was computed. -/
def Consistent (site : Site) (s : State ι) : Prop :=
  ∀ i ∈ s.issued, i = site.signed i.device i.inputs ∧ i.inputs ∈ s.computed

theorem step_consistent {site : Site} {s t : State ι} {e : Event ι} (does : Does site s t e)
    (consistent : Consistent site s) : Consistent site t := by
  have kept : ∀ i ∈ s.issued, i = site.signed i.device i.inputs ∧ i.inputs ∈ t.computed :=
    fun i member => ⟨(consistent i member).1, (step_issued does).2 _ (consistent i member).2⟩
  cases does with
  | begins next => exact next ▸ kept
  | moves next => exact next ▸ kept
  | judges next => exact next ▸ kept
  | accepts next => exact next ▸ kept
  | issues next =>
    intro i member
    rw [next] at member
    rcases List.mem_cons.mp member with rfl | old
    · exact ⟨rfl, next ▸ List.mem_cons_self⟩
    · exact kept i old
  | writes next => exact next ▸ kept
  | sets next => exact next ▸ kept
  | ticks next => exact next ▸ kept

theorem step_user {site : Site} {s t : State ι} {e : Event ι} (does : Does site s t e) :
    t.user = s.user ∧ t.bumps = s.bumps ∨
      ∃ ms, Writes s e ms ∧ t.user = s.user.map (fun _ => ⟨ms, 0⟩) ∧ t.bumps = s.bumps + 1 := by
  cases does with
  | begins next => exact Or.inl (next ▸ ⟨rfl, rfl⟩)
  | moves next => exact Or.inl (next ▸ ⟨rfl, rfl⟩)
  | judges next => exact Or.inl (next ▸ ⟨rfl, rfl⟩)
  | accepts next => exact Or.inl (next ▸ ⟨rfl, rfl⟩)
  | issues next => exact Or.inl (next ▸ ⟨rfl, rfl⟩)
  | writes next written => exact Or.inr ⟨_, written, next ▸ ⟨rfl, rfl⟩⟩
  | sets next => exact Or.inl (next ▸ ⟨rfl, rfl⟩)
  | ticks next => exact Or.inl (next ▸ ⟨rfl, rfl⟩)

/-- A call that judges by a row read it now, or had read it before. -/
theorem step_stamp {site : Site} {s t : State ι} {e : Event ι} (does : Does site s t e) {r : ι} {stamp : Stamp}
    (reads : (t.phase r).stamp = some stamp) :
    (s.user = some stamp ∨ (s.phase r).stamp = some stamp) ∧ t.request r = s.request r := by
  have elsewhere : ∀ {u : State ι} {a : ι} {p : Phase}, t = u.toPhase a p → u.phase = s.phase → u.request = s.request →
      (p.stamp = none ∨ p.stamp = (s.phase a).stamp ∨ p.stamp = s.user) →
      (s.user = some stamp ∨ (s.phase r).stamp = some stamp) ∧ t.request r = s.request r := by
    intro u a p next phases requests blank
    subst next
    refine ⟨?_, congrFun requests r⟩
    by_cases same : r = a
    · subst same
      rw [Calls.move_self] at reads
      rcases blank with none | kept | user
      · cases none.symm.trans reads
      · exact Or.inr (kept.symm.trans reads)
      · exact Or.inl (user.symm.trans reads)
    · rw [Calls.move_other _ _ same, phases] at reads
      exact Or.inr reads
  cases does with
  | @begins a cookie p next idle _ blank =>
    subst next
    by_cases same : r = a
    · subst same
      rw [Calls.move_self] at reads
      cases blank.symm.trans reads
    · rw [Calls.move_other _ _ same] at reads
      exact ⟨Or.inr reads, Function.update_of_ne same ..⟩
  | moves next _ _ blank => exact elsewhere next rfl rfl blank
  | judges next _ _ blank => exact elsewhere next rfl rfl (Or.inl blank)
  | accepts next _ _ _ _ _ _ blank => exact elsewhere next rfl rfl (Or.inl blank)
  | issues next _ _ blank => exact elsewhere next rfl rfl (Or.inl blank)
  | writes next _ _ _ blank => exact elsewhere next rfl rfl (Or.inl blank)
  | sets next =>
    subst next
    exact ⟨Or.inr reads, rfl⟩
  | ticks next =>
    subst next
    exact ⟨Or.inr reads, rfl⟩

/-- A step that accepts a cookie: it is in the epoch of a row that shows the time the cookie is bound to. -/
structure Accepts (site : Site) (s t : State ι) (e : Event ι) (r : ι) (raw : Text) : Prop where
  resumes : e = .resume r
  grown : t.accepted = raw :: s.accepted
  carried : s.request r = some raw
  judged : ∃ cookie inputs stamp, site.parsed (some raw) = some cookie ∧ fingerprint site.config inputs = cookie.epoch ∧
    inputs ∈ t.computed ∧ (s.phase r).stamp = some stamp ∧ stamp.ms = inputs.userUpdatedAt

theorem step_accepted {site : Site} {s t : State ι} {e : Event ι} (does : Does site s t e) :
    t.accepted = s.accepted ∨ ∃ r raw, Accepts site s t e r raw := by
  cases does with
  | begins next => exact Or.inl (next ▸ rfl)
  | moves next => exact Or.inl (next ▸ rfl)
  | judges next => exact Or.inl (next ▸ rfl)
  | @accepts r p cookie inputs stamp next resumes reads carried epoch ms =>
    obtain ⟨raw, asked, parsed⟩ := parsed_raw carried
    have grown : t.accepted = raw :: s.accepted := by
      rw [next]
      change (s.request r).toList ++ s.accepted = _
      rw [asked]
      rfl
    exact Or.inr ⟨r, raw, resumes, grown, asked, cookie, inputs, stamp, parsed, epoch, next ▸ List.mem_cons_self, reads, ms⟩
  | issues next => exact Or.inl (next ▸ rfl)
  | writes next => exact Or.inl (next ▸ rfl)
  | sets next => exact Or.inl (next ▸ rfl)
  | ticks next => exact Or.inl (next ▸ rfl)

/-! ### The calls -/

/-- Two states in which the same calls wait, with the same row of the user. -/
def SameUser (s u : State ι) : Prop := u.user = s.user ∧ u.bumps = s.bumps ∧ u.phase = s.phase ∧ u.request = s.request

/-- The request carries a cookie that is valid by these inputs. -/
structure Snapped (site : Site) (request : Option Text) (inputs : EpochInputs) (old : Parsed) : Prop where
  parsed : site.parsed request = some old
  epoch : fingerprint site.config inputs = old.epoch
  userId : old.userId = site.userId

theorem answered_phase (s : State ι) (r : ι) (goal : Goal) (judged : Option Parsed) :
    ∃ p u, Quiet p ∧ SameUser s u ∧ answered s r goal judged = u.toPhase r p := by
  cases judged with
  | none =>
    obtain ⟨p, quiet, same⟩ := answered_none s r goal
    exact ⟨p, s, quiet, ⟨rfl, rfl, rfl, rfl⟩, same⟩
  | some cookie => exact ⟨_, s.accept r, .checked _, ⟨rfl, rfl, rfl, rfl⟩, rfl⟩

/-- A call that resumes is over or starts reading again, or has noted a cookie that is valid by its snapshot. -/
theorem resumed_phase (site : Site) (s : State ι) (r : ι) (inputs : Option EpochInputs) (goal : Goal) :
    ∃ p u, SameUser s u ∧ resumed site s r inputs goal = u.toPhase r p ∧
      (Quiet p ∨ goal = .snapshot ∧ ∃ old i, inputs = some i ∧ Snapped site (s.request r) i old ∧ i ∈ u.computed ∧
        p = .noted (some (old.device, i))) := by
  have here : SameUser s s := ⟨rfl, rfl, rfl, rfl⟩
  cases goal with
  | check =>
    obtain ⟨p, u, quiet, same, next⟩ := answered_phase (s.compute inputs) r .check
      ((site.parsed (s.request r)).filter (site.inEpoch inputs))
    exact ⟨p, u, same, next, Or.inl quiet⟩
  | remember deviceId =>
    obtain ⟨p, u, quiet, same, next⟩ := answered_phase (s.compute inputs) r (.remember deviceId)
      ((site.parsed (s.request r)).filter (site.inEpoch inputs))
    exact ⟨p, u, same, next, Or.inl quiet⟩
  | mint device => exact ⟨_, (s.compute inputs).issue (site.write device inputs), ⟨rfl, rfl, rfl, rfl⟩, rfl, Or.inl (.minted _)⟩
  | snapshot =>
    cases inputs with
    | none => exact ⟨_, s, here, rfl, Or.inl .noted⟩
    | some i =>
      change ∃ p u, SameUser s u ∧ noteDevice site s r i = u.toPhase r p ∧ _
      unfold noteDevice
      split
      · exact ⟨_, s, here, rfl, Or.inl .noted⟩
      · rename_i old judged
        obtain ⟨carried, aged⟩ := Option.filter_eq_some_iff.mp judged
        split
        · rename_i epoch
          obtain ⟨i', found, same⟩ := (inEpoch_iff carried).mp epoch
          obtain rfl := Option.some.inj found
          have user : old.userId = site.userId := of_decide_eq_true (Bool.and_eq_true_iff.mp aged).2
          exact ⟨_, (s.compute (some i)).accept r, ⟨rfl, rfl, rfl, rfl⟩, rfl,
            Or.inr ⟨rfl, old, i, rfl, ⟨carried, same, user⟩, List.mem_cons_self, rfl⟩⟩
        · exact ⟨_, s.compute (some i), ⟨rfl, rfl, rfl, rfl⟩, rfl, Or.inl .noted⟩

/-- How the phase of the call `r` changes when it acts. -/
inductive Next (site : Site) (s t : State ι) (r : ι) : Phase → Phase → Prop where
  | begins {q : Phase} : Quiet q → Next site s t r .idle q
  | readsUser (goal : Goal) (credential : Option (Option Credential)) :
      Next site s t r (.reading goal none credential) (.reading goal (some s.user) credential)
  | readsCredential (goal : Goal) (user : Option (Option Stamp)) :
      Next site s t r (.reading goal user none) (.reading goal user (some s.credential))
  | resumes {goal : Goal} {user : Option Stamp} {credential : Option Credential} {q : Phase} : Quiet q →
      Next site s t r (.reading goal (some user) (some credential)) q
  | notes {user : Option Stamp} {credential : Option Credential} {inputs : EpochInputs} {old : Parsed} :
      inputsOf user credential = some inputs → Snapped site (s.request r) inputs old → inputs ∈ t.computed →
      Next site s t r (.reading .snapshot (some user) (some credential)) (.noted (some (old.device, inputs)))
  | starts (device : Device) (inputs : EpochInputs) : Next site s t r (.noted (some (device, inputs)))
      (.swapping device inputs (max s.now (inputs.userUpdatedAt + 1)))
  | bumps : Next site s t r (.noted none) (.bumping false s.now)
  | wins {device : Device} {inputs : EpochInputs} {next : ℤ} : s.user = some ⟨inputs.userUpdatedAt, 0⟩ →
      t.user = some ⟨next, 0⟩ → t.bumps = s.bumps + 1 →
      Next site s t r (.swapping device inputs next) (.won device inputs next)
  | loses {device : Device} {inputs : EpochInputs} {next : ℤ} : s.user ≠ some ⟨inputs.userUpdatedAt, 0⟩ →
      Next site s t r (.swapping device inputs next) (.lost inputs)
  | reissues {device : Device} {inputs : EpochInputs} {next : ℤ} : { inputs with userUpdatedAt := next } ∈ t.computed →
      Next site s t r (.won device inputs next)
        (.reissued (some (site.signed device { inputs with userUpdatedAt := next })))
  | fallsBack {inputs : EpochInputs} : s.user.map Stamp.ms = some inputs.userUpdatedAt →
      Next site s t r (.lost inputs) (.bumping true s.now)
  | overtakes {inputs : EpochInputs} : s.user.map Stamp.ms ≠ some inputs.userUpdatedAt →
      Next site s t r (.lost inputs) .overtaken
  | writes {fellBack : Bool} {date : ℤ} : t.bumps = s.bumps + 1 →
      Next site s t r (.bumping fellBack date) (.bumped fellBack)

/-- One call acts; the others, and the requests of all that have begun, stay as they are. -/
structure Acts (site : Site) (s t : State ι) (r : ι) : Prop where
  next : Next site s t r (s.phase r) (t.phase r)
  others : ∀ r', r' ≠ r → t.phase r' = s.phase r'
  requests : ∀ r', r' = r ∧ s.phase r = .idle ∨ t.request r' = s.request r'

theorem acts_of {site : Site} {s u : State ι} {r : ι} {p q : Phase} (before : s.phase r = p) (phases : u.phase = s.phase)
    (requests : ∀ r', r' = r ∧ p = .idle ∨ u.request r' = s.request r') (next : Next site s (u.toPhase r q) r p q) :
    Acts site s (u.toPhase r q) r where
  next := by
    rw [before, Calls.move_self]
    exact next
  others r' differs := by rw [Calls.move_other _ _ differs, phases]
  requests r' := by
    rw [before]
    exact requests r'

theorem step_next {site : Site} {s t : State ι} {e : Event ι} (taken : step site s e = some t) :
    (t.phase = s.phase ∧ t.request = s.request) ∨ ∃ r, Acts site s t r := by
  have same : ∀ {r : ι} {p : Phase} (r' : ι), r' = r ∧ p = .idle ∨ s.request r' = s.request r' := fun _ => Or.inr rfl
  unfold step at taken
  split at taken
  · rename_i r call cookie
    obtain ⟨idle, next⟩ := Option.ite_none_right_eq_some.mp taken
    obtain ⟨p, quiet, began⟩ := begun_quiet site ({ s with request := Function.update s.request r cookie } : State ι) r call
    obtain rfl := (began.symm.trans (Option.some.inj next)).symm
    refine Or.inr ⟨r, acts_of idle rfl ?_ (.begins quiet)⟩
    intro r'
    by_cases here : r' = r
    · exact Or.inl ⟨here, rfl⟩
    · exact Or.inr (Function.update_of_ne here ..)
  · split at taken
    · rename_i r _ goal credential reads
      obtain rfl := Option.some.inj taken
      exact Or.inr ⟨r, acts_of reads rfl same (.readsUser goal credential)⟩
    · cases taken
  · split at taken
    · rename_i r _ goal user reads
      obtain rfl := Option.some.inj taken
      exact Or.inr ⟨r, acts_of reads rfl same (.readsCredential goal user)⟩
    · cases taken
  · split at taken
    · rename_i r _ goal user credential reads
      obtain rfl := Option.some.inj taken
      obtain ⟨p, u, ⟨_, _, phases, requests⟩, next, cases⟩ := resumed_phase site s r (inputsOf user credential) goal
      rw [next]
      refine Or.inr ⟨r, acts_of reads phases (fun r' => Or.inr (by rw [requests])) ?_⟩
      rcases cases with quiet | ⟨rfl, old, i, read, snapped, computed, rfl⟩
      · exact .resumes quiet
      · exact .notes read snapped computed
    · cases taken
  · split at taken
    · rename_i r _ device inputs noted
      obtain rfl := Option.some.inj taken
      exact Or.inr ⟨r, acts_of noted rfl same (.starts device inputs)⟩
    · rename_i r _ noted
      obtain rfl := Option.some.inj taken
      exact Or.inr ⟨r, acts_of noted rfl same .bumps⟩
    · cases taken
  · split at taken
    · rename_i r _ device inputs next swapping
      split at taken
      · rename_i unmoved
        obtain rfl := Option.some.inj taken
        refine Or.inr ⟨r, acts_of swapping rfl same (.wins unmoved ?_ rfl)⟩
        change s.user.map _ = _
        rw [unmoved]
        rfl
      · rename_i moved
        obtain rfl := Option.some.inj taken
        exact Or.inr ⟨r, acts_of swapping rfl same (.loses moved)⟩
    · cases taken
  · split at taken
    · rename_i r _ device inputs next won
      obtain rfl := Option.some.inj taken
      rw [Site.write_some]
      exact Or.inr ⟨r, acts_of won rfl same (.reissues List.mem_cons_self)⟩
    · cases taken
  · split at taken
    · rename_i r _ inputs lost
      split at taken
      · rename_i unmoved
        obtain rfl := Option.some.inj taken
        exact Or.inr ⟨r, acts_of lost rfl same (.fallsBack unmoved)⟩
      · rename_i moved
        obtain rfl := Option.some.inj taken
        exact Or.inr ⟨r, acts_of lost rfl same (.overtakes moved)⟩
    · cases taken
  · split at taken
    · rename_i r _ fellBack date bumping
      obtain rfl := Option.some.inj taken
      exact Or.inr ⟨r, acts_of bumping rfl same (.writes rfl)⟩
    · cases taken
  · obtain rfl := Option.some.inj taken
    exact Or.inl ⟨rfl, rfl⟩
  · obtain rfl := Option.some.inj taken
    exact Or.inl ⟨rfl, rfl⟩

end Identity.KnownDevice
