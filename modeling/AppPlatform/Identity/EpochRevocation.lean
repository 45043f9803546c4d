import AppPlatform.Identity.KnownDeviceSteps
import AppPlatform.Lib.Run

/-!
# A bump ends the cookies before it

Nothing but the epoch ends a cookie, so a bump must move `updatedAt` to a value that no cookie is bound
to. Under that condition a cookie issued before a bump is never accepted after it.
-/

namespace Identity.KnownDevice
open Js
variable {ι : Type*} [DecidableEq ι]

/-- A write of `updatedAt` goes to a value to which no issued cookie is bound. -/
def Fresh (s : State ι) (e : Event ι) : Prop :=
  ∀ ms, Writes s e ms → ∀ i ∈ s.issued, i.inputs.userUpdatedAt ≠ ms

/-- The call judges an issued cookie by a row to which the cookie is bound. -/
def Stale (s : State ι) (r : ι) : Prop :=
  ∃ stamp, (s.phase r).stamp = some stamp ∧ ∃ i ∈ s.issued, s.request r = some i.cookie ∧
    i.inputs.userUpdatedAt = stamp.ms

section
variable {site : Site}

/-- The cookie was judged by inputs of another time than it is bound to, if it is one of `before`. -/
structure Judged (site : Site) (before : List Issued) (s : State ι) (raw : Text) (inputs : EpochInputs) : Prop where
  epoch : ∀ cookie, site.parsed (some raw) = some cookie → fingerprint site.config inputs = cookie.epoch
  parsed : (site.parsed (some raw)).isSome = true
  computed : inputs ∈ s.computed
  later : ∀ i ∈ before, i.cookie = raw → i.inputs.userUpdatedAt ≠ inputs.userUpdatedAt

/-- No row and no call shows a time that a cookie of `before` is bound to, but for calls that were stale in `base`,
and none of these cookies was judged by its own time since. -/
structure Dead (site : Site) (before : List Issued) (base s : State ι) : Prop where
  issued : ∀ i ∈ before, i ∈ s.issued
  user : ∀ i ∈ before, ∀ stamp, s.user = some stamp → i.inputs.userUpdatedAt ≠ stamp.ms
  reads : ∀ i ∈ before, ∀ r stamp, (s.phase r).stamp = some stamp → s.request r = some i.cookie →
    i.inputs.userUpdatedAt ≠ stamp.ms ∨ Stale base r
  accepted : ∃ later, s.accepted = later ++ base.accepted ∧ ∀ raw ∈ later, ∃ inputs, Judged site before s raw inputs

/-- No call that was stale when the bump took effect goes on. -/
def Undisturbed (base s : State ι) (e : Event ι) : Prop := Fresh s e ∧ ∀ r, e = .resume r → ¬ Stale base r

theorem step_dead {before : List Issued} {base s t : State ι} {e : Event ι} (dead : Dead site before base s)
    (ok : Undisturbed base s e) (taken : step site s e = some t) : Dead site before base t := by
  obtain ⟨fresh, notStale⟩ := ok
  have does := step_does taken
  obtain ⟨kept, computed⟩ := step_issued does
  refine ⟨fun i member => kept i (dead.issued i member), ?_, ?_, ?_⟩
  · intro i member stamp present
    rcases step_user does with ⟨same, _⟩ | ⟨ms, written, moved, _⟩
    · exact dead.user i member stamp (same ▸ present)
    · rw [moved, Option.map_eq_some_iff] at present
      obtain ⟨_, _, rfl⟩ := present
      exact fresh ms written i (dead.issued i member)
  · intro i member r stamp reads carried
    obtain ⟨read, same⟩ := step_stamp does reads
    rw [same] at carried
    rcases read with now | old
    · exact Or.inl (dead.user i member stamp now)
    · exact dead.reads i member r stamp old carried
  · obtain ⟨later, shape, judged⟩ := dead.accepted
    have still : ∀ raw ∈ later, ∃ inputs, Judged site before t raw inputs := by
      intro raw member
      obtain ⟨inputs, epoch, parsed, known, other⟩ := judged raw member
      exact ⟨inputs, epoch, parsed, computed inputs known, other⟩
    rcases step_accepted does with same | ⟨r, raw, resumes, grown, carried, cookie, inputs, stamp, parsed, epoch, known, reads, ms⟩
    · exact ⟨later, same.trans shape, still⟩
    · refine ⟨raw :: later, by rw [grown, shape, List.cons_append], List.forall_mem_cons.mpr ⟨?_, still⟩⟩
      refine ⟨inputs, fun _ same => epoch.trans (congrArg Parsed.epoch (Option.some.inj (parsed.symm.trans same))),
        by rw [parsed]; rfl, known, ?_⟩
      intro i member same
      rcases dead.reads i member r stamp reads (same ▸ carried) with differs | stale
      · rwa [ms] at differs
      · exact (notStale r resumes stale).elim

omit [DecidableEq ι] in
theorem Judged.other {before : List Issued} {s : State ι} {raw : Text} {inputs : EpochInputs}
    (judged : Judged site before s raw inputs) (collisionFree : CollisionFree site s.computed)
    (signed : ∀ i ∈ before, i = site.signed i.device i.inputs ∧ i.inputs ∈ s.computed) :
    ∀ i ∈ before, i.cookie ≠ raw := by
  intro i member same
  obtain ⟨shape, computed⟩ := signed i member
  obtain ⟨cookie, parsed⟩ := Option.isSome_iff_exists.mp judged.parsed
  have bound : cookie.epoch = fingerprint site.config i.inputs := by
    rw [← same, shape] at parsed
    exact site.signed_epoch parsed
  have inputsEq := collisionFree.eq judged.computed computed ((judged.epoch cookie parsed).trans bound)
  exact judged.later i member same (congrArg EpochInputs.userUpdatedAt inputsEq.symm)

end

/-! ### A call that bumps -/

/-- Since `updatedAt` was written `bumps₀` times, the call has seen the row of now, or the row was written again. -/
def Progress (bumps₀ : ℕ) (s : State ι) : Phase → Prop
  | .reading .snapshot (some (some stamp)) _ => s.user = some stamp ∨ bumps₀ < s.bumps
  | .noted (some (_, inputs)) => s.user.map Stamp.ms = some inputs.userUpdatedAt ∨ bumps₀ < s.bumps
  | .swapping _ inputs _ => s.user.map Stamp.ms = some inputs.userUpdatedAt ∨ bumps₀ < s.bumps
  | .lost inputs => s.user.map Stamp.ms = some inputs.userUpdatedAt ∨ bumps₀ < s.bumps
  | .won .. => bumps₀ < s.bumps
  | .bumped _ => bumps₀ < s.bumps
  | .reissued _ => bumps₀ < s.bumps
  | .overtaken => bumps₀ < s.bumps
  | _ => True

omit [DecidableEq ι] in
theorem Quiet.progress {p : Phase} (quiet : Quiet p) (bumps₀ : ℕ) (s : State ι) : Progress bumps₀ s p := by
  cases quiet with
  | reads goal => cases goal <;> trivial
  | checked => trivial
  | minted => trivial
  | noted => trivial

omit [DecidableEq ι] in
theorem Progress.written {bumps₀ : ℕ} {t : State ι} {p : Phase} (later : bumps₀ < t.bumps) : Progress bumps₀ t p := by
  unfold Progress
  split <;> first | exact later | exact Or.inr later | trivial

omit [DecidableEq ι] in
theorem Progress.congr {bumps₀ : ℕ} {s t : State ι} {p : Phase} (user : t.user = s.user) (bumps : t.bumps = s.bumps)
    (progress : Progress bumps₀ s p) : Progress bumps₀ t p := by
  unfold Progress at progress ⊢
  rw [user, bumps]
  exact progress

/-- The call `r` is on its way to a bump. -/
def Tracks (bumps₀ : ℕ) (r : ι) (s : State ι) : Prop := bumps₀ ≤ s.bumps ∧ Progress bumps₀ s (s.phase r)

theorem tracks_elsewhere {site : Site} {bumps₀ : ℕ} {r : ι} {s t : State ι} {e : Event ι} (tracks : Tracks bumps₀ r s)
    (taken : step site s e = some t) (same : t.phase r = s.phase r) : Tracks bumps₀ r t := by
  obtain ⟨after, progress⟩ := tracks
  unfold Tracks
  rw [same]
  rcases step_user (step_does taken) with ⟨user, bumps⟩ | ⟨ms, _, _, bumps⟩
  · exact ⟨by omega, progress.congr user bumps⟩
  · have later : bumps₀ < t.bumps := by omega
    exact ⟨by omega, .written later⟩

theorem step_tracks {site : Site} {bumps₀ : ℕ} {r : ι} {s t : State ι} {e : Event ι} (tracks : Tracks bumps₀ r s)
    (taken : step site s e = some t) : Tracks bumps₀ r t := by
  rcases step_next taken with ⟨phases, _⟩ | ⟨a, next, others, _⟩
  · exact tracks_elsewhere tracks taken (by rw [phases])
  · by_cases same : r = a
    · subst same
      obtain ⟨after, progress⟩ := tracks
      have user := step_user (step_does taken)
      have grows : s.bumps ≤ t.bumps := by
        rcases user with ⟨_, bumps⟩ | ⟨_, _, _, bumps⟩ <;> omega
      refine ⟨by omega, ?_⟩
      by_cases more : bumps₀ < t.bumps
      · exact .written more
      · have kept : t.user = s.user ∧ t.bumps = s.bumps := by
          rcases user with kept | ⟨_, _, _, bumps⟩
          · exact kept
          · omega
        apply Progress.congr kept.1 kept.2
        generalize s.phase r = p at next progress
        generalize t.phase r = q at next
        cases next with
        | begins quiet => exact quiet.progress bumps₀ s
        | readsUser goal credential =>
          cases goal with
          | snapshot =>
            cases present : s.user with
            | none => trivial
            | some stamp => exact Or.inl present
          | _ => trivial
        | readsCredential goal user =>
          cases goal with
          | snapshot =>
            rcases user with _ | (_ | stamp)
            · trivial
            · trivial
            · exact progress
          | _ => trivial
        | resumes quiet => exact quiet.progress bumps₀ s
        | notes read =>
          obtain ⟨stamp, rfl, ms⟩ := inputsOf_some read
          rcases progress with now | later
          · exact Or.inl (by rw [now, Option.map_some, ms])
          · exact Or.inr later
        | starts => exact progress
        | bumps => trivial
        | wins => exact (more (by omega)).elim
        | loses => exact progress
        | reissues => exact progress
        | fallsBack => trivial
        | overtakes moved => exact progress.resolve_left moved
        | writes => exact (more (by omega)).elim
    · exact tracks_elsewhere tracks taken (others r same)

def Completed : Phase → Prop
  | .bumped _ => True
  | .reissued _ => True
  | .overtaken => True
  | _ => False

/-- What holds of the cookies of `s` once the row was written. -/
structure Moved (s u : State ι) : Prop where
  issued : ∀ i ∈ s.issued, i ∈ u.issued
  later : s.bumps ≤ u.bumps
  user : s.bumps < u.bumps → ∀ i ∈ s.issued, ∀ stamp, u.user = some stamp → i.inputs.userUpdatedAt ≠ stamp.ms

theorem step_moved {site : Site} {s u t : State ι} {e : Event ι} (moved : Moved s u) (fresh : Fresh u e)
    (taken : step site u e = some t) : Moved s t := by
  have does := step_does taken
  have issued := fun i member => (step_issued does).1 i (moved.issued i member)
  have later := moved.later
  rcases step_user does with ⟨user, bumps⟩ | ⟨ms, written, user, bumps⟩
  · refine ⟨issued, by omega, ?_⟩
    intro more i member stamp present
    rw [user] at present
    exact moved.user (by omega) i member stamp present
  · refine ⟨issued, by omega, ?_⟩
    intro _ i member stamp present
    rw [user, Option.map_eq_some_iff] at present
    obtain ⟨_, _, rfl⟩ := present
    exact fresh ms written i (moved.issued i member)

/-- A call that began after `s` and has completed saw a bump, its own or another. -/
theorem completed_bumps {site : Site} {s t : State ι} {es : List (Event ι)} {ok : State ι → Event ι → Prop}
    (run : Runs.Run (step site) ok s es t) {r : ι} (idle : s.phase r = .idle) (completed : Completed (t.phase r)) :
    s.bumps < t.bumps := by
  have start : Tracks s.bumps r s := by
    refine ⟨le_refl _, ?_⟩
    rw [idle]
    trivial
  obtain ⟨_, progress⟩ := run.invariant (fun tracks _ taken => step_tracks tracks taken) start
  revert progress completed
  cases t.phase r with
  | bumped => exact fun _ progress => progress
  | reissued => exact fun _ progress => progress
  | overtaken => exact fun _ progress => progress
  | _ => exact fun completed _ => completed.elim

/-- Once `updatedAt` was written after `s`, or a call to a bump that began after `s` has completed, no cookie issued
before `s` is accepted. -/
theorem bump_revokes {site : Site} {s₀ s t u : State ι} {es es' es'' : List (Event ι)} (start : Consistent site s₀)
    (before : Runs.Run (step site) (fun _ _ => True) s₀ es s) (during : Runs.Run (step site) Fresh s es' t)
    (bumped : s.bumps < t.bumps ∨ ∃ r, s.phase r = .idle ∧ Completed (t.phase r))
    (after : Runs.Run (step site) (Undisturbed t) t es'' u) (collisionFree : CollisionFree site u.computed) :
    ∃ later, u.accepted = later ++ t.accepted ∧ ∀ i ∈ s.issued, i.cookie ∉ later := by
  have consistent : Consistent site u :=
    ((before.append (during.mono fun _ _ _ => trivial)).append (after.mono fun _ _ _ => trivial)).invariant
      (fun consistent _ taken => step_consistent (step_does taken) consistent) start
  have more : s.bumps < t.bumps := by
    rcases bumped with more | ⟨r, idle, completed⟩
    · exact more
    · exact completed_bumps during idle completed
  have moved : Moved s t :=
    during.invariant step_moved ⟨fun _ member => member, le_refl _, fun impossible => (lt_irrefl _ impossible).elim⟩
  have dead : Dead site s.issued t t := by
    refine ⟨moved.issued, moved.user more, ?_, [], rfl, fun _ none => absurd none List.not_mem_nil⟩
    intro i member r stamp reads carried
    by_cases same : i.inputs.userUpdatedAt = stamp.ms
    · exact Or.inr ⟨stamp, reads, i, moved.issued i member, carried, same⟩
    · exact Or.inl same
  obtain ⟨issued, _, _, later, shape, judged⟩ := after.invariant step_dead dead
  refine ⟨later, shape, ?_⟩
  intro i member accepted
  obtain ⟨inputs, judged⟩ := judged i.cookie accepted
  exact judged.other collisionFree (fun i member => consistent i (issued i member)) i member rfl

open Sample DeviceCookie.Sample

def laptopParsed : Parsed := ⟨userId, laptop, 1700000000, fingerprint site.config (inputsAt 1700000000000)⟩

theorem parsed_laptop : site.parsed (some (cookieOf laptop).cookie) = some laptopParsed := parsed_cookieOf (by decide)

/-- The bump writes the time the row already has: the cookie issued before it is accepted after it. -/
theorem same_millisecond_revives : ¬ ∀ (site : Site) (s₀ s t u : State ℕ) (es es' es'' : List (Event ℕ)),
    Consistent site s₀ → Runs.Run (step site) (fun _ _ => True) s₀ es s →
    Runs.Run (step site) (fun _ _ => True) s es' t → (∃ r, s.phase r = .idle ∧ Completed (t.phase r)) →
    Runs.Run (step site) (fun _ e => ∀ r, e = .resume r → t.phase r = .idle) t es'' u → CollisionFree site u.computed →
    ∃ later, u.accepted = later ++ t.accepted ∧ ∀ i ∈ s.issued, i.cookie ∉ later := by
  intro revokes
  have own : (some laptopParsed).filter (site.inEpoch (some (inputsAt 1700000000000))) = some laptopParsed := by
    rw [Option.filter_some, laptopParsed, Site.inEpoch_own, if_pos rfl]
  have run : ∃ s t u : State ℕ, Runs.Run (step site) (fun _ _ => True) updatedNow
        [.begin 1 (.remember laptop) none, .readUser 1, .readCredential 1, .resume 1] s ∧
      Runs.Run (step site) (fun _ _ => True) s [.begin 2 .revokeAll none, .bump 2, .write 2] t ∧
      Runs.Run (step site) (fun _ e => ∀ r, e = .resume r → t.phase r = .idle) t
        [.begin 3 .check (some (cookieOf laptop).cookie), .readUser 3, .readCredential 3, .resume 3] u ∧
      s.phase 2 = .idle ∧ t.phase 2 = .bumped false ∧
      s.issued = (site.write ⟨laptop, 1700000000⟩ (some (inputsAt 1700000000000))).toList ++ [] ∧ t.accepted = [] ∧
      u.accepted = [(cookieOf laptop).cookie] ∧ u.computed = [inputsAt 1700000000000, inputsAt 1700000000000] := by
    refine ⟨_, _, _, .cons trivial rfl (.cons trivial rfl (.cons trivial rfl (.cons trivial rfl (.nil _)))),
      .cons trivial rfl (.cons trivial rfl (.cons trivial rfl (.nil _))),
      .cons nofun (step_begin_check rfl parsed_laptop (by decide)) (.cons nofun rfl (.cons nofun rfl (.cons ?_
        (step_resume_check rfl rfl rfl parsed_laptop own) (.nil _)))), rfl, rfl, rfl, rfl, rfl, rfl⟩
    rintro r same
    cases same
    rfl
  obtain ⟨s, t, u, before, during, after, idle, bumped, issued, none, accepted, computed⟩ := run
  rw [Site.write_some] at issued
  have apart : CollisionFree site u.computed := collisionFree (by simp [computed])
  obtain ⟨later, shape, without⟩ := revokes site updatedNow s t u _ _ _ (fun _ none => nomatch none) before during
    ⟨2, idle, by rw [bumped]; trivial⟩ after apart
  rw [none, accepted, List.append_nil] at shape
  exact without (cookieOf laptop) (by rw [issued]; exact List.mem_singleton.mpr rfl) (shape ▸ List.mem_singleton.mpr rfl)

/-- The same calls, with the bump a second after the sign-in. -/
theorem bump_revokes_later : ∃ s t u : State ℕ, s.issued = [cookieOf laptop] ∧ t.phase 2 = .bumped false ∧
    u.phase 3 = .checked none ∧ ∃ later, u.accepted = later ++ t.accepted ∧ ∀ i ∈ s.issued, i.cookie ∉ later := by
  have moved : (some laptopParsed).filter (site.inEpoch (some (inputsAt 1700000001000))) = none := by decide +kernel
  have run : ∃ s t u : State ℕ, Runs.Run (step site) (fun _ _ => True) updatedNow
        [.begin 1 (.remember laptop) none, .readUser 1, .readCredential 1, .resume 1] s ∧
      Runs.Run (step site) Fresh s [.tick 1000, .begin 2 .revokeAll none, .bump 2, .write 2] t ∧
      Runs.Run (step site) (Undisturbed t) t
        [.begin 3 .check (some (cookieOf laptop).cookie), .readUser 3, .readCredential 3, .resume 3] u ∧
      s.issued = (site.write ⟨laptop, 1700000000⟩ (some (inputsAt 1700000000000))).toList ++ [] ∧ s.phase 2 = .idle ∧
      t.phase 2 = .bumped false ∧ u.phase 3 = .checked none ∧
      u.computed = [inputsAt 1700000001000, inputsAt 1700000000000] := by
    refine ⟨_, _, _, .cons trivial rfl (.cons trivial rfl (.cons trivial rfl (.cons trivial rfl (.nil _)))),
      .cons nofun rfl (.cons nofun rfl (.cons nofun rfl (.cons ?_ rfl (.nil _)))),
      .cons ⟨nofun, nofun⟩ (step_begin_check rfl parsed_laptop (by decide)) (.cons ⟨nofun, nofun⟩ rfl
        (.cons ⟨nofun, nofun⟩ rfl (.cons ⟨nofun, ?_⟩
          (step_resume_check rfl rfl rfl parsed_laptop moved) (.nil _)))), rfl, rfl, rfl, rfl, rfl⟩
    · rintro ms (bumping | _) i member same
      cases bumping
      change i ∈ (site.write ⟨laptop, 1700000000⟩ (some (inputsAt 1700000000000))).toList ++ [] at member
      rw [Site.write_some] at member
      obtain rfl := List.mem_singleton.mp member
      exact absurd same (by decide)
    · rintro r same ⟨stamp, reads, _⟩
      cases same
      cases reads
  have start : Consistent site updatedNow := fun _ none => nomatch none
  obtain ⟨s, t, u, before, during, after, issued, idle, bumped, rejected, computed⟩ := run
  rw [Site.write_some] at issued
  exact ⟨s, t, u, issued, bumped, rejected, bump_revokes start before during
    (Or.inr ⟨2, idle, by rw [bumped]; trivial⟩) after (collisionFree (by simp [computed]))⟩

end Identity.KnownDevice
