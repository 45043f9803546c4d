import AppPlatform.Identity.KnownDeviceSteps
import AppPlatform.Lib.Run

/-!
# Devices that sign out the others at once

Each such call compares and sets `updatedAt` from the time its snapshot shows. When every other bump
moves `updatedAt` forward, a call wins only over the row it has seen, and its cookie is the last.
-/

namespace Identity.KnownDevice
open Js
variable {ι : Type*}

/-- The other bumps move `updatedAt` past its current value. -/
def Forward (s : State ι) : Event ι → Prop
  | .write r => ∀ date stamp, s.phase r = .bumping false date → s.user = some stamp → stamp.ms < date
  | _ => True

/-- No call has begun, and the row holds whole milliseconds. -/
structure Start (s : State ι) : Prop where
  idle : ∀ r, s.phase r = .idle
  precise : ∀ stamp, s.user = some stamp → stamp.micro = 0

/-- The row shows this time or a later one. -/
def Reached (s : State ι) (ms : ℤ) : Prop := ∀ stamp, s.user = some stamp → ms ≤ stamp.ms

/-- The row shows a later time. -/
def Passed (s : State ι) (ms : ℤ) : Prop := ∀ stamp, s.user = some stamp → ms < stamp.ms

/-- The request of the call carries a cookie of this device that was valid by the snapshot. -/
def Shown (site : Site) (s : State ι) (request : Option Text) (device : Device) (inputs : EpochInputs) : Prop :=
  inputs ∈ s.computed ∧ ∃ old, Snapped site request inputs old ∧ old.device = device

/-- The cookie of a call that won. -/
def Site.renewed (site : Site) (device : Device) (inputs : EpochInputs) (next : ℤ) : Issued :=
  site.signed device { inputs with userUpdatedAt := next }

/-- What holds of a call, by its phase. -/
def Sound (site : Site) (s : State ι) (request : Option Text) : Phase → Prop
  | .reading .snapshot (some (some stamp)) _ => Reached s stamp.ms
  | .noted (some (device, inputs)) => Shown site s request device inputs ∧ Reached s inputs.userUpdatedAt
  | .swapping device inputs next => Shown site s request device inputs ∧ Reached s inputs.userUpdatedAt ∧
      inputs.userUpdatedAt < next
  | .won device inputs next => Shown site s request device inputs ∧ inputs.userUpdatedAt < next ∧ Reached s next
  | .lost inputs => (∃ device, Shown site s request device inputs) ∧ Passed s inputs.userUpdatedAt
  | .bumping true _ => False
  | .bumped true => False
  | .reissued written => ∃ device inputs next, Shown site s request device inputs ∧
      written = some (site.renewed device inputs next) ∧ (site.renewed device inputs next).inputs ∈ s.computed ∧
      inputs.userUpdatedAt < next ∧ Reached s next
  | .overtaken => ∃ device inputs, Shown site s request device inputs ∧ Passed s inputs.userUpdatedAt
  | _ => True

/-- The call has moved the row to this time and has, or will have, a cookie for it. -/
inductive Mints : Phase → ℤ → Prop where
  | won (device : Device) (inputs : EpochInputs) (next : ℤ) : Mints (.won device inputs next) next
  | reissued (written : Issued) : Mints (.reissued (some written)) written.inputs.userUpdatedAt

structure Safe (site : Site) (s : State ι) : Prop where
  precise : ∀ stamp, s.user = some stamp → stamp.micro = 0
  calls : ∀ r, Sound site s (s.request r) (s.phase r)
  minted : ∀ r next, Mints (s.phase r) next → Reached s next
  once : ∀ r r' next, Mints (s.phase r) next → Mints (s.phase r') next → r = r'

theorem Quiet.sound {p : Phase} (quiet : Quiet p) (site : Site) (s : State ι) (request : Option Text) :
    Sound site s request p := by
  cases quiet with
  | reads goal => cases goal <;> trivial
  | checked => trivial
  | minted => trivial
  | noted => trivial

theorem Quiet.mints_not {p : Phase} {next : ℤ} (quiet : Quiet p) : ¬ Mints p next := by
  intro mints
  cases quiet <;> cases mints

theorem start_safe {site : Site} {s : State ι} (start : Start s) : Safe site s where
  precise := start.precise
  calls r := by
    rw [start.idle r]
    trivial
  minted r next mints := by
    rw [start.idle r] at mints
    cases mints
  once r r' next mints := by
    rw [start.idle r] at mints
    cases mints

/-! ### The row moves forward -/

/-- The row stays, or a whole millisecond past its value is written; an epoch that was computed stays so. -/
structure Grows (s t : State ι) : Prop where
  precise : (∀ stamp, s.user = some stamp → stamp.micro = 0) → ∀ stamp, t.user = some stamp → stamp.micro = 0
  forward : ∀ stamp, t.user = some stamp → ∃ before, s.user = some before ∧ before.ms ≤ stamp.ms
  computed : ∀ inputs ∈ s.computed, inputs ∈ t.computed

theorem Reached.grows {s t : State ι} {ms : ℤ} (reached : Reached s ms) (grows : Grows s t) : Reached t ms := by
  intro stamp present
  obtain ⟨before, was, earlier⟩ := grows.forward stamp present
  have bound := reached before was
  omega

theorem Passed.grows {s t : State ι} {ms : ℤ} (passed : Passed s ms) (grows : Grows s t) : Passed t ms := by
  intro stamp present
  obtain ⟨before, was, earlier⟩ := grows.forward stamp present
  have bound := passed before was
  omega

theorem Shown.grows {site : Site} {s t : State ι} {request : Option Text} {device : Device} {inputs : EpochInputs}
    (shown : Shown site s request device inputs) (grows : Grows s t) : Shown site t request device inputs :=
  ⟨grows.computed inputs shown.1, shown.2⟩

theorem Sound.grows {site : Site} {s t : State ι} {request : Option Text} {p : Phase} (sound : Sound site s request p)
    (grows : Grows s t) : Sound site t request p := by
  unfold Sound at sound ⊢
  split at sound
  · exact sound.grows grows
  · exact ⟨sound.1.grows grows, sound.2.grows grows⟩
  · exact ⟨sound.1.grows grows, sound.2.1.grows grows, sound.2.2⟩
  · exact ⟨sound.1.grows grows, sound.2.1, sound.2.2.grows grows⟩
  · obtain ⟨⟨device, shown⟩, passed⟩ := sound
    exact ⟨⟨device, shown.grows grows⟩, passed.grows grows⟩
  · exact sound
  · exact sound
  · obtain ⟨device, inputs, next, shown, cookie, computed, later, reached⟩ := sound
    exact ⟨device, inputs, next, shown.grows grows, cookie, grows.computed _ computed, later, reached.grows grows⟩
  · obtain ⟨device, inputs, shown, passed⟩ := sound
    exact ⟨device, inputs, shown.grows grows, passed.grows grows⟩
  · trivial

theorem step_grows [DecidableEq ι] {site : Site} {s t : State ι} {e : Event ι} (safe : Safe site s) (forward : Forward s e)
    (taken : step site s e = some t) : Grows s t := by
  have computed := (step_issued (step_does taken)).2
  rcases step_user (step_does taken) with ⟨same, _⟩ | ⟨ms, written, moved, _⟩
  · refine ⟨fun precise stamp present => precise stamp (same ▸ present), ?_, computed⟩
    intro stamp present
    exact ⟨stamp, same ▸ present, le_refl _⟩
  · have past : ∀ before, s.user = some before → before.ms ≤ ms := by
      intro before was
      cases written with
      | @write r fellBack _ bumping =>
        cases fellBack with
        | true =>
          have sound := safe.calls r
          rw [bumping] at sound
          exact sound.elim
        | false =>
          have later := forward ms before bumping was
          omega
      | @swap r device inputs _ swapping unmoved =>
        have sound := safe.calls r
        rw [swapping] at sound
        obtain ⟨_, _, later⟩ := sound
        obtain rfl := Option.some.inj (was.symm.trans unmoved)
        exact le_of_lt later
    refine ⟨?_, ?_, computed⟩
    · intro _ stamp present
      rw [moved, Option.map_eq_some_iff] at present
      obtain ⟨_, _, rfl⟩ := present
      rfl
    · intro stamp present
      rw [moved, Option.map_eq_some_iff] at present
      obtain ⟨before, was, rfl⟩ := present
      exact ⟨before, was, past before was⟩

/-! ### The calls -/

/-- A snapshot that the row does not show any more was passed. -/
theorem passed_of_moved {s : State ι} {ms : ℤ} (precise : ∀ stamp, s.user = some stamp → stamp.micro = 0)
    (reached : Reached s ms) (moved : s.user ≠ some ⟨ms, 0⟩) : Passed s ms := by
  rintro ⟨now, micro⟩ present
  have bound := reached _ present
  have whole := precise _ present
  simp only at bound whole
  subst whole
  rcases lt_or_eq_of_le bound with later | same
  · exact later
  · subst same
    exact (moved present).elim

theorem next_sound {site : Site} {s t : State ι} {r : ι} {p q : Phase} (safe : Safe site s) (grows : Grows s t)
    (next : Next site s t r p q) (sound : Sound site s (s.request r) p) (request : p = .idle ∨ t.request r = s.request r) :
    Sound site t (t.request r) q := by
  have kept : p ≠ .idle → t.request r = s.request r := fun busy => request.resolve_left busy
  cases next with
  | begins quiet => exact quiet.sound site t _
  | readsUser goal credential =>
    cases goal with
    | snapshot =>
      cases present : s.user with
      | none => trivial
      | some stamp =>
        apply Reached.grows _ grows
        intro stamp' same
        rw [present] at same
        exact (Option.some.inj same) ▸ le_refl _
    | _ => trivial
  | readsCredential goal user =>
    cases goal with
    | snapshot =>
      rcases user with _ | (_ | stamp)
      · trivial
      · trivial
      · exact Reached.grows sound grows
    | _ => trivial
  | resumes quiet => exact quiet.sound site t _
  | notes read snapped computed =>
    rw [kept nofun]
    obtain ⟨stamp, rfl, ms⟩ := inputsOf_some read
    refine ⟨⟨computed, _, snapped, rfl⟩, ?_⟩
    rw [← ms]
    exact Reached.grows sound grows
  | starts device inputs =>
    rw [kept nofun]
    exact ⟨sound.1.grows grows, sound.2.grows grows, by omega⟩
  | bumps => trivial
  | wins _ written _ =>
    rw [kept nofun]
    refine ⟨sound.1.grows grows, sound.2.2, ?_⟩
    intro stamp present
    obtain rfl := Option.some.inj (present.symm.trans written)
    exact le_refl _
  | loses moved =>
    rw [kept nofun]
    obtain ⟨shown, reached, _⟩ := sound
    exact ⟨⟨_, shown.grows grows⟩, (passed_of_moved safe.precise reached moved).grows grows⟩
  | @reissues device inputs next computed =>
    rw [kept nofun]
    obtain ⟨shown, later, reached⟩ := sound
    exact ⟨device, inputs, next, shown.grows grows, rfl, computed, later, reached.grows grows⟩
  | fallsBack unmoved =>
    obtain ⟨stamp, present, same⟩ := Option.map_eq_some_iff.mp unmoved
    have later := sound.2 stamp present
    omega
  | overtakes =>
    rw [kept nofun]
    obtain ⟨⟨device, shown⟩, passed⟩ := sound
    exact ⟨device, _, shown.grows grows, passed.grows grows⟩
  | @writes fellBack _ _ =>
    cases fellBack with
    | true => exact sound.elim
    | false => trivial

/-- A call mints for a time it has minted for before, or wins the row for a time past every other. -/
theorem next_mints {site : Site} {s t : State ι} {r : ι} {p q : Phase} {next : ℤ}
    (step : Next site s t r p q) (sound : Sound site s (s.request r) p) (mints : Mints q next) :
    Mints p next ∨ t.user = some ⟨next, 0⟩ ∧ ∀ ms, Reached s ms → ms < next := by
  cases step with
  | begins quiet => exact (quiet.mints_not mints).elim
  | resumes quiet => exact (quiet.mints_not mints).elim
  | wins unmoved written _ =>
    right
    cases mints
    refine ⟨written, ?_⟩
    intro ms reached
    have bound := reached _ unmoved
    have later := sound.2.2
    simp only at bound
    omega
  | reissues computed =>
    cases mints
    exact Or.inl (.won _ _ _)
  | _ => cases mints

theorem step_safe [DecidableEq ι] {site : Site} {s t : State ι} {e : Event ι} (safe : Safe site s)
    (forward : Forward s e) (taken : step site s e = some t) : Safe site t := by
  have grows := step_grows safe forward taken
  rcases step_next taken with ⟨phases, requests⟩ | ⟨a, next, others, requests⟩
  · refine ⟨grows.precise safe.precise, ?_, ?_, ?_⟩
    · intro r
      rw [phases, requests]
      exact (safe.calls r).grows grows
    · intro r next mints
      rw [phases] at mints
      exact (safe.minted r next mints).grows grows
    · intro r r' next mints mints'
      rw [phases] at mints mints'
      exact safe.once r r' next mints mints'
  · have minted : ∀ r next, Mints (t.phase r) next → Mints (s.phase r) next ∨
        r = a ∧ t.user = some ⟨next, 0⟩ ∧ ∀ ms, Reached s ms → ms < next := by
      intro r ms mints
      by_cases same : r = a
      · subst same
        rcases next_mints next (safe.calls r) mints with old | new
        · exact Or.inl old
        · exact Or.inr ⟨rfl, new⟩
      · rw [others r same] at mints
        exact Or.inl mints
    refine ⟨grows.precise safe.precise, ?_, ?_, ?_⟩
    · intro r
      by_cases same : r = a
      · subst same
        refine next_sound safe grows next (safe.calls r) ?_
        rcases requests r with ⟨_, idle⟩ | kept
        · exact Or.inl idle
        · exact Or.inr kept
      · have kept := (requests r).resolve_left fun here => same here.1
        rw [others r same, kept]
        exact (safe.calls r).grows grows
    · intro r ms mints
      rcases minted r ms mints with old | ⟨_, written, _⟩
      · exact (safe.minted r ms old).grows grows
      · intro stamp present
        obtain rfl := Option.some.inj (present.symm.trans written)
        exact le_refl _
    · intro r r' ms mints mints'
      rcases minted r ms mints with old | ⟨rfl, _, past⟩
      · rcases minted r' ms mints' with old' | ⟨rfl, _, past⟩
        · exact safe.once r r' ms old old'
        · exact absurd (past ms (safe.minted r ms old)) (lt_irrefl ms)
      · rcases minted r' ms mints' with old' | ⟨same, _, _⟩
        · exact absurd (past ms (safe.minted r' ms old')) (lt_irrefl ms)
        · exact same.symm

/-! ### The end of the race -/

def State.inputs (s : State ι) : Option EpochInputs := inputsOf s.user s.credential

/-- The cookie is valid under the epoch of now. -/
def Valid (site : Site) (s : State ι) (raw : Text) : Prop :=
  ∃ cookie, site.parsed (some raw) = some cookie ∧ site.inEpoch s.inputs cookie = true

/-- A call with a cookie that was valid by its snapshot, and that has completed. -/
def Raced : Phase → Prop
  | .reissued _ => True
  | .overtaken => True
  | .bumped fellBack => fellBack = true
  | _ => False

/-- The cookie the browser of the call has in the end: the new one, or else the one it came with. -/
def holds (s : State ι) (r : ι) : Option Text :=
  match s.phase r with
  | .reissued (some written) => some written.cookie
  | _ => s.request r

/-- The HMAC tells the epochs of the run apart, with the one of now. -/
def Distinguished (site : Site) (s : State ι) : Prop := CollisionFree site (s.inputs.toList ++ s.computed)

theorem valid_time {site : Site} {s : State ι} (distinguished : Distinguished site s) {raw : Text} {cookie : Parsed}
    {inputs : EpochInputs} (parsed : site.parsed (some raw) = some cookie) (computed : inputs ∈ s.computed)
    (epoch : fingerprint site.config inputs = cookie.epoch) (valid : Valid site s raw) :
    ∃ stamp, s.user = some stamp ∧ stamp.ms = inputs.userUpdatedAt := by
  obtain ⟨cookie', parsed', current⟩ := valid
  obtain rfl := Option.some.inj (parsed.symm.trans parsed')
  obtain ⟨inputs', read, same⟩ := (inEpoch_iff parsed).mp current
  obtain rfl := distinguished.eq (by simp [read]) (List.mem_append_right _ computed) (same.trans epoch.symm)
  exact inputsOf_some read

/-- The cookie a racing call came with is dead in the end. -/
theorem old_dead {site : Site} {s : State ι} (distinguished : Distinguished site s) (safe : Safe site s) {r : ι}
    (raced : Raced (s.phase r)) {old : Text} (carried : s.request r = some old) : ¬ Valid site s old := by
  intro valid
  have passed : ∃ device inputs, Shown site s (s.request r) device inputs ∧ Passed s inputs.userUpdatedAt := by
    have sound := safe.calls r
    generalize s.phase r = p at raced sound
    cases p with
    | reissued written =>
      obtain ⟨device, inputs, next, shown, _, _, later, reached⟩ := sound
      refine ⟨device, inputs, shown, ?_⟩
      intro stamp present
      have bound := reached stamp present
      omega
    | overtaken => exact sound
    | bumped fellBack =>
      obtain rfl : fellBack = true := raced
      exact sound.elim
    | _ => exact raced.elim
  obtain ⟨device, inputs, ⟨computed, cookie, snapped, _⟩, passed⟩ := passed
  have parsed := snapped.parsed
  rw [carried] at parsed
  obtain ⟨stamp, present, same⟩ := valid_time distinguished parsed computed snapped.epoch valid
  have later := passed stamp present
  omega

/-- A racing call that holds a valid cookie holds the one it was issued, for the time the row shows. -/
theorem held_valid {site : Site} {s : State ι} (distinguished : Distinguished site s) (safe : Safe site s) {r : ι}
    (raced : Raced (s.phase r)) {raw : Text} (held : holds s r = some raw) (valid : Valid site s raw) :
    ∃ stamp, s.user = some stamp ∧ Mints (s.phase r) stamp.ms := by
  have sound := safe.calls r
  unfold holds at held
  split at held
  · rename_i issued phase
    obtain rfl := Option.some.inj held
    rw [phase] at sound
    obtain ⟨device, inputs, next, _, same, computed, _⟩ := sound
    obtain rfl := Option.some.inj same
    have ⟨cookie, parsed, _⟩ := valid
    obtain ⟨stamp, present, same⟩ := valid_time distinguished parsed computed (site.signed_epoch parsed).symm valid
    refine ⟨stamp, present, ?_⟩
    rw [phase, same]
    exact .reissued _
  · exact (old_dead distinguished safe raced held valid).elim

/-- The new cookie of a call is the old one with another epoch. -/
structure Renews (site : Site) (request : Option Text) (written : Issued) (old : Parsed) : Prop where
  carried : site.parsed request = some old
  own : old.userId = site.userId
  signed : written = site.signed old.device written.inputs
  parsed : ∀ new, site.parsed (some written.cookie) = some new → new.userId = old.userId ∧ new.device = old.device

theorem Snapped.renews {site : Site} {request : Option Text} {inputs : EpochInputs} {old : Parsed}
    (snapped : Snapped site request inputs old) (next : ℤ) : Renews site request (site.renewed old.device inputs next) old where
  carried := snapped.parsed
  own := snapped.userId
  signed := rfl
  parsed new parsed := by
    obtain ⟨_, _, carried⟩ := parsed_raw snapped.parsed
    rw [snapped.userId]
    have wrote := site.writes_signed old.device { inputs with userUpdatedAt := next }
    exact DeviceCookie.parsed_device site.hmac (DeviceCookie.parsed_plain site.hmac carried) wrote parsed

/-- Of the devices that sign out the others at once, at most one ends with a valid cookie, none with the cookie it
came with, and a new cookie keeps the device and the time of issue. -/
theorem one_device_remembered [DecidableEq ι] {site : Site} {s₀ s : State ι} {es : List (Event ι)} (start : Start s₀)
    (run : Runs.Run (step site) Forward s₀ es s) (distinguished : Distinguished site s) :
    (∀ r r' raw raw', Raced (s.phase r) → Raced (s.phase r') → holds s r = some raw → holds s r' = some raw' →
      Valid site s raw → Valid site s raw' → r = r') ∧
    (∀ r old, Raced (s.phase r) → s.request r = some old → ¬ Valid site s old) ∧
    ∀ r written, s.phase r = .reissued written → ∃ new old, written = some new ∧ Renews site (s.request r) new old := by
  have safe : Safe site s := run.invariant (fun safe forward taken => step_safe safe forward taken) (start_safe start)
  refine ⟨?_, fun r old raced carried => old_dead distinguished safe raced carried, ?_⟩
  · intro r r' raw raw' raced raced' held held' valid valid'
    obtain ⟨stamp, present, mints⟩ := held_valid distinguished safe raced held valid
    obtain ⟨stamp', present', mints'⟩ := held_valid distinguished safe raced' held' valid'
    obtain rfl := Option.some.inj (present.symm.trans present')
    exact safe.once r r' stamp.ms mints mints'
  · intro r written reissued
    have sound := safe.calls r
    rw [reissued] at sound
    obtain ⟨_, inputs, next, ⟨_, old, snapped, rfl⟩, rfl, _⟩ := sound
    exact ⟨_, old, rfl, snapped.renews next⟩

open Sample DeviceCookie.Sample

/-- Both take their snapshot, the laptop wins and the phone is overtaken. -/
theorem one_of_two_remembered : ∃ s : State ℕ,
    s.phase 1 = .reissued (site.write ⟨laptop, 1700000000⟩ (some (inputsAt 1700000001000))) ∧ s.phase 2 = .overtaken ∧
    s.request 2 = some (cookieOf phone).cookie ∧ ¬ Valid site s (cookieOf phone).cookie ∧
    ∃ new old, site.write ⟨laptop, 1700000000⟩ (some (inputsAt 1700000001000)) = some new ∧
      Renews site (s.request 1) new old := by
  have aged : ∀ deviceId : Text, site.inAge 1700000001000
      ⟨userId, deviceId, 1700000000, fingerprint site.config (inputsAt 1700000000000)⟩ = true :=
    fun _ => rfl
  have epoch : ∀ deviceId : Text, site.inEpoch (some (inputsAt 1700000000000))
      ⟨userId, deviceId, 1700000000, fingerprint site.config (inputsAt 1700000000000)⟩ = true :=
    fun deviceId => site.inEpoch_own userId deviceId 1700000000 _
  have run : ∃ s : State ℕ, Runs.Run (step site) Forward updatedNow
      [.tick 1000, .begin 1 .revokeOthers (some (cookieOf laptop).cookie), .readUser 1, .readCredential 1,
        .begin 2 .revokeOthers (some (cookieOf phone).cookie), .readUser 2, .readCredential 2, .resume 2, .resume 1,
        .bump 1, .bump 2, .swap 1, .swap 2, .reissue 1, .reread 2] s ∧
      s.phase 1 = .reissued (site.write ⟨laptop, 1700000000⟩ (some (inputsAt 1700000001000))) ∧ s.phase 2 = .overtaken ∧
      s.request 2 = some (cookieOf phone).cookie ∧ s.user = some ⟨1700000001000, 0⟩ ∧
      s.credential = updatedNow.credential ∧
      s.computed = [inputsAt 1700000001000, inputsAt 1700000000000, inputsAt 1700000000000] := by
    refine ⟨_, .cons trivial rfl (.cons trivial rfl (.cons trivial rfl (.cons trivial rfl (.cons trivial rfl
      (.cons trivial rfl (.cons trivial rfl
        (.cons trivial (step_resume_snapshot rfl rfl rfl (parsed_cookieOf (by decide)) (aged phone) (epoch phone))
        (.cons trivial (step_resume_snapshot rfl rfl rfl (parsed_cookieOf (by decide)) (aged laptop) (epoch laptop))
        (.cons trivial rfl (.cons trivial rfl (.cons trivial rfl (.cons trivial rfl (.cons trivial rfl
          (.cons trivial rfl (.nil _))))))))))))))), rfl, rfl, rfl, rfl, rfl, rfl⟩
  have start : Start updatedNow := ⟨fun _ => rfl, fun stamp same => Option.some.inj same ▸ rfl⟩
  obtain ⟨s, run, first, second, carried, user, credential, computed⟩ := run
  have inputs : s.inputs = some (inputsAt 1700000001000) := by
    rw [State.inputs, user, credential]
    rfl
  have distinguished : Distinguished site s := collisionFree (by simp [inputs, computed])
  obtain ⟨_, dead, renews⟩ := one_device_remembered start run distinguished
  exact ⟨s, first, second, carried, dead 2 _ (by rw [second]; trivial) carried, renews 1 _ first⟩

end Identity.KnownDevice
