import AppPlatform.Lib.Run
import AppPlatform.Lib.Text

/-!
# Readiness

`HealthRegistry`: reports that run every registered check at once and are resolved when all have answered or at the deadline,
while others run and shutdown may begin. Whether the process is draining is read when a report starts.
-/

namespace Readiness
open Js Runs

inductive CheckStatus where
  | up
  | down
  deriving DecidableEq

/-- What `runOne` gives for a check. -/
inductive Result where
  | up
  | down
  | skip
  deriving DecidableEq

inductive Status where
  | ok
  | error
  deriving DecidableEq

abbrev Checks := List (Text × CheckStatus)

structure ReadinessReport where
  status : Status
  shuttingDown : Bool
  checks : Checks
  deriving DecidableEq

/-- Assigning to this property of an object sets its prototype, and does nothing where the value is a string. -/
def prototypeName : Text := text "__proto__"

/-- `checks[name] = status` -/
def assign (checks : Checks) (name : Text) (status : CheckStatus) : Checks :=
  if name = prototypeName then checks else checks ++ [(name, status)]

abbrev Results := List (Text × Result)

/-- What the report says of a check, if it is listed: `results.get(name) ?? 'down'` -/
def listed (results : Results) (name : Text) : Option CheckStatus :=
  match (results.lookup name).getD .down with
  | .up => some .up
  | .down => some .down
  | .skip => none

/-- The loop over the entries. -/
def collect (results : Results) : List Text → Checks → Checks
  | [], checks => checks
  | name :: rest, checks => collect results rest ((listed results name).elim checks (assign checks name))

/-- The report of a process that was not draining when it started. -/
def reportOf (entries : List Text) (results : Results) : ReadinessReport :=
  let checks := collect results entries []
  ⟨if checks.all (·.2 = .up) then .ok else .error, false, checks⟩

/-- The report of a process that was draining when it started. -/
def leaving : ReadinessReport := ⟨.error, true, []⟩

/-! ### Runs -/

variable {ι : Type*} [DecidableEq ι]

structure Resolution where
  /-- Shutdown had begun when the report started. -/
  startedDraining : Bool
  /-- Shutdown had begun when the report was resolved. -/
  draining : Bool
  entries : List Text
  results : Results
  report : ReadinessReport
  deriving DecidableEq

inductive Phase where
  | idle
  | running (entries : List Text) (results : Results)
  | resolved (resolution : Resolution)
  /-- What a check threw could not be put into words. -/
  | rejected
  deriving DecidableEq

structure State (ι : Type*) where
  names : List Text
  draining : Bool
  phase : ι → Phase

def initial : State ι := ⟨[], false, fun _ => .idle⟩

inductive Event (ι : Type*) where
  | register (name : Text)
  | beginShutdown
  | report (i : ι)
  | answer (i : ι) (name : Text) (result : Result)
  /-- A check throws what `String` cannot convert. -/
  | unreadable (i : ι) (name : Text)
  /-- The timer fires. -/
  | deadline (i : ι)
  /-- Every check has answered. -/
  | finished (i : ι)

def State.become (s : State ι) (i : ι) (phase : Phase) : State ι := { s with phase := Function.update s.phase i phase }

@[simp] theorem become_phase (s : State ι) (i : ι) (phase : Phase) :
    (s.become i phase).phase = Function.update s.phase i phase := rfl

/-- The rest of `report` after its `await`. -/
def State.resolve (s : State ι) (i : ι) (entries : List Text) (results : Results) : State ι :=
  s.become i (.resolved ⟨false, s.draining, entries, results, reportOf entries results⟩)

def pending (entries : List Text) (results : Results) (name : Text) : Bool := name ∈ entries ∧ results.lookup name = none

def step (s : State ι) : Event ι → Option (State ι)
  | .register name => some (if name ∈ s.names then s else { s with names := s.names ++ [name] })
  | .beginShutdown => some { s with draining := true }
  | .report i =>
    match s.phase i with
    | .idle => some (s.become i (if s.draining then .resolved ⟨true, true, [], [], leaving⟩ else .running s.names []))
    | _ => none
  | .answer i name result =>
    match s.phase i with
    | .running entries results =>
      if pending entries results name then some (s.become i (.running entries ((name, result) :: results))) else none
    | .resolved _ | .rejected => some s
    | .idle => none
  | .unreadable i name =>
    match s.phase i with
    | .running entries results => if pending entries results name then some (s.become i .rejected) else none
    | .resolved _ | .rejected => some s
    | .idle => none
  | .deadline i =>
    match s.phase i with
    | .running entries results => some (s.resolve i entries results)
    | _ => none
  | .finished i =>
    match s.phase i with
    | .running entries results =>
      if entries.all fun name => (results.lookup name).isSome then some (s.resolve i entries results) else none
    | _ => none

/-- After shutdown began a report is an error. Before, it is ok exactly where every check that was not skipped came up, and it lists
these checks. -/
def Lawful (r : Resolution) : Prop :=
  if r.draining then r.report.status = .error
  else (r.report.status = .ok ↔ ∀ name ∈ r.entries, r.results.lookup name = some .skip ∨ r.results.lookup name = some .up) ∧
    ∀ name status, (name, status) ∈ r.report.checks ↔ name ∈ r.entries ∧ listed r.results name = some status

/-- Where the code keeps that. -/
def Sound (r : Resolution) : Prop :=
  if r.draining then r.startedDraining = true ∨ ∃ name ∈ r.entries, name ≠ prototypeName ∧ listed r.results name = some .down
  else prototypeName ∈ r.entries → r.results.lookup prototypeName = some .skip

/-! ### Reports -/

theorem mem_collect {results : Results} {entries : List Text} {checks : Checks} {name : Text} {status : CheckStatus} :
    (name, status) ∈ collect results entries checks ↔
      (name, status) ∈ checks ∨ name ∈ entries ∧ name ≠ prototypeName ∧ listed results name = some status := by
  induction entries generalizing checks with
  | nil => simp [collect]
  | cons first rest ih =>
    rw [collect, ih]
    cases said : listed results first with
    | none => grind
    | some other =>
      simp only [Option.elim_some, assign]
      split
      · grind
      · grind

theorem listed_eq {results : Results} {name : Text} :
    (listed results name = none ↔ results.lookup name = some .skip) ∧
      (listed results name = some .up ↔ results.lookup name = some .up) := by
  unfold listed
  cases results.lookup name with
  | none => simp
  | some result => cases result <;> simp

theorem mem_reportOf {entries : List Text} {results : Results} {name : Text} {status : CheckStatus} :
    (name, status) ∈ (reportOf entries results).checks ↔
      name ∈ entries ∧ name ≠ prototypeName ∧ listed results name = some status := by
  rw [reportOf, mem_collect]
  simp

theorem reportOf_ok {entries : List Text} {results : Results} :
    (reportOf entries results).status = .ok ↔ ∀ name ∈ entries, name ≠ prototypeName → listed results name ≠ some .down := by
  have all : (reportOf entries results).status = .ok ↔ ∀ entry ∈ (reportOf entries results).checks, entry.2 = .up := by
    simp [reportOf]
  rw [all]
  constructor
  · intro up name member other down
    have false' := up (name, .down) (mem_reportOf.mpr ⟨member, other, down⟩)
    cases false'
  · rintro none ⟨name, status⟩ entry
    obtain ⟨member, other, said⟩ := mem_reportOf.mp entry
    cases status with
    | up => rfl
    | down => exact (none name member other said).elim

theorem reportOf_error {entries : List Text} {results : Results} :
    (reportOf entries results).status = .error ↔ ∃ name ∈ entries, name ≠ prototypeName ∧
      listed results name = some .down := by
  have not_ok : (reportOf entries results).status = .error ↔ ¬(reportOf entries results).status = .ok := by
    cases (reportOf entries results).status <;> decide
  rw [not_ok, reportOf_ok]
  push Not
  rfl

theorem all_up_iff {entries : List Text} {results : Results} :
    (∀ name ∈ entries, results.lookup name = some .skip ∨ results.lookup name = some .up) ↔
      ∀ name ∈ entries, listed results name ≠ some .down := by
  refine forall₂_congr fun name member => ?_
  rw [← listed_eq.1, ← listed_eq.2]
  cases listed results name with
  | none => simp
  | some status => cases status <;> simp

/-- How the report of a resolution came about. -/
def Built (r : Resolution) : Prop :=
  if r.startedDraining then r.draining = true ∧ r.report = leaving else r.report = reportOf r.entries r.results

theorem settled_lawful {entries : List Text} {results : Results} :
    (((reportOf entries results).status = .ok ↔
        ∀ name ∈ entries, results.lookup name = some .skip ∨ results.lookup name = some .up) ∧
      ∀ name status, (name, status) ∈ (reportOf entries results).checks ↔
        name ∈ entries ∧ listed results name = some status) ↔
    (prototypeName ∈ entries → results.lookup prototypeName = some .skip) := by
  constructor
  · rintro ⟨_, lists⟩ member
    rw [← listed_eq.1]
    cases said : listed results prototypeName with
    | none => rfl
    | some status => exact absurd rfl (mem_reportOf.mp ((lists prototypeName status).mpr ⟨member, said⟩)).2.1
  · intro skipped
    have named {name : Text} {status : CheckStatus} (member : name ∈ entries) (said : listed results name = some status) :
        name ≠ prototypeName := by
      rintro rfl
      rw [listed_eq.1.mpr (skipped member)] at said
      cases said
    refine ⟨?_, ?_⟩
    · rw [reportOf_ok, all_up_iff]
      exact ⟨fun none name member down => none name member (named member down) down, fun none name member _ => none name member⟩
    · intro name status
      rw [mem_reportOf]
      exact ⟨fun entry => ⟨entry.1, entry.2.2⟩, fun entry => ⟨entry.1, named entry.1 entry.2, entry.2⟩⟩

theorem lawful_iff_sound {r : Resolution} (built : Built r) : Lawful r ↔ Sound r := by
  unfold Built at built
  unfold Lawful Sound
  by_cases started : r.startedDraining = true
  · rw [if_pos started] at built
    rw [if_pos built.1, if_pos built.1, built.2]
    exact iff_of_true rfl (.inl started)
  · rw [if_neg started] at built
    rw [built]
    split
    · rw [reportOf_error]
      simp [started]
    · exact settled_lawful

/-! ### Runs -/

def Consistent (s : State ι) : Prop := ∀ i r, s.phase i = .resolved r → Built r

theorem consistent_become {s : State ι} (consistent : Consistent s) {i : ι} {phase : Phase}
    (built : ∀ r, phase = .resolved r → Built r) : Consistent (s.become i phase) := by
  intro j r resolved
  by_cases same : j = i
  · subst same
    rw [become_phase, Function.update_self] at resolved
    exact built r resolved
  · rw [become_phase, Function.update_of_ne same] at resolved
    exact consistent j r resolved

theorem consistent_resolve {s : State ι} (consistent : Consistent s) (i : ι) (entries : List Text) (results : Results) :
    Consistent (s.resolve i entries results) := by
  refine consistent_become consistent ?_
  rintro r ⟨⟩
  rfl

theorem step_consistent {s t : State ι} {e : Event ι} (consistent : Consistent s) (taken : step s e = some t) : Consistent t := by
  cases e with
  | register name =>
    cases taken
    split
    · exact consistent
    · exact consistent
  | beginShutdown =>
    cases taken
    exact consistent
  | report i =>
    rw [step] at taken
    split at taken <;> cases taken
    refine consistent_become consistent fun r resolved => ?_
    split at resolved <;> cases resolved
    exact ⟨rfl, rfl⟩
  | answer i name result =>
    rw [step] at taken
    split at taken
    · split at taken <;> cases taken
      exact consistent_become consistent nofun
    · cases taken
      exact consistent
    · cases taken
      exact consistent
    · cases taken
  | unreadable i name =>
    rw [step] at taken
    split at taken
    · split at taken <;> cases taken
      exact consistent_become consistent nofun
    · cases taken
      exact consistent
    · cases taken
      exact consistent
    · cases taken
  | deadline i =>
    rw [step] at taken
    split at taken <;> cases taken
    exact consistent_resolve consistent i _ _
  | finished i =>
    rw [step] at taken
    split at taken
    · split at taken <;> cases taken
      exact consistent_resolve consistent i _ _
    · cases taken

/-- In every interleaving, a resolved report is lawful exactly where it was not caught by shutdown, or a listed check is down, and where
no check it hides for its name was run. -/
theorem resolved_lawful_iff {events : List (Event ι)} {s : State ι} (run : Run step (fun _ _ => True) initial events s) {i : ι}
    {r : Resolution} (resolved : s.phase i = .resolved r) : Lawful r ↔ Sound r := by
  have consistent : Consistent s :=
    run.invariant (fun consistent _ taken => step_consistent consistent taken) fun i r resolved => by cases resolved
  exact lawful_iff_sound (consistent i r resolved)

/-- Two reports, the second after shutdown began. A check is skipped, and one is registered while the first report runs. -/
def twoReports : List (Event ℕ) :=
  [.register (text "db"), .register (text "cache"), .report 0, .register (text "queue"), .answer 0 (text "cache") .skip,
    .answer 0 (text "db") .up, .finished 0, .beginShutdown, .report 1, .answer 1 (text "db") .down]

def resolutionAfter (events : List (Event ℕ)) (i : ℕ) : Option Resolution :=
  (exec step (fun _ _ => True) initial events).bind fun s =>
    match s.phase i with
    | .resolved r => some r
    | _ => none

theorem run_of_resolutionAfter {events : List (Event ℕ)} {i : ℕ} {p : Resolution → Bool}
    (resolved : (resolutionAfter events i).any p = true) :
    ∃ s, ∃ r, Run step (fun _ _ => True) initial events s ∧ s.phase i = .resolved r ∧ p r = true := by
  obtain ⟨r, resolved, holds⟩ := (Option.any_eq_true _ _).mp resolved
  obtain ⟨s, ran, found⟩ := Option.bind_eq_some_iff.mp resolved
  refine ⟨s, r, Run.of_exec ran, ?_, holds⟩
  split at found <;> cases found
  assumption

/-- The report before is ok and lists what was not skipped; the one that starts after shutdown began is an error. -/
theorem resolved_lawful_iff_two :
    (∃ s, ∃ r, Run step (fun _ _ => True) initial twoReports s ∧ s.phase 0 = .resolved r ∧
      r.report = ⟨.ok, false, [(text "db", .up)]⟩ ∧ (Lawful r ↔ Sound r)) ∧
    ∃ s, ∃ r, Run step (fun _ _ => True) initial twoReports s ∧ s.phase 1 = .resolved r ∧
      r.report = leaving ∧ (Lawful r ↔ Sound r) := by
  constructor
  · obtain ⟨s, r, run, resolved, report⟩ := run_of_resolutionAfter (show (resolutionAfter twoReports 0).any
      (fun r => r.report = ⟨.ok, false, [(text "db", .up)]⟩) = true by decide +kernel)
    exact ⟨s, r, run, resolved, of_decide_eq_true report, resolved_lawful_iff run resolved⟩
  · obtain ⟨s, r, run, resolved, report⟩ := run_of_resolutionAfter (show (resolutionAfter twoReports 1).any
      (fun r => r.report = leaving) = true by decide +kernel)
    exact ⟨s, r, run, resolved, of_decide_eq_true report, resolved_lawful_iff run resolved⟩

/-- Shutdown begins while the only check is running, and a check that hides is down. -/
def shutdownMeanwhile : List (Event ℕ) :=
  [.register (text "db"), .report 0, .beginShutdown, .answer 0 (text "db") .up, .finished 0]

def hiddenCheck : List (Event ℕ) :=
  [.register prototypeName, .report 0, .answer 0 prototypeName .down, .finished 0]

/-- The report that shutdown overtook is ok, and so is the report of a check that is down under a name it cannot be listed by. -/
theorem shutdown_overtaken :
    (∃ s, ∃ r, Run step (fun _ _ => True) (initial : State ℕ) shutdownMeanwhile s ∧ s.phase 0 = .resolved r ∧
      r.draining = true ∧ r.report.status = .ok ∧ ¬Lawful r) ∧
    ∃ s, ∃ r, Run step (fun _ _ => True) (initial : State ℕ) hiddenCheck s ∧ s.phase 0 = .resolved r ∧
      r.draining = false ∧ r.report = ⟨.ok, false, []⟩ ∧ ¬Lawful r := by
  constructor
  · obtain ⟨s, r, run, resolved, ok⟩ := run_of_resolutionAfter (show (resolutionAfter shutdownMeanwhile 0).any
      (fun r => r.draining ∧ r.report.status = .ok) = true by decide +kernel)
    obtain ⟨draining, status⟩ := of_decide_eq_true ok
    refine ⟨s, r, run, resolved, draining, status, ?_⟩
    rw [Lawful, if_pos draining, status]
    nofun
  · obtain ⟨s, r, run, resolved, ok⟩ := run_of_resolutionAfter (show (resolutionAfter hiddenCheck 0).any
      (fun r => r.draining = false ∧ r.report = ⟨.ok, false, []⟩ ∧ r.entries = [prototypeName] ∧
        listed r.results prototypeName = some .down) = true by decide +kernel)
    obtain ⟨draining, report, entries, down⟩ := of_decide_eq_true ok
    refine ⟨s, r, run, resolved, draining, report, fun lawful => ?_⟩
    rw [Lawful, draining, if_neg Bool.false_ne_true] at lawful
    have lists := (lawful.2 prototypeName .down).mpr ⟨by rw [entries]; exact List.mem_singleton_self _, down⟩
    rw [report] at lists
    cases lists

end Readiness
