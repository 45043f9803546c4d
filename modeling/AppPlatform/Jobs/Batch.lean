import AppPlatform.Lib.Text
import Mathlib.Data.List.Perm.Subperm

/-!
# A batch of jobs

`processBatch`, with what the code around it answers: how each handler ended, and what the settle of
a job and the query for held claims gave. Anything may have been thrown, so reading what was thrown
may throw again.
-/

namespace Jobs
open Js

/-- A property value: a string, or another value with the text a template makes of it and what its `slice` gives. -/
inductive Slot where
  | string (s : Text)
  | other (text : Option Text) (slice : Option Slot)

/-- `${value}`; `none` when that throws. -/
def Slot.text : Slot → Option Text
  | .string s => some s
  | .other text _ => text

/-- `value.slice(0, n)`; `none` when that throws. -/
def Slot.slice (n : ℕ) : Slot → Option Slot
  | .string s => some (.string (s.take n))
  | .other _ slice => slice

/-- A thrown value by what reading it gives; `none` when the reading throws. -/
structure Raised where
  /-- `error instanceof Error` -/
  isError : Option Bool
  /-- `String(error)` -/
  string : Option Text
  name' : Option Slot
  message : Option Slot
  /-- `typeof error === 'object' && error !== null` -/
  isObject : Bool
  /-- `error[PERMANENT] === true` -/
  permanent : Option Bool

/-- An `Error` with the properties that its constructor gave it. -/
def Raised.error (name' message : Text) (permanent : Bool) : Raised :=
  ⟨some true, some (name' ++ text ": " ++ message), some (.string name'), some (.string message), true, some permanent⟩

/-- `Object.create(null)` and other objects that do not convert to a string. -/
def Raised.bare : Raised := ⟨some false, none, none, none, true, some false⟩

def MAX_ERROR_CHARS : ℕ := 500

structure Described where
  name' : Slot
  message : Slot

def describe (error : Raised) : Option Described := do
  let isError ← error.isError
  if isError then
    let name' ← error.name'
    let message ← error.message
    let message ← message.slice MAX_ERROR_CHARS
    return ⟨name', message⟩
  else
    let message ← error.string
    return ⟨.string (text "Error"), .string (message.take MAX_ERROR_CHARS)⟩

def isPermanent (error : Raised) : Option Bool := if error.isObject then error.permanent else some false

/-! ### The batch -/

inductive Handled where
  | returned
  | raised (error : Raised)

inductive Settle where
  /-- The rows that the fenced settle changed, when the answer has the number. -/
  | answered (affected : Option ℕ)
  | rejected (error : Raised)

inductive Claims where
  | rows (ids : List Text)
  | rejected (error : Raised)

structure BatchJob where
  id : Text
  retryCount : ℕ
  /-- How the handler ends for this job. -/
  handled : Handled
  /-- What the settle answers, should the handler return. -/
  settle : Settle

structure Batch where
  queue : Text
  jobs : List BatchJob
  /-- What the query for held claims answers, should a job fail. -/
  claims : Claims

abbrev Attempt := Text × ℕ

def BatchJob.attempt (job : BatchJob) : Attempt := (job.id, job.retryCount)

structure Counted where
  logs : List Text
  processed : List Attempt
  failures : List Attempt

def Counted.append (a b : Counted) : Counted := ⟨a.logs ++ b.logs, a.processed ++ b.processed, a.failures ++ b.failures⟩

inductive Ended where
  | failed
  | deadletter
  deriving DecidableEq

inductive JobOutcome where
  | completed (id : Text)
  | ended (id : Text) (status : Ended) (output : Described) (attempt : ℕ)

def jobText (queue : Text) (job : BatchJob) : Text := text "Job " ++ queue ++ text "/" ++ job.id

def dispose (queue : Text) (job : BatchJob) (error : Raised) : Option (JobOutcome × Counted) := do
  let described ← describe error
  let permanent ← isPermanent error
  let name' ← described.name'.text
  let message ← described.message.text
  let line := name' ++ text ": " ++ message
  if permanent then
    return (.ended job.id .deadletter described job.retryCount,
      ⟨[jobText queue job ++ text " failed permanently, dead-lettering: " ++ line], [], []⟩)
  else
    return (.ended job.id .failed described job.retryCount,
      ⟨[jobText queue job ++ text " attempt " ++ natText (job.retryCount + 1) ++ text " failed: " ++ line], [], []⟩)

def settleOne (queue : Text) (job : BatchJob) : Settle → Option (JobOutcome × Counted)
  | .answered affected =>
    if affected = some 0 then
      some (.completed job.id, ⟨[jobText queue job ++ text " finished after its claim was lost; not completing it"], [], []⟩)
    else some (.completed job.id, ⟨[], [job.attempt], []⟩)
  | .rejected error => do
    let described ← describe error
    let message ← described.message.text
    return (.completed job.id,
      ⟨[text "Could not settle job " ++ queue ++ text "/" ++ job.id ++ text " early: " ++ message], [job.attempt], []⟩)

/-- `none`: it throws. -/
def runOne (queue : Text) (job : BatchJob) : Option (JobOutcome × Counted) :=
  match job.handled with
  | .returned => settleOne queue job job.settle
  | .raised error => dispose queue job error

/-- `Promise.all` of the runs: one that throws makes all of it throw. -/
def runAll (queue : Text) : List BatchJob → Option (List JobOutcome × Counted)
  | [] => some ([], ⟨[], [], []⟩)
  | job :: rest => do
    let (outcome, counted) ← runOne queue job
    let (outcomes, others) ← runAll queue rest
    return (outcome :: outcomes, counted.append others)

def failed (outcomes : List JobOutcome) : List Attempt :=
  outcomes.filterMap fun
    | .completed _ => none
    | .ended id _ _ attempt => some (id, attempt)

def countOne (queue : Text) (held : Option (List Text)) (attempt : Attempt) : Counted :=
  if held.any (attempt.1 ∉ ·) then
    ⟨[text "Job " ++ queue ++ text "/" ++ attempt.1 ++ text " failed after its claim was lost; not counting it"], [], []⟩
  else ⟨[], [], [attempt]⟩

def countEach (queue : Text) (held : Option (List Text)) : List Attempt → Counted
  | [] => ⟨[], [], []⟩
  | attempt :: rest => (countOne queue held attempt).append (countEach queue held rest)

def countFailures (queue : Text) (outcomes : List JobOutcome) (claims : Claims) : Option Counted :=
  if failed outcomes = [] then some ⟨[], [], []⟩
  else match claims with
    | .rows ids => some (countEach queue (some ids) (failed outcomes))
    | .rejected error => do
      let described ← describe error
      let message ← described.message.text
      let warning : Counted := ⟨[text "Could not check job claims before counting failures: " ++ message], [], []⟩
      return warning.append (countEach queue none (failed outcomes))

inductive Status where
  | completed
  | failed
  | deadletter
  deriving DecidableEq

/-- What pg-boss reads. -/
structure BatchResult where
  id : Text
  status : Status
  output : Option Described

def JobOutcome.result : JobOutcome → BatchResult
  | .completed id => ⟨id, .completed, none⟩
  | .ended id .failed output _ => ⟨id, .failed, some output⟩
  | .ended id .deadletter output _ => ⟨id, .deadletter, some output⟩

/-- `none`: it rejects, and the whole batch with it. -/
def processBatch (batch : Batch) : Option (List BatchResult × Counted) := do
  let (outcomes, counted) ← runAll batch.queue batch.jobs
  let failures ← countFailures batch.queue outcomes batch.claims
  return (outcomes.map JobOutcome.result, counted.append failures)

/-- The message that `describe` gives is there, and a template can take it. -/
def Raised.Messaged (error : Raised) : Prop :=
  (error.isError = some false ∧ error.string.isSome) ∨
  (error.isError = some true ∧ error.name'.isSome ∧
    ((error.message.bind (Slot.slice MAX_ERROR_CHARS)).bind Slot.text).isSome)

/-- All that the disposition of a job reads of what its handler threw can be read. -/
def Raised.Readable (error : Raised) : Prop :=
  error.Messaged ∧ (error.isError = some true → (error.name'.bind Slot.text).isSome) ∧
    (error.isObject = true → error.permanent.isSome)

instance (error : Raised) : Decidable error.Messaged := inferInstanceAs (Decidable (_ ∨ _))

instance (error : Raised) : Decidable error.Readable := inferInstanceAs (Decidable (_ ∧ _))

theorem messaged_iff {error : Raised} :
    error.Messaged ↔ ∃ described message, describe error = some described ∧ described.message.text = some message := by
  obtain ⟨isError, string, name', message, isObject, permanent⟩ := error
  match isError with
  | none => simp [Raised.Messaged, describe]
  | some false => cases string <;> simp [Raised.Messaged, describe, Slot.text]
  | some true =>
    cases name' with
    | none => simp [Raised.Messaged, describe]
    | some slot =>
      cases message with
      | none => simp [Raised.Messaged, describe]
      | some m =>
        cases sliced : m.slice MAX_ERROR_CHARS with
        | none => simp [Raised.Messaged, describe, sliced]
        | some s => simp [Raised.Messaged, describe, sliced, Option.isSome_iff_exists]

theorem described_name {error : Raised} {described : Described} (given : describe error = some described) :
    (∃ name', described.name'.text = some name') ↔ (error.isError = some true → (error.name'.bind Slot.text).isSome) := by
  obtain ⟨isError, string, name', message, isObject, permanent⟩ := error
  match isError with
  | none => cases given
  | some false =>
    cases string with
    | none => cases given
    | some s =>
      cases given
      simp [Slot.text]
  | some true =>
    simp only [describe, Option.bind_eq_bind, Option.bind_some, if_true, Option.bind_eq_some_iff] at given
    obtain ⟨slot, rfl, _, _, _, _, same⟩ := given
    cases same
    simp [Option.isSome_iff_exists]

theorem isPermanent_isSome {error : Raised} : (∃ b, isPermanent error = some b) ↔
    (error.isObject = true → error.permanent.isSome) := by
  unfold isPermanent
  split
  · simp_all [Option.isSome_iff_exists]
  · simp_all

/-! ### One job -/

def Handled.succeeded : Handled → Bool
  | .returned => true
  | .raised _ => false

/-- The disposition that the outcome of the job's own handler calls for. -/
def BatchJob.status (job : BatchJob) : Status :=
  match job.handled with
  | .returned => .completed
  | .raised error => if isPermanent error = some true then .deadletter else .failed

/-- What runs for the job can read what it has to: the value its handler threw, or the rejection of its settle. -/
def BatchJob.Readable (job : BatchJob) : Prop :=
  (∀ error, job.handled = .raised error → error.Readable) ∧
    (job.handled = .returned → ∀ error, job.settle = .rejected error → error.Messaged)

/-- What a run of one job gives, whatever the other jobs do. -/
structure OwnOutcome (job : BatchJob) (outcome : JobOutcome) (counted : Counted) : Prop where
  id : outcome.result.id = job.id
  status : outcome.result.status = job.status
  failed : failed [outcome] = if job.handled.succeeded then [] else [job.attempt]
  processed : counted.processed.Sublist (if job.handled.succeeded then [job.attempt] else [])
  failures : counted.failures = []

theorem settle_own {queue : Text} {job : BatchJob} (returned : job.handled = .returned) {settle : Settle} {outcome : JobOutcome}
    {counted : Counted} (settled : settleOne queue job settle = some (outcome, counted)) : OwnOutcome job outcome counted := by
  have own (counted : Counted) (processed : counted.processed.Sublist [job.attempt]) (failures : counted.failures = []) :
      OwnOutcome job (.completed job.id) counted := by
    refine ⟨rfl, ?_, ?_, ?_, failures⟩
    · rw [BatchJob.status, returned]
      rfl
    · rw [returned]
      rfl
    · rw [returned]
      exact processed
  cases settle with
  | answered affected =>
    rw [settleOne] at settled
    split at settled
    · cases settled
      exact own _ (List.nil_sublist _) rfl
    · cases settled
      exact own _ (List.Sublist.refl _) rfl
  | rejected error =>
    simp only [settleOne, Option.bind_eq_bind, Option.bind_eq_some_iff] at settled
    obtain ⟨described, _, message, _, settled⟩ := settled
    cases settled
    exact own _ (List.Sublist.refl _) rfl

theorem dispose_own {queue : Text} {job : BatchJob} {error : Raised} (raised : job.handled = .raised error)
    {outcome : JobOutcome} {counted : Counted} (disposed : dispose queue job error = some (outcome, counted)) :
    OwnOutcome job outcome counted := by
  simp only [dispose, Option.bind_eq_bind, Option.bind_eq_some_iff] at disposed
  obtain ⟨described, _, permanent, read, name', _, message, _, disposed⟩ := disposed
  cases permanent with
  | true =>
    cases disposed
    refine ⟨rfl, ?_, ?_, List.nil_sublist _, rfl⟩
    · simp only [BatchJob.status, raised, read, if_true, JobOutcome.result]
    · rw [raised]
      rfl
  | false =>
    cases disposed
    refine ⟨rfl, ?_, ?_, List.nil_sublist _, rfl⟩
    · simp only [BatchJob.status, raised, read, Option.some.injEq, reduceCtorEq, if_false, JobOutcome.result]
    · rw [raised]
      rfl

theorem runOne_own {queue : Text} {job : BatchJob} {outcome : JobOutcome} {counted : Counted}
    (ran : runOne queue job = some (outcome, counted)) : OwnOutcome job outcome counted := by
  unfold runOne at ran
  split at ran
  · exact settle_own ‹_› ran
  · exact dispose_own ‹_› ran

theorem dispose_some_iff {queue : Text} {job : BatchJob} {error : Raised} :
    (∃ run, dispose queue job error = some run) ↔ error.Readable := by
  rw [Raised.Readable, messaged_iff, ← isPermanent_isSome]
  constructor
  · intro ⟨run, disposed⟩
    simp only [dispose, Option.bind_eq_bind, Option.bind_eq_some_iff] at disposed
    obtain ⟨described, given, permanent, read, name', named, message, messaged, _⟩ := disposed
    exact ⟨⟨described, message, given, messaged⟩, (described_name given).mp ⟨name', named⟩, permanent, read⟩
  · intro ⟨⟨described, message, given, messaged⟩, nameable, permanent, read⟩
    obtain ⟨name', named⟩ := (described_name given).mpr nameable
    cases permanent <;> exact ⟨_, by simp [dispose, given, read, named, messaged]; rfl⟩

theorem settleOne_some_iff {queue : Text} {job : BatchJob} {settle : Settle} :
    (∃ run, settleOne queue job settle = some run) ↔ ∀ error, settle = .rejected error → error.Messaged := by
  cases settle with
  | answered affected =>
    refine ⟨fun _ error same => (by cases same), fun _ => ?_⟩
    rw [settleOne]
    split
    · exact ⟨_, rfl⟩
    · exact ⟨_, rfl⟩
  | rejected error =>
    constructor
    · intro ⟨run, settled⟩ error' same
      cases same
      simp only [settleOne, Option.bind_eq_bind, Option.bind_eq_some_iff] at settled
      obtain ⟨described, given, message, messaged, _⟩ := settled
      exact messaged_iff.mpr ⟨described, message, given, messaged⟩
    · intro readable
      obtain ⟨described, message, given, messaged⟩ := messaged_iff.mp (readable error rfl)
      exact ⟨_, by simp only [settleOne, given, messaged, Option.bind_eq_bind, Option.bind_some]; rfl⟩

theorem runOne_some_iff (queue : Text) {job : BatchJob} : (∃ run, runOne queue job = some run) ↔ job.Readable := by
  unfold runOne BatchJob.Readable
  cases job.handled with
  | returned =>
    rw [settleOne_some_iff]
    exact ⟨fun readable => ⟨nofun, fun _ => readable⟩, fun readable => readable.2 rfl⟩
  | raised error =>
    rw [dispose_some_iff]
    constructor
    · intro readable
      refine ⟨fun error' same => ?_, nofun⟩
      cases same
      exact readable
    · intro readable
      exact readable.1 error rfl

/-- What the runs of a list of jobs give together. -/
structure OwnOutcomes (jobs : List BatchJob) (outcomes : List JobOutcome) (counted : Counted) : Prop where
  ids : outcomes.map (fun o => o.result.id) = jobs.map BatchJob.id
  statuses : outcomes.map (fun o => o.result.status) = jobs.map BatchJob.status
  failed : failed outcomes = (jobs.filter fun job => !job.handled.succeeded).map BatchJob.attempt
  processed : counted.processed.Sublist ((jobs.filter fun job => job.handled.succeeded).map BatchJob.attempt)
  failures : counted.failures = []

theorem runAll_own {queue : Text} {jobs : List BatchJob} : ∀ {outcomes : List JobOutcome} {counted : Counted},
    runAll queue jobs = some (outcomes, counted) → OwnOutcomes jobs outcomes counted := by
  induction jobs with
  | nil =>
    intro outcomes counted ran
    cases ran
    exact ⟨rfl, rfl, rfl, List.Sublist.refl _, rfl⟩
  | cons job rest ih =>
    intro outcomes counted ran
    simp only [runAll, Option.bind_eq_bind, Option.bind_eq_some_iff] at ran
    obtain ⟨⟨outcome, own⟩, first, ⟨outcomes', others⟩, second, same⟩ := ran
    cases same
    have head := runOne_own first
    have tail := ih second
    have split : failed (outcome :: outcomes') = failed [outcome] ++ failed outcomes' := List.filterMap_append (l := [outcome])
    refine ⟨?_, ?_, ?_, ?_, ?_⟩
    · rw [List.map_cons, List.map_cons, head.id, tail.ids]
    · rw [List.map_cons, List.map_cons, head.status, tail.statuses]
    · rw [split, head.failed, tail.failed, List.filter_cons]
      cases job.handled.succeeded <;> rfl
    · have both := head.processed.append tail.processed
      rw [List.filter_cons]
      cases succeeded : job.handled.succeeded <;> simpa [succeeded, Counted.append] using both
    · exact List.append_eq_nil_iff.mpr ⟨head.failures, tail.failures⟩

theorem runAll_some_iff (queue : Text) {jobs : List BatchJob} :
    (∃ run, runAll queue jobs = some run) ↔ ∀ job ∈ jobs, job.Readable := by
  induction jobs with
  | nil => exact ⟨fun _ job mem => (by cases mem), fun _ => ⟨_, rfl⟩⟩
  | cons job rest ih =>
    rw [List.forall_mem_cons, ← runOne_some_iff queue, ← ih]
    constructor
    · intro ⟨run, ran⟩
      simp only [runAll, Option.bind_eq_bind, Option.bind_eq_some_iff] at ran
      obtain ⟨first, ranFirst, others, ranOthers, _⟩ := ran
      exact ⟨⟨first, ranFirst⟩, others, ranOthers⟩
    · intro ⟨⟨first, ranFirst⟩, others, ranOthers⟩
      exact ⟨_, by simp only [runAll, ranFirst, ranOthers, Option.bind_eq_bind, Option.bind_some]; rfl⟩

theorem countEach_failures (queue : Text) (held : Option (List Text)) (attempts : List Attempt) :
    (countEach queue held attempts).failures.Sublist attempts ∧ (countEach queue held attempts).processed = [] := by
  induction attempts with
  | nil => exact ⟨List.Sublist.refl _, rfl⟩
  | cons attempt rest ih =>
    have one : (countOne queue held attempt).failures.Sublist [attempt] ∧ (countOne queue held attempt).processed = [] := by
      unfold countOne
      split
      · exact ⟨List.nil_sublist _, rfl⟩
      · exact ⟨List.Sublist.refl _, rfl⟩
    exact ⟨one.1.append ih.1, List.append_eq_nil_iff.mpr ⟨one.2, ih.2⟩⟩

theorem countFailures_counts {queue : Text} {outcomes : List JobOutcome} {claims : Claims} {counted : Counted}
    (done : countFailures queue outcomes claims = some counted) :
    counted.failures.Sublist (failed outcomes) ∧ counted.processed = [] := by
  unfold countFailures at done
  split at done
  · cases done
    exact ⟨List.nil_sublist _, rfl⟩
  · split at done
    · cases done
      exact countEach_failures _ _ _
    · simp only [Option.bind_eq_bind, Option.bind_eq_some_iff] at done
      obtain ⟨_, _, message, _, same⟩ := done
      cases same
      exact countEach_failures _ _ _

theorem countFailures_some_iff (queue : Text) {outcomes : List JobOutcome} {claims : Claims} :
    (∃ counted, countFailures queue outcomes claims = some counted) ↔
      (failed outcomes ≠ [] → ∀ error, claims = .rejected error → error.Messaged) := by
  unfold countFailures
  split
  · rename_i none_
    exact ⟨fun _ some_ => absurd none_ some_, fun _ => ⟨_, rfl⟩⟩
  · rename_i some_
    cases claims with
    | rows ids => exact ⟨fun _ _ error same => (by cases same), fun _ => ⟨_, rfl⟩⟩
    | rejected error =>
      constructor
      · intro ⟨counted, done⟩ _ error' same
        cases same
        simp only [Option.bind_eq_bind, Option.bind_eq_some_iff] at done
        obtain ⟨described, given, message, messaged, _⟩ := done
        exact messaged_iff.mpr ⟨described, message, given, messaged⟩
      · intro readable
        obtain ⟨described, message, given, messaged⟩ := messaged_iff.mp (readable some_ error rfl)
        exact ⟨_, by simp only [given, messaged, Option.bind_eq_bind, Option.bind_some]; rfl⟩

/-! ### The batch -/

/-- The batch resolves, job by job, and counts no attempt twice. -/
def Isolated (batch : Batch) : Prop :=
  ∃ results counted, processBatch batch = some (results, counted) ∧
    results.map BatchResult.id = batch.jobs.map BatchJob.id ∧
    results.map BatchResult.status = batch.jobs.map BatchJob.status ∧
    (counted.processed ++ counted.failures).Subperm (batch.jobs.map BatchJob.attempt) ∧
    counted.processed.Sublist ((batch.jobs.filter fun job => job.handled.succeeded).map BatchJob.attempt) ∧
    counted.failures.Sublist ((batch.jobs.filter fun job => !job.handled.succeeded).map BatchJob.attempt)

/-- Whatever the batch has to describe can be described. -/
def Batch.Readable (batch : Batch) : Prop :=
  (∀ job ∈ batch.jobs, job.Readable) ∧
    ((∃ job ∈ batch.jobs, job.handled.succeeded = false) → ∀ error, batch.claims = .rejected error → error.Messaged)

theorem failed_nonempty {jobs : List BatchJob} :
    (jobs.filter fun job => !job.handled.succeeded).map BatchJob.attempt ≠ [] ↔ ∃ job ∈ jobs, job.handled.succeeded = false := by
  simp [List.filter_eq_nil_iff]

theorem processBatch_isolated {batch : Batch} {results : List BatchResult} {counted : Counted}
    (done : processBatch batch = some (results, counted)) : Isolated batch := by
  have resolved := done
  simp only [processBatch, Option.bind_eq_bind, Option.bind_eq_some_iff] at done
  obtain ⟨⟨outcomes, counts⟩, ran, failures, settled, same⟩ := done
  cases same
  have own := runAll_own ran
  have last := countFailures_counts settled
  have processed : (counts.append failures).processed = counts.processed := by
    rw [Counted.append, last.2, List.append_nil]
  have failing : (counts.append failures).failures = failures.failures := by
    rw [Counted.append, own.failures, List.nil_append]
  have counted : failures.failures.Sublist ((batch.jobs.filter fun job => !job.handled.succeeded).map BatchJob.attempt) :=
    own.failed ▸ last.1
  refine ⟨_, _, resolved, ?_, ?_, ?_, ?_, ?_⟩
  · rw [List.map_map]
    exact own.ids
  · rw [List.map_map]
    exact own.statuses
  · rw [processed, failing]
    have both := (own.processed.append counted).subperm
    rw [← List.map_append] at both
    exact both.trans ((List.filter_append_perm _ batch.jobs).map _).subperm
  · rw [processed]
    exact own.processed
  · rw [failing]
    exact counted

theorem processBatch_isolated_iff (batch : Batch) : Isolated batch ↔ batch.Readable := by
  constructor
  · intro ⟨results, counted, done, _⟩
    simp only [processBatch, Option.bind_eq_bind, Option.bind_eq_some_iff] at done
    obtain ⟨⟨outcomes, counts⟩, ran, failures, settled, _⟩ := done
    refine ⟨(runAll_some_iff batch.queue).mp ⟨_, ran⟩, ?_⟩
    intro some_
    have readable := (countFailures_some_iff batch.queue).mp ⟨failures, settled⟩
    rw [(runAll_own ran).failed, failed_nonempty] at readable
    exact readable some_
  · intro ⟨jobs, claims⟩
    obtain ⟨⟨outcomes, counts⟩, ran⟩ := (runAll_some_iff batch.queue).mpr jobs
    rw [← failed_nonempty, ← (runAll_own ran).failed] at claims
    obtain ⟨failures, settled⟩ := (countFailures_some_iff batch.queue).mpr claims
    exact processBatch_isolated (by simp only [processBatch, ran, settled, Option.bind_eq_bind, Option.bind_some]; rfl)

/-- The first handler returned and its job was completed; the second threw `Object.create(null)`. -/
def bareThrown : Batch :=
  ⟨text "work", [⟨text "a", 0, .returned, .answered (some 1)⟩,
    ⟨text "b", 0, .raised .bare, .answered none⟩], .rows [text "b"]⟩

theorem bare_throw_fails_batch : processBatch bareThrown = none ∧ ¬Isolated bareThrown := by
  refine ⟨rfl, ?_⟩
  intro ⟨_, _, done, _⟩
  cases done

end Jobs
