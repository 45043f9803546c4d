import AppPlatform.Lib.AbortSignal
import AppPlatform.Mail.Attempts

/-!
# Waiting for a slot

The whole loop of one attempt that waits for a slot of its mailbox. The rate bucket is shared, so
its answers are arbitrary, a call to it may fail, and the attempt may be aborted at any time.
-/

namespace Mail.SlotWait

/-- What the loop meets. Times are counted from its start. -/
structure World where
  /-- The answer of each `takeSlot`, and none where the call fails. -/
  answer : ℕ → Option ℕ
  callMs : ℕ → ℕ
  /-- How much later than asked each timer fires. -/
  lateMs : ℕ → ℕ
  signal : AbortSignal

inductive Act where
  | takeSlot (answer : Option ℕ)
  | sleep (ms : ℕ)
  | paced (waitedMs : ℕ)
  deriving DecidableEq

inductive Outcome where
  | returned
  /-- The error of the call to the bucket. -/
  | slotCall
  | throttled (retryAfterSeconds : ℕ)
  | aborted
  deriving DecidableEq

structure Wait where
  acts : List Act
  outcome : Outcome
  deriving DecidableEq

/-- What an answer of `takeSlot` makes the loop do, after this much sleep. -/
inductive Turn (waitedMs : ℕ) where
  | leave
  | raise (outcome : Outcome)
  | sleep (waitMs : ℕ) (positive : ¬ waitMs ≤ 0) (fits : ¬ MAIL_MAX_SLOT_WAIT_MS < waitedMs + waitMs)

def turn (waitedMs : ℕ) : Option ℕ → Turn waitedMs
  | none => .raise .slotCall
  | some waitMs =>
    if granted : waitMs ≤ 0 then .leave
    else if spent : MAIL_MAX_SLOT_WAIT_MS < waitedMs + waitMs then .raise (.throttled ((waitMs + 999) / 1000))
    else .sleep waitMs granted spent

def paced (waitedMs : ℕ) : List Act := if 0 < waitedMs then [.paced waitedMs] else []

def Wait.after (acts : List Act) (rest : Wait) : Wait := ⟨acts ++ rest.acts, rest.outcome⟩

theorem turn_leave {waitedMs : ℕ} {answer : Option ℕ} : turn waitedMs answer = .leave ↔ answer = some 0 := by
  cases answer with
  | none => exact ⟨nofun, nofun⟩
  | some ms =>
    rw [turn]
    split
    · simp only [Option.some.injEq, true_iff]
      omega
    · split <;> simp <;> omega

/-- Who raises was not granted a slot. -/
theorem turn_raise {waitedMs : ℕ} {answer : Option ℕ} {outcome : Outcome} (raises : turn waitedMs answer = .raise outcome) :
    outcome ≠ .returned := by
  cases answer with
  | none =>
    cases raises
    nofun
  | some ms =>
    rw [turn] at raises
    split at raises
    · cases raises
    · split at raises <;> cases raises
      nofun

/-- From the turn with this number on, with this much asked for before. -/
def waitFrom (w : World) (number waitedMs now : ℕ) : Wait :=
  match turn waitedMs (w.answer number) with
  | .leave => ⟨.takeSlot (w.answer number) :: paced waitedMs, .returned⟩
  | .raise outcome => ⟨[.takeSlot (w.answer number)], outcome⟩
  | .sleep waitMs _ _ =>
    match w.signal.sleep (now + w.callMs number) (waitMs + w.lateMs number) with
    | none => ⟨[.takeSlot (w.answer number), .sleep waitMs], .aborted⟩
    | some woke => (waitFrom w (number + 1) (waitedMs + waitMs) woke).after [.takeSlot (w.answer number), .sleep waitMs]
termination_by MAIL_MAX_SLOT_WAIT_MS - waitedMs

def waitForSlot (w : World) : Wait := waitFrom w 0 0 0

def Act.sleptMs : Act → ℕ
  | .sleep ms => ms
  | _ => 0

def Act.isCall : Act → Bool
  | .takeSlot _ => true
  | _ => false

/-- The sleep asked for in total. -/
def Wait.sleptMs (wait : Wait) : ℕ := (wait.acts.map Act.sleptMs).sum

def Wait.calls (wait : Wait) : ℕ := wait.acts.countP Act.isCall

/-- The last thing a loop did that had asked for this much sleep before, but for its telemetry, was a call that granted a
slot, and no earlier call did. -/
def Wait.Granted (wait : Wait) (waitedMs : ℕ) : Prop :=
  ∃ before, wait.acts = before ++ .takeSlot (some 0) :: paced (waitedMs + wait.sleptMs) ∧ .takeSlot (some 0) ∉ before

@[simp] theorem sleptMs_paced (waitedMs : ℕ) : ((paced waitedMs).map Act.sleptMs).sum = 0 := by
  unfold paced
  split <;> rfl

@[simp] theorem calls_paced (waitedMs : ℕ) : (paced waitedMs).countP Act.isCall = 0 := by
  unfold paced
  split <;> rfl

@[simp] theorem sleptMs_after (answer : Option ℕ) (waitMs : ℕ) (rest : Wait) :
    (rest.after [.takeSlot answer, .sleep waitMs]).sleptMs = waitMs + rest.sleptMs := by
  simp [Wait.after, Wait.sleptMs, Act.sleptMs]

@[simp] theorem calls_after (answer : Option ℕ) (waitMs : ℕ) (rest : Wait) :
    (rest.after [.takeSlot answer, .sleep waitMs]).calls = rest.calls + 1 := by
  unfold Wait.after Wait.calls
  rw [List.countP_append]
  exact Nat.add_comm 1 _

/-- The budget holds whatever was asked for before. -/
theorem waitFrom_slept (w : World) (number waitedMs now : ℕ) (within : waitedMs ≤ MAIL_MAX_SLOT_WAIT_MS) :
    waitedMs + (waitFrom w number waitedMs now).sleptMs ≤ MAIL_MAX_SLOT_WAIT_MS := by
  induction number, waitedMs, now using waitFrom.induct w with
  | case1 number waitedMs now leaves =>
    rw [waitFrom, leaves]
    simpa [Wait.sleptMs, Act.sleptMs] using within
  | case2 number waitedMs now outcome raises =>
    rw [waitFrom, raises]
    exact within
  | case3 number waitedMs now waitMs positive fits asks aborted =>
    rw [waitFrom, asks]
    simpa [aborted, Wait.sleptMs, Act.sleptMs] using fits
  | case4 number waitedMs now waitMs positive fits asks woke wakes ih =>
    have rest := ih (Nat.le_of_not_lt fits)
    rw [waitFrom, asks]
    simp only [wakes, sleptMs_after]
    omega

/-- Every turn but the last spends some of the budget. -/
theorem waitFrom_calls (w : World) (number waitedMs now : ℕ) (within : waitedMs ≤ MAIL_MAX_SLOT_WAIT_MS) :
    waitedMs + (waitFrom w number waitedMs now).calls ≤ MAIL_MAX_SLOT_WAIT_MS + 1 := by
  induction number, waitedMs, now using waitFrom.induct w with
  | case1 number waitedMs now leaves =>
    rw [waitFrom, leaves, Wait.calls, List.countP_cons_of_pos rfl, calls_paced]
    omega
  | case2 number waitedMs now outcome raises =>
    rw [waitFrom, raises]
    simpa [Wait.calls, Act.isCall] using within
  | case3 number waitedMs now waitMs positive fits asks aborted =>
    rw [waitFrom, asks]
    simp only [aborted]
    exact Nat.add_le_add within le_rfl
  | case4 number waitedMs now waitMs positive fits asks woke wakes ih =>
    have rest := ih (Nat.le_of_not_lt fits)
    rw [waitFrom, asks]
    simp only [wakes, calls_after]
    omega

theorem granted_after {waitMs waitedMs : ℕ} {answer : Option ℕ} {rest : Wait} (refused : answer ≠ some 0)
    (granted : rest.Granted (waitedMs + waitMs)) : (rest.after [.takeSlot answer, .sleep waitMs]).Granted waitedMs := by
  obtain ⟨before, acts, fresh⟩ := granted
  refine ⟨.takeSlot answer :: .sleep waitMs :: before, ?_, ?_⟩
  · rw [sleptMs_after, ← Nat.add_assoc, List.cons_append, List.cons_append, ← acts]
    rfl
  · simp [fresh, Ne.symm refused]

theorem waitFrom_outcome (w : World) (number waitedMs now : ℕ) :
    ((waitFrom w number waitedMs now).outcome = .returned ∧ (waitFrom w number waitedMs now).Granted waitedMs) ∨
      ((waitFrom w number waitedMs now).outcome ≠ .returned ∧ .takeSlot (some 0) ∉ (waitFrom w number waitedMs now).acts) := by
  induction number, waitedMs, now using waitFrom.induct w with
  | case1 number waitedMs now leaves =>
    left
    rw [waitFrom, leaves]
    refine ⟨rfl, [], ?_, List.not_mem_nil⟩
    rw [turn_leave.mp leaves]
    simp [Wait.sleptMs, Act.sleptMs]
  | case2 number waitedMs now outcome raises =>
    right
    rw [waitFrom, raises]
    have refused : w.answer number ≠ some 0 := by
      intro granted
      rw [turn_leave.mpr granted] at raises
      cases raises
    exact ⟨turn_raise raises, by simp [Ne.symm refused]⟩
  | case3 number waitedMs now waitMs positive fits asks aborted =>
    right
    rw [waitFrom, asks]
    have refused : w.answer number ≠ some 0 := by
      intro granted
      rw [turn_leave.mpr granted] at asks
      cases asks
    simp only [aborted]
    exact ⟨nofun, by simp [Ne.symm refused]⟩
  | case4 number waitedMs now waitMs positive fits asks woke wakes ih =>
    rw [waitFrom, asks]
    have refused : w.answer number ≠ some 0 := by
      intro granted
      rw [turn_leave.mpr granted] at asks
      cases asks
    simp only [wakes]
    rcases ih with ⟨returned, granted⟩ | ⟨thrown, none⟩
    · exact .inl ⟨returned, granted_after refused granted⟩
    · refine .inr ⟨thrown, ?_⟩
      simp [Wait.after, Ne.symm refused, none]

def phaseAfter (aborted : Bool) (waitedMs : ℕ) : Turn waitedMs → Phase
  | .leave => if aborted then .failing .timeout else .sending false
  | .raise (.throttled seconds) => .failing (.throttled seconds)
  | .raise _ => .failing .slotCall
  | .sleep waitMs _ _ => if aborted then .failing .aborted else .sleeping waitedMs waitMs

/-- The turn of one attempt among all the others is a turn of this loop. -/
example (aborted : Bool) (waitedMs : ℕ) (answer : Option ℕ) :
    Mail.waitForSlot aborted waitedMs answer = phaseAfter aborted waitedMs (turn waitedMs answer) := by
  match answer with
  | none => rfl
  | some 0 => rfl
  | some (ms + 1) =>
    simp only [Mail.waitForSlot, turn]
    split <;> rfl

/-- Whatever the bucket answers, whichever call fails and whenever the attempt is aborted, the loop ends after boundedly many
calls, asks for no more sleep than its budget, and returns exactly where its last call granted a slot. -/
theorem waitForSlot_bounded (w : World) : (waitForSlot w).sleptMs ≤ MAIL_MAX_SLOT_WAIT_MS ∧
    (waitForSlot w).calls ≤ MAIL_MAX_SLOT_WAIT_MS + 1 ∧
    ((waitForSlot w).outcome = .returned → (waitForSlot w).Granted 0) ∧
    ((waitForSlot w).outcome ≠ .returned → .takeSlot (some 0) ∉ (waitForSlot w).acts) := by
  have slept := waitFrom_slept w 0 0 0 (Nat.zero_le _)
  have calls := waitFrom_calls w 0 0 0 (Nat.zero_le _)
  rw [Nat.zero_add] at slept calls
  refine ⟨slept, calls, ?_, ?_⟩
  · intro returned
    rcases waitFrom_outcome w 0 0 0 with ⟨_, granted⟩ | ⟨thrown, _⟩
    · exact granted
    · exact absurd returned thrown
  · intro thrown
    rcases waitFrom_outcome w 0 0 0 with ⟨returned, _⟩ | ⟨_, none⟩
    · exact absurd returned thrown
    · exact none

end Mail.SlotWait
