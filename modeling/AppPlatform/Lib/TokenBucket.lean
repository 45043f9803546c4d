import Mathlib.Algebra.Order.Floor.Ring
import Mathlib.Algebra.Order.Field.Basic
import Mathlib.Data.List.Basic
import Mathlib.Data.Rat.Floor
import Mathlib.Tactic.Linarith
import Mathlib.Tactic.Ring

/-!
# Token buckets

A bucket fills at a steady rate up to its burst, and each grant takes one token. What a window may
grant is bounded by what the bucket can hold and what flows in: the grants since any moment, with
the tokens left, never exceed the burst and the inflow since then.
-/

namespace TokenBucket
variable {𝕜 : Type*} [Field 𝕜] [LinearOrder 𝕜] [IsStrictOrderedRing 𝕜]

structure Rate (𝕜 : Type*) [Field 𝕜] [LinearOrder 𝕜] where
  /-- Tokens for each unit of time. -/
  inflow : 𝕜
  burst : 𝕜
  inflow_pos : 0 < inflow
  one_le_burst : 1 ≤ burst

structure Bucket (𝕜 : Type*) where
  tokens : 𝕜
  asOf : ℕ

variable (r : Rate 𝕜)

/-- The tokens in the bucket at time `now`. -/
def level (now : ℕ) (b : Bucket 𝕜) : 𝕜 := min r.burst (b.tokens + ((now : 𝕜) - b.asOf) * r.inflow)

def levelOf (now : ℕ) (b : Option (Bucket 𝕜)) : 𝕜 := b.elim r.burst (level r now)

/-- A bucket filled at some moment before `now`, no fuller than it can be. -/
structure Valid (now : ℕ) (b : Bucket 𝕜) : Prop where
  nonneg : 0 ≤ b.tokens
  le_burst : b.tokens ≤ r.burst
  before : b.asOf ≤ now

variable {r}

omit [IsStrictOrderedRing 𝕜] in
theorem level_le_burst (now : ℕ) (b : Bucket 𝕜) : level r now b ≤ r.burst := min_le_left _ _

omit [IsStrictOrderedRing 𝕜] in
theorem levelOf_le_burst (now : ℕ) (b : Option (Bucket 𝕜)) : levelOf r now b ≤ r.burst := by
  cases b with
  | none => exact le_rfl
  | some b => exact level_le_burst now b

theorem Valid.level_nonneg {now : ℕ} {b : Bucket 𝕜} (valid : Valid r now b) : 0 ≤ level r now b := by
  have elapsed : (0 : 𝕜) ≤ (now : 𝕜) - b.asOf := sub_nonneg.mpr (Nat.cast_le.mpr valid.before)
  have inflow := mul_nonneg elapsed r.inflow_pos.le
  have burst := r.one_le_burst
  have tokens := valid.nonneg
  exact le_min (by linarith) (by linarith)

theorem level_later (b : Bucket 𝕜) {now later : ℕ} (order : now ≤ later) :
    level r later b ≤ level r now b + ((later : 𝕜) - now) * r.inflow := by
  have elapsed : (0 : 𝕜) ≤ (later : 𝕜) - now := sub_nonneg.mpr (Nat.cast_le.mpr order)
  have inflow := mul_nonneg elapsed r.inflow_pos.le
  have split : b.tokens + ((later : 𝕜) - b.asOf) * r.inflow =
      b.tokens + ((now : 𝕜) - b.asOf) * r.inflow + ((later : 𝕜) - now) * r.inflow := by ring
  rw [level, level, split]
  rcases min_choice r.burst (b.tokens + ((now : 𝕜) - b.asOf) * r.inflow) with full | filling
  · rw [full]
    linarith [min_le_left r.burst (b.tokens + ((now : 𝕜) - b.asOf) * r.inflow + ((later : 𝕜) - now) * r.inflow)]
  · rw [filling]
    exact min_le_right _ _

theorem levelOf_later (b : Option (Bucket 𝕜)) {now later : ℕ} (order : now ≤ later) :
    levelOf r later b ≤ levelOf r now b + ((later : 𝕜) - now) * r.inflow := by
  cases b with
  | none =>
    have elapsed : (0 : 𝕜) ≤ (later : 𝕜) - now := sub_nonneg.mpr (Nat.cast_le.mpr order)
    have inflow := mul_nonneg elapsed r.inflow_pos.le
    simp only [levelOf, Option.elim_none]
    linarith
  | some b => exact level_later b order

theorem level_full {b : Bucket 𝕜} {now : ℕ} (nonneg : 0 ≤ b.tokens)
    (long : r.burst ≤ ((now : 𝕜) - b.asOf) * r.inflow) : level r now b = r.burst :=
  min_eq_left (by linarith)

omit [IsStrictOrderedRing 𝕜] in
theorem level_same (now : ℕ) {tokens : 𝕜} (fits : tokens ≤ r.burst) : level r now ⟨tokens, now⟩ = tokens := by
  rw [level, sub_self, zero_mul, add_zero, min_eq_right fits]

/-- The wait until a whole token is there, rounded up, is enough. -/
theorem level_after_wait {tokens : 𝕜} {now later : ℕ} [FloorRing 𝕜]
    (waited : (now : ℤ) + ⌈(1 - tokens) / r.inflow⌉ ≤ later) : 1 ≤ level r later ⟨tokens, now⟩ := by
  have enough : (1 - tokens) / r.inflow ≤ (later : 𝕜) - now := by
    have rounded := Int.le_ceil ((1 - tokens) / r.inflow)
    have cast : ((⌈(1 - tokens) / r.inflow⌉ : ℤ) : 𝕜) ≤ ((later - now : ℤ) : 𝕜) := Int.cast_le.mpr (by omega)
    push_cast at cast
    linarith
  have inflow : 1 - tokens ≤ ((later : 𝕜) - now) * r.inflow := (div_le_iff₀ r.inflow_pos).mp enough
  exact le_min r.one_le_burst (by linarith)

/-! ### Windows -/

/-- How many of the times lie in `[a, b]`. -/
def countIn (a b : ℕ) (times : List ℕ) : ℕ := (times.filter fun t => a ≤ t ∧ t ≤ b).length

theorem countIn_cons (a b t : ℕ) (times : List ℕ) :
    countIn a b (t :: times) = countIn a b times + if a ≤ t ∧ t ≤ b then 1 else 0 := by
  unfold countIn
  rw [List.filter_cons]
  split <;> simp_all

theorem countIn_eq_zero {a b : ℕ} {times : List ℕ} (earlier : ∀ t ∈ times, t < a) : countIn a b times = 0 := by
  rw [countIn, List.length_eq_zero_iff, List.filter_eq_nil_iff]
  intro t member
  have := earlier t member
  simp only [decide_eq_true_eq]
  omega

/-- The grants up to now against the tokens left now. -/
structure Metered (r : Rate 𝕜) (now : ℕ) (left : 𝕜) (times : List ℕ) : Prop where
  past : ∀ t ∈ times, t ≤ now
  since : ∀ a ≤ now, (countIn a now times : 𝕜) + left ≤ r.burst + ((now : 𝕜) - a) * r.inflow
  windows : ∀ a length, (countIn a (a + length) times : 𝕜) ≤ r.burst + length * r.inflow

theorem metered_nil (now : ℕ) {left : 𝕜} (fits : left ≤ r.burst) : Metered r now left [] where
  past := by simp
  since a earlier := by
    have elapsed : (0 : 𝕜) ≤ (now : 𝕜) - a := sub_nonneg.mpr (Nat.cast_le.mpr earlier)
    have inflow := mul_nonneg elapsed r.inflow_pos.le
    simp only [countIn, List.filter_nil, List.length_nil, Nat.cast_zero, zero_add]
    linarith
  windows a length := by
    have inflow := mul_nonneg (Nat.cast_nonneg (α := 𝕜) length) r.inflow_pos.le
    have burst := r.one_le_burst
    simp only [countIn, List.filter_nil, List.length_nil, Nat.cast_zero]
    linarith

theorem countIn_later {now later : ℕ} {times : List ℕ} (past : ∀ t ∈ times, t ≤ now) (order : now ≤ later) (a : ℕ) :
    countIn a later times = countIn a now times := by
  unfold countIn
  congr 1
  apply List.filter_congr
  intro t member
  have := past t member
  simp only [decide_eq_decide]
  omega

theorem Metered.later {now later : ℕ} {left left' : 𝕜} {times : List ℕ} (metered : Metered r now left times)
    (order : now ≤ later) (fits : left' ≤ r.burst) (filled : left' ≤ left + ((later : 𝕜) - now) * r.inflow) :
    Metered r later left' times where
  past t member := (metered.past t member).trans order
  since a earlier := by
    rcases Nat.lt_or_ge now a with after | before
    · have none_yet : countIn a later times = 0 :=
        countIn_eq_zero fun t member => Nat.lt_of_le_of_lt (metered.past t member) after
      have elapsed : (0 : 𝕜) ≤ (later : 𝕜) - a := sub_nonneg.mpr (Nat.cast_le.mpr earlier)
      have inflow := mul_nonneg elapsed r.inflow_pos.le
      rw [none_yet, Nat.cast_zero]
      linarith
    · have bound := metered.since a before
      have split : ((later : 𝕜) - a) * r.inflow = ((now : 𝕜) - a) * r.inflow + ((later : 𝕜) - now) * r.inflow := by ring
      rw [countIn_later metered.past order, split]
      linarith
  windows := metered.windows

theorem Metered.less {now : ℕ} {left left' : 𝕜} {times : List ℕ} (metered : Metered r now left times) (less : left' ≤ left) :
    Metered r now left' times where
  past := metered.past
  since a earlier := by linarith [metered.since a earlier]
  windows := metered.windows

theorem Metered.grant {now : ℕ} {left : 𝕜} {times : List ℕ} (metered : Metered r now left times) (whole : 1 ≤ left) :
    Metered r now (left - 1) (now :: times) where
  past t member := by
    rcases List.mem_cons.mp member with rfl | old
    · exact le_rfl
    · exact metered.past t old
  since a earlier := by
    have bound := metered.since a earlier
    rw [countIn_cons, if_pos ⟨earlier, le_rfl⟩]
    push_cast
    linarith
  windows a length := by
    rw [countIn_cons]
    split
    · rename_i inside
      have bound := metered.since a inside.1
      have same : countIn a (a + length) times = countIn a now times := countIn_later metered.past inside.2 a
      have elapsed : ((now : 𝕜) - a) ≤ length := by
        have cast : (now : 𝕜) ≤ ((a + length : ℕ) : 𝕜) := Nat.cast_le.mpr inside.2
        push_cast at cast
        linarith
      have inflow := mul_le_mul_of_nonneg_right elapsed r.inflow_pos.le
      rw [same]
      push_cast
      linarith
    · simpa using metered.windows a length

end TokenBucket
