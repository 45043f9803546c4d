import Mathlib.Data.Int.Log
import Mathlib.Data.Rat.Floor
import Mathlib.Algebra.Order.Field.Power
import Mathlib.Tactic.Linarith
import Mathlib.Tactic.NormNum
import Mathlib.Tactic.Positivity
import Mathlib.Tactic.FieldSimp
import Mathlib.Tactic.Ring

/-!
# Doubles

A finite double is a rational `m · 2^e` with a 53-bit significand. `ofRat` rounds to the nearest
double, ties to even, and to infinity past the range. `ofRat_double` is the only fact the decimal
round trip needs: a double rounds to itself. The sign of zero is not kept.
-/

namespace Js

def IsDouble (q : ℚ) : Prop :=
  ∃ m e : ℤ, |m| < 2 ^ 53 ∧ -1074 ≤ e ∧ e ≤ 971 ∧ q = m * 2 ^ e

inductive Number where
  | nan
  | infinity (negative : Bool)
  | finite (q : ℚ) (double : IsDouble q)

/-- Past this value a number rounds to infinity. -/
def limit : ℚ := 2 ^ (1024 : ℤ)

theorem limit_eq : limit = 2 ^ 52 * 2 ^ (972 : ℤ) := by
  rw [limit, ← zpow_natCast, ← zpow_add₀ (by norm_num)]
  norm_num

/-- The number is the finite value `q`. -/
def Number.isFinite (x : Number) (q : ℚ) : Bool :=
  match x with
  | .finite r _ => r = q
  | _ => false

theorem Number.eq_finite {x : Number} {q : ℚ} (double : IsDouble q) (h : x.isFinite q = true) :
    x = .finite q double := by
  cases x with
  | finite r _ =>
    have same : r = q := of_decide_eq_true h
    subst same
    rfl
  | _ => cases h

def roundHalfEven (x : ℚ) : ℤ :=
  if x - ⌊x⌋ < 1 / 2 then ⌊x⌋
  else if 1 / 2 < x - ⌊x⌋ then ⌊x⌋ + 1
  else if ⌊x⌋ % 2 = 0 then ⌊x⌋ else ⌊x⌋ + 1

theorem roundHalfEven_int (n : ℤ) : roundHalfEven n = n := by
  simp [roundHalfEven]

theorem roundHalfEven_bounds (x : ℚ) : ⌊x⌋ ≤ roundHalfEven x ∧ roundHalfEven x ≤ ⌊x⌋ + 1 := by
  unfold roundHalfEven
  split
  · omega
  split
  · omega
  split <;> omega

/-- The exponent of the last place of the double next to a positive rational. -/
def lastPlace (q : ℚ) : ℤ := max (-1074) (Int.log 2 q - 52)

def roundPositive (q : ℚ) : ℚ := roundHalfEven (q / 2 ^ lastPlace q) * 2 ^ lastPlace q

theorem div_lastPlace_lt (q : ℚ) : q / 2 ^ lastPlace q < 2 ^ 53 := by
  have below : q < 2 ^ (Int.log 2 q + 1) := by exact_mod_cast Int.lt_zpow_succ_log_self (b := 2) (by norm_num) q
  have le : Int.log 2 q + 1 ≤ 53 + lastPlace q := by unfold lastPlace; omega
  have scaled : (2 : ℚ) ^ (Int.log 2 q + 1) ≤ 2 ^ (53 + lastPlace q) := zpow_le_zpow_right₀ (by norm_num) le
  rw [div_lt_iff₀ (by positivity)]
  calc q < 2 ^ (Int.log 2 q + 1) := below
    _ ≤ 2 ^ (53 + lastPlace q) := scaled
    _ = 2 ^ 53 * 2 ^ lastPlace q := by rw [zpow_add₀ (by norm_num)]; norm_cast

theorem significand_bounds {q : ℚ} (positive : 0 < q) :
    0 ≤ roundHalfEven (q / 2 ^ lastPlace q) ∧ roundHalfEven (q / 2 ^ lastPlace q) ≤ 2 ^ 53 := by
  have bounds := roundHalfEven_bounds (q / 2 ^ lastPlace q)
  have nonneg : 0 ≤ ⌊q / 2 ^ lastPlace q⌋ := Int.floor_nonneg.mpr (by positivity)
  have small : ⌊q / 2 ^ lastPlace q⌋ < 2 ^ 53 := by
    rw [Int.floor_lt]
    exact_mod_cast div_lastPlace_lt q
  omega

theorem IsDouble.neg {q : ℚ} (double : IsDouble q) : IsDouble (-q) := by
  obtain ⟨m, e, small, low, high, rfl⟩ := double
  exact ⟨-m, e, by rwa [abs_neg], low, high, by push_cast; ring⟩

theorem isDouble_zero : IsDouble 0 := ⟨0, 0, by norm_num, by norm_num, by norm_num, by norm_num⟩

/-- Within the range, the rounded significand needs 53 bits; a carry to `2 ^ 53` moves the exponent. -/
theorem isDouble_roundPositive {q : ℚ} (positive : 0 < q) (inRange : roundPositive q < limit) :
    IsDouble (roundPositive q) := by
  obtain ⟨nonneg, bound⟩ := significand_bounds positive
  generalize hm : roundHalfEven (q / 2 ^ lastPlace q) = m at nonneg bound
  have low : -1074 ≤ lastPlace q := le_max_left _ _
  have value : roundPositive q = m * 2 ^ lastPlace q := by rw [roundPositive, hm]
  rcases eq_or_lt_of_le bound with carry | small
  · have shifted : roundPositive q = (2 ^ 52 : ℤ) * 2 ^ (lastPlace q + 1) := by
      rw [value, carry, zpow_add₀ (by norm_num)]
      push_cast
      ring
    refine ⟨2 ^ 52, lastPlace q + 1, by norm_num, by omega, ?_, shifted⟩
    by_contra! above
    have : (2 : ℚ) ^ (972 : ℤ) ≤ 2 ^ (lastPlace q + 1) := zpow_le_zpow_right₀ (by norm_num) (by omega)
    rw [shifted, limit_eq] at inRange
    refine absurd inRange (not_lt.mpr ?_)
    rw [Int.cast_pow, Int.cast_ofNat]
    exact mul_le_mul_of_nonneg_left this (by norm_num)
  · refine ⟨m, lastPlace q, by rwa [abs_of_nonneg nonneg], low, ?_, value⟩
    by_contra! above
    -- past the subnormal exponents the significand has its full 53 bits
    have normal : lastPlace q = Int.log 2 q - 52 := by unfold lastPlace at above ⊢; omega
    have full : (2 : ℚ) ^ 52 ≤ q / 2 ^ lastPlace q := by
      rw [le_div_iff₀ (by positivity), normal, ← zpow_natCast, ← zpow_add₀ (by norm_num)]
      have := Int.zpow_log_le_self (b := 2) (by norm_num) positive
      push_cast at this ⊢
      rwa [add_sub_cancel]
    have floor : (2 : ℤ) ^ 52 ≤ ⌊q / 2 ^ lastPlace q⌋ := by
      rw [Int.le_floor]
      exact_mod_cast full
    have wide : ((2 : ℤ) ^ 52 : ℤ) ≤ m := by
      rw [← hm]
      exact floor.trans (roundHalfEven_bounds _).1
    have wideQ : (2 : ℚ) ^ 52 ≤ m := by exact_mod_cast wide
    have huge : (2 : ℚ) ^ (972 : ℤ) ≤ 2 ^ lastPlace q := zpow_le_zpow_right₀ (by norm_num) (by omega)
    have : (2 : ℚ) ^ 52 * 2 ^ (972 : ℤ) ≤ m * 2 ^ lastPlace q :=
      mul_le_mul wideQ huge (by positivity) (by positivity)
    rw [value, limit_eq] at inRange
    exact absurd inRange (not_lt.mpr this)

/-- The number value of a rational. -/
def ofRat (q : ℚ) : Number :=
  if positive : 0 < q then
    if inRange : roundPositive q < limit then
      .finite (roundPositive q) (isDouble_roundPositive positive inRange)
    else .infinity false
  else if negative : 0 < -q then
    if inRange : roundPositive (-q) < limit then
      .finite (-roundPositive (-q)) (isDouble_roundPositive negative inRange).neg
    else .infinity true
  else .finite 0 isDouble_zero

theorem roundPositive_double {q : ℚ} (positive : 0 < q) (double : IsDouble q) :
    roundPositive q = q ∧ q < limit := by
  obtain ⟨m, e, small, low, high, rfl⟩ := double
  have mPositive : 0 < m := by
    by_contra! h
    have : (m : ℚ) ≤ 0 := by exact_mod_cast h
    nlinarith [zpow_pos (show (0 : ℚ) < 2 by norm_num) e]
  rw [abs_of_pos mPositive] at small
  have smallQ : (m : ℚ) < 2 ^ 53 := by exact_mod_cast small
  have below : (m : ℚ) * 2 ^ e < 2 ^ (53 + e) := by
    rw [zpow_add₀ (by norm_num)]
    have := mul_lt_mul_of_pos_right smallQ (zpow_pos (show (0 : ℚ) < 2 by norm_num) e)
    exact_mod_cast this
  have log : Int.log 2 ((m : ℚ) * 2 ^ e) < 53 + e :=
    (Int.lt_zpow_iff_log_lt (by norm_num) positive).mp (by exact_mod_cast below)
  have place : lastPlace ((m : ℚ) * 2 ^ e) ≤ e := by unfold lastPlace; omega
  obtain ⟨d, hd⟩ := Int.eq_ofNat_of_zero_le (show 0 ≤ e - lastPlace ((m : ℚ) * 2 ^ e) by omega)
  -- the last place divides the value, so the quotient is an integer and rounding keeps it
  have quotient : (m : ℚ) * 2 ^ e / 2 ^ lastPlace ((m : ℚ) * 2 ^ e) = ((m * 2 ^ d : ℤ) : ℚ) := by
    rw [mul_div_assoc, ← zpow_sub₀ (by norm_num), hd]
    push_cast
    rfl
  refine ⟨?_, ?_⟩
  · rw [roundPositive, quotient, roundHalfEven_int, ← quotient]
    field_simp
  · calc (m : ℚ) * 2 ^ e < 2 ^ (53 + e) := below
      _ ≤ 2 ^ (1024 : ℤ) := zpow_le_zpow_right₀ (by norm_num) (by omega)

theorem ofRat_double {q : ℚ} (double : IsDouble q) : ofRat q = .finite q double := by
  unfold ofRat
  split
  · rename_i positive
    obtain ⟨same, inRange⟩ := roundPositive_double positive double
    rw [dif_pos (by rwa [same])]
    simp only [same]
  split
  · rename_i negative
    obtain ⟨same, inRange⟩ := roundPositive_double negative double.neg
    rw [dif_pos (by rwa [same])]
    simp only [same, neg_neg]
  · have zero : q = 0 := by linarith
    subst zero
    rfl

theorem isDouble_nat {n : ℕ} (small : n < 2 ^ 53) : IsDouble n := by
  refine ⟨n, 0, ?_, by norm_num, by norm_num, by simp⟩
  rw [abs_of_nonneg (Int.natCast_nonneg n)]
  exact_mod_cast small

/-! ### Rounding and whole numbers -/

theorem roundHalfEven_le {x : ℚ} {n : ℤ} (h : x ≤ n) : roundHalfEven x ≤ n := by
  rcases eq_or_lt_of_le h with rfl | less
  · rw [roundHalfEven_int]
  · have floor : ⌊x⌋ < n := Int.floor_lt.mpr less
    have bounds := roundHalfEven_bounds x
    omega

theorem le_roundHalfEven {x : ℚ} {n : ℤ} (h : n ≤ x) : n ≤ roundHalfEven x :=
  (Int.le_floor.mpr h).trans (roundHalfEven_bounds x).1

theorem lastPlace_le {q : ℚ} {n : ℕ} (positive : 0 < q) (small : n < 2 ^ 53) (h : q ≤ n) : lastPlace q ≤ 0 := by
  have below : q < (2 : ℚ) ^ (53 : ℤ) := by
    calc q ≤ n := h
      _ < (2 : ℚ) ^ (53 : ℤ) := by exact_mod_cast small
  have log : Int.log 2 q < 53 := (Int.lt_zpow_iff_log_lt (by norm_num) positive).mp (by exact_mod_cast below)
  unfold lastPlace
  omega

/-- A whole number is a multiple of every last place up to the units. -/
theorem nat_div_place (n : ℕ) {place : ℤ} (h : place ≤ 0) : ∃ m : ℤ, (n : ℚ) / 2 ^ place = m := by
  obtain ⟨d, hd⟩ := Int.eq_ofNat_of_zero_le (show 0 ≤ -place by omega)
  refine ⟨n * 2 ^ d, ?_⟩
  rw [← neg_neg place, hd, zpow_neg, div_inv_eq_mul, zpow_natCast]
  push_cast
  rfl

/-- Rounding does not cross a whole number below `2 ^ 53` from below. -/
theorem roundPositive_le {q : ℚ} {n : ℕ} (positive : 0 < q) (small : n < 2 ^ 53) (h : q ≤ n) : roundPositive q ≤ n := by
  obtain ⟨m, whole⟩ := nat_div_place n (lastPlace_le positive small h)
  have place : (0 : ℚ) < 2 ^ lastPlace q := by positivity
  have scaled : q / 2 ^ lastPlace q ≤ m := by
    rw [← whole]
    gcongr
  have rounded : (roundHalfEven (q / 2 ^ lastPlace q) : ℚ) ≤ m := by exact_mod_cast roundHalfEven_le scaled
  rw [roundPositive, ← le_div_iff₀ place, whole]
  exact rounded

/-- Nor from above. -/
theorem le_roundPositive {q : ℚ} {n : ℕ} (positive : 0 < q) (small : n ≤ 2 ^ 53) (h : n ≤ q) : n ≤ roundPositive q := by
  have place : (0 : ℚ) < 2 ^ lastPlace q := by positivity
  rw [roundPositive, ← div_le_iff₀ place]
  rcases le_or_gt (lastPlace q) 0 with units | above
  · obtain ⟨m, whole⟩ := nat_div_place n units
    have scaled : (m : ℚ) ≤ q / 2 ^ lastPlace q := by
      rw [← whole]
      gcongr
    rw [whole]
    exact_mod_cast le_roundHalfEven scaled
  · -- past the units the significand alone is at least `2 ^ 52`
    have normal : lastPlace q = Int.log 2 q - 52 := by unfold lastPlace at above ⊢; omega
    have full : ((2 ^ 52 : ℤ) : ℚ) ≤ q / 2 ^ lastPlace q := by
      rw [le_div_iff₀ place, normal]
      have := Int.zpow_log_le_self (b := 2) (by norm_num) positive
      rw [Int.cast_pow, Int.cast_ofNat, ← zpow_natCast, ← zpow_add₀ (by norm_num)]
      push_cast at this ⊢
      rwa [add_sub_cancel]
    have wide : ((2 ^ 52 : ℤ) : ℚ) ≤ roundHalfEven (q / 2 ^ lastPlace q) := by exact_mod_cast le_roundHalfEven full
    have double : (2 : ℚ) ≤ 2 ^ lastPlace q := by
      calc (2 : ℚ) = 2 ^ (1 : ℤ) := (zpow_one 2).symm
        _ ≤ 2 ^ lastPlace q := zpow_le_zpow_right₀ (by norm_num) (by omega)
    have smallQ : (n : ℚ) ≤ 2 ^ 53 := by exact_mod_cast small
    rw [Int.cast_pow, Int.cast_ofNat] at wide
    rw [div_le_iff₀ place]
    nlinarith

theorem nat_lt_limit {n : ℕ} (small : n < 2 ^ 53) : (n : ℚ) < limit := by
  have smallQ : (n : ℚ) < 2 ^ 53 := by exact_mod_cast small
  calc (n : ℚ) < 2 ^ (53 : ℤ) := by exact_mod_cast smallQ
    _ ≤ limit := zpow_le_zpow_right₀ (by norm_num) (by norm_num)

/-- A value of at most `n` in size rounds to one of at most `n` in size. -/
theorem ofRat_within {q : ℚ} {n : ℕ} (small : n < 2 ^ 53) (h : |q| ≤ n) :
    ∃ r, ∃ double : IsDouble r, ofRat q = .finite r double ∧ |r| ≤ n := by
  obtain ⟨above, below⟩ := abs_le.mp h
  unfold ofRat
  by_cases positive : 0 < q
  · have bound := roundPositive_le positive small below
    have nonneg : 0 ≤ roundPositive q := by
      exact_mod_cast le_roundPositive (n := 0) positive (by norm_num) (by exact_mod_cast positive.le)
    rw [dif_pos positive, dif_pos (bound.trans_lt (nat_lt_limit small))]
    exact ⟨_, _, rfl, by rwa [abs_of_nonneg nonneg]⟩
  rw [dif_neg positive]
  by_cases negative : 0 < -q
  · have bound := roundPositive_le negative small (by linarith)
    have nonneg : 0 ≤ roundPositive (-q) := by
      exact_mod_cast le_roundPositive (n := 0) negative (by norm_num) (by exact_mod_cast negative.le)
    rw [dif_pos negative, dif_pos (bound.trans_lt (nat_lt_limit small))]
    exact ⟨_, _, rfl, by rwa [abs_neg, abs_of_nonneg nonneg]⟩
  · rw [dif_neg negative]
    exact ⟨0, isDouble_zero, rfl, by simp⟩

theorem le_of_ofRat {q r : ℚ} {double : IsDouble r} {n : ℕ} (positive : 0 < q) (small : n ≤ 2 ^ 53) (h : n ≤ q)
    (rounds : ofRat q = .finite r double) : n ≤ r := by
  have bound := le_roundPositive positive small h
  unfold ofRat at rounds
  rw [dif_pos positive] at rounds
  split at rounds
  · cases rounds
    exact bound
  · cases rounds

/-! ### Operations on numbers -/

theorem IsDouble.abs {q : ℚ} (double : IsDouble q) : IsDouble |q| := by
  rcases abs_choice q with same | negated
  · rwa [same]
  · rw [negated]
    exact double.neg

/-- `Math.floor` -/
def Number.floor : Number → Number
  | .finite q _ => ofRat ⌊q⌋
  | x => x

/-- `x / n` for a positive whole `n` -/
def Number.divNat (x : Number) (n : ℕ) : Number :=
  match x with
  | .finite q _ => ofRat (q / n)
  | x => x

/-- `x - y` -/
def Number.minus : Number → Number → Number
  | .finite p _, .finite q _ => ofRat (p - q)
  | .finite _ _, .infinity negative => .infinity (!negative)
  | .infinity negative, .finite _ _ => .infinity negative
  | .infinity negative, .infinity other => if negative = other then .nan else .infinity negative
  | _, _ => .nan

/-- `Math.abs` -/
def Number.abs : Number → Number
  | .finite q double => .finite |q| double.abs
  | .infinity _ => .infinity false
  | .nan => .nan

/-- `x > q`, false for `NaN` -/
def Number.exceeds (x : Number) (q : ℚ) : Bool :=
  match x with
  | .finite r _ => q < r
  | .infinity negative => !negative
  | .nan => false

/-- `x` as a natural number, if `Number.isSafeInteger(x)` and `x` is not negative. -/
def Number.safeNat? : Number → Option ℕ
  | .finite q _ => if q.den = 1 ∧ 0 ≤ q.num ∧ q.num < 2 ^ 53 then some q.num.toNat else none
  | _ => none

/-- The whole number `x` is, if `Number.isInteger(x)`. -/
def Number.whole? : Number → Option ℤ
  | .finite q _ => if q.den = 1 then some q.num else none
  | _ => none

/-- `Math.max(x, y)` -/
def Number.max : Number → Number → Number
  | .finite p double, .finite q double' => if p ≤ q then .finite q double' else .finite p double
  | .infinity negative, .finite q double => if negative then .finite q double else .infinity false
  | .finite q double, .infinity negative => if negative then .finite q double else .infinity false
  | .infinity negative, .infinity other => .infinity (negative && other)
  | _, _ => .nan

/-- The number of a whole number read from its digits. -/
def Number.ofNat (n : ℕ) : Number := ofRat n

theorem Number.ofNat_eq {n : ℕ} (small : n < 2 ^ 53) : Number.ofNat n = .finite n (isDouble_nat small) :=
  ofRat_double (isDouble_nat small)

theorem Number.safeNat?_ofNat {n : ℕ} (small : n < 2 ^ 53) : (Number.ofNat n).safeNat? = some n := by
  rw [Number.ofNat_eq small, Number.safeNat?, if_pos]
  · simp
  · refine ⟨by simp, by simp, ?_⟩
    rw [Rat.num_natCast]
    exact_mod_cast small

theorem Number.whole?_ofNat {n : ℕ} (small : n < 2 ^ 53) : (Number.ofNat n).whole? = some (n : ℤ) := by
  rw [Number.ofNat_eq small]
  simp [Number.whole?]

theorem Number.eq_ofNat_of_whole {x : Number} {n : ℕ} (whole : x.whole? = some (n : ℤ)) (small : n < 2 ^ 53) :
    x = Number.ofNat n := by
  cases x with
  | finite q double =>
    rw [Number.whole?, Option.ite_none_right_eq_some, Option.some.injEq] at whole
    obtain ⟨den, num⟩ := whole
    have value : q = (n : ℚ) := by
      rw [← Rat.coe_int_num_of_den_eq_one den, num]
      rfl
    rw [Number.ofNat_eq small]
    congr 1
  | nan => cases whole
  | infinity _ => cases whole

theorem isDouble_int {z : ℤ} (small : |z| < 2 ^ 53) : IsDouble z :=
  ⟨z, 0, small, by norm_num, by norm_num, by simp⟩

def Number.ofInt (z : ℤ) : Number := ofRat z

theorem Number.ofInt_eq {z : ℤ} (small : |z| < 2 ^ 53) : Number.ofInt z = .finite z (isDouble_int small) :=
  ofRat_double (isDouble_int small)

theorem Number.ofNat_int (n : ℕ) : Number.ofNat n = Number.ofInt n := by
  rw [Number.ofNat, Number.ofInt, Int.cast_natCast]

theorem Number.ofInt_minus {a b : ℤ} (small : |a| < 2 ^ 53) (small' : |b| < 2 ^ 53) :
    (Number.ofInt a).minus (.ofInt b) = .ofInt (a - b) := by
  rw [Number.ofInt_eq small, Number.ofInt_eq small', Number.minus, Number.ofInt, Int.cast_sub]

theorem Number.ofInt_max {a b : ℤ} (small : |a| < 2 ^ 53) (small' : |b| < 2 ^ 53) :
    (Number.ofInt a).max (.ofInt b) = .ofInt (Max.max a b) := by
  rw [Number.ofInt_eq small, Number.ofInt_eq small', Number.max]
  rcases le_or_gt a b with le | less
  · rw [if_pos (by exact_mod_cast le), max_eq_right le, Number.ofInt_eq small']
  · rw [if_neg (by rw [not_le]; exact_mod_cast less), max_eq_left less.le, Number.ofInt_eq small]

theorem Number.ofNat_inj {m n : ℕ} (small : m < 2 ^ 53) (small' : n < 2 ^ 53) (same : Number.ofNat m = Number.ofNat n) :
    m = n := by
  have safe := congrArg Number.safeNat? same
  rw [Number.safeNat?_ofNat small, Number.safeNat?_ofNat small'] at safe
  exact Option.some.inj safe

theorem Number.eq_ofNat {x : Number} {n : ℕ} (safe : x.safeNat? = some n) : x = Number.ofNat n ∧ n < 2 ^ 53 := by
  cases x with
  | finite q double =>
    rw [Number.safeNat?, Option.ite_none_right_eq_some, Option.some.injEq] at safe
    obtain ⟨⟨whole, nonneg, small⟩, rfl⟩ := safe
    have value : q = (q.num.toNat : ℚ) := by
      rw [← Int.cast_natCast, Int.toNat_of_nonneg nonneg]
      exact (Rat.coe_int_num_of_den_eq_one whole).symm
    have bound : q.num.toNat < 2 ^ 53 := by omega
    refine ⟨?_, bound⟩
    rw [Number.ofNat_eq bound]
    congr 1
  | nan => cases safe
  | infinity _ => cases safe

end Js
