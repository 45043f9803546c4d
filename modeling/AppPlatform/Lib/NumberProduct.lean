import AppPlatform.Lib.NumberOrder

/-!
# Rounding is monotone

`x * y` and `Math.ceil`. A number that is not larger is not larger after it was multiplied and rounded.
-/

namespace Js

/-- `x * y` -/
def Number.times : Number → Number → Number
  | .finite p _, .finite q _ => ofRat (p * q)
  | .infinity negative, .infinity other => .infinity (negative != other)
  | .infinity negative, .finite q _ => if q = 0 then .nan else .infinity (negative != decide (q < 0))
  | .finite q _, .infinity negative => if q = 0 then .nan else .infinity (negative != decide (q < 0))
  | _, _ => .nan

/-- `Math.ceil` -/
def Number.ceil : Number → Number
  | .finite q _ => ofRat ⌈q⌉
  | x => x

theorem roundHalfEven_mono {x y : ℚ} (le : x ≤ y) : roundHalfEven x ≤ roundHalfEven y := by
  rcases eq_or_lt_of_le (Int.floor_mono le) with same | less
  · unfold roundHalfEven
    rw [same]
    split_ifs <;> first | omega | linarith
  · have above := (roundHalfEven_bounds x).2
    have below := (roundHalfEven_bounds y).1
    omega

theorem lastPlace_mono {p q : ℚ} (positive : 0 < p) (le : p ≤ q) : lastPlace p ≤ lastPlace q := by
  have logs := Int.log_mono_right (b := 2) positive le
  unfold lastPlace
  omega

theorem full_significand {q : ℚ} (positive : 0 < q) (normal : -1074 < lastPlace q) : 2 ^ 52 * 2 ^ lastPlace q ≤ roundPositive q := by
  have exponent : lastPlace q = Int.log 2 q - 52 := by
    unfold lastPlace at normal ⊢
    omega
  have full : ((2 ^ 52 : ℤ) : ℚ) ≤ q / 2 ^ lastPlace q := by
    rw [le_div_iff₀ (by positivity), exponent]
    have below := Int.zpow_log_le_self (b := 2) (by norm_num) positive
    rw [Int.cast_pow, Int.cast_ofNat, ← zpow_natCast, ← zpow_add₀ (by norm_num)]
    push_cast at below ⊢
    rwa [add_sub_cancel]
  have wide : ((2 ^ 52 : ℤ) : ℚ) ≤ roundHalfEven (q / 2 ^ lastPlace q) := by exact_mod_cast le_roundHalfEven full
  rw [Int.cast_pow, Int.cast_ofNat] at wide
  rw [roundPositive]
  gcongr

theorem roundPositive_mono {p q : ℚ} (positive : 0 < p) (le : p ≤ q) : roundPositive p ≤ roundPositive q := by
  rcases eq_or_lt_of_le (lastPlace_mono positive le) with same | less
  · have significands : (roundHalfEven (p / 2 ^ lastPlace q) : ℚ) ≤ roundHalfEven (q / 2 ^ lastPlace q) := by
      exact_mod_cast roundHalfEven_mono (by gcongr)
    rw [roundPositive, roundPositive, same]
    gcongr
  · have small : (roundHalfEven (p / 2 ^ lastPlace p) : ℚ) ≤ 2 ^ 53 := by exact_mod_cast (significand_bounds positive).2
    calc roundPositive p ≤ 2 ^ 53 * 2 ^ lastPlace p := by
          rw [roundPositive]
          gcongr
      _ = 2 ^ 52 * 2 ^ (lastPlace p + 1) := by
          rw [zpow_add₀ (by norm_num)]
          ring
      _ ≤ 2 ^ 52 * 2 ^ lastPlace q := by
          gcongr
          · norm_num
          · omega
      _ ≤ roundPositive q := full_significand (positive.trans_le le) (by unfold lastPlace at less ⊢; omega)

theorem roundPositive_nonneg {q : ℚ} (positive : 0 < q) : 0 ≤ roundPositive q := by
  exact_mod_cast le_roundPositive (n := 0) positive (by norm_num) (by exact_mod_cast positive.le)

theorem ofRat_nonneg {q : ℚ} (nonneg : 0 ≤ q) : (Number.finite 0 isDouble_zero).le (ofRat q) = true := by
  unfold ofRat
  split
  · rename_i positive
    split
    · exact decide_eq_true (roundPositive_nonneg positive)
    · rfl
  · rw [dif_neg (by linarith)]
    rfl

/-- A number that is not smaller is not smaller after rounding. -/
theorem ofRat_mono {p q : ℚ} (nonneg : 0 ≤ p) (le : p ≤ q) : (ofRat p).le (ofRat q) = true := by
  rcases eq_or_lt_of_le nonneg with rfl | positive
  · rw [show ofRat 0 = .finite 0 isDouble_zero from ofRat_double isDouble_zero]
    exact ofRat_nonneg le
  · have rounded := roundPositive_mono positive le
    unfold ofRat
    rw [dif_pos positive, dif_pos (positive.trans_le le)]
    by_cases inRange : roundPositive q < limit
    · rw [dif_pos inRange, dif_pos (rounded.trans_lt inRange)]
      exact decide_eq_true rounded
    · rw [dif_neg inRange]
      split <;> rfl

theorem Number.times_nonneg {x y : Number} (left : (Number.finite 0 isDouble_zero).le x = true) {q : ℚ} (double : IsDouble q)
    (positive : 0 < q) (factor : y = .finite q double) : (Number.finite 0 isDouble_zero).le (x.times y) = true := by
  subst factor
  cases x with
  | nan => cases left
  | infinity negative =>
    cases negative with
    | true => cases left
    | false =>
      have sign : decide (q < 0) = false := decide_eq_false (not_lt.mpr positive.le)
      rw [times, if_neg positive.ne', sign]
      rfl
  | finite p _ => exact ofRat_nonneg (mul_nonneg (of_decide_eq_true left) positive.le)

theorem Number.times_mono {x y : Number} (left : (Number.finite 0 isDouble_zero).le x = true) (le : x.le y = true) {q : ℚ}
    (double : IsDouble q) (positive : 0 < q) : (x.times (.finite q double)).le (y.times (.finite q double)) = true := by
  have infinite : (Number.infinity false).times (.finite q double) = .infinity false := by
    simp [times, positive.ne', positive.le]
  cases x with
  | nan => cases left
  | infinity negative =>
    cases negative with
    | true => cases left
    | false =>
      cases y with
      | nan => cases le
      | infinity negative =>
        cases negative with
        | true => cases le
        | false => rw [infinite]; rfl
      | finite r _ => cases le
  | finite p _ =>
    have nonneg : 0 ≤ p := of_decide_eq_true left
    cases y with
    | nan => cases le
    | infinity negative =>
      cases negative with
      | true => cases le
      | false =>
        rw [infinite]
        have product := times_nonneg left double positive rfl
        generalize (Number.finite p _).times (.finite q double) = z at product ⊢
        cases z with
        | nan => cases product
        | infinity negative => cases negative <;> rfl
        | finite r _ => rfl
    | finite r _ =>
      have order : p ≤ r := of_decide_eq_true le
      exact ofRat_mono (mul_nonneg nonneg positive.le) (by gcongr)

end Js
