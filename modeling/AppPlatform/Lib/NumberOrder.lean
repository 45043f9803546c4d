import AppPlatform.Lib.NumberText

/-!
# The order of numbers, and numbers written in digits

`x <= y` and the largest of several numbers. A whole number is written in decimal digits alone exactly
when it is below `10 ^ 21`; from there on it has an exponent.
-/

namespace Js

deriving instance DecidableEq for Number

/-- `x <= y`, false for `NaN` -/
def Number.le : Number → Number → Bool
  | .finite p _, .finite q _ => p ≤ q
  | .infinity true, .finite _ _ => true
  | .finite _ _, .infinity false => true
  | .infinity negative, .infinity other => negative || !other
  | _, _ => false

theorem Number.le_refl {x : Number} (number : x ≠ .nan) : x.le x = true := by
  cases x with
  | nan => exact (number rfl).elim
  | infinity negative => cases negative <;> rfl
  | finite q double => exact decide_eq_true le_rfl

theorem Number.le_trans {x y z : Number} (first : x.le y = true) (second : y.le z = true) : x.le z = true := by
  cases x <;> cases y <;> cases z <;> simp_all [Number.le] <;> grind

theorem Number.max_cases {x y : Number} (left : x ≠ .nan) (right : y ≠ .nan) :
    (x.max y = x ∨ x.max y = y) ∧ x.le (x.max y) = true ∧ y.le (x.max y) = true := by
  cases x with
  | nan => exact (left rfl).elim
  | infinity negative =>
    cases y with
    | nan => exact (right rfl).elim
    | infinity other => cases negative <;> cases other <;> decide
    | finite q double => cases negative <;> simp [Number.max, Number.le]
  | finite p double =>
    cases y with
    | nan => exact (right rfl).elim
    | infinity other => cases other <;> simp [Number.max, Number.le]
    | finite q double' =>
      rcases le_or_gt p q with le | less
      · simp [Number.max, Number.le, le]
      · simp [Number.max, Number.le, not_le.mpr less, less.le]

theorem Number.infinity_max {x : Number} (number : x ≠ .nan) : (Number.infinity true).max x = x := by
  cases x with
  | nan => exact (number rfl).elim
  | infinity negative => rfl
  | finite q double => rfl

/-- `Math.max(...numbers)` -/
def Number.maxOf (numbers : List Number) : Number := numbers.foldl Number.max (.infinity true)

theorem Number.foldl_max {numbers : List Number} (plain : ∀ x ∈ numbers, x ≠ .nan) {start : Number} (first : start ≠ .nan) :
    numbers.foldl Number.max start ∈ start :: numbers ∧
      ∀ x ∈ start :: numbers, x.le (numbers.foldl Number.max start) = true := by
  induction numbers generalizing start with
  | nil =>
    refine ⟨List.mem_cons_self, fun x member => ?_⟩
    rw [List.mem_singleton.mp member]
    exact Number.le_refl first
  | cons y numbers ih =>
    obtain ⟨one, left, right⟩ := Number.max_cases first (plain y List.mem_cons_self)
    have next : start.max y ≠ .nan := by
      rcases one with same | same
      · rwa [same]
      · rw [same]
        exact plain y List.mem_cons_self
    obtain ⟨member, above⟩ := ih (fun x later => plain x (List.mem_cons_of_mem y later)) next
    have top := above _ List.mem_cons_self
    rw [List.foldl_cons]
    refine ⟨?_, fun x found => ?_⟩
    · rcases List.mem_cons.mp member with same | later
      · rw [same]
        rcases one with same | same
        · rw [same]
          exact List.mem_cons_self
        · rw [same]
          exact List.mem_cons_of_mem _ List.mem_cons_self
      · exact List.mem_cons_of_mem _ (List.mem_cons_of_mem _ later)
    · rcases List.mem_cons.mp found with rfl | found
      · exact Number.le_trans left top
      rcases List.mem_cons.mp found with rfl | later
      · exact Number.le_trans right top
      · exact above x (List.mem_cons_of_mem _ later)

/-- The largest of some numbers is one of them, and no other is larger. -/
theorem Number.maxOf_spec {numbers : List Number} (nonempty : numbers ≠ []) (plain : ∀ x ∈ numbers, x ≠ .nan) :
    maxOf numbers ∈ numbers ∧ ∀ x ∈ numbers, x.le (maxOf numbers) = true := by
  obtain ⟨x, rest, rfl⟩ := List.exists_cons_of_ne_nil nonempty
  rw [maxOf, List.foldl_cons, infinity_max (plain x List.mem_cons_self)]
  exact foldl_max (fun y later => plain y (List.mem_cons_of_mem x later)) (plain x List.mem_cons_self)

/-! ### Numbers in digits -/

/-- The number is smaller than the first that is written with an exponent. -/
def Number.Plain (x : Number) : Prop := ∃ q double, x = .finite q double ∧ q < 10 ^ 21

theorem roundPositive_nat {n : ℕ} (positive : 0 < n) : ∃ m : ℕ, 0 < m ∧ roundPositive n = m := by
  have positiveQ : (0 : ℚ) < n := by exact_mod_cast positive
  have above : ((1 : ℕ) : ℚ) ≤ roundPositive n := le_roundPositive positiveQ (by norm_num) (by exact_mod_cast positive)
  obtain ⟨z, whole⟩ : ∃ z : ℤ, roundPositive n = z := by
    rcases le_or_gt (lastPlace n) 0 with units | coarse
    · obtain ⟨m, scaled⟩ := nat_div_place n units
      refine ⟨n, ?_⟩
      rw [roundPositive, scaled, roundHalfEven_int, ← scaled, Int.cast_natCast]
      field_simp
    · obtain ⟨d, hd⟩ := Int.eq_ofNat_of_zero_le coarse.le
      refine ⟨roundHalfEven (n / 2 ^ lastPlace n) * 2 ^ d, ?_⟩
      rw [roundPositive, hd]
      push_cast
      rfl
  have positiveZ : 1 ≤ z := by
    rw [whole] at above
    exact_mod_cast above
  refine ⟨z.toNat, by omega, ?_⟩
  rw [whole, ← Int.cast_natCast, Int.toNat_of_nonneg (by omega)]

theorem Number.ofNat_cases (n : ℕ) :
    Number.ofNat n = .infinity false ∨ ∃ m : ℕ, ∃ double, Number.ofNat n = .finite (m : ℚ) double := by
  rcases Nat.eq_zero_or_pos n with rfl | positive
  · exact .inr ⟨0, _, Number.ofNat_eq (by norm_num)⟩
  obtain ⟨m, _, rounded⟩ := roundPositive_nat positive
  rw [Number.ofNat, ofRat, dif_pos (by exact_mod_cast positive)]
  by_cases inRange : roundPositive n < limit
  · rw [dif_pos inRange]
    refine .inr ⟨m, ?_, ?_⟩
    · rw [← rounded]
      exact isDouble_roundPositive (by exact_mod_cast positive) inRange
    · simp only [rounded]
  · rw [dif_neg inRange]
    exact .inl rfl

theorem Number.Plain.of_le {n : ℕ} {y : Number} (plain : y.Plain) (le : (Number.ofNat n).le y = true) : (Number.ofNat n).Plain := by
  obtain ⟨q, double, rfl, small⟩ := plain
  rcases Number.ofNat_cases n with infinite | ⟨m, double', finite⟩
  · rw [infinite] at le
    cases le
  · rw [finite] at le ⊢
    exact ⟨m, double', rfl, lt_of_le_of_lt (of_decide_eq_true le) small⟩

theorem nearestDecimal_bounds {q : ℚ} (positive : 0 < q) {k : ℕ} (more : 0 < k) :
    (10 : ℚ) ^ Int.log 10 q ≤ (nearestDecimal q k).value ∧ (nearestDecimal q k).value ≤ 10 ^ (Int.log 10 q + 1) := by
  have ten : (10 : ℚ) ≠ 0 := by norm_num
  set e := Int.log 10 q + 1 - k with he
  have scale : (0 : ℚ) < 10 ^ e := by positivity
  have low : ((10 ^ (k - 1) : ℤ) : ℚ) ≤ q / 10 ^ e := by
    have log := Int.zpow_log_le_self (b := 10) (by norm_num) positive
    rw [le_div_iff₀ scale, Int.cast_pow, ← zpow_natCast, Int.cast_ofNat, ← zpow_add₀ ten]
    have power : ((k - 1 : ℕ) : ℤ) + e = Int.log 10 q := by omega
    rw [power]
    exact_mod_cast log
  have high : q / 10 ^ e ≤ ((10 ^ k : ℤ) : ℚ) := by
    have log := Int.lt_zpow_succ_log_self (b := 10) (by norm_num) q
    rw [div_le_iff₀ scale, Int.cast_pow, ← zpow_natCast, Int.cast_ofNat, ← zpow_add₀ ten]
    have power : (k : ℤ) + e = Int.log 10 q + 1 := by omega
    rw [power]
    exact_mod_cast log.le
  have above := le_roundHalfEven low
  have below := roundHalfEven_le high
  have start : (0 : ℤ) < 10 ^ (k - 1) := by positivity
  have cast : (((roundHalfEven (q / 10 ^ e)).toNat : ℕ) : ℚ) = ((roundHalfEven (q / 10 ^ e) : ℤ) : ℚ) := by
    rw [← Int.cast_natCast, Int.toNat_of_nonneg (by omega)]
  have aboveQ : ((10 : ℚ) ^ (k - 1)) ≤ roundHalfEven (q / 10 ^ e) := by exact_mod_cast above
  have belowQ : (roundHalfEven (q / 10 ^ e) : ℚ) ≤ 10 ^ k := by exact_mod_cast below
  have lower : (10 : ℚ) ^ (k - 1) * 10 ^ e = 10 ^ Int.log 10 q := by
    rw [← zpow_natCast, ← zpow_add₀ ten]
    congr 1
    omega
  have upper : (10 : ℚ) ^ k * 10 ^ e = 10 ^ (Int.log 10 q + 1) := by
    rw [← zpow_natCast, ← zpow_add₀ ten]
    congr 1
    omega
  unfold nearestDecimal
  dsimp only
  rw [← he]
  split
  · -- a carry: the next power of ten
    rw [Decimal.value, Nat.cast_pow, Nat.cast_ofNat, zpow_add₀ ten, zpow_one, ← mul_assoc, lower, ← zpow_add_one₀ ten]
    exact ⟨zpow_le_zpow_right₀ (by norm_num) (by omega), le_rfl⟩
  · rw [Decimal.value, cast, ← lower, ← upper]
    exact ⟨mul_le_mul_of_nonneg_right aboveQ scale.le, mul_le_mul_of_nonneg_right belowQ scale.le⟩

theorem shortestDecimal_lt {n k : ℕ} (positive : 0 < (n : ℚ)) (double : IsDouble (n : ℚ)) (power : IsDouble (10 ^ k : ℚ)) :
    (shortestDecimal n positive double).value < 10 ^ k ↔ (n : ℚ) < 10 ^ k := by
  have more := (Nat.find_spec (exists_digits positive double)).1
  have rounds := ofRat_shortestDecimal positive double
  obtain ⟨low, high⟩ := nearestDecimal_bounds positive more
  change (10 : ℚ) ^ Int.log 10 (n : ℚ) ≤ (shortestDecimal n positive double).value at low
  change (shortestDecimal n positive double).value ≤ 10 ^ (Int.log 10 (n : ℚ) + 1) at high
  constructor
  · intro small
    by_contra! large
    have log : (k : ℤ) ≤ Int.log 10 (n : ℚ) := by
      rw [← Int.zpow_le_iff_le_log (by norm_num) positive]
      exact_mod_cast large
    have climbs : (10 : ℚ) ^ k ≤ 10 ^ Int.log 10 (n : ℚ) := by
      rw [← zpow_natCast]
      exact zpow_le_zpow_right₀ (by norm_num) log
    linarith
  · intro small
    have log : Int.log 10 (n : ℚ) < k := by
      rw [← Int.lt_zpow_iff_log_lt (by norm_num) positive]
      exact_mod_cast small
    have climbs : (10 : ℚ) ^ (Int.log 10 (n : ℚ) + 1) ≤ 10 ^ k := by
      rw [← zpow_natCast]
      exact zpow_le_zpow_right₀ (by norm_num) (by omega)
    refine lt_of_le_of_ne (high.trans climbs) fun same => ?_
    rw [same, ofRat_double power, Number.finite.injEq] at rounds
    exact small.ne rounds.symm

/-- A decimal with no fraction is written in digits alone if it has at most 21 of them. -/
theorem Decimal.literal_digits {d : Decimal} {e : ℕ} (whole : d.exponent = e) (positive : 0 < d.significand) :
    (∀ u ∈ d.literal.text, isDigit u = true) ↔ d.value < 10 ^ 21 := by
  have length : 0 < (natText d.significand).length := List.length_pos_iff.mpr (natText_ne_nil _)
  have value : d.value < 10 ^ 21 ↔ d.significand * 10 ^ e < 10 ^ 21 := by
    rw [Decimal.value, whole, zpow_natCast]
    exact_mod_cast Iff.rfl
  have fits : d.significand * 10 ^ e < 10 ^ 21 ↔ e + (natText d.significand).length ≤ 21 := by
    rw [← natText_length_le (by norm_num), natText_mul_pow positive, List.length_append, List.length_replicate, Nat.add_comm]
  rw [value, fits]
  unfold Decimal.literal
  dsimp only
  rw [whole]
  by_cases short : e + (natText d.significand).length ≤ 21
  · rw [if_pos ⟨by omega, by omega⟩]
    refine iff_of_true (fun u member => ?_) short
    rw [Literal.text, fractionText, if_pos rfl, exponentText, List.append_nil, List.append_nil] at member
    rcases List.mem_append.mp member with digit | zero
    · exact natText_digits _ u digit
    · rw [(List.mem_replicate.mp zero).2]
      rfl
  · rw [if_neg (by omega), if_neg (by omega), if_neg (by omega)]
    refine iff_of_false (fun digits => ?_) short
    have letter := digits (unit 'e') (List.mem_append_right _ (List.mem_append_right _ List.mem_cons_self))
    exact absurd letter (by decide)

theorem isDouble_exponent : IsDouble (10 ^ 21 : ℚ) := by
  refine ⟨5 ^ 21, 21, by norm_num, by norm_num, by norm_num, ?_⟩
  norm_num

/-- A whole number is written in digits alone exactly when it is below `10 ^ 21`. -/
theorem numberText_digits (n : ℕ) : (∀ u ∈ numberText (.ofNat n), isDigit u = true) ↔ (Number.ofNat n).Plain := by
  rcases Number.ofNat_cases n with infinite | ⟨m, double, finite⟩
  · rw [infinite]
    refine iff_of_false (fun digits => ?_) fun ⟨_, _, same, _⟩ => Number.noConfusion same
    exact absurd (digits (unit 'I') (by decide)) (by decide)
  have plain : (Number.finite m double).Plain ↔ (m : ℚ) < 10 ^ 21 := by
    constructor
    · rintro ⟨_, _, same, small⟩
      cases same
      exact small
    · exact fun small => ⟨m, double, rfl, small⟩
  rw [finite, plain]
  simp only [numberText]
  split
  · rename_i positive
    obtain ⟨e, whole⟩ := Int.eq_ofNat_of_zero_le (shortestDecimal_exponent positive double)
    rw [Decimal.literal_digits whole (shortestDecimal_positive positive double),
      shortestDecimal_lt positive double isDouble_exponent]
  split
  · rename_i negative
    have nonneg : (0 : ℚ) ≤ m := Nat.cast_nonneg m
    linarith
  · rename_i notPositive _
    refine iff_of_true (fun u member => ?_) ((not_lt.mp notPositive).trans_lt (by norm_num))
    rw [List.mem_singleton.mp member]
    rfl

end Js
