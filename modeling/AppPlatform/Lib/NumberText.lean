import AppPlatform.Lib.Double
import AppPlatform.Lib.Text
import Mathlib.Tactic.IntervalCases

/-!
# Numbers as decimal text

`scanNumber` reads a JSON number and `numberText` writes one: the shortest decimal that rounds to
the number, laid out as `Number.prototype.toString` does. `scanNumber_numberText` is the round trip.
-/

namespace Js

/-- The parts of a number literal without its sign; an exponent is its sign and its digits. -/
structure Literal where
  whole : Text
  fraction : Text
  exponent : Option (Bool × Text)

def Literal.power : Option (Bool × Text) → ℤ
  | none => 0
  | some (false, digits) => natOf digits
  | some (true, digits) => -natOf digits

def Literal.value (l : Literal) : ℚ :=
  natOf (l.whole ++ l.fraction) * 10 ^ (Literal.power l.exponent - l.fraction.length)

def scanFraction (t : Text) : Option (Text × Text) :=
  match t with
  | u :: r =>
    if u = unit '.' then
      if r.takeWhile isDigit = [] then none else some (r.takeWhile isDigit, r.dropWhile isDigit)
    else some ([], t)
  | [] => some ([], [])

/-- An optional sign after the `e` of an exponent. -/
def scanSign (t : Text) : Bool × Text :=
  match t with
  | u :: r => if u = unit '-' then (true, r) else if u = unit '+' then (false, r) else (false, t)
  | [] => (false, [])

def scanExponent (t : Text) : Option (Option (Bool × Text) × Text) :=
  match t with
  | u :: r =>
    if u = unit 'e' ∨ u = unit 'E' then
      let (negative, r) := scanSign r
      if r.takeWhile isDigit = [] then none
      else some (some (negative, r.takeWhile isDigit), r.dropWhile isDigit)
    else some (none, t)
  | [] => some (none, [])

def scanLiteral (t : Text) : Option (Literal × Text) :=
  let whole := t.takeWhile isDigit
  if whole = [] ∨ (whole.head? = some (unit '0') ∧ whole.length ≠ 1) then none
  else do
    let (fraction, r) ← scanFraction (t.dropWhile isDigit)
    let (exponent, r) ← scanExponent r
    return (⟨whole, fraction, exponent⟩, r)

/-- A JSON number at the head of the text, and what follows it. -/
def scanNumber (t : Text) : Option (Number × Text) :=
  match t with
  | u :: r =>
    if u = unit '-' then (scanLiteral r).map fun (l, r) => (ofRat (-l.value), r)
    else (scanLiteral t).map fun (l, r) => (ofRat l.value, r)
  | [] => none

/-! ### Decimals -/

/-- The decimal `significand · 10^exponent`. -/
structure Decimal where
  significand : ℕ
  exponent : ℤ

def Decimal.value (d : Decimal) : ℚ := d.significand * 10 ^ d.exponent

/-- The decimal of `k` digits nearest to a positive rational. -/
def nearestDecimal (q : ℚ) (k : ℕ) : Decimal :=
  let e := Int.log 10 q + 1 - k
  let s := (roundHalfEven (q / 10 ^ e)).toNat
  if s = 10 ^ k then ⟨10 ^ (k - 1), e + 1⟩ else ⟨s, e⟩

theorem exists_exact {q : ℚ} (positive : 0 < q) (double : IsDouble q) :
    ∃ k, 0 < k ∧ (nearestDecimal q k).value = q := by
  obtain ⟨m, e, -, -, -, rfl⟩ := double
  set q := (m : ℚ) * 2 ^ e with hq
  -- `q` is an integer over some power of ten
  obtain ⟨j, n, whole⟩ : ∃ (j : ℕ) (n : ℤ), q * 10 ^ j = n := by
    refine ⟨(-e).toNat, m * 5 ^ (-e).toNat * 2 ^ (e + (-e).toNat).toNat, ?_⟩
    have nonneg : 0 ≤ e + (-e).toNat := by omega
    have ten : (10 : ℚ) ^ (-e).toNat = 5 ^ (-e).toNat * 2 ^ (-e).toNat := by rw [← mul_pow]; norm_num
    have two : (2 : ℚ) ^ e * 2 ^ (-e).toNat = 2 ^ (e + (-e).toNat).toNat := by
      rw [← zpow_natCast, ← zpow_natCast, ← zpow_add₀ (by norm_num), Int.toNat_of_nonneg nonneg]
    push_cast
    rw [hq, ten, ← two]
    ring
  obtain ⟨k, hk, hk'⟩ : ∃ k : ℕ, 0 < k ∧ (j : ℤ) ≤ k - (Int.log 10 q + 1) :=
    ⟨(j + (Int.log 10 q + 1)).toNat + 1, by omega, by omega⟩
  obtain ⟨i, hi⟩ := Int.eq_ofNat_of_zero_le (show 0 ≤ k - (Int.log 10 q + 1) - j by omega)
  have scaled : q / 10 ^ (Int.log 10 q + 1 - k) = ((n * 10 ^ i : ℤ) : ℚ) := by
    have power : (Int.log 10 q + 1 - k : ℤ) = -(j + i : ℕ) := by push_cast; omega
    rw [power, zpow_neg, div_inv_eq_mul, zpow_natCast, pow_add, ← mul_assoc, whole]
    push_cast
    rfl
  have nPositive : 0 < n * 10 ^ i := by
    have : (0 : ℚ) < ((n * 10 ^ i : ℤ) : ℚ) := by rw [← scaled]; positivity
    exact_mod_cast this
  have exact : ((n * 10 ^ i).toNat : ℚ) = q / 10 ^ (Int.log 10 q + 1 - k) := by
    rw [scaled, ← Int.cast_natCast, Int.toNat_of_nonneg nPositive.le]
  have below : q / 10 ^ (Int.log 10 q + 1 - k) < 10 ^ k := by
    have log := Int.lt_zpow_succ_log_self (b := 10) (by norm_num) q
    rw [div_lt_iff₀ (by positivity), ← zpow_natCast, ← zpow_add₀ (by norm_num)]
    push_cast at log
    simpa using log
  refine ⟨k, hk, ?_⟩
  have notCarry : (n * 10 ^ i).toNat ≠ 10 ^ k := by
    intro same
    rw [← exact, same] at below
    push_cast at below
    exact lt_irrefl _ below
  rw [nearestDecimal, scaled, roundHalfEven_int, if_neg notCarry, Decimal.value, exact]
  field_simp

theorem exists_digits {q : ℚ} (positive : 0 < q) (double : IsDouble q) :
    ∃ k, 0 < k ∧ (ofRat (nearestDecimal q k).value).isFinite q = true := by
  obtain ⟨k, hk, exact⟩ := exists_exact positive double
  exact ⟨k, hk, by rw [exact, ofRat_double double]; simp [Number.isFinite]⟩

def shortestDecimal (q : ℚ) (positive : 0 < q) (double : IsDouble q) : Decimal :=
  nearestDecimal q (Nat.find (exists_digits positive double))

theorem ofRat_shortestDecimal {q : ℚ} (positive : 0 < q) (double : IsDouble q) :
    ofRat (shortestDecimal q positive double).value = .finite q double := by
  have found := (Nat.find_spec (exists_digits positive double)).2
  change (ofRat (shortestDecimal q positive double).value).isFinite q = true at found
  exact Number.eq_finite double found

/-- The layout of `Number.prototype.toString` for a positive decimal. -/
def Decimal.literal (d : Decimal) : Literal :=
  let digits := natText d.significand
  let k := digits.length
  let n := d.exponent + k
  if k ≤ n ∧ n ≤ 21 then ⟨digits ++ List.replicate (n - k).toNat (unit '0'), [], none⟩
  else if 0 < n ∧ n ≤ 21 then ⟨digits.take n.toNat, digits.drop n.toNat, none⟩
  else if -6 < n ∧ n ≤ 0 then ⟨[unit '0'], List.replicate (-n).toNat (unit '0') ++ digits, none⟩
  else ⟨digits.take 1, digits.drop 1, some (decide (n - 1 < 0), natText (n - 1).natAbs)⟩

def fractionText (fraction : Text) : Text := if fraction = [] then [] else unit '.' :: fraction

def exponentText : Option (Bool × Text) → Text
  | none => []
  | some (negative, digits) => unit 'e' :: (if negative then unit '-' else unit '+') :: digits

def Literal.text (l : Literal) : Text := l.whole ++ (fractionText l.fraction ++ exponentText l.exponent)

/-- `Number.prototype.toString`. -/
def numberText : Number → Text
  | .nan => Js.text "NaN"
  | .infinity false => Js.text "Infinity"
  | .infinity true => Js.text "-Infinity"
  | .finite q double =>
    if positive : 0 < q then (shortestDecimal q positive double).literal.text
    else if negative : 0 < -q then unit '-' :: (shortestDecimal (-q) negative double.neg).literal.text
    else [unit '0']

/-! ### Reading back what was written -/

/-- What the number grammar asks of a literal. -/
structure Literal.Valid (l : Literal) : Prop where
  whole_digits : ∀ u ∈ l.whole, isDigit u = true
  whole_nonempty : l.whole ≠ []
  no_leading_zero : l.whole.head? = some (unit '0') → l.whole.length = 1
  fraction_digits : ∀ u ∈ l.fraction, isDigit u = true
  exponent_digits : ∀ e ∈ l.exponent, e.2 ≠ [] ∧ ∀ u ∈ e.2, isDigit u = true

def continuesNumber (u : CodeUnit) : Bool :=
  isDigit u || u = unit '.' || u = unit 'e' || u = unit 'E'

theorem StopsAt.mono {p q : CodeUnit → Bool} {rest : Text} (stop : StopsAt q rest)
    (weaker : ∀ u, p u = true → q u = true) : StopsAt p rest := by
  intro u head
  by_contra held
  have := weaker u (by simpa using held)
  simp [stop u head] at this

theorem stopsAt_cons {p : CodeUnit → Bool} {u : CodeUnit} {rest : Text} (no : p u = false) :
    StopsAt p (u :: rest) := by
  intro v head
  cases head
  exact no

theorem scanExponent_text {exponent : Option (Bool × Text)} {rest : Text}
    (valid : ∀ e ∈ exponent, e.2 ≠ [] ∧ ∀ u ∈ e.2, isDigit u = true) (stop : StopsAt continuesNumber rest) :
    scanExponent (exponentText exponent ++ rest) = some (exponent, rest) := by
  cases exponent with
  | none =>
    cases rest with
    | nil => rfl
    | cons u rest =>
      have no := stop u rfl
      simp only [continuesNumber, Bool.or_eq_false_iff, decide_eq_false_iff_not] at no
      simp [exponentText, scanExponent, no.1.2, no.2]
  | some e =>
    obtain ⟨negative, digits⟩ := e
    obtain ⟨nonempty, all⟩ := valid _ rfl
    obtain ⟨run, after⟩ := takeWhile_stop all (stop.mono (p := isDigit) (by simp +contextual [continuesNumber]))
    have sign : scanSign ((if negative then unit '-' else unit '+') :: (digits ++ rest)) =
        (negative, digits ++ rest) := by
      cases negative <;> simp [scanSign, show unit '+' ≠ unit '-' by decide]
    simp only [exponentText, List.cons_append, scanExponent, true_or, if_true, sign, run, after, if_neg nonempty]

theorem scanFraction_text {fraction tail : Text} (digits : ∀ u ∈ fraction, isDigit u = true)
    (stop : StopsAt (fun u => isDigit u || u = unit '.') tail) :
    scanFraction (fractionText fraction ++ tail) = some (fraction, tail) := by
  unfold fractionText
  split
  · rename_i empty
    subst empty
    cases tail with
    | nil => rfl
    | cons u tail =>
      have no := stop u rfl
      simp only [Bool.or_eq_false_iff, decide_eq_false_iff_not] at no
      simp [scanFraction, no.2]
  · rename_i nonempty
    obtain ⟨run, after⟩ := takeWhile_stop digits (stop.mono (p := isDigit) (by simp +contextual))
    simp only [List.cons_append, scanFraction, if_true, run, after, if_neg nonempty]

theorem scanLiteral_text {l : Literal} {rest : Text} (valid : l.Valid) (stop : StopsAt continuesNumber rest) :
    scanLiteral (l.text ++ rest) = some (l, rest) := by
  -- the exponent, or what follows the number, stops the fraction; either stops the whole part
  have afterFraction : StopsAt (fun u => isDigit u || u = unit '.') (exponentText l.exponent ++ rest) := by
    cases l.exponent with
    | none => exact stop.mono (by simp +contextual [continuesNumber])
    | some e => exact stopsAt_cons (by decide)
  have afterWhole : StopsAt isDigit (fractionText l.fraction ++ (exponentText l.exponent ++ rest)) := by
    unfold fractionText
    split
    · exact afterFraction.mono fun u digit => by simp [digit]
    · exact stopsAt_cons (by decide)
  obtain ⟨run, after⟩ := takeWhile_stop valid.whole_digits afterWhole
  have noZero : ¬ (l.whole = [] ∨ (l.whole.head? = some (unit '0') ∧ l.whole.length ≠ 1)) := by
    rintro (empty | ⟨zero, long⟩)
    · exact valid.whole_nonempty empty
    · exact long (valid.no_leading_zero zero)
  simp only [scanLiteral, Literal.text, List.append_assoc, run, after, if_neg noZero]
  rw [scanFraction_text valid.fraction_digits afterFraction]
  simp only [Option.bind_eq_bind, Option.bind_some, scanExponent_text valid.exponent_digits stop]
  rfl

theorem natText_head {n : ℕ} (positive : 0 < n) : (natText n).head? ≠ some (unit '0') := by
  induction n using Nat.strong_induction_on with
  | _ n ih =>
    rw [natText, Nat.toDigits_eq_if (by norm_num)]
    split
    · rename_i small
      interval_cases n <;> decide
    · rename_i large
      have shorter := ih (n / 10) (Nat.div_lt_self positive (by norm_num)) (Nat.div_pos (by omega) (by norm_num))
      rw [List.map_append, ← natText, List.head?_append_of_ne_nil _ (natText_ne_nil (n / 10))]
      exact shorter

theorem literal_valid {whole fraction tail : Text} {exponent : Option (Bool × Text)} {n : ℕ} (positive : 0 < n)
    (shape : natText n = whole ++ tail) (nonempty : whole ≠ []) (zeros : ℕ)
    (fractionDigits : ∀ u ∈ fraction, isDigit u = true)
    (exponentDigits : ∀ e ∈ exponent, e.2 ≠ [] ∧ ∀ u ∈ e.2, isDigit u = true) :
    Literal.Valid ⟨whole ++ List.replicate zeros (unit '0'), fraction, exponent⟩ where
  whole_digits u member := by
    rcases List.mem_append.mp member with left | right
    · exact natText_digits n u (by rw [shape]; exact List.mem_append_left _ left)
    · rw [(List.mem_replicate.mp right).2]
      rfl
  whole_nonempty := by simp [nonempty]
  no_leading_zero head := by
    have first := natText_head positive
    rw [shape, List.head?_append_of_ne_nil _ nonempty] at first
    rw [List.head?_append_of_ne_nil _ nonempty] at head
    exact (first head).elim
  fraction_digits := fractionDigits
  exponent_digits := exponentDigits

theorem Decimal.literal_valid {d : Decimal} (positive : 0 < d.significand) : d.literal.Valid := by
  have digits := natText_digits d.significand
  have length : 0 < (natText d.significand).length := List.length_pos_iff.mpr (natText_ne_nil _)
  have dropped : ∀ m, ∀ u ∈ (natText d.significand).drop m, isDigit u = true :=
    fun m u member => digits u (List.mem_of_mem_drop member)
  have taken : ∀ m, 0 < m → (natText d.significand).take m ≠ [] := by
    intro m hm
    rw [← List.length_pos_iff, List.length_take]
    omega
  unfold Decimal.literal
  dsimp only
  split
  · exact Js.literal_valid positive (show natText d.significand = natText d.significand ++ [] by simp)
      (natText_ne_nil _) _ (by simp) (by simp)
  split
  · simpa using Js.literal_valid positive (List.take_append_drop _ _).symm (taken _ (by omega)) 0 (dropped _) (by simp)
  split
  · constructor
    · simp; rfl
    · simp
    · simp
    · intro u member
      rcases List.mem_append.mp member with zero | digit
      · rw [(List.mem_replicate.mp zero).2]
        rfl
      · exact digits u digit
    · simp
  · generalize d.exponent + (natText d.significand).length - 1 = e
    have exponentDigits : ∀ p ∈ some (decide (e < 0), natText e.natAbs), p.2 ≠ [] ∧ ∀ u ∈ p.2, isDigit u = true := by
      rintro _ ⟨⟩
      exact ⟨natText_ne_nil _, natText_digits _⟩
    simpa using Js.literal_valid positive (List.take_append_drop _ _).symm (taken 1 (by omega)) 0 (dropped 1)
      exponentDigits

theorem Decimal.literal_value (d : Decimal) : d.literal.value = d.value := by
  have length : 0 < (natText d.significand).length := List.length_pos_iff.mpr (natText_ne_nil _)
  unfold Decimal.literal Literal.value Decimal.value
  dsimp only
  split
  · rename_i h
    obtain ⟨e, he⟩ := Int.eq_ofNat_of_zero_le (show 0 ≤ d.exponent by omega)
    have zeros : (d.exponent + (natText d.significand).length - (natText d.significand).length : ℤ).toNat = e := by
      omega
    rw [zeros, List.append_nil, natOf_append, natOf_natText, natOf_zeros, List.length_replicate, he]
    simp [Literal.power]
  split
  · rename_i h h'
    rw [List.take_append_drop, natOf_natText, List.length_drop]
    congr 2
    simp only [Literal.power]
    omega
  split
  · rename_i h h' h''
    rw [← List.append_assoc, natOf_append, natOf_natText, show [unit '0'] = List.replicate 1 (unit '0') from rfl,
      ← List.replicate_add, natOf_zeros, List.length_append, List.length_replicate, zero_mul, zero_add]
    congr 2
    simp only [Literal.power]
    omega
  · rw [List.take_append_drop, natOf_natText, List.length_drop]
    congr 2
    by_cases negative : d.exponent + (natText d.significand).length - 1 < 0
    · simp only [Literal.power, decide_true, negative, natOf_natText]
      omega
    · simp only [Literal.power, decide_false, negative, natOf_natText]
      omega

theorem ofRat_neg {q r : ℚ} {double : IsDouble r} (positive : 0 < q) (h : ofRat q = .finite r double) :
    ofRat (-q) = .finite (-r) double.neg := by
  unfold ofRat at h ⊢
  rw [dif_pos positive] at h
  rw [dif_neg (by linarith)]
  simp only [neg_neg, dif_pos positive]
  split at h
  · rename_i inRange
    cases h
    rw [dif_pos inRange]
  · cases h

theorem shortestDecimal_positive {q : ℚ} (positive : 0 < q) (double : IsDouble q) :
    0 < (shortestDecimal q positive double).significand := by
  have rounds := ofRat_shortestDecimal positive double
  rw [Nat.pos_iff_ne_zero]
  intro zero
  rw [Decimal.value, zero, Nat.cast_zero, zero_mul, ofRat_double isDouble_zero] at rounds
  cases rounds
  exact lt_irrefl _ positive

theorem Decimal.value_positive {d : Decimal} (positive : 0 < d.significand) : 0 < d.value := by
  have : (0 : ℚ) < d.significand := by exact_mod_cast positive
  unfold Decimal.value
  positivity

theorem literal_text_head {l : Literal} (valid : l.Valid) (rest : Text) :
    ∃ u t, l.text ++ rest = u :: t ∧ isDigit u = true := by
  obtain ⟨u, t, shape⟩ := List.exists_cons_of_ne_nil valid.whole_nonempty
  exact ⟨u, _, by rw [Literal.text, shape]; rfl, valid.whole_digits u (by simp [shape])⟩

theorem scanNumber_literal {l : Literal} {rest : Text} (valid : l.Valid) (stop : StopsAt continuesNumber rest) :
    scanNumber (l.text ++ rest) = some (ofRat l.value, rest) := by
  obtain ⟨u, t, shape, digit⟩ := literal_text_head valid rest
  have notMinus : u ≠ unit '-' := by
    rintro rfl
    exact absurd digit (by decide)
  have scanned := scanLiteral_text valid stop
  rw [shape] at scanned ⊢
  simp only [scanNumber, if_neg notMinus, scanned, Option.map_some]

theorem scanNumber_numberText {q : ℚ} (double : IsDouble q) {rest : Text} (stop : StopsAt continuesNumber rest) :
    scanNumber (numberText (.finite q double) ++ rest) = some (.finite q double, rest) := by
  simp only [numberText]
  split
  · rename_i positive
    rw [scanNumber_literal (Decimal.literal_valid (shortestDecimal_positive positive double)) stop,
      Decimal.literal_value, ofRat_shortestDecimal]
  split
  · rename_i negative
    have significand := shortestDecimal_positive negative double.neg
    have rounds := ofRat_neg (Decimal.value_positive significand) (ofRat_shortestDecimal negative double.neg)
    rw [List.cons_append, scanNumber, if_pos rfl,
      scanLiteral_text (Decimal.literal_valid significand) stop]
    simp only [Option.map_some, Decimal.literal_value, rounds, neg_neg]
  · have zero : q = 0 := by linarith
    subst zero
    have valid : Literal.Valid ⟨[unit '0'], [], none⟩ := by constructor <;> simp; rfl
    have scanned := scanNumber_literal valid stop
    rwa [show Literal.value ⟨[unit '0'], [], none⟩ = 0 by simp [Literal.value, natOf, digitValue, unit],
      ofRat_double isDouble_zero] at scanned

/-! ### Whole numbers -/

theorem nearestDecimal_exponent (q : ℚ) (k : ℕ) : Int.log 10 q + 1 - k ≤ (nearestDecimal q k).exponent := by
  unfold nearestDecimal
  dsimp only
  split
  · exact (Int.lt_add_one_iff.mpr le_rfl).le
  · exact le_rfl

theorem nearestDecimal_nat {n : ℕ} : (nearestDecimal n (Nat.log 10 n + 1)).value = n := by
  have log : Int.log 10 (n : ℚ) = Nat.log 10 n := Int.log_natCast 10 n
  have below : n ≠ 10 ^ (Nat.log 10 n + 1) := (Nat.lt_pow_succ_log_self (by norm_num) n).ne
  have place : Int.log 10 (n : ℚ) + 1 - (Nat.log 10 n + 1 : ℕ) = 0 := by rw [log]; push_cast; ring
  have rounded : roundHalfEven (n / 10 ^ (0 : ℤ)) = (n : ℤ) := by
    rw [zpow_zero, div_one, ← Int.cast_natCast, roundHalfEven_int]
  unfold nearestDecimal
  dsimp only
  rw [place, rounded, Int.toNat_natCast, if_neg below, Decimal.value, zpow_zero, mul_one]

theorem shortestDecimal_exponent {n : ℕ} (positive : 0 < (n : ℚ)) (double : IsDouble (n : ℚ)) :
    0 ≤ (shortestDecimal n positive double).exponent := by
  have enough : 0 < Nat.log 10 n + 1 ∧ (ofRat (nearestDecimal n (Nat.log 10 n + 1)).value).isFinite n = true :=
    ⟨Nat.succ_pos _, by rw [nearestDecimal_nat, ofRat_double double]; simp [Number.isFinite]⟩
  have bound := Nat.find_min' (exists_digits positive double) enough
  have exponent := nearestDecimal_exponent n (Nat.find (exists_digits positive double))
  have log : Int.log 10 (n : ℚ) = Nat.log 10 n := Int.log_natCast 10 n
  rw [log] at exponent
  unfold shortestDecimal
  omega

/-- The shortest decimal of a whole number below `2 ^ 53` is that number. -/
theorem shortestDecimal_value {n : ℕ} (small : n < 2 ^ 53) (positive : 0 < (n : ℚ)) (double : IsDouble (n : ℚ)) :
    ∃ e : ℕ, (shortestDecimal n positive double).exponent = e ∧
      (shortestDecimal n positive double).significand * 10 ^ e = n := by
  obtain ⟨e, he⟩ := Int.eq_ofNat_of_zero_le (shortestDecimal_exponent positive double)
  have rounds := ofRat_shortestDecimal positive double
  refine ⟨e, he, ?_⟩
  generalize shortestDecimal n positive double = d at he rounds
  have value : d.value = ((d.significand * 10 ^ e : ℕ) : ℚ) := by
    rw [Decimal.value, he, zpow_natCast]
    push_cast
    rfl
  rw [value] at rounds
  generalize d.significand * 10 ^ e = m at rounds
  rcases lt_or_ge m (2 ^ 53) with double' | large
  · rw [ofRat_double (isDouble_nat double'), Number.finite.injEq] at rounds
    exact_mod_cast rounds
  · have largeQ : ((2 ^ 53 : ℕ) : ℚ) ≤ m := by exact_mod_cast large
    have above := le_of_ofRat (lt_of_lt_of_le (by norm_num) largeQ) le_rfl largeQ rounds
    have : 2 ^ 53 ≤ n := by exact_mod_cast above
    omega

theorem numberText_nat {n : ℕ} (small : n < 2 ^ 53) (double : IsDouble (n : ℚ)) :
    numberText (.finite n double) = natText n := by
  rcases Nat.eq_zero_or_pos n with rfl | more
  · simp only [numberText]
    rw [dif_neg (by norm_num), dif_neg (by norm_num)]
    rfl
  have positive : 0 < (n : ℚ) := by exact_mod_cast more
  obtain ⟨e, exponent, value⟩ := shortestDecimal_value small positive double
  have significand := shortestDecimal_positive positive double
  simp only [numberText]
  rw [dif_pos positive]
  generalize shortestDecimal n positive double = d at exponent value significand
  have digits := natText_mul_pow significand e
  rw [value] at digits
  have length : (natText n).length ≤ 21 := (natText_length_le (by norm_num)).mpr (by omega)
  rw [digits, List.length_append, List.length_replicate] at length
  have whole : d.literal = ⟨natText d.significand ++ List.replicate e (unit '0'), [], none⟩ := by
    unfold Decimal.literal
    dsimp only
    rw [if_pos ⟨by omega, by omega⟩, exponent, add_sub_cancel_right, Int.toNat_natCast]
  rw [whole, Literal.text, digits]
  simp [fractionText, exponentText]

/-! ### Numbers written in digits alone -/

theorem Literal.value_digits {l : Literal} (digits : ∀ u ∈ l.text, isDigit u = true) : l.value = natOf l.text := by
  have fraction : l.fraction = [] := by
    by_contra more
    have point : unit '.' ∈ l.text := by
      rw [Literal.text, fractionText, if_neg more]
      exact List.mem_append_right _ (List.mem_append_left _ List.mem_cons_self)
    exact absurd (digits _ point) (by decide)
  have exponent : l.exponent = none := by
    cases found : l.exponent with
    | none => rfl
    | some e =>
      have letter : unit 'e' ∈ l.text := by
        rw [Literal.text, found, exponentText]
        exact List.mem_append_right _ (List.mem_append_right _ List.mem_cons_self)
      exact absurd (digits _ letter) (by decide)
  rw [Literal.value, Literal.text, fraction, exponent]
  simp [Literal.power, fractionText, exponentText]

/-- A number that is written in digits alone is read back from them. -/
theorem ofRat_numberText {x : Number} (digits : ∀ u ∈ numberText x, isDigit u = true) : ofRat (natOf (numberText x)) = x := by
  cases x with
  | nan => exact absurd (digits (unit 'N') (by decide)) (by decide)
  | infinity negative =>
    cases negative with
    | false => exact absurd (digits (unit 'I') (by decide)) (by decide)
    | true => exact absurd (digits (unit 'I') (by decide)) (by decide)
  | finite q double =>
    simp only [numberText] at digits ⊢
    split at digits
    · rename_i positive
      rw [dif_pos positive, ← Literal.value_digits digits, Decimal.literal_value, ofRat_shortestDecimal]
    split at digits
    · exact absurd (digits (unit '-') List.mem_cons_self) (by decide)
    · rename_i notPositive notNegative
      have zero : q = 0 := by linarith
      subst zero
      rw [dif_neg notPositive, dif_neg notNegative, show natOf [unit '0'] = 0 from rfl, Nat.cast_zero, ofRat_double isDouble_zero]

theorem numberText_ne_nil (x : Number) : numberText x ≠ [] := by
  cases x with
  | nan => decide
  | infinity negative => cases negative <;> decide
  | finite q double =>
    simp only [numberText]
    split
    · rename_i positive
      obtain ⟨u, t, shape, _⟩ := literal_text_head (Decimal.literal_valid (shortestDecimal_positive positive double)) []
      rw [List.append_nil] at shape
      rw [shape]
      exact List.cons_ne_nil u t
    split
    · exact List.cons_ne_nil _ _
    · exact List.cons_ne_nil _ _

def isNumberUnit (u : CodeUnit) : Bool :=
  isDigit u || u = unit '.' || u = unit 'e' || u = unit '+' || u = unit '-'

theorem Literal.text_units {l : Literal} (valid : l.Valid) : ∀ u ∈ l.text, isNumberUnit u = true := by
  have digit : ∀ u, isDigit u = true → isNumberUnit u = true := by
    intro u digit
    simp [isNumberUnit, digit]
  intro u member
  rcases List.mem_append.mp member with whole | later
  · exact digit u (valid.whole_digits u whole)
  rcases List.mem_append.mp later with fraction | exponent
  · unfold fractionText at fraction
    split at fraction
    · cases fraction
    · rcases List.mem_cons.mp fraction with rfl | inside
      · decide
      · exact digit u (valid.fraction_digits u inside)
  · cases found : l.exponent with
    | none =>
      rw [found] at exponent
      cases exponent
    | some e =>
      obtain ⟨negative, digits⟩ := e
      rw [found, exponentText] at exponent
      rcases List.mem_cons.mp exponent with rfl | exponent
      · decide
      rcases List.mem_cons.mp exponent with rfl | inside
      · cases negative <;> decide
      · exact digit u ((valid.exponent_digits _ found).2 u inside)

theorem numberText_units {q : ℚ} (double : IsDouble q) : ∀ u ∈ numberText (.finite q double), isNumberUnit u = true := by
  intro u member
  simp only [numberText] at member
  split at member
  · rename_i positive
    exact Literal.text_units (Decimal.literal_valid (shortestDecimal_positive positive double)) u member
  split at member
  · rename_i negative
    rcases List.mem_cons.mp member with rfl | inside
    · decide
    · exact Literal.text_units (Decimal.literal_valid (shortestDecimal_positive negative double.neg)) u inside
  · rw [List.mem_singleton.mp member]
    decide

theorem colon_numberText (x : Number) : (0x3A : CodeUnit) ∉ numberText x := by
  cases x with
  | nan => decide
  | infinity negative => cases negative <;> decide
  | finite q double =>
    intro member
    exact absurd (numberText_units double _ member) (by decide)

end Js
