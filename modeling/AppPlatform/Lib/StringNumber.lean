import AppPlatform.Lib.NumberText

/-!
# The number of a string

`Number(text)`: white space around it is ignored, nothing at all is zero, and what is left is a decimal
with an optional sign, `Infinity`, or whole digits with the prefix of another base.
-/

namespace Js

/-- The digits after a point; none are needed. -/
def optionalFraction (t : Text) : Text × Text :=
  match t with
  | u :: r => if u = unit '.' then (r.takeWhile isDigit, r.dropWhile isDigit) else ([], t)
  | [] => ([], [])

/-- A decimal without a sign: it has a digit before or after the point. -/
def unsignedDecimal (t : Text) : Number :=
  if t = text "Infinity" then .infinity false
  else
    let whole := t.takeWhile isDigit
    let (fraction, rest) := optionalFraction (t.dropWhile isDigit)
    if whole = [] ∧ fraction = [] then .nan
    else match scanExponent rest with
      | some (exponent, []) => ofRat (Literal.value ⟨whole, fraction, exponent⟩)
      | _ => .nan

def Number.neg : Number → Number
  | .finite q double => .finite (-q) double.neg
  | .infinity negative => .infinity (!negative)
  | .nan => .nan

/-- The base that the letter after a zero stands for. -/
def baseOf (u : CodeUnit) : Option ℕ :=
  if u = unit 'x' ∨ u = unit 'X' then some 16
  else if u = unit 'o' ∨ u = unit 'O' then some 8
  else if u = unit 'b' ∨ u = unit 'B' then some 2
  else none

def digitIn (base : ℕ) (u : CodeUnit) : Option ℕ :=
  let value :=
    if isDigit u then some (digitValue u)
    else if isLower u then some (u.toNat - 87)
    else if isUpper u then some (u.toNat - 55)
    else none
  value.filter (· < base)

def wholeIn (base : ℕ) (digits : Text) : Option ℕ :=
  if digits = [] then none
  else (digits.mapM (digitIn base)).map fun values => values.foldl (fun n d => base * n + d) 0

def toNumber (text : Text) : Number :=
  match trim text with
  | [] => .ofNat 0
  | [u] => unsignedDecimal [u]
  | u :: v :: rest =>
    match baseOf v with
    | some base =>
      if u = unit '0' then
        match wholeIn base rest with
        | some n => .ofNat n
        | none => .nan
      else .nan
    | none =>
      if u = unit '-' then (unsignedDecimal (v :: rest)).neg
      else if u = unit '+' then unsignedDecimal (v :: rest)
      else unsignedDecimal (u :: v :: rest)

theorem unsignedDecimal_digits {t : Text} (digits : ∀ u ∈ t, isDigit u = true) (nonempty : t ≠ []) :
    unsignedDecimal t = .ofNat (natOf t) := by
  have word : t ≠ text "Infinity" := by
    intro same
    rw [same] at digits
    exact absurd (digits (unit 'I') (by decide)) (by decide)
  have whole : t.takeWhile isDigit = t := List.takeWhile_eq_self_iff.mpr digits
  have rest : t.dropWhile isDigit = [] := List.dropWhile_eq_nil_iff.mpr digits
  have value : (Literal.mk t [] none).value = natOf t := by simp [Literal.value, Literal.power]
  rw [unsignedDecimal, if_neg word, whole, rest]
  simp only [optionalFraction, if_neg (not_and_of_not_left _ nonempty), scanExponent, value]
  rfl

theorem trim_digits {t : Text} (digits : ∀ u ∈ t, isDigit u = true) : trim t = t := by
  refine trim_eq fun u member => ?_
  have range := isDigit_range (digits u member)
  exact isWhiteSpace_letter (by omega) (by omega)

theorem trim_natText (n : ℕ) : trim (natText n) = natText n := trim_digits (natText_digits n)

theorem toNumber_digits {t : Text} (digits : ∀ u ∈ t, isDigit u = true) (nonempty : t ≠ []) : toNumber t = .ofNat (natOf t) := by
  have read := unsignedDecimal_digits digits nonempty
  rw [toNumber, trim_digits digits]
  match t with
  | [] => exact (nonempty rfl).elim
  | [u] => exact read
  | u :: v :: rest =>
    have first := digits u (by simp)
    have second := digits v (by simp)
    have not_digit : ∀ {a b : CodeUnit}, isDigit a = true → isDigit b = false → a ≠ b := by
      intro a b digit other same
      rw [same, other] at digit
      cases digit
    have noBase : baseOf v = none := by
      simp [baseOf, not_digit second (show isDigit (unit 'x') = false by decide),
        not_digit second (show isDigit (unit 'X') = false by decide), not_digit second (show isDigit (unit 'o') = false by decide),
        not_digit second (show isDigit (unit 'O') = false by decide), not_digit second (show isDigit (unit 'b') = false by decide),
        not_digit second (show isDigit (unit 'B') = false by decide)]
    have minus : u ≠ unit '-' := not_digit first (by decide)
    have plus : u ≠ unit '+' := not_digit first (by decide)
    simp only [noBase, if_neg minus, if_neg plus, read]

/-- A whole number is read from its digits. -/
theorem toNumber_natText (n : ℕ) : toNumber (natText n) = .ofNat n := by
  rw [toNumber_digits (natText_digits n) (natText_ne_nil n), natOf_natText]

end Js
