import AppPlatform.Lib.Text
import Mathlib.Data.Int.Basic

/-!
# Dates as text

A `Date` is a number of milliseconds since 1970. `toISOString` writes it in the proleptic Gregorian
calendar, years beyond four digits with a sign. No two dates are written alike.
-/

namespace Js

/-- At least `width` decimal digits. -/
def padded (width n : ℕ) : Text := List.replicate (width - (natText n).length) (unit '0') ++ natText n

theorem natOf_padded (width n : ℕ) : natOf (padded width n) = n := by
  rw [padded, natOf_append, natOf_zeros, natOf_natText, Nat.zero_mul, Nat.zero_add]

theorem padded_injective (width : ℕ) : Function.Injective (padded width) := by
  intro m n same
  rw [← natOf_padded width m, ← natOf_padded width n, same]

theorem length_padded {width n : ℕ} (positive : 0 < width) (small : n < 10 ^ width) :
    (padded width n).length = width := by
  have short : (natText n).length ≤ width := by
    rw [natText, List.length_map]
    exact (Nat.length_toDigits_le_iff (by omega) positive).mpr small
  rw [padded, List.length_append, List.length_replicate]
  omega

theorem padded_digits (width n : ℕ) : ∀ u ∈ padded width n, isDigit u = true := by
  intro u member
  rcases List.mem_append.mp member with zero | digit
  · rw [List.eq_of_mem_replicate zero]
    decide
  · exact natText_digits n u digit

/-! ### The calendar -/

/-- A day, in years that begin with March; `dayOfYear` counts from the first of March. -/
structure MarchDay where
  year : ℤ
  dayOfYear : ℕ

/-- Four hundred years have 146097 days, a century 36524 and four years 1461, the last of each longer. -/
def marchDay (days : ℤ) : MarchDay :=
  let shifted := days + 719468
  let dayOfEra := (shifted % 146097).toNat
  let century := min (dayOfEra / 36524) 3
  let dayOfCentury := dayOfEra - 36524 * century
  let quad := dayOfCentury / 1461
  let dayOfQuad := dayOfCentury - 1461 * quad
  let year := min (dayOfQuad / 365) 3
  ⟨400 * (shifted / 146097) + (100 * century + 4 * quad + year : ℕ), dayOfQuad - 365 * year⟩

structure CivilDay where
  year : ℤ
  month : ℕ
  day : ℕ

def civilDay (days : ℤ) : CivilDay :=
  let d := marchDay days
  let month := (5 * d.dayOfYear + 2) / 153
  ⟨if month < 10 then d.year else d.year + 1, if month < 10 then month + 3 else month - 9,
    d.dayOfYear - (153 * month + 2) / 5 + 1⟩

theorem marchDay_parts (days : ℤ) : ∃ era : ℤ, ∃ century quad year : ℕ, century ≤ 3 ∧ quad ≤ 24 ∧ year ≤ 3 ∧
    (marchDay days).dayOfYear ≤ 365 ∧ (marchDay days).year = 400 * era + (100 * century + 4 * quad + year : ℕ) ∧
    days + 719468 = 146097 * era +
      (36524 * century + 1461 * quad + 365 * year + (marchDay days).dayOfYear : ℕ) := by
  have split := Int.mul_ediv_add_emod (days + 719468) 146097
  have range : 0 ≤ (days + 719468) % 146097 ∧ (days + 719468) % 146097 < 146097 := by omega
  refine ⟨(days + 719468) / 146097, _, _, _, ?_, ?_, ?_, ?_, rfl, ?_⟩
  · omega
  · omega
  · omega
  · simp only [marchDay]
    omega
  · simp only [marchDay]
    omega

theorem marchDay_dayOfYear (days : ℤ) : (marchDay days).dayOfYear ≤ 365 := by
  obtain ⟨_, _, _, _, _, _, _, bound, _⟩ := marchDay_parts days
  exact bound

theorem marchDay_injective {d d' : ℤ} (year : (marchDay d).year = (marchDay d').year)
    (day : (marchDay d).dayOfYear = (marchDay d').dayOfYear) : d = d' := by
  obtain ⟨era, century, quad, rest, small, small₁, small₂, _, years, days⟩ := marchDay_parts d
  obtain ⟨era', century', quad', rest', small', small₁', small₂', _, years', days'⟩ := marchDay_parts d'
  rw [years, years'] at year
  have eras : era = era' := by omega
  have centuries : century = century' := by omega
  have quads : quad = quad' := by omega
  omega

theorem civilDay_month (days : ℤ) : (civilDay days).month ≤ 12 := by
  have bound := marchDay_dayOfYear days
  simp only [civilDay]
  split <;> omega

theorem civilDay_day (days : ℤ) : (civilDay days).day ≤ 31 := by
  have bound := marchDay_dayOfYear days
  simp only [civilDay]
  omega

theorem civilDay_injective {d d' : ℤ} (year : (civilDay d).year = (civilDay d').year)
    (month : (civilDay d).month = (civilDay d').month) (day : (civilDay d).day = (civilDay d').day) : d = d' := by
  have bound := marchDay_dayOfYear d
  have bound' := marchDay_dayOfYear d'
  simp only [civilDay] at year month day
  have same : (5 * (marchDay d).dayOfYear + 2) / 153 = (5 * (marchDay d').dayOfYear + 2) / 153 := by
    split at month
    · split at month <;> omega
    · split at month <;> omega
  rw [same] at year day
  apply marchDay_injective
  · split at year
    · exact year
    · omega
  · omega

/-! ### The text -/

def yearSign (year : ℤ) : CodeUnit := if year < 0 then unit '-' else unit '+'

def yearText (year : ℤ) : Text :=
  if 0 ≤ year ∧ year ≤ 9999 then padded 4 year.toNat else yearSign year :: padded 6 year.natAbs

/-- The parts of a time of the day. -/
def clockText (ms : ℕ) : Text :=
  padded 2 (ms / 3600000) ++ unit ':' :: padded 2 (ms / 60000 % 60) ++ unit ':' :: padded 2 (ms / 1000 % 60) ++
    unit '.' :: padded 3 (ms % 1000)

def dayText (days : ℤ) : Text :=
  unit '-' :: padded 2 (civilDay days).month ++ unit '-' :: padded 2 (civilDay days).day

/-- `Date.prototype.toISOString`. -/
def toISOString (ms : ℤ) : Text :=
  let days := ms / 86400000
  yearText (civilDay days).year ++ (dayText days ++ unit 'T' :: (clockText (ms % 86400000).toNat ++ [unit 'Z']))

theorem yearSign_not_digit (year : ℤ) : isDigit (yearSign year) = false := by
  unfold yearSign
  split <;> decide

theorem signed_ne_padded (year : ℤ) (n : ℕ) : yearSign year :: padded 6 year.natAbs ≠ padded 4 n := by
  intro same
  have digit := padded_digits 4 n (yearSign year) (same ▸ List.mem_cons_self)
  rw [yearSign_not_digit] at digit
  cases digit

theorem yearSign_negative {y y' : ℤ} (same : yearSign y = yearSign y') : y < 0 ↔ y' < 0 := by
  have differ : unit '-' ≠ unit '+' := by decide
  unfold yearSign at same
  split at same
  · split at same
    · omega
    · exact (differ same).elim
  · split at same
    · exact (differ same.symm).elim
    · omega

theorem yearText_injective : Function.Injective yearText := by
  intro y y' same
  unfold yearText at same
  split at same
  · split at same
    · have value := padded_injective 4 same
      omega
    · exact (signed_ne_padded y' _ same.symm).elim
  · split at same
    · exact (signed_ne_padded y _ same).elim
    · obtain ⟨sign, size⟩ := List.cons.inj same
      have value := padded_injective 6 size
      have signs := yearSign_negative sign
      omega

theorem length_clockText {ms : ℕ} (small : ms < 86400000) : (clockText ms).length = 12 := by
  have hours : (padded 2 (ms / 3600000)).length = 2 := length_padded (by omega) (by omega)
  have minutes : (padded 2 (ms / 60000 % 60)).length = 2 := length_padded (by omega) (by omega)
  have seconds : (padded 2 (ms / 1000 % 60)).length = 2 := length_padded (by omega) (by omega)
  have rest : (padded 3 (ms % 1000)).length = 3 := length_padded (by omega) (by omega)
  simp [clockText, hours, minutes, seconds, rest]

theorem length_dayText (days : ℤ) : (dayText days).length = 6 := by
  have month := civilDay_month days
  have day := civilDay_day days
  have first : (padded 2 (civilDay days).month).length = 2 := length_padded (by omega) (by omega)
  have second : (padded 2 (civilDay days).day).length = 2 := length_padded (by omega) (by omega)
  simp [dayText, first, second]

theorem clockText_injective {ms ms' : ℕ} (small : ms < 86400000) (small' : ms' < 86400000)
    (same : clockText ms = clockText ms') : ms = ms' := by
  have two : ∀ {m n : ℕ}, m < 100 → n < 100 → (padded 2 m).length = (padded 2 n).length := by
    intro m n hm hn
    rw [length_padded (by omega) (by omega), length_padded (by omega) (by omega)]
  simp only [clockText, List.append_assoc, List.cons_append] at same
  obtain ⟨hours, same⟩ := List.append_inj same (two (by omega) (by omega))
  obtain ⟨minutes, same⟩ := List.append_inj (List.cons.inj same).2 (two (by omega) (by omega))
  obtain ⟨seconds, same⟩ := List.append_inj (List.cons.inj same).2 (two (by omega) (by omega))
  have hour := padded_injective 2 hours
  have minute := padded_injective 2 minutes
  have second := padded_injective 2 seconds
  have rest := padded_injective 3 (List.cons.inj same).2
  omega

theorem dayText_injective {d d' : ℤ} (same : dayText d = dayText d') :
    (civilDay d).month = (civilDay d').month ∧ (civilDay d).day = (civilDay d').day := by
  have months : ∀ days : ℤ, (padded 2 (civilDay days).month).length = 2 := by
    intro days
    have month := civilDay_month days
    exact length_padded (by omega) (by omega)
  simp only [dayText, List.cons_append] at same
  obtain ⟨month, same⟩ := List.append_inj (List.cons.inj same).2 ((months d).trans (months d').symm)
  exact ⟨padded_injective 2 month, padded_injective 2 (List.cons.inj same).2⟩

theorem toISOString_injective : Function.Injective toISOString := by
  intro ms ms' same
  have time : (ms % 86400000).toNat < 86400000 := by omega
  have time' : (ms' % 86400000).toNat < 86400000 := by omega
  unfold toISOString at same
  obtain ⟨year, same⟩ := List.append_inj' same (by
    simp [length_dayText, length_clockText time, length_clockText time'])
  obtain ⟨day, same⟩ := List.append_inj same ((length_dayText _).trans (length_dayText _).symm)
  obtain ⟨clock, _⟩ := List.append_inj' (List.cons.inj same).2 rfl
  obtain ⟨months, daysOfMonth⟩ := dayText_injective day
  have days := civilDay_injective (yearText_injective year) months daysOfMonth
  have clocks := clockText_injective time time' clock
  omega

def isTimeUnit (u : CodeUnit) : Bool :=
  isDigit u || u = unit '-' || u = unit '+' || u = unit ':' || u = unit '.' || u = unit 'T' || u = unit 'Z'

theorem toISOString_units (ms : ℤ) : ∀ u ∈ toISOString ms, isTimeUnit u = true := by
  have digits : ∀ width n : ℕ, ∀ u ∈ padded width n, isTimeUnit u = true := by
    intro width n u member
    simp [isTimeUnit, padded_digits width n u member]
  have years : ∀ year : ℤ, ∀ u ∈ yearText year, isTimeUnit u = true := by
    intro year
    unfold yearText yearSign
    split
    · exact digits _ _
    · refine List.forall_mem_cons.mpr ⟨?_, digits _ _⟩
      split <;> decide
  have days : ∀ day : ℤ, ∀ u ∈ dayText day, isTimeUnit u = true := by
    intro day
    simp only [dayText, List.forall_mem_append, List.forall_mem_cons]
    exact ⟨⟨by decide, digits _ _⟩, by decide, digits _ _⟩
  have clocks : ∀ time : ℕ, ∀ u ∈ clockText time, isTimeUnit u = true := by
    intro time
    simp only [clockText, List.forall_mem_append, List.forall_mem_cons]
    exact ⟨⟨⟨digits _ _, by decide, digits _ _⟩, by decide, digits _ _⟩, by decide, digits _ _⟩
  simp only [toISOString, List.forall_mem_append, List.forall_mem_cons]
  exact ⟨years _, days _, by decide, clocks _, by decide, List.forall_mem_nil _⟩

theorem toISOString_no_newline (ms : ℤ) : unit '\n' ∉ toISOString ms := by
  intro member
  exact absurd (toISOString_units ms _ member) (by decide)

example : toISOString 1700000000123 = text "2023-11-14T22:13:20.123Z" := by decide +kernel

end Js
