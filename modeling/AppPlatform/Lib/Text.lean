import Mathlib.Data.List.Basic
import Mathlib.Data.List.DropRight
import Mathlib.Data.List.TakeWhile
import Mathlib.Tactic.Ring
import Mathlib.Tactic.TypeStar

/-!
# JavaScript strings

A JavaScript string is a sequence of UTF-16 code units, surrogates in any order. Literals are
written as Lean strings and encoded by `text`.
-/

namespace Js

abbrev CodeUnit := UInt16

abbrev Text := List CodeUnit

instance : LawfulBEq Text := inferInstance

/-- The code units of one scalar value: itself, or a surrogate pair. -/
def unitsOf (c : Char) : Text :=
  if c.toNat < 0x10000 then [c.toNat.toUInt16]
  else [(0xD800 + (c.toNat - 0x10000) / 0x400).toUInt16, (0xDC00 + (c.toNat - 0x10000) % 0x400).toUInt16]

def text (s : String) : Text := s.toList.flatMap unitsOf

def unit (c : Char) : CodeUnit := c.toNat.toUInt16

def isLead (u : CodeUnit) : Bool := 0xD800 ≤ u && u ≤ 0xDBFF

def isTrail (u : CodeUnit) : Bool := 0xDC00 ≤ u && u ≤ 0xDFFF

/-- `String.prototype.isWellFormed`: every surrogate is part of a pair. -/
def isWellFormed : Text → Bool
  | [] => true
  | [u] => !isLead u && !isTrail u
  | u :: v :: rest =>
    if isLead u && isTrail v then isWellFormed rest
    else !isLead u && !isTrail u && isWellFormed (v :: rest)

/-! ### Decimal digits -/

def isDigit (u : CodeUnit) : Bool := unit '0' ≤ u && u ≤ unit '9'

def digitValue (u : CodeUnit) : ℕ := u.toNat - 48

def natOf (t : Text) : ℕ := t.foldl (fun n u => 10 * n + digitValue u) 0

/-- The decimal digits of a natural number, without leading zeros. -/
def natText (n : ℕ) : Text := (Nat.toDigits 10 n).map unit

theorem unit_toNat {c : Char} (h : c.toNat < 65536) : (unit c).toNat = c.toNat := by
  rw [unit, Nat.toUInt16, UInt16.toNat_ofNat', Nat.mod_eq_of_lt h]

theorem digit_toNat {c : Char} (h : c.isDigit) : 48 ≤ c.toNat ∧ c.toNat ≤ 57 := by
  simp only [Char.isDigit, Bool.and_eq_true, decide_eq_true_eq, UInt32.le_iff_toNat_le, ge_iff_le] at h
  exact h

theorem isDigit_unit {c : Char} (h : c.isDigit) : isDigit (unit c) = true := by
  have range := digit_toNat h
  have value := unit_toNat (c := c) (by omega)
  simp only [isDigit, Bool.and_eq_true, decide_eq_true_eq, UInt16.le_iff_toNat_le, value]
  exact range

theorem isDigit_range {u : CodeUnit} (h : isDigit u = true) : 48 ≤ u.toNat ∧ u.toNat ≤ 57 := by
  simp only [isDigit, Bool.and_eq_true, decide_eq_true_eq, UInt16.le_iff_toNat_le] at h
  exact h

theorem digitValue_unit {c : Char} (h : c.isDigit) : digitValue (unit c) = c.toNat - 48 := by
  have range := digit_toNat h
  rw [digitValue, unit_toNat (by omega)]

theorem natOf_map_unit {cs : List Char} (digits : ∀ c ∈ cs, c.isDigit) :
    natOf (cs.map unit) = Nat.ofDigitChars 10 cs 0 := by
  rw [natOf, Nat.ofDigitChars_eq_foldl, List.foldl_map]
  generalize (0 : ℕ) = acc
  induction cs generalizing acc with
  | nil => rfl
  | cons c cs ih =>
    rw [List.foldl_cons, List.foldl_cons, digitValue_unit (digits c List.mem_cons_self)]
    exact ih (fun d member => digits d (List.mem_cons_of_mem c member)) _

theorem natText_digits (n : ℕ) : ∀ u ∈ natText n, isDigit u = true := by
  intro u member
  obtain ⟨c, found, rfl⟩ := List.mem_map.mp member
  exact isDigit_unit (Nat.isDigit_of_mem_toDigits (by omega) (by omega) found)

theorem natOf_natText (n : ℕ) : natOf (natText n) = n := by
  rw [natText, natOf_map_unit fun c => Nat.isDigit_of_mem_toDigits (by omega) (by omega)]
  exact Nat.ofDigitChars_ten_toDigits

theorem natText_ne_nil (n : ℕ) : natText n ≠ [] := by
  simp [natText, Nat.toDigits_ne_nil]

theorem natText_injective : Function.Injective natText := fun m n same => by
  rw [← natOf_natText m, ← natOf_natText n, same]

theorem natOf_append (s t : Text) : natOf (s ++ t) = natOf s * 10 ^ t.length + natOf t := by
  have general : ∀ (t : Text) (acc : ℕ), t.foldl (fun n u => 10 * n + digitValue u) acc =
      acc * 10 ^ t.length + natOf t := by
    intro t
    induction t with
    | nil => simp [natOf]
    | cons u t ih =>
      intro acc
      rw [natOf, List.foldl_cons, List.foldl_cons, ih, ih (10 * 0 + digitValue u), List.length_cons, pow_succ]
      ring
  rw [natOf, List.foldl_append, general]
  rfl

theorem natOf_zeros (n : ℕ) : natOf (List.replicate n (unit '0')) = 0 := by
  induction n with
  | zero => rfl
  | succ n ih =>
    rw [List.replicate_succ, ← List.singleton_append, natOf_append, ih]
    simp only [natOf, List.foldl_cons, List.foldl_nil, show digitValue (unit '0') = 0 from rfl]
    omega

theorem natText_append {a d : ℕ} (positive : 0 < a) (small : d < 10) : natText (10 * a + d) = natText a ++ natText d := by
  rw [natText, ← Nat.toDigits_append_toDigits (by omega) positive small, List.map_append]
  rfl

theorem natText_digitValue {u : CodeUnit} (digit : isDigit u = true) : natText (digitValue u) = [u] := by
  have range := isDigit_range digit
  have small : digitValue u < 10 := by unfold digitValue; omega
  have value := Nat.toNat_digitChar_of_lt_ten small
  rw [natText, Nat.toDigits_of_lt_base small, List.map_singleton, List.singleton_inj, ← UInt16.toNat_inj,
    unit_toNat (by omega), value, digitValue]
  omega

/-- A number has one text without a leading zero. -/
theorem natText_natOf {t : Text} (digits : ∀ u ∈ t, isDigit u = true) (nonempty : t ≠ [])
    (head : t.head? ≠ some (unit '0')) : natText (natOf t) = t := by
  induction t using List.reverseRecOn with
  | nil => exact (nonempty rfl).elim
  | append_singleton s u ih =>
    have last : natOf [u] = digitValue u := by simp [natOf]
    have digit := digits u (by simp)
    have small : digitValue u < 10 := by
      have := isDigit_range digit
      unfold digitValue
      omega
    rw [natOf_append, last, List.length_singleton, pow_one, mul_comm]
    rcases eq_or_ne s [] with rfl | more
    · simpa [natOf] using natText_digitValue digit
    · rw [List.head?_append_of_ne_nil _ more] at head
      have front := ih (fun v member => digits v (List.mem_append_left _ member)) more head
      have positive : 0 < natOf s := by
        rw [Nat.pos_iff_ne_zero]
        intro zero
        rw [zero] at front
        exact head (front ▸ rfl)
      rw [natText_append positive small, front, natText_digitValue digit]

theorem natText_length_le {n k : ℕ} (positive : 0 < k) : (natText n).length ≤ k ↔ n < 10 ^ k := by
  rw [natText, List.length_map, Nat.length_toDigits_le_iff (by omega) positive]

theorem natText_mul_pow {n : ℕ} (positive : 0 < n) (k : ℕ) :
    natText (n * 10 ^ k) = natText n ++ List.replicate k (unit '0') := by
  induction k with
  | zero => simp
  | succ k ih =>
    have shifted : n * 10 ^ (k + 1) = 10 * (n * 10 ^ k) + 0 := by ring
    rw [shifted, natText_append (Nat.mul_pos positive (Nat.pow_pos (by omega))) (by omega), ih, List.replicate_succ', List.append_assoc]
    rfl

/-! ### Trimming and letter case -/

def isWhiteSpace (u : CodeUnit) : Bool :=
  (9 ≤ u && u ≤ 13) || u = 32 || u = 0xA0 || u = 0x1680 || (0x2000 ≤ u && u ≤ 0x200A) || u = 0x2028 || u = 0x2029 ||
    u = 0x202F || u = 0x205F || u = 0x3000 || u = 0xFEFF

/-- `String.prototype.trim` -/
def trim (t : Text) : Text := (t.dropWhile isWhiteSpace).rdropWhile isWhiteSpace

theorem trim_eq {t : Text} (plain : ∀ u ∈ t, isWhiteSpace u = false) : trim t = t := by
  have front : t.dropWhile isWhiteSpace = t := by
    rw [List.dropWhile_eq_self_iff]
    intro nonempty
    rw [plain _ (List.getElem_mem nonempty)]
    nofun
  rw [trim, front, List.rdropWhile_eq_self_iff]
  intro nonempty
  rw [plain _ (List.getLast_mem nonempty)]
  nofun

theorem isWhiteSpace_letter {u : CodeUnit} (low : 33 ≤ u.toNat) (high : u.toNat ≤ 122) : isWhiteSpace u = false := by
  have big : ∀ n : CodeUnit, 122 < n.toNat → u ≠ n := by
    rintro n large rfl
    omega
  have blank : u ≠ 32 := by
    rintro rfl
    exact absurd low (by decide)
  have control : ¬ u ≤ 13 := by
    rw [UInt16.le_iff_toNat_le]
    show ¬ u.toNat ≤ 13
    omega
  have spaces : ¬ 0x2000 ≤ u := by
    rw [UInt16.le_iff_toNat_le]
    show ¬ 0x2000 ≤ u.toNat
    omega
  simp [isWhiteSpace, control, spaces, blank, big 0xA0 (by decide), big 0x1680 (by decide), big 0x2028 (by decide),
    big 0x2029 (by decide), big 0x202F (by decide), big 0x205F (by decide), big 0x3000 (by decide), big 0xFEFF (by decide)]

theorem trim_trim (t : Text) : trim (trim t) = trim t := by
  have front : (trim t).dropWhile isWhiteSpace = trim t := by
    rw [List.dropWhile_eq_self_iff]
    intro nonempty
    have whole : trim t <+: t.dropWhile isWhiteSpace := List.rdropWhile_prefix isWhiteSpace _
    rw [whole.getElem nonempty]
    exact List.dropWhile_eq_self_iff.mp (List.dropWhile_idempotent isWhiteSpace t) (lt_of_lt_of_le nonempty whole.length_le)
  rw [trim, front, trim, List.rdropWhile_idempotent]

def isUpper (u : CodeUnit) : Bool := unit 'A' ≤ u && u ≤ unit 'Z'

def isLower (u : CodeUnit) : Bool := unit 'a' ≤ u && u ≤ unit 'z'

/-- `/[A-Za-z]/` -/
def isLetter (u : CodeUnit) : Bool := isUpper u || isLower u

/-- `/[0-9A-Fa-f]/` -/
def isHex (u : CodeUnit) : Bool := isDigit u || (unit 'a' ≤ u && u ≤ unit 'f') || (unit 'A' ≤ u && u ≤ unit 'F')

/-- `/[A-Za-z0-9._:-]/` -/
def isCodeUnit (u : CodeUnit) : Bool := isLetter u || isDigit u || u = unit '.' || u = unit '_' || u = unit ':' || u = unit '-'

/-- `/^[A-Za-z0-9._:-]{1,most}$/` -/
def isCode (most : ℕ) (t : Text) : Bool := t ≠ [] && t.length ≤ most && t.all isCodeUnit

def newline : CodeUnit := unit '\n'

/-- What `.` does not match. -/
def isLineTerminator (u : CodeUnit) : Bool := u = newline || u = 0xD || u = 0x2028 || u = 0x2029

/-- `String.prototype.toUpperCase` of a text of ASCII. -/
def toUpperCase (t : Text) : Text := t.map fun u => if isLower u then u - 32 else u

def lowerUnit (u : CodeUnit) : CodeUnit := if isUpper u then u + 32 else if u = 0x212A then unit 'k' else u

/-- `String.prototype.toLowerCase`, as far as the result is ASCII: besides `A` to `Z` only the Kelvin
sign has a lower case in ASCII. Other letters stay as they are. -/
def toLowerCase (t : Text) : Text := t.map lowerUnit

theorem isUpper_lowerUnit (u : CodeUnit) : isUpper (lowerUnit u) = false ∧ lowerUnit u ≠ 0x212A := by
  have a : (unit 'A').toNat = 65 := rfl
  have z : (unit 'Z').toNat = 90 := rfl
  unfold lowerUnit
  split
  · rename_i upper
    simp only [isUpper, Bool.and_eq_true, decide_eq_true_eq, UInt16.le_iff_toNat_le] at upper
    have value : (u + 32).toNat = u.toNat + 32 := by
      rw [UInt16.toNat_add, show (32 : UInt16).toNat = 32 from rfl, Nat.mod_eq_of_lt (by omega)]
    constructor
    · rw [Bool.eq_false_iff]
      simp only [isUpper, ne_eq, Bool.and_eq_true, decide_eq_true_eq, UInt16.le_iff_toNat_le, value]
      omega
    · intro kelvin
      have := congrArg UInt16.toNat kelvin
      rw [value, show (0x212A : UInt16).toNat = 0x212A from rfl] at this
      omega
  · rename_i other
    split
    · decide
    · rename_i plain
      exact ⟨Bool.eq_false_iff.mpr other, plain⟩

theorem toLowerCase_toLowerCase (t : Text) : toLowerCase (toLowerCase t) = toLowerCase t := by
  rw [toLowerCase, toLowerCase, List.map_map]
  congr 1
  funext u
  obtain ⟨lower, plain⟩ := isUpper_lowerUnit u
  rw [Function.comp_apply, lowerUnit, lower, if_neg Bool.false_ne_true, if_neg plain]

/-- `rest` does not start with a unit that satisfies `p`. -/
def StopsAt (p : CodeUnit → Bool) (rest : Text) : Prop := ∀ u ∈ rest.head?, p u = false

theorem takeWhile_stop {p : CodeUnit → Bool} {run rest : Text} (all : ∀ u ∈ run, p u = true)
    (stop : StopsAt p rest) : (run ++ rest).takeWhile p = run ∧ (run ++ rest).dropWhile p = rest := by
  rw [List.takeWhile_append_of_pos all, List.dropWhile_append_of_pos all]
  cases rest with
  | nil => simp
  | cons u rest =>
    have no := stop u rfl
    simp [no]

theorem before_first {u : CodeUnit} {s t x y : Text} (plain : u ∉ s) (plain' : u ∉ t) (same : s ++ u :: x = t ++ u :: y) :
    s = t ∧ x = y := by
  induction s generalizing t with
  | nil =>
    cases t with
    | nil => exact ⟨rfl, (List.cons.inj same).2⟩
    | cons v t => exact (plain' ((List.cons.inj same).1 ▸ List.mem_cons_self)).elim
  | cons v s ih =>
    cases t with
    | nil => exact (plain ((List.cons.inj same).1 ▸ List.mem_cons_self)).elim
    | cons w t =>
      obtain ⟨rfl, rest⟩ := List.cons.inj same
      obtain ⟨rfl, tails⟩ := ih (mt (List.mem_cons_of_mem v) plain) (mt (List.mem_cons_of_mem v) plain') rest
      exact ⟨rfl, tails⟩

theorem after_last {u : CodeUnit} {s t x y : Text} (plain : u ∉ x) (plain' : u ∉ y) (same : s ++ u :: x = t ++ u :: y) :
    s = t ∧ x = y := by
  have reversed := congrArg List.reverse same
  simp only [List.reverse_append, List.reverse_cons, List.append_assoc, List.singleton_append] at reversed
  obtain ⟨front, back⟩ := before_first (mt List.mem_reverse.mp plain) (mt List.mem_reverse.mp plain') reversed
  exact ⟨List.reverse_injective back, List.reverse_injective front⟩

end Js
