import AppPlatform.Lib.Text

/-!
# UTF-8

A text is encoded scalar value by scalar value. A surrogate outside a pair has no encoding of its
own: `TextEncoder` and `Buffer` both write U+FFFD for it, so texts that differ only there have the
same bytes. `utf8_eq` says that they differ nowhere else.
-/

namespace Js

abbrev Bytes := List UInt8

def isSurrogate (u : CodeUnit) : Bool := isLead u || isTrail u

def charOf (u : CodeUnit) : Char := if isSurrogate u then Char.ofNat 0xFFFD else Char.ofNat u.toNat

def charOfPair (u v : CodeUnit) : Char :=
  Char.ofNat (0x10000 + (u.toNat - 0xD800) * 0x400 + (v.toNat - 0xDC00))

/-- The scalar values of a text. -/
def charsOf : Text → List Char
  | [] => []
  | [u] => [charOf u]
  | u :: v :: rest =>
    if isLead u && isTrail v then charOfPair u v :: charsOf rest else charOf u :: charsOf (v :: rest)

def utf8 (t : Text) : Bytes := (charsOf t).flatMap String.utf8EncodeChar

/-- `String.prototype.toWellFormed`: a surrogate outside a pair becomes U+FFFD. -/
def toWellFormed (t : Text) : Text := (charsOf t).flatMap unitsOf

theorem utf8_eq {s t : Text} : utf8 s = utf8 t ↔ charsOf s = charsOf t := by
  constructor
  · intro same
    have bytes : (charsOf s).utf8Encode = (charsOf t).utf8Encode := congrArg List.toByteArray same
    rw [← String.toByteArray_ofList, ← String.toByteArray_ofList, String.toByteArray_inj] at bytes
    exact String.ofList_injective bytes
  · intro same
    rw [utf8, same, utf8]

theorem toWellFormed_of_utf8 {s t : Text} (same : utf8 s = utf8 t) : toWellFormed s = toWellFormed t := by
  rw [toWellFormed, utf8_eq.mp same, toWellFormed]

theorem lead_range {u : CodeUnit} (lead : isLead u = true) : 0xD800 ≤ u.toNat ∧ u.toNat ≤ 0xDBFF := by
  simp only [isLead, Bool.and_eq_true, decide_eq_true_eq, UInt16.le_iff_toNat_le] at lead
  exact lead

theorem trail_range {u : CodeUnit} (trail : isTrail u = true) : 0xDC00 ≤ u.toNat ∧ u.toNat ≤ 0xDFFF := by
  simp only [isTrail, Bool.and_eq_true, decide_eq_true_eq, UInt16.le_iff_toNat_le] at trail
  exact trail

theorem plain_range {u : CodeUnit} (plain : isSurrogate u = false) : u.toNat < 0xD800 ∨ 0xDFFF < u.toNat := by
  simp only [isSurrogate, isLead, isTrail, Bool.or_eq_false_iff, Bool.and_eq_false_iff, decide_eq_false_iff_not,
    UInt16.le_iff_toNat_le, show (0xD800 : UInt16).toNat = 0xD800 from rfl, show (0xDBFF : UInt16).toNat = 0xDBFF from rfl,
    show (0xDC00 : UInt16).toNat = 0xDC00 from rfl, show (0xDFFF : UInt16).toNat = 0xDFFF from rfl] at plain
  omega

theorem isSurrogate_small {u : CodeUnit} (small : u.toNat < 0xD800) : isSurrogate u = false := by
  rw [isSurrogate, Bool.or_eq_false_iff]
  constructor
  · rw [Bool.eq_false_iff]
    intro lead
    have := lead_range lead
    omega
  · rw [Bool.eq_false_iff]
    intro trail
    have := trail_range trail
    omega

theorem isDigit_plain {u : CodeUnit} (digit : isDigit u = true) : isSurrogate u = false := by
  have range := isDigit_range digit
  exact isSurrogate_small (by omega)

theorem ofNat_toNat {n : ℕ} (scalar : n < 0xD800 ∨ (0xDFFF < n ∧ n < 0x110000)) : (Char.ofNat n).toNat = n := by
  have valid : n.isValidChar := scalar
  rw [Char.ofNat, dif_pos valid]
  rfl

theorem unitsOf_charOf {u : CodeUnit} (plain : isSurrogate u = false) : unitsOf (charOf u) = [u] := by
  have range := plain_range plain
  have word := u.toNat_lt
  rw [charOf, plain, if_neg Bool.false_ne_true, unitsOf, ofNat_toNat (by omega), if_pos (by omega)]
  exact congrArg (fun v => [v]) UInt16.ofNat_toNat

theorem unitsOf_charOfPair {u v : CodeUnit} (lead : isLead u = true) (trail : isTrail v = true) :
    unitsOf (charOfPair u v) = [u, v] := by
  have high := lead_range lead
  have low := trail_range trail
  rw [charOfPair, unitsOf, ofNat_toNat (by omega), if_neg (by omega)]
  have first : 0xD800 + (0x10000 + (u.toNat - 0xD800) * 0x400 + (v.toNat - 0xDC00) - 0x10000) / 0x400 = u.toNat := by
    omega
  have second : 0xDC00 + (0x10000 + (u.toNat - 0xD800) * 0x400 + (v.toNat - 0xDC00) - 0x10000) % 0x400 = v.toNat := by
    omega
  rw [first, second]
  exact congrArg₂ (fun a b => [a, b]) UInt16.ofNat_toNat UInt16.ofNat_toNat

theorem plain_of_not {u : CodeUnit} (h : (!isLead u && !isTrail u) = true) : isSurrogate u = false := by
  simpa [isSurrogate] using h

theorem toWellFormed_eq {t : Text} (h : isWellFormed t = true) : toWellFormed t = t := by
  unfold toWellFormed
  induction t using charsOf.induct with
  | case1 => rfl
  | case2 u =>
    rw [charsOf, List.flatMap_singleton]
    exact unitsOf_charOf (plain_of_not h)
  | case3 u v rest pair ih =>
    rw [isWellFormed, if_pos pair] at h
    rw [Bool.and_eq_true] at pair
    rw [charsOf, if_pos (by simp [pair]), List.flatMap_cons, ih h, unitsOf_charOfPair pair.1 pair.2]
    rfl
  | case4 u v rest single ih =>
    rw [isWellFormed, if_neg single, Bool.and_eq_true] at h
    rw [charsOf, if_neg single, List.flatMap_cons, ih h.2, unitsOf_charOf (plain_of_not h.1)]
    rfl

/-- A unit that is no surrogate stands for itself, whatever follows it. -/
theorem toWellFormed_cons {u : CodeUnit} (plain : isSurrogate u = false) (t : Text) :
    toWellFormed (u :: t) = u :: toWellFormed t := by
  have noLead : isLead u = false := (Bool.or_eq_false_iff.mp plain).1
  cases t with
  | nil =>
    rw [toWellFormed, charsOf, List.flatMap_singleton, unitsOf_charOf plain]
    rfl
  | cons v rest =>
    rw [toWellFormed, charsOf, noLead, Bool.false_and, if_neg Bool.false_ne_true, List.flatMap_cons,
      unitsOf_charOf plain]
    rfl

theorem toWellFormed_append {s : Text} (plain : ∀ u ∈ s, isSurrogate u = false) (t : Text) :
    toWellFormed (s ++ t) = s ++ toWellFormed t := by
  induction s with
  | nil => rfl
  | cons u s ih =>
    rw [List.cons_append, toWellFormed_cons (plain u List.mem_cons_self),
      ih fun v member => plain v (List.mem_cons_of_mem u member)]
    rfl

end Js
