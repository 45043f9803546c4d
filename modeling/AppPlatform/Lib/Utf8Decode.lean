import AppPlatform.Lib.Utf8
import Mathlib.Tactic.NormNum

/-!
# Decoding UTF-8

`Buffer.toString('utf8')`: what is no character becomes U+FFFD. A text that was encoded is decoded
to its well-formed self.
-/

namespace Js

/-- A character of which some bytes are still due: its bits so far, and the range of the next byte. -/
structure Unfinished where
  due : ℕ
  bits : ℕ
  lower : ℕ
  upper : ℕ

def replacement : Char := Char.ofNat 0xFFFD

/-- What the first byte of more than one starts. -/
def unfinished? (b : ℕ) : Option Unfinished :=
  if 0xC2 ≤ b ∧ b ≤ 0xDF then some ⟨1, b - 0xC0, 0x80, 0xBF⟩
  else if 0xE0 ≤ b ∧ b ≤ 0xEF then
    some ⟨2, b - 0xE0, if b = 0xE0 then 0xA0 else 0x80, if b = 0xED then 0x9F else 0xBF⟩
  else if 0xF0 ≤ b ∧ b ≤ 0xF4 then
    some ⟨3, b - 0xF0, if b = 0xF0 then 0x90 else 0x80, if b = 0xF4 then 0x8F else 0xBF⟩
  else none

def firstByte (b : ℕ) : List Char × Option Unfinished :=
  if b < 0x80 then ([Char.ofNat b], none)
  else match unfinished? b with
    | some p => ([], some p)
    | none => ([replacement], none)

def nextByte (p : Unfinished) (b : ℕ) : List Char × Option Unfinished :=
  if p.lower ≤ b ∧ b ≤ p.upper then
    if p.due = 1 then ([Char.ofNat (p.bits * 64 + (b - 0x80))], none)
    else ([], some ⟨p.due - 1, p.bits * 64 + (b - 0x80), 0x80, 0xBF⟩)
  else (replacement :: (firstByte b).1, (firstByte b).2)

def decodeChars : Option Unfinished → Bytes → List Char
  | none, [] => []
  | some _, [] => [replacement]
  | none, b :: rest => (firstByte b.toNat).1 ++ decodeChars (firstByte b.toNat).2 rest
  | some p, b :: rest => (nextByte p b.toNat).1 ++ decodeChars (nextByte p b.toNat).2 rest

def decodeUtf8 (bytes : Bytes) : Text := (decodeChars none bytes).flatMap unitsOf

theorem decodeChars_ascii {n : ℕ} (small : n < 0x80) (rest : Bytes) :
    decodeChars none (UInt8.ofNat n :: rest) = Char.ofNat n :: decodeChars none rest := by
  have byte : (UInt8.ofNat n).toNat = n := by rw [UInt8.toNat_ofNat']; omega
  rw [decodeChars, byte, firstByte, if_pos small]
  rfl

theorem decodeChars_first {n : ℕ} {p : Unfinished} (byte : n < 0x100) (large : ¬ n < 0x80) (starts : unfinished? n = some p)
    (rest : Bytes) : decodeChars none (UInt8.ofNat n :: rest) = decodeChars (some p) rest := by
  have byte : (UInt8.ofNat n).toNat = n := by rw [UInt8.toNat_ofNat']; omega
  rw [decodeChars, byte, firstByte, if_neg large, starts]
  rfl

theorem decodeChars_last {p : Unfinished} {n : ℕ} (bits : n < 0x40) (due : p.due = 1) (lower : p.lower ≤ n + 0x80)
    (upper : n + 0x80 ≤ p.upper) (rest : Bytes) :
    decodeChars (some p) (UInt8.ofNat (n + 0x80) :: rest) = Char.ofNat (p.bits * 64 + n) :: decodeChars none rest := by
  have byte : (UInt8.ofNat (n + 0x80)).toNat = n + 0x80 := by rw [UInt8.toNat_ofNat']; omega
  rw [decodeChars, byte, nextByte, if_pos ⟨lower, upper⟩, if_pos due, Nat.add_sub_cancel]
  rfl

theorem decodeChars_next {p : Unfinished} {n : ℕ} (bits : n < 0x40) (due : p.due ≠ 1) (lower : p.lower ≤ n + 0x80)
    (upper : n + 0x80 ≤ p.upper) (rest : Bytes) :
    decodeChars (some p) (UInt8.ofNat (n + 0x80) :: rest) =
      decodeChars (some ⟨p.due - 1, p.bits * 64 + n, 0x80, 0xBF⟩) rest := by
  have byte : (UInt8.ofNat (n + 0x80)).toNat = n + 0x80 := by rw [UInt8.toNat_ofNat']; omega
  rw [decodeChars, byte, nextByte, if_pos ⟨lower, upper⟩, if_neg due, Nat.add_sub_cancel]
  rfl

/-- An encoded character is read back, whatever follows it. -/
theorem decodeChars_encoded (c : Char) (rest : Bytes) :
    decodeChars none (String.utf8EncodeChar c ++ rest) = c :: decodeChars none rest := by
  have valid : c.val.toNat < 0xD800 ∨ 0xDFFF < c.val.toNat ∧ c.val.toNat < 0x110000 := c.valid
  have back : Char.ofNat c.val.toNat = c := Char.ofNat_toNat c
  rw [String.utf8EncodeChar]
  generalize c.val.toNat = n at valid back ⊢
  split
  · rw [List.singleton_append, decodeChars_ascii (by omega), back]
  split
  · have starts : unfinished? (n / 64 % 0x20 + 0xC0) = some ⟨1, n / 64, 0x80, 0xBF⟩ := by
      rw [unfinished?, if_pos (by omega), show n / 64 % 0x20 + 0xC0 - 0xC0 = n / 64 by omega]
    rw [List.cons_append, List.singleton_append, decodeChars_first (by omega) (by omega) starts,
      decodeChars_last (by omega) rfl (by dsimp only; omega) (by dsimp only; omega)]
    rw [show n / 64 * 64 + n % 0x40 = n by omega, back]
  split
  · have starts : unfinished? (n / 4096 % 0x10 + 0xE0) =
        some ⟨2, n / 4096, if n / 4096 = 0 then 0xA0 else 0x80, if n / 4096 = 13 then 0x9F else 0xBF⟩ := by
      rw [unfinished?, if_neg (by omega), if_pos (by omega), show n / 4096 % 0x10 + 0xE0 - 0xE0 = n / 4096 by omega]
      congr 2
      · exact if_congr (by omega) rfl rfl
      · exact if_congr (by omega) rfl rfl
    rw [List.cons_append, List.cons_append, List.singleton_append, decodeChars_first (by omega) (by omega) starts,
      decodeChars_next (by omega) (by dsimp only; omega) (by dsimp only; split <;> omega) (by dsimp only; split <;> omega),
      decodeChars_last (by omega) rfl (by dsimp only; omega) (by dsimp only; omega)]
    rw [show (n / 4096 * 64 + n / 64 % 0x40) * 64 + n % 0x40 = n by omega, back]
  · have starts : unfinished? (n / 262144 % 0x08 + 0xF0) =
        some ⟨3, n / 262144, if n / 262144 = 0 then 0x90 else 0x80, if n / 262144 = 4 then 0x8F else 0xBF⟩ := by
      rw [unfinished?, if_neg (by omega), if_neg (by omega), if_pos (by omega),
        show n / 262144 % 0x08 + 0xF0 - 0xF0 = n / 262144 by omega]
      congr 2
      · exact if_congr (by omega) rfl rfl
      · exact if_congr (by omega) rfl rfl
    rw [List.cons_append, List.cons_append, List.cons_append, List.singleton_append,
      decodeChars_first (by omega) (by omega) starts,
      decodeChars_next (by omega) (by dsimp only; omega) (by dsimp only; split <;> omega) (by dsimp only; split <;> omega),
      decodeChars_next (by omega) (by dsimp only; omega) (by dsimp only; omega) (by dsimp only; omega),
      decodeChars_last (by omega) rfl (by dsimp only; omega) (by dsimp only; omega)]
    rw [show ((n / 262144 * 64 + n / 4096 % 0x40) * 64 + n / 64 % 0x40) * 64 + n % 0x40 = n by omega, back]

theorem decodeChars_flatMap (cs : List Char) : decodeChars none (cs.flatMap String.utf8EncodeChar) = cs := by
  induction cs with
  | nil => rfl
  | cons c cs ih => rw [List.flatMap_cons, decodeChars_encoded, ih]

/-- What was encoded is decoded, with U+FFFD for every surrogate outside a pair. -/
theorem decodeUtf8_utf8 (t : Text) : decodeUtf8 (utf8 t) = toWellFormed t := by
  rw [decodeUtf8, utf8, decodeChars_flatMap, toWellFormed]

/-! ### Well-formed texts -/

theorem isWellFormed_cons {u : CodeUnit} (plain : isSurrogate u = false) (t : Text) : isWellFormed (u :: t) = isWellFormed t := by
  obtain ⟨lead, trail⟩ := Bool.or_eq_false_iff.mp plain
  cases t with
  | nil => simp [isWellFormed, lead, trail]
  | cons v rest => simp [isWellFormed, lead, trail]

theorem isWellFormed_append {s : Text} (wellFormed : isWellFormed s = true) (rest : Text) :
    isWellFormed (s ++ rest) = isWellFormed rest := by
  induction s using isWellFormed.induct with
  | case1 => rfl
  | case2 u =>
    rw [isWellFormed, ← Bool.not_or, Bool.not_eq_true'] at wellFormed
    exact isWellFormed_cons wellFormed rest
  | case3 u v tail pair ih =>
    rw [isWellFormed, if_pos pair] at wellFormed
    rw [List.cons_append, List.cons_append, isWellFormed, if_pos pair, ih wellFormed]
  | case4 u v tail notPair ih =>
    rw [isWellFormed, if_neg notPair, Bool.and_eq_true, ← Bool.not_or, Bool.not_eq_true'] at wellFormed
    rw [List.cons_append, isWellFormed_cons wellFormed.1, ih wellFormed.2]

theorem isWellFormed_plain {s : Text} (plain : ∀ u ∈ s, isSurrogate u = false) : isWellFormed s = true := by
  induction s with
  | nil => rfl
  | cons u s ih =>
    rw [isWellFormed_cons (plain u List.mem_cons_self)]
    exact ih fun v member => plain v (List.mem_cons_of_mem u member)

theorem utf8_injective {s t : Text} (wellFormed : isWellFormed s = true) (wellFormed' : isWellFormed t = true)
    (same : utf8 s = utf8 t) : s = t := by
  have units := toWellFormed_of_utf8 same
  rwa [toWellFormed_eq wellFormed, toWellFormed_eq wellFormed'] at units

theorem toUInt16_toNat {n : ℕ} (small : n < 0x10000) : n.toUInt16.toNat = n := by
  rw [Nat.toUInt16, UInt16.toNat_ofNat', Nat.mod_eq_of_lt small]

theorem isWellFormed_unitsOf (c : Char) (t : Text) : isWellFormed (unitsOf c ++ t) = isWellFormed t := by
  have valid : c.toNat < 0xD800 ∨ 0xDFFF < c.toNat ∧ c.toNat < 0x110000 := c.valid
  unfold unitsOf
  split
  · rename_i small
    have value := toUInt16_toNat small
    apply isWellFormed_cons
    rw [isSurrogate, Bool.or_eq_false_iff]
    constructor
    · rw [Bool.eq_false_iff]
      intro lead
      have := lead_range lead
      omega
    · rw [Bool.eq_false_iff]
      intro trail
      have := trail_range trail
      omega
  · rename_i large
    have lead : isLead (0xD800 + (c.toNat - 0x10000) / 0x400).toUInt16 = true := by
      have value := toUInt16_toNat (show 0xD800 + (c.toNat - 0x10000) / 0x400 < 0x10000 by omega)
      simp only [isLead, Bool.and_eq_true, decide_eq_true_eq, UInt16.le_iff_toNat_le, value,
        show (0xD800 : UInt16).toNat = 0xD800 from rfl, show (0xDBFF : UInt16).toNat = 0xDBFF from rfl]
      omega
    have trail : isTrail (0xDC00 + (c.toNat - 0x10000) % 0x400).toUInt16 = true := by
      have value := toUInt16_toNat (show 0xDC00 + (c.toNat - 0x10000) % 0x400 < 0x10000 by omega)
      simp only [isTrail, Bool.and_eq_true, decide_eq_true_eq, UInt16.le_iff_toNat_le, value,
        show (0xDC00 : UInt16).toNat = 0xDC00 from rfl, show (0xDFFF : UInt16).toNat = 0xDFFF from rfl]
      omega
    rw [List.cons_append, List.singleton_append, isWellFormed, lead, trail]
    rfl

theorem isWellFormed_toWellFormed (t : Text) : isWellFormed (toWellFormed t) = true := by
  rw [toWellFormed]
  induction charsOf t with
  | nil => rfl
  | cons c cs ih => rw [List.flatMap_cons, isWellFormed_unitsOf, ih]

end Js
