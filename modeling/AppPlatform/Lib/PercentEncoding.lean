import AppPlatform.Lib.Utf8Decode

/-!
# Percent-encoding

The bytes of a set are written as `%` and two digits. An encoded text has none of them, and encoding it again leaves it as it is.
-/

namespace Percent
open Js

def byte (c : Char) : UInt8 := UInt8.ofNat c.toNat

def ascii (s : String) : Bytes := s.toList.map byte

def hexDigit (n : ℕ) : UInt8 := UInt8.ofNat (if n < 10 then 48 + n else 55 + n)

def hexValue? (b : UInt8) : Option ℕ :=
  if 48 ≤ b.toNat ∧ b.toNat ≤ 57 then some (b.toNat - 48)
  else if 65 ≤ b.toNat ∧ b.toNat ≤ 70 then some (b.toNat - 55)
  else if 97 ≤ b.toNat ∧ b.toNat ≤ 102 then some (b.toNat - 87)
  else none

def escape (b : UInt8) : Bytes := [byte '%', hexDigit (b.toNat / 16), hexDigit (b.toNat % 16)]

def encode (set : UInt8 → Bool) (bytes : Bytes) : Bytes := bytes.flatMap fun b => if set b then escape b else [b]

/-- A `%` without two digits stands for itself. -/
def decode : Bytes → Bytes
  | [] => []
  | [a] => [a]
  | [a, b] => [a, b]
  | a :: b :: c :: rest =>
    if a = byte '%' then
      match hexValue? b, hexValue? c with
      | some high, some low => UInt8.ofNat (16 * high + low) :: decode rest
      | _, _ => a :: decode (b :: c :: rest)
    else a :: decode (b :: c :: rest)

theorem hexValue?_hexDigit : ∀ n < 16, hexValue? (hexDigit n) = some n := by decide

/-- None of the bytes that an escape is made of is in the set. -/
structure Sparing (set : UInt8 → Bool) : Prop where
  percent : set (byte '%') = false
  digit : ∀ n < 16, set (hexDigit n) = false

theorem encode_eq {set : UInt8 → Bool} {bytes : Bytes} (plain : ∀ b ∈ bytes, set b = false) : encode set bytes = bytes := by
  induction bytes with
  | nil => rfl
  | cons b bytes ih =>
    rw [encode, List.flatMap_cons, plain b List.mem_cons_self]
    exact congrArg (b :: ·) (ih fun c member => plain c (List.mem_cons_of_mem b member))

theorem mem_encode {set : UInt8 → Bool} {bytes : Bytes} {b : UInt8} (member : b ∈ encode set bytes) :
    (b ∈ bytes ∧ set b = false) ∨ b = byte '%' ∨ ∃ n < 16, b = hexDigit n := by
  obtain ⟨c, given, written⟩ := List.mem_flatMap.mp member
  split at written
  · rcases List.mem_cons.mp written with percent | written
    · exact .inr (.inl percent)
    · have word := c.toNat_lt
      rcases List.mem_cons.mp written with high | written
      · exact .inr (.inr ⟨_, by omega, high⟩)
      · exact .inr (.inr ⟨_, by omega, List.mem_singleton.mp written⟩)
  · rename_i plain
    obtain rfl := List.mem_singleton.mp written
    exact .inl ⟨given, Bool.eq_false_iff.mpr plain⟩

theorem encode_plain {set : UInt8 → Bool} (sparing : Sparing set) (bytes : Bytes) : ∀ b ∈ encode set bytes, set b = false := by
  intro b member
  rcases mem_encode member with ⟨_, plain⟩ | rfl | ⟨n, small, rfl⟩
  · exact plain
  · exact sparing.percent
  · exact sparing.digit n small

/-- What holds of the 256 bytes, by a check of each. -/
theorem forall_byte {P : UInt8 → Prop} (all : ∀ n < 256, P (UInt8.ofNat n)) (b : UInt8) : P b := by
  have here := all b.toNat b.toNat_lt
  rwa [UInt8.ofNat_toNat] at here

theorem decode_cons {b : UInt8} (other : b ≠ byte '%') (rest : Bytes) : decode (b :: rest) = b :: decode rest := by
  match rest with
  | [] => rfl
  | [_] => rfl
  | _ :: _ :: _ => rw [decode, if_neg other]

theorem decode_escape (b : UInt8) (rest : Bytes) : decode (escape b ++ rest) = b :: decode rest := by
  have word := b.toNat_lt
  rw [escape, List.cons_append, List.cons_append, List.cons_append, List.nil_append, decode, if_pos rfl,
    hexValue?_hexDigit _ (by omega), hexValue?_hexDigit _ (by omega)]
  dsimp only
  rw [show 16 * (b.toNat / 16) + b.toNat % 16 = b.toNat by omega, UInt8.ofNat_toNat]

/-! ### ASCII -/

/-- The string whose code units are the bytes. -/
def latin1 (bytes : Bytes) : Text := bytes.map UInt8.toUInt16

theorem charsOf_cons {u : CodeUnit} (plain : isSurrogate u = false) (t : Text) : charsOf (u :: t) = charOf u :: charsOf t := by
  have noLead : isLead u = false := (Bool.or_eq_false_iff.mp plain).1
  cases t with
  | nil => rfl
  | cons v t => rw [charsOf, noLead, Bool.false_and, if_neg Bool.false_ne_true]

theorem utf8_cons {u : CodeUnit} (small : u.toNat < 0x80) (t : Text) : utf8 (u :: t) = UInt8.ofNat u.toNat :: utf8 t := by
  have plain : isSurrogate u = false := isSurrogate_small (by omega)
  have value : (charOf u).val.toNat = u.toNat := by
    rw [charOf, plain, if_neg Bool.false_ne_true]
    exact ofNat_toNat (by omega)
  rw [utf8, charsOf_cons plain, List.flatMap_cons, String.utf8EncodeChar]
  rw [value, if_pos (by omega)]
  rfl

/-- Every byte is ASCII. -/
def Ascii (bytes : Bytes) : Prop := ∀ b ∈ bytes, b.toNat < 0x80

theorem utf8_latin1 {bytes : Bytes} (plain : Ascii bytes) : utf8 (latin1 bytes) = bytes := by
  induction bytes with
  | nil => rfl
  | cons b bytes ih =>
    have small := plain b List.mem_cons_self
    have value : b.toUInt16.toNat = b.toNat := UInt8.toNat_toUInt16 b
    rw [latin1, List.map_cons, utf8_cons (by omega), value, UInt8.ofNat_toNat]
    exact congrArg (b :: ·) (ih fun c member => plain c (List.mem_cons_of_mem b member))

theorem utf8_small {t : Text} (small : ∀ u ∈ t, u.toNat < 0x80) : utf8 t = t.map fun u => UInt8.ofNat u.toNat := by
  induction t with
  | nil => rfl
  | cons u t ih =>
    rw [utf8_cons (small u List.mem_cons_self), ih fun v member => small v (List.mem_cons_of_mem u member)]
    rfl

theorem latin1_utf8 {t : Text} (small : ∀ u ∈ t, u.toNat < 0x80) : latin1 (utf8 t) = t := by
  rw [utf8_small small, latin1, List.map_map]
  conv_rhs => rw [← List.map_id t]
  refine List.map_congr_left fun u member => ?_
  have low := small u member
  refine UInt16.toNat_inj.mp ?_
  change (UInt8.ofNat u.toNat).toUInt16.toNat = u.toNat
  rw [UInt8.toNat_toUInt16, UInt8.toNat_ofNat', Nat.mod_eq_of_lt (by omega)]

end Percent
