import AppPlatform.Lib.Utf8

/-!
# Base64

Three bytes are four sextets; a last group of one or two bytes is two or three sextets, whose spare
bits are zero. `btoa` writes the sextets in the standard alphabet with padding, and
`fromBase64` reads either alphabet. `octets_sextets` is the round trip.
-/

namespace Js

namespace Base64

def sextets : Bytes → List ℕ
  | a :: b :: c :: rest =>
    a.toNat / 4 :: (a.toNat % 4 * 16 + b.toNat / 16) :: (b.toNat % 16 * 4 + c.toNat / 64) :: c.toNat % 64 ::
      sextets rest
  | [a, b] => [a.toNat / 4, a.toNat % 4 * 16 + b.toNat / 16, b.toNat % 16 * 4]
  | [a] => [a.toNat / 4, a.toNat % 4 * 16]
  | [] => []

/-- The bytes of a list of sextets; the bits of an incomplete byte are dropped. -/
def octets : List ℕ → Bytes
  | w :: x :: y :: z :: rest =>
    UInt8.ofNat (w * 4 + x / 16) :: UInt8.ofNat (x % 16 * 16 + y / 4) :: UInt8.ofNat (y % 4 * 64 + z) :: octets rest
  | [w, x, y] => [UInt8.ofNat (w * 4 + x / 16), UInt8.ofNat (x % 16 * 16 + y / 4)]
  | [w, x] => [UInt8.ofNat (w * 4 + x / 16)]
  | [_] => []
  | [] => []

/-- The units of a sextet in the standard alphabet. -/
def symbol (n : ℕ) : CodeUnit :=
  if n < 26 then (65 + n).toUInt16
  else if n < 52 then (71 + n).toUInt16
  else if n < 62 then (n - 4).toUInt16
  else if n = 62 then unit '+' else unit '/'

def sextet? (u : CodeUnit) : Option ℕ :=
  if unit 'A' ≤ u && u ≤ unit 'Z' then some (u.toNat - 65)
  else if unit 'a' ≤ u && u ≤ unit 'z' then some (u.toNat - 71)
  else if isDigit u then some (u.toNat + 4)
  else if u = unit '+' ∨ u = unit '-' then some 62
  else if u = unit '/' ∨ u = unit '_' then some 63
  else none

def padding (bytes : Bytes) : Text := List.replicate ((3 - bytes.length % 3) % 3) (unit '=')

end Base64

open Base64

/-- `btoa` of the binary string of the bytes. -/
def btoa (bytes : Bytes) : Text := (sextets bytes).map symbol ++ padding bytes

/-- `Buffer.from(t, 'base64')`: units outside the alphabets are skipped, and the first `=` ends the text. -/
def fromBase64 (t : Text) : Bytes := octets ((t.takeWhile (· ≠ unit '=')).filterMap sextet?)

/-- `Buffer.from(t, 'base64url')`, the same decoder. -/
def fromBase64url (t : Text) : Bytes := fromBase64 t

namespace Base64

theorem ofNat_eq {n : ℕ} {b : UInt8} (h : n = b.toNat) : UInt8.ofNat n = b := by
  rw [h, UInt8.ofNat_toNat]

theorem octets_sextets (bytes : Bytes) : octets (sextets bytes) = bytes := by
  induction bytes using sextets.induct with
  | case1 a b c rest ih =>
    have ha := a.toNat_lt
    have hb := b.toNat_lt
    have hc := c.toNat_lt
    rw [sextets, octets, ih, ofNat_eq (b := a) (by omega), ofNat_eq (b := b) (by omega), ofNat_eq (b := c) (by omega)]
  | case2 a b =>
    have ha := a.toNat_lt
    have hb := b.toNat_lt
    rw [sextets, octets, ofNat_eq (b := a) (by omega), ofNat_eq (b := b) (by omega)]
  | case3 a =>
    have ha := a.toNat_lt
    rw [sextets, octets, ofNat_eq (b := a) (by omega)]
  | case4 => rfl

theorem sextets_length (bytes : Bytes) : (sextets bytes).length = (4 * bytes.length + 2) / 3 := by
  induction bytes using sextets.induct with
  | case1 a b c rest ih =>
    simp only [sextets, List.length_cons, ih]
    omega
  | case2 a b => simp [sextets]
  | case3 a => simp [sextets]
  | case4 => rfl

theorem sextets_lt (bytes : Bytes) : ∀ n ∈ sextets bytes, n < 64 := by
  induction bytes using sextets.induct with
  | case1 a b c rest ih =>
    have ha := a.toNat_lt
    have hb := b.toNat_lt
    have hc := c.toNat_lt
    simp only [sextets, List.forall_mem_cons]
    exact ⟨by omega, by omega, by omega, by omega, ih⟩
  | case2 a b =>
    have ha := a.toNat_lt
    have hb := b.toNat_lt
    simp only [sextets, List.forall_mem_cons]
    exact ⟨by omega, by omega, by omega, List.forall_mem_nil _⟩
  | case3 a =>
    have ha := a.toNat_lt
    simp only [sextets, List.forall_mem_cons]
    exact ⟨by omega, by omega, List.forall_mem_nil _⟩
  | case4 => exact List.forall_mem_nil _

theorem filterMap_sextet? {write : ℕ → CodeUnit} (reads : ∀ n < 64, sextet? (write n) = some n) {l : List ℕ}
    (small : ∀ n ∈ l, n < 64) : (l.map write).filterMap sextet? = l := by
  induction l with
  | nil => rfl
  | cons n l ih =>
    rw [List.map_cons, List.filterMap_cons_some (reads n (small n List.mem_cons_self)),
      ih fun m member => small m (List.mem_cons_of_mem n member)]

theorem takeWhile_written {write : ℕ → CodeUnit} (reads : ∀ n < 64, sextet? (write n) = some n) {l : List ℕ}
    (small : ∀ n ∈ l, n < 64) : (l.map write).takeWhile (· ≠ unit '=') = l.map write := by
  rw [List.takeWhile_eq_self_iff]
  intro u member
  obtain ⟨n, found, rfl⟩ := List.mem_map.mp member
  rw [decide_eq_true_eq]
  intro padded
  have read := reads n (small n found)
  rw [padded] at read
  cases read

theorem sextet?_symbol : ∀ n < 64, sextet? (symbol n) = some n := by decide

end Base64

theorem fromBase64url_map {write : ℕ → CodeUnit} (reads : ∀ n < 64, sextet? (write n) = some n) (bytes : Bytes) :
    fromBase64url ((sextets bytes).map write) = bytes := by
  rw [fromBase64url, fromBase64, takeWhile_written reads (sextets_lt bytes), filterMap_sextet? reads (sextets_lt bytes),
    octets_sextets]

/-- What is written in the standard alphabet is read back; the padding ends it. -/
theorem fromBase64_btoa (bytes : Bytes) : fromBase64 (btoa bytes) = bytes := by
  have whole : ∀ u ∈ (sextets bytes).map symbol, (decide (u ≠ unit '=')) = true := by
    rw [← List.takeWhile_eq_self_iff]
    exact takeWhile_written sextet?_symbol (sextets_lt bytes)
  have ends : (padding bytes).takeWhile (· ≠ unit '=') = [] := by
    rw [padding, List.takeWhile_replicate]
    simp
  rw [fromBase64, btoa, List.takeWhile_append_of_pos whole, ends, List.append_nil,
    filterMap_sextet? sextet?_symbol (sextets_lt bytes), octets_sextets]

theorem mem_btoa {bytes : Bytes} {u : CodeUnit} (member : u ∈ btoa bytes) : u = unit '=' ∨ ∃ n < 64, u = symbol n := by
  rcases List.mem_append.mp member with written | padded
  · obtain ⟨n, found, rfl⟩ := List.mem_map.mp written
    exact .inr ⟨n, sextets_lt bytes n found, rfl⟩
  · exact .inl (List.mem_replicate.mp padded).2

theorem btoa_ne_nil {bytes : Bytes} (nonempty : bytes ≠ []) : btoa bytes ≠ [] := by
  intro empty
  have length := congrArg List.length empty
  rw [btoa, List.length_append, List.length_map, sextets_length, List.length_nil] at length
  have := List.length_pos_iff.mpr nonempty
  omega

end Js
