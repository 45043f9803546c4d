import AppPlatform.Http.EdgeProtocol

/-!
# The signer and the verifier agree

What the edge signs for a request the API accepts for that request, and what the API accepts was
signed at the edge: the string that is signed is an injective encoding of its four fields.
-/

namespace Edge

open Js Js.Base64

theorem edgePath_ne_nil (raw : Text) : edgePath raw ≠ [] := by
  unfold edgePath
  dsimp only
  split
  · decide
  · assumption

theorem edgePath_plain (raw : Text) : ∀ u ∈ edgePath raw, endsPath u = false := by
  unfold edgePath
  dsimp only
  split
  · intro u member
    rw [List.mem_singleton.mp (show u ∈ [unit '/'] from member)]
    decide
  · intro u member
    simpa using List.mem_takeWhile_imp member

/-- The verifier cuts the path twice. -/
theorem edgePath_edgePath (raw : Text) : edgePath (edgePath raw) = edgePath raw := by
  have kept : (edgePath raw).takeWhile (fun u => !endsPath u) = edgePath raw := by
    rw [List.takeWhile_eq_self_iff]
    intro u member
    rw [edgePath_plain raw u member]
    rfl
  rw [edgePath, kept]
  exact if_neg (edgePath_ne_nil raw)

def SameUpToCase (s t : Text) : Prop := toUpperCase s = toUpperCase t

theorem upper_toNat {u : CodeUnit} (lower : isLower u = true) : (u - 32).toNat = u.toNat - 32 := by
  simp only [isLower, Bool.and_eq_true, decide_eq_true_eq, UInt16.le_iff_toNat_le] at lower
  have small : (32 : UInt16) ≤ u := UInt16.le_iff_toNat_le.mpr (le_trans (by decide) lower.1)
  exact UInt16.toNat_sub_of_le u 32 small

theorem isUpper_sub {u : CodeUnit} (lower : isLower u = true) : isUpper (u - 32) = true := by
  have value := upper_toNat lower
  simp only [isLower, isUpper, Bool.and_eq_true, decide_eq_true_eq, UInt16.le_iff_toNat_le, value] at lower ⊢
  have a : (unit 'a').toNat = 97 := rfl
  have z : (unit 'z').toNat = 122 := rfl
  have a' : (unit 'A').toNat = 65 := rfl
  have z' : (unit 'Z').toNat = 90 := rfl
  omega

theorem isLetter_iff (u : CodeUnit) : isLetter u = isUpper (if isLower u then u - 32 else u) := by
  unfold isLetter
  split
  · rename_i lower
    rw [isUpper_sub lower, lower, Bool.or_true]
  · rename_i other
    rw [Bool.eq_false_iff.mpr other, Bool.or_false]

theorem all_isLetter (t : Text) : t.all isLetter = (toUpperCase t).all isUpper := by
  rw [toUpperCase, List.all_map]
  congr 1
  funext u
  exact isLetter_iff u

theorem edgeMethod_congr {s t : Text} (same : SameUpToCase s t) : edgeMethod s = edgeMethod t := by
  have empty : s = [] ↔ t = [] := by
    rw [← List.map_eq_nil_iff (f := fun u : CodeUnit => if isLower u then u - 32 else u), ← toUpperCase, same, toUpperCase,
      List.map_eq_nil_iff]
  unfold edgeMethod isMethod
  rw [all_isLetter, all_isLetter t, same]
  simp only [ne_eq, empty]

/-! ### The signed string -/

/-- The string that is signed, from the fields as they are signed. -/
def signedText (seconds : ℕ) (ip upper path : Text) : Text :=
  natText seconds ++ separator :: (ip ++ separator :: (upper ++ separator :: path))

theorem numberText_safe {ts : Number} {n : ℕ} (safe : ts.safeNat? = some n) : numberText ts = natText n := by
  obtain ⟨rfl, small⟩ := Number.eq_ofNat safe
  rw [Number.ofNat_eq small, numberText_nat small]

theorem edgeSigningString_ok {ts : Number} {ip method path message : Text} :
    edgeSigningString ts ip method path = .ok message ↔
      ∃ n upper, ts.safeNat? = some n ∧ edgeMethod method = some upper ∧ isEdgeIpText ip = true ∧
        message = signedText n ip upper (edgePath path) := by
  unfold edgeSigningString
  constructor
  · intro made
    split at made
    · cases made
    rename_i upper letters
    split at made
    · cases made
    rename_i time
    split at made
    · rename_i address
      obtain ⟨n, safe⟩ := Option.ne_none_iff_exists'.mp time
      rw [numberText_safe safe] at made
      exact ⟨n, upper, safe, letters, address, (Except.ok.inj made).symm⟩
    · cases made
  · rintro ⟨n, upper, safe, letters, address, rfl⟩
    rw [letters]
    dsimp only
    rw [safe, if_neg (Option.some_ne_none n), if_pos address, numberText_safe safe]
    rfl

theorem natText_no_separator (n : ℕ) : separator ∉ natText n := fun member =>
  absurd (natText_digits n _ member) (by decide)

theorem ip_units {ip : Text} (shaped : isEdgeIpText ip = true) : ∀ u ∈ ip, isIpUnit u = true := by
  simp only [isEdgeIpText, Bool.and_eq_true, List.all_eq_true] at shaped
  exact shaped.1.2.2

theorem ip_no_separator {ip : Text} (shaped : isEdgeIpText ip = true) : separator ∉ ip := fun member =>
  absurd (ip_units shaped _ member) (by decide)

theorem upper_units {method upper : Text} (letters : edgeMethod method = some upper) : ∀ u ∈ upper, isUpper u = true := by
  unfold edgeMethod at letters
  rw [Option.ite_none_right_eq_some, Option.some.injEq] at letters
  obtain ⟨shaped, rfl⟩ := letters
  rw [isMethod, Bool.and_eq_true, all_isLetter, List.all_eq_true] at shaped
  exact shaped.2

theorem upper_no_separator {method upper : Text} (letters : edgeMethod method = some upper) : separator ∉ upper := fun member =>
  absurd (upper_units letters _ member) (by decide)

/-- The fields are read back up to the separators; everything after the third is the path. -/
theorem signedText_injective {m n : ℕ} {ip ip' upper upper' path path' : Text} (address : separator ∉ ip)
    (address' : separator ∉ ip') (letters : separator ∉ upper) (letters' : separator ∉ upper')
    (same : signedText m ip upper path = signedText n ip' upper' path') :
    m = n ∧ ip = ip' ∧ upper = upper' ∧ path = path' := by
  obtain ⟨seconds, afterTime⟩ := before_first (natText_no_separator m) (natText_no_separator n) same
  obtain ⟨rfl, afterIp⟩ := before_first address address' afterTime
  obtain ⟨rfl, rfl⟩ := before_first letters letters' afterIp
  exact ⟨natText_injective seconds, rfl, rfl, rfl⟩

theorem isIpUnit_small {u : CodeUnit} (h : isIpUnit u = true) : u.toNat < 0xD800 := by
  have f : (unit 'f').toNat = 102 := rfl
  have f' : (unit 'F').toNat = 70 := rfl
  simp only [isIpUnit, Bool.or_eq_true, Bool.and_eq_true, decide_eq_true_eq, UInt16.le_iff_toNat_le] at h
  obtain (((digit | hex) | hex) | rfl) | rfl := h
  · have := isDigit_range digit
    omega
  · omega
  · omega
  · decide
  · decide

theorem isUpper_small {u : CodeUnit} (h : isUpper u = true) : u.toNat < 0xD800 := by
  have z : (unit 'Z').toNat = 90 := rfl
  simp only [isUpper, Bool.and_eq_true, decide_eq_true_eq, UInt16.le_iff_toNat_le] at h
  omega

/-- Only the path can hold a surrogate. -/
theorem toWellFormed_signedText {n : ℕ} {ip upper path : Text} (address : ∀ u ∈ ip, isIpUnit u = true)
    (letters : ∀ u ∈ upper, isUpper u = true) :
    toWellFormed (signedText n ip upper path) = signedText n ip upper (toWellFormed path) := by
  have digits : ∀ u ∈ natText n, isSurrogate u = false := fun u member => isDigit_plain (natText_digits n u member)
  have bar : isSurrogate separator = false := by decide
  unfold signedText
  rw [toWellFormed_append digits, toWellFormed_cons bar,
    toWellFormed_append (fun u member => isSurrogate_small (isIpUnit_small (address u member))), toWellFormed_cons bar,
    toWellFormed_append (fun u member => isSurrogate_small (isUpper_small (letters u member))), toWellFormed_cons bar]

theorem edgeSigningString_injective {ts ts' : Number} {ip ip' method method' path path' message : Text}
    (made : edgeSigningString ts ip method path = .ok message)
    (made' : edgeSigningString ts' ip' method' path' = .ok message) :
    ts = ts' ∧ ip = ip' ∧ edgeMethod method = edgeMethod method' ∧ edgePath path = edgePath path' := by
  obtain ⟨m, upper, safe, letters, address, rfl⟩ := edgeSigningString_ok.mp made
  obtain ⟨n, upper', safe', letters', address', same⟩ := edgeSigningString_ok.mp made'
  obtain ⟨rfl, rfl, rfl, paths⟩ := signedText_injective (ip_no_separator address) (ip_no_separator address')
    (upper_no_separator letters) (upper_no_separator letters') same
  exact ⟨(Number.eq_ofNat safe).1.trans (Number.eq_ofNat safe').1.symm, rfl, letters.trans letters'.symm, paths⟩

/-- The bytes that are signed determine the fields, a lone surrogate in the path being read as U+FFFD. -/
theorem signed_bytes_injective {ts ts' : Number} {ip ip' method method' path path' message message' : Text}
    (made : edgeSigningString ts ip method path = .ok message)
    (made' : edgeSigningString ts' ip' method' path' = .ok message') (same : utf8 message = utf8 message') :
    ts = ts' ∧ ip = ip' ∧ edgeMethod method = edgeMethod method' ∧
      toWellFormed (edgePath path) = toWellFormed (edgePath path') := by
  obtain ⟨m, upper, safe, letters, address, rfl⟩ := edgeSigningString_ok.mp made
  obtain ⟨n, upper', safe', letters', address', rfl⟩ := edgeSigningString_ok.mp made'
  have texts := toWellFormed_of_utf8 same
  rw [toWellFormed_signedText (ip_units address) (upper_units letters),
    toWellFormed_signedText (ip_units address') (upper_units letters')] at texts
  obtain ⟨rfl, rfl, rfl, paths⟩ := signedText_injective (ip_no_separator address) (ip_no_separator address')
    (upper_no_separator letters) (upper_no_separator letters') texts
  exact ⟨(Number.eq_ofNat safe).1.trans (Number.eq_ofNat safe').1.symm, rfl, letters.trans letters'.symm, paths⟩

def urlSymbol (n : ℕ) : CodeUnit := urlSafe (symbol n)

theorem urlSymbol_spec : ∀ n < 64, sextet? (urlSymbol n) = some n ∧ isSigUnit (urlSymbol n) = true ∧ urlSymbol n ≠ unit '=' := by
  decide

theorem rdropWhile_padding {l : Text} (k : ℕ) (plain : ∀ u ∈ l, u ≠ unit '=') :
    (l ++ List.replicate k (unit '=')).rdropWhile (· == unit '=') = l := by
  induction k with
  | zero =>
    rw [List.replicate_zero, List.append_nil, List.rdropWhile_eq_self_iff]
    intro nonempty last
    exact plain _ (List.getLast_mem nonempty) (beq_iff_eq.mp last)
  | succ k ih =>
    rw [List.replicate_succ', ← List.append_assoc, List.rdropWhile_concat_pos _ _ _ (by simp), ih]

theorem base64url_eq (bytes : Bytes) : base64url bytes = (sextets bytes).map urlSymbol := by
  have plain : ∀ u ∈ (sextets bytes).map urlSymbol, u ≠ unit '=' := by
    intro u member
    obtain ⟨n, sextet, rfl⟩ := List.mem_map.mp member
    exact (urlSymbol_spec n (sextets_lt bytes n sextet)).2.2
  have shape : (btoa bytes).map urlSafe =
      (sextets bytes).map urlSymbol ++ List.replicate ((3 - bytes.length % 3) % 3) (unit '=') := by
    rw [btoa, padding, List.map_append, List.map_map, List.map_replicate]
    rfl
  rw [base64url, shape, rdropWhile_padding _ plain]

theorem fromBase64url_base64url (bytes : Bytes) : fromBase64url (base64url bytes) = bytes := by
  rw [base64url_eq]
  exact fromBase64url_map (fun n small => (urlSymbol_spec n small).1) bytes

/-- The signature of 32 bytes is 43 units of the alphabet. -/
theorem base64url_injective : Function.Injective base64url := by
  intro bytes bytes' same
  rw [← fromBase64url_base64url bytes, same, fromBase64url_base64url]

theorem base64url_units (bytes : Bytes) : ∀ u ∈ base64url bytes, isSigUnit u = true := by
  rw [base64url_eq]
  intro u member
  obtain ⟨n, sextet, rfl⟩ := List.mem_map.mp member
  exact (urlSymbol_spec n (sextets_lt bytes n sextet)).2.1

theorem length_base64url (bytes : Bytes) : (base64url bytes).length = (4 * bytes.length + 2) / 3 := by
  rw [base64url_eq, List.length_map, sextets_length]

theorem isSig_base64url {bytes : Bytes} (digest : bytes.length = 32) : isSig (base64url bytes) = true := by
  rw [isSig, length_base64url, digest, Bool.and_eq_true, List.all_eq_true]
  exact ⟨by decide, base64url_units bytes⟩

theorem isTs_natText {n : ℕ} : isTs (natText n) = true ↔ 1 ≤ n ∧ n < 10 ^ 12 := by
  have digits : (natText n).all isDigit = true := List.all_eq_true.mpr (natText_digits n)
  have nonempty := natText_ne_nil n
  simp only [isTs, digits, nonempty, ne_eq, not_false_eq_true, decide_true, Bool.and_eq_true, decide_eq_true_eq,
    natText_length_le (show 0 < 12 by omega), true_and, and_congr_left_iff]
  intro short
  constructor
  · intro head
    rw [Nat.one_le_iff_ne_zero]
    rintro rfl
    exact head rfl
  · intro positive
    exact natText_head positive

/-- A timestamp has one spelling. -/
theorem natText_of_isTs {ts : Text} (shaped : isTs ts = true) : natText (natOf ts) = ts := by
  simp only [isTs, Bool.and_eq_true, List.all_eq_true, decide_eq_true_eq] at shaped
  exact natText_natOf shaped.1.1.2 shaped.1.1.1 shaped.1.2

theorem natOf_lt_of_isTs {ts : Text} (shaped : isTs ts = true) : natOf ts < 2 ^ 53 := by
  have range := isTs_natText.mp (by rwa [natText_of_isTs shaped])
  omega

/-- A signing time of a second or more is signed as one second or more. -/
theorem one_le_seconds {x : Number} {q : ℚ} {double : IsDouble q} {n : ℕ} (at_ : x = .finite q double) (late : 1000 ≤ q)
    (small : n < 2 ^ 53) (seconds : (x.divNat 1000).floor = Number.ofNat n) : 1 ≤ n := by
  rw [at_, Number.divNat, Number.ofNat_eq small] at seconds
  cases rounds : ofRat (q / (1000 : ℕ)) with
  | finite r rDouble =>
    have quotient : ((1 : ℕ) : ℚ) ≤ q / (1000 : ℕ) := by
      rw [le_div_iff₀ (by norm_num)]
      push_cast
      linarith
    have above : ((1 : ℕ) : ℚ) ≤ r := le_of_ofRat (by linarith [show (0 : ℚ) < (1 : ℕ) by norm_num])
      (by norm_num) quotient rounds
    have floor : 1 ≤ ⌊r⌋ := Int.le_floor.mpr (by exact_mod_cast above)
    rw [rounds, Number.floor] at seconds
    have whole : ((1 : ℕ) : ℚ) ≤ ⌊r⌋ := by exact_mod_cast floor
    have := le_of_ofRat (by linarith [show (0 : ℚ) < (1 : ℕ) by norm_num]) (by norm_num) whole seconds
    exact_mod_cast this
  | nan => rw [rounds] at seconds; cases seconds
  | infinity negative => rw [rounds] at seconds; cases seconds

/-- A clock within the allowed skew is not refused as stale. -/
theorem skew_within {c : ℚ} (double : IsDouble c) {n : ℕ} (small : n < 2 ^ 53) (near : |c - n| ≤ edgeMaxSkewSeconds) :
    ((Number.finite c double).minus (Number.ofNat n)).abs.exceeds edgeMaxSkewSeconds = false := by
  obtain ⟨r, rDouble, rounds, within⟩ := ofRat_within (n := edgeMaxSkewSeconds) (by decide) near
  rw [Number.ofNat_eq small, Number.minus, rounds, Number.abs, Number.exceeds, decide_eq_false_iff_not, not_lt]
  exact within

end Edge
