import AppPlatform.Identity.SsoSealing
import AppPlatform.Lib.NumberOrder

/-!
# Keyrings of single sign-on

`IDENTITY_ENCRYPTION_KEY` is one key, or a list `v2=<base64>,v1=<base64>`: what is encrypted has the
highest version, and is decrypted by any ring that holds its key. A version is written where it can be
read back as long as it is written in digits.
-/

namespace Identity.Sso
open Js

def KEY_BYTES : ℕ := 32

abbrev Key := { bytes : Bytes // bytes.length = KEY_BYTES }

/-- `DEFAULTS.encryptionKeyEnv` -/
def encryptionKeyEnv : Text := text "IDENTITY_ENCRYPTION_KEY"

def decodeKey (b64 label : Text) : Except Thrown Key :=
  let key := fromBase64 (trim b64)
  if whole : key.length = KEY_BYTES then .ok ⟨key, whole⟩
  else .error (.encryptionKeyError (encryptionKeyEnv ++ text ": " ++ label ++ text " must be 32 bytes, base64 (got " ++
    natText key.length ++ text "). Generate one with `openssl rand -base64 32`."))

/-- `/^\s*v(\d+)=/`: the digits, and what comes after the match. -/
def matchVersion (t : Text) : Option (Text × Text) :=
  match skipWord (text "v") (t.dropWhile isWhiteSpace) with
  | none => none
  | some rest =>
    if rest.takeWhile isDigit = [] then none
    else match rest.dropWhile isDigit with
      | u :: body => if u = unit '=' then some (rest.takeWhile isDigit, body) else none
      | [] => none

/-- `/^\s*v(\d+)=(.+)$/` -/
def matchEntry (part : Text) : Option (Text × Text) :=
  (matchVersion part).filter fun m => m.2 ≠ [] && !m.2.any isLineTerminator

/-- `Number(m[1])` -/
def versionOf (digits : Text) : Number := .ofNat (natOf digits)

/-- The loop over the parts of the list; `keys` is the `Map`, in the order of insertion. -/
def readEntries : List Text → List (Number × Key) → Except Thrown (List (Number × Key))
  | [], keys => .ok keys
  | part :: parts, keys =>
    match matchEntry part with
    | none => .error (.encryptionKeyError (encryptionKeyEnv ++ text ": expected \"v<N>=<base64>\" entries"))
    | some (digits, b64) =>
      let version := versionOf digits
      if (keys.lookup version).isSome then
        .error (.encryptionKeyError (encryptionKeyEnv ++ text ": duplicate version v" ++ numberText version))
      else match decodeKey b64 (text "v" ++ numberText version) with
        | .error thrown => .error thrown
        | .ok key => readEntries parts (keys ++ [(version, key)])

def digitsOf (parts : List Text) : List Text := parts.filterMap fun part => (matchEntry part).map Prod.fst

theorem readEntries_versions {parts : List Text} {keys all : List (Number × Key)} (read : readEntries parts keys = .ok all) :
    all.map Prod.fst = keys.map Prod.fst ++ (digitsOf parts).map versionOf ∧ (digitsOf parts).length = parts.length := by
  induction parts generalizing keys with
  | nil =>
    cases read
    exact ⟨(List.append_nil _).symm, rfl⟩
  | cons part parts ih =>
    rw [readEntries] at read
    split at read
    · cases read
    rename_i digits b64 entry
    dsimp only at read
    split at read
    · cases read
    split at read
    · cases read
    obtain ⟨versions, length⟩ := ih read
    have here : digitsOf (part :: parts) = digits :: digitsOf parts := by
      rw [digitsOf, List.filterMap_cons, entry]
      rfl
    rw [versions, here, List.map_append, List.append_assoc, List.length_cons, List.length_cons, length]
    exact ⟨rfl, rfl⟩

theorem versionOf_ne_nan (digits : Text) : versionOf digits ≠ .nan := by
  rcases Number.ofNat_cases (natOf digits) with infinite | ⟨m, double, finite⟩
  · rw [versionOf, infinite]
    nofun
  · rw [versionOf, finite]
    nofun

theorem readEntries_held {value : Text} {keys : List (Number × Key)} (read : readEntries (value.splitOn (unit ',')) [] = .ok keys) :
    (keys.lookup (Number.maxOf (keys.map Prod.fst))).isSome = true := by
  obtain ⟨versions, length⟩ := readEntries_versions read
  have nonempty : keys.map Prod.fst ≠ [] := by
    rw [versions, List.map_nil, List.nil_append, ne_eq, List.map_eq_nil_iff, ← List.length_eq_zero_iff, length,
      List.length_eq_zero_iff]
    exact List.splitOn_ne_nil _ _
  have plain : ∀ x ∈ keys.map Prod.fst, x ≠ .nan := by
    intro x member
    rw [versions] at member
    obtain ⟨digits, _, rfl⟩ := List.mem_map.mp member
    exact versionOf_ne_nan digits
  obtain ⟨entry, member, same⟩ := List.mem_map.mp (Number.maxOf_spec nonempty plain).1
  rw [List.lookup_isSome_iff]
  exact ⟨entry, member, beq_iff_eq.mpr same.symm⟩

def parseKeyring (value : Option Text) : Except Thrown (Keyring Key) :=
  match value with
  | none => .error (.encryptionKeyError (encryptionKeyEnv ++ text " is required when SSO is enabled"))
  | some value =>
    if trim value = [] then .error (.encryptionKeyError (encryptionKeyEnv ++ text " is required when SSO is enabled"))
    else if (matchVersion value).isNone then
      (decodeKey value (text "the key")).map fun key =>
        { current := .ofNat 1, keys := fun version => [(Number.ofNat 1, key)].lookup version, currentKey := key,
          held := List.lookup_cons_self }
    else match read : readEntries (value.splitOn (unit ',')) [] with
      | .error thrown => .error thrown
      | .ok keys => .ok
        { current := .maxOf (keys.map Prod.fst), keys := fun version => keys.lookup version,
          currentKey := (keys.lookup (.maxOf (keys.map Prod.fst))).get (readEntries_held read),
          held := (Option.some_get (readEntries_held read)).symm }

/-- Seal a client secret the way the package stores it, under the ring of the environment. -/
def sealSsoClientSecret (aes : Aes Key) (iv : Iv) (secret : Text) (env : Option Text) : Except Thrown Text :=
  if isEncrypted secret then .ok secret
  else (parseKeyring env).map fun ring => encryptSecret aes ring iv secret

/-! ### Versions -/

def versionDigits (value : Text) : List Text :=
  if (matchVersion value).isSome then digitsOf (value.splitOn (unit ',')) else []

/-- Every version of the value, read as a number, is below the first that is written with an exponent. -/
def PlainVersions (value : Text) : Prop := ∀ digits ∈ versionDigits value, (versionOf digits).Plain

/-- The version in use is the highest one that is held. -/
structure Highest (ring : Keyring Key) : Prop where
  held : (ring.keys ring.current).isSome = true
  largest : ∀ version, (ring.keys version).isSome = true → version.le ring.current = true

theorem mem_versions {keys : List (Number × Key)} {version : Number} (held : (keys.lookup version).isSome = true) :
    version ∈ keys.map Prod.fst := by
  obtain ⟨entry, member, same⟩ := List.lookup_isSome_iff.mp held
  rw [beq_iff_eq.mp same]
  exact List.mem_map_of_mem member

theorem parseKeyring_versions {value : Text} {ring : Keyring Key} (accepted : parseKeyring (some value) = .ok ring) :
    Highest ring ∧ (ring.Readable ↔ PlainVersions value) := by
  have held : (ring.keys ring.current).isSome = true := by rw [ring.held]; rfl
  unfold parseKeyring at accepted
  dsimp only at accepted
  split at accepted
  · cases accepted
  split at accepted
  · -- a single key
    rename_i single
    cases decoded : decodeKey value (text "the key") with
    | error thrown =>
      rw [decoded] at accepted
      cases accepted
    | ok key =>
      rw [decoded] at accepted
      cases accepted
      refine ⟨⟨held, fun version found => ?_⟩, iff_of_true ?_ ?_⟩
      · rw [List.mem_singleton.mp (mem_versions found)]
        exact Number.le_refl (versionOf_ne_nan (natText 1))
      · have small : (1 : ℕ) < 2 ^ 53 := by norm_num
        exact (numberText_digits 1).mpr ⟨_, _, Number.ofNat_eq small, by norm_num⟩
      · intro digits member
        rw [versionDigits, Option.isNone_iff_eq_none.mp single] at member
        cases member
  · rename_i listed
    split at accepted
    · cases accepted
    rename_i keys read
    cases accepted
    obtain ⟨versions, length⟩ := readEntries_versions read
    rw [List.map_nil, List.nil_append] at versions
    have digits : versionDigits value = digitsOf (value.splitOn (unit ',')) :=
      if_pos (by rwa [Bool.not_eq_true, Option.isNone_eq_false_iff] at listed)
    have member := mem_versions held
    have plain : ∀ x ∈ keys.map Prod.fst, x ≠ .nan := by
      intro x found
      rw [versions] at found
      obtain ⟨digits, _, rfl⟩ := List.mem_map.mp found
      exact versionOf_ne_nan digits
    have largest := (Number.maxOf_spec (List.ne_nil_of_mem member) plain).2
    dsimp only at member
    obtain ⟨top, listedTop, same⟩ : ∃ top ∈ digitsOf (value.splitOn (unit ',')), versionOf top = .maxOf (keys.map Prod.fst) := by
      rw [← List.mem_map, ← versions]
      exact member
    refine ⟨⟨held, fun version found => largest version (mem_versions found)⟩, ?_⟩
    have current : Number.maxOf (keys.map Prod.fst) = .ofNat (natOf top) := same.symm
    unfold Keyring.Readable PlainVersions
    dsimp only
    rw [current, numberText_digits, digits, ← current]
    constructor
    · intro small d listedD
      refine Number.Plain.of_le small (largest _ ?_)
      rw [versions]
      exact List.mem_map_of_mem listedD
    · intro all
      rw [current]
      exact all top listedTop

/-- What rotation needs of a ring, whatever ring comes after it. -/
structure Rotates (aes : Aes Key) (ring : Keyring Key) : Prop where
  highest : Highest ring
  decrypts : ∀ {value later iv plain}, parseKeyring value = .ok later → isWellFormed plain = true →
    later.keys ring.current = ring.keys ring.current → decryptSecret aes later (encryptSecret aes ring iv plain) = .ok plain
  refuses : ∀ {value later iv plain}, parseKeyring value = .ok later → isWellFormed plain = true →
    later.keys ring.current ≠ ring.keys ring.current →
      ∃ message, decryptSecret aes later (encryptSecret aes ring iv plain) = .error (.encryptionKeyError message)
  recognized : ∀ iv plain, isEncrypted (encryptSecret aes ring iv plain) = true
  stable : ∀ {value later} iv iv' plain, parseKeyring value = .ok later →
    sealSsoClientSecret aes iv' (encryptSecret aes ring iv plain) value = .ok (encryptSecret aes ring iv plain)

section
variable {aes : Aes Key} {ring : Keyring Key}

theorem Rotates.readable (rotates : Rotates aes ring) : ring.Readable := by
  by_contra unreadable
  have iv : Iv := ⟨List.replicate IV_BYTES 0, List.length_replicate⟩
  have unrecognized : isEncrypted (encryptSecret aes ring iv []) = false := isEncrypted_unreadable unreadable []
  rw [rotates.recognized] at unrecognized
  cases unrecognized

theorem decryptPayload_refused {key key' : Key} {iv : Iv} {plain : Bytes}
    (rejected : aes.decrypt key' iv (aes.encrypt key iv plain).1 (aes.encrypt key iv plain).2 = none) :
    decryptPayload aes key' (iv.val ++ (aes.encrypt key iv plain).1 ++ (aes.encrypt key iv plain).2) =
      .error (.encryptionKeyError (text "secret could not be decrypted")) := by
  have tagLength := aes.tag_length key iv plain
  generalize aes.encrypt key iv plain = encrypted at rejected tagLength ⊢
  obtain ⟨first, middle, last⟩ := payload_parts encrypted.1 iv.property tagLength
  have long : IV_BYTES + TAG_BYTES ≤ (iv.val ++ encrypted.1 ++ encrypted.2).length := by
    rw [List.length_append, List.length_append, iv.property, tagLength]
    omega
  rw [decryptPayload, dif_pos long]
  simp only [first, middle, last, rejected]

theorem Highest.rotates (highest : Highest ring) (readable : ring.Readable)
    (rejects : ∀ key key' iv plain, key ≠ key' →
      aes.decrypt key' iv (aes.encrypt key iv plain).1 (aes.encrypt key iv plain).2 = none) : Rotates aes ring where
  highest := highest
  decrypts {value later iv plain} _ wellFormed same := by
    rw [decryptSecret_held readable (same.trans ring.held), decryptPayload_encrypted, decodeUtf8_utf8, toWellFormed_eq wellFormed]
  refuses {value later iv plain} _ _ differs := by
    cases held : later.keys ring.current with
    | none => exact ⟨_, decryptSecret_missing readable held⟩
    | some key =>
      rw [held, ring.held] at differs
      have other : ring.currentKey ≠ key := fun same => differs (congrArg some same.symm)
      exact ⟨_, (decryptSecret_held readable held).trans (decryptPayload_refused (rejects _ _ iv (utf8 plain) other))⟩
  recognized iv plain := isEncrypted_encryptSecret readable
  stable iv iv' plain _ := by
    rw [sealSsoClientSecret, isEncrypted_encryptSecret readable, if_pos rfl]

/-- Keys rotate exactly when no version of the list is so large that it is written with an exponent. -/
theorem keyring_rotates_iff
    (rejects : ∀ key key' iv plain, key ≠ key' →
      aes.decrypt key' iv (aes.encrypt key iv plain).1 (aes.encrypt key iv plain).2 = none)
    {value : Text} (accepted : parseKeyring (some value) = .ok ring) : Rotates aes ring ↔ PlainVersions value := by
  obtain ⟨highest, readable⟩ := parseKeyring_versions accepted
  rw [← readable]
  exact ⟨Rotates.readable, fun readable => highest.rotates readable rejects⟩

end

/-! ### A key of zeros -/

/-- The cipher as it was recorded once, for a key and an `iv` of zeros; elsewhere the key is kept with the body. -/
def recordedKeyed : Aes Key where
  encrypt key iv plain :=
    if key.val = List.replicate 32 0 ∧ iv.val = List.replicate 12 0 ∧ plain = utf8 (text "s3cret") then
      ([189, 148, 35, 79, 40, 20], [103, 166, 76, 213, 185, 215, 82, 108, 108, 115, 234, 124, 143, 44, 90, 93])
    else (plain ++ key.val, List.replicate 16 0)
  decrypt key iv body tag :=
    if key.val = List.replicate 32 0 ∧ iv.val = List.replicate 12 0 ∧ body = [189, 148, 35, 79, 40, 20] ∧
        tag = [103, 166, 76, 213, 185, 215, 82, 108, 108, 115, 234, 124, 143, 44, 90, 93] then some (utf8 (text "s3cret"))
    else if tag = List.replicate 16 0 ∧ body.drop (body.length - 32) = key.val then some (body.take (body.length - 32)) else none
  tag_length key iv plain := by split <;> rfl
  decrypt_encrypt key iv plain := by
    by_cases here : key.val = List.replicate 32 0 ∧ iv.val = List.replicate 12 0 ∧ plain = utf8 (text "s3cret")
    · rw [if_pos here]
      simp [here]
    · have cut : (plain ++ key.val).length - 32 = plain.length := by
        rw [List.length_append, key.property, KEY_BYTES, Nat.add_sub_cancel]
      rw [if_neg here]
      dsimp only
      rw [if_neg (fun recorded => absurd recorded.2.2.2 (by decide)), cut, List.drop_left, List.take_left, if_pos ⟨rfl, rfl⟩]

theorem recordedKeyed_rejects (key key' : Key) (iv : Iv) (plain : Bytes) (differs : key ≠ key') :
    recordedKeyed.decrypt key' iv (recordedKeyed.encrypt key iv plain).1 (recordedKeyed.encrypt key iv plain).2 = none := by
  unfold recordedKeyed
  dsimp only
  by_cases here : key.val = List.replicate 32 0 ∧ iv.val = List.replicate 12 0 ∧ plain = utf8 (text "s3cret")
  · rw [if_pos here]
    have other : ¬key'.val = List.replicate 32 0 := fun zeros => differs (Subtype.ext (here.1.trans zeros.symm))
    rw [if_neg fun both => other both.1, if_neg fun both => absurd both.1 (by decide)]
  · have cut : (plain ++ key.val).length - 32 = plain.length := by
      rw [List.length_append, key.property, KEY_BYTES, Nat.add_sub_cancel]
    rw [if_neg here]
    dsimp only
    rw [if_neg (fun recorded => absurd recorded.2.2.2 (by decide)), cut, List.drop_left, if_neg fun both => differs (Subtype.ext both.2)]

theorem parseKeyring_entry (value digits b64 : Text) (entry : matchEntry value = some (digits, b64))
    (alone : unit ',' ∉ value) (nonblank : trim value ≠ []) (whole : (fromBase64 (trim b64)).length = KEY_BYTES) :
    ∃ ring, parseKeyring (some value) = .ok ring := by
  have listed : ¬(matchVersion value).isNone = true := by
    intro none
    rw [matchEntry, Option.isNone_iff_eq_none.mp none] at entry
    cases entry
  have read : ∃ keys, readEntries (value.splitOn (unit ',')) [] = .ok keys := by
    rw [List.splitOn_eq_singleton alone, readEntries, entry]
    dsimp only
    rw [List.lookup_nil, if_neg (by decide), decodeKey]
    rw [dif_pos whole]
    exact ⟨_, rfl⟩
  obtain ⟨keys, read⟩ := read
  unfold parseKeyring
  dsimp only
  rw [if_neg nonblank, if_neg listed]
  split
  · rename_i failed
    rw [read] at failed
    cases failed
  · exact ⟨_, rfl⟩

def zeroKey : Text := text "AAAAAAAAAAAAAAAAAAAAAAAAAAAAAAAAAAAAAAAAAAA="

def second : Text := text "v2=" ++ zeroKey

theorem keyring_rotates_second :
    ∃ ring, parseKeyring (some second) = .ok ring ∧ (Rotates recordedKeyed ring ↔ PlainVersions second) := by
  obtain ⟨ring, accepted⟩ := parseKeyring_entry second (text "2") zeroKey
    (by decide) (by decide) (by decide) (by decide)
  exact ⟨ring, accepted, keyring_rotates_iff recordedKeyed_rejects accepted⟩

def sextillion : Text := text "v1000000000000000000000=" ++ zeroKey

/-- A version of 22 digits is accepted, and what is encrypted under it is not recognized. -/
theorem sextillion_stuck : ¬∀ value ring, parseKeyring (some value) = .ok ring → Rotates recordedKeyed ring := by
  intro all
  obtain ⟨ring, accepted⟩ := parseKeyring_entry sextillion (text "1000000000000000000000") zeroKey
    (by decide) (by decide) (by decide) (by decide)
  have plain := (parseKeyring_versions accepted).2.mp (all sextillion ring accepted).readable
  have listed : text "1000000000000000000000" ∈ versionDigits sextillion := by decide
  have value : natOf (text "1000000000000000000000") = 10 ^ 21 := by decide
  obtain ⟨q, double, same, small⟩ := plain _ listed
  rw [versionOf, value, Number.ofNat, Nat.cast_pow, Nat.cast_ofNat, ofRat_double isDouble_exponent] at same
  cases same
  exact lt_irrefl _ small

end Identity.Sso
