import AppPlatform.Lib.Base64
import AppPlatform.Lib.JsonRoundTrip
import AppPlatform.Lib.Utf8Decode

/-!
# The client secrets of single sign-on

`enc:v<N>:<base64(iv | ciphertext | tag)>` inside `oidc_config`. The cipher is a parameter: what is
encrypted under a key is decrypted under it.
-/

namespace Identity.Sso
open Js
variable {κ γ : Type*}

inductive Thrown where
  | encryptionKeyError (message : Text)
  | typeError

def IV_BYTES : ℕ := 12

def TAG_BYTES : ℕ := 16

abbrev Iv := { bytes : Bytes // bytes.length = IV_BYTES }

/-- AES-256-GCM, bound to its purpose. -/
structure Aes (κ : Type*) where
  encrypt : κ → Iv → Bytes → Bytes × Bytes
  decrypt : κ → Iv → Bytes → Bytes → Option Bytes
  tag_length : ∀ key iv plain, (encrypt key iv plain).2.length = TAG_BYTES
  decrypt_encrypt : ∀ key iv plain, decrypt key iv (encrypt key iv plain).1 (encrypt key iv plain).2 = some plain

structure Keyring (κ : Type*) where
  /-- Version used for new ciphertext. -/
  current : Number
  keys : Number → Option κ
  currentKey : κ
  held : keys current = some currentKey

def encryptSecret (aes : Aes κ) (ring : Keyring κ) (iv : Iv) (plain : Text) : Text :=
  let encrypted := aes.encrypt ring.currentKey iv (utf8 plain)
  text "enc:v" ++ (numberText ring.current ++ colon :: btoa (iv ++ encrypted.1 ++ encrypted.2))

/-- `/^enc:v(\d+):/`: the digits, and what comes after the match. -/
def matchSealed (t : Text) : Option (Text × Text) :=
  match skipWord (text "enc:v") t with
  | none => none
  | some rest =>
    if rest.takeWhile isDigit = [] then none
    else match rest.dropWhile isDigit with
      | u :: body => if u = colon then some (rest.takeWhile isDigit, body) else none
      | [] => none

def isEncrypted (value : Text) : Bool := (matchSealed value).isSome

/-- The end of `decryptSecret`: `iv | ciphertext | tag`. -/
def decryptPayload (aes : Aes κ) (key : κ) (payload : Bytes) : Except Thrown Text :=
  if long : IV_BYTES + TAG_BYTES ≤ payload.length then
    let iv : Iv := ⟨payload.take IV_BYTES, by rw [List.length_take]; omega⟩
    match aes.decrypt key iv ((payload.take (payload.length - TAG_BYTES)).drop IV_BYTES)
        (payload.drop (payload.length - TAG_BYTES)) with
    | some plain => .ok (decodeUtf8 plain)
    | none => .error (.encryptionKeyError (text "secret could not be decrypted"))
  else .error (.encryptionKeyError (text "ciphertext too short"))

def decryptSecret (aes : Aes κ) (ring : Keyring κ) (value : Text) : Except Thrown Text :=
  match matchSealed value with
  | none => .error (.encryptionKeyError (text "not an encrypted value"))
  | some (digits, body) =>
    if body = [] ∨ body.any isLineTerminator = true then .error (.encryptionKeyError (text "not an encrypted value"))
    else match ring.keys (Number.ofNat (natOf digits)) with
      | none => .error (.encryptionKeyError (text "no key configured for version v" ++ digits))
      | some key => decryptPayload aes key (fromBase64 body)

/-- A value of a column, as far as the sealing tells values apart. -/
inductive Cell (γ : Type*) where
  | str (t : Text)
  | other (x : γ)

def CLIENT_SECRET : Text := text "clientSecret"

/-- Apply `fn` to `clientSecret` inside a stored `oidc_config` JSON string. -/
def mapClientSecret (config : Cell γ) (fn : Text → Except Thrown Text) : Except Thrown (Cell γ) :=
  match config with
  | .other x => .ok (.other x)
  | .str t =>
    match parse t with
    | none => .ok (.str t)
    -- reading a property of `null`
    | some .null => .error .typeError
    | some (.obj fields) =>
      match fields.lookup CLIENT_SECRET with
      | some (.str s) => (fn s).map fun c => .str (stringify (.obj (setField fields CLIENT_SECRET (.str c))))
      | _ => .ok (.str t)
    | some _ => .ok (.str t)

def sealOidcConfig (aes : Aes κ) (ring : Keyring κ) (iv : Iv) (config : Cell γ) : Except Thrown (Cell γ) :=
  mapClientSecret config fun s => .ok (if isEncrypted s then s else encryptSecret aes ring iv s)

def openOidcConfig (aes : Aes κ) (ring : Keyring κ) (config : Cell γ) : Except Thrown (Cell γ) :=
  mapClientSecret config fun s => if isEncrypted s then decryptSecret aes ring s else .ok s

end Identity.Sso
