import AppPlatform.Lib.IsoDate
import AppPlatform.Lib.Utf8

/-!
# What a known-device cookie is bound to

The epoch is a keyed fingerprint of the user's `updatedAt` and of the password account. Bumping it moves `updatedAt`.
-/

namespace Identity.KnownDevice
open Js

/-- What the epoch is made of. The password hash comes from the database, so it is well formed. -/
structure EpochInputs where
  userUpdatedAt : ℤ
  password : Text
  credentialUpdatedAt : ℤ
  stored : isWellFormed password = true
  deriving DecidableEq

/-- A cookie whose tag is right, as `parse` reads it. -/
structure Parsed where
  userId : Text
  deviceId : Text
  iat : ℤ
  epoch : Text
  deriving DecidableEq

structure Device where
  deviceId : Text
  iat : ℤ
  deriving DecidableEq

def Parsed.device (cookie : Parsed) : Device := ⟨cookie.deviceId, cookie.iat⟩

/-- `mac` is the HMAC under the key of this purpose, cut to 16 bytes and written as base64url. -/
structure Config where
  mac : Text → Text
  userId : Text

def material (userId : Text) (inputs : EpochInputs) : Text :=
  userId ++ newline :: (inputs.password ++ newline :: (toISOString inputs.credentialUpdatedAt ++
    newline :: toISOString inputs.userUpdatedAt))

def fingerprint (c : Config) (inputs : EpochInputs) : Text := c.mac (text "epoch\n" ++ material c.userId inputs)

/-- The two dates are the last lines; the password is what is left. -/
theorem material_injective (userId : Text) : Function.Injective (material userId) := by
  intro inputs inputs' same
  have rest := (List.append_inj same rfl).2
  simp only [← List.cons_append, ← List.append_assoc] at rest
  obtain ⟨front, user⟩ := after_last (toISOString_no_newline _) (toISOString_no_newline _) rest
  obtain ⟨password, credential⟩ := after_last (toISOString_no_newline _) (toISOString_no_newline _) front
  obtain ⟨v, p, a, stored⟩ := inputs
  obtain ⟨v', p', a', stored'⟩ := inputs'
  obtain rfl := toISOString_injective user
  obtain rfl := toISOString_injective credential
  obtain rfl := (List.cons.inj password).2
  rfl

/-! ### The rows -/

/-- A stored time: whole milliseconds, and microseconds a `Date` does not show. -/
structure Stamp where
  ms : ℤ
  micro : ℕ
  deriving DecidableEq

structure Credential where
  password : Option Text
  updatedAt : Stamp
  stored : isWellFormed (password.getD []) = true
  deriving DecidableEq

def inputsOf (user : Option Stamp) (credential : Option Credential) : Option EpochInputs :=
  match user, credential with
  | some stamp, some account => some ⟨stamp.ms, account.password.getD [], account.updatedAt.ms, account.stored⟩
  | _, _ => none

theorem inputsOf_some {user : Option Stamp} {credential : Option Credential} {inputs : EpochInputs}
    (read : inputsOf user credential = some inputs) : ∃ stamp, user = some stamp ∧ stamp.ms = inputs.userUpdatedAt := by
  unfold inputsOf at read
  split at read
  · rename_i stamp _
    obtain rfl := Option.some.inj read
    exact ⟨stamp, rfl, rfl⟩
  · cases read

def maxAgeSeconds : ℤ := 90 * 24 * 3600

def clockSkewSeconds : ℤ := 60

/-- `Math.floor(Date.now() / 1000)`. -/
def seconds (ms : ℤ) : ℤ := ms / 1000

end Identity.KnownDevice
