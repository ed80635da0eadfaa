import Itou.Lib.Queries
import Itou.Lib.Tables
import Mathlib.Data.Char
import Mathlib.Data.List.Lex
import Mathlib.Data.List.Nodup

/-!
# Devices and sessions of one professional

The TOTP devices, the backup codes and the sessions of one user. A device that is deleted is kept, with the date on which
it was disabled.
-/

namespace Itou.Otp

open Itou.Lib

abbrev Text := List Char

structure ItouTOTPDevice where
  pk : Nat
  name : Text
  disabledAt : Option Nat
  deriving DecidableEq

def ItouTOTPDevice.isEnabled (device : ItouTOTPDevice) : Bool := device.disabledAt.isNone

/-- The devices of the user, which their primary keys tell apart. -/
structure Devices where
  rows : List ItouTOTPDevice
  pks : (rows.map (·.pk)).Nodup

namespace Devices

variable (devices : Devices)

/-- `INSERT`, refused when the primary key is taken. -/
def insert (device : ItouTOTPDevice) : Option Devices :=
  if h : (List.map (·.pk) (devices.rows ++ [device])).Nodup then some ⟨devices.rows ++ [device], h⟩ else none

/-- `UPDATE … SET disabled_at = now WHERE p`. -/
def disable (p : ItouTOTPDevice → Bool) (now : Nat) : Devices where
  rows := devices.rows.map fun d => if p d then { d with disabledAt := some now } else d
  pks := by
    have heq : (devices.rows.map fun d => if p d then { d with disabledAt := some now } else d).map (·.pk) =
        devices.rows.map (·.pk) := by
      rw [List.map_map]
      exact List.map_congr_left fun d _ => by simp only [Function.comp]; split <;> rfl
    exact heq ▸ devices.pks

/-- `DELETE … WHERE p`. -/
def delete (p : ItouTOTPDevice → Bool) : Devices where
  rows := devices.rows.filter fun d => !p d
  pks := devices.pks.sublist (List.filter_sublist.map _)

end Devices

/-- What the key `DEVICE_ID_SESSION_KEY` of a session names: a TOTP device, or the placeholder for the factor of the identity
provider. -/
inductive PersistentId where
  | totpDevice (pk : Nat)
  | externalTotpDevice
  deriving DecidableEq

structure Session where
  isHijacked : Bool
  deviceId : Option PersistentId
  deriving DecidableEq

/-- `staticDevice` holds the hashed codes of the `ItouStaticDevice`, if there is one. -/
structure State where
  devices : Devices
  staticDevice : Option (List Text)
  sessions : Table Session

/-- What does not change: the settings, the organizations of the user, the order of the names in the database and the
hasher of Django. -/
structure Env where
  requireMfaForPros : Bool
  /-- An organization of the user is in `REQUIRE_MFA_ON_ORGANIZATION_IDS` or in `REQUIRE_MFA_ON_COMPANY_IDS`. -/
  hasRequiredOrganization : Bool
  collate : Text → Text
  checkPassword : Text → Text → Bool

/-! ## `itou/otp/utils.py` -/

section Utils

variable (env : Env) (σ : State) (session : Session)

def State.getUserDevices : List ItouTOTPDevice := orderBy (·.name) (σ.devices.rows.filter (·.isEnabled))

def State.hasDevice : Bool := σ.devices.rows.any (·.isEnabled)

/-- `request.user.otp_device`: the device that the session names, as long as its row is there. -/
def State.otpDevice : Option PersistentId :=
  match session.deviceId with
  | some (.totpDevice pk) => if σ.devices.rows.any (·.pk = pk) then some (.totpDevice pk) else none
  | deviceId => deviceId

def State.isVerified : Bool := (σ.otpDevice session).isSome

/-- `user_is_concerned_by_otp`, for a professional. -/
def State.isConcernedByOtp : Bool := env.requireMfaForPros && (σ.hasDevice || env.hasRequiredOrganization)

def State.requireOtp : Bool := !σ.isVerified session && !session.isHijacked && σ.isConcernedByOtp env

/-- `user_can_enroll_otp_device`. -/
def State.canEnroll : Bool := σ.otpDevice session ≠ some .externalTotpDevice && env.requireMfaForPros

/-- `user_can_manage_otp_devices`. -/
def State.canManage : Bool := σ.canEnroll env session && σ.hasDevice

/-- `verify_token_for_user`: the first device, by name, whose `verify_token` accepts the token. -/
def State.verifyTokenForUser (verifyToken : Nat → Bool) : Option ItouTOTPDevice :=
  (orderBy (fun device => env.collate device.name) (σ.devices.rows.filter (·.isEnabled))).find? fun device =>
    verifyToken device.pk

end Utils

end Itou.Otp
