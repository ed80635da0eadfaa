import Itou.Otp.Models
import Itou.Lib.Runs

/-!
# The middleware and the views of the second factor

The answers of the `verify_token` of `django_otp`, which depend on the clock and on the failures so far, come with the
request. A view that raises takes no effect.
-/

namespace Itou.Otp

open Itou.Lib

/-! ## Requests -/

inductive Path where
  /-- The paths that skip all the checks: login and logout, API, legal terms, release of a hijack. -/
  | skipped
  | otpDevices
  /-- The paths under `/otp/enrollment`. -/
  | enrollment
  | verifyOtp
  | loginWithBackupCode
  | other
  deriving DecidableEq

/-- What is posted to `enrollment_step_2_and_3_confirm_device`. A field that is not valid is missing. `verifyToken` is the
answer of the new device, `pk` and `hashedCode` are drawn at random. -/
structure Enrollment where
  isDeviceType : Bool
  isKey : Bool
  name : Option Text
  otpToken : Option Text
  verifyToken : Text → Bool
  pk : Nat
  hashedCode : Text

inductive Request where
  /-- A request that changes no device and no session. -/
  | get (path : Path)
  /-- `delete-device` is posted to `otp_devices`. -/
  | deleteDevice (pk : Nat)
  | confirmDevice (post : Enrollment)
  /-- A token is posted to `VerifyOTPView`, which asks each device. -/
  | verifyOtp (verifyToken : Nat → Bool)
  /-- `isAllowed` is the answer of `verify_is_allowed`. -/
  | loginWithBackupCode (isAllowed : Bool) (code : Option Text)

def Request.path : Request → Path
  | .get path => path
  | .deleteDevice _ => .otpDevices
  | .confirmDevice _ => .enrollment
  | .verifyOtp _ => .verifyOtp
  | .loginWithBackupCode _ _ => .loginWithBackupCode

/-! ## `ItouCurrentOrganizationMiddleware` -/

section Views

variable (env : Env) (σ : State) (session : Session)

/-- The middleware redirects to the second factor, or to the enrolment. -/
def State.redirects (path : Path) : Bool :=
  path ≠ .skipped && σ.requireOtp env session &&
    if σ.getUserDevices ≠ [] then path ≠ .verifyOtp && path ≠ .loginWithBackupCode else path ≠ .enrollment

/-! ## Views -/

def State.otpLogin (sid : Nat) (deviceId : PersistentId) : State :=
  { σ with sessions := σ.sessions.insert sid { session with deviceId := some deviceId } }

/-- `otp_devices`, with `delete-device`. -/
def State.otpDevices (now pk : Nat) : State :=
  if σ.canManage env session then
    match σ.devices.rows.find? fun device => device.isEnabled && device.pk = pk with
    | some device =>
        if some (.totpDevice device.pk) ≠ σ.otpDevice session then
          { σ with devices := σ.devices.disable (·.pk = device.pk) now }
        else σ
    | none => σ
  else σ

/-- `create_otp_backup_code`. -/
def State.createOtpBackupCode (hashedCode : Text) : State :=
  { σ with staticDevice := some (σ.staticDevice.getD [] ++ [hashedCode]) }

/-- `ConfirmTOTPDeviceForm.clean`, which raises a `KeyError` when a field is missing. -/
def State.confirmTOTPDeviceForm (post : Enrollment) : Option (Option Text) :=
  post.name.bind fun name => post.otpToken.map fun otpToken =>
    if σ.devices.rows.any fun device => device.isEnabled && device.name = name then none
    else if post.verifyToken otpToken then some name
    else none

/-- `enrollment_step_2_and_3_confirm_device`, when it is posted. -/
def State.confirmDevice (sid : Nat) (post : Enrollment) : Option State :=
  if σ.canEnroll env session && post.isDeviceType && post.isKey then
    match σ.confirmTOTPDeviceForm post with
    | some (some name) => (σ.devices.insert ⟨post.pk, name, none⟩).map fun devices =>
        (({ σ with devices } : State).otpLogin session sid (.totpDevice post.pk)).createOtpBackupCode post.hashedCode
    | _ => some σ
  else some σ

/-- `VerifyOTPView`. -/
def State.verifyOtp (sid : Nat) (verifyToken : Nat → Bool) : State :=
  if σ.canManage env session then
    match σ.verifyTokenForUser env verifyToken with
    | some device => σ.otpLogin session sid (.totpDevice device.pk)
    | none => σ
  else σ

/-- `LoginWithBackupCodeForm` is valid. -/
def State.acceptsBackupCode (isAllowed : Bool) (code : Option Text) : Bool :=
  isAllowed && code.any fun code => σ.staticDevice.any fun tokens => tokens.any (env.checkPassword code)

/-- `login_with_backup_code`. -/
def State.loginWithBackupCode (now : Nat) (isAllowed : Bool) (code : Option Text) : State :=
  if σ.canManage env session && σ.acceptsBackupCode env isAllowed code then
    { σ with
      devices := σ.devices.disable (·.isEnabled) now
      staticDevice := none }
  else σ

/-- A request of the session. There is no step when the primary key that is drawn is taken. -/
def State.handle (sid now : Nat) (request : Request) : Option State :=
  if σ.redirects env session request.path then some σ
  else
    match request with
    | .get _ => some σ
    | .deleteDevice pk => some (σ.otpDevices env session now pk)
    | .confirmDevice post => σ.confirmDevice env session sid post
    | .verifyOtp verifyToken => some (σ.verifyOtp env session sid verifyToken)
    | .loginWithBackupCode isAllowed code => some (σ.loginWithBackupCode env session now isAllowed code)

end Views

/-! ## Steps -/

inductive Label where
  /-- The first factor. `external` tells that the identity provider has asked for its own second factor. -/
  | logIn (sid : Nat) (external : Bool)
  | hijack (sid : Nat)
  | logOut (sid : Nat)
  | request (sid now : Nat) (request : Request)
  /-- The command `purge_disabled_otp_devices`. -/
  | purgeDisabledOtpDevices (threshold : Nat)

def State.step (env : Env) (σ : State) : Label → Option State
  | .logIn sid external =>
      let session := (σ.sessions.lookup sid).getD ⟨false, none⟩
      some (if external then σ.otpLogin session sid .externalTotpDevice
        else { σ with sessions := σ.sessions.insert sid session })
  | .hijack sid => some { σ with sessions := σ.sessions.insert sid ⟨true, none⟩ }
  | .logOut sid => some { σ with sessions := σ.sessions.erase sid }
  | .request sid now request => (σ.sessions.lookup sid).bind fun session => σ.handle env session sid now request
  | .purgeDisabledOtpDevices threshold => some { σ with devices := σ.devices.delete (·.disabledAt.any (· < threshold)) }

/-! ## What is asked of the second factor -/

/-- Each session that a TOTP device verifies was verified by a device that is enabled. -/
def State.VerifiedByEnabled (σ : State) : Prop :=
  ∀ session ∈ σ.sessions.rows, ∀ device ∈ σ.devices.rows, session.deviceId = some (.totpDevice device.pk) →
    device.isEnabled = true

instance : DecidablePred State.VerifiedByEnabled := fun σ =>
  inferInstanceAs (Decidable (∀ session ∈ σ.sessions.rows, ∀ device ∈ σ.devices.rows,
    session.deviceId = some (.totpDevice device.pk) → device.isEnabled = true))

section Guarantees

variable (env : Env) (σ : State)

/-- A login with a backup code that succeeds. -/
def State.IsRecovery (label : Label) : Prop :=
  ∃ sid now isAllowed code, label = .request sid now (.loginWithBackupCode isAllowed code) ∧
    ∃ session ∈ σ.sessions.lookup sid, σ.redirects env session .loginWithBackupCode = false ∧
      σ.canManage env session = true ∧ σ.acceptsBackupCode env isAllowed code = true

/-- The user has an enabled device, and has none after the step, only when it is a login with a backup code. -/
def State.EmptiedByRecovery (label : Label) : Prop :=
  ∀ σ' ∈ σ.step env label, σ.hasDevice = true → ¬ σ'.hasDevice = true → σ.IsRecovery env label

/-- A device is enrolled by someone who has passed the first factor only. -/
def State.EnrollsUnverified (label : Label) : Prop :=
  ∃ sid now post, label = .request sid now (.confirmDevice post) ∧
    ∃ session ∈ σ.sessions.lookup sid, session.isHijacked = false ∧ σ.isVerified session = false ∧
      ∃ σ' ∈ σ.step env label, σ.devices.rows.length < σ'.devices.rows.length

/-- A request that the middleware lets through comes from a session that an enabled device verifies, except those for the
pages of the second factor itself. -/
def State.ServesVerified (label : Label) : Prop :=
  ∀ sid now request, label = .request sid now request → ∀ session ∈ σ.sessions.lookup sid,
    σ.redirects env session request.path = false → request.path ≠ .skipped →
    session.isHijacked = false → session.deviceId ≠ some .externalTotpDevice → σ.isConcernedByOtp env = true →
      (∃ device ∈ σ.devices.rows, device.isEnabled = true ∧ session.deviceId = some (.totpDevice device.pk)) ∨
      (σ.hasDevice = true ∧ (request.path = .verifyOtp ∨ request.path = .loginWithBackupCode)) ∨
      (σ.hasDevice = false ∧ request.path = .enrollment)

/-! ## Careful steps -/

/-- The session deletes the device. -/
def State.Deletes (session : Session) (pk : Nat) : Prop :=
  σ.redirects env session .otpDevices = false ∧ σ.canManage env session = true ∧
    (∃ device ∈ σ.devices.rows, device.isEnabled = true ∧ device.pk = pk) ∧
    σ.otpDevice session ≠ some (.totpDevice pk)

/-- A device is deleted when it verifies no session, and a session that is not verified (it is hijacked) leaves another
one. A backup code is used when no session is verified by a device. -/
def State.Careful : Label → Prop
  | .request sid _ (.deleteDevice pk) => ∀ session ∈ σ.sessions.lookup sid, σ.Deletes env session pk →
      (∀ other ∈ σ.sessions.rows, other.deviceId ≠ some (.totpDevice pk)) ∧
      (σ.isVerified session = false → ∃ device ∈ σ.devices.rows, device.isEnabled = true ∧ device.pk ≠ pk)
  | .request sid now (.loginWithBackupCode isAllowed code) =>
      σ.IsRecovery env (.request sid now (.loginWithBackupCode isAllowed code)) →
        ∀ other ∈ σ.sessions.rows, ∀ device ∈ σ.devices.rows, other.deviceId ≠ some (.totpDevice device.pk)
  | _ => True

end Guarantees

end Itou.Otp
