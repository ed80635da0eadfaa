import Itou.Lib.Locks
import Itou.Lib.Queries
import Itou.Otp.Models

/-!
# Failed attempts and their rollback

`verify_token_for_user` with the columns that throttle a device. `τ` is what a device knows of its tokens: its key, its
drift and the last token that it accepted.
-/

namespace Itou.Otp

open Itou.Lib

structure ThrottledDevice (τ : Type) where
  pk : Nat
  user : Nat
  name : Text
  disabledAt : Option Nat
  throttlingFailureCount : Nat
  throttlingFailureTimestamp : Option Nat
  totp : τ
  deriving DecidableEq

structure DeviceTable (τ : Type) where
  rows : List (ThrottledDevice τ)
  pks : (rows.map (·.pk)).Nodup

/-- django_otp: whether a device with these failures may verify a token at a time, and what becomes of a device that
accepts a token. -/
structure Totp (τ : Type) where
  verifyIsAllowed : Nat → Nat → Option Nat → Bool
  verify : Nat → τ → Text → Option τ

/-- A call: the token, and when it is tried on each device. -/
structure Attempt where
  otpToken : Text
  clock : Nat → Nat

section

variable {τ : Type} (totp : Totp τ) (collate : Text → Text) (user : Nat) (attempt : Attempt)

/-! ## One device -/

def isAllowed (device : ThrottledDevice τ) : Bool :=
  totp.verifyIsAllowed (attempt.clock device.pk) device.throttlingFailureCount device.throttlingFailureTimestamp

/-- `throttle_increment`. -/
def ThrottledDevice.throttleIncrement (device : ThrottledDevice τ) (now : Nat) : ThrottledDevice τ :=
  { device with
    throttlingFailureCount := device.throttlingFailureCount + 1
    throttlingFailureTimestamp := some now }

/-- `throttle_reset`, of a device that has accepted a token. -/
def ThrottledDevice.throttleReset (device : ThrottledDevice τ) (accepted : τ) : ThrottledDevice τ :=
  { device with throttlingFailureCount := 0, throttlingFailureTimestamp := none, totp := accepted }

/-- `device.verify_token`: the answer, and the device when it is saved. -/
def verifyToken (device : ThrottledDevice τ) : Bool × Option (ThrottledDevice τ) :=
  if isAllowed totp attempt device then
    match totp.verify (attempt.clock device.pk) device.totp attempt.otpToken with
    | some accepted => (true, some (device.throttleReset accepted))
    | none => (false, some (device.throttleIncrement (attempt.clock device.pk)))
  else (false, none)

/-! ## The loop -/

/-- `device.save()`, and the `bulk_update` of the two columns of the devices tried. -/
inductive DeviceWrite (τ : Type) where
  | save (device : ThrottledDevice τ)
  | bulkUpdate (tried : List (ThrottledDevice τ))

def DeviceWrite.row : DeviceWrite τ → ThrottledDevice τ → ThrottledDevice τ
  | .save device, r => if r.pk = device.pk then device else r
  | .bulkUpdate tried, r =>
      match tried.find? fun device => device.pk = r.pk with
      | some device => { r with
          throttlingFailureCount := device.throttlingFailureCount
          throttlingFailureTimestamp := device.throttlingFailureTimestamp }
      | none => r

theorem DeviceWrite.pk_row (write : DeviceWrite τ) (r : ThrottledDevice τ) : (write.row r).pk = r.pk := by
  cases write with
  | save device =>
      simp only [row]
      split
      · rename_i h
        exact h.symm
      · rfl
  | bulkUpdate tried =>
      simp only [row]
      split <;> rfl

def DeviceTable.exec (t : DeviceTable τ) (write : DeviceWrite τ) : DeviceTable τ where
  rows := t.rows.map write.row
  pks := by
    have heq : (t.rows.map write.row).map (·.pk) = t.rows.map (·.pk) := by
      rw [List.map_map]
      exact List.map_congr_left fun r _ => write.pk_row r
    exact heq ▸ t.pks

/-- The body of `for device in devices`, from the devices that are left on, with the devices tried. -/
def tryDevices : List (ThrottledDevice τ) → List (ThrottledDevice τ) → Option Nat × List (DeviceWrite τ)
  | [], _ => (none, [])
  | device :: devices, tried =>
      match verifyToken totp attempt device with
      | (true, saved) => (some device.pk, saved.toList.map .save ++ [.bulkUpdate tried])
      | (false, saved) =>
          let (found, writes) := tryDevices devices (tried ++ [device])
          (found, saved.toList.map .save ++ writes)

/-- `filter(user=user, disabled_at=None)`. -/
def ThrottledDevice.isSelected (device : ThrottledDevice τ) : Bool := device.user = user && device.disabledAt.isNone

def DeviceTable.devices (t : DeviceTable τ) : List (ThrottledDevice τ) :=
  orderBy (fun device => collate device.name) (t.rows.filter (·.isSelected user))

/-- `verify_token_for_user`: the device that is returned, and the devices after the call. -/
def DeviceTable.verifyTokenForUser (t : DeviceTable τ) : Option Nat × DeviceTable τ :=
  let (found, writes) := tryDevices totp attempt (t.devices collate user) []
  (found, writes.foldl DeviceTable.exec t)

/-- The calls for one user as transactions: `select_for_update` locks the selected rows in the order of their names, and
a row that is locked is read again. -/
def verifications {ι : Type} (attempts : ι → Attempt) :
    Locking (DeviceTable τ) Nat (ThrottledDevice τ) ι (Option Nat) where
  ids t := (t.devices collate user).map (·.pk)
  read t pk := t.rows.find? fun device => device.pk = pk && device.isSelected user
  result i devices := (tryDevices totp (attempts i) devices []).1
  write i devices t := (tryDevices totp (attempts i) devices []).2.foldl DeviceTable.exec t

/-! ## What a call makes of a row -/

/-- A device that may verify the token, and accepts it. -/
def accepts (device : ThrottledDevice τ) : Bool :=
  isAllowed totp attempt device && (totp.verify (attempt.clock device.pk) device.totp attempt.otpToken).isSome

/-- A row after a failed attempt. -/
def ThrottledDevice.failed (device : ThrottledDevice τ) : ThrottledDevice τ :=
  if isAllowed totp attempt device then device.throttleIncrement (attempt.clock device.pk) else device

/-- A row after an attempt that it accepts. -/
def ThrottledDevice.accepted (device : ThrottledDevice τ) : ThrottledDevice τ :=
  match totp.verify (attempt.clock device.pk) device.totp attempt.otpToken with
  | some accepted => device.throttleReset accepted
  | none => device

/-- A row after the call. -/
def DeviceTable.outcome (t : DeviceTable τ) (r : ThrottledDevice τ) : ThrottledDevice τ :=
  match (t.devices collate user).find? fun device => accepts totp attempt device with
  | some device => if r.pk = device.pk then r.accepted totp attempt else r
  | none => if r.isSelected user then r.failed totp attempt else r

end

section Loop

variable {τ : Type} {totp : Totp τ} {collate : Text → Text} {user : Nat} {attempt : Attempt}
variable {device r : ThrottledDevice τ} {devices tried before after : List (ThrottledDevice τ)} {t : DeviceTable τ}

end Loop

end Itou.Otp
