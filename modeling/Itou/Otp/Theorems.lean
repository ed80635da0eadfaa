import Itou.Otp.Lemmas.Steps
import Itou.Otp.Lemmas.Throttling

/-!
# The second factor, over whole runs

The devices that verify a session, and the failures that are counted against the devices of a user.
-/

namespace Itou.Otp

open Itou.Lib

/-- The guarantees of the second factor over a run. -/
structure Protected (env : Env) (σ : State) (labels : List Label) : Prop where
  /-- A disabled device verifies nothing any more. -/
  verified : AllStates (State.step env) State.VerifiedByEnabled σ labels
  /-- The last enabled device goes with a backup code only. -/
  emptied : AllSteps (State.step env) (State.EmptiedByRecovery env) σ labels
  /-- On an account that has had an enabled device, the first factor enrolls a device after a login with a backup code
  only. -/
  enrolled : ∀ before between label after τ υ, labels = before ++ (between ++ label :: after) →
    run (State.step env) σ before = some τ → τ.hasDevice = true → run (State.step env) τ between = some υ →
    υ.EnrollsUnverified env label → SomeStep (State.step env) (State.IsRecovery env) τ between
  /-- The views are served to sessions that an enabled device verifies. -/
  served : AllSteps (State.step env) (State.ServesVerified env) σ labels

/-- Over any run, the second factor protects the account exactly when each step is careful. -/
theorem protected_iff_careful (env : Env) (σ : State) (hσ : σ.VerifiedByEnabled) (labels : List Label) :
    Protected env σ labels ↔ AllSteps (State.step env) (State.Careful env) σ labels := by
  have hiff : AllStates (State.step env) State.VerifiedByEnabled σ labels ∧
      AllSteps (State.step env) (State.EmptiedByRecovery env) σ labels ↔
      AllSteps (State.step env) (State.Careful env) σ labels :=
    allStates_and_allSteps_iff (J := fun _ => True) (fun _ _ _ _ _ _ _ => trivial)
      (fun _ _ _ _ hverified hstep => stepKeeps_iff_careful hverified hstep) trivial hσ
  constructor
  · intro h
    exact hiff.mp ⟨h.verified, h.emptied⟩
  · intro hcareful
    obtain ⟨hverified, hemptied⟩ := hiff.mpr hcareful
    refine ⟨hverified, hemptied, ?_, ?_⟩
    · rintro before between label after τ υ rfl hbefore hdevice hbetween henrolls
      refine someStep_of_lost (P := fun σ : State => σ.hasDevice = true) (H := State.IsRecovery env)
        (hemptied.after hbefore) hdevice hbetween ?_
      rw [hasDevice_of_enrollsUnverified henrolls]
      exact Bool.false_ne_true
    · exact allSteps_of_allSteps
        (fun _ _ _ hverified hc hstep => ((stepKeeps_iff_careful hverified hstep).mpr hc).1)
        (fun _ _ _ hverified _ _ => servesVerified hverified) hσ hcareful

/-! ## Two sessions -/

/-- A professional who has to use a second factor. -/
def concerned : Env where
  requireMfaForPros := true
  hasRequiredOrganization := true
  collate := id
  checkPassword := fun code hashedCode => code = hashedCode

/-- A new account. -/
def newAccount : State := ⟨⟨[], List.nodup_nil⟩, none, ∅⟩

theorem newAccount_verifiedByEnabled : newAccount.VerifiedByEnabled := by
  intro session _ device hdevice
  cases hdevice

/-- A device whose token is right is enrolled. -/
def enrolls (pk : Nat) (name : Text) : Request := .confirmDevice
  { isDeviceType := true, isKey := true, name := some name, otpToken := some ['1'], verifyToken := fun _ => true, pk,
    hashedCode := ['c'] }

/-- Two sessions, each verified by a device of its own. -/
def twoSessions : List Label :=
  [.logIn 1 false, .request 1 10 (enrolls 1 ['a']), .request 1 11 (enrolls 2 ['b']), .logIn 2 false,
    .request 2 12 (.verifyOtp (· = 1))]

/-- Each session deletes the device of the other. -/
def mutualDeletion : List Label := [.request 1 13 (.deleteDevice 1), .request 2 14 (.deleteDevice 2)]

/-- Each session deletes the device of the other: no device is left, no backup code was used, and a session that has passed
the first factor only enrolls one. -/
theorem mutualDeletion_not_protected :
    (run (State.step concerned) newAccount (twoSessions ++ mutualDeletion)).map State.hasDevice = some false ∧
      (run (State.step concerned) newAccount
        (twoSessions ++ mutualDeletion ++ [.logIn 3 false, .request 3 15 (enrolls 3 ['e'])])).map State.hasDevice =
          some true ∧
      ¬ Protected concerned newAccount (twoSessions ++ mutualDeletion) :=
  ⟨by decide +kernel, by decide +kernel, fun h => absurd h.verified (by decide +kernel)⟩

/-- The only session enrolls a second device, and deletes the first one. -/
theorem replaced_device_protected : Protected concerned newAccount
    [.logIn 1 false, .request 1 10 (enrolls 1 ['a']), .request 1 11 (enrolls 2 ['b']),
      .request 1 12 (.deleteDevice 1)] := by
  refine (protected_iff_careful concerned newAccount newAccount_verifiedByEnabled _).mpr
    ⟨trivial, trivial, trivial, fun session hsession _ => ⟨by decide +kernel, fun hverified => ?_⟩, trivial⟩
  obtain rfl := Option.some.inj hsession
  cases hverified

/-! ## Throttling -/

section Punished

variable {τ ι : Type} (totp : Totp τ) (collate : Text → Text) (user : Nat)

/-- The failures are counted exactly when no device accepts the token. -/
structure Punished (attempt : Attempt) (db : DeviceTable τ) (found : Option Nat) (db' : DeviceTable τ) : Prop where
  isSome_iff : found.isSome = true ↔ ∃ device ∈ db.rows, device.user = user ∧ device.disabledAt = none ∧
    isAllowed totp attempt device = true ∧
    (totp.verify (attempt.clock device.pk) device.totp attempt.otpToken).isSome = true
  /-- The device that accepts the token is reset. All the others are as before the call. -/
  returned : ∀ pk, found = some pk → ∃ device ∈ db.devices collate user, ∃ accepted, device.pk = pk ∧
    isAllowed totp attempt device = true ∧
    totp.verify (attempt.clock pk) device.totp attempt.otpToken = some accepted ∧
    device.throttleReset accepted ∈ db'.rows ∧ ∀ r ∈ db.rows, r.pk ≠ pk → r ∈ db'.rows
  refused : found = none → ∀ device ∈ db.devices collate user,
    (if isAllowed totp attempt device then device.throttleIncrement (attempt.clock device.pk) else device) ∈ db'.rows
  others : ∀ r ∈ db.rows, ¬ (r.user = user ∧ r.disabledAt = none) → r ∈ db'.rows
  pks : db'.rows.map (·.pk) = db.rows.map (·.pk)

theorem punished_verifyTokenForUser (attempt : Attempt) (db : DeviceTable τ) :
    Punished totp collate user attempt db (db.verifyTokenForUser totp collate user attempt).1
      (db.verifyTokenForUser totp collate user attempt).2 := by
  obtain ⟨hfound, hrows⟩ := verifyTokenForUser_spec totp collate user attempt db
  have hmem : ∀ r ∈ db.rows, db.outcome totp collate user attempt r ∈
      (db.verifyTokenForUser totp collate user attempt).2.rows := by
    intro r hr
    rw [hrows]
    exact List.mem_map_of_mem hr
  have hselected : ∀ r : ThrottledDevice τ, r.isSelected user = true ↔ r.user = user ∧ r.disabledAt = none := by
    intro r
    rw [ThrottledDevice.isSelected, Bool.and_eq_true, decide_eq_true_eq, Option.isNone_iff_eq_none]
  refine ⟨?_, ?_, ?_, ?_, ?_⟩
  · rw [hfound, Option.isSome_map, List.find?_isSome]
    constructor
    · rintro ⟨device, hdevice, haccepts⟩
      obtain ⟨hrow, huser⟩ := mem_devices.mp hdevice
      rw [accepts, Bool.and_eq_true] at haccepts
      exact ⟨device, hrow, ((hselected device).mp huser).1, ((hselected device).mp huser).2, haccepts⟩
    · rintro ⟨device, hrow, huser, henabled, haccepts⟩
      exact ⟨device, mem_devices.mpr ⟨hrow, (hselected device).mpr ⟨huser, henabled⟩⟩, Bool.and_eq_true_iff.mpr haccepts⟩
  · intro pk hpk
    rw [hfound, Option.map_eq_some_iff] at hpk
    obtain ⟨device, hfind, rfl⟩ := hpk
    have hdevice := List.mem_of_find?_eq_some hfind
    have haccepts := List.find?_some hfind
    rw [accepts, Bool.and_eq_true, Option.isSome_iff_exists] at haccepts
    obtain ⟨hallowed, accepted, haccepted⟩ := haccepts
    refine ⟨device, hdevice, accepted, rfl, hallowed, haccepted, ?_, ?_⟩
    · have h := hmem device (mem_devices.mp hdevice).1
      simp only [DeviceTable.outcome, hfind, if_true, ThrottledDevice.accepted, haccepted] at h
      exact h
    · intro r hr hne
      have h := hmem r hr
      simp only [DeviceTable.outcome, hfind, if_neg hne] at h
      exact h
  · intro hnone device hdevice
    rw [hfound, Option.map_eq_none_iff] at hnone
    obtain ⟨hrow, huser⟩ := mem_devices.mp hdevice
    have h := hmem device hrow
    simp only [DeviceTable.outcome, hnone, huser, if_true] at h
    exact h
  · intro r hr hnot
    rw [← hselected] at hnot
    have h := hmem r hr
    simp only [DeviceTable.outcome, hnot] at h
    cases hfind : (db.devices collate user).find? fun device => accepts totp attempt device with
    | none =>
        simp only [hfind] at h
        exact h
    | some device =>
        -- The device that accepts the token is selected, and so is not the row.
        obtain ⟨hrow, huser⟩ := mem_devices.mp (List.mem_of_find?_eq_some hfind)
        have hne : r.pk ≠ device.pk := fun hpk => hnot (eq_of_pk hr hrow hpk ▸ huser)
        simp only [hfind, if_neg hne] at h
        exact h
  · rw [hrows, List.map_map]
    exact List.map_congr_left fun r _ => outcome_keeps.1

/-- Alone or in any interleaving of calls for one user, `verify_token_for_user` returns a device exactly when one accepts
the token, and only a call that returns none counts failures. -/
theorem verifyTokenForUser_punishes [DecidableEq ι] (attempts : ι → Attempt) (db : DeviceTable τ) :
    (∀ attempt, Punished totp collate user attempt db (db.verifyTokenForUser totp collate user attempt).1
        (db.verifyTokenForUser totp collate user attempt).2) ∧
      ∀ labels s, run (verifications totp collate user attempts).step (Locking.State.init db) labels = some s →
        Locking.History (fun i => Punished totp collate user (attempts i)) db s.log s.db ∧
          (∀ i found, s.phase i = .returned found ↔ (i, found) ∈ s.log) ∧
          ∀ i, (∀ found, s.phase i ≠ .returned found) →
            ∃ label, ((verifications totp collate user attempts).step s label).isSome := by
  refine ⟨fun attempt => punished_verifyTokenForUser totp collate user attempt db, fun labels s hrun => ?_⟩
  have hinv := Locking.inv_of_run ids_verifications hrun
  refine ⟨hinv.history.mono ?_, hinv.returned, fun i hi => hinv.exists_step (nodup_devices db collate user) hi⟩
  intro i db found db' hcall
  rw [call_verifications] at hcall
  have hpunished := punished_verifyTokenForUser totp collate user (attempts i) db
  rw [hcall] at hpunished
  exact hpunished

end Punished

end Itou.Otp
