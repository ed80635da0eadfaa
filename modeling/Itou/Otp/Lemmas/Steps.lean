import Itou.Otp.Views

/-!
# What each step does to the devices and to the sessions

Two steps disable devices: the deletion of one of them, and a login with a backup code. The others keep the enabled
devices, and the sessions that they change are verified by none of the devices or by an enabled one.

A step keeps the sessions verified by enabled devices, and does not take the last device without a backup code, exactly
when it is careful.
-/

namespace Itou.Otp

open Itou.Lib

/-! ## Devices -/

namespace Devices

variable {devices devices' : Devices} {device d : ItouTOTPDevice}

theorem eq_of_pk (hdevice : device ∈ devices.rows) (hd : d ∈ devices.rows) (h : device.pk = d.pk) : device = d :=
  List.inj_on_of_nodup_map devices.pks hdevice hd h

theorem rows_of_insert (h : devices.insert device = some devices') : devices'.rows = devices.rows ++ [device] := by
  simp only [insert, Option.dite_none_right_eq_some, Option.some.injEq] at h
  obtain ⟨-, rfl⟩ := h
  rfl

theorem mem_disable {p : ItouTOTPDevice → Bool} {now : Nat} : device ∈ (devices.disable p now).rows ↔
    ∃ d ∈ devices.rows, (if p d then { d with disabledAt := some now } else d) = device :=
  List.mem_map

theorem mem_delete {p : ItouTOTPDevice → Bool} : device ∈ (devices.delete p).rows ↔
    device ∈ devices.rows ∧ p device = false := by
  simp [delete]

/-- An enabled device after a statement that disables some is one that it has left alone. -/
theorem enabled_disable_iff {p : ItouTOTPDevice → Bool} {now : Nat} :
    device ∈ (devices.disable p now).rows ∧ device.isEnabled = true ↔
      device ∈ devices.rows ∧ device.isEnabled = true ∧ p device = false := by
  rw [mem_disable]
  constructor
  · rintro ⟨⟨d, hd, rfl⟩, henabled⟩
    split at henabled
    · cases henabled
    · rename_i hp
      rw [if_neg hp]
      exact ⟨hd, henabled, Bool.not_eq_true _ ▸ hp⟩
  · rintro ⟨hmem, henabled, hp⟩
    exact ⟨⟨device, hmem, by simp [hp]⟩, henabled⟩

end Devices

section Sessions

variable {env : Env} {σ : State} {session : Session}

theorem hasDevice_iff : σ.hasDevice = true ↔ ∃ device ∈ σ.devices.rows, device.isEnabled = true :=
  List.any_eq_true

theorem getUserDevices_ne_nil : σ.getUserDevices ≠ [] ↔ σ.hasDevice = true := by
  rw [hasDevice_iff]
  constructor
  · intro h
    obtain ⟨device, hmem⟩ := List.exists_mem_of_ne_nil _ h
    exact ⟨device, List.mem_filter.mp (mem_orderBy.mp hmem)⟩
  · rintro ⟨device, hmem⟩
    exact List.ne_nil_of_mem (mem_orderBy.mpr (List.mem_filter.mpr hmem))

theorem otpDevice_eq_totpDevice {pk : Nat} : σ.otpDevice session = some (.totpDevice pk) ↔
    session.deviceId = some (.totpDevice pk) ∧ ∃ device ∈ σ.devices.rows, device.pk = pk := by
  unfold State.otpDevice
  split
  · rename_i pk' hid
    rw [hid, Option.ite_none_right_eq_some]
    simp only [List.any_eq_true, decide_eq_true_eq, Option.some.injEq, PersistentId.totpDevice.injEq]
    constructor
    · rintro ⟨h, rfl⟩
      exact ⟨rfl, h⟩
    · rintro ⟨rfl, h⟩
      exact ⟨h, rfl⟩
  · rename_i hid
    exact ⟨fun h => absurd h (hid pk), fun h => absurd h.1 (hid pk)⟩

/-- A session that may manage the devices is verified by one of them, or is not verified. -/
theorem otpDevice_cases (h : σ.canEnroll env session = true) :
    σ.isVerified session = false ∨ ∃ pk, σ.otpDevice session = some (.totpDevice pk) := by
  simp only [State.canEnroll, ne_eq, decide_not, Bool.and_eq_true, Bool.not_eq_true', decide_eq_false_iff_not] at h
  unfold State.isVerified
  cases hdevice : σ.otpDevice session with
  | none => exact Or.inl rfl
  | some device =>
      cases device with
      | totpDevice pk => exact Or.inr ⟨pk, rfl⟩
      | externalTotpDevice => exact absurd hdevice h.1

end Sessions

/-! ## Steps that disable no device -/

/-- The enabled devices are kept, the new ones are enabled, and a session that changes is not verified by a device that is
disabled. -/
structure Keeps (σ σ' : State) : Prop where
  enabled : ∀ device ∈ σ.devices.rows, device.isEnabled = true → device ∈ σ'.devices.rows
  devices : ∀ device ∈ σ'.devices.rows, device ∈ σ.devices.rows ∨ device.isEnabled = true
  sessions : ∀ session ∈ σ'.sessions.rows, session ∈ σ.sessions.rows ∨
    ∀ device ∈ σ'.devices.rows, session.deviceId = some (.totpDevice device.pk) → device.isEnabled = true

section Keeps

variable {env : Env} {σ σ' : State} {session : Session} {sid : Nat}

theorem Keeps.refl (σ : State) : Keeps σ σ := ⟨fun _ h _ => h, fun _ h => Or.inl h, fun _ h => Or.inl h⟩

/-- The row of one session is written. -/
theorem keeps_insert (h : ∀ device ∈ σ.devices.rows, session.deviceId = some (.totpDevice device.pk) →
    device.isEnabled = true) : Keeps σ { σ with sessions := σ.sessions.insert sid session } := by
  refine ⟨fun _ h _ => h, fun _ h => Or.inl h, fun other hother => ?_⟩
  rcases Table.rows_insert_cases hother with rfl | hother
  · exact Or.inr h
  · exact Or.inl hother

theorem Keeps.verifiedByEnabled (h : Keeps σ σ') (hσ : σ.VerifiedByEnabled) : σ'.VerifiedByEnabled := by
  intro session hsession device hdevice hid
  rcases h.sessions session hsession with hold | hnew
  · rcases h.devices device hdevice with hmem | henabled
    · exact hσ session hold device hmem hid
    · exact henabled
  · exact hnew device hdevice hid

theorem Keeps.hasDevice (h : Keeps σ σ') (hdevice : σ.hasDevice = true) : σ'.hasDevice = true := by
  obtain ⟨device, hmem, henabled⟩ := hasDevice_iff.mp hdevice
  exact hasDevice_iff.mpr ⟨device, h.enabled device hmem henabled, henabled⟩

theorem keeps_confirmDevice {post : Enrollment} (h : σ.confirmDevice env session sid post = some σ') : Keeps σ σ' := by
  unfold State.confirmDevice at h
  split at h
  · split at h
    · rename_i name _
      obtain ⟨devices, hdevices, rfl⟩ := Option.map_eq_some_iff.mp h
      have hrows := Devices.rows_of_insert hdevices
      refine ⟨fun device hmem _ => ?_, fun device hmem => ?_, fun other hother => ?_⟩
      · change device ∈ devices.rows
        rw [hrows]
        exact List.mem_append_left _ hmem
      · change device ∈ devices.rows at hmem
        rw [hrows, List.mem_append, List.mem_singleton] at hmem
        rcases hmem with hmem | rfl
        · exact Or.inl hmem
        · exact Or.inr rfl
      · rcases Table.rows_insert_cases hother with rfl | hother
        · -- The session names the new device.
          refine Or.inr fun device hmem hid => ?_
          have hnew : (⟨post.pk, name, none⟩ : ItouTOTPDevice) ∈ devices.rows := by
            rw [hrows]
            exact List.mem_append_right _ (List.mem_singleton.mpr rfl)
          obtain rfl : (⟨post.pk, name, none⟩ : ItouTOTPDevice) = device :=
            devices.eq_of_pk hnew hmem (by simpa using hid)
          rfl
        · exact Or.inl hother
    · cases h
      exact Keeps.refl σ
  · cases h
    exact Keeps.refl σ

theorem keeps_verifyOtp {verifyToken : Nat → Bool} : Keeps σ (σ.verifyOtp env session sid verifyToken) := by
  unfold State.verifyOtp
  split
  · split
    · rename_i device hfind
      have hmem := List.mem_of_find?_eq_some hfind
      rw [mem_orderBy, List.mem_filter] at hmem
      refine keeps_insert fun d hd hid => ?_
      obtain rfl : device = d := σ.devices.eq_of_pk hmem.1 hd (by simpa using hid)
      exact hmem.2
    · exact Keeps.refl σ
  · exact Keeps.refl σ

end Keeps

/-! ## Steps that disable devices -/

section Disables

variable {env : Env} {σ σ' : State} {session : Session} {sid now pk : Nat}

theorem handle_deleteDevice (h : σ.Deletes env session pk) : σ.handle env session sid now (.deleteDevice pk) =
    some { σ with devices := σ.devices.disable (·.pk = pk) now } := by
  obtain ⟨hpass, hmanage, ⟨device, hmem, henabled, rfl⟩, hother⟩ := h
  have hfind : σ.devices.rows.find? (fun d => d.isEnabled && d.pk = device.pk) = some device := by
    have hsome : (σ.devices.rows.find? fun d => d.isEnabled && d.pk = device.pk).isSome := by
      rw [List.find?_isSome]
      exact ⟨device, hmem, by simp [henabled]⟩
    obtain ⟨d, hd⟩ := Option.isSome_iff_exists.mp hsome
    have hpk := List.find?_some hd
    simp only [Bool.and_eq_true, decide_eq_true_eq] at hpk
    rw [hd, σ.devices.eq_of_pk (List.mem_of_find?_eq_some hd) hmem hpk.2]
  simp only [State.handle, Request.path, hpass, Bool.false_eq_true, if_false, State.otpDevices, hmanage, if_true, hfind]
  rw [if_pos (fun heq => hother heq.symm)]

theorem handle_deleteDevice_of_not (h : ¬ σ.Deletes env session pk) :
    σ.handle env session sid now (.deleteDevice pk) = some σ := by
  unfold State.handle
  split
  · rfl
  · rename_i hpass
    simp only [State.otpDevices]
    split
    · rename_i hmanage
      split
      · rename_i device hfind
        have hp := List.find?_some hfind
        simp only [Bool.and_eq_true, decide_eq_true_eq] at hp
        split
        · rename_i hother
          exact absurd ⟨(Bool.not_eq_true _).mp hpass, hmanage, ⟨device, List.mem_of_find?_eq_some hfind, hp.1, hp.2⟩,
            fun heq => hother (hp.2 ▸ heq.symm)⟩ h
        · rfl
      · rfl
    · rfl

variable {isAllowed : Bool} {code : Option Text}

theorem isRecovery_iff : σ.IsRecovery env (.request sid now (.loginWithBackupCode isAllowed code)) ↔
    ∃ session ∈ σ.sessions.lookup sid, σ.redirects env session .loginWithBackupCode = false ∧
      σ.canManage env session = true ∧ σ.acceptsBackupCode env isAllowed code = true := by
  constructor
  · rintro ⟨_, _, _, _, heq, h⟩
    cases heq
    exact h
  · intro h
    exact ⟨sid, now, isAllowed, code, rfl, h⟩

theorem handle_loginWithBackupCode (hpass : σ.redirects env session .loginWithBackupCode = false)
    (hmanage : σ.canManage env session = true) (haccepts : σ.acceptsBackupCode env isAllowed code = true) :
    σ.handle env session sid now (.loginWithBackupCode isAllowed code) =
      some { σ with devices := σ.devices.disable (·.isEnabled) now, staticDevice := none } := by
  simp [State.handle, Request.path, hpass, State.loginWithBackupCode, hmanage, haccepts]

theorem handle_loginWithBackupCode_of_not (hsession : session ∈ σ.sessions.lookup sid)
    (h : ¬ σ.IsRecovery env (.request sid now (.loginWithBackupCode isAllowed code))) :
    σ.handle env session sid now (.loginWithBackupCode isAllowed code) = some σ := by
  rw [isRecovery_iff] at h
  unfold State.handle
  split
  · rfl
  · rename_i hpass
    simp only [State.loginWithBackupCode, Option.some.injEq, ite_eq_right_iff]
    intro haccepts
    rw [Bool.and_eq_true] at haccepts
    exact absurd ⟨session, hsession, (Bool.not_eq_true _).mp hpass, haccepts⟩ h

end Disables

variable {env : Env} {σ σ' : State} {label : Label}

/-! ## Careful steps -/

section Careful

/-- What has to hold after the step, and of the step. -/
def State.StepKeeps (env : Env) (σ σ' : State) (label : Label) : Prop :=
  σ'.VerifiedByEnabled ∧ σ.EmptiedByRecovery env label

theorem stepKeeps_of_keeps (hσ : σ.VerifiedByEnabled) (hstep : σ.step env label = some σ') (h : Keeps σ σ') :
    σ.StepKeeps env σ' label := by
  refine ⟨h.verifiedByEnabled hσ, fun σ'' hσ'' hdevice hnone => ?_⟩
  obtain rfl : σ' = σ'' := Option.some.inj (hstep.symm.trans hσ'')
  exact absurd (h.hasDevice hdevice) hnone

variable {session : Session} {sid now pk : Nat}

/-- A deletion leaves a device exactly when it is not that of the only enabled one. -/
theorem hasDevice_disable : ({ σ with devices := σ.devices.disable (·.pk = pk) now } : State).hasDevice = true ↔
    ∃ device ∈ σ.devices.rows, device.isEnabled = true ∧ device.pk ≠ pk := by
  rw [hasDevice_iff]
  constructor
  · rintro ⟨device, h⟩
    obtain ⟨hmem, henabled, hpk⟩ := Devices.enabled_disable_iff.mp h
    exact ⟨device, hmem, henabled, of_decide_eq_false hpk⟩
  · rintro ⟨device, hmem, henabled, hpk⟩
    exact ⟨device, Devices.enabled_disable_iff.mpr ⟨hmem, henabled, decide_eq_false hpk⟩⟩

/-- The sessions are still verified by enabled devices exactly when none was verified by the devices that a statement
disables. -/
theorem verifiedByEnabled_disable_iff (hσ : σ.VerifiedByEnabled) {p : ItouTOTPDevice → Bool}
    {staticDevice : Option (List Text)} :
    ({ σ with devices := σ.devices.disable p now, staticDevice } : State).VerifiedByEnabled ↔
      ∀ session ∈ σ.sessions.rows, ∀ device ∈ σ.devices.rows, p device = true →
        session.deviceId ≠ some (.totpDevice device.pk) := by
  constructor
  · intro h session hsession device hmem hp hid
    have henabled := h session hsession { device with disabledAt := some now }
      (Devices.mem_disable.mpr ⟨device, hmem, if_pos hp⟩) hid
    cases henabled
  · intro h session hsession device hdevice hid
    obtain ⟨d, hd, rfl⟩ := Devices.mem_disable.mp hdevice
    by_cases hp : p d = true
    · rw [if_pos hp] at hid
      exact absurd hid (h session hsession d hd hp)
    · rw [if_neg hp] at hid ⊢
      exact hσ session hsession d hd hid

theorem stepKeeps_deleteDevice_iff (hσ : σ.VerifiedByEnabled) (hsession : session ∈ σ.sessions.lookup sid)
    (hdeletes : σ.Deletes env session pk)
    (hstep : σ.step env (.request sid now (.deleteDevice pk)) = some σ') :
    σ.StepKeeps env σ' (.request sid now (.deleteDevice pk)) ↔
      (∀ other ∈ σ.sessions.rows, other.deviceId ≠ some (.totpDevice pk)) ∧
      (σ.isVerified session = false → ∃ device ∈ σ.devices.rows, device.isEnabled = true ∧ device.pk ≠ pk) := by
  have hσ' : σ' = { σ with devices := σ.devices.disable (·.pk = pk) now } := by
    simpa [State.step, Option.mem_def.mp hsession, handle_deleteDevice hdeletes, eq_comm] using hstep
  subst hσ'
  obtain ⟨-, hmanage, ⟨device, hmem, henabled, rfl⟩, hother⟩ := hdeletes
  have hdevice : σ.hasDevice = true := hasDevice_iff.mpr ⟨device, hmem, henabled⟩
  refine and_congr ?_ ?_
  · rw [verifiedByEnabled_disable_iff hσ]
    constructor
    · intro h other hmem'
      exact h other hmem' device hmem (decide_eq_true rfl)
    · intro h other hmem' d _ hpk
      rw [of_decide_eq_true hpk]
      exact h other hmem'
  · constructor
    · intro hempty _
      by_contra hnone
      obtain ⟨_, _, _, _, heq, -⟩ := hempty _ hstep hdevice (mt hasDevice_disable.mp hnone)
      cases heq
    · intro h σ'' hσ'' _ hnone
      obtain rfl := Option.some.inj (hstep.symm.trans hσ'')
      rw [State.canManage, Bool.and_eq_true] at hmanage
      have hleft : ∃ d ∈ σ.devices.rows, d.isEnabled = true ∧ d.pk ≠ device.pk := by
        rcases otpDevice_cases hmanage.1 with hnot | ⟨pk', hpk'⟩
        · exact h hnot
        · -- The device of the session is another one, which is enabled.
          obtain ⟨hid, d, hd, rfl⟩ := otpDevice_eq_totpDevice.mp hpk'
          refine ⟨d, hd, hσ session (Table.mem_rows.mpr ⟨sid, hsession⟩) d hd hid, ?_⟩
          rintro heq
          exact hother (heq ▸ hpk')
      exact absurd (hasDevice_disable.mpr hleft) hnone

variable {isAllowed : Bool} {code : Option Text}

theorem stepKeeps_loginWithBackupCode_iff (hσ : σ.VerifiedByEnabled)
    (hrecovery : σ.IsRecovery env (.request sid now (.loginWithBackupCode isAllowed code)))
    (hstep : σ.step env (.request sid now (.loginWithBackupCode isAllowed code)) = some σ') :
    σ.StepKeeps env σ' (.request sid now (.loginWithBackupCode isAllowed code)) ↔
      ∀ other ∈ σ.sessions.rows, ∀ device ∈ σ.devices.rows, other.deviceId ≠ some (.totpDevice device.pk) := by
  obtain ⟨session, hsession, hpass, hmanage, haccepts⟩ := isRecovery_iff.mp hrecovery
  have hσ' : σ' = { σ with devices := σ.devices.disable (·.isEnabled) now, staticDevice := none } := by
    simpa [State.step, Option.mem_def.mp hsession, handle_loginWithBackupCode hpass hmanage haccepts, eq_comm]
      using hstep
  subst hσ'
  rw [State.StepKeeps, verifiedByEnabled_disable_iff hσ]
  constructor
  · rintro ⟨h, -⟩ other hother device hmem hid
    exact h other hother device hmem (hσ other hother device hmem hid) hid
  · intro h
    exact ⟨fun other hother device hmem _ => h other hother device hmem, fun _ _ _ _ => hrecovery⟩

end Careful

/-- A step keeps the guarantees exactly when it is careful. -/
theorem stepKeeps_iff_careful (hσ : σ.VerifiedByEnabled) (hstep : σ.step env label = some σ') :
    σ.StepKeeps env σ' label ↔ σ.Careful env label := by
  have hkeeps {label : Label} (hstep : σ.step env label = some σ') (h : Keeps σ σ') (hc : σ.Careful env label) :
      σ.StepKeeps env σ' label ↔ σ.Careful env label :=
    iff_of_true (stepKeeps_of_keeps hσ hstep h) hc
  cases label with
  | logIn sid external =>
      refine hkeeps hstep ?_ trivial
      simp only [State.step, Option.some.injEq] at hstep
      subst hstep
      split
      · exact keeps_insert fun _ _ hid => by cases hid
      · cases hsession : σ.sessions.lookup sid with
        | none => exact keeps_insert fun _ _ hid => by cases hid
        | some session =>
            exact keeps_insert fun device hmem hid =>
              hσ session (Table.mem_rows.mpr ⟨sid, hsession⟩) device hmem hid
  | hijack sid =>
      refine hkeeps hstep ?_ trivial
      simp only [State.step, Option.some.injEq] at hstep
      subst hstep
      exact keeps_insert fun _ _ hid => by cases hid
  | logOut sid =>
      refine hkeeps hstep ?_ trivial
      simp only [State.step, Option.some.injEq] at hstep
      subst hstep
      exact ⟨fun _ h _ => h, fun _ h => Or.inl h, fun _ h => Or.inl (Table.mem_of_mem_rows_erase h)⟩
  | purgeDisabledOtpDevices threshold =>
      refine hkeeps hstep ?_ trivial
      simp only [State.step, Option.some.injEq] at hstep
      subst hstep
      refine ⟨fun device hmem henabled => Devices.mem_delete.mpr ⟨hmem, ?_⟩,
        fun device hmem => Or.inl (Devices.mem_delete.mp hmem).1, fun _ h => Or.inl h⟩
      rw [Option.isNone_iff_eq_none.mp henabled]
      rfl
  | request sid now request =>
      obtain ⟨session, hsession, hhandle⟩ := Option.bind_eq_some_iff.mp hstep
      cases request with
      | get path =>
          refine hkeeps hstep ?_ trivial
          simp only [State.handle, ite_self, Option.some.injEq] at hhandle
          exact hhandle ▸ Keeps.refl σ
      | confirmDevice post =>
          refine hkeeps hstep ?_ trivial
          unfold State.handle at hhandle
          split at hhandle
          · cases hhandle
            exact Keeps.refl σ
          · exact keeps_confirmDevice hhandle
      | verifyOtp verifyToken =>
          refine hkeeps hstep ?_ trivial
          unfold State.handle at hhandle
          split at hhandle
          · cases hhandle
            exact Keeps.refl σ
          · cases hhandle
            exact keeps_verifyOtp
      | deleteDevice pk =>
          by_cases hdeletes : σ.Deletes env session pk
          · rw [stepKeeps_deleteDevice_iff hσ hsession hdeletes hstep]
            constructor
            · intro h other hother _
              obtain rfl : session = other := Option.some.inj (hsession.symm.trans hother)
              exact h
            · intro h
              exact h session hsession hdeletes
          · rw [handle_deleteDevice_of_not hdeletes, Option.some.injEq] at hhandle
            refine hkeeps hstep (hhandle ▸ Keeps.refl σ) fun other hother h => ?_
            obtain rfl : session = other := Option.some.inj (hsession.symm.trans hother)
            exact absurd h hdeletes
      | loginWithBackupCode isAllowed code =>
          by_cases hrecovery : σ.IsRecovery env (.request sid now (.loginWithBackupCode isAllowed code))
          · rw [stepKeeps_loginWithBackupCode_iff hσ hrecovery hstep]
            exact ⟨fun h _ => h, fun h => h hrecovery⟩
          · rw [handle_loginWithBackupCode_of_not hsession hrecovery, Option.some.injEq] at hhandle
            exact hkeeps hstep (hhandle ▸ Keeps.refl σ) fun h => absurd h hrecovery

/-! ## The middleware -/

/-- Someone who has passed the first factor only enrolls a device when the user has none. -/
theorem hasDevice_of_enrollsUnverified (h : σ.EnrollsUnverified env label) : σ.hasDevice = false := by
  obtain ⟨sid, now, post, rfl, session, hsession, hijacked, hverified, σ', hstep, hlength⟩ := h
  by_contra hdevice
  rw [Bool.not_eq_false] at hdevice
  obtain ⟨other, hother, hstep⟩ := Option.bind_eq_some_iff.mp hstep
  obtain rfl : session = other := Option.some.inj (hsession.symm.trans hother)
  by_cases hpass : σ.redirects env session .enrollment = true
  · cases (if_pos hpass).symm.trans hstep
    exact lt_irrefl _ hlength
  · have hpost : σ.confirmDevice env session sid post = some σ' := (if_neg hpass).symm.trans hstep
    unfold State.confirmDevice at hpost
    split at hpost
    · rename_i hcan
      simp only [State.canEnroll, Bool.and_eq_true] at hcan
      -- The middleware asks for the second factor.
      apply hpass
      simp [State.redirects, State.requireOtp, State.isConcernedByOtp, hverified, hijacked, hdevice, hcan.1.1.2,
        getUserDevices_ne_nil]
    · cases hpost
      exact lt_irrefl _ hlength

theorem servesVerified (hσ : σ.VerifiedByEnabled) : σ.ServesVerified env label := by
  rintro sid now request rfl session hsession hpass hskipped hijacked hexternal hconcerned
  cases hverified : σ.isVerified session with
  | true =>
      left
      obtain ⟨device, hdevice⟩ := Option.isSome_iff_exists.mp hverified
      cases device with
      | totpDevice pk =>
          obtain ⟨hid, device, hmem, rfl⟩ := otpDevice_eq_totpDevice.mp hdevice
          exact ⟨device, hmem, hσ session (Table.mem_rows.mpr ⟨sid, hsession⟩) device hmem hid, hid⟩
      | externalTotpDevice =>
          unfold State.otpDevice at hdevice
          split at hdevice
          · split at hdevice <;> cases hdevice
          · exact absurd hdevice hexternal
  | false =>
      right
      simp only [State.redirects, State.requireOtp, hverified, hijacked, hconcerned, getUserDevices_ne_nil] at hpass
      cases hdevice : σ.hasDevice with
      | true => simpa [hskipped, hdevice, or_iff_not_imp_left] using hpass
      | false => simpa [hskipped, hdevice] using hpass

end Itou.Otp
