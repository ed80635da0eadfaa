import Itou.Otp.Throttling

/-!
# What a call makes of the devices

A call saves the failures of the devices before the one that accepts the token, and takes them back.
-/

namespace Itou.Otp

open Itou.Lib

section Loop

variable {τ : Type} {totp : Totp τ} {collate : Text → Text} {user : Nat} {attempt : Attempt}
variable {device r : ThrottledDevice τ} {devices tried before after : List (ThrottledDevice τ)} {t : DeviceTable τ}

theorem verifyToken_of_accepts (h : accepts totp attempt device = true) :
    verifyToken totp attempt device = (true, some (device.accepted totp attempt)) := by
  rw [accepts, Bool.and_eq_true, Option.isSome_iff_exists] at h
  obtain ⟨hallowed, accepted, haccepted⟩ := h
  simp only [verifyToken, ThrottledDevice.accepted, hallowed, haccepted, if_true]

/-- What a failed attempt saves. -/
def failedWrites (totp : Totp τ) (attempt : Attempt) (device : ThrottledDevice τ) : List (DeviceWrite τ) :=
  if isAllowed totp attempt device then [.save (device.failed totp attempt)] else []

theorem verifyToken_of_not_accepts (h : accepts totp attempt device = false) :
    ∃ saved, verifyToken totp attempt device = (false, saved) ∧
      saved.toList.map DeviceWrite.save = failedWrites totp attempt device := by
  rw [accepts] at h
  by_cases hallowed : isAllowed totp attempt device = true
  · rw [hallowed, Bool.true_and, Option.isSome_eq_false_iff, Option.isNone_iff_eq_none] at h
    refine ⟨some (device.throttleIncrement (attempt.clock device.pk)), ?_, ?_⟩
    · simp only [verifyToken, hallowed, h, if_true]
    · simp only [failedWrites, ThrottledDevice.failed, hallowed, if_true, Option.toList_some, List.map_cons, List.map_nil]
  · refine ⟨none, ?_, ?_⟩
    · simp only [verifyToken, hallowed, if_false, Bool.false_eq_true]
    · simp only [failedWrites, hallowed, if_false, Bool.false_eq_true, Option.toList_none, List.map_nil]

/-- When no device accepts the token, the failures are saved. -/
theorem tryDevices_of_not_accepts (h : ∀ device ∈ devices, accepts totp attempt device = false) :
    tryDevices totp attempt devices tried = (none, devices.flatMap (failedWrites totp attempt)) := by
  induction devices generalizing tried with
  | nil => rfl
  | cons device devices ih =>
      obtain ⟨saved, hverify, hsaved⟩ := verifyToken_of_not_accepts (h device List.mem_cons_self)
      rw [tryDevices, hverify, ih fun d hd => h d (List.mem_cons_of_mem _ hd)]
      simp only [hsaved, List.flatMap_cons]

/-- When one does, the failures of those before it are saved, and then taken back. -/
theorem tryDevices_of_accepts (hbefore : ∀ device ∈ before, accepts totp attempt device = false)
    (h : accepts totp attempt device = true) :
    tryDevices totp attempt (before ++ device :: after) tried =
      (some device.pk, before.flatMap (failedWrites totp attempt) ++
        [.save (device.accepted totp attempt), .bulkUpdate (tried ++ before)]) := by
  induction before generalizing tried with
  | nil =>
      rw [List.nil_append, tryDevices, verifyToken_of_accepts h, List.append_nil]
      rfl
  | cons d before ih =>
      obtain ⟨saved, hverify, hsaved⟩ := verifyToken_of_not_accepts (hbefore d List.mem_cons_self)
      rw [List.cons_append, tryDevices, hverify, ih fun e he => hbefore e (List.mem_cons_of_mem _ he)]
      simp only [hsaved, List.flatMap_cons, List.append_assoc, List.singleton_append]

/-! ## Rows -/

def execRow (writes : List (DeviceWrite τ)) (r : ThrottledDevice τ) : ThrottledDevice τ :=
  writes.foldl (fun r write => write.row r) r

theorem execRow_append (writes writes' : List (DeviceWrite τ)) :
    execRow (writes ++ writes') r = execRow writes' (execRow writes r) :=
  List.foldl_append

theorem rows_foldl_exec (writes : List (DeviceWrite τ)) :
    (writes.foldl DeviceTable.exec t).rows = t.rows.map (execRow writes) := by
  induction writes generalizing t with
  | nil => exact (List.map_id _).symm
  | cons write writes ih =>
      rw [List.foldl_cons, ih, DeviceTable.exec, List.map_map]
      rfl

theorem pk_failed : (device.failed totp attempt).pk = device.pk := by
  unfold ThrottledDevice.failed
  split <;> rfl

theorem pk_accepted : (device.accepted totp attempt).pk = device.pk := by
  unfold ThrottledDevice.accepted
  split <;> rfl

theorem execRow_failedWrites : execRow (failedWrites totp attempt device) r =
    if r.pk = device.pk then (if isAllowed totp attempt device then device.failed totp attempt else r) else r := by
  unfold failedWrites
  by_cases hallowed : isAllowed totp attempt device = true
  · simp only [hallowed, if_true, execRow, List.foldl_cons, List.foldl_nil, DeviceWrite.row, pk_failed]
  · simp only [hallowed, if_false, Bool.false_eq_true, execRow, List.foldl_nil, ite_self]

/-- The failures of other devices leave a row as it is. -/
theorem execRow_failures_of_notMem (h : r.pk ∉ devices.map (·.pk)) :
    execRow (devices.flatMap (failedWrites totp attempt)) r = r := by
  induction devices with
  | nil => rfl
  | cons device devices ih =>
      rw [List.map_cons, List.mem_cons, not_or] at h
      rw [List.flatMap_cons, execRow_append, execRow_failedWrites, if_neg h.1, ih h.2]

/-- The failure of a device is saved once. -/
theorem execRow_failures (hpks : (devices.map (·.pk)).Nodup) (h : r ∈ devices) :
    execRow (devices.flatMap (failedWrites totp attempt)) r = r.failed totp attempt := by
  induction devices with
  | nil => cases h
  | cons device devices ih =>
      rw [List.map_cons, List.nodup_cons] at hpks
      rw [List.flatMap_cons, execRow_append, execRow_failedWrites]
      rcases List.mem_cons.mp h with rfl | h
      · rw [if_pos rfl]
        have hrow : (if isAllowed totp attempt r then r.failed totp attempt else r) = r.failed totp attempt := by
          unfold ThrottledDevice.failed
          split <;> rfl
        rw [hrow, execRow_failures_of_notMem (by rw [pk_failed]; exact hpks.1)]
      · have hne : r.pk ≠ device.pk := fun heq => hpks.1 (heq ▸ List.mem_map_of_mem h)
        rw [if_neg hne, ih hpks.2 h]

/-- `bulk_update` takes the failure of a device back. -/
theorem bulkUpdate_failed (hpks : (tried.map (·.pk)).Nodup) (h : r ∈ tried) :
    (DeviceWrite.bulkUpdate tried).row (r.failed totp attempt) = r := by
  have hfind : tried.find? (fun device => device.pk = r.pk) = some r := by
    obtain ⟨d, hd⟩ := Option.isSome_iff_exists.mp
      (List.find?_isSome.mpr ⟨r, h, decide_eq_true (rfl : r.pk = r.pk)⟩ : (tried.find? (·.pk = r.pk)).isSome)
    have hpk := List.find?_some hd
    rw [hd, List.inj_on_of_nodup_map hpks (List.mem_of_find?_eq_some hd) h (of_decide_eq_true hpk)]
  simp only [DeviceWrite.row, pk_failed, hfind]
  by_cases hallowed : isAllowed totp attempt r = true
  · simp only [ThrottledDevice.failed, hallowed, if_true, ThrottledDevice.throttleIncrement]
  · simp only [ThrottledDevice.failed, hallowed, if_false, Bool.false_eq_true]

theorem bulkUpdate_of_notMem (h : r.pk ∉ tried.map (·.pk)) : (DeviceWrite.bulkUpdate tried).row r = r := by
  have hfind : tried.find? (fun device => device.pk = r.pk) = none := by
    rw [List.find?_eq_none]
    intro d hd hpk
    exact h (List.mem_map.mpr ⟨d, hd, of_decide_eq_true hpk⟩)
  simp only [DeviceWrite.row, hfind]

/-! ## The whole call -/

theorem mem_devices : r ∈ t.devices collate user ↔ r ∈ t.rows ∧ r.isSelected user = true := by
  rw [DeviceTable.devices, mem_orderBy, List.mem_filter]

theorem nodup_devices (t : DeviceTable τ) (collate : Text → Text) (user : Nat) : ((t.devices collate user).map (·.pk)).Nodup := by
  have hperm : ((t.devices collate user).map (·.pk)).Perm ((t.rows.filter (·.isSelected user)).map (·.pk)) :=
    (List.perm_insertionSort _ _).map _
  exact hperm.nodup_iff.mpr (t.pks.sublist (List.filter_sublist.map _))

theorem eq_of_pk (hr : r ∈ t.rows) (hdevice : device ∈ t.rows) (h : r.pk = device.pk) : r = device :=
  List.inj_on_of_nodup_map t.pks hr hdevice h

/-- What the call returns, and each row after it. -/
theorem verifyTokenForUser_spec (totp : Totp τ) (collate : Text → Text) (user : Nat) (attempt : Attempt)
    (t : DeviceTable τ) : (t.verifyTokenForUser totp collate user attempt).1 =
        ((t.devices collate user).find? fun device => accepts totp attempt device).map (·.pk) ∧
      (t.verifyTokenForUser totp collate user attempt).2.rows =
        t.rows.map (t.outcome totp collate user attempt) := by
  have hpks := nodup_devices t collate user
  simp only [DeviceTable.verifyTokenForUser, rows_foldl_exec]
  cases hfind : (t.devices collate user).find? fun device => accepts totp attempt device with
  | none =>
      have hnone := List.find?_eq_none.mp hfind
      rw [tryDevices_of_not_accepts fun d hd => Bool.eq_false_iff.mpr (hnone d hd)]
      refine ⟨rfl, List.map_congr_left fun r hr => ?_⟩
      simp only [DeviceTable.outcome, hfind]
      by_cases hselected : r.isSelected user = true
      · rw [if_pos hselected]
        exact execRow_failures hpks (mem_devices.mpr ⟨hr, hselected⟩)
      · rw [if_neg hselected]
        refine execRow_failures_of_notMem fun hmem => ?_
        obtain ⟨d, hd, hpk⟩ := List.mem_map.mp hmem
        rw [mem_devices] at hd
        exact hselected (eq_of_pk hd.1 hr hpk ▸ hd.2)
  | some device =>
      obtain ⟨haccepts, before, after, hdevices, hbefore⟩ := List.find?_eq_some_iff_append.mp hfind
      rw [hdevices] at hpks
      rw [hdevices, tryDevices_of_accepts (fun d hd => by simpa using hbefore d hd) haccepts]
      refine ⟨rfl, List.map_congr_left fun r hr => ?_⟩
      rw [List.map_append, List.map_cons, List.nodup_append] at hpks
      obtain ⟨hnodup, -, hapart⟩ := hpks
      have hdevice : device ∈ t.rows :=
        (mem_devices.mp (hdevices ▸ List.mem_append_right _ List.mem_cons_self : device ∈ t.devices collate user)).1
      have hmem : ∀ d ∈ before, d ∈ t.rows := fun d hd =>
        (mem_devices.mp (hdevices ▸ List.mem_append_left _ hd : d ∈ t.devices collate user)).1
      simp only [DeviceTable.outcome, hfind]
      rw [execRow_append, List.nil_append]
      simp only [execRow, List.foldl_cons, List.foldl_nil]
      rw [← execRow]
      by_cases hpk : r.pk = device.pk
      · -- The device that accepts the token is none of those before it.
        obtain rfl := eq_of_pk hr hdevice hpk
        have hnot : r.pk ∉ before.map (·.pk) := fun h => hapart _ h _ List.mem_cons_self rfl
        rw [execRow_failures_of_notMem hnot, if_pos rfl, DeviceWrite.row,
          if_pos pk_accepted.symm, bulkUpdate_of_notMem (by rw [pk_accepted]; exact hnot)]
      · rw [if_neg hpk]
        by_cases hr' : r ∈ before
        · rw [execRow_failures hnodup hr', DeviceWrite.row, if_neg (by rw [pk_failed, pk_accepted]; exact hpk),
            bulkUpdate_failed hnodup hr']
        · have hnot : r.pk ∉ before.map (·.pk) := by
            intro h
            obtain ⟨d, hd, hd'⟩ := List.mem_map.mp h
            exact hr' (eq_of_pk (hmem d hd) hr hd' ▸ hd)
          rw [execRow_failures_of_notMem hnot, DeviceWrite.row, if_neg (by rw [pk_accepted]; exact hpk),
            bulkUpdate_of_notMem hnot]

/-- The call keeps what the query reads. -/
theorem outcome_keeps : (t.outcome totp collate user attempt r).pk = r.pk ∧
    (t.outcome totp collate user attempt r).name = r.name ∧
    (t.outcome totp collate user attempt r).isSelected user = r.isSelected user := by
  have hfailed : (r.failed totp attempt).pk = r.pk ∧ (r.failed totp attempt).name = r.name ∧
      (r.failed totp attempt).isSelected user = r.isSelected user := by
    unfold ThrottledDevice.failed
    split <;> exact ⟨rfl, rfl, rfl⟩
  have haccepted : (r.accepted totp attempt).pk = r.pk ∧ (r.accepted totp attempt).name = r.name ∧
      (r.accepted totp attempt).isSelected user = r.isSelected user := by
    unfold ThrottledDevice.accepted
    split <;> exact ⟨rfl, rfl, rfl⟩
  unfold DeviceTable.outcome
  split <;> split
  · exact haccepted
  · exact ⟨rfl, rfl, rfl⟩
  · exact hfailed
  · exact ⟨rfl, rfl, rfl⟩

theorem devices_verifyTokenForUser : (t.verifyTokenForUser totp collate user attempt).2.devices collate user =
    (t.devices collate user).map (t.outcome totp collate user attempt) := by
  have hfilter : ∀ l : List (ThrottledDevice τ),
      (l.map (t.outcome totp collate user attempt)).filter (·.isSelected user) =
        (l.filter (·.isSelected user)).map (t.outcome totp collate user attempt) := by
    intro l
    rw [List.filter_map]
    refine congrArg _ (List.filter_congr fun r _ => ?_)
    exact outcome_keeps.2.2
  rw [DeviceTable.devices, (verifyTokenForUser_spec ..).2, hfilter, DeviceTable.devices, orderBy, orderBy]
  refine (List.map_insertionSort _ _ _ _ fun a _ b _ => ?_).symm
  simp only [outcome_keeps.2.1]

end Loop

/-! ## Calls for one user -/

section Verifications

variable {τ ι : Type} {totp : Totp τ} {collate : Text → Text} {user : Nat} {attempts : ι → Attempt}

theorem select_verifications (t : DeviceTable τ) :
    (verifications totp collate user attempts).select t = t.devices collate user := by
  have hread : ∀ devices : List (ThrottledDevice τ), (∀ device ∈ devices, device ∈ t.devices collate user) →
      (devices.map (·.pk)).filterMap ((verifications totp collate user attempts).read t) = devices := by
    intro devices hmem
    induction devices with
    | nil => rfl
    | cons device devices ih =>
        obtain ⟨hdevice, hselected⟩ := mem_devices.mp (hmem device List.mem_cons_self)
        have hfind : (verifications totp collate user attempts).read t device.pk = some device := by
          obtain ⟨d, hd⟩ := Option.isSome_iff_exists.mp (List.find?_isSome.mpr
            ⟨device, hdevice, by rw [hselected, Bool.and_true, decide_eq_true_eq]⟩ :
              (t.rows.find? fun d => d.pk = device.pk && d.isSelected user).isSome)
          have hpk := List.find?_some hd
          rw [Bool.and_eq_true, decide_eq_true_eq] at hpk
          exact eq_of_pk (List.mem_of_find?_eq_some hd) hdevice hpk.1 ▸ hd
        rw [List.map_cons, List.filterMap_cons, hfind, ih fun d hd => hmem d (List.mem_cons_of_mem _ hd)]
  exact hread _ fun _ h => h

/-- The call alone is the function. -/
theorem call_verifications (i : ι) (t : DeviceTable τ) :
    (verifications totp collate user attempts).call i t = t.verifyTokenForUser totp collate user (attempts i) := by
  rw [Locking.call, select_verifications]
  rfl

theorem ids_verifications (i : ι) (t : DeviceTable τ) :
    (verifications totp collate user attempts).ids ((verifications totp collate user attempts).call i t).2 =
      (verifications totp collate user attempts).ids t := by
  rw [call_verifications]
  change List.map _ (DeviceTable.devices _ _ _) = _
  rw [devices_verifyTokenForUser, List.map_map]
  exact List.map_congr_left fun r _ => outcome_keeps.1

end Verifications

end Itou.Otp
