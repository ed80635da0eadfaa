import Itou.Approvals.Lemmas.Deletion
import Itou.JobApplications.Cancellations
import Itou.JobApplications.Lemmas.Contracts

/-!
# What a cancellation removes

The approval goes when no other accepted application has it, with its periods, and the employee records go. The rest
stays, and when the database refuses to delete the approval, all of it stays.
-/

namespace Itou.JobApplications

open Itou.Lib
open Itou.Approvals (Approval Db Statement)
open Itou.EmployeeRecords (Notifications Notification)

namespace Hires

variable {s t : Hires} {r : JobApplication} {pk id : Nat} {a : Approval} {now : DateTime}

/-! ## The cascade -/

theorem exec_db (s : Hires) (statement : Statement) :
    (s.exec now id statement).map (fun t => t.db) = s.db.exec now statement := by
  rw [exec]
  cases s.db.exec now statement with
  | none => rfl
  | some db => rfl

/-- The tables that the cascade does not write. -/
structure SameRows (s t : Hires) : Prop where
  now : t.now = s.now
  jobApplications : t.jobApplications = s.jobApplications
  cancelledApprovals : t.cancelledApprovals = s.cancelledApprovals
  employeeRecords : t.employeeRecords = s.employeeRecords

theorem exec_sameRows {statement : Statement} (h : s.exec now id statement = some t) : SameRows s t := by
  obtain ⟨db, -, h⟩ := Option.bind_eq_some_iff.mp h
  cases h
  exact ⟨rfl, rfl, rfl, rfl⟩

theorem run_sameRows {statements : List Statement}
    (h : run (fun t statement => t.exec now id statement) s statements = some t) : SameRows s t :=
  invariant_of_run (fun _ _ _ hsame hstep =>
    have hstep := exec_sameRows hstep
    ⟨hstep.now.trans hsame.now, hstep.jobApplications.trans hsame.jobApplications,
      hstep.cancelledApprovals.trans hsame.cancelledApprovals, hstep.employeeRecords.trans hsame.employeeRecords⟩)
    ⟨rfl, rfl, rfl, rfl⟩ h

/-! ## `Approval.delete` -/

/-- What the deletion of the approval `id`, whose row is `a`, leaves. -/
structure Deleted (s : Hires) (id : Nat) (a : Approval) (t : Hires) : Prop where
  now : t.now = s.now
  jobApplications : t.jobApplications = s.unlink id
  cancelledApprovals : t.cancelledApprovals = ⟨a.number, a.startAt, a.endAt⟩ :: s.cancelledApprovals
  employeeRecords : t.employeeRecords = s.employeeRecords
  approval : id ∉ t.db.approvals
  otherApprovals : ∀ j, j ≠ id → t.db.approvals.lookup j = s.db.approvals.lookup j
  suspensions : ∀ k x, t.db.suspensions.lookup k = some x ↔ s.db.suspensions.lookup k = some x ∧ x.approvalId ≠ id
  prolongations : ∀ k x, t.db.prolongations.lookup k = some x ↔
    s.db.prolongations.lookup k = some x ∧ x.approvalId ≠ id

/-- The rows that are written before the cascade. -/
def recordDeletion (s : Hires) (id : Nat) (a : Approval) : Hires :=
  { s with
    cancelledApprovals := ⟨a.number, a.startAt, a.endAt⟩ :: s.cancelledApprovals
    jobApplications := s.unlink id }

theorem deleteApproval_eq (ha : s.db.approvals.lookup id = some a) (hend : a.startAt < a.endAt)
    (hnumber : a.number ∉ s.cancelledApprovals.map CancelledApproval.number) :
    s.deleteApproval id =
      match run (fun t statement => t.exec s.now id statement) (s.recordDeletion id a) (s.db.cascade id) with
      | none => .error (.integrityError "approvals_approval_start_before_end")
      | some t => .ok { t with db := { t.db with approvals := t.db.approvals.erase id } } := by
  rw [deleteApproval]
  simp only [ha, if_neg hnumber, if_neg (Int.not_le.mpr hend)]
  rfl

/-- The deletion of an approval is accepted exactly when its number is not taken and it can end without its periods. -/
theorem deleteApproval_spec (hvalid : s.Valid) (ha : s.db.approvals.lookup id = some a) :
    (a.number ∉ s.cancelledApprovals.map CancelledApproval.number ∧ a.startAt < a.endAt - s.db.extension id →
        ∃ t, s.deleteApproval id = .ok t ∧ s.Deleted id a t) ∧
      (¬ (a.number ∉ s.cancelledApprovals.map CancelledApproval.number ∧ a.startAt < a.endAt - s.db.extension id) →
        ∃ e, s.deleteApproval id = .error e) := by
  have hend : a.startAt < a.endAt := hvalid.startBeforeEnd a (Table.mem_rows.mpr ⟨id, ha⟩)
  have hiff : (∃ db, run (fun db statement => db.exec s.now statement) s.db (s.db.cascade id) = some db) ↔
      a.startAt < a.endAt - s.db.extension id := Approvals.cascade_isSome_iff ha hvalid.ordered hend
  have hdb : (run (fun t statement => t.exec s.now id statement) (s.recordDeletion id a) (s.db.cascade id)).map
      (fun t => t.db) = run (fun db statement => db.exec s.now statement) s.db (s.db.cascade id) :=
    run_map exec_db _ _
  by_cases hnumber : a.number ∉ s.cancelledApprovals.map CancelledApproval.number
  · rw [deleteApproval_eq ha hend hnumber]
    cases hrun : run (fun t statement => t.exec s.now id statement) (s.recordDeletion id a) (s.db.cascade id) with
    | none =>
        rw [hrun] at hdb
        have hnot : ¬ a.startAt < a.endAt - s.db.extension id := by
          rw [← hiff, ← hdb]
          rintro ⟨db, hdb⟩
          cases hdb
        exact ⟨fun h => absurd h.2 hnot, fun _ => ⟨_, rfl⟩⟩
    | some t =>
        rw [hrun] at hdb
        have hsame := run_sameRows hrun
        obtain ⟨hothers, hsuspensions, hprolongations⟩ :=
          Approvals.loses_of_cascade ha hvalid.ordered hend hdb.symm
        refine ⟨fun _ => ⟨_, rfl, ⟨hsame.now, hsame.jobApplications, hsame.cancelledApprovals, hsame.employeeRecords, ?_, ?_,
          hsuspensions, hprolongations⟩⟩, fun hnot => absurd ⟨hnumber, hiff.mp ⟨t.db, hdb.symm⟩⟩ hnot⟩
        · exact AList.lookup_eq_none.mp (AList.lookup_erase _ _)
        · exact fun j hj => (AList.lookup_erase_ne hj).trans (hothers j hj)
  · refine ⟨fun h => absurd h.1 hnumber, fun _ => ⟨.integrityError "approvals_cancelledapproval_number_key", ?_⟩⟩
    rw [deleteApproval]
    simp only [ha, if_pos (not_not.mp hnumber)]

/-! ## The employee records -/

/-- Only the employee records and their notifications are deleted. -/
theorem foldl_deleteEmployeeRecord (records : List (Nat × EmployeeRecord)) (s : Hires) :
    ∃ notifications, records.foldl (fun t e => t.deleteEmployeeRecord e.1) s =
      { s with
        employeeRecords := records.foldl (fun t e => t.erase e.1) s.employeeRecords
        notifications } := by
  induction records generalizing s with
  | nil => exact ⟨s.notifications, rfl⟩
  | cons e records ih => exact ih (s.deleteEmployeeRecord e.1)

theorem lookup_foldl_erase {ρ : Type} (records : List (Nat × ρ)) (t : Table ρ) (k : Nat) (x : ρ) :
    (records.foldl (fun t e => t.erase e.1) t).lookup k = some x ↔ t.lookup k = some x ∧ k ∉ records.map Prod.fst := by
  induction records generalizing t with
  | nil => simp
  | cons e records ih =>
      rw [List.foldl_cons, ih, List.map_cons, List.mem_cons, not_or]
      by_cases hk : k = e.1
      · subst hk
        simp [AList.lookup_erase]
      · rw [AList.lookup_erase_ne hk]
        simp [hk]

theorem mem_recordsOf {e : Nat × EmployeeRecord} :
    e ∈ s.recordsOf pk ↔ s.employeeRecords.lookup e.1 = some e.2 ∧ e.2.jobApplication = pk := by
  simp only [recordsOf, List.mem_map, List.mem_filter, decide_eq_true_eq]
  constructor
  · rintro ⟨entry, ⟨hentry, hpk⟩, rfl⟩
    exact ⟨AList.mem_lookup_iff.mpr hentry, hpk⟩
  · rintro ⟨hlookup, hpk⟩
    exact ⟨⟨e.1, e.2⟩, ⟨AList.mem_lookup_iff.mp hlookup, hpk⟩, rfl⟩

/-- The records of the application that were never sent are gone, and the other tables stay. -/
theorem deleteNeverSent_spec (s : Hires) (pk : Nat) :
    (∃ employeeRecords notifications, s.deleteNeverSent pk = { s with employeeRecords, notifications }) ∧
      ∀ k record, (s.deleteNeverSent pk).employeeRecords.lookup k = some record ↔
        s.employeeRecords.lookup k = some record ∧ (record.jobApplication = pk → record.wasSent = true) := by
  obtain ⟨notifications, heq⟩ := foldl_deleteEmployeeRecord ((s.recordsOf pk).filter fun e => !e.2.wasSent) s
  rw [← deleteNeverSent] at heq
  refine ⟨⟨_, notifications, heq⟩, fun k record => ?_⟩
  rw [heq]
  refine (lookup_foldl_erase _ _ k record).trans (and_congr_right fun hrecord => ?_)
  simp only [List.mem_map, List.mem_filter, mem_recordsOf, Bool.not_eq_true', not_exists, not_and]
  constructor
  · intro h hpk
    by_contra hsent
    exact h (k, record) ⟨⟨hrecord, hpk⟩, Bool.eq_false_iff.mpr hsent⟩ rfl
  · rintro h ⟨k', record'⟩ ⟨⟨hrecord', hpk⟩, hsent⟩ rfl
    rw [hrecord] at hrecord'
    cases hrecord'
    rw [h hpk] at hsent
    cases hsent

/-! ## The transition -/

theorem get_of_mem (hvalid : s.Valid) (hr : r ∈ s.jobApplications) : s.get r.pk = some r := by
  cases hget : s.get r.pk with
  | none => exact absurd (decide_eq_true rfl) (List.find?_eq_none.mp hget r hr)
  | some r' =>
      obtain ⟨hr', hpk⟩ := Contracts.get_eq_some hget
      rw [hvalid.wellFormed.eq_of_pk hr' hr hpk]

/-- `can_be_deleted` tells whether the approval is used elsewhere. -/
theorem canBeDeleted_iff (hvalid : s.Valid) (hr : r ∈ s.jobApplications) (hstate : r.state = .accepted)
    (happroval : r.approval = some id) : s.canBeDeleted id = true ↔ ¬ s.UsedElsewhere r id := by
  have hmem : ∀ x, x ∈ s.jobApplications.filter (fun r => r.approval = some id && r.state = .accepted) ↔
      x ∈ s.jobApplications ∧ x.approval = some id ∧ x.state = .accepted := fun x => by
    simp only [List.mem_filter, Bool.and_eq_true, decide_eq_true_eq]
  have hnodup : (s.jobApplications.filter fun r => r.approval = some id && r.state = .accepted).Nodup :=
    (hvalid.wellFormed.distinct.of_map _).sublist List.filter_sublist
  have hself := (hmem r).mpr ⟨hr, happroval, hstate⟩
  simp only [Contracts.canBeDeleted, decide_eq_true_eq, List.length_eq_one_iff]
  constructor
  · rintro ⟨x, hx⟩ ⟨other, hother, hpk, hstate', happroval'⟩
    have hother' := (hmem other).mpr ⟨hother, happroval', hstate'⟩
    rw [hx, List.mem_singleton] at hself hother'
    exact hpk (by rw [hother', hself])
  · intro hunused
    have hall : ∀ x ∈ s.jobApplications.filter (fun r => r.approval = some id && r.state = .accepted), x = r := by
      intro x hx
      obtain ⟨hx, happroval', hstate'⟩ := (hmem x).mp hx
      by_contra hne
      exact hunused ⟨x, hx, fun hpk => hne (hvalid.wellFormed.eq_of_pk hx hr hpk), hstate', happroval'⟩
    rw [List.eq_replicate_of_mem hall, List.nodup_replicate] at hnodup
    rw [← List.length_eq_one_iff]
    exact Nat.le_antisymm hnodup (List.length_pos_of_mem hself)

/-- The row that a cancellation saves. -/
def cancelledRow (s : Hires) (r : JobApplication) : JobApplication :=
  JobApplication.touch s.now
    { (r.beforeTransition s.now .cancel).resetAcceptedState with state := Transition.cancel.target }

/-- An accepted application that can be cancelled is saved, once its approval is dealt with. -/
theorem cancel_eq (hvalid : s.Valid) (hr : r ∈ s.jobApplications) (hstate : r.state = .accepted)
    (hcan : s.canBeCancelled r = true) :
    s.cancel r.pk = (s.deleteApprovalOf r).map fun t =>
      { t.deleteNeverSent r.pk with jobApplications := (t.deleteNeverSent r.pk).save r.pk (s.cancelledRow r) } := by
  have hsource : r.state ∈ Transition.cancel.sources := by rw [hstate]; exact List.mem_singleton.mpr rfl
  have hcoherent : (s.cancelledRow r).Coherent :=
    JobApplication.coherent_saved s.now (hvalid.wellFormed.coherent r hr) hsource
      (JobApplication.KeepsFrame.of_fields _ {}) (JobApplication.diagnosesCoherence_of_default rfl) (Or.inr rfl)
  have hbody : s.cancelBody (r.beforeTransition s.now .cancel) = (s.deleteApprovalOf r).map fun t =>
      ((r.beforeTransition s.now .cancel).resetAcceptedState, t.deleteNeverSent r.pk) := by
    have hcan' : s.canBeCancelled (r.beforeTransition s.now .cancel) = true := hcan
    rw [cancelBody, hcan']
    rfl
  rw [cancel, get_of_mem hvalid hr]
  dsimp only
  rw [perform, if_pos hsource, hbody]
  cases s.deleteApprovalOf r with
  | error e => rfl
  | ok t =>
      have hsave : JobApplication.save s.now
          { (r.beforeTransition s.now .cancel).resetAcceptedState with state := Transition.cancel.target } =
          .ok (s.cancelledRow r) := by
        have hviolation := (JobApplication.violation_eq_none_iff _).mpr hcoherent
        rw [cancelledRow] at hviolation
        rw [JobApplication.save, hviolation]
        rfl
      simp only [Except.map, hsave]

/-! ## What it leaves -/

/-- The rows of the applications after a cancellation, given those that the deletion of the approval leaves. -/
structure Saved (s t : Hires) (r : JobApplication) : Prop where
  application : s.cancelledRow r ∈ t.jobApplications
  of_mem : ∀ other ∈ t.jobApplications, other = s.cancelledRow r ∨ other ∈ s.jobApplications ∧ other.pk ≠ r.pk
  mem_of : ∀ other ∈ s.jobApplications, other.pk ≠ r.pk → other ∈ t.jobApplications

/-- Rows whose keys stay, and that change in the application only, are saved well. -/
theorem saved_of_map {t : Hires} (hr : r ∈ s.jobApplications) {f : JobApplication → JobApplication}
    (hpk : ∀ x, (f x).pk = x.pk) (hf : ∀ x ∈ s.jobApplications, x.pk ≠ r.pk → f x = x)
    (h : t.jobApplications = (s.jobApplications.map f).map fun other =>
      if other.pk = r.pk then s.cancelledRow r else other) : s.Saved t r := by
  rw [List.map_map] at h
  refine ⟨?_, fun other hother => ?_, fun other hother hne => ?_⟩
  · rw [h]
    exact List.mem_map.mpr ⟨r, hr, if_pos (hpk r)⟩
  · rw [h] at hother
    obtain ⟨x, hx, rfl⟩ := List.mem_map.mp hother
    by_cases hxpk : x.pk = r.pk
    · exact Or.inl (if_pos ((hpk x).trans hxpk))
    · refine Or.inr ?_
      rw [Function.comp_apply, if_neg (by rw [hpk]; exact hxpk), hf x hx hxpk]
      exact ⟨hx, hxpk⟩
  · rw [h]
    refine List.mem_map.mpr ⟨other, hother, ?_⟩
    rw [Function.comp_apply, if_neg (by rw [hpk]; exact hne), hf other hother hne]

theorem Saved.others {t : Hires} (h : s.Saved t r) {other : JobApplication} (hne : other.pk ≠ r.pk) :
    other ∈ t.jobApplications ↔ other ∈ s.jobApplications := by
  refine ⟨fun hother => ?_, fun hother => h.mem_of other hother hne⟩
  rcases h.of_mem other hother with rfl | ⟨hmem, -⟩
  · exact absurd rfl hne
  · exact hmem

theorem Saved.references {t : Hires} (h : s.Saved t r)
    (hkept : ∀ other ∈ s.jobApplications, other.pk ≠ r.pk → ∀ id ∈ other.approval, id ∈ t.db.approvals) :
    ∀ other ∈ t.jobApplications, ∀ id ∈ other.approval, id ∈ t.db.approvals := by
  intro other hother id hid
  rcases h.of_mem other hother with rfl | ⟨hmem, hne⟩
  · cases hid
  · exact hkept other hmem hne id hid

/-- An application that refers to an approval that nobody else uses is the one that is cancelled. -/
theorem pk_of_approval (hvalid : s.Valid) (hunused : ¬ s.UsedElsewhere r id) {x : JobApplication}
    (hx : x ∈ s.jobApplications) (happroval : x.approval = some id) : x.pk = r.pk := by
  by_contra hne
  by_cases hstate : x.state = .accepted
  · exact hunused ⟨x, hx, hne, hstate, happroval⟩
  · rw [hvalid.wellFormed.approval hx hstate] at happroval
    cases happroval

theorem deleteNeverSent_rows {t u : Hires} {row : JobApplication}
    (hu : u = { t.deleteNeverSent pk with jobApplications := (t.deleteNeverSent pk).save pk row }) :
    u.db = t.db ∧ u.cancelledApprovals = t.cancelledApprovals ∧
      (u.jobApplications = t.jobApplications.map fun other => if other.pk = pk then row else other) ∧
      ∀ k record, u.employeeRecords.lookup k = some record ↔
        t.employeeRecords.lookup k = some record ∧ (record.jobApplication = pk → record.wasSent = true) := by
  obtain ⟨⟨employeeRecords, notifications, heq⟩, hlookup⟩ := deleteNeverSent_spec t pk
  subst hu
  refine ⟨?_, ?_, ?_, hlookup⟩
  · rw [heq]
  · rw [heq]
  · rw [heq]
    rfl

/-- The approval is used elsewhere, or there is none. -/
theorem cancelled_of_kept {u : Hires} (hvalid : s.Valid) (hr : r ∈ s.jobApplications)
    (hused : ∀ id ∈ r.approval, s.UsedElsewhere r id)
    (hu : u = { s.deleteNeverSent r.pk with
      jobApplications := (s.deleteNeverSent r.pk).save r.pk (s.cancelledRow r) }) : s.Cancelled u r := by
  obtain ⟨hdb, hcancelled, hrows, hrecords⟩ := deleteNeverSent_rows hu
  have hsaved : s.Saved u r :=
    saved_of_map hr (fun x => rfl) (fun x _ _ => rfl) (by rw [hrows, List.map_id'])
  refine ⟨⟨_, hsaved.application, rfl, rfl, rfl⟩, fun other hne => hsaved.others hne, fun id hid => ?_, fun id hid hunused =>
    absurd (hused id hid) hunused, fun _ => ⟨hdb, hcancelled⟩, fun id _ => by rw [hdb], fun k x => ?_, fun k x => ?_, ?_,
    hrecords⟩
  · rw [hdb]
    exact iff_of_false (not_not.mpr (hvalid.approvals r hr id hid)) (not_not.mpr (hused id hid))
  · rw [hdb]
    exact (and_iff_left_of_imp fun hx => hvalid.wellFormed.foreignKeys.suspension x (Table.mem_rows.mpr ⟨k, hx⟩)).symm
  · rw [hdb]
    exact (and_iff_left_of_imp fun hx => hvalid.wellFormed.foreignKeys.prolongation x (Table.mem_rows.mpr ⟨k, hx⟩)).symm
  · refine hsaved.references fun other hother _ id hid => ?_
    rw [hdb]
    exact hvalid.approvals other hother id hid

/-- The approval is deleted. -/
theorem cancelled_of_deleted {u : Hires} (hvalid : s.Valid) (hr : r ∈ s.jobApplications)
    (happroval : r.approval = some id) (hunused : ¬ s.UsedElsewhere r id) (ha : s.db.approvals.lookup id = some a)
    (hnumber : a.number ∉ s.cancelledApprovals.map CancelledApproval.number) (hdeleted : s.Deleted id a t)
    (hu : u = { t.deleteNeverSent r.pk with
      jobApplications := (t.deleteNeverSent r.pk).save r.pk (s.cancelledRow r) }) : s.Cancelled u r := by
  obtain ⟨hdb, hcancelled, hrows, hrecords⟩ := deleteNeverSent_rows hu
  rw [hdeleted.jobApplications, unlink] at hrows
  rw [hdeleted.employeeRecords] at hrecords
  have hsaved : s.Saved u r := by
    refine saved_of_map hr (fun x => ?_) (fun x hx hne => if_neg fun happroval' => hne ?_) hrows
    · split <;> rfl
    · exact pk_of_approval hvalid hunused hx happroval'
  have hmem : ∀ j, j ∈ s.db.approvals → (j ∈ u.db.approvals ↔ j ≠ id) := by
    intro j hj
    rw [hdb]
    constructor
    · rintro hj' rfl
      exact hdeleted.approval hj'
    · intro hne
      rw [← AList.lookup_isSome, hdeleted.otherApprovals j hne]
      exact AList.lookup_isSome.mpr hj
  refine ⟨⟨_, hsaved.application, rfl, rfl, rfl⟩, fun other hne => hsaved.others hne, fun j hj => ?_, fun j hj _ a' ha' => ?_,
    fun hused => absurd (hused id happroval) hunused, fun j hj => ?_, fun k x => ?_, fun k x => ?_, ?_, hrecords⟩
  · obtain rfl : id = j := Option.some.inj (happroval.symm.trans hj)
    rw [hdb]
    exact iff_of_true hdeleted.approval hunused
  · obtain rfl : id = j := Option.some.inj (happroval.symm.trans hj)
    obtain rfl : a = a' := Option.some.inj (ha.symm.trans ha')
    exact ⟨hcancelled.trans hdeleted.cancelledApprovals, hnumber⟩
  · rw [hdb]
    exact hdeleted.otherApprovals j fun heq => hj (heq ▸ happroval)
  · rw [hdb, hdeleted.suspensions, ← hdb]
    refine and_congr_right fun hx => (hmem _ ?_).symm
    exact hvalid.wellFormed.foreignKeys.suspension x (Table.mem_rows.mpr ⟨k, hx⟩)
  · rw [hdb, hdeleted.prolongations, ← hdb]
    refine and_congr_right fun hx => (hmem _ ?_).symm
    exact hvalid.wellFormed.foreignKeys.prolongation x (Table.mem_rows.mpr ⟨k, hx⟩)
  · refine hsaved.references fun other hother hne j hj => (hmem j (hvalid.approvals other hother j hj)).mpr ?_
    rintro rfl
    exact hne (pk_of_approval hvalid hunused hother hj)

/-! ## The request -/

theorem deleteApprovalOf_of_used (hvalid : s.Valid) (hr : r ∈ s.jobApplications) (hstate : r.state = .accepted)
    (hused : ∀ id ∈ r.approval, s.UsedElsewhere r id) : s.deleteApprovalOf r = .ok s := by
  rw [deleteApprovalOf]
  split
  · rename_i id happroval
    exact if_neg fun hdelete => (canBeDeleted_iff hvalid hr hstate happroval).mp hdelete (hused id happroval)
  · rfl

theorem deleteApprovalOf_of_unused (hvalid : s.Valid) (hr : r ∈ s.jobApplications) (hstate : r.state = .accepted)
    (happroval : r.approval = some id) (hunused : ¬ s.UsedElsewhere r id) :
    s.deleteApprovalOf r = s.deleteApproval id := by
  rw [deleteApprovalOf, happroval]
  exact if_pos ((canBeDeleted_iff hvalid hr hstate happroval).mpr hunused)

/-- What the request of an application that can be cancelled does. -/
theorem cancel_spec (hvalid : s.Valid) (hr : r ∈ s.jobApplications) (hstate : r.state = .accepted)
    (hcan : s.canBeCancelled r = true) :
    (s.Deletable r → ∃ u, s.cancel r.pk = .ok u ∧ s.Cancelled u r) ∧
      (¬ s.Deletable r → ∃ e, s.cancel r.pk = .error e) := by
  rw [cancel_eq hvalid hr hstate hcan]
  by_cases hused : ∀ id ∈ r.approval, s.UsedElsewhere r id
  · rw [deleteApprovalOf_of_used hvalid hr hstate hused]
    refine ⟨fun _ => ⟨_, rfl, cancelled_of_kept hvalid hr hused rfl⟩, fun hnot => absurd ?_ hnot⟩
    exact fun id hid hunused => absurd (hused id hid) hunused
  · simp only [not_forall] at hused
    obtain ⟨id, happroval, hunused⟩ := hused
    obtain ⟨a, ha⟩ := Option.isSome_iff_exists.mp (AList.lookup_isSome.mpr (hvalid.approvals r hr id happroval))
    have hdeletable : s.Deletable r ↔
        a.number ∉ s.cancelledApprovals.map CancelledApproval.number ∧ a.startAt < a.endAt - s.db.extension id := by
      constructor
      · exact fun h => h id happroval hunused a ha
      · rintro h j hj - a' ha'
        obtain rfl : id = j := Option.some.inj (happroval.symm.trans hj)
        obtain rfl : a = a' := Option.some.inj (ha.symm.trans ha')
        exact h
    obtain ⟨hok, herror⟩ := deleteApproval_spec hvalid ha
    rw [deleteApprovalOf_of_unused hvalid hr hstate happroval hunused, hdeletable]
    constructor
    · intro h
      obtain ⟨t, ht, hdeleted⟩ := hok h
      rw [ht]
      exact ⟨_, rfl, cancelled_of_deleted hvalid hr happroval hunused ha h.1 hdeleted rfl⟩
    · intro hnot
      obtain ⟨e, he⟩ := herror hnot
      exact ⟨e, by rw [he]; rfl⟩

/-- Only an accepted application that can be cancelled is cancelled. -/
theorem cancel_eq_ok {u : Hires} (h : s.cancel pk = .ok u) :
    ∃ r ∈ s.jobApplications, r.pk = pk ∧ r.state = .accepted ∧ s.canBeCancelled r = true := by
  rw [cancel] at h
  split at h
  · cases h
  · rename_i r hget
    obtain ⟨hr, hpk⟩ := Contracts.get_eq_some hget
    obtain ⟨⟨r', t⟩, hperform, -⟩ := map_eq_ok.mp h
    obtain ⟨hsource, r₁, hbody, -⟩ := JobApplication.perform_ok hperform
    refine ⟨r, hr, hpk, List.mem_singleton.mp hsource, ?_⟩
    by_contra hnot
    have hcan : s.canBeCancelled (r.beforeTransition s.now .cancel) = false := Bool.eq_false_iff.mpr hnot
    rw [cancelBody, hcan] at hbody
    cases hbody

end Hires

end Itou.JobApplications
