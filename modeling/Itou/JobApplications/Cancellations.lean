import Itou.EmployeeRecords.Updates
import Itou.JobApplications.Contracts

/-!
# Cancellations

The transition `cancel` with all that it removes: the approval, its suspensions and its prolongations, whose triggers
move the end date of the approval that is being deleted, and the employee records.
-/

namespace Itou.JobApplications

open Itou.Lib
open Itou.Approvals (Approval Db Statement)
open Itou.EmployeeRecords (Notifications Notification)

/-! ## Rows -/

/-- A row of `approvals_cancelledapproval`. -/
structure CancelledApproval where
  number : String
  startAt : Int
  endAt : Int
  deriving DecidableEq

/-- A row of `employee_record_employeerecord`, with the transitions of its logs. -/
structure EmployeeRecord where
  jobApplication : Nat
  approvalNumber : String
  status : EmployeeRecords.Status
  logs : List EmployeeRecords.Transition
  deriving DecidableEq

/-- `EmployeeRecordTransition.without_asp_exchange`. -/
def withoutAspExchange : List EmployeeRecords.Transition := [.ready, .disable, .enable, .archive, .unarchiveNew]

def EmployeeRecord.wasSent (record : EmployeeRecord) : Bool := record.logs.any (· ∉ withoutAspExchange)

/-- Delete the notifications of an employee record. -/
def notificationsWithout (t : Notifications) (employeeRecord : Nat) : Notifications where
  rows := t.rows.filter fun n => n.employeeRecord ≠ employeeRecord
  nextPk := t.nextPk
  fresh n hn := t.fresh n (List.mem_of_mem_filter hn)
  pks := t.pks.sublist (List.filter_sublist.map Notification.pk)
  uniqueNewEmployeeRecord :=
    t.uniqueNewEmployeeRecord.sublist ((List.filter_sublist.filter _).map Notification.employeeRecord)

/-- The tables that a cancellation writes. -/
structure Hires extends Contracts where
  cancelledApprovals : List CancelledApproval
  employeeRecords : Table EmployeeRecord
  notifications : Notifications

namespace Hires

variable (s : Hires)

/-! ## `Approval.delete` -/

/-- The employee records that `create_employee_record_notification` loops over. -/
def watched (number : String) : List Nat :=
  (s.employeeRecords.entries.filter fun e =>
    e.2.approvalNumber = number && e.2.status ∈ EmployeeRecords.watchedStatuses).map Sigma.fst

/-- A statement of the cascade of an approval. Its trigger moves the end date of the approval, of which the trigger
notifies the employee records. -/
def exec (now : DateTime) (id : Nat) (statement : Statement) : Option Hires := do
  let db ← s.db.exec now statement
  let notified : Option Notifications := do
    let old ← s.db.approvals.lookup id
    let new ← db.approvals.lookup id
    if old.endAt = new.endAt then none
    else some (EmployeeRecords.Updates.createEmployeeRecordNotification now (s.watched new.number) s.notifications)
  return { s with db, notifications := notified.getD s.notifications }

/-- The approval of each application that refers to it is taken away. -/
def unlink (id : Nat) : List JobApplication :=
  s.jobApplications.map fun r => if r.approval = some id then { r with approval := none } else r

/-- `Approval.delete`. -/
def deleteApproval (id : Nat) : Except TransitionError Hires :=
  match s.db.approvals.lookup id with
  | none => .error .refusedStatement
  | some approval =>
      if approval.number ∈ s.cancelledApprovals.map CancelledApproval.number then
        .error (.integrityError "approvals_cancelledapproval_number_key")
      else if approval.endAt ≤ approval.startAt then
        .error (.integrityError "approvals_cancelledapproval_start_before_end")
      else
        let recorded := { s with
          cancelledApprovals := ⟨approval.number, approval.startAt, approval.endAt⟩ :: s.cancelledApprovals
          jobApplications := s.unlink id }
        match run (fun t statement => t.exec s.now id statement) recorded (s.db.cascade id) with
        | none => .error (.integrityError "approvals_approval_start_before_end")
        | some t => .ok { t with db := { t.db with approvals := t.db.approvals.erase id } }

/-! ## The transition -/

/-- The employee records of an application, with their keys. -/
def recordsOf (pk : Nat) : List (Nat × EmployeeRecord) :=
  (s.employeeRecords.entries.filter fun e => e.2.jobApplication = pk).map fun e => (e.1, e.2)

/-- `can_be_cancelled`. -/
def canBeCancelled (r : JobApplication) : Bool :=
  r.origin ≠ .aiStock && !(s.recordsOf r.pk).any fun e => e.2.wasSent

/-- Delete an employee record, with its logs and its notifications. -/
def deleteEmployeeRecord (k : Nat) : Hires :=
  { s with
    employeeRecords := s.employeeRecords.erase k
    notifications := notificationsWithout s.notifications k }

/-- The loop that deletes the employee records that were never sent. -/
def deleteNeverSent (pk : Nat) : Hires :=
  ((s.recordsOf pk).filter fun e => !e.2.wasSent).foldl (fun t e => t.deleteEmployeeRecord e.1) s

/-- Delete the approval of the application, when it can be deleted. -/
def deleteApprovalOf (r : JobApplication) : Except TransitionError Hires :=
  match r.approval with
  | some id => if s.canBeDeleted id then s.deleteApproval id else .ok s
  | none => .ok s

/-- The body of `cancel`. -/
def cancelBody (r : JobApplication) : Except TransitionError (JobApplication × Hires) :=
  if !s.canBeCancelled r then .error (.abortTransition "Cette candidature n'a pu être annulée.")
  else (s.deleteApprovalOf r).map fun t => (r.resetAcceptedState, t.deleteNeverSent r.pk)

/-- The transition `cancel`. -/
def cancel (pk : Nat) : Except TransitionError Hires :=
  match s.get pk with
  | none => .error .refusedStatement
  | some r => (perform s.now .cancel s.cancelBody r).map fun done =>
      { done.2 with jobApplications := done.2.save pk done.1 }

/-- The request. What the transition has written is rolled back when it fails. -/
def cancelRequest (pk : Nat) : Hires :=
  match s.cancel pk with
  | .ok t => t
  | .error _ => s

end Hires

/-! ## What a cancellation leaves -/

namespace Hires

/-- What the database guarantees. -/
structure Valid (s : Hires) : Prop where
  wellFormed : s.toContracts.WellFormed
  approvals : ∀ r ∈ s.jobApplications, ∀ id ∈ r.approval, id ∈ s.db.approvals
  startBeforeEnd : ∀ a ∈ s.db.approvals.rows, a.startAt < a.endAt
  ordered : s.db.Ordered

/-- Another accepted application has the approval. -/
def UsedElsewhere (s : Hires) (r : JobApplication) (id : Nat) : Prop :=
  ∃ other ∈ s.jobApplications, other.pk ≠ r.pk ∧ other.state = .accepted ∧ other.approval = some id

/-- The database accepts that the approval is deleted: its number is not one of a cancelled approval, and it ends after
it starts without the days of its suspensions and of its prolongations. -/
def Deletable (s : Hires) (r : JobApplication) : Prop :=
  ∀ id ∈ r.approval, ¬ s.UsedElsewhere r id → ∀ a ∈ s.db.approvals.lookup id,
    a.number ∉ s.cancelledApprovals.map CancelledApproval.number ∧ a.startAt < a.endAt - s.db.extension id

/-- What the cancellation of `r` leaves. -/
structure Cancelled (s t : Hires) (r : JobApplication) : Prop where
  application : ∃ r' ∈ t.jobApplications, r'.pk = r.pk ∧ r'.state = .cancelled ∧ r'.toAcceptedOnlyFields = {}
  others : ∀ other, other.pk ≠ r.pk → (other ∈ t.jobApplications ↔ other ∈ s.jobApplications)
  deleted : ∀ id ∈ r.approval, id ∉ t.db.approvals ↔ ¬ s.UsedElsewhere r id
  recorded : ∀ id ∈ r.approval, ¬ s.UsedElsewhere r id → ∀ a ∈ s.db.approvals.lookup id,
    t.cancelledApprovals = ⟨a.number, a.startAt, a.endAt⟩ :: s.cancelledApprovals ∧
      a.number ∉ s.cancelledApprovals.map CancelledApproval.number
  kept : (∀ id ∈ r.approval, s.UsedElsewhere r id) → t.db = s.db ∧ t.cancelledApprovals = s.cancelledApprovals
  otherApprovals : ∀ id, r.approval ≠ some id → t.db.approvals.lookup id = s.db.approvals.lookup id
  suspensions : ∀ k x, t.db.suspensions.lookup k = some x ↔
    s.db.suspensions.lookup k = some x ∧ x.approvalId ∈ t.db.approvals
  prolongations : ∀ k x, t.db.prolongations.lookup k = some x ↔
    s.db.prolongations.lookup k = some x ∧ x.approvalId ∈ t.db.approvals
  references : ∀ other ∈ t.jobApplications, ∀ id ∈ other.approval, id ∈ t.db.approvals
  employeeRecords : ∀ k record, t.employeeRecords.lookup k = some record ↔
    s.employeeRecords.lookup k = some record ∧ (record.jobApplication = r.pk → record.wasSent = true)

end Hires

end Itou.JobApplications
