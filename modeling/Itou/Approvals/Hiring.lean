import Itou.Approvals.Models
import Itou.Lib.Queries
import Itou.Lib.Runs
import Itou.Users

/-!
# What a hiring does to the approvals

The approval that a job seeker has, the start date that a hiring puts forward, the suspension that it ends, and
the approval that a cancelled hiring deletes.
-/

namespace Itou.Approvals

open Itou.Lib

/-- `Approval.DEFAULT_APPROVAL_DAYS`. -/
def Approval.defaultApprovalDays : Int := 2 * 365

/-- `Approval.get_default_end_date`. The end date is inclusive. -/
def Approval.defaultEndDate (startAt : Int) : Int := startAt + Approval.defaultApprovalDays - 1

def Approval.isValid (today : Int) (a : Approval) : Bool := today ≤ a.endAt

/-! ## The approval of a job seeker -/

/-- `user.approvals.all()`, with the keys: the last created first. -/
def Db.approvalsOf (db : Db) (user : Nat) : List (Nat × Approval) :=
  orderByDesc (fun e => e.2.createdAt)
    ((db.approvals.entries.map fun e => (e.1, e.2)).filter fun e => e.2.user = user)

/-- The latest end first, and the earliest start among equal ends. -/
def endsLast (x y : Nat × Approval) : Prop :=
  y.2.endAt < x.2.endAt ∨ x.2.endAt = y.2.endAt ∧ x.2.startAt ≤ y.2.startAt

instance : DecidableRel endsLast := fun _ _ => inferInstanceAs (Decidable (_ ∨ _))

/-- `User.latest_approval`. An approval that is not valid any more counts until the end of its waiting
period, which `waitingPeriodEnd` computes from its end date. -/
def Db.latestApproval (db : Db) (today : Int) (waitingPeriodEnd : Int → Int) (jobSeeker : User) :
    Option (Nat × Approval) :=
  if !jobSeeker.isJobSeeker then none
  else
    match (db.approvalsOf jobSeeker.pk).filter fun e => e.2.isValid today with
    | e :: _ => some e
    | [] =>
        match (db.approvalsOf jobSeeker.pk).insertionSort endsLast with
        | [] => none
        | e :: _ => if waitingPeriodEnd e.2.endAt < today then none else some e

/-! ## Changes -/

/-- `Approval.update_start_date`, on an approval with the key `id`. Only approvals that have not started yet
are postponed. -/
def Db.updateStartDate (db : Db) (now : DateTime) (id : Nat) (a : Approval) (newStartDate : Int) : Db :=
  if now.date < a.startAt then
    let a' := { a with
      startAt := newStartDate, endAt := Approval.defaultEndDate newStartDate, updatedAt := now }
    { db with approvals := db.approvals.insert id a' }
  else db

/-- `Approval.last_in_progress_suspension`, with its key. -/
def Db.lastInProgressSuspension (db : Db) (today : Int) (id : Nat) : Option (Nat × Suspension) :=
  (orderBy (fun e => e.2.startAt)
    ((db.suspensions.entries.map fun e => (e.1, e.2)).filter fun e =>
      e.2.approvalId = id && e.2.startAt ≤ today && today ≤ e.2.endAt)).getLast?

/-- The suspension that `Approval.unsuspend` ends: the last one in progress, if its reason allows it. -/
def Db.suspensionToEnd (db : Db) (today : Int) (id : Nat) : Option (Nat × Suspension) :=
  (db.lastInProgressSuspension today id).filter fun e => e.2.reason ∈ Suspension.reasonsAllowingUnsuspend

/-- `Approval.unsuspend`. `none` when the statement is refused. -/
def Db.unsuspend (db : Db) (now : DateTime) (id : Nat) (hiringStartAt : Int) : Option Db :=
  match db.suspensionToEnd now.date id with
  | none => some db
  | some (k, s) =>
      if s.startAt = hiringStartAt then db.exec now (.suspension (.delete k))
      else db.exec now (.suspension (.update k { s with endAt := hiringStartAt - 1 }))

/-- The rows that the deletion of an approval cascades to, each deleted by a statement that fires its trigger. -/
def Db.cascade (db : Db) (id : Nat) : List Statement :=
  ((db.suspensions.entries.filter fun e => e.2.approvalId = id).map fun e => .suspension (.delete e.1)) ++
    ((db.prolongations.entries.filter fun e => e.2.approvalId = id).map fun e => .prolongation (.delete e.1))

/-- `Approval.delete`, without the row that it leaves in `approvals_cancelledapproval`. -/
def Db.deleteApproval (db : Db) (now : DateTime) (id : Nat) : Option Db :=
  (run (fun db statement => db.exec now statement) db (db.cascade id)).map fun db =>
    { db with approvals := db.approvals.erase id }

end Itou.Approvals
