import Itou.Lib.Dates
import Itou.Lib.Tables

/-!
# Approvals, suspensions and prolongations

The tables behind a PASS IAE and the two `update_approval_end_at` triggers that push its end date back
or forth. A statement is one `INSERT`, `UPDATE` or `DELETE` of one row, in a transaction of its own: it is
refused (`none`) when a constraint does not hold at its end.
-/

namespace Itou.Approvals

open Itou.Lib

universe u

/-! ## Rows -/

/-- A row of `approvals_approval`. -/
structure Approval where
  number : String
  user : Nat
  startAt : Int
  endAt : Int
  createdAt : DateTime
  updatedAt : DateTime
  deriving DecidableEq

/-- `Suspension.Reason`. -/
inductive Suspension.Reason where
  | suspendedContract
  | brokenContract
  | finishedContract
  | approvalBetweenCtaMembers
  | contratPasserelle
  | sickness
  | maternity
  | incarceration
  | trialOutsideIae
  | detoxification
  | forceMajeure
  deriving DecidableEq

/-- `Suspension.REASONS_ALLOWING_UNSUSPEND`. -/
def Suspension.reasonsAllowingUnsuspend : List Suspension.Reason :=
  [.brokenContract, .finishedContract, .approvalBetweenCtaMembers, .contratPasserelle, .suspendedContract]

/-- What suspensions and prolongations have in common: a period of an approval. -/
structure Period where
  approvalId : Nat
  startAt : Int
  endAt : Int
  deriving DecidableEq

/-- A row of `approvals_suspension`. -/
structure Suspension extends Period where
  reason : Suspension.Reason
  deriving DecidableEq

/-- A row of `approvals_prolongation`. -/
structure Prolongation extends Period where
  deriving DecidableEq

/-- The property `duration`, in days. -/
def Period.duration (p : Period) : Int := p.endAt - p.startAt

/-- The three tables. -/
structure Db where
  approvals : Table Approval
  suspensions : Table Suspension
  prolongations : Table Prolongation

/-! ## Triggers -/

variable {ρ : Type u}

/-- `UPDATE approvals_approval SET end_at = end_at + days, updated_at = NOW() WHERE id = id`. The check
`start_before_end` of the approval can refuse it. -/
def pushEndAt (now : DateTime) (approvals : Table Approval) (id : Nat) (days : Int) :
    Option (Table Approval) :=
  match approvals.lookup id with
  | none => some approvals
  | some a =>
      if a.startAt < a.endAt + days then
        some (approvals.insert id { a with endAt := a.endAt + days, updatedAt := now })
      else none

/-- The body of the trigger `update_approval_end_at`, which both tables have. -/
def updateApprovalEndAt (period : ρ → Period) (now : DateTime) (approvals : Table Approval) :
    Fired ρ → Option (Table Approval)
  | .delete old => pushEndAt now approvals (period old).approvalId (-(period old).duration)
  | .insert new => pushEndAt now approvals (period new).approvalId (period new).duration
  | .update old new =>
      pushEndAt now approvals (period new).approvalId (-(period old).duration + (period new).duration)

/-- The trigger of `Suspension`. -/
def Suspension.updateApprovalEndAt : DateTime → Table Approval → Fired Suspension → Option (Table Approval) :=
  Approvals.updateApprovalEndAt Suspension.toPeriod

/-- The trigger of `Prolongation`. -/
def Prolongation.updateApprovalEndAt :
    DateTime → Table Approval → Fired Prolongation → Option (Table Approval) :=
  Approvals.updateApprovalEndAt Prolongation.toPeriod

/-! ## Constraints -/

/-- `exclude_overlapping_suspensions`, on ranges with both bounds, and `suspension_cannot_start_in_the_future`.
A range whose bounds are not in order is an error. -/
def Suspension.constraints (now : DateTime) (others : Table Suspension) (s : Suspension) : Bool :=
  s.startAt ≤ s.endAt && s.startAt ≤ now.date &&
    others.rows.all fun o => o.approvalId ≠ s.approvalId || o.endAt < s.startAt || s.endAt < o.startAt

/-- `exclude_prolongation_overlapping_dates`, on ranges without their upper bound. An empty range overlaps
nothing. -/
def Prolongation.constraints (others : Table Prolongation) (p : Prolongation) : Bool :=
  p.startAt ≤ p.endAt &&
    others.rows.all fun o =>
      o.approvalId ≠ p.approvalId || o.endAt ≤ p.startAt || p.endAt ≤ o.startAt ||
        o.startAt = o.endAt || p.startAt = p.endAt

/-! ## Statements -/

/-- A statement on one of the two tables. -/
inductive Statement where
  | suspension (op : RowOp Suspension)
  | prolongation (op : RowOp Prolongation)
  deriving DecidableEq

/-- Run a statement on a table of periods: the row change, the constraints of the row it writes with the
foreign key to the approval, and the trigger. -/
def execOn (period : ρ → Period) (constraints : Table ρ → ρ → Bool)
    (trigger : Table Approval → Fired ρ → Option (Table Approval))
    (approvals : Table Approval) (rows : Table ρ) (op : RowOp ρ) : Option (Table Approval × Table ρ) :=
  match op.exec rows with
  | none => none
  | some (rows', fired) =>
      if op.new.all fun r => (period r).approvalId ∈ approvals && constraints (rows.erase op.key) r then
        (trigger approvals fired).map fun approvals' => (approvals', rows')
      else none

/-- Run a statement at the time `now`. -/
def Db.exec (db : Db) (now : DateTime) : Statement → Option Db
  | .suspension op =>
      (execOn Suspension.toPeriod (Suspension.constraints now) (Suspension.updateApprovalEndAt now)
        db.approvals db.suspensions op).map
        fun (approvals, suspensions) => { db with approvals, suspensions }
  | .prolongation op =>
      (execOn Prolongation.toPeriod Prolongation.constraints (Prolongation.updateApprovalEndAt now)
        db.approvals db.prolongations op).map
        fun (approvals, prolongations) => { db with approvals, prolongations }

/-! ## The end date -/

/-- The days that a period gives to the approval `id`. -/
def Period.daysFor (id : Nat) (p : Period) : Int := if p.approvalId = id then p.duration else 0

/-- The days that the suspensions and the prolongations of the approval `id` give to it. -/
def Db.extension (db : Db) (id : Nat) : Int :=
  db.suspensions.sum (fun s => s.daysFor id) + db.prolongations.sum fun p => p.daysFor id

/-- `end_at` is the end date of `approvals₀` plus the extension of the approval. -/
def EndAtLaw (approvals₀ : Table Approval) (db : Db) : Prop :=
  ∀ id, (db.approvals.lookup id).map Approval.endAt =
    (approvals₀.lookup id).map fun a => a.endAt + db.extension id

/-- Rows refer to approvals that exist. -/
structure Db.ForeignKeys (db : Db) : Prop where
  suspension : ∀ s ∈ db.suspensions.rows, s.approvalId ∈ db.approvals
  prolongation : ∀ p ∈ db.prolongations.rows, p.approvalId ∈ db.approvals

/-- The periods are ranges. -/
structure Db.Ordered (db : Db) : Prop where
  suspensions : ∀ s ∈ db.suspensions.rows, s.startAt ≤ s.endAt
  prolongations : ∀ p ∈ db.prolongations.rows, p.startAt ≤ p.endAt

/-- An `UPDATE` keeps the approval of its row, or the row has no days to give back. -/
def KeepsApprovalOn (period : ρ → Period) (rows : Table ρ) : RowOp ρ → Prop
  | .update k new => ∀ old ∈ rows.lookup k,
      (period new).approvalId = (period old).approvalId ∨ (period old).endAt = (period old).startAt
  | _ => True

def Statement.KeepsApproval (db : Db) : Statement → Prop
  | .suspension op => KeepsApprovalOn Suspension.toPeriod db.suspensions op
  | .prolongation op => KeepsApprovalOn Prolongation.toPeriod db.prolongations op

/-- A label of a run: a statement with the time of its transaction. -/
def Db.step (db : Db) (label : DateTime × Statement) : Option Db := db.exec label.1 label.2

end Itou.Approvals
