import Itou.Approvals.Hiring
import Itou.Lib.Queries

/-!
# The status of an approval

`Approval.state`, which the page of an approval shows, and the filters of the list of approvals. The suspensions of an
approval are those of `suspension_set`; `addMonths` is `relativedelta`.
-/

namespace Itou.Approvals

open Itou.Lib

/-- `enums.ApprovalStatus`. -/
inductive ApprovalStatus where
  | expired
  | valid
  | future
  | suspended
  deriving DecidableEq

/-! ## The page -/

section Page

variable (today : Int) (prefetched : Bool) (a : Approval) (suspensionSet : List Suspension)

def Approval.isInProgress : Bool := a.startAt ≤ today && today ≤ a.endAt

/-- `SuspensionQuerySet.in_progress_lookup`. -/
def Suspension.isInProgress (s : Suspension) : Bool := s.startAt ≤ today && today ≤ s.endAt

/-- `Approval.ongoing_suspension`, when the suspensions are prefetched. -/
def ongoingSuspension : Option Suspension := suspensionSet.find? fun s => s.isInProgress today

/-- `Approval.is_suspended`. When they are not, it asks the database. -/
def isSuspended : Bool :=
  if prefetched then (ongoingSuspension today suspensionSet).isSome
  else suspensionSet.any fun s => s.isInProgress today

def Approval.state : ApprovalStatus :=
  if !a.isValid today then .expired
  else if isSuspended today prefetched suspensionSet then .suspended
  else if a.isInProgress today then .valid
  else .future

end Page

/-! ## The list -/

inductive ApprovalExpiry where
  | lessThan1Month
  | lessThan3Months
  | lessThan7Months
  deriving DecidableEq

def ApprovalExpiry.months : ApprovalExpiry → Int
  | lessThan1Month => 1
  | lessThan3Months => 3
  | lessThan7Months => 7

inductive ContractStatus where
  | ongoing
  | ended
  deriving DecidableEq

/-- A row of the list, with the annotation of `_add_contract_data`. -/
structure ListedApproval extends Approval where
  contractEndAt : Int
  deriving DecidableEq

/-- `cleaned_data`. The empty choices are `none`. -/
structure ApprovalForm where
  jobSeeker : Option Nat
  statusValid : Bool
  statusSuspended : Bool
  statusFuture : Bool
  statusExpired : Bool
  expiry : Option ApprovalExpiry
  contractStatus : Option ContractStatus

namespace ApprovalForm

/-- `END_OF_CONTRACT_DAYS_OF_GRACE`. -/
def endOfContractDaysOfGrace : Int := 90

def suspendedQsFilter (now : Int) : Q ListedApproval Suspension :=
  .and (.related fun s => s.startAt ≤ now) (.related fun s => now ≤ s.endAt)

/-- `status_filters_list`. -/
def statusFiltersList (now : Int) (data : ApprovalForm) : List (Q ListedApproval Suspension) :=
  (if data.statusValid then
    [.and (.and (.column fun a => a.startAt ≤ now) (.column fun a => now ≤ a.endAt)) (.not (suspendedQsFilter now))]
  else []) ++
  (if data.statusSuspended then [suspendedQsFilter now] else []) ++
  (if data.statusFuture then [.column fun a => now < a.startAt] else []) ++
  (if data.statusExpired then [.column fun a => a.endAt < now] else [])

def getQsFilters (addMonths : Int → Int → Int) (now : Int) (data : ApprovalForm) :
    List (Q ListedApproval Suspension) :=
  (data.jobSeeker.map fun jobSeekerId => .column fun a => a.user = jobSeekerId).toList ++
  (Q.orQueries (data.statusFiltersList now)).toList ++
  (data.expiry.map fun expiry =>
    .and (.column fun a => a.endAt < addMonths now expiry.months) (.column fun a => now ≤ a.endAt)).toList ++
  (data.contractStatus.map fun contractStatus => match contractStatus with
    | .ongoing => .column fun a => now - endOfContractDaysOfGrace ≤ a.contractEndAt
    | .ended => .column fun a => a.contractEndAt < now - endOfContractDaysOfGrace).toList

/-- The form with one status checked. -/
def only (status : ApprovalStatus) : ApprovalForm where
  jobSeeker := none
  statusValid := status = .valid
  statusSuspended := status = .suspended
  statusFuture := status = .future
  statusExpired := status = .expired
  expiry := none
  contractStatus := none

/-- The list of the approvals of this status has the approval. -/
def lists (addMonths : Int → Int → Int) (now : Int) (a : ListedApproval) (suspensionSet : List Suspension)
    (status : ApprovalStatus) : Bool :=
  Q.selects a suspensionSet ((only status).getQsFilters addMonths now)

end ApprovalForm

/-- An ongoing suspension is one of an approval in progress. Where an approval in progress has none, its suspensions are
all over, or all to come. -/
structure StatusClear (today : Int) (a : Approval) (suspensionSet : List Suspension) : Prop where
  ongoing : (∃ s ∈ suspensionSet, s.startAt ≤ today ∧ today ≤ s.endAt) → a.startAt ≤ today ∧ today ≤ a.endAt
  around : a.startAt ≤ today → today ≤ a.endAt → (∃ s ∈ suspensionSet, s.startAt ≤ today) →
    (∃ s ∈ suspensionSet, today ≤ s.endAt) → ∃ s ∈ suspensionSet, s.startAt ≤ today ∧ today ≤ s.endAt

/-! ## What each list has -/

section Lists

variable {addMonths : Int → Int → Int} {today : Int} {prefetched : Bool} {a : ListedApproval}
  {suspensionSet : List Suspension}

theorem isSuspended_iff : isSuspended today prefetched suspensionSet = true ↔
    ∃ s ∈ suspensionSet, s.startAt ≤ today ∧ today ≤ s.endAt := by
  cases prefetched <;>
    simp [isSuspended, ongoingSuspension, Suspension.isInProgress, List.find?_isSome, List.any_eq_true]

/-- `NOT (EXISTS … AND EXISTS …)`: the two bounds are not those of one suspension. -/
theorem lists_valid : ApprovalForm.lists addMonths today a suspensionSet .valid = true ↔
    (a.startAt ≤ today ∧ today ≤ a.endAt) ∧
      ((∃ s ∈ suspensionSet, s.startAt ≤ today) → ¬ ∃ s ∈ suspensionSet, today ≤ s.endAt) := by
  have hselects : ApprovalForm.lists addMonths today a suspensionSet .valid =
      ((decide (a.startAt ≤ today) && decide (today ≤ a.endAt)) &&
        !((suspensionSet.any fun s => s.startAt ≤ today) && suspensionSet.any fun s => today ≤ s.endAt)) :=
    Q.selects_of_steady _ fun _ => rfl
  rw [hselects, Bool.and_eq_true, Bool.and_eq_true, Bool.not_eq_true', ← Bool.not_eq_true, Bool.and_eq_true, not_and]
  simp only [List.any_eq_true, decide_eq_true_eq]

theorem lists_suspended : ApprovalForm.lists addMonths today a suspensionSet .suspended = true ↔
    ∃ s ∈ suspensionSet, s.startAt ≤ today ∧ today ≤ s.endAt := by
  have hselects : ApprovalForm.lists addMonths today a suspensionSet .suspended =
      suspensionSet.any fun s => decide (s.startAt ≤ today) && decide (today ≤ s.endAt) :=
    Q.selects_related_and _ _
  simp [hselects]

theorem lists_future : ApprovalForm.lists addMonths today a suspensionSet .future = true ↔ today < a.startAt := by
  have hselects : ApprovalForm.lists addMonths today a suspensionSet .future = decide (today < a.startAt) :=
    Q.selects_column _
  rw [hselects, decide_eq_true_eq]

theorem lists_expired : ApprovalForm.lists addMonths today a suspensionSet .expired = true ↔ a.endAt < today := by
  have hselects : ApprovalForm.lists addMonths today a suspensionSet .expired = decide (a.endAt < today) :=
    Q.selects_column _
  rw [hselects, decide_eq_true_eq]

theorem state_eq : a.state today prefetched suspensionSet =
    if a.endAt < today then .expired
    else if ∃ s ∈ suspensionSet, s.startAt ≤ today ∧ today ≤ s.endAt then .suspended
    else if a.startAt ≤ today then .valid
    else .future := by
  have hsuspended : isSuspended today prefetched suspensionSet = true ↔
      ∃ s ∈ suspensionSet, s.startAt ≤ today ∧ today ≤ s.endAt := isSuspended_iff
  unfold Approval.state Approval.isValid Approval.isInProgress
  by_cases hend : a.endAt < today
  · simp [hend]
  · by_cases hongoing : ∃ s ∈ suspensionSet, s.startAt ≤ today ∧ today ≤ s.endAt
    · simp [hend, hongoing, hsuspended.mpr hongoing, not_lt.mp hend]
    · rw [if_neg hend, if_neg hongoing, if_neg (by simpa using hend), if_neg (fun h => hongoing (hsuspended.mp h))]
      simp [not_lt.mp hend]

end Lists

end Itou.Approvals
