import Itou.JobApplications.Accept

/-!
# Contracts and their approvals

All the job applications with the tables of the approvals: acceptances, which move the approval that they
use, new hiring dates, and cancellations, which can delete the approval.
-/

namespace Itou.JobApplications

open Itou.Lib
open Itou.Approvals (Approval Db)

/-! ## New hiring dates -/

/-- `MAX_CONTRACT_POSTPONE_IN_DAYS`. -/
def maxContractPostponeInDays : Int := 30

def errorPostponeTooFar := "La date de début du contrat ne peut être repoussée de plus de 30 jours."

def errorStartAfterApprovalEnd :=
  "Attention, le PASS IAE sera expiré lors du début du contrat. Veuillez modifier la date de début."

/-- `can_postpone_start_date`. -/
def canPostponeStartDate (today : Int) (a : Approval) : Bool := today < a.startAt

/-- The values of `EditHiringDateForm`. The start date is required. -/
structure EditHiringDateForm where
  hiringStartAt : Int
  hiringEndAt : Option Int
  deriving DecidableEq

namespace EditHiringDateForm

/-- `clean_hiring_start_at`. -/
def cleanHiringStartAt (form : EditHiringDateForm) (today : Int) : Except String Unit :=
  if form.hiringStartAt < today then throw errorStartInPast
  else if today + maxContractPostponeInDays < form.hiringStartAt then throw errorPostponeTooFar
  else pure ()

/-- `clean`. The start date is compared with the end of an approval that has started. -/
def clean (form : EditHiringDateForm) (today : Int) (approval : Option Approval) : Except String Unit :=
  if form.hiringEndAt.any (· < form.hiringStartAt) then throw errorEndIsBeforeStart
  else if approval.any fun a => !canPostponeStartDate today a && a.endAt ≤ form.hiringStartAt then
    throw errorStartAfterApprovalEnd
  else pure ()

/-- The values of the form on the application. -/
def fill (form : EditHiringDateForm) (r : JobApplication) : JobApplication :=
  { r with hiringStartAt := some form.hiringStartAt, hiringEndAt := form.hiringEndAt }

/-- The application with the values of a valid form. No constraint of the table has all its fields in the
form. -/
def apply (form : EditHiringDateForm) (today : Int) (approval : Option Approval) (r : JobApplication) :
    Except String JobApplication := do
  form.cleanHiringStartAt today
  form.clean today approval
  (form.fill r).clean
  return form.fill r

end EditHiringDateForm

/-! ## The system -/

/-- The tables, at a time. -/
structure Contracts where
  now : DateTime
  db : Db
  jobApplications : List JobApplication

/-- What an acceptance writes on the application before the transition: the values of an `AcceptForm`, or those
that the staff give in the admin. -/
inductive AcceptValues where
  | employer (form : AcceptForm) (farFuture : Int → Int)
  | admin (hiringStartAt hiringEndAt : Option Int) (eligibilityDiagnosis : Option Nat)

namespace AcceptValues

def hiringStartAt : AcceptValues → Option Int
  | .employer form _ => some form.hiringStartAt
  | .admin hiringStartAt _ _ => hiringStartAt

def fill (ctx : AcceptContext) (r : JobApplication) : AcceptValues → Except TransitionError JobApplication
  | .employer form farFuture => r.fillAcceptForm ctx (some (form, farFuture))
  | .admin hiringStartAt hiringEndAt eligibilityDiagnosis =>
      .ok { r with hiringStartAt, hiringEndAt, eligibilityDiagnosis }

end AcceptValues

namespace Contracts

/-- The user of a request, with the companies that they are an active member of. -/
structure Employer where
  memberships : List Nat
  deriving DecidableEq

inductive Action where
  | accept (pk : Nat) (ctx : AcceptContext) (values : AcceptValues)
  | editContractStartDate (pk : Nat) (employer : Employer) (form : EditHiringDateForm)
  | cancel (pk : Nat) (employeeRecordSent : Bool)
  | wait (now : DateTime)

/-- `get_object_or_404`. -/
def get (s : Contracts) (pk : Nat) : Option JobApplication := s.jobApplications.find? fun r => r.pk = pk

/-- The context of an acceptance, with the time and the tables of the state. -/
def context (s : Contracts) (ctx : AcceptContext) : AcceptContext := { ctx with now := s.now, db := s.db }

/-- `PENDING_STATES`. -/
def pendingStates : List JobApplicationState := [.new, .processing, .postponed]

/-- Save the application, among the others. -/
def save (s : Contracts) (pk : Nat) (r : JobApplication) : List JobApplication :=
  s.jobApplications.map fun other => if other.pk = pk then r else other

/-- What an acceptance does to another application of the list: it becomes obsolete if it is a pending one of
the same job seeker. -/
def renderObsolete (now : DateTime) (pk : Nat) (jobSeeker : User) (other : JobApplication) :
    Except TransitionError JobApplication :=
  if other.pk ≠ pk && other.jobSeeker.pk = jobSeeker.pk && other.state ∈ pendingStates then
    (perform now .renderObsolete JobApplication.notifyBody other).map Prod.fst
  else .ok other

/-- An acceptance. The other applications are rendered obsolete by the body of the transition. -/
def accept (s : Contracts) (pk : Nat) (ctx : AcceptContext) (values : AcceptValues) : Option Contracts := do
  let r ← s.get pk
  let filled ← (values.fill (s.context ctx) r).toOption
  let (r', db) ← (filled.accept (s.context ctx)).toOption
  let others ← (s.jobApplications.mapM (renderObsolete s.now pk r.jobSeeker)).toOption
  return { s with db, jobApplications := save { s with jobApplications := others } pk r' }

/-- The approval of the application. -/
def approval (s : Contracts) (r : JobApplication) : Option (Nat × Approval) :=
  r.approval.bind fun id => (s.db.approvals.lookup id).map fun a => (id, a)

/-- A post to `edit_contract_start_date` whose form is valid. The state is compared with `accepted`, and nothing
depends on the result: the exception is built, not raised. -/
def editContractStartDate (s : Contracts) (pk : Nat) (employer : Employer) (form : EditHiringDateForm) :
    Option Contracts := do
  let r ← (s.get pk).filter fun r => r.toCompany.pk ∈ employer.memberships
  let filled ← (form.apply s.now.date ((s.approval r).map Prod.snd) r).toOption
  let r' ← (filled.save s.now).toOption
  let db := match s.approval r with
    | some (id, a) => s.db.updateStartDate s.now id a form.hiringStartAt
    | none => s.db
  return { s with db, jobApplications := s.save pk r' }

/-- `Approval.can_be_deleted`: there is one accepted application. -/
def canBeDeleted (s : Contracts) (id : Nat) : Bool :=
  (s.jobApplications.filter fun r => r.approval = some id && r.state = .accepted).length = 1

/-- What a cancellation does to the approval. -/
def deleteUnused (s : Contracts) (r : JobApplication) : Option Db :=
  match r.approval with
  | some id => if s.canBeDeleted id then s.db.deleteApproval s.now id else some s.db
  | none => some s.db

/-- The transition `cancel`, with the approval that it deletes. -/
def cancel (s : Contracts) (pk : Nat) (employeeRecordSent : Bool) : Option Contracts := do
  let r ← s.get pk
  let (r', _) ← (perform s.now .cancel (JobApplication.cancelBody employeeRecordSent) r).toOption
  let db ← s.deleteUnused r
  return { s with db, jobApplications := s.save pk r' }

/-- One step: an action that succeeds. A request that is refused or fails changes nothing. -/
def step (s : Contracts) : Action → Option Contracts
  | .accept pk ctx values => s.accept pk ctx values
  | .editContractStartDate pk employer form => s.editContractStartDate pk employer form
  | .cancel pk employeeRecordSent => s.cancel pk employeeRecordSent
  | .wait now => if s.now ≤ now then some { s with now } else none

end Contracts

/-! ## Contracts inside their approvals -/

namespace Contracts

/-- Each accepted application that is linked to an approval starts inside it. -/
def Inside (s : Contracts) : Prop :=
  ∀ r ∈ s.jobApplications, r.state = .accepted → ∀ id ∈ r.approval,
    ∃ hiringStartAt ∈ r.hiringStartAt, StartsInApproval s.db id hiringStartAt

instance : DecidablePred Inside := fun s =>
  inferInstanceAs (Decidable (∀ r ∈ s.jobApplications, _ → ∀ id ∈ r.approval, ∃ h ∈ r.hiringStartAt, _))

/-- The hiring dates of the other contracts of the approval. -/
def otherHirings (s : Contracts) (pk id : Nat) : List Int :=
  (s.jobApplications.filter fun r => r.pk ≠ pk && r.state = .accepted && r.approval = some id).filterMap
    JobApplication.hiringStartAt

/-- What the database guarantees. -/
structure WellFormed (s : Contracts) : Prop where
  coherent : ∀ r ∈ s.jobApplications, r.Coherent
  foreignKeys : s.db.ForeignKeys
  distinct : (s.jobApplications.map JobApplication.pk).Nodup

/-- The condition on a step: the edited application is accepted, or keeps its dates; an approval whose start is
moved has no other contract outside its new dates; an acceptance does not antedate a contract before an approval
that has started; and the suspension that it ends has no more unused days than those between each contract and
the end of the approval. -/
def KeepsContracts (s : Contracts) : Action → Prop
  | .accept pk ctx values =>
      ∀ r ∈ s.get pk, r.toCompany.isSubjectToIaeRules = true → ∀ hiringStartAt ∈ values.hiringStartAt,
        ∀ e ∈ (s.context ctx).latestApproval r.jobSeeker, e.2.isValid s.now.date = true →
          (hiringStartAt < e.2.startAt → s.now.date < e.2.startAt) ∧
          (s.context ctx).SuspensionEndsBefore r.jobSeeker hiringStartAt ∧
          ∀ o ∈ s.otherHirings pk e.1, o + unusedDays s.db s.now.date e.1 hiringStartAt ≤
            ((s.context ctx).approvalUsed r.jobSeeker hiringStartAt).2
  | .editContractStartDate pk _ form =>
      ∀ r ∈ s.get pk,
        (r.state = .accepted ∨ r.hiringStartAt = some form.hiringStartAt ∧ r.hiringEndAt = form.hiringEndAt) ∧
        ∀ e ∈ s.approval r, canPostponeStartDate s.now.date e.2 = true → ∀ o ∈ s.otherHirings pk e.1,
          form.hiringStartAt ≤ o ∧ o ≤ Approval.defaultEndDate form.hiringStartAt
  | _ => True

/-- A post to `edit_contract_start_date` changes the hiring dates of accepted applications only. -/
def EditsAccepted (s : Contracts) : Action → Prop
  | .editContractStartDate pk employer form =>
      ∀ s' ∈ s.editContractStartDate pk employer form, ∀ r ∈ s.jobApplications, ∀ r' ∈ s'.get r.pk,
        r'.hiringStartAt ≠ r.hiringStartAt ∨ r'.hiringEndAt ≠ r.hiringEndAt → r.state = .accepted
  | _ => True

instance (s : Contracts) : DecidablePred s.KeepsContracts
  | .accept _ _ _ => inferInstanceAs (Decidable (∀ _ ∈ _, _ → ∀ _ ∈ _, ∀ _ ∈ _, _ → _ ∧ _ ∧ ∀ _ ∈ _, _))
  | .editContractStartDate _ _ _ => inferInstanceAs (Decidable (∀ _ ∈ _, _ ∧ ∀ _ ∈ _, _ → ∀ _ ∈ _, _))
  | .cancel _ _ => .isTrue trivial
  | .wait _ => .isTrue trivial

instance (s : Contracts) : DecidablePred s.EditsAccepted
  | .editContractStartDate _ _ _ => inferInstanceAs (Decidable (∀ _ ∈ _, ∀ _ ∈ _, ∀ _ ∈ _, _ → _))
  | .accept _ _ _ => .isTrue trivial
  | .cancel _ _ => .isTrue trivial
  | .wait _ => .isTrue trivial

end Contracts

end Itou.JobApplications
