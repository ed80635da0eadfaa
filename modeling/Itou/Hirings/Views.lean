import Itou.Eligibility.Iae
import Itou.JobApplications.Contracts

/-!
# Self-prescription and its sanction

The confirmation of the accept wizard and that of the hire wizard, the eligibility views of employers and prescribers,
and the sanction that takes self-prescription away from a company. The contracts are those of the job applications.
-/

namespace Itou.Hirings

open Itou.Lib
open Itou.Approvals (Approval Db)
open Itou.Eligibility
open Itou.JobApplications

/-- `InclusiveDateRange`. There may be no upper bound. -/
structure InclusiveDateRange where
  lower : Int
  upper : Option Int
  deriving DecidableEq

def InclusiveDateRange.contains (range : InclusiveDateRange) (day : Int) : Bool :=
  range.lower ≤ day && range.upper.all (day ≤ ·)

/-- A row of `siae_evaluations_sanctions`, with the company of its evaluation. -/
structure Sanctions where
  siae : Nat
  suspensionDates : Option InclusiveDateRange
  deriving DecidableEq

structure State where
  contracts : Contracts
  diagnoses : List EligibilityDiagnosis
  sanctions : List Sanctions

/-- What the middleware gives of a request: the user, `current_organization` and the companies that the user is an active
member of. -/
structure Request where
  user : Nat
  currentOrganization : Organization
  memberships : List Nat

/-- `request.from_employer`, with the company. -/
def Request.fromEmployer (request : Request) : Option Company :=
  match request.currentOrganization with
  | .company company => some company
  | _ => none

/-- `request.from_authorized_prescriber`, with the organization. -/
def Request.fromAuthorizedPrescriber (request : Request) : Option PrescriberOrganization :=
  match request.currentOrganization with
  | .prescriber organization => if organization.isAuthorized then some organization else none
  | _ => none

/-- What a request finds elsewhere, the profile of the job seeker once its forms are saved, and the calendar. -/
structure Facts where
  profile : JobSeekerProfile
  validGeiqDiagnosis : Option Nat
  nextNumber : String
  waitingPeriodEnd : Int → Int
  /-- The day that is `n` months after another. -/
  addMonths : Int → Int → Int

namespace State

variable (s : State)

def today : Int := s.contracts.now.date

/-- `get_active_suspension_dates`: the range that ends last. -/
def activeSuspensionDates (siae : Nat) : Option InclusiveDateRange :=
  let ranges := ((s.sanctions.filter fun sanctions => sanctions.siae = siae).filterMap Sanctions.suspensionDates).filter
    fun range => range.contains s.today
  match ranges.find? fun range => range.upper.isNone with
  | some range => some range
  | none => (orderByDesc (fun range => range.upper.getD range.lower) ranges).head?

/-- `get_active_suspension_text_with_dates` is not empty. -/
def isSuspended (siae : Nat) : Bool := (s.activeSuspensionDates siae).isSome

/-! ## Eligibility -/

/-- `job_seeker.has_valid_approval`. -/
def hasValidApproval (facts : Facts) (jobSeeker : User) : Bool :=
  (s.contracts.db.latestApproval s.today facts.waitingPeriodEnd jobSeeker).any fun e => e.2.isValid s.today

/-- `EligibilityDiagnosis.objects.last_considered_valid`. -/
def lastConsideredValid (facts : Facts) (jobSeeker : User) (siae : Option Nat) : Option EligibilityDiagnosis :=
  Eligibility.lastConsideredValid s.diagnoses s.today (s.hasValidApproval facts jobSeeker) jobSeeker.pk siae

/-- The `eligibility_diagnosis` of the views. -/
def eligibilityDiagnosis (facts : Facts) (company : Company) (jobSeeker : User) : Option EligibilityDiagnosis :=
  if company.isSubjectToIaeRules then s.lastConsideredValid facts jobSeeker (some company.pk) else none

/-- `is_iae_eligibility_diagnosis_needed`. -/
def isIaeEligibilityDiagnosisNeeded (facts : Facts) (company : Company) (jobSeeker : User) : Bool :=
  company.isSubjectToIaeRules && (s.eligibilityDiagnosis facts company jobSeeker).isNone &&
    !s.hasValidApproval facts jobSeeker

/-- What `accept` reads. Its user is a member of the company. -/
def context (request : Request) (facts : Facts) (company : Company) (jobSeeker : User) : AcceptContext where
  user := { pk := request.user, kind := .professional }
  now := s.contracts.now
  db := s.contracts.db
  profile := facts.profile
  lastConsideredValid := (s.lastConsideredValid facts jobSeeker (some company.pk)).map EligibilityDiagnosis.pk
  diagnosesForSiae := (forJobSeekerAndSiae s.diagnoses jobSeeker.pk (some company.pk)).map EligibilityDiagnosis.pk
  validGeiqDiagnosis := facts.validGeiqDiagnosis
  hasValidDiagnosis := s.hasValidApproval facts jobSeeker || (s.lastConsideredValid facts jobSeeker none).isSome
  nextNumber := facts.nextNumber
  waitingPeriodEnd := facts.waitingPeriodEnd

/-- `new_approval_blocked_by_waiting_period`. -/
def isBlockedByWaitingPeriod (ctx : AcceptContext) (r : JobApplication) : Bool :=
  ((ctx.latestApproval r.jobSeeker).any fun e => !e.2.isValid ctx.today) && r.newApprovalBlockedByWaitingPeriod ctx

/-! ## The views -/

/-- Where a view of a wizard sends a request, or what it refuses it for. -/
inductive Answer where
  | proceed
  | toEligibility
  | toConfirmation
  | notFound
  | suspended
  deriving DecidableEq

section

variable (facts : Facts) (company : Company) (jobSeeker : User)

/-- `BaseIAEEligibilityViewForEmployer.dispatch`. -/
def eligibilityForEmployer : Answer :=
  if !company.isSubjectToIaeRules then .notFound else if s.isSuspended company.pk then .suspended else .proceed

/-- `ConfirmationForAcceptView.dispatch`. -/
def confirmationForAccept : Answer :=
  if s.isIaeEligibilityDiagnosisNeeded facts company jobSeeker then .toEligibility else .proceed

/-- `IAEEligibilityForAcceptView.dispatch`. -/
def eligibilityForAccept : Answer :=
  if company.isSubjectToIaeRules && !s.isIaeEligibilityDiagnosisNeeded facts company jobSeeker then .toConfirmation
  else s.eligibilityForEmployer company

/-- `HireWizardMixin.dispatch`, before the view `next`. -/
def hireWizard (next : Answer) : Answer :=
  if (s.isIaeEligibilityDiagnosisNeeded facts company jobSeeker ||
      (s.eligibilityDiagnosis facts company jobSeeker).any fun d => !d.isFromPrescriber) &&
    s.isSuspended company.pk then .suspended
  else next

/-- `ConfirmationForHireView.dispatch`. -/
def confirmationForHire : Answer :=
  s.hireWizard facts company jobSeeker
    (if s.isIaeEligibilityDiagnosisNeeded facts company jobSeeker then .toEligibility else .proceed)

/-- `IAEEligibilityForHireView.dispatch`. -/
def eligibilityForHire : Answer :=
  if company.isSubjectToIaeRules && !s.isIaeEligibilityDiagnosisNeeded facts company jobSeeker then .toConfirmation
  else s.hireWizard facts company jobSeeker (s.eligibilityForEmployer company)

end

/-- `AcceptWizardMixin.setup`, for a job application. -/
def acceptWizardSetup (request : Request) (facts : Facts) (pk : Nat) : Option JobApplication := do
  let company ← request.fromEmployer
  let r ← (s.contracts.get pk).filter fun r => r.toCompany.pk ∈ request.memberships && r.toCompany = company
  if isBlockedByWaitingPeriod (s.context request facts r.toCompany r.jobSeeker) r then none else some r

/-- The job application that the hire wizard creates. -/
def newJobApplication (request : Request) (pk : Nat) (company : Company) (jobSeeker : User) : JobApplication where
  pk := pk
  jobSeeker := jobSeeker
  sender := some { pk := request.user, kind := .professional }
  senderKind := .employer
  senderCompany := some company.pk
  senderPrescriberOrganization := none
  toCompany := company
  createdAt := s.contracts.now
  updatedAt := s.contracts.now

/-- `HireWizardMixin.setup`, with `_check_job_seeker_approval`. -/
def hireWizardSetup (request : Request) (facts : Facts) (jobSeeker : User) : Option Company := do
  let company ← request.fromEmployer
  let ctx := s.context request facts company jobSeeker
  if !jobSeeker.isJobSeeker || isBlockedByWaitingPeriod ctx (s.newJobApplication request 0 company jobSeeker) then none
  else if (ctx.latestApproval jobSeeker).any fun e => e.2.isValid s.today &&
      (s.contracts.db.lastInProgressSuspension s.today e.1).isSome &&
      (s.contracts.db.suspensionToEnd s.today e.1).isNone then none
  else some company

/-- `BaseConfirmationView.confirm_acceptance`, up to the rows of the other job applications. -/
def confirmAcceptance (ctx : AcceptContext) (form : AcceptForm) (facts : Facts) (creating : Bool) (r : JobApplication) :
    Except TransitionError (JobApplication × Db) := do
  let r ← r.fillAcceptForm ctx (some (form, fun day => facts.addMonths day 6))
  let r ← if creating then (perform ctx.now .process JobApplication.notifyBody r).map Prod.fst else .ok r
  r.accept ctx

/-- `ConfirmationForAcceptView.post`: the job application that is accepted, and the approvals. -/
def acceptConfirmation (request : Request) (facts : Facts) (pk : Nat) (form : AcceptForm) :
    Option (JobApplication × Db) := do
  let r ← s.acceptWizardSetup request facts pk
  if s.confirmationForAccept facts r.toCompany r.jobSeeker = .proceed then
    (confirmAcceptance (s.context request facts r.toCompany r.jobSeeker) form facts false r).toOption
  else none

/-- `ConfirmationForHireView.post`. -/
def hireConfirmation (request : Request) (facts : Facts) (jobSeeker : User) (pk : Nat) (form : AcceptForm) :
    Option (JobApplication × Db) := do
  let company ← s.hireWizardSetup request facts jobSeeker
  if s.confirmationForHire facts company jobSeeker = .proceed then
    (confirmAcceptance (s.context request facts company jobSeeker) form facts true
      (s.newJobApplication request pk company jobSeeker)).toOption
  else none

/-- The tables after an acceptance: the other applications of the job seeker are obsolete. -/
def accepted (pk : Nat) (outcome : JobApplication × Db) : Option State := do
  let others ← (s.contracts.jobApplications.mapM
    (Contracts.renderObsolete s.contracts.now pk outcome.1.jobSeeker)).toOption
  let contracts := { s.contracts with
    db := outcome.2
    jobApplications := outcome.1 :: others.filter fun r => r.pk ≠ pk }
  return { s with contracts }

/-- The key of the next diagnosis. -/
def nextDiagnosis : Nat := (s.diagnoses.map EligibilityDiagnosis.pk).foldr max 0 + 1

/-- `create_diagnosis`. -/
def createDiagnosis (facts : Facts) (jobSeeker : Nat) (author : Author) : State :=
  let d := EligibilityDiagnosis.create (facts.addMonths · 6) s.contracts.now s.nextDiagnosis jobSeeker author
  { s with diagnoses := d :: s.diagnoses }

/-- `update_diagnosis`: the old one expires. -/
def updateDiagnosis (facts : Facts) (old : EligibilityDiagnosis) (author : Author) : State :=
  { s.createDiagnosis facts old.jobSeeker author with
    diagnoses := (s.createDiagnosis facts old.jobSeeker author).diagnoses.map fun d =>
      if d.pk = old.pk then { d with expiresAt := s.today } else d }

/-! ## The system -/

/-- The requests, and anything else that changes the tables: `others` is what it leaves. -/
inductive Action where
  | acceptConfirmation (request : Request) (facts : Facts) (pk : Nat) (form : AcceptForm)
  | hireConfirmation (request : Request) (facts : Facts) (jobSeeker : User) (pk : Nat) (form : AcceptForm)
  | acceptEligibility (request : Request) (facts : Facts) (pk : Nat)
  | hireEligibility (request : Request) (facts : Facts) (jobSeeker : User)
  | prescriberEligibility (request : Request) (facts : Facts) (jobSeeker : User) (shrouded : Bool)
  | others (s : State)

/-- `IAEEligibilityForAcceptView.post`. -/
def acceptEligibility (request : Request) (facts : Facts) (pk : Nat) : Option State := do
  let r ← s.acceptWizardSetup request facts pk
  if s.eligibilityForAccept facts r.toCompany r.jobSeeker = .proceed then
    some (s.createDiagnosis facts r.jobSeeker.pk (.employer r.toCompany.pk))
  else none

/-- `IAEEligibilityForHireView.post`. -/
def hireEligibility (request : Request) (facts : Facts) (jobSeeker : User) : Option State := do
  let company ← s.hireWizardSetup request facts jobSeeker
  if s.eligibilityForHire facts company jobSeeker = .proceed then
    some (s.createDiagnosis facts jobSeeker.pk (.employer company.pk))
  else none

/-- `BaseIAEEligibilityViewForPrescriber.form_valid`. -/
def prescriberEligibility (request : Request) (facts : Facts) (jobSeeker : User) (shrouded : Bool) : Option State := do
  let organization ← request.fromAuthorizedPrescriber
  if s.hasValidApproval facts jobSeeker then none
  else
    match s.lastConsideredValid facts jobSeeker none with
    | none => some (s.createDiagnosis facts jobSeeker.pk (.prescriber organization.pk))
    | some d => if shrouded then none else some (s.updateDiagnosis facts d (.prescriber organization.pk))

/-- What a request changes. `none` when it is refused or fails. -/
def handle : Action → Option State
  | .acceptConfirmation request facts pk form =>
      (s.acceptConfirmation request facts pk form).bind (s.accepted pk)
  | .hireConfirmation request facts jobSeeker pk form =>
      (s.hireConfirmation request facts jobSeeker pk form).bind (s.accepted pk)
  | .acceptEligibility request facts pk => s.acceptEligibility request facts pk
  | .hireEligibility request facts jobSeeker => s.hireEligibility request facts jobSeeker
  | .prescriberEligibility request facts jobSeeker shrouded => s.prescriberEligibility request facts jobSeeker shrouded
  | .others s => some s

/-- One step. A request that is refused changes nothing. -/
def step (s : State) (action : Action) : Option State := some ((s.handle action).getD s)

end State

/-! ## Self-prescription -/

namespace State

variable (s : State) (facts : Facts) (company : Company) (jobSeeker : User)

/-- Where the accept wizard leads: to its eligibility view when a diagnosis is needed. -/
def acceptWizardAnswer : Answer :=
  match s.confirmationForAccept facts company jobSeeker with
  | .toEligibility => s.eligibilityForAccept facts company jobSeeker
  | answer => answer

/-- Where the hire wizard leads. -/
def hireWizardAnswer : Answer :=
  match s.confirmationForHire facts company jobSeeker with
  | .toEligibility => s.eligibilityForHire facts company jobSeeker
  | answer => answer

def SameAnswer : Prop := s.acceptWizardAnswer facts company jobSeeker = s.hireWizardAnswer facts company jobSeeker

/-- The company accepts without a diagnosis of its own while it is sanctioned: the acceptance reuses an approval, or it is
linked to the diagnosis of a prescriber. A company that is no SIAE links no approval. -/
def PrescribedByOthers (r : JobApplication) (outcome : JobApplication × Db) : Prop :=
  s.isSuspended r.toCompany.pk = true →
    (∃ id ∈ outcome.1.approval, id ∈ s.contracts.db.approvals) ∨
    (∃ d ∈ s.diagnoses, outcome.1.eligibilityDiagnosis = some d.pk ∧ d.isFromPrescriber = true) ∨
    r.toCompany.isSubjectToIaeRules = false ∧ outcome.1.approval = r.approval

/-- A sanctioned company cannot self-prescribe, in any of the two wizards. -/
def NoSelfPrescription : Action → Prop
  | .acceptConfirmation request facts pk form => ∀ r ∈ s.acceptWizardSetup request facts pk,
      (∀ outcome ∈ s.acceptConfirmation request facts pk form, s.PrescribedByOthers r outcome) ∧
        s.SameAnswer facts r.toCompany r.jobSeeker
  | .hireConfirmation request facts jobSeeker pk form => ∀ company ∈ s.hireWizardSetup request facts jobSeeker,
      (∀ outcome ∈ s.hireConfirmation request facts jobSeeker pk form,
        s.PrescribedByOthers (s.newJobApplication request pk company jobSeeker) outcome) ∧
        s.SameAnswer facts company jobSeeker
  | _ => True

/-- The diagnoses that count for the company: the valid ones, or all of them during a valid approval. -/
def consideredValid : List EligibilityDiagnosis :=
  Eligibility.consideredValid s.diagnoses s.today (s.hasValidApproval facts jobSeeker) jobSeeker.pk (some company.pk)

/-- When a sanctioned SIAE has a diagnosis of its own that counts, one of a prescriber counts too. -/
def PrescriberFirst : Prop :=
  company.isSubjectToIaeRules = true → s.isSuspended company.pk = true →
    ∀ d ∈ s.consideredValid facts company jobSeeker, d.isFromPrescriber = false →
      ∃ d' ∈ s.consideredValid facts company jobSeeker, d'.isFromPrescriber = true

/-- The condition on the confirmations of both wizards. -/
def HasPrescriber : Action → Prop
  | .acceptConfirmation request facts pk _ =>
      ∀ r ∈ s.acceptWizardSetup request facts pk, s.PrescriberFirst facts r.toCompany r.jobSeeker
  | .hireConfirmation request facts jobSeeker _ _ =>
      ∀ company ∈ s.hireWizardSetup request facts jobSeeker, s.PrescriberFirst facts company jobSeeker
  | _ => True

end State

end Itou.Hirings
