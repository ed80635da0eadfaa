import Itou.Approvals.Hiring
import Itou.JobApplications.Workflow
import Itou.Lib.Outcomes
import Itou.Lib.Runs

/-!
# Accepting a job application, and the calls

The form that an employer fills in and the body of the transition `accept`: it links the diagnosis, finds or
creates the approval and ends its suspension.

The calls that the code makes on a job application, and the system that they are the steps of: one row, from
its creation on.
-/

namespace Itou.JobApplications

open Itou.Lib
open Itou.Approvals (Approval Db)

/-! ## What it reads -/

/-- `LackOfPoleEmploiId`. -/
inductive LackOfPoleEmploiId where
  | reasonForgotten
  | reasonNotRegistered
  deriving DecidableEq

/-- What `accept` reads of the profile of the job seeker. -/
structure JobSeekerProfile where
  nir : String
  poleEmploiId : String
  lackOfPoleEmploiIdReason : Option LackOfPoleEmploiId
  deriving DecidableEq

/-- The moment of an acceptance: its user, the tables of the approvals, and the answers of the queries on
diagnoses. `waitingPeriodEnd` adds two years to a date. -/
structure AcceptContext where
  user : User
  now : DateTime
  db : Db
  profile : JobSeekerProfile
  /-- `EligibilityDiagnosis.objects.last_considered_valid(job_seeker, for_siae=to_company)`. -/
  lastConsideredValid : Option Nat
  /-- `EligibilityDiagnosis.objects.for_job_seeker_and_siae(job_seeker, siae=to_company)`. -/
  diagnosesForSiae : List Nat
  /-- `GEIQEligibilityDiagnosis.objects.valid_diagnoses_for(job_seeker, to_company).first()`. -/
  validGeiqDiagnosis : Option Nat
  /-- `job_seeker.has_valid_diagnosis()`. -/
  hasValidDiagnosis : Bool
  /-- `Approval.get_next_number()`. -/
  nextNumber : String
  waitingPeriodEnd : Int → Int

def AcceptContext.today (ctx : AcceptContext) : Int := ctx.now.date

/-- `job_seeker.latest_approval`. -/
def AcceptContext.latestApproval (ctx : AcceptContext) (jobSeeker : User) : Option (Nat × Approval) :=
  ctx.db.latestApproval ctx.today ctx.waitingPeriodEnd jobSeeker

/-- The key of the next row of `approvals_approval`. -/
def AcceptContext.nextPk (ctx : AcceptContext) : Nat := ctx.db.approvals.keys.foldr max 0 + 1

def errorMissingHiringStartAt := "Cannot accept a job application with no hiring start date."
def errorHiresAfterPassInvalid := "Cannot use an approval which ends before the hiring start date."
def errorWrongEligibilityDiagnosis := "Cannot use the eligibility diagnosis"
def errorMissingEligibilityDiagnostic := "Cannot create an approval without eligibility diagnosis here."
def errorWaitingPeriod := "Job seeker has an approval in waiting period."

/-! ## The body -/

namespace JobApplication

/-- Link the eligibility diagnosis of the job seeker. -/
def linkEligibilityDiagnosis (ctx : AcceptContext) (r : JobApplication) :
    Except TransitionError JobApplication :=
  if r.toCompany.isSubjectToIaeRules then
    match ctx.user.kind, r.eligibilityDiagnosis with
    | .itouStaff, some diagnosis =>
        if diagnosis ∈ ctx.diagnosesForSiae then .ok r
        else .error (.abortTransition errorWrongEligibilityDiagnosis)
    | _, _ => .ok { r with eligibilityDiagnosis := ctx.lastConsideredValid }
  else .ok r

/-- Link the GEIQ eligibility diagnosis of the job seeker. -/
def linkGeiqEligibilityDiagnosis (ctx : AcceptContext) (r : JobApplication) : JobApplication :=
  if r.toCompany.kind = .geiq then { r with geiqEligibilityDiagnosis := ctx.validGeiqDiagnosis } else r

/-- `job_seeker.new_approval_blocked_by_waiting_period`, when the latest approval is not valid any more. -/
def newApprovalBlockedByWaitingPeriod (ctx : AcceptContext) (r : JobApplication) : Bool :=
  r.toCompany.isSubjectToIaeRules &&
    !(r.senderPrescriberOrganization.any PrescriberOrganization.isAuthorized || ctx.hasValidDiagnosis)

/-- Reuse the latest approval, which is valid. -/
def reuseApproval (ctx : AcceptContext) (hiringStartAt : Int) (id : Nat) (a : Approval) (r : JobApplication) :
    Except TransitionError (JobApplication × Db) :=
  if a.endAt < hiringStartAt then .error (.abortTransition errorHiresAfterPassInvalid)
  else
    .ok ({ r with approval := some id },
      if hiringStartAt < a.startAt then ctx.db.updateStartDate ctx.now id a hiringStartAt else ctx.db)

/-- Create a new approval, or ask for a manual delivery. -/
def createApproval (ctx : AcceptContext) (hiringStartAt : Int) (r : JobApplication) :
    Except TransitionError (JobApplication × Db) :=
  if ctx.profile.nir ≠ "" || ctx.profile.poleEmploiId ≠ "" ||
      ctx.profile.lackOfPoleEmploiIdReason = some .reasonNotRegistered then
    if r.eligibilityDiagnosis.isNone then .error (.abortTransition errorMissingEligibilityDiagnostic)
    -- `Approval.clean`
    else if (ctx.db.approvalsOf r.jobSeeker.pk).any fun e => e.2.isValid ctx.today then
      .error (.validationError "Un agrément dans le futur ou en cours de validité existe déjà")
    else
      let a : Approval :=
        { number := ctx.nextNumber
          user := r.jobSeeker.pk
          startAt := hiringStartAt
          endAt := Approval.defaultEndDate hiringStartAt
          createdAt := ctx.now
          updatedAt := ctx.now }
      .ok ({ r with approval := some ctx.nextPk },
        { ctx.db with approvals := ctx.db.approvals.insert ctx.nextPk a })
  else .ok ({ r with approvalDeliveryMode := some .manual }, ctx.db)

/-- The approval issuance logic. -/
def issueApproval (ctx : AcceptContext) (hiringStartAt : Int) (r : JobApplication) :
    Except TransitionError (JobApplication × Db) :=
  if r.toCompany.isSubjectToIaeRules then
    match ctx.latestApproval r.jobSeeker with
    | some (id, a) =>
        if a.isValid ctx.today then r.reuseApproval ctx hiringStartAt id a
        else if r.newApprovalBlockedByWaitingPeriod ctx then .error (.abortTransition errorWaitingPeriod)
        else r.createApproval ctx hiringStartAt
    | none => r.createApproval ctx hiringStartAt
  else .ok (r, ctx.db)

/-- Mark the approval as delivered, and end its suspension. -/
def deliverApproval (ctx : AcceptContext) (hiringStartAt : Int) (r : JobApplication) (db : Db) :
    Except TransitionError (JobApplication × Db) :=
  match r.approval with
  | none => .ok (r, db)
  | some id =>
      match db.unsuspend ctx.now id hiringStartAt with
      | none => .error .refusedStatement
      | some db =>
          .ok ({ r with
            approvalNumberSentByEmail := true
            approvalNumberSentAt := some ctx.now
            approvalDeliveryMode := some .automatic }, db)

/-- The body of `accept`. -/
def acceptBody (ctx : AcceptContext) (r : JobApplication) : Except TransitionError (JobApplication × Db) :=
  match r.hiringStartAt with
  | none => .error (.abortTransition errorMissingHiringStartAt)
  | some hiringStartAt => do
      let r ← r.linkEligibilityDiagnosis ctx
      let r := r.linkGeiqEligibilityDiagnosis ctx
      let (r, db) ← r.issueApproval ctx hiringStartAt
      r.deliverApproval ctx hiringStartAt db

/-- The transition `accept`. -/
def accept (ctx : AcceptContext) (r : JobApplication) : Except TransitionError (JobApplication × Db) :=
  perform ctx.now .accept (acceptBody ctx) r

end JobApplication

/-! ## The form -/

/-- What an employer fills in. Only a GEIQ sees the contract and the qualification. -/
structure AcceptForm where
  hiringStartAt : Int
  hiringEndAt : Option Int
  answer : String
  contract : ContractFields
  qualificationType : Option QualificationType
  qualificationLevel : Option QualificationLevel
  deriving DecidableEq

def errorStartInPast := "Il n'est pas possible d'antidater un contrat. Indiquez une date dans le futur."
def errorStartInFarFuture :=
  "Il n'est pas possible de faire commencer un contrat aussi loin dans le futur. Indiquez une date plus proche."
def errorHiresAfterApprovalExpires := "Le contrat doit débuter sur la période couverte par le PASS IAE."
def errorEndIsBeforeStart := "La date de fin du contrat doit être postérieure à la date de début."
def errorRequired := "Ce champ est obligatoire."

namespace AcceptForm

/-- `clean_hiring_start_at`. `farFuture` adds six months to a date. -/
def cleanHiringStartAt (form : AcceptForm) (ctx : AcceptContext) (farFuture : Int → Int)
    (r : JobApplication) : Except String Unit :=
  if form.hiringStartAt < ctx.today && r.toCompany.kind ≠ .geiq then throw errorStartInPast
  else if farFuture ctx.today < form.hiringStartAt then throw errorStartInFarFuture
  else if r.toCompany.isSubjectToIaeRules &&
      (ctx.latestApproval r.jobSeeker).any fun e => e.2.isValid ctx.today && e.2.endAt < form.hiringStartAt then
    throw errorHiresAfterApprovalExpires
  else pure ()

/-- The fields that all companies fill in. -/
def fillHiring (form : AcceptForm) (r : JobApplication) : JobApplication :=
  { r with
    hiringStartAt := some form.hiringStartAt
    hiringEndAt := form.hiringEndAt
    answer := form.answer }

/-- The values of the form on the application. -/
def fill (form : AcceptForm) (r : JobApplication) : JobApplication :=
  if r.toCompany.kind = .geiq then
    { form.fillHiring r with
      toContractFields := form.contract
      qualificationType := form.qualificationType
      qualificationLevel := form.qualificationLevel }
  else form.fillHiring r

/-- The fields that are required for a GEIQ. -/
def cleanRequired (form : AcceptForm) (r : JobApplication) : Except String Unit :=
  if r.toCompany.kind = .geiq && (form.contract.contractType.isNone || form.contract.nbHoursPerWeek.isNone ||
      form.qualificationType.isNone || form.qualificationLevel.isNone) then throw errorRequired
  else pure ()

/-- `clean`, without the fields of the job description. -/
def clean (form : AcceptForm) (r : JobApplication) : Except String Unit :=
  if form.hiringEndAt.any (· < form.hiringStartAt) then throw errorEndIsBeforeStart
  else if r.toCompany.kind = .geiq && form.contract.contractType = some .other &&
      form.contract.contractTypeDetails = "" then
    throw "Les précisions sont nécessaires pour ce type de contrat"
  else pure ()

/-- The constraints on the fields of the form, with their `violation_error_message`. -/
def validateConstraints (r : JobApplication) : Except String Unit :=
  if r.toCompany.kind ≠ .geiq then .ok ()
  else if !r.geiqFieldsCoherence then throw "Incohérence dans les champs concernant le contrat GEIQ"
  else if !r.qualificationCoherence then
    throw "Incohérence dans les champs concernant la qualification pour le contrat GEIQ"
  else pure ()

/-- The application with the values of a valid form. -/
def save (form : AcceptForm) (ctx : AcceptContext) (farFuture : Int → Int) (r : JobApplication) :
    Except String JobApplication := do
  form.cleanHiringStartAt ctx farFuture r
  form.cleanRequired r
  form.clean r
  (form.fill r).clean
  validateConstraints (form.fill r)
  return form.fill r

end AcceptForm

/-! ## The approval of an acceptance -/

/-- The contract starts inside the approval `id`. -/
def StartsInApproval (db : Db) (id : Nat) (hiringStartAt : Int) : Prop :=
  ∃ a ∈ db.approvals.lookup id, a.startAt ≤ hiringStartAt ∧ hiringStartAt ≤ a.endAt

instance (db : Db) (id : Nat) (hiringStartAt : Int) : Decidable (StartsInApproval db id hiringStartAt) :=
  inferInstanceAs (Decidable (∃ a ∈ db.approvals.lookup id, _ ∧ _))

/-- The approval that an acceptance uses, with its end date before a suspension is ended: the latest approval
when it is valid, postponed if it starts after the hiring, or else a new one. -/
def AcceptContext.approvalUsed (ctx : AcceptContext) (jobSeeker : User) (hiringStartAt : Int) : Nat × Int :=
  match ctx.latestApproval jobSeeker with
  | some (id, a) =>
      if a.isValid ctx.today then
        (id, if hiringStartAt < a.startAt then Approval.defaultEndDate hiringStartAt else a.endAt)
      else (ctx.nextPk, Approval.defaultEndDate hiringStartAt)
  | none => (ctx.nextPk, Approval.defaultEndDate hiringStartAt)

/-- The suspension that the acceptance ends goes on to a day before the last day of the approval. One that
starts on the hiring date, which is deleted, may go on to the last day. -/
def AcceptContext.SuspensionEndsBefore (ctx : AcceptContext) (jobSeeker : User) (hiringStartAt : Int) : Prop :=
  ∀ e ∈ ctx.db.suspensionToEnd ctx.today (ctx.approvalUsed jobSeeker hiringStartAt).1,
    if e.2.startAt = hiringStartAt then e.2.endAt ≤ (ctx.approvalUsed jobSeeker hiringStartAt).2
    else e.2.endAt < (ctx.approvalUsed jobSeeker hiringStartAt).2

instance (ctx : AcceptContext) (jobSeeker : User) (hiringStartAt : Int) :
    Decidable (ctx.SuspensionEndsBefore jobSeeker hiringStartAt) :=
  inferInstanceAs (Decidable (∀ e ∈ ctx.db.suspensionToEnd _ _, ite _ _ _))

/-- The days of the suspension that an acceptance ends which are not used. -/
def unusedDays (db : Db) (today : Int) (id : Nat) (hiringStartAt : Int) : Int :=
  match db.suspensionToEnd today id with
  | none => 0
  | some (_, s) =>
      if s.startAt = hiringStartAt then s.endAt - s.startAt else s.endAt - (hiringStartAt - 1)

/-! ## Calls -/

/-- A call of a transition, with the fields that a view sets before it. -/
inductive Call where
  | process
  | postpone (answer : String)
  | accept (ctx : AcceptContext) (form : Option (AcceptForm × (Int → Int)))
  | addToPool (answer : String)
  | moveToPriorToHire
  | cancelPriorToHire
  | refuse (reason : Option RefusalReason) (sharedWithJobSeeker : Bool) (answer answerToPrescriber : String)
  | cancel (employeeRecordSent : Bool)
  | renderObsolete
  | transfer (request : JobApplication.TransferRequest)
  | externalTransfer
  | reset

/-- What can happen to the row. -/
inductive Action where
  | call (c : Call)
  | archive (user : Nat)
  | unarchive
  | archiveAutomatically

namespace JobApplication

/-- The values of the form, if there is one. -/
def fillAcceptForm (ctx : AcceptContext) (r : JobApplication) :
    Option (AcceptForm × (Int → Int)) → Except TransitionError JobApplication
  | none => .ok r
  | some (form, farFuture) =>
      match form.save ctx farFuture r with
      | .error message => .error (.validationError message)
      | .ok r => .ok r

/-- Make the call at the time `now`. -/
def attempt (now : DateTime) (r : JobApplication) : Call → Except TransitionError JobApplication
  | .process => (perform now .process notifyBody r).map Prod.fst
  | .postpone answer => (perform now .postpone notifyBody { r with answer }).map Prod.fst
  | .accept ctx form =>
      match r.fillAcceptForm { ctx with now } form with
      | .error e => .error e
      | .ok r => (r.accept { ctx with now }).map Prod.fst
  | .addToPool answer => (perform now .addToPool notifyBody { r with answer }).map Prod.fst
  | .moveToPriorToHire => (perform now .moveToPriorToHire notifyBody r).map Prod.fst
  | .cancelPriorToHire => (perform now .cancelPriorToHire notifyBody r).map Prod.fst
  | .refuse refusalReason refusalReasonSharedWithJobSeeker answer answerToPrescriber =>
      (perform now .refuse notifyBody
        { r with refusalReason, refusalReasonSharedWithJobSeeker, answer, answerToPrescriber }).map Prod.fst
  | .cancel employeeRecordSent => (perform now .cancel (cancelBody employeeRecordSent) r).map Prod.fst
  | .renderObsolete => (perform now .renderObsolete notifyBody r).map Prod.fst
  | .transfer request => (perform now .transfer (transferBody now request) r).map Prod.fst
  | .externalTransfer => (perform now .externalTransfer notifyBody r).map Prod.fst
  | .reset => (perform now .reset notifyBody r).map Prod.fst

/-- One step: a call that succeeds, or an archiving. -/
def step (r : JobApplication) (label : DateTime × Action) : Option JobApplication :=
  match label.2 with
  | .call c => (r.attempt label.1 c).toOption
  | .archive user => r.archive label.1 user
  | .unarchive => r.unarchiveManually
  | .archiveAutomatically => r.archiveAutomatically label.1

/-- A row that the code has just created: the state is `new`, the fields that the workflow manages have their
defaults, and the database has taken it. -/
structure IsNew (r : JobApplication) : Prop where
  state : r.state = .new
  accepted : r.toAcceptedOnlyFields = {}
  contract : r.toContractFields = {}
  archivedAt : r.archivedAt = none
  archivedBy : r.archivedBy = none
  processedAt : r.processedAt = none
  coherent : r.Coherent

end JobApplication

end Itou.JobApplications
