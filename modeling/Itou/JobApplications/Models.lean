import Itou.Lib.Dates
import Itou.Users

/-!
# Job applications

A row of `job_applications_jobapplication` with the constraints of its table, and `JobApplication.clean`,
which only forms run.
-/

namespace Itou.JobApplications

open Itou.Lib

/-! ## Choices -/

/-- `JobApplicationState`. -/
inductive JobApplicationState where
  | new
  | processing
  | postponed
  | priorToHire
  | accepted
  | refused
  | cancelled
  | obsolete
  | pool
  deriving DecidableEq

/-- `SenderKind`. -/
inductive SenderKind where
  | jobSeeker
  | prescriber
  | employer
  deriving DecidableEq

/-- `Origin`. -/
inductive Origin where
  | default
  | peApproval
  | aiStock
  | admin
  deriving DecidableEq

/-- `RefusalReason`. -/
inductive RefusalReason where
  | didNotCome
  | didNotComeToInterview
  | hiredElsewhere
  | training
  | nonEligible
  | notMobile
  | notInterested
  | lackingSkills
  | incompatible
  | preventObjectives
  | noPosition
  | duplicate
  | auto
  | other
  | approvalExpirationTooClose
  | unavailable
  | eligibilityDoubt
  | deactivation
  | poorlyInformed
  deriving DecidableEq

/-- `ContractType`. -/
inductive ContractType where
  | permanent
  | permanentI
  | fixedTerm
  | fixedTermUsage
  | fixedTermI
  | fixedTermIPhc
  | fixedTermICvg
  | fixedTermTremplin
  | apprenticeship
  | professionalTraining
  | temporary
  | businessCreation
  | other
  deriving DecidableEq

/-- `QualificationType`. -/
inductive QualificationType where
  | stateDiploma
  | cqp
  | ccn
  deriving DecidableEq

/-- `QualificationLevel`. -/
inductive QualificationLevel where
  | level3
  | level4
  | level5
  | notRelevant
  deriving DecidableEq

/-- `APPROVAL_DELIVERY_MODE_CHOICES`. -/
inductive ApprovalDeliveryMode where
  | automatic
  | manual
  deriving DecidableEq

/-! ## Rows -/

/-- `ACCEPTED_ONLY_FIELDS`, with their defaults. -/
structure AcceptedOnlyFields where
  eligibilityDiagnosis : Option Nat := none
  geiqEligibilityDiagnosis : Option Nat := none
  approval : Option Nat := none
  approvalDeliveryMode : Option ApprovalDeliveryMode := none
  approvalNumberSentByEmail : Bool := false
  approvalNumberSentAt : Option DateTime := none
  approvalManuallyDeliveredBy : Option Nat := none
  approvalManuallyRefusedBy : Option Nat := none
  approvalManuallyRefusedAt : Option DateTime := none
  deriving DecidableEq

/-- The fields of the contract that only a GEIQ fills in, with their defaults. -/
structure ContractFields where
  contractType : Option ContractType := none
  contractTypeDetails : String := ""
  nbHoursPerWeek : Option Nat := none
  invertedVaeContract : Option Bool := none
  deriving DecidableEq

/-- A row of `job_applications_jobapplication`. A text field that is left blank is `none` or `""`. -/
structure JobApplication extends AcceptedOnlyFields, ContractFields where
  pk : Nat
  jobSeeker : User
  sender : Option User
  senderKind : SenderKind
  senderCompany : Option Nat
  senderPrescriberOrganization : Option PrescriberOrganization
  toCompany : Company
  origin : Origin := .default
  createdAt : DateTime
  updatedAt : DateTime
  state : JobApplicationState := .new
  archivedAt : Option DateTime := none
  archivedBy : Option Nat := none
  processedAt : Option DateTime := none
  answer : String := ""
  answerToPrescriber : String := ""
  refusalReason : Option RefusalReason := none
  refusalReasonSharedWithJobSeeker : Bool := false
  hiringStartAt : Option Int := none
  hiringEndAt : Option Int := none
  qualificationType : Option QualificationType := none
  qualificationLevel : Option QualificationLevel := none
  transferredAt : Option DateTime := none
  transferredBy : Option Nat := none
  transferredFrom : Option Nat := none
  deriving DecidableEq

/-! ## Constraints -/

/-- `JobApplicationWorkflow.JOB_APPLICATION_PROCESSED_STATES`. -/
def processedStates : List JobApplicationState := [.accepted, .refused, .cancelled, .obsolete]

namespace JobApplication

variable (r : JobApplication)

/-- A comparison with a number of hours that is null is unknown, which a check constraint lets through. -/
def geiqFieldsCoherence : Bool :=
  let hours := r.nbHoursPerWeek.all (0 < ·)
  ((r.contractType = some .professionalTraining || r.contractType = some .apprenticeship) &&
      r.contractTypeDetails = "" && hours) ||
    (r.contractType = some .other && hours && r.contractTypeDetails ≠ "") ||
    (r.contractType = none && r.contractTypeDetails = "" && r.nbHoursPerWeek = none)

def diagnosesCoherence : Bool :=
  !(r.eligibilityDiagnosis.isSome && r.geiqEligibilityDiagnosis.isSome)

def qualificationCoherence : Bool :=
  !(r.qualificationLevel = some .notRelevant && r.qualificationType = some .stateDiploma)

def processedCoherence : Bool :=
  if r.state ∈ processedStates then r.processedAt.isSome else r.processedAt.isNone

def archivedStatus : Bool :=
  !((r.state = .accepted || r.state = .priorToHire) && r.archivedAt.isSome)

def archivedByNoArchivedAt : Bool := !(r.archivedAt.isNone && r.archivedBy.isSome)

def jobSeekerSenderCoherence : Bool :=
  r.senderKind ≠ .jobSeeker || r.sender.all fun sender => r.jobSeeker.pk = sender.pk

def employerSenderCoherence : Bool :=
  r.senderKind ≠ .employer || (r.senderCompany.isSome && r.senderPrescriberOrganization.isNone)

def prescriberSenderCoherence : Bool := r.senderKind ≠ .prescriber || r.senderCompany.isNone

def acceptedOnlyFields : Bool := r.state = .accepted || r.toAcceptedOnlyFields = {}

/-- `JobApplication.Meta.constraints`, under their names in the database. -/
def constraints : List (String × Bool) :=
  [("geiq_fields_coherence", r.geiqFieldsCoherence),
   ("diagnoses_coherence", r.diagnosesCoherence),
   ("qualification_coherence", r.qualificationCoherence),
   ("processed_coherence", r.processedCoherence),
   ("archived_status", r.archivedStatus),
   ("archived_by__no_archived_at", r.archivedByNoArchivedAt),
   ("job_seeker_sender_coherence", r.jobSeekerSenderCoherence),
   ("employer_sender_coherence", r.employerSenderCoherence),
   ("prescriber_sender_coherence", r.prescriberSenderCoherence),
   ("accepted_only_fields", r.acceptedOnlyFields)]

/-- The first constraint that the row violates. -/
def violation : Option String := (r.constraints.find? fun c => !c.2).map Prod.fst

/-- The row satisfies the constraints of its table. -/
def Coherent : Prop := ∀ c ∈ r.constraints, c.2 = true

instance : Decidable r.Coherent := inferInstanceAs (Decidable (∀ c ∈ r.constraints, c.2 = true))

/-- `JobApplication.clean`. -/
def clean : Except String Unit := do
  if r.jobSeeker.kind ≠ .jobSeeker then
    throw "Impossible de candidater pour cet utilisateur, celui-ci n'est pas un compte candidat"
  if r.toCompany.kind ≠ .geiq then
    if r.contractType.isSome then
      throw "Le type de contrat ne peut être saisi que pour un GEIQ"
    if r.contractTypeDetails ≠ "" then
      throw "Les précisions sur le type de contrat ne peuvent être saisies que pour un GEIQ"
    if r.nbHoursPerWeek.any (· ≠ 0) then
      throw "Le nombre d'heures par semaine ne peut être saisi que pour un GEIQ"
    if r.invertedVaeContract.isSome then
      throw "Un contrat associé à une VAE inversée n'est possible que pour les GEIQ"
  if let some sender := r.sender then
    if !((sender.isJobSeeker && r.senderKind = .jobSeeker) ||
        (sender.isProfessional && r.senderKind ≠ .jobSeeker)) then
      throw "Le type de l'émetteur de la candidature ne correspond pas au type de l'utilisateur émetteur"

/-! ## Facts about the constraints -/

theorem violation_eq_none_iff : r.violation = none ↔ r.Coherent := by
  simp only [violation, Coherent, Option.map_eq_none_iff, List.find?_eq_none]
  exact forall₂_congr fun c _ => by simp

end JobApplication

end Itou.JobApplications
