import Itou.Lib.Dates
import Itou.Lib.Outcomes

/-!
# GEIQ assessments

A GEIQ selects the contracts for which it asks an allowance and submits its assessment; institutions grant or refuse
each allowance, enter their decision and review. The table of the assessments checks the order of these dates.
-/

namespace Itou.GeiqAssessments

open Itou.Lib

/-- `MIN_DAYS_IN_YEAR_FOR_ALLOWANCE`. -/
def minDaysInYearForAllowance : Nat := 90

/-- `AssessmentState`. -/
inductive AssessmentState where
  | new
  | submitted
  | reviewed
  | finalReviewed
  deriving DecidableEq

inductive AssessmentTransition where
  | submit
  | review
  | finalReview
  | askForInstitutionFix
  | askForGeiqFix
  deriving DecidableEq

inductive AllowanceJustificationReason where
  | otherReferencePeriod
  | supportConsideration
  | other
  deriving DecidableEq

inductive AllowanceRefusalReason where
  | unconfirmedEligibility
  | allowanceAlreadyGranted
  | other
  deriving DecidableEq

/-- How a request fails: a view refuses it, or the code raises. -/
inductive Failure where
  | http404
  | permissionDenied
  | message (text : String)
  | formErrors (errors : List (String × String))
  | integrityError
  | invalidTransitionError
  | attributeError
  deriving DecidableEq

/-- The failures that are not answers of a view. -/
def Failure.Raised : Failure → Prop
  | .http404 | .permissionDenied | .message _ | .formErrors _ => False
  | .integrityError | .invalidTransitionError | .attributeError => True

instance : DecidablePred Failure.Raised
  | .http404 | .permissionDenied | .message _ | .formErrors _ => .isFalse id
  | .integrityError | .invalidTransitionError | .attributeError => .isTrue trivial

/-! ## Rows -/

/-- A contract, with the allowance of its employee. A reason that is not set is the empty string of the source. -/
structure EmployeeContract where
  allowanceAmount : Nat
  nbDaysInCampaignYear : Nat
  allowanceRequested : Bool
  allowanceGranted : Bool
  allowanceRequestJustificationReason : Option AllowanceJustificationReason
  allowanceRequestJustificationDetails : String
  allowanceRefusalReason : Option AllowanceRefusalReason
  allowanceRefusalDetails : String
  deriving DecidableEq

structure AssessmentTransitionLog where
  transition : AssessmentTransition
  fromState : AssessmentState
  toState : AssessmentState
  user : Nat
  institution : Option Nat
  comment : String
  timestamp : DateTime
  deriving DecidableEq

/-- An assessment with its contracts and its logs. Amounts are in cents. -/
structure Assessment where
  companies : List Nat
  institutions : List Nat
  createdAt : DateTime
  state : AssessmentState
  summaryDocumentFile : Option Nat
  structureFinancialAssessmentFile : Option Nat
  actionFinancialAssessmentFile : Option Nat
  contractsSyncedAt : Option DateTime
  contractsSelectionValidatedAt : Option DateTime
  geiqComment : String
  submittedAt : Option DateTime
  submittedBy : Option Nat
  reviewComment : String
  conventionAmount : Int
  grantedAmount : Int
  advanceAmount : Int
  geiqResponsiblePerson : String
  institutionResponsiblePerson : String
  legalCommitmentNumber : String
  decisionValidatedAt : Option DateTime
  grantsSelectionValidatedAt : Option DateTime
  reviewedAt : Option DateTime
  reviewedBy : Option Nat
  reviewedByInstitution : Option Nat
  finalReviewedAt : Option DateTime
  finalReviewedBy : Option Nat
  finalReviewedByInstitution : Option Nat
  contracts : List EmployeeContract
  logs : List AssessmentTransitionLog
  deriving DecidableEq

/-! ## Check constraints -/

/-- `check_nullable_date_order_constraint`, with `allow_equal`. -/
def NullableDateOrder (prior later : Option DateTime) : Prop := ∀ l ∈ later, ∃ p ∈ prior, p ≤ l

instance (prior later : Option DateTime) : Decidable (NullableDateOrder prior later) :=
  inferInstanceAs (Decidable (∀ _ ∈ later, ∃ _ ∈ prior, _))

namespace EmployeeContract

/-- The constraints of `EmployeeContract`. -/
structure Constraints (c : EmployeeContract) : Prop where
  allowanceRequestedOrNotGranted : ¬ (c.allowanceRequested = false ∧ c.allowanceGranted = true)
  allowanceRequestJustificationSet :
    c.allowanceRequestJustificationReason = none ∧ c.allowanceRequestJustificationDetails = "" ∨
      ¬ (c.allowanceRequestJustificationReason = none ∨ c.allowanceRequestJustificationDetails = "")
  allowanceRefusalSet :
    c.allowanceRefusalReason = none ∧ c.allowanceRefusalDetails = "" ∨
      ¬ (c.allowanceRefusalReason = none ∨ c.allowanceRefusalDetails = "")

instance : DecidablePred Constraints := fun _ =>
  decidable_of_iff (_ ∧ _ ∧ _) ⟨fun ⟨h₁, h₂, h₃⟩ => ⟨h₁, h₂, h₃⟩, fun ⟨h₁, h₂, h₃⟩ => ⟨h₁, h₂, h₃⟩⟩

def requiresJustification (c : EmployeeContract) : Bool :=
  c.allowanceRequested && decide (c.nbDaysInCampaignYear < minDaysInYearForAllowance)

end EmployeeContract

/-- The constraint `ask_for_fix_transition_with_comment`. -/
def AssessmentTransitionLog.AskForFixTransitionWithComment (l : AssessmentTransitionLog) : Prop :=
  (l.transition = .askForGeiqFix ∨ l.transition = .askForInstitutionFix) ∧ l.comment ≠ "" ∨
    ¬ (l.transition = .askForGeiqFix ∨ l.transition = .askForInstitutionFix) ∧ l.comment = ""

instance : DecidablePred AssessmentTransitionLog.AskForFixTransitionWithComment :=
  fun _ => inferInstanceAs (Decidable (_ ∧ _ ∨ _ ∧ _))

namespace Assessment

variable (a : Assessment)

/-- The constraints of `Assessment`. -/
structure Constraints : Prop where
  createdBeforeContractsSynced : NullableDateOrder (some a.createdAt) a.contractsSyncedAt
  contractsSyncedBeforeValidation : NullableDateOrder a.contractsSyncedAt a.contractsSelectionValidatedAt
  contractsValidatedBeforeSubmission : NullableDateOrder a.contractsSelectionValidatedAt a.submittedAt
  submissionBeforeGrantsValidated : NullableDateOrder a.submittedAt a.grantsSelectionValidatedAt
  grantsValidatedBeforeDecision : NullableDateOrder a.grantsSelectionValidatedAt a.decisionValidatedAt
  decisionBeforeReview : NullableDateOrder a.decisionValidatedAt a.reviewedAt
  reviewBeforeFinalReview : NullableDateOrder a.reviewedAt a.finalReviewedAt
  fullOrNoSubmission : a.submittedAt = none ∨ (a.submittedAt ≠ none ∧ a.submittedBy ≠ none) ∧
    ¬ (a.geiqComment = "" ∧ a.summaryDocumentFile = none ∧ a.structureFinancialAssessmentFile = none ∧
      a.actionFinancialAssessmentFile = none)
  stateSubmittedAt : a.submittedAt = none ∧ a.state = .new ∨ a.submittedAt ≠ none ∧ a.state ≠ .new
  fullOrNoReview : a.reviewedAt = none ∨
    (a.reviewedAt ≠ none ∧ a.reviewedBy ≠ none ∧ a.reviewedByInstitution ≠ none) ∧ a.reviewComment ≠ ""
  responsiblePersonsLegalCommitmentNumber :
    a.geiqResponsiblePerson = "" ∧ a.institutionResponsiblePerson = "" ∧ a.legalCommitmentNumber = "" ∨
      ¬ (a.geiqResponsiblePerson = "" ∨ a.institutionResponsiblePerson = "" ∨ a.legalCommitmentNumber = "")
  stateReviewedAt : a.reviewedAt = none ∧ (a.state = .new ∨ a.state = .submitted) ∨
    a.reviewedAt ≠ none ∧ (a.state = .reviewed ∨ a.state = .finalReviewed)
  fullOrNoFinalReview : a.finalReviewedAt = none ∨
    a.finalReviewedAt ≠ none ∧ a.finalReviewedBy ≠ none ∧ a.finalReviewedByInstitution ≠ none
  stateFinalReviewedAt : a.finalReviewedAt = none ∧ a.state ≠ .finalReviewed ∨
    a.finalReviewedAt ≠ none ∧ a.state = .finalReviewed
  amountsAreZeroPositiveOrNull : 0 ≤ a.conventionAmount ∧ 0 ≤ a.grantedAmount ∧ 0 ≤ a.advanceAmount

instance : DecidablePred Constraints := fun _ =>
  decidable_of_iff (_ ∧ _ ∧ _ ∧ _ ∧ _ ∧ _ ∧ _ ∧ _ ∧ _ ∧ _ ∧ _ ∧ _ ∧ _ ∧ _ ∧ _)
    ⟨fun ⟨h₁, h₂, h₃, h₄, h₅, h₆, h₇, h₈, h₉, h₁₀, h₁₁, h₁₂, h₁₃, h₁₄, h₁₅⟩ =>
      ⟨h₁, h₂, h₃, h₄, h₅, h₆, h₇, h₈, h₉, h₁₀, h₁₁, h₁₂, h₁₃, h₁₄, h₁₅⟩,
     fun ⟨h₁, h₂, h₃, h₄, h₅, h₆, h₇, h₈, h₉, h₁₀, h₁₁, h₁₂, h₁₃, h₁₄, h₁₅⟩ =>
      ⟨h₁, h₂, h₃, h₄, h₅, h₆, h₇, h₈, h₉, h₁₀, h₁₁, h₁₂, h₁₃, h₁₄, h₁₅⟩⟩

/-- All the rows meet the constraints of their tables. -/
structure RowsMeetConstraints : Prop where
  assessment : a.Constraints
  contracts : ∀ c ∈ a.contracts, c.Constraints
  logs : ∀ l ∈ a.logs, l.AskForFixTransitionWithComment

instance : DecidablePred RowsMeetConstraints := fun a =>
  decidable_of_iff (a.Constraints ∧ (∀ c ∈ a.contracts, c.Constraints) ∧
      ∀ l ∈ a.logs, l.AskForFixTransitionWithComment)
    ⟨fun ⟨h₁, h₂, h₃⟩ => ⟨h₁, h₂, h₃⟩, fun ⟨h₁, h₂, h₃⟩ => ⟨h₁, h₂, h₃⟩⟩

/-- Write the rows. The tables check their constraints. -/
def save : Except Failure Assessment := if a.RowsMeetConstraints then .ok a else .error .integrityError

/-- An assessment that was just created. -/
def create (companies institutions : List Nat) (createdAt : DateTime) : Assessment where
  companies := companies
  institutions := institutions
  createdAt := createdAt
  state := .new
  summaryDocumentFile := none
  structureFinancialAssessmentFile := none
  actionFinancialAssessmentFile := none
  contractsSyncedAt := none
  contractsSelectionValidatedAt := none
  geiqComment := ""
  submittedAt := none
  submittedBy := none
  reviewComment := ""
  conventionAmount := 0
  grantedAmount := 0
  advanceAmount := 0
  geiqResponsiblePerson := ""
  institutionResponsiblePerson := ""
  legalCommitmentNumber := ""
  decisionValidatedAt := none
  grantsSelectionValidatedAt := none
  reviewedAt := none
  reviewedBy := none
  reviewedByInstitution := none
  finalReviewedAt := none
  finalReviewedBy := none
  finalReviewedByInstitution := none
  contracts := []
  logs := []

/-! ## Missing actions -/

def missingActionsToSubmit : List String :=
  (if a.summaryDocumentFile = none then ["Récupérer le document de synthèse de label"] else []) ++
  (if a.structureFinancialAssessmentFile = none then ["Récupérer le bilan financier de la structure de label"]
    else []) ++
  (if a.actionFinancialAssessmentFile = none then ["Transmettre le bilan financier de l’action"] else []) ++
  (if a.contractsSelectionValidatedAt = none then ["Détail et sélection des contrats à présenter"] else []) ++
  (if a.geiqComment = "" then ["Commentaire"] else [])

def missingActionsToReview : List String :=
  (if a.grantsSelectionValidatedAt = none then ["Contrôler la sélection"] else []) ++
  (if a.decisionValidatedAt = none then ["Saisir la décision"] else [])

/-- `contracts_awaiting_justification_nb` of `get_allowance_stats_for_geiq`. -/
def contractsAwaitingJustificationNbForGeiq : Nat :=
  a.contracts.countP fun c => c.allowanceRequested &&
    decide (c.nbDaysInCampaignYear < minDaysInYearForAllowance) && c.allowanceRequestJustificationReason.isNone

/-- `contracts_awaiting_justification_nb` of `get_allowance_stats_for_institution`. -/
def contractsAwaitingJustificationNbForInstitution : Nat :=
  a.contracts.countP fun c => c.allowanceRequested && !c.allowanceGranted && c.allowanceRefusalReason.isNone

end Assessment

/-! ## Transitions -/

def AssessmentTransition.source : AssessmentTransition → List AssessmentState
  | .submit => [.new]
  | .review => [.submitted]
  | .finalReview => [.submitted, .reviewed]
  | .askForInstitutionFix => [.reviewed]
  | .askForGeiqFix => [.submitted, .reviewed]

def AssessmentTransition.target : AssessmentTransition → AssessmentState
  | .submit => .submitted
  | .review => .reviewed
  | .finalReview => .finalReviewed
  | .askForInstitutionFix => .submitted
  | .askForGeiqFix => .new

namespace Assessment

variable (a : Assessment) (now : DateTime) (user : Nat)

/-- A transition: check the source, run the body, save in the new state with a line in the logs. The timestamps of the
logs are those of the bodies, which read the same clock. -/
def transition (t : AssessmentTransition) (institution : Option Nat) (comment : String)
    (body : Assessment → Assessment) : Except Failure Assessment :=
  if a.state ∈ t.source then
    let log : AssessmentTransitionLog := ⟨t, a.state, t.target, user, institution, comment, now⟩
    save { body a with state := t.target, logs := a.logs ++ [log] }
  else .error .invalidTransitionError

def submit : Except Failure Assessment :=
  a.transition now user .submit none "" fun a =>
    { a with submittedAt := some now, submittedBy := some user }

def review (institution : Nat) : Except Failure Assessment :=
  a.transition now user .review institution "" fun a =>
    { a with reviewedAt := some now, reviewedBy := some user, reviewedByInstitution := some institution }

def finalReview (institution : Nat) : Except Failure Assessment :=
  a.transition now user .finalReview institution "" fun a =>
    let reviewed := if a.reviewedAt = none then
        { a with reviewedAt := some now, reviewedBy := some user, reviewedByInstitution := some institution }
      else a
    { reviewed with
      finalReviewedAt := some now
      finalReviewedBy := some user
      finalReviewedByInstitution := some institution }

def askForInstitutionFix (institution : Nat) (comment : String) : Except Failure Assessment :=
  a.transition now user .askForInstitutionFix institution comment fun a =>
    { a with reviewedAt := none, reviewedBy := none, reviewedByInstitution := none }

def askForGeiqFix (institution : Nat) (comment : String) : Except Failure Assessment :=
  a.transition now user .askForGeiqFix institution comment fun a =>
    { a with
      submittedAt := none
      submittedBy := none
      reviewedAt := none
      reviewedBy := none
      reviewedByInstitution := none
      decisionValidatedAt := none
      grantsSelectionValidatedAt := none
      finalReviewedAt := none
      finalReviewedBy := none
      finalReviewedByInstitution := none
      contracts := a.contracts.map fun c => { c with allowanceGranted := false } }

end Assessment

end Itou.GeiqAssessments
