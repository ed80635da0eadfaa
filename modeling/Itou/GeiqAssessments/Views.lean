import Itou.GeiqAssessments.Models
import Itou.Lib.Runs
import Itou.Users

/-!
# Views of GEIQ assessments

The requests by which a GEIQ and the institutions act on an assessment. Each request is a transaction: when it fails,
nothing is written.
-/

namespace Itou.GeiqAssessments

open Itou.Lib

/-- The user of a request, under the organization that is current in the session. -/
inductive Requester where
  | employer (user company : Nat) (kind : CompanyKind) (isCurrentOrganizationAdmin : Bool)
  | institution (user institution : Nat) (kind : InstitutionKind)
  | other
  deriving DecidableEq

/-- The files that are retrieved from label. -/
inductive SyncFile where
  | summaryDocumentFile
  | structureFinancialAssessmentFile
  deriving DecidableEq

inductive ContractsAction where
  | validate
  | invalidate
  deriving DecidableEq

inductive AssessmentContractDetailsTab where
  | employee
  | contract
  | supportAndTraining
  | exit
  | allowanceRequestJustification
  | allowanceRefusalJustification
  deriving DecidableEq

def AssessmentContractDetailsTab.commonTabs : List AssessmentContractDetailsTab :=
  [.employee, .contract, .supportAndTraining, .exit]

def AssessmentContractDetailsTab.employerTabs : List AssessmentContractDetailsTab :=
  commonTabs ++ [.allowanceRequestJustification]

def AssessmentContractDetailsTab.institutionTabs : List AssessmentContractDetailsTab :=
  commonTabs ++ [.allowanceRefusalJustification]

inductive InstitutionAction where
  | review
  | askForInstitutionFix
  | askForGeiqFix
  | refuseAllowance
  | grantAllowance
  | allowanceRefusalJustification
  deriving DecidableEq

/-! ## Forms

The fields of a form as they are once stripped. The error of a required field is given by its code. -/

/-- A reason, when it is one of the choices, with its details. -/
structure JustificationForm (ρ : Type) where
  reason : Option ρ
  details : String
  deriving DecidableEq

def JustificationForm.errors {ρ : Type} (form : JustificationForm ρ) (reasonField detailsField : String) :
    List (String × String) :=
  (if form.reason.isNone then [(reasonField, "required")] else []) ++
  (if form.details = "" then [(detailsField, "required")] else [])

def allowanceRequestJustificationErrors (form : JustificationForm AllowanceJustificationReason) :
    List (String × String) :=
  form.errors "allowance_request_reason" "allowance_request_details"

def allowanceRefusalJustificationErrors (form : JustificationForm AllowanceRefusalReason) : List (String × String) :=
  form.errors "allowance_refusal_reason" "allowance_refusal_details"

/-- `AskForFixCommentForm`. -/
def askForFixCommentErrors (comment : String) : List (String × String) :=
  if comment = "" then [("comment", "required")] else []

def geiqCommentErrors (comment : String) : List (String × String) :=
  if comment = "" then [("geiq_comment", "required")] else []

/-- An amount is there when it is a number of cents. -/
structure ReviewForm where
  reviewComment : String
  conventionAmount : Option Int
  grantedAmount : Option Int
  advanceAmount : Option Int
  geiqResponsiblePerson : String
  institutionResponsiblePerson : String
  legalCommitmentNumber : String
  deriving DecidableEq

namespace ReviewForm

variable (form : ReviewForm)

def textErrors (field text : String) : List (String × String) := if text = "" then [(field, "required")] else []

/-- The column has ten digits, two of them after the comma. -/
def amountErrors (field : String) : Option Int → List (String × String)
  | none => [(field, "required")]
  | some amount =>
      if amount < 0 then [(field, "min_value")]
      else if 10000000000 ≤ amount then [(field, "max_digits")]
      else []

/-- The amount in `cleaned_data`. -/
def cleaned (amount : Option Int) : Option Int := amount.filter (0 ≤ ·)

/-- `clean`: no amount is above the amount of the convention. -/
def cleanErrors : List (String × String) :=
  match cleaned form.conventionAmount with
  | none => []
  | some conventionAmount =>
      (if (cleaned form.grantedAmount).any (conventionAmount < ·) then
        [("granted_amount", "Le montant total accordé ne peut être supérieur au montant conventionné.")] else []) ++
      (if (cleaned form.advanceAmount).any (conventionAmount < ·) then
        [("advance_amount", "Le montant du premier versement ne peut être supérieur au montant conventionné.")]
        else [])

def errors : List (String × String) :=
  textErrors "review_comment" form.reviewComment ++
  amountErrors "convention_amount" form.conventionAmount ++
  amountErrors "granted_amount" form.grantedAmount ++
  amountErrors "advance_amount" form.advanceAmount ++
  textErrors "geiq_responsible_person" form.geiqResponsiblePerson ++
  textErrors "institution_responsible_person" form.institutionResponsiblePerson ++
  textErrors "legal_commitment_number" form.legalCommitmentNumber ++
  form.cleanErrors

/-- The values of the row: those of the fields when they are disabled. -/
def initial (a : Assessment) : ReviewForm where
  reviewComment := a.reviewComment
  conventionAmount := some a.conventionAmount
  grantedAmount := some a.grantedAmount
  advanceAmount := some a.advanceAmount
  geiqResponsiblePerson := a.geiqResponsiblePerson
  institutionResponsiblePerson := a.institutionResponsiblePerson
  legalCommitmentNumber := a.legalCommitmentNumber

def save (a : Assessment) (now : DateTime) : Except Failure Assessment :=
  Assessment.save
    { a with
      reviewComment := form.reviewComment
      conventionAmount := form.conventionAmount.getD 0
      grantedAmount := form.grantedAmount.getD 0
      advanceAmount := form.advanceAmount.getD 0
      geiqResponsiblePerson := form.geiqResponsiblePerson
      institutionResponsiblePerson := form.institutionResponsiblePerson
      legalCommitmentNumber := form.legalCommitmentNumber
      decisionValidatedAt := some now }

end ReviewForm

/-! ## Views -/

/-- A contract of label: the allowance of its employee, and its days in the year of the campaign. -/
structure ContractInfo where
  allowanceAmount : Nat
  nbDaysInCampaignYear : Nat
  deriving DecidableEq

/-- `contract_data_to_django`. -/
def contractDataToDjango (info : ContractInfo) : EmployeeContract where
  allowanceAmount := info.allowanceAmount
  nbDaysInCampaignYear := info.nbDaysInCampaignYear
  allowanceRequested := decide (info.allowanceAmount ≠ 0) &&
    decide (minDaysInYearForAllowance < info.nbDaysInCampaignYear)
  allowanceGranted := false
  allowanceRequestJustificationReason := none
  allowanceRequestJustificationDetails := ""
  allowanceRefusalReason := none
  allowanceRefusalDetails := ""

namespace Assessment

variable (a : Assessment) (now : DateTime)

/-- Update the contract at this place, when there is one. -/
def updateContract (pk : Nat) (f : EmployeeContract → Except Failure EmployeeContract) : Except Failure Assessment :=
  match a.contracts[pk]? with
  | none => .error .http404
  | some c => f c >>= fun c' => save { a with contracts := a.contracts.set pk c' }

section Geiq

variable (user : Nat)

/-- The contracts that were not refused with a reason are preselected for the institutions. -/
def preselectContracts : Except Failure Assessment :=
  save { a with contracts := a.contracts.map fun c =>
    if c.allowanceRefusalReason = none then { c with allowanceGranted := c.allowanceRequested } else c }

def assessmentDetailsForGeiq : Except Failure Assessment :=
  if a.submittedAt.isSome then
    .error (.message "Ce bilan a déjà été soumis. Vous ne pouvez plus le modifier.")
  else if a.missingActionsToSubmit ≠ [] then
    .error (.message ("Ce bilan ne peut pas encore être soumis. Ces actions sont manquantes : " ++
      ",".intercalate a.missingActionsToSubmit))
  else a.submit now user >>= preselectContracts

/-- `retrieved` is the file that label gives. -/
def assessmentSyncFile (field : SyncFile) (retrieved : Option Nat) : Except Failure Assessment :=
  match field with
  | .summaryDocumentFile =>
      if a.summaryDocumentFile.isSome then .ok a
      else save { a with summaryDocumentFile := retrieved }
  | .structureFinancialAssessmentFile =>
      if a.structureFinancialAssessmentFile.isSome then .ok a
      else save { a with structureFinancialAssessmentFile := retrieved }

/-- The form is valid when it has a file. -/
def uploadActionFinancialAssessment (file : Option Nat) : Except Failure Assessment :=
  if a.submittedAt.isSome then .error .http404
  else match file with
    | none => .error (.formErrors [("assessment_file", "required")])
    | some file => save { a with actionFinancialAssessmentFile := some file }

def assessmentComment (comment : String) : Except Failure Assessment :=
  if a.submittedAt.isSome then .error .http404
  else if geiqCommentErrors comment ≠ [] then .error (.formErrors (geiqCommentErrors comment))
  else save { a with geiqComment := comment }

/-- `infos` are the contracts of label, when it answers. -/
def assessmentContractsSync (infos : Option (List ContractInfo)) : Except Failure Assessment :=
  if a.contractsSyncedAt.isSome then .ok a
  else match infos with
    | none => .ok a
    | some infos => save { a with contracts := infos.map contractDataToDjango, contractsSyncedAt := some now }

/-- `assessment_contracts_list` from an employer. An action that is not known is `none`. -/
def contractsListFromEmployer (action : Option ContractsAction) : Except Failure Assessment :=
  let canValidate := a.submittedAt = none ∧ a.contractsSelectionValidatedAt = none
  let canInvalidate := a.submittedAt = none ∧ ¬ a.contractsSelectionValidatedAt = none
  match action with
  | none => .error .http404
  | some .validate =>
      if ¬ canValidate ∨ a.contractsAwaitingJustificationNbForGeiq ≠ 0 then .error .permissionDenied
      else save { a with contractsSelectionValidatedAt := some now }
  | some .invalidate =>
      if ¬ canInvalidate then .error .permissionDenied
      else save { a with contractsSelectionValidatedAt := none }

/-- `assessment_contracts_details` from an employer. -/
def contractsDetailsFromEmployer (pk : Nat) (tab : AssessmentContractDetailsTab)
    (posted : JustificationForm AllowanceJustificationReason) : Except Failure Assessment :=
  if tab ∉ AssessmentContractDetailsTab.employerTabs then .error .http404
  else a.updateContract pk fun c =>
    if tab = .allowanceRequestJustification then
      if ¬ c.requiresJustification then .error .http404
      else
        -- The fields are disabled once the selection is validated.
        let form := if a.contractsSelectionValidatedAt.isSome then
            ⟨c.allowanceRequestJustificationReason, c.allowanceRequestJustificationDetails⟩
          else posted
        if allowanceRequestJustificationErrors form ≠ [] then
          .error (.formErrors (allowanceRequestJustificationErrors form))
        else if a.contractsSelectionValidatedAt.isSome then
          .error (.message ("La sélection des contrats a déjà été validée : " ++
            "vous ne pouvez plus modifier le motif de sollicitation de l’aide pour ce contrat."))
        else .ok { c with
          allowanceRequestJustificationReason := form.reason
          allowanceRequestJustificationDetails := form.details }
    else .ok c

/-- `assessment_contracts_toggle` from an employer. -/
def contractsToggleFromEmployer (pk : Nat) (newValue : Bool) : Except Failure Assessment :=
  a.updateContract pk fun c =>
    if a.contractsSelectionValidatedAt = none ∧ c.allowanceRequested ≠ newValue then
      .ok { c with allowanceRequested := newValue }
    else .ok c

end Geiq

section Institution

variable (user institution : Nat) (kind : InstitutionKind)

/-- `assessment_contracts_list` from an institution. -/
def contractsListFromInstitution (action : Option ContractsAction) : Except Failure Assessment :=
  let canValidate := a.reviewedAt = none ∧ a.grantsSelectionValidatedAt = none
  let canInvalidate := a.reviewedAt = none ∧ ¬ a.grantsSelectionValidatedAt = none
  if a.submittedAt = none then .error .http404
  else match action with
    | none => .error .http404
    | some .validate =>
        if ¬ canValidate ∨ a.contractsAwaitingJustificationNbForInstitution ≠ 0 then .error .permissionDenied
        else save { a with grantsSelectionValidatedAt := some now }
    | some .invalidate =>
        if ¬ canInvalidate then .error .permissionDenied
        else save { a with grantsSelectionValidatedAt := none, decisionValidatedAt := none }

/-- `assessment_contracts_details` from an institution. -/
def contractsDetailsFromInstitution (pk : Nat) (tab : AssessmentContractDetailsTab)
    (action : Option InstitutionAction) (posted : JustificationForm AllowanceRefusalReason) :
    Except Failure Assessment :=
  if tab ∉ AssessmentContractDetailsTab.institutionTabs ∨ a.submittedAt = none then .error .http404
  else a.updateContract pk fun c =>
    if c.allowanceRequested = false then .error .http404
    else if tab = .allowanceRefusalJustification ∧ c.allowanceGranted then .error .http404
    else match action with
      | none => .error .http404
      | some .refuseAllowance =>
          if a.grantsSelectionValidatedAt.isSome then
            .error (.message ("La sélection des contrats a déjà été validée : " ++
              "vous ne pouvez plus accorder ou refuser l’aide pour ce contrat."))
          else .ok { c with allowanceGranted := false }
      | some .grantAllowance =>
          if a.grantsSelectionValidatedAt.isSome then
            .error (.message ("La sélection des contrats a déjà été validée : " ++
              "vous ne pouvez plus accorder ou refuser l’aide pour ce contrat."))
          else .ok { c with
            allowanceGranted := true
            allowanceRefusalReason := none
            allowanceRefusalDetails := "" }
      | some .allowanceRefusalJustification =>
          if tab ≠ .allowanceRefusalJustification then .error .http404
          else
            let form := if a.grantsSelectionValidatedAt.isSome then
                ⟨c.allowanceRefusalReason, c.allowanceRefusalDetails⟩
              else posted
            if allowanceRefusalJustificationErrors form ≠ [] then
              .error (.formErrors (allowanceRefusalJustificationErrors form))
            else if a.grantsSelectionValidatedAt.isSome then
              .error (.message ("La sélection des contrats a déjà été validée : " ++
                "vous ne pouvez plus modifier le motif de refus."))
            else .ok { c with
              allowanceRefusalReason := form.reason
              allowanceRefusalDetails := form.details }
      | some .review | some .askForInstitutionFix | some .askForGeiqFix => .ok c

/-- `assessment_contracts_toggle` from an institution. -/
def contractsToggleFromInstitution (pk : Nat) (newValue : Bool) : Except Failure Assessment :=
  if a.submittedAt = none then .error .http404
  else a.updateContract pk fun c =>
    if c.allowanceRequested = false then .error .http404
    else if a.grantsSelectionValidatedAt = none ∧ c.allowanceGranted ≠ newValue then
      if newValue ∧ c.allowanceRefusalReason.isSome then
        .ok { c with allowanceGranted := newValue, allowanceRefusalReason := none, allowanceRefusalDetails := "" }
      else .ok { c with allowanceGranted := newValue }
    else .ok c

def assessmentDetailsForInstitution (action : Option InstitutionAction) (comment : String) :
    Except Failure Assessment :=
  match action with
  | none => .error .http404
  | some .review =>
      if kind = .ddetsGeiq then
        if a.reviewedAt = none then a.review now user institution else .error .permissionDenied
      else if a.finalReviewedAt = none then a.finalReview now user institution
      else .error .permissionDenied
  | some .askForInstitutionFix =>
      -- Only a DREETS has this form: for the others it is `None`.
      if kind ≠ .dreetsGeiq then .error .attributeError
      else if askForFixCommentErrors comment ≠ [] then .error (.formErrors (askForFixCommentErrors comment))
      else if a.finalReviewedAt.isSome then
        .error (.message "Ce dossier a déjà été validé : vous ne pouvez plus le corriger.")
      else if kind ≠ .dreetsGeiq then .error (.message "Seules les DREETS peuvent corriger un dossier.")
      else if a.reviewedAt = none then
        .error (.message "Ce bilan n’a pas encore été contrôlé : il n’y a rien à corriger.")
      else a.askForInstitutionFix now user institution comment
  | some .askForGeiqFix =>
      if askForFixCommentErrors comment ≠ [] then .error (.formErrors (askForFixCommentErrors comment))
      else if a.finalReviewedAt.isSome then
        .error (.message "Ce dossier a déjà été validé : vous ne pouvez plus demander au GEIQ de le corriger.")
      else if a.submittedAt = none then
        .error (.message ("Ce bilan n’a pas encore été transmis par le GEIQ : " ++
          "vous ne pouvez pas le renvoyer au GEIQ."))
      else a.askForGeiqFix now user institution comment
  | some .refuseAllowance | some .grantAllowance | some .allowanceRefusalJustification => .ok a

def assessmentReview (posted : ReviewForm) : Except Failure Assessment :=
  if a.grantsSelectionValidatedAt = none then .error .http404
  else
    let form := if a.reviewedAt.isSome then ReviewForm.initial a else posted
    if form.errors ≠ [] then .error (.formErrors form.errors)
    else if a.reviewedAt.isSome then
      .error (.message "Ce bilan a déjà été validé. Vous ne pouvez plus saisir de décision.")
    else form.save a now

end Institution

end Assessment

/-! ## Requests -/

/-- What a request posts to a view. -/
inductive Operation where
  | assessmentDetailsForGeiq
  | assessmentSyncFile (field : SyncFile) (retrieved : Option Nat)
  | uploadActionFinancialAssessment (file : Option Nat)
  | assessmentComment (comment : String)
  | assessmentContractsSync (infos : Option (List ContractInfo))
  | assessmentContractsList (action : Option ContractsAction)
  | assessmentContractsDetails (pk : Nat) (tab : AssessmentContractDetailsTab) (action : Option InstitutionAction)
      (request : JustificationForm AllowanceJustificationReason) (refusal : JustificationForm AllowanceRefusalReason)
  | assessmentContractsToggle (pk : Nat) (newValue : Bool)
  | assessmentDetailsForInstitution (action : Option InstitutionAction) (comment : String)
  | assessmentReview (form : ReviewForm)
  deriving DecidableEq

structure Request where
  now : DateTime
  requester : Requester
  operation : Operation
  deriving DecidableEq

namespace Assessment

variable (a : Assessment)

/-- A view for the administrators of a GEIQ, on the assessments of their company. -/
def forGeiq (requester : Requester) (view : (user : Nat) → Except Failure Assessment) : Except Failure Assessment :=
  match requester with
  | .employer user company kind isCurrentOrganizationAdmin =>
      if kind = .geiq ∧ isCurrentOrganizationAdmin then
        if company ∈ a.companies then view user else .error .http404
      else .error .permissionDenied
  | _ => .error .permissionDenied

/-- A view for the institutions, on the assessments that they are linked to. -/
def forInstitution (requester : Requester)
    (view : (user institution : Nat) → InstitutionKind → Except Failure Assessment) : Except Failure Assessment :=
  match requester with
  | .institution user institution kind =>
      if institution ∈ a.institutions then view user institution kind else .error .http404
  | _ => .error .permissionDenied

/-- A view for both. -/
def forBoth (requester : Requester) (fromEmployer : (user : Nat) → Except Failure Assessment)
    (fromInstitution : (user institution : Nat) → InstitutionKind → Except Failure Assessment) :
    Except Failure Assessment :=
  match requester with
  | .institution .. => a.forInstitution requester fromInstitution
  | _ => a.forGeiq requester fromEmployer

/-- `INSTITUTION_KINDS_CAN_VIEW_ASSESSMENT_DETAILS`. -/
def kindsCanViewDetails : List InstitutionKind := [.ddetsGeiq, .dreetsGeiq]

def exec (request : Request) : Except Failure Assessment :=
  let now := request.now
  let requester := request.requester
  match request.operation with
  | .assessmentDetailsForGeiq => a.forGeiq requester fun user => a.assessmentDetailsForGeiq now user
  | .assessmentSyncFile field retrieved => a.forGeiq requester fun _ => a.assessmentSyncFile field retrieved
  | .uploadActionFinancialAssessment file => a.forGeiq requester fun _ => a.uploadActionFinancialAssessment file
  | .assessmentComment comment => a.forGeiq requester fun _ => a.assessmentComment comment
  | .assessmentContractsSync infos => a.forGeiq requester fun _ => a.assessmentContractsSync now infos
  | .assessmentContractsList action => a.forBoth requester
      (fun _ => a.contractsListFromEmployer now action)
      (fun _ _ _ => a.contractsListFromInstitution now action)
  | .assessmentContractsDetails pk tab action justification refusal => a.forBoth requester
      (fun _ => a.contractsDetailsFromEmployer pk tab justification)
      (fun _ _ _ => a.contractsDetailsFromInstitution pk tab action refusal)
  | .assessmentContractsToggle pk newValue => a.forBoth requester
      (fun _ => a.contractsToggleFromEmployer pk newValue)
      (fun _ _ _ => a.contractsToggleFromInstitution pk newValue)
  | .assessmentDetailsForInstitution action comment =>
      match requester with
      | .institution _ _ kind =>
          if kind ∈ kindsCanViewDetails then a.forInstitution requester fun user institution kind =>
            a.assessmentDetailsForInstitution now user institution kind action comment
          else .error .http404
      | _ => .error .permissionDenied
  | .assessmentReview form => a.forInstitution requester fun _ _ _ => a.assessmentReview now form

end Assessment

/-- An assessment and the time of the last request. -/
structure State where
  assessment : Assessment
  clock : DateTime
  deriving DecidableEq

namespace State

/-- Requests come in the order of time. A request that fails leaves the assessment as it was. -/
def step (s : State) (request : Request) : Option State :=
  if s.clock ≤ request.now then
    match s.assessment.exec request with
    | .ok assessment => some ⟨assessment, request.now⟩
    | .error _ => some ⟨s.assessment, request.now⟩
  else none

/-- An assessment that was just created. -/
def start (companies institutions : List Nat) (createdAt : DateTime) : State :=
  ⟨.create companies institutions createdAt, createdAt⟩

end State

/-! ## What a run is judged by -/

/-- What the GEIQ fills in a contract, with what it is computed from. -/
structure ContractGeiqFields where
  allowanceAmount : Nat
  nbDaysInCampaignYear : Nat
  allowanceRequested : Bool
  allowanceRequestJustificationReason : Option AllowanceJustificationReason
  allowanceRequestJustificationDetails : String
  deriving DecidableEq

/-- What the institutions fill in a contract. -/
structure ContractInstitutionFields where
  allowanceGranted : Bool
  allowanceRefusalReason : Option AllowanceRefusalReason
  allowanceRefusalDetails : String
  deriving DecidableEq

structure GeiqFields where
  summaryDocumentFile : Option Nat
  structureFinancialAssessmentFile : Option Nat
  actionFinancialAssessmentFile : Option Nat
  contractsSyncedAt : Option DateTime
  contractsSelectionValidatedAt : Option DateTime
  geiqComment : String
  submittedAt : Option DateTime
  submittedBy : Option Nat
  contracts : List ContractGeiqFields
  deriving DecidableEq

structure InstitutionFields where
  reviewComment : String
  conventionAmount : Int
  grantedAmount : Int
  advanceAmount : Int
  geiqResponsiblePerson : String
  institutionResponsiblePerson : String
  legalCommitmentNumber : String
  decisionValidatedAt : Option DateTime
  grantsSelectionValidatedAt : Option DateTime
  contracts : List ContractInstitutionFields
  deriving DecidableEq

def EmployeeContract.geiqFields (c : EmployeeContract) : ContractGeiqFields where
  allowanceAmount := c.allowanceAmount
  nbDaysInCampaignYear := c.nbDaysInCampaignYear
  allowanceRequested := c.allowanceRequested
  allowanceRequestJustificationReason := c.allowanceRequestJustificationReason
  allowanceRequestJustificationDetails := c.allowanceRequestJustificationDetails

def EmployeeContract.institutionFields (c : EmployeeContract) : ContractInstitutionFields where
  allowanceGranted := c.allowanceGranted
  allowanceRefusalReason := c.allowanceRefusalReason
  allowanceRefusalDetails := c.allowanceRefusalDetails

def Assessment.geiqFields (a : Assessment) : GeiqFields where
  summaryDocumentFile := a.summaryDocumentFile
  structureFinancialAssessmentFile := a.structureFinancialAssessmentFile
  actionFinancialAssessmentFile := a.actionFinancialAssessmentFile
  contractsSyncedAt := a.contractsSyncedAt
  contractsSelectionValidatedAt := a.contractsSelectionValidatedAt
  geiqComment := a.geiqComment
  submittedAt := a.submittedAt
  submittedBy := a.submittedBy
  contracts := a.contracts.map EmployeeContract.geiqFields

def Assessment.institutionFields (a : Assessment) : InstitutionFields where
  reviewComment := a.reviewComment
  conventionAmount := a.conventionAmount
  grantedAmount := a.grantedAmount
  advanceAmount := a.advanceAmount
  geiqResponsiblePerson := a.geiqResponsiblePerson
  institutionResponsiblePerson := a.institutionResponsiblePerson
  legalCommitmentNumber := a.legalCommitmentNumber
  decisionValidatedAt := a.decisionValidatedAt
  grantsSelectionValidatedAt := a.grantsSelectionValidatedAt
  contracts := a.contracts.map EmployeeContract.institutionFields

/-- The fix that a request asks for. -/
def Operation.fix : Operation → Option InstitutionAction
  | .assessmentDetailsForInstitution (some .askForInstitutionFix) _ => some .askForInstitutionFix
  | .assessmentDetailsForInstitution (some .askForGeiqFix) _ => some .askForGeiqFix
  | _ => none

namespace State

variable (s : State) (request : Request)

/-- A fix is asked for, and the request is not refused. -/
def FixAsked (fix : InstitutionAction) : Prop :=
  request.operation.fix = some fix ∧ (s.assessment.exec request).isOk

instance (fix : InstitutionAction) : Decidable (s.FixAsked request fix) := inferInstanceAs (Decidable (_ ∧ _))

/-- Either the request is written and the rows meet their constraints, or a view refuses it and nothing changes. -/
def Answered : Prop :=
  ∀ s' ∈ s.step request,
    (s.assessment.exec request).isOk ∧ s'.assessment.RowsMeetConstraints ∨
      (∃ failure ∈ failure? (s.assessment.exec request), ¬ failure.Raised) ∧ s'.assessment = s.assessment

instance : Decidable (s.Answered request) :=
  inferInstanceAs (Decidable (∀ _ ∈ s.step request, _ ∧ _ ∨ (∃ _ ∈ failure? _, _) ∧ _))

/-- What is due before a request that the views let pass: the contracts are there when a GEIQ validates its selection,
no action is missing when an institution reviews, and a fix of the institution is asked by a DREETS. -/
def NothingMissing : Prop :=
  match request.requester, request.operation with
  | .employer _ company kind isCurrentOrganizationAdmin, .assessmentContractsList (some .validate) =>
      kind = .geiq → isCurrentOrganizationAdmin → company ∈ s.assessment.companies →
        s.assessment.contractsSyncedAt.isSome
  | .institution _ institution kind, .assessmentDetailsForInstitution (some .review) _ =>
      kind ∈ Assessment.kindsCanViewDetails → institution ∈ s.assessment.institutions →
        s.assessment.missingActionsToReview = []
  | .institution _ institution kind, .assessmentDetailsForInstitution (some .askForInstitutionFix) _ =>
      kind ∈ Assessment.kindsCanViewDetails → institution ∈ s.assessment.institutions → kind = .dreetsGeiq
  | _, _ => True

end State

end Itou.GeiqAssessments
