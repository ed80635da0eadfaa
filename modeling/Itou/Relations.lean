import Itou.Lib.Deletions
import Itou.Companies.Activity

/-!
# The relations to users and to companies

The foreign keys that refer to a user, to a company, or to a row that the deletion of one of them reaches, with what each
does on a deletion. `Company.notification_settings` is a generic relation, which cascades. The rows that join a relation to
many are rows of a model of their own.
-/

namespace Itou.Relations

open Itou.Lib.Deletions Itou.Companies

inductive Model where
  | activatedService | appointment | approval | assessment | assessmentCompanies | assessmentTransitionLog | company
  | companyMembership | companyTokenCompanies | contract | disabledNotification | eligibilityDiagnosis | emailAddress
  | emailConfirmation | employeeRecord | employeeRecordTransitionLog | employerInvitation | evaluatedSiae
  | followUpGroup | followUpGroupMembership | geiqEligibilityDiagnosis | geiqSelectedAdministrativeCriteria
  | identityCertification | institutionMembership | invitation | invitationRequest | itouStaticDevice
  | itouStaticToken | itouTOTPDevice | jobApplication | jobApplicationComment | jobApplicationSelectedJobs
  | jobApplicationTransitionLog | jobDescription | jobSeekerAssignment | jobSeekerProfile | laborInspectorInvitation
  | logEntry | mobilizationEvent | nirModificationRequest | notificationSettings | orientation | participation
  | prescriberMembership | prescriberOrganization | prescriberWithOrgInvitation | prolongation | prolongationRequest
  | savedSearch | selectedAdministrativeCriteria | siaeConvention | suspension | token | totpDevice | user
  | userGroups | userUserPermissions
  deriving DecidableEq

inductive Relation where
  | activatedServiceUser
  | appointmentCompany
  | approvalCreatedBy | approvalEligibilityDiagnosis | approvalUser
  | assessmentCreatedBy | assessmentFinalReviewedBy | assessmentReviewedBy | assessmentSubmittedBy
  | assessmentCompaniesCompany
  | assessmentTransitionLogUser
  | companyConvention | companyCreatedBy
  | companyMembershipCompany | companyMembershipUpdatedBy | companyMembershipUser
  | companyTokenCompaniesCompany
  | contractCompany | contractJobSeeker
  | disabledNotificationSettings
  | eligibilityDiagnosisAuthor | eligibilityDiagnosisAuthorSiae | eligibilityDiagnosisJobSeeker
  | emailAddressUser
  | emailConfirmationEmailAddress
  | employeeRecordJobApplication
  | employeeRecordTransitionLogUser
  | employerInvitationCompany | employerInvitationSender
  | evaluatedSiaeSiae
  | followUpGroupBeneficiary
  | followUpGroupMembershipCreator | followUpGroupMembershipFollowUpGroup | followUpGroupMembershipMember
  | geiqEligibilityDiagnosisAuthor | geiqEligibilityDiagnosisAuthorGeiq | geiqEligibilityDiagnosisJobSeeker
  | geiqSelectedAdministrativeCriteriaEligibilityDiagnosis
  | identityCertificationJobseekerProfile
  | institutionMembershipUpdatedBy | institutionMembershipUser
  | invitationInvitationRequest
  | invitationRequestCompany | invitationRequestJobSeeker
  | itouStaticDeviceUser
  | itouStaticTokenDevice
  | itouTOTPDeviceUser
  | jobApplicationApprovalManuallyDeliveredBy | jobApplicationApprovalManuallyRefusedBy | jobApplicationArchivedBy
  | jobApplicationEligibilityDiagnosis | jobApplicationGeiqEligibilityDiagnosis | jobApplicationHiredJob
  | jobApplicationJobSeeker | jobApplicationSender | jobApplicationSenderCompany | jobApplicationToCompany
  | jobApplicationTransferredBy | jobApplicationTransferredFrom
  | jobApplicationCommentCompany | jobApplicationCommentCreatedBy
  | jobApplicationSelectedJobsJobdescription
  | jobApplicationTransitionLogTargetCompany | jobApplicationTransitionLogUser
  | jobDescriptionCompany
  | jobSeekerAssignmentCompany | jobSeekerAssignmentJobSeeker | jobSeekerAssignmentPrescriberOrganization
  | jobSeekerAssignmentProfessional
  | jobSeekerProfileUser
  | laborInspectorInvitationSender
  | logEntryUser
  | mobilizationEventCompany | mobilizationEventUser
  | nirModificationRequestJobseekerProfile | nirModificationRequestRequestedBy
  | notificationSettingsStructure | notificationSettingsUser
  | orientationBeneficiary | orientationSender | orientationSenderCompany
  | participationAppointment | participationJobSeeker
  | prescriberMembershipUpdatedBy | prescriberMembershipUser
  | prescriberOrganizationAuthorizationUpdatedBy | prescriberOrganizationCreatedBy
  | prescriberWithOrgInvitationSender
  | prolongationCreatedBy | prolongationDeclaredBy | prolongationDeclaredBySiae | prolongationUpdatedBy
  | prolongationValidatedBy
  | prolongationRequestAssignedTo | prolongationRequestCreatedBy | prolongationRequestDeclaredBy
  | prolongationRequestDeclaredBySiae | prolongationRequestProcessedBy | prolongationRequestUpdatedBy
  | savedSearchUser
  | selectedAdministrativeCriteriaEligibilityDiagnosis
  | siaeConventionReactivatedBy
  | suspensionCreatedBy | suspensionSiae | suspensionUpdatedBy
  | tokenUser
  | totpDeviceUser
  | userCreatedBy
  | userGroupsUser
  | userUserPermissionsUser
  deriving DecidableEq

structure ForeignKey where
  model : Model
  target : Model
  onDelete : OnDelete
  deriving DecidableEq

/-- The relations, as the models declare them. -/
def Relation.foreignKey : Relation → ForeignKey
  | .activatedServiceUser => ⟨.activatedService, .user, .cascade⟩
  | .appointmentCompany => ⟨.appointment, .company, .cascade⟩
  | .approvalCreatedBy => ⟨.approval, .user, .restrict⟩
  | .approvalEligibilityDiagnosis => ⟨.approval, .eligibilityDiagnosis, .restrict⟩
  | .approvalUser => ⟨.approval, .user, .protect⟩
  | .assessmentCreatedBy => ⟨.assessment, .user, .restrict⟩
  | .assessmentFinalReviewedBy => ⟨.assessment, .user, .restrict⟩
  | .assessmentReviewedBy => ⟨.assessment, .user, .restrict⟩
  | .assessmentSubmittedBy => ⟨.assessment, .user, .restrict⟩
  | .assessmentCompaniesCompany => ⟨.assessmentCompanies, .company, .cascade⟩
  | .assessmentTransitionLogUser => ⟨.assessmentTransitionLog, .user, .restrict⟩
  | .companyConvention => ⟨.company, .siaeConvention, .restrict⟩
  | .companyCreatedBy => ⟨.company, .user, .restrict⟩
  | .companyMembershipCompany => ⟨.companyMembership, .company, .cascade⟩
  | .companyMembershipUpdatedBy => ⟨.companyMembership, .user, .restrict⟩
  | .companyMembershipUser => ⟨.companyMembership, .user, .cascade⟩
  | .companyTokenCompaniesCompany => ⟨.companyTokenCompanies, .company, .cascade⟩
  | .contractCompany => ⟨.contract, .company, .setNull⟩
  | .contractJobSeeker => ⟨.contract, .user, .setNull⟩
  | .disabledNotificationSettings => ⟨.disabledNotification, .notificationSettings, .cascade⟩
  | .eligibilityDiagnosisAuthor => ⟨.eligibilityDiagnosis, .user, .restrict⟩
  | .eligibilityDiagnosisAuthorSiae => ⟨.eligibilityDiagnosis, .company, .restrict⟩
  | .eligibilityDiagnosisJobSeeker => ⟨.eligibilityDiagnosis, .user, .cascade⟩
  | .emailAddressUser => ⟨.emailAddress, .user, .cascade⟩
  | .emailConfirmationEmailAddress => ⟨.emailConfirmation, .emailAddress, .cascade⟩
  | .employeeRecordJobApplication => ⟨.employeeRecord, .jobApplication, .restrict⟩
  | .employeeRecordTransitionLogUser => ⟨.employeeRecordTransitionLog, .user, .restrict⟩
  | .employerInvitationCompany => ⟨.employerInvitation, .company, .cascade⟩
  | .employerInvitationSender => ⟨.employerInvitation, .user, .cascade⟩
  | .evaluatedSiaeSiae => ⟨.evaluatedSiae, .company, .restrict⟩
  | .followUpGroupBeneficiary => ⟨.followUpGroup, .user, .cascade⟩
  | .followUpGroupMembershipCreator => ⟨.followUpGroupMembership, .user, .restrict⟩
  | .followUpGroupMembershipFollowUpGroup => ⟨.followUpGroupMembership, .followUpGroup, .cascade⟩
  | .followUpGroupMembershipMember => ⟨.followUpGroupMembership, .user, .cascade⟩
  | .geiqEligibilityDiagnosisAuthor => ⟨.geiqEligibilityDiagnosis, .user, .restrict⟩
  | .geiqEligibilityDiagnosisAuthorGeiq => ⟨.geiqEligibilityDiagnosis, .company, .restrict⟩
  | .geiqEligibilityDiagnosisJobSeeker => ⟨.geiqEligibilityDiagnosis, .user, .cascade⟩
  | .geiqSelectedAdministrativeCriteriaEligibilityDiagnosis =>
      ⟨.geiqSelectedAdministrativeCriteria, .geiqEligibilityDiagnosis, .cascade⟩
  | .identityCertificationJobseekerProfile => ⟨.identityCertification, .jobSeekerProfile, .cascade⟩
  | .institutionMembershipUpdatedBy => ⟨.institutionMembership, .user, .restrict⟩
  | .institutionMembershipUser => ⟨.institutionMembership, .user, .cascade⟩
  | .invitationInvitationRequest => ⟨.invitation, .invitationRequest, .cascade⟩
  | .invitationRequestCompany => ⟨.invitationRequest, .company, .cascade⟩
  | .invitationRequestJobSeeker => ⟨.invitationRequest, .user, .cascade⟩
  | .itouStaticDeviceUser => ⟨.itouStaticDevice, .user, .cascade⟩
  | .itouStaticTokenDevice => ⟨.itouStaticToken, .itouStaticDevice, .cascade⟩
  | .itouTOTPDeviceUser => ⟨.itouTOTPDevice, .user, .cascade⟩
  | .jobApplicationApprovalManuallyDeliveredBy => ⟨.jobApplication, .user, .restrict⟩
  | .jobApplicationApprovalManuallyRefusedBy => ⟨.jobApplication, .user, .restrict⟩
  | .jobApplicationArchivedBy => ⟨.jobApplication, .user, .restrict⟩
  | .jobApplicationEligibilityDiagnosis => ⟨.jobApplication, .eligibilityDiagnosis, .restrict⟩
  | .jobApplicationGeiqEligibilityDiagnosis => ⟨.jobApplication, .geiqEligibilityDiagnosis, .restrict⟩
  | .jobApplicationHiredJob => ⟨.jobApplication, .jobDescription, .setNull⟩
  | .jobApplicationJobSeeker => ⟨.jobApplication, .user, .restrict⟩
  | .jobApplicationSender => ⟨.jobApplication, .user, .restrict⟩
  | .jobApplicationSenderCompany => ⟨.jobApplication, .company, .restrict⟩
  | .jobApplicationToCompany => ⟨.jobApplication, .company, .restrict⟩
  | .jobApplicationTransferredBy => ⟨.jobApplication, .user, .restrict⟩
  | .jobApplicationTransferredFrom => ⟨.jobApplication, .company, .restrict⟩
  | .jobApplicationCommentCompany => ⟨.jobApplicationComment, .company, .cascade⟩
  | .jobApplicationCommentCreatedBy => ⟨.jobApplicationComment, .user, .restrict⟩
  | .jobApplicationSelectedJobsJobdescription => ⟨.jobApplicationSelectedJobs, .jobDescription, .cascade⟩
  | .jobApplicationTransitionLogTargetCompany => ⟨.jobApplicationTransitionLog, .company, .setNull⟩
  | .jobApplicationTransitionLogUser => ⟨.jobApplicationTransitionLog, .user, .restrict⟩
  | .jobDescriptionCompany => ⟨.jobDescription, .company, .cascade⟩
  | .jobSeekerAssignmentCompany => ⟨.jobSeekerAssignment, .company, .setNull⟩
  | .jobSeekerAssignmentJobSeeker => ⟨.jobSeekerAssignment, .user, .cascade⟩
  | .jobSeekerAssignmentPrescriberOrganization => ⟨.jobSeekerAssignment, .prescriberOrganization, .setNull⟩
  | .jobSeekerAssignmentProfessional => ⟨.jobSeekerAssignment, .user, .restrict⟩
  | .jobSeekerProfileUser => ⟨.jobSeekerProfile, .user, .cascade⟩
  | .laborInspectorInvitationSender => ⟨.laborInspectorInvitation, .user, .cascade⟩
  | .logEntryUser => ⟨.logEntry, .user, .cascade⟩
  | .mobilizationEventCompany => ⟨.mobilizationEvent, .company, .cascade⟩
  | .mobilizationEventUser => ⟨.mobilizationEvent, .user, .cascade⟩
  | .nirModificationRequestJobseekerProfile => ⟨.nirModificationRequest, .jobSeekerProfile, .cascade⟩
  | .nirModificationRequestRequestedBy => ⟨.nirModificationRequest, .user, .restrict⟩
  | .notificationSettingsStructure => ⟨.notificationSettings, .company, .cascade⟩
  | .notificationSettingsUser => ⟨.notificationSettings, .user, .cascade⟩
  | .orientationBeneficiary => ⟨.orientation, .user, .restrict⟩
  | .orientationSender => ⟨.orientation, .user, .restrict⟩
  | .orientationSenderCompany => ⟨.orientation, .company, .restrict⟩
  | .participationAppointment => ⟨.participation, .appointment, .cascade⟩
  | .participationJobSeeker => ⟨.participation, .user, .cascade⟩
  | .prescriberMembershipUpdatedBy => ⟨.prescriberMembership, .user, .restrict⟩
  | .prescriberMembershipUser => ⟨.prescriberMembership, .user, .cascade⟩
  | .prescriberOrganizationAuthorizationUpdatedBy => ⟨.prescriberOrganization, .user, .restrict⟩
  | .prescriberOrganizationCreatedBy => ⟨.prescriberOrganization, .user, .restrict⟩
  | .prescriberWithOrgInvitationSender => ⟨.prescriberWithOrgInvitation, .user, .cascade⟩
  | .prolongationCreatedBy => ⟨.prolongation, .user, .restrict⟩
  | .prolongationDeclaredBy => ⟨.prolongation, .user, .restrict⟩
  | .prolongationDeclaredBySiae => ⟨.prolongation, .company, .restrict⟩
  | .prolongationUpdatedBy => ⟨.prolongation, .user, .restrict⟩
  | .prolongationValidatedBy => ⟨.prolongation, .user, .restrict⟩
  | .prolongationRequestAssignedTo => ⟨.prolongationRequest, .user, .restrict⟩
  | .prolongationRequestCreatedBy => ⟨.prolongationRequest, .user, .restrict⟩
  | .prolongationRequestDeclaredBy => ⟨.prolongationRequest, .user, .restrict⟩
  | .prolongationRequestDeclaredBySiae => ⟨.prolongationRequest, .company, .restrict⟩
  | .prolongationRequestProcessedBy => ⟨.prolongationRequest, .user, .restrict⟩
  | .prolongationRequestUpdatedBy => ⟨.prolongationRequest, .user, .restrict⟩
  | .savedSearchUser => ⟨.savedSearch, .user, .cascade⟩
  | .selectedAdministrativeCriteriaEligibilityDiagnosis =>
      ⟨.selectedAdministrativeCriteria, .eligibilityDiagnosis, .cascade⟩
  | .siaeConventionReactivatedBy => ⟨.siaeConvention, .user, .restrict⟩
  | .suspensionCreatedBy => ⟨.suspension, .user, .restrict⟩
  | .suspensionSiae => ⟨.suspension, .company, .restrict⟩
  | .suspensionUpdatedBy => ⟨.suspension, .user, .restrict⟩
  | .tokenUser => ⟨.token, .user, .cascade⟩
  | .totpDeviceUser => ⟨.totpDevice, .user, .cascade⟩
  | .userCreatedBy => ⟨.user, .user, .restrict⟩
  | .userGroupsUser => ⟨.userGroups, .user, .cascade⟩
  | .userUserPermissionsUser => ⟨.userUserPermissions, .user, .cascade⟩

/-- The other columns that the modelled functions read, each in the rows of its model. -/
structure Columns where
  /-- Of a company. -/
  siret : String := ""
  kind : StoredKind := .reserved
  source : CompanySource := .asp
  isSearchable : Bool := false
  /-- Of a convention. -/
  isActive : Bool := false
  deactivatedAt : Option Int := none
  /-- Of an assignment. -/
  assignedToUnknownAdvisor : Bool := false

abbrev Row := Lib.Deletions.Row Model Relation Columns

/-! ## The constraints of the assignments -/

/-- `prescriber_organization_or_company_per_jobseekerassignment` and
`prescriber_organization_or_company_not_null_if_unknown_advisor`. -/
def checkAssignment (row : Row) : Bool :=
  !(row.fk .jobSeekerAssignmentCompany).isSome || !(row.fk .jobSeekerAssignmentPrescriberOrganization).isSome

def checkUnknownAdvisor (row : Row) : Bool :=
  !(row.columns.assignedToUnknownAdvisor && (row.fk .jobSeekerAssignmentCompany).isNone &&
    (row.fk .jobSeekerAssignmentPrescriberOrganization).isNone)

/-- `unique_jobseekerassignment_assignment_per_jobseeker`, for which two nulls are equal. -/
def sameAssignment (a b : Row) : Bool :=
  a.fk .jobSeekerAssignmentJobSeeker = b.fk .jobSeekerAssignmentJobSeeker &&
    a.fk .jobSeekerAssignmentProfessional = b.fk .jobSeekerAssignmentProfessional &&
    a.fk .jobSeekerAssignmentPrescriberOrganization = b.fk .jobSeekerAssignmentPrescriberOrganization &&
    a.fk .jobSeekerAssignmentCompany = b.fk .jobSeekerAssignmentCompany

def schema : Schema Model Relation Columns where
  model r := r.foreignKey.model
  target r := r.foreignKey.target
  onDelete r := r.foreignKey.onDelete
  check row := !decide (row.model = .jobSeekerAssignment) || (checkAssignment row && checkUnknownAdvisor row)
  conflict a b :=
    decide (a.model = .jobSeekerAssignment) && decide (b.model = .jobSeekerAssignment) && sameAssignment a b

abbrev Database := Lib.Deletions.Database schema

theorem check_iff (row : Row) : schema.check row = true ↔ (row.model = .jobSeekerAssignment →
    (row.fk .jobSeekerAssignmentCompany = none ∨ row.fk .jobSeekerAssignmentPrescriberOrganization = none) ∧
    (row.columns.assignedToUnknownAdvisor = true → row.fk .jobSeekerAssignmentCompany = none →
      row.fk .jobSeekerAssignmentPrescriberOrganization ≠ none)) := by
  simp [schema, checkAssignment, checkUnknownAdvisor, imp_iff_not_or, or_assoc, Option.isSome_iff_ne_none]

theorem conflict_iff (a b : Row) : schema.conflict a b = true ↔
    (a.model = .jobSeekerAssignment ∧ b.model = .jobSeekerAssignment) ∧
    a.fk .jobSeekerAssignmentJobSeeker = b.fk .jobSeekerAssignmentJobSeeker ∧
    a.fk .jobSeekerAssignmentProfessional = b.fk .jobSeekerAssignmentProfessional ∧
    a.fk .jobSeekerAssignmentPrescriberOrganization = b.fk .jobSeekerAssignmentPrescriberOrganization ∧
    a.fk .jobSeekerAssignmentCompany = b.fk .jobSeekerAssignmentCompany := by
  simp [schema, sameAssignment, and_assoc]

end Itou.Relations
