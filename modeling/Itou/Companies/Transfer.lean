import Itou.Companies.Models

/-!
# The transfer of the data of a company

`transfer_company_data` takes the fields one after the other. The items of a field are checked, and saved for the other
company.
-/

namespace Itou.Companies

open Itou.Lib Itou.Organizations

inductive TransferField where
  | iaeDiagCreated
  | geiqDiagCreated
  | evaluatedSiaes
  | geiqAssessments
  | jobApplicationsSent
  | jobApplicationsReceived
  | jobApplicationsTransferred
  | jobSeekerAssignments
  | employeeRecordsCreated
  | jobDescriptions
  | memberships
  | invitations
  | prolongations
  | prolongationRequests
  | suspensions
  | brand
  | description
  | isSearchable
  | phone
  deriving DecidableEq

/-- What `transfer_company_data` raises. -/
inductive TransferException where
  | transferError
  /-- There is no `upsert` in the specification of the field. -/
  | keyError
  /-- `MembershipAbstract.clean`. -/
  | validationError
  /-- No row has the key of the item. -/
  | doesNotExist
  deriving DecidableEq

/-- The columns of a company that are copied. -/
inductive CompanyField where
  | brand
  | description
  | isSearchable
  | phone
  deriving DecidableEq

/-- `setattr(to_company, name, getattr(from_company, name))`. -/
def CompanyField.copy (fromCompany toCompany : Company) : CompanyField → Company
  | .brand => { toCompany with brand := fromCompany.brand }
  | .description => { toCompany with description := fromCompany.description }
  | .isSearchable => { toCompany with isSearchable := fromCompany.isSearchable }
  | .phone => { toCompany with phone := fromCompany.phone }

/-! ## `TRANSFER_SPECS` -/

namespace TransferField

def modelField : TransferField → Option CompanyField
  | .brand => some .brand
  | .description => some .description
  | .isSearchable => some .isSearchable
  | .phone => some .phone
  | _ => none

/-- `related_model` and `related_model_field`, for the tables of which only the company matters. -/
def relatedModel : TransferField → Option RelatedModel
  | .iaeDiagCreated => some .eligibilityDiagnosis
  | .geiqDiagCreated => some .geiqEligibilityDiagnosis
  | .jobDescriptions => some .jobDescription
  | .prolongationRequests => some .prolongationRequest
  | .prolongations => some .prolongation
  | .suspensions => some .suspension
  | _ => none

def iaeOnly : TransferField → Bool
  | .iaeDiagCreated | .evaluatedSiaes | .employeeRecordsCreated | .prolongationRequests | .prolongations
  | .suspensions => true
  | _ => false

def geiqOnly : TransferField → Bool
  | .geiqDiagCreated | .geiqAssessments => true
  | _ => false

end TransferField

/-! ## Owners of the rows -/

/-- `EvaluatedSiae.siae`. -/
def EvaluatedSiae.bySiae : Ownership EvaluatedSiae.columns Nat Nat where
  owner := siae
  rest := evaluationCampaign
  setOwner pk e := { e with siae := pk }
  pk_setOwner _ _ := rfl
  owner_setOwner _ _ := rfl
  rest_setOwner _ _ := rfl
  key_eq_iff _ _ := by
    simp only [columns, Prod.mk.injEq]
    exact and_comm

/-- `Assessment.companies.through.company`. -/
def AssessmentCompany.byCompany : Ownership AssessmentCompany.columns Nat Nat where
  owner := company
  rest := assessment
  setOwner pk a := { a with company := pk }
  pk_setOwner _ _ := rfl
  owner_setOwner _ _ := rfl
  rest_setOwner _ _ := rfl
  key_eq_iff _ _ := by
    simp only [columns, Prod.mk.injEq]
    exact and_comm

/-- The `upsert` of `GEIQ_ASSESSMENTS`. -/
def AssessmentCompany.upsert : Merge AssessmentCompany.columns := ⟨true, fun _ toItem => toItem, fun _ _ => ⟨rfl, rfl⟩⟩

/-- `JobSeekerAssignment.company`. -/
def JobSeekerAssignment.byCompany : Ownership JobSeekerAssignment.columns AssignedTo (Nat × Nat) where
  owner := organization
  rest a := (a.jobSeeker, a.professional)
  setOwner organization a := { a with organization := organization }
  pk_setOwner _ _ := rfl
  owner_setOwner _ _ := rfl
  rest_setOwner _ _ := rfl
  key_eq_iff r s := by
    simp only [columns, Prod.mk.injEq]
    exact ⟨fun h => ⟨h.2.2, h.1, h.2.1⟩, fun h => ⟨h.2.1, h.2.2, h.1⟩⟩

/-- The `upsert` of `JOB_SEEKER_ASSIGNMENTS`. -/
def JobSeekerAssignment.upsert : Merge JobSeekerAssignment.columns :=
  ⟨true, mergeJobSeekerAssignments, fun _ _ => ⟨rfl, rfl⟩⟩

/-- `CompanyMembership.company`. The column `updated_at` is saved too. -/
def byCompany (now : Int) : Ownership Membership.columns Nat Nat where
  owner := Membership.organization
  rest := Membership.user
  setOwner pk m := { m with organization := pk, updatedAt := now }
  pk_setOwner _ _ := rfl
  owner_setOwner _ _ := rfl
  rest_setOwner _ _ := rfl
  key_eq_iff _ _ := by
    simp only [Membership.columns, Prod.mk.injEq]
    exact and_comm

/-- The `upsert` of `MEMBERSHIPS`. -/
def membershipUpsert (now : Int) : Merge Membership.columns where
  dispose := false
  merge item toItem := { toItem with
    isAdmin := item.isAdmin || toItem.isAdmin, isActive := item.isActive || toItem.isActive, updatedAt := now }
  keep _ _ := ⟨rfl, rfl⟩

/-! ## Items -/

section Items

variable (db : Db) (fromCompany toCompany : Company)

/-- `User.objects.filter(companymembership__company=to_company).values_list("email")`. -/
def Db.memberEmails (company : Nat) : List (Option String) :=
  (db.users.filter fun u => db.memberships.rows.any fun m => m.user = u.pk && m.organization = company).map (·.email)

/-- `NOT (email IN (…))`, which is unknown when one of the emails is null. -/
def notIn (emails : List (Option String)) (email : String) : Bool := emails.all fun e => e.any fun e => e ≠ email

/-- The invitations of `get_transfer_queryset`. -/
def Db.transfersInvitation (i : Invitation) : Bool :=
  i.organization = fromCompany.pk && notIn (db.memberEmails toCompany.pk) i.email

/-- `JobDescriptionManager` hides the job descriptions of some companies. -/
def Company.hides (company : Company) (model : RelatedModel) : Bool :=
  model = .jobDescription && decide (company.kind ∈ [CompanyKind.ea, CompanyKind.eatt])

def Related.move (fromCompany toCompany : Nat) (r : Related) : Related :=
  if r.company = some fromCompany then { r with company := some toCompany } else r

/-- The query of `get_transfer_queryset` finds an item. -/
def Db.hasItems (field : TransferField) : Bool :=
  match field.relatedModel with
  | some model => !fromCompany.hides model && (db.related model).any fun r => r.company = some fromCompany.pk
  | none =>
      match field with
      | .evaluatedSiaes => db.evaluatedSiaes.rows.any fun e => e.siae = fromCompany.pk
      | .geiqAssessments => db.assessmentCompanies.rows.any fun a => a.company = fromCompany.pk
      | .jobApplicationsSent => db.jobApplications.any fun a => a.senderCompany = some fromCompany.pk
      | .jobApplicationsReceived => db.jobApplications.any fun a => a.toCompany = fromCompany.pk
      | .jobApplicationsTransferred => db.jobApplications.any fun a => a.transferredFrom = some fromCompany.pk
      | .jobSeekerAssignments =>
          db.jobSeekerAssignments.rows.any fun a => a.organization = .company fromCompany.pk
      | .employeeRecordsCreated => db.employeeRecords.any fun r =>
          db.jobApplications.any fun a => a.pk = r.jobApplication && a.toCompany = fromCompany.pk
      | .memberships => db.memberships.rows.any fun m => m.organization = fromCompany.pk
      | .invitations => db.invitations.any (db.transfersInvitation fromCompany toCompany)
      | _ => false

/-- Whether the user of a membership lets `MembershipAbstract.clean` through. -/
def Db.isProfessional (user : Nat) : Bool := db.users.any fun u => u.pk = user && u.isProfessional

/-- The memberships are saved one after the other. -/
def Db.transferMemberships (now : Int) : Except TransferException Memberships :=
  (db.memberships.rows.filter fun m => m.organization = fromCompany.pk).foldlM
    (fun memberships item =>
      if db.isProfessional item.user then
        ((byCompany now).upsert (membershipUpsert now) toCompany.pk memberships item).elim (.error .doesNotExist) .ok
      else .error .validationError)
    db.memberships

/-- The items of a field are saved for the other company. -/
def Db.transferItems (now : Int) (field : TransferField) : Except TransferException Db :=
  match field.relatedModel with
  | some model =>
      if fromCompany.hides model then .ok db
      else .ok { db with
        related := fun model' =>
          if model' = model then (db.related model').map (Related.move fromCompany.pk toCompany.pk)
          else db.related model' }
  | none =>
      match field with
      | .evaluatedSiaes =>
          (EvaluatedSiae.bySiae.moveAll fromCompany.pk toCompany.pk db.evaluatedSiaes).elim (.error .keyError)
            fun rows => .ok { db with evaluatedSiaes := rows }
      | .geiqAssessments =>
          ((db.assessmentCompanies.rows.filter fun a => a.company = fromCompany.pk).foldlM
            (AssessmentCompany.byCompany.upsert AssessmentCompany.upsert toCompany.pk) db.assessmentCompanies).elim
            (.error .doesNotExist) fun rows => .ok { db with assessmentCompanies := rows }
      | .jobApplicationsSent => .ok { db with
          jobApplications := db.jobApplications.map fun a =>
            if a.senderCompany = some fromCompany.pk then { a with senderCompany := some toCompany.pk } else a }
      | .jobApplicationsReceived => .ok { db with
          jobApplications := db.jobApplications.map fun a =>
            if a.toCompany = fromCompany.pk then { a with toCompany := toCompany.pk } else a }
      | .jobApplicationsTransferred => .ok { db with
          jobApplications := db.jobApplications.map fun a =>
            if a.transferredFrom = some fromCompany.pk then { a with transferredFrom := some toCompany.pk } else a }
      | .jobSeekerAssignments =>
          ((db.jobSeekerAssignments.rows.filter fun a => a.organization = .company fromCompany.pk).foldlM
            (JobSeekerAssignment.byCompany.upsert JobSeekerAssignment.upsert (.company toCompany.pk))
            db.jobSeekerAssignments).elim (.error .doesNotExist) fun rows => .ok { db with jobSeekerAssignments := rows }
      | .memberships => (db.transferMemberships fromCompany toCompany now).map fun rows => { db with memberships := rows }
      | .invitations => .ok { db with
          invitations := db.invitations.map fun i =>
            if db.transfersInvitation fromCompany toCompany i then { i with organization := toCompany.pk } else i }
      -- `report_only`
      | _ => .ok db

end Items

/-! ## `transfer_company_data` -/

/-- The database, the instance of the company that receives, and the columns of it that have changed. -/
structure Progress where
  db : Db
  toCompany : Company
  saveUpdateFields : List CompanyField

section Transfer

variable (fromCompany : Company) (now : Int)

/-- One round of the loop on `fields_to_transfer`. -/
def Progress.transferField (p : Progress) (field : TransferField) : Except TransferException Progress :=
  match field.modelField with
  | some modelField =>
      if modelField.copy fromCompany p.toCompany ≠ p.toCompany then
        .ok { p with
          toCompany := modelField.copy fromCompany p.toCompany
          saveUpdateFields := p.saveUpdateFields ++ [modelField] }
      else .ok p
  | none =>
      if p.db.hasItems fromCompany p.toCompany field then
        if field.iaeOnly && !p.toCompany.isSubjectToIaeRules then .error .transferError
        else if field.geiqOnly && !decide (p.toCompany.kind = CompanyKind.geiq) then .error .transferError
        else (p.db.transferItems fromCompany p.toCompany now field).map fun db => { p with db := db }
      else .ok p

/-- The jobs selected are lost when the applications go without the job descriptions. `clear` removes those that the
manager of the job descriptions does not hide. -/
def Db.unlinkJobs (db : Db) (fields : List TransferField) : Db :=
  if TransferField.jobApplicationsReceived ∈ fields ∧ TransferField.jobDescriptions ∉ fields then
    { db with
      jobApplications := db.jobApplications.map fun a =>
        if a.toCompany = fromCompany.pk then
          { a with selectedJobs := a.selectedJobs.filter fun job => !db.isVisibleJob job }
        else a }
  else db

/-- `to_company.save(update_fields=save_update_fields)`. -/
def Progress.save (p : Progress) : Db :=
  { p.db with
    companies := p.db.companies.map fun row =>
      if row.pk = p.toCompany.pk then p.saveUpdateFields.foldl (fun row field => field.copy p.toCompany row) row
      else row }

/-- What `disable_from_company` asks for. -/
def Db.disableCompany (db : Db) : Db :=
  { db with
    companies := db.companies.map fun row =>
      if row.pk = fromCompany.pk && row.isManaged then
        { row with blockJobApplications := true, jobApplicationsBlockedAt := some now, isSearchable := false }
      else row
    memberships := db.memberships.modify
      (fun m => m.organization = fromCompany.pk && m.isActive && db.users.any fun u => u.pk = m.user && u.isActive)
      (fun m => { m with isActive := false }) fun _ => ⟨rfl, rfl⟩ }

/-- `transfer_company_data`, for two distinct companies. -/
def Db.transferCompanyData (db : Db) (toCompany : Company) (fieldsToTransfer : List TransferField)
    (disableFromCompany allowAspToUserCreatedTransfer : Bool) : Except TransferException Db :=
  if !allowAspToUserCreatedTransfer && fromCompany.source = .asp && toCompany.source = .userCreated then
    .error .transferError
  else
    (fieldsToTransfer.foldlM (Progress.transferField fromCompany now)
      ⟨db.unlinkJobs fromCompany fieldsToTransfer, toCompany, []⟩).map fun p =>
        if disableFromCompany then p.save.disableCompany fromCompany now else p.save

end Transfer

/-! ## Conditions of a transfer -/

/-- No campaign evaluated both companies. -/
def Db.EvaluatedApart (db : Db) (fromCompany toCompany : Company) : Prop :=
  ∀ e ∈ db.evaluatedSiaes.rows, e.siae = fromCompany.pk →
    ∀ e' ∈ db.evaluatedSiaes.rows, e'.siae = toCompany.pk → e'.evaluationCampaign ≠ e.evaluationCampaign

/-- The members of the company are professionals. -/
def Db.MembersProfessional (db : Db) (fromCompany : Company) : Prop :=
  ∀ m ∈ db.memberships.rows, m.organization = fromCompany.pk → db.isProfessional m.user = true

/-! ## Lists of fields -/

/-- The other company cannot receive the items of the field. -/
def TransferField.isBlocked (toCompany : Company) (field : TransferField) : Bool :=
  (field.iaeOnly && !toCompany.isSubjectToIaeRules) || (field.geiqOnly && !decide (toCompany.kind = .geiq))

/-- The items of the field cannot be saved. -/
def Db.Crashes (db : Db) (fromCompany toCompany : Company) (field : TransferField) : Prop :=
  (field = .memberships ∧ ¬ db.MembersProfessional fromCompany) ∨
    (field = .evaluatedSiaes ∧ toCompany.isSubjectToIaeRules = true ∧ ¬ db.EvaluatedApart fromCompany toCompany)

/-! ## Jobs of the applications -/

/-- The jobs that an application names. -/
def JobApplication.jobs (a : JobApplication) : List Nat := a.hiredJob.toList ++ a.selectedJobs

/-- The jobs of each application are those of the company that received it. -/
def Db.JobsOfCompany (db : Db) : Prop :=
  ∀ a ∈ db.jobApplications, ∀ job ∈ a.jobs, db.jobCompany job = some a.toCompany

/-- The job descriptions of the company go to the other one. -/
def Company.MovesJobs (fromCompany : Company) (fields : List TransferField) : Prop :=
  .jobDescriptions ∈ fields ∧ fromCompany.hides .jobDescription = false

/-- The jobs selected are cleared. -/
def Company.ClearsJobs (fromCompany : Company) (fields : List TransferField) : Prop :=
  .jobApplicationsReceived ∈ fields ∧ .jobDescriptions ∉ fields ∧ fromCompany.hides .jobDescription = false

/-- The applications and the job descriptions go together, or no application of the company names a job that is left. -/
def Db.JobsFollow (db : Db) (fromCompany : Company) (fields : List TransferField) : Prop :=
  (.jobApplicationsReceived ∈ fields ↔ fromCompany.MovesJobs fields) ∨
    ∀ a ∈ db.jobApplications, a.toCompany = fromCompany.pk →
      a.hiredJob = none ∧ (a.selectedJobs = [] ∨ fromCompany.ClearsJobs fields)

instance (fromCompany : Company) (fields : List TransferField) : Decidable (fromCompany.MovesJobs fields) :=
  inferInstanceAs (Decidable (_ ∧ _))

instance (fromCompany : Company) (fields : List TransferField) : Decidable (fromCompany.ClearsJobs fields) :=
  inferInstanceAs (Decidable (_ ∧ _ ∧ _))

end Itou.Companies
