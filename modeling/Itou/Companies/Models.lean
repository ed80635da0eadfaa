import Itou.Lib.Owners
import Itou.Organizations.Models

/-!
# Companies and what refers to them

The tables that `transfer_company_data` reads and writes.
-/

namespace Itou.Companies

open Itou.Lib Itou.Organizations

structure Company extends Itou.Company where
  siret : String
  source : CompanySource
  brand : String
  description : String
  isSearchable : Bool
  phone : String
  blockJobApplications : Bool
  jobApplicationsBlockedAt : Option Int
  deriving DecidableEq

/-- The companies of `CompanyManager`. -/
def Company.isManaged (company : Company) : Bool := CompanyManager.has company.siret company.kind

/-! ## Rows of the other tables -/

/-- A row of a table of which only the company matters here. -/
structure Related where
  pk : Nat
  company : Option Nat
  deriving DecidableEq

/-- These tables, and the column for the company. -/
inductive RelatedModel where
  /-- `EligibilityDiagnosis.author_siae`. -/
  | eligibilityDiagnosis
  /-- `GEIQEligibilityDiagnosis.author_geiq`. -/
  | geiqEligibilityDiagnosis
  /-- `JobDescription.company`. -/
  | jobDescription
  /-- `ProlongationRequest.declared_by_siae`. -/
  | prolongationRequest
  /-- `Prolongation.declared_by_siae`. -/
  | prolongation
  /-- `Suspension.siae`. -/
  | suspension
  deriving DecidableEq

structure EvaluatedSiae where
  pk : Nat
  evaluationCampaign : Nat
  siae : Nat
  deriving DecidableEq

/-- `unique_together = ("evaluation_campaign", "siae")`. -/
def EvaluatedSiae.columns : Columns EvaluatedSiae (Nat × Nat) := ⟨pk, fun e => (e.evaluationCampaign, e.siae)⟩

/-- A row of `Assessment.companies.through`. -/
structure AssessmentCompany where
  pk : Nat
  assessment : Nat
  company : Nat
  deriving DecidableEq

def AssessmentCompany.columns : Columns AssessmentCompany (Nat × Nat) := ⟨pk, fun a => (a.assessment, a.company)⟩

structure JobApplication where
  pk : Nat
  senderCompany : Option Nat
  toCompany : Nat
  transferredFrom : Option Nat
  selectedJobs : List Nat
  hiredJob : Option Nat
  deriving DecidableEq

structure EmployeeRecord where
  pk : Nat
  jobApplication : Nat
  deriving DecidableEq

/-- The columns `prescriber_organization` and `company` of an assignment, of which one at most is not null. -/
inductive AssignedTo where
  | nobody
  | prescriberOrganization (pk : Nat)
  | company (pk : Nat)
  deriving DecidableEq

structure JobSeekerAssignment where
  pk : Nat
  jobSeeker : Nat
  professional : Nat
  organization : AssignedTo
  createdAt : Int
  updatedAt : Int
  lastActionKind : String
  assignedToUnknownAdvisor : Bool
  deriving DecidableEq

def JobSeekerAssignment.columns : Columns JobSeekerAssignment (Nat × Nat × AssignedTo) :=
  ⟨pk, fun a => (a.jobSeeker, a.professional, a.organization)⟩

@[ext] structure Db where
  companies : List Company
  related : RelatedModel → List Related
  evaluatedSiaes : KeyedTable EvaluatedSiae.columns
  assessmentCompanies : KeyedTable AssessmentCompany.columns
  jobApplications : List JobApplication
  employeeRecords : List EmployeeRecord
  jobSeekerAssignments : KeyedTable JobSeekerAssignment.columns
  users : List Organizations.User
  memberships : Memberships
  invitations : List Invitation

/-- The company of a job description. -/
def Db.jobCompany (db : Db) (job : Nat) : Option Nat :=
  ((db.related .jobDescription).find? fun r => r.pk = job).bind Related.company

/-- The job descriptions of `JobDescriptionManager`. -/
def Db.isVisibleJob (db : Db) (job : Nat) : Bool :=
  (db.jobCompany job).any fun pk => (db.companies.find? fun c => c.pk = pk).any fun c =>
    !decide (c.kind ∈ [CompanyKind.ea, CompanyKind.eatt])

/-- The values that the assignment that is kept takes from the one that is deleted, in `merge_job_seeker_assignments`. -/
def mergeJobSeekerAssignments (assignmentToDelete assignmentToKeep : JobSeekerAssignment) : JobSeekerAssignment :=
  -- `max` gives the first one when they are equal.
  let lastAssignment :=
    if assignmentToDelete.updatedAt < assignmentToKeep.updatedAt then assignmentToKeep else assignmentToDelete
  { assignmentToKeep with
    createdAt := min assignmentToDelete.createdAt assignmentToKeep.createdAt
    updatedAt := lastAssignment.updatedAt
    lastActionKind := lastAssignment.lastActionKind }

end Itou.Companies
