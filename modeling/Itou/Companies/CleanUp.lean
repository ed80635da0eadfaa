import Itou.Lib.Outcomes
import Itou.Relations

/-!
# The clean-up of companies by the import

`cleanup_siaes_after_grace_period` deletes the companies for which `could_siae_be_deleted` is true. The relations that it
looks at are fewer than those that forbid the deletion.
-/

namespace Itou.Companies.CleanUp

open Itou.Lib Itou.Lib.Deletions Itou.Relations

/-- A company with its convention, as the import fetches it. -/
structure Siae where
  pk : Nat
  siret : String
  kind : StoredKind
  source : CompanySource
  isSearchable : Bool
  convention : Option (Nat × SiaeConvention)

def Siae.operator (siae : Siae) : Operator where
  siret := siae.siret
  kind := siae.kind
  source := siae.source
  isSearchable := siae.isSearchable
  convention := siae.convention.map Prod.snd

section Source

variable (db : Database)

def convention (pk : Nat) : Option (Nat × SiaeConvention) :=
  (db.rows.find? fun row => row.key = (.siaeConvention, pk)).map fun row =>
    (pk, ⟨row.columns.isActive, row.columns.deactivatedAt⟩)

def siaeOfRow (row : Row) : Siae where
  pk := row.pk
  siret := row.columns.siret
  kind := row.columns.kind
  source := row.columns.source
  isSearchable := row.columns.isSearchable
  convention := (row.fk .companyConvention).bind (convention db)

/-- `Company.objects`. -/
def companies : List Siae :=
  ((db.rows.filter fun row => decide (row.model = .company)).map (siaeOfRow db)).filter fun siae => siae.operator.inObjects

/-- `exists()` on the rows that refer to this one. -/
def relatedExists (field : Relation) (pk : Nat) : Bool := db.rows.any fun row => decide ((field, pk) ∈ row.links)

/-- `siae.eligibilitydiagnosis_set.exclude(approval=None).exists()`. -/
def hasDiagnosisWithApproval (pk : Nat) : Bool :=
  db.rows.any fun row => decide ((.eligibilityDiagnosisAuthorSiae, pk) ∈ row.links) &&
    relatedExists db .approvalEligibilityDiagnosis row.pk

/-- `convention.siaes.count()`. -/
def siaesCount (conventionPk : Nat) : Nat :=
  ((companies db).filter fun siae => decide (siae.convention.map Prod.fst = some conventionPk)).length

def couldSiaeBeDeleted (siae : Siae) : Except Operator.Exception Bool :=
  if relatedExists db .evaluatedSiaeSiae siae.pk then .ok false
  else if relatedExists db .jobApplicationToCompany siae.pk || relatedExists db .jobApplicationSenderCompany siae.pk ||
      relatedExists db .jobApplicationTransferredFrom siae.pk then .ok false
  else if relatedExists db .prolongationRequestDeclaredBySiae siae.pk then .ok false
  -- Do not delete SIAE if any approval is linked to one of the eligibility diagnosis it has created.
  else if hasDiagnosisWithApproval db siae.pk then .ok false
  -- An ASP siae can only be deleted when all its antennas have been deleted.
  else if siae.source = .asp then
    match siae.convention with
    | none => .error .attributeError
    | some (pk, _) => .ok (siaesCount db pk == 1)
  else .ok true

def deleteSiae (siae : Siae) : Except DatabaseError Database := db.delete [(.company, siae.pk)]

inductive CleanUpError where
  | exception (e : Operator.Exception)
  | database (e : DatabaseError)
  deriving DecidableEq

/-- The body of the loop. -/
def cleanupSiae (now : Int) (siae : Siae) : Except CleanUpError Database := do
  if ← (siae.operator.gracePeriodHasExpired now).mapError .exception then
    if ← (couldSiaeBeDeleted db siae).mapError .exception then
      (deleteSiae db siae).mapError .database
    else if siae.isSearchable then
      (db.save (.company, siae.pk) fun columns => { columns with isSearchable := false }).mapError .database
    else return db
  else return db

def cleanupSiaesAfterGracePeriod (now : Int) : Except CleanUpError Database :=
  (companies db).foldlM (fun db siae => cleanupSiae db now siae) db

end Source

/-! ## What a clean-up must keep -/

def keptModels : List Model :=
  [.jobApplication, .approval, .eligibilityDiagnosis, .geiqEligibilityDiagnosis, .suspension, .prolongation,
    .prolongationRequest, .jobSeekerAssignment, .employeeRecord]

def Keeps (db db' : Database) : Prop :=
  ∀ row ∈ db.rows, row.model ∈ keptModels → ∃ row' ∈ db'.rows, row'.key = row.key

/-- The clean-up can tell whether the company can be deleted, and then deletes it without touching these rows. -/
def CanBeCleanedUp (db : Database) (siae : Siae) : Prop :=
  couldSiaeBeDeleted db siae ≠ .error .attributeError ∧
    (couldSiaeBeDeleted db siae = .ok true → ∃ db', deleteSiae db siae = .ok db' ∧ Keeps db db')

/-- The relations to a company that forbid its deletion and that `could_siae_be_deleted` does not look at. -/
def uncheckedRelations : List Relation :=
  [.eligibilityDiagnosisAuthorSiae, .geiqEligibilityDiagnosisAuthorGeiq, .orientationSenderCompany,
    .prolongationDeclaredBySiae, .suspensionSiae]

/-- Those that it looks at. -/
def checkedRelations : List Relation :=
  [.evaluatedSiaeSiae, .jobApplicationToCompany, .jobApplicationSenderCompany, .jobApplicationTransferredFrom,
    .prolongationRequestDeclaredBySiae]

/-- Nothing that `could_siae_be_deleted` looks at refers to the company. -/
def Unblocked (db : Database) (pk : Nat) : Prop :=
  (∀ field ∈ checkedRelations, relatedExists db field pk = false) ∧ hasDiagnosisWithApproval db pk = false

/-- The assignments of the company can lose it: an unknown advisor needs it, and the same assignment may be there without
a company and without an organization. -/
def AssignmentsCanBeReleased (db : Database) (pk : Nat) : Prop :=
  ∀ a ∈ db.rows, (.jobSeekerAssignmentCompany, pk) ∈ a.links →
    a.columns.assignedToUnknownAdvisor = false ∧
      ∀ b ∈ db.rows, b.model = .jobSeekerAssignment →
        b.fk .jobSeekerAssignmentJobSeeker = a.fk .jobSeekerAssignmentJobSeeker →
        b.fk .jobSeekerAssignmentProfessional = a.fk .jobSeekerAssignmentProfessional →
        b.fk .jobSeekerAssignmentPrescriberOrganization = none → b.fk .jobSeekerAssignmentCompany ≠ none

/-- What the deletion of the company asks for. -/
def CanBeDeleted (db : Database) (pk : Nat) : Prop :=
  (∀ field ∈ uncheckedRelations, relatedExists db field pk = false) ∧ AssignmentsCanBeReleased db pk

/-- A company of the ASP is the only one of its convention. -/
def IsAlone (db : Database) (siae : Siae) : Prop :=
  siae.source = .asp → ∃ convention ∈ siae.convention, siaesCount db convention.1 = 1

/-! ## What the deletion of a company reaches -/

variable {db db' : Database} {siae : Siae} {row a b : Row} {k : Model × Nat} {pk pk' : Nat} {field : Relation}

end Itou.Companies.CleanUp
