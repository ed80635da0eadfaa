import Itou.EmployeeRecords.Models
import Itou.Lib.Queries
import Itou.Users
import Mathlib.Data.Int.Order.Basic
import Mathlib.Order.WithBot

/-!
# The hires that wait for an employee record, and its creation

`eligible_as_employee_record` lists them for a company, `from_job_application` builds the record of one of them.
-/

namespace Itou.EmployeeRecords.Creation

open Itou.Lib
open Itou.JobApplications (JobApplicationState)

/-! ## Companies -/

/-- `SiaeMeasure`. -/
inductive SiaeMeasure where
  | aci
  | ai
  | ei
  | eiti
  | etti
  | aciMp
  | eiMp
  | fdi
  deriving DecidableEq

/-- `SiaeMeasure.from_siae_kind`. -/
def SiaeMeasure.fromSiaeKind : CompanyKind → Option SiaeMeasure
  | .aci => some .aci
  | .ai => some .ai
  | .ei => some .ei
  | .eiti => some .eiti
  | .etti => some .etti
  | _ => none

structure SiaeConvention where
  pk : Nat
  aspId : Nat
  deriving DecidableEq

structure Company extends Itou.Company where
  siret : String
  source : CompanySource
  convention : Option SiaeConvention
  deriving DecidableEq

/-- `ASP_EMPLOYEE_RECORD_KINDS`. -/
def aspEmployeeRecordKinds : List CompanyKind := [.aci, .ai, .ei, .eiti, .etti]

def Company.canUseEmployeeRecord (c : Company) : Bool := c.kind ∈ aspEmployeeRecordKinds && c.convention.isSome

/-! ## Rows -/

structure Approval where
  pk : Nat
  number : String
  deriving DecidableEq

/-- A job application with the rows that it refers to. -/
structure JobApplication where
  pk : Nat
  state : JobApplicationState
  toCompany : Company
  jobSeeker : JobSeeker
  approval : Option Approval
  createEmployeeRecord : Bool
  hiringStartAt : Option Int
  deriving DecidableEq

/-- The column of `F("hiring_start_at").desc(nulls_last=True)`. -/
def JobApplication.hiringStartNullsLast (a : JobApplication) : WithBot Int := a.hiringStartAt

/-- What the validation of a record reads. -/
def JobApplication.toFetched (a : JobApplication) : EmployeeRecords.JobApplication where
  state := a.state
  convention := a.toCompany.convention.map SiaeConvention.pk
  approval := a.approval.map Approval.pk
  jobSeeker := a.jobSeeker

/-- The columns of a record that identify it. A new instance can miss the measure. -/
structure EmployeeRecord where
  jobApplication : Nat
  siret : String
  aspId : Nat
  aspMeasure : Option SiaeMeasure
  approvalNumber : String
  deriving DecidableEq

/-- The columns of `unique_asp_measure_siret_approval_number`. -/
def EmployeeRecord.identifiers (r : EmployeeRecord) : Option SiaeMeasure × String × String :=
  (r.aspMeasure, r.siret, r.approvalNumber)

/-- The tables, with the constraints that PostgreSQL keeps. -/
structure Db where
  companies : List Company
  jobApplications : List JobApplication
  employeeRecords : List EmployeeRecord
  companies_pk : companies.Pairwise fun c c' => c.pk ≠ c'.pk
  toCompany_mem : ∀ a ∈ jobApplications, a.toCompany ∈ companies
  aspMeasure_notNull : ∀ r ∈ employeeRecords, r.aspMeasure ≠ none
  identifiers_unique : employeeRecords.Pairwise fun r r' => r.identifiers ≠ r'.identifiers

namespace Db

variable (db : Db)

/-! ## The SIRET of a company for the ASP -/

/-- `canonical_company`: the company of source ASP that has the convention of an antenna. -/
def canonicalCompany (c : Company) : Company :=
  match c.convention with
  | none => c
  | some convention =>
      if c.source = .userCreated then
        ((db.companies.filter fun siae => CompanyManager.has siae.siret siae.kind ∧ siae.convention.map SiaeConvention.pk = some convention.pk).find?
          fun siae => siae.source = .asp).getD c
      else c

def siretFromAspSource (c : Company) : Except TransitionError String :=
  let canonical := db.canonicalCompany c
  if canonical.source = .asp then .ok canonical.siret
  else .error (.validation "Could not find authoritative SIAE from ASP source")

/-! ## The list -/

/-- `for_asp_company`. -/
def forAspCompany (siae : Company) : Except TransitionError (List EmployeeRecord) := do
  let siret ← db.siretFromAspSource siae
  return db.employeeRecords.filter fun r => r.siret = siret

/-- The filter of `eligible_as_employee_record`: accepted, with an approval, of the company, not kept from a record by the
admin, and without a record of its own. -/
def IsCandidate (siae : Company) (a : JobApplication) : Prop :=
  a.state = .accepted ∧ a.approval ≠ none ∧ a.toCompany.pk = siae.pk ∧ a.createEmployeeRecord = true ∧
    ∀ r ∈ db.employeeRecords, r.jobApplication ≠ a.pk

instance (siae : Company) (a : JobApplication) : Decidable (db.IsCandidate siae a) :=
  inferInstanceAs (Decidable (_ ∧ _ ∧ _ ∧ _ ∧ ∀ _ ∈ _, _))

def eligibleAsEmployeeRecord (siae : Company) : Except TransitionError (List JobApplication) :=
  if siae.canUseEmployeeRecord then do
    let records ← db.forAspCompany siae
    let approvalsToExclude := records.map EmployeeRecord.approvalNumber
    return orderByDesc JobApplication.hiringStartNullsLast (db.jobApplications.filter fun a =>
      db.IsCandidate siae a ∧ ∀ approval ∈ a.approval, approval.number ∉ approvalsToExclude)
  else .ok []

/-! ## The creation -/

/-- `_fill_denormalized_fields` of a new instance. -/
def fillDenormalizedFields (a : JobApplication) : Except TransitionError EmployeeRecord := do
  let siret ← db.siretFromAspSource a.toCompany
  match a.toCompany.convention, a.approval with
  | some convention, some approval =>
      .ok ⟨a.pk, siret, convention.aspId, SiaeMeasure.fromSiaeKind a.toCompany.kind, approval.number⟩
  | _, _ => .error .attribute

/-- What `validate_constraints` looks for: PostgreSQL holds two nulls for distinct. -/
def IsDuplicate (record : EmployeeRecord) : Prop :=
  record.aspMeasure ≠ none ∧ ∃ r ∈ db.employeeRecords, r.identifiers = record.identifiers

instance (record : EmployeeRecord) : Decidable (db.IsDuplicate record) :=
  inferInstanceAs (Decidable (_ ∧ ∃ r ∈ db.employeeRecords, r.identifiers = record.identifiers))

def fromJobApplication (a : JobApplication) (clean : Bool) : Except TransitionError EmployeeRecord := do
  if clean then a.toFetched.clean
  let record ← db.fillDenormalizedFields a
  if db.IsDuplicate record then
    .error (.validation "Une fiche salarié pour ce PASS IAE et cette SIAE existe déjà")
  else .ok record

/-- The `INSERT`, refused by the constraints of the table. -/
def save (record : EmployeeRecord) : Except TransitionError Db :=
  if hnull : record.aspMeasure = none then .error (.integrity "asp_measure")
  else if hunique : ∀ r ∈ db.employeeRecords, record.identifiers ≠ r.identifiers then
    .ok { db with
      employeeRecords := record :: db.employeeRecords
      aspMeasure_notNull := List.forall_mem_cons.mpr ⟨hnull, db.aspMeasure_notNull⟩
      identifiers_unique := List.pairwise_cons.mpr ⟨hunique, db.identifiers_unique⟩ }
  else .error (.integrity "unique_asp_measure_siret_approval_number")

/-! ## What the list and the creation owe to each other -/

/-- A record can be created, or its validation says why not. -/
def Creates (a : JobApplication) (clean : Bool) : Prop :=
  match db.fromJobApplication a clean with
  | .ok record => ∃ db', db.save record = .ok db'
  | .error e => ∃ message, e = .validation message

/-- A record has the measure and the SIRET of the company, and the number of the approval. -/
def Recorded (siae : Company) (siret : String) (a : JobApplication) : Prop :=
  ∃ r ∈ db.employeeRecords, r.aspMeasure = SiaeMeasure.fromSiaeKind siae.kind ∧ r.siret = siret ∧
    r.approvalNumber ∈ a.approval.map Approval.number

instance (siae : Company) (siret : String) (a : JobApplication) : Decidable (db.Recorded siae siret a) :=
  inferInstanceAs (Decidable (∃ r ∈ db.employeeRecords, r.aspMeasure = SiaeMeasure.fromSiaeKind siae.kind ∧
    r.siret = siret ∧ r.approvalNumber ∈ a.approval.map Approval.number))

/-- The applications of the list can have a record, and those of a company that have none are in the list. -/
structure ListAgrees : Prop where
  created : ∀ siae ∈ db.companies, ∀ l, db.eligibleAsEmployeeRecord siae = .ok l → ∀ a ∈ l, ∀ clean, db.Creates a clean
  listed : ∀ siae ∈ db.companies, siae.canUseEmployeeRecord = true → ∀ siret, db.siretFromAspSource siae = .ok siret →
    ∀ a ∈ db.jobApplications, db.IsCandidate siae a → ¬ db.Recorded siae siret a →
      ∃ l, db.eligibleAsEmployeeRecord siae = .ok l ∧ a ∈ l

/-- Where a record of another measure has the SIRET of a company and the number of the approval of one of its
candidates, a record of the measure of the company has them too. -/
def MeasuresRecorded : Prop :=
  ∀ siae ∈ db.companies, siae.canUseEmployeeRecord = true → ∀ siret, db.siretFromAspSource siae = .ok siret →
    ∀ a ∈ db.jobApplications, db.IsCandidate siae a → ∀ r ∈ db.employeeRecords,
      r.aspMeasure ≠ SiaeMeasure.fromSiaeKind siae.kind → r.siret = siret → r.approvalNumber ∈ a.approval.map Approval.number →
        db.Recorded siae siret a

end Db

end Itou.EmployeeRecords.Creation
