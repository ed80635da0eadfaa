import Itou.JobApplications.Models
import Itou.Lib.Queries
import Itou.OpenidConnect.Models
import Itou.Relations
import Mathlib.Data.List.Dedup
import Mathlib.Data.List.MinMax

/-!
# The duplicated job seekers

`deduplicate_job_seekers` groups the accounts that share a France Travail number and a birthdate. Those of a group are
merged into one of them: their job applications and their IAE diagnoses are linked to it, then they are deleted, with
what the relations to them cascade to.
-/

namespace Itou.DeduplicateJobSeekers

open Itou.Lib Itou.Lib.Deletions Itou.JobApplications Itou.OpenidConnect
open Itou.Relations (Model Relation)

/-! ## The database -/

/-- The columns that the command reads or writes, each in the rows of its model. -/
structure Columns where
  /-- Of a user. -/
  email : Option String := none
  lastLogin : Option Int := none
  kind : UserKind := .jobSeeker
  /-- Of a profile. -/
  birthdate : Option Int := none
  nir : String := ""
  lackOfNirReason : String := ""
  poleEmploiId : String := ""
  /-- Of a job application. -/
  senderKind : SenderKind := .jobSeeker
  /-- Of an identity certification. -/
  certifier : IdentityCertificationAuthorities := .apiFtRechercheIndividuCertifie
  deriving DecidableEq

abbrev Row := Lib.Deletions.Row Model Relation Columns

/-- `jobseekerprofile_lack_of_nir_reason_or_nir`. The primary key is the user. -/
def checkProfile (row : Row) : Bool :=
  (decide (row.columns.lackOfNirReason = "") || decide (row.columns.nir = "")) &&
    decide (row.fk .jobSeekerProfileUser = some row.pk)

/-- `job_seeker_sender_coherence`, which a null sender does not violate. -/
def checkSender (row : Row) : Bool :=
  !decide (row.columns.senderKind = .jobSeeker) || decide (row.fk .jobApplicationSender = none) ||
    decide (row.fk .jobApplicationSender = row.fk .jobApplicationJobSeeker)

/-- `jobseekerprofile_unique_nir_if_not_empty`. -/
def sameNir (a b : Row) : Bool := decide (a.columns.nir = b.columns.nir) && !decide (a.columns.nir = "")

def schema : Schema Model Relation Columns where
  model r := r.foreignKey.model
  target r := r.foreignKey.target
  onDelete r := r.foreignKey.onDelete
  check row := (!decide (row.model = .jobSeekerProfile) || checkProfile row) &&
    (!decide (row.model = .jobApplication) || checkSender row)
  conflict a b := decide (a.model = .jobSeekerProfile) && decide (b.model = .jobSeekerProfile) && sameNir a b

abbrev Database := Lib.Deletions.Database schema

/-! ## The groups of duplicates -/

/-- A user, with its profile and its approvals as they are loaded. -/
structure Account where
  pk : Nat
  user : Columns
  profile : Columns
  approvals : List Nat

/-- Django compares two users by their primary keys. -/
def Account.isNot (a b : Account) : Bool := decide (a.pk ≠ b.pk)

def Account.hasApproval (a : Account) : Bool := !a.approvals.isEmpty

def approvals (db : Database) (user : Nat) : List Nat :=
  (db.rows.filter fun row => decide (row.fk .approvalUser = some user)).map Row.pk

/-- The users that have a profile, in the order that the database returns. -/
def accounts (db : Database) : List Account :=
  (db.rows.filter fun row => decide (row.model = .user)).filterMap fun row =>
    (db.rows.find? fun profile => decide (profile.fk .jobSeekerProfileUser = some row.pk)).map fun profile =>
      ⟨row.pk, row.columns, profile.columns, approvals db row.pk⟩

def getDuplicatedPoleEmploiIds (db : Database) : List String :=
  let ids := ((accounts db).filter fun account => decide (account.user.kind = .jobSeeker) &&
    !decide (account.profile.poleEmploiId = "") && !decide (account.profile.poleEmploiId = "00000000")).map
      (·.profile.poleEmploiId)
  ids.dedup.filter fun id => decide (1 < ids.count id)

def sameBirthdate (duplicates : List Account) : Bool :=
  duplicates.all fun account =>
    decide (some account.profile.birthdate = duplicates.head?.map (·.profile.birthdate))

/-- The accounts of a group that are kept, if any. The first of the most common birthdates counts. -/
def keepDuplicates (duplicates : List Account) : Option (List Account) :=
  if sameBirthdate duplicates then some duplicates
  else if duplicates.length = 2 then none
  else
    let birthdates := duplicates.map (·.profile.birthdate)
    let mostCommonBirthdate := birthdates.argmax fun birthdate => birthdates.count birthdate
    let kept := duplicates.filter fun account => decide (some account.profile.birthdate = mostCommonBirthdate)
    if kept.length = 1 then none else some kept

def getDuplicatesByPoleEmploiId (db : Database) : List (String × List Account) :=
  let ids := getDuplicatedPoleEmploiIds db
  let users := (accounts db).filter fun account => decide (account.profile.poleEmploiId ∈ ids)
  (groupBy (·.profile.poleEmploiId) users).filterMap fun group =>
    (keepDuplicates group.2).map fun duplicates => (group.1, duplicates)

/-! ## The merge -/

inductive Failure where
  | assertionError
  | indexError
  | typeError
  | database (error : DatabaseError)
  deriving DecidableEq

/-- A job seeker is the sender of its own applications. -/
def relinkApplication (user target : Nat) (row : Row) : Row :=
  if row.model = .jobApplication ∧ row.fk .jobApplicationJobSeeker = some user then
    if row.columns.senderKind = .jobSeeker then
      (row.set .jobApplicationJobSeeker target).set .jobApplicationSender target
    else row.set .jobApplicationJobSeeker target
  else row

def relinkDiagnosis (user target : Nat) (row : Row) : Row :=
  if row.model = .eligibilityDiagnosis ∧ row.fk .eligibilityDiagnosisJobSeeker = some user then
    row.set .eligibilityDiagnosisJobSeeker target
  else row

theorem relinkApplication_key (user target : Nat) (row : Row) : (relinkApplication user target row).key = row.key := by
  unfold relinkApplication
  split
  · split <;> rfl
  · rfl

theorem relinkDiagnosis_key (user target : Nat) (row : Row) : (relinkDiagnosis user target row).key = row.key := by
  unfold relinkDiagnosis
  split <;> rfl

theorem formed_relinkApplication (user target : Nat) (row : Row) (h : schema.Formed row) :
    schema.Formed (relinkApplication user target row) := by
  unfold relinkApplication
  split
  next hrow =>
    have hset : schema.Formed (row.set .jobApplicationJobSeeker target) :=
      Schema.formed_set (r := .jobApplicationJobSeeker) h hrow.1.symm target
    split
    · exact Schema.formed_set (r := .jobApplicationSender) hset hrow.1.symm target
    · exact hset
  next => exact h

theorem formed_relinkDiagnosis (user target : Nat) (row : Row) (h : schema.Formed row) :
    schema.Formed (relinkDiagnosis user target row) := by
  unfold relinkDiagnosis
  split
  next hrow => exact Schema.formed_set (r := .eligibilityDiagnosisJobSeeker) h hrow.1.symm target
  next => exact h

/-- `user.job_applications.update`, `user.eligibility_diagnoses.update` and `user.delete`. -/
def mergeInto (target : Nat) (db : Database) (user : Nat) : Except DatabaseError Database := do
  let db ← db.update (relinkApplication user target) (relinkApplication_key user target)
    (formed_relinkApplication user target)
  let db ← db.update (relinkDiagnosis user target) (relinkDiagnosis_key user target)
    (formed_relinkDiagnosis user target)
  db.delete [(.user, user)]

def certifications (db : Database) (profile : Nat) : List (Model × Nat) :=
  (db.rows.filter fun row => decide (row.fk .identityCertificationJobseekerProfile = some profile) &&
    decide (row.columns.certifier = .apiFtRechercheIndividuCertifie)).map Row.key

/-- `JobSeekerProfile.save` of a changed NIR: the certifications of the former one are deleted. -/
def saveNir (target : Account) (nir : String) (db : Database) : Except DatabaseError Database := do
  let db ← db.delete (certifications db target.pk)
  db.save (.jobSeekerProfile, target.pk) fun _ => { target.profile with nir := nir, lackOfNirReason := "" }

def mergeUser (wetRun : Bool) (target : Account) (db : Database) (user : Account) : Except Failure Database :=
  if user.hasApproval then .error .assertionError
  else if wetRun then (mergeInto target.pk db user.pk).mapError .database
  else .ok db

/-- The only NIR of the accounts goes to the target, once the account that had it is deleted. -/
def reassignNir (wetRun : Bool) (target : Account) (nirs : List String) (db : Database) :
    Except DatabaseError Database :=
  match nirs with
  | [nir] => if target.profile.nir = "" ∧ wetRun = true then saveNir target nir db else .ok db
  | _ => .ok db

def handleEasyDuplicates (wetRun : Bool) (duplicates : List Account) (target : Account) (nirs : List String)
    (db : Database) : Except Failure Database :=
  if target.user.email.getD "" = "" then .error .assertionError
  else
    let usersToDelete := duplicates.filter (·.isNot target)
    -- The log joins their e-mails.
    if usersToDelete.any (·.user.email.isNone) then .error .typeError
    else do
      let db ← usersToDelete.foldlM (mergeUser wetRun target) db
      (reassignNir wetRun target nirs db).mapError .database

def nirs (duplicates : List Account) : List String :=
  (duplicates.map (·.profile.nir)).filter fun nir => decide (nir ≠ "")

/-- The user with an approval, or the first one who has logged in, or the first one. -/
def chooseTarget (duplicates : List Account) : Option Account :=
  (duplicates.find? (·.hasApproval)).or ((duplicates.find? (·.user.lastLogin.isSome)).or duplicates.head?)

/-- At most one NIR, and at most one user with an approval. -/
def isEasy (duplicates : List Account) : Bool :=
  decide ((nirs duplicates).length ≤ 1) && decide ((duplicates.filter (·.hasApproval)).length ≤ 1)

/-- The other groups are only logged. -/
def handleDuplicates (wetRun : Bool) (db : Database) (duplicates : List Account) : Except Failure Database :=
  if sameBirthdate duplicates then
    if isEasy duplicates then
      (chooseTarget duplicates).elim (.error .indexError) fun target =>
        handleEasyDuplicates wetRun duplicates target (nirs duplicates) db
    else .ok db
  else .error .assertionError

def handle (wetRun : Bool) (db : Database) : Except Failure Database :=
  (getDuplicatesByPoleEmploiId db).foldlM (fun db group => handleDuplicates wetRun db group.2) db

/-! ## What a merge leaves -/

/-- The row is deleted with one of these accounts, their diagnoses apart. -/
def Gone (db : Database) (accounts : List Nat) (k : Model × Nat) : Prop :=
  schema.Collected (db.rows.filter fun row => decide (row.model ≠ .eligibilityDiagnosis))
    (accounts.map fun pk => (.user, pk)) k

/-- The relations of the applications that are linked to the target: `sender` is for those that the job seeker sent. -/
def IsRelinked (row : Row) (r : Relation) : Prop :=
  r = .jobApplicationJobSeeker ∨ r = .jobApplicationSender ∧ row.columns.senderKind = .jobSeeker

/-- The rows that refer to the account and that restrict its deletion are linked to the target, or go with it. -/
def Unblocked (db : Database) (accounts : List Nat) (user : Nat) : Prop :=
  ∀ row ∈ db.rows, ∀ r : Relation, r.foreignKey.onDelete = .restrict → r.foreignKey.target = .user →
    row.fk r = some user → IsRelinked row r ∨ Gone db accounts row.key

def HasNir (s : Database) (pk : Nat) (nir : String) : Prop :=
  ∃ row ∈ s.rows, row.key = (.jobSeekerProfile, pk) ∧ row.columns.nir = nir

end Itou.DeduplicateJobSeekers
